import InputLeap.Protocol.DragInformation
import InputLeap.Protocol.ClipboardTransfer

/-! The text that is sent for the files that are dragged, and what is read from it. The size of the first file is passed
over only as a size, and the second pass takes it for a name. -/

namespace InputLeap.Protocol.DragInformation

open InputLeap.Lib

/-- What is behind the last slash, or behind the last backslash if there is no slash. -/
def baseName (filename : List UInt8) : List UInt8 := behind (slashOf filename) filename

/-- There is no size for a file that cannot be opened, and the function throws. -/
def setupLoop (getFileSize : List UInt8 → Option UInt64) : List DragFile → List UInt8 → Option (List UInt8)
  | [], output => some output
  | file :: files, output => do
    let filesize ← getFileSize file.filename
    setupLoop getFileSize files (output ++ (file.filename ++ comma :: (Decimal.encode filesize.toNat ++ [comma])))

def setupDragInfo (getFileSize : List UInt8 → Option UInt64) (fileList : List DragFile) (output : List UInt8) :
    Option (ℤ × List UInt8) :=
  let size := (BitVec.ofNat 32 fileList.length).toInt
  (setupLoop getFileSize (fileList.take size.toNat) output).map fun output => (size, output)

def Received (getFileSize : List UInt8 → Option UInt64) (file entry : DragFile) : Prop :=
  entry.filename = baseName file.filename ∧ (getFileSize file.filename).map UInt64.toNat = some entry.filesize

section Digits

variable {slash c : UInt8} {s t name rest : List UInt8} {size : UInt64}

lemma behind_append (h : slash ∉ t) (s : List UInt8) : behind slash (s ++ t) = behind slash s ++ t := by
  induction t using List.reverseRecOn with
  | nil => simp
  | append_singleton t c ih =>
    rw [List.mem_append, not_or, List.mem_singleton] at h
    rw [← List.append_assoc, behind_concat (Ne.symm h.2), ih h.1, List.append_assoc]

lemma not_mem_encode (h : Decimal.isDigit c = false) (n : ℕ) : c ∉ Decimal.encode n := by
  intro hmem
  rw [Decimal.isDigit_of_mem_encode hmem] at h
  cases h

lemma slashOf_not_mem_encode (data : List UInt8) (n : ℕ) : slashOf data ∉ Decimal.encode n := by
  rw [slashOf]
  split_ifs
  · exact not_mem_encode rfl n
  · exact not_mem_encode rfl n

lemma slashOf_entry (name : List UInt8) (n : ℕ) : slashOf (name ++ comma :: (Decimal.encode n ++ [comma])) = slashOf name := by
  have hdigits : 47 ∉ Decimal.encode n := not_mem_encode rfl n
  simp [slashOf, hdigits, comma]

lemma stringToNum_encode (uninit : UInt64) (size : UInt64) :
    stringToNum uninit (Decimal.encode size.toNat) = size.toNat := by
  rw [stringToNum, List.takeWhile_eq_self_iff.mpr (forall_ne_of_not_mem (not_mem_encode rfl _))]
  exact ClipboardChunk.stringToSizeType_encode uninit size.toNat_lt

end Digits

section Names

variable {data name : List UInt8} {files out : List DragFile} {uninit : UInt64}

lemma setFilesize_names {index size : ℕ} (h : setFilesize files index size = some out) :
    out.map (·.filename) = files.map (·.filename) := by
  rw [setFilesize] at h
  split_ifs at h with hindex
  obtain rfl := Option.some.inj h
  apply List.ext_getElem?
  intro i
  rw [List.getElem?_map, List.getElem?_map, List.getElem?_modify]
  cases files[i]? with
  | none => rfl
  | some file =>
    split_ifs
    · rfl
    · rfl

lemma pushFile_names {findResult1 findResult2 : ℕ} (h : pushFile data findResult1 findResult2 files = some out) :
    files <+: out := by
  rw [pushFile] at h
  split_ifs at h
  · obtain ⟨filename, -, rfl⟩ := Option.map_eq_some_iff.mp h
    exact List.prefix_append files _
  · obtain rfl := Option.some.inj h
    exact List.prefix_rfl

lemma readSize_names {index findResult1 findResult2 : ℕ}
    (h : readSize uninit data index findResult1 findResult2 files = some out) :
    out.map (·.filename) = files.map (·.filename) := by
  rw [readSize] at h
  split_ifs at h
  · obtain ⟨filesize, -, hset⟩ := Option.bind_eq_some_iff.mp h
    exact setFilesize_names hset
  · rw [Option.some.inj h]

lemma parsePass_names {index startPos next : ℕ} (h : parsePass uninit data index startPos files = some (.next out next)) :
    files.map (·.filename) <+: out.map (·.filename) := by
  rw [parsePass] at h
  dsimp only at h
  split_ifs at h with hstop
  · simp at h
  · obtain ⟨pushed, hpush, h⟩ := Option.bind_eq_some_iff.mp h
    obtain ⟨sized, hsize, h⟩ := Option.bind_eq_some_iff.mp h
    obtain ⟨rfl, -⟩ := Pass.next.inj (Option.some.inj h)
    rw [readSize_names hsize]
    exact (pushFile_names hpush).map _

lemma parseLoop_names {uninit : ℕ → UInt64} {passes index startPos : ℕ}
    (h : parseLoop uninit data passes index startPos files = some out) :
    files.map (·.filename) <+: out.map (·.filename) := by
  induction passes generalizing index startPos files with
  | zero =>
    obtain rfl := Option.some.inj h
    exact List.prefix_rfl
  | succ passes ih =>
    rw [parseLoop] at h
    split at h
    · cases h
    · obtain rfl := Option.some.inj h
      exact List.prefix_rfl
    · next hpass => exact (parsePass_names hpass).trans (ih h)

end Names

lemma head?_encode (n : ℕ) (rest : List UInt8) : (Decimal.encode n ++ comma :: rest).head? ≠ some comma := by
  have hcomma : comma ∉ Decimal.encode n := not_mem_encode rfl n
  cases hencode : Decimal.encode n with
  | nil => exact absurd hencode (Decimal.encode_ne_nil n)
  | cons c digits =>
    rw [hencode] at hcomma
    intro h
    obtain rfl : c = comma := by simpa using h
    exact hcomma List.mem_cons_self

section Passes

variable {data name rest : List UInt8} {size : UInt64} {uninit : ℕ → UInt64} (hname : comma ∉ name)
  (hdata : name ++ comma :: (Decimal.encode size.toNat ++ comma :: rest) = data) (hlength : data.length < npos)
include hname hdata hlength

lemma parsePass_first (hne : name ≠ []) :
    parsePass (uninit 0) data 0 0 [] =
      (setFilesize (addName (behind (slashOf data) name) []) 0 size.toNat).map
        fun files => .next files (name ++ [comma]).length := by
  have hsize : comma ∉ Decimal.encode size.toNat := not_mem_encode rfl _
  have hpass : parsePass (uninit 0) data 0 ([] : List UInt8).length [] = _ := parsePass_field hname hne hdata hlength []
  rw [if_neg (head?_encode _ _), takeWhile_field hsize, stringToNum_encode] at hpass
  exact hpass

lemma parseLoop_first (hbase : behind (slashOf data) name ≠ []) (passes : ℕ) :
    parseLoop uninit data (passes + 1) 0 0 [] =
      parseLoop uninit data passes 1 (name ++ [comma]).length [⟨behind (slashOf data) name, size.toNat⟩] := by
  have hne : name ≠ [] := by
    rintro rfl
    exact hbase rfl
  rw [parseLoop, parsePass_first hname hdata hlength hne, addName, if_neg hbase]
  rfl

lemma parseLoop_unnamed (hbase : behind (slashOf data) name = []) (passes : ℕ) :
    ∀ files, parseLoop uninit data (passes + 1) 0 0 [] = some files → files = [] := by
  intro files h
  by_cases hempty : name = []
  · rw [← hdata, hempty] at h
    have hstop := parseLoop_empty uninit [] (Decimal.encode size.toNat ++ comma :: rest) (passes + 1) 0 []
    exact Option.some.inj (h.symm.trans hstop)
  · rw [parseLoop, parsePass_first hname hdata hlength hempty, addName, if_pos hbase] at h
    cases h

omit hname in
lemma parseLoop_second {file : DragFile} {out : List DragFile} {passes : ℕ}
    (h : parseLoop uninit data (passes + 1) 1 (name ++ [comma]).length [file] = some out) :
    ∃ entry ∈ out, comma ∈ entry.filename := by
  have hsize : comma ∉ Decimal.encode size.toNat := not_mem_encode rfl _
  have hslash : slashOf data ∉ comma :: Decimal.encode size.toNat := by
    rw [List.mem_cons, not_or]
    exact ⟨(comma_ne_slashOf data).symm, slashOf_not_mem_encode data _⟩
  have hbehind : behind (slashOf data) (name ++ [comma] ++ Decimal.encode size.toNat) =
      behind (slashOf data) name ++ comma :: Decimal.encode size.toNat := by
    rw [← behind_append hslash, List.append_assoc, List.singleton_append]
  have hfront : (name ++ [comma]) ++ (Decimal.encode size.toNat ++ comma :: rest) = data := by
    rw [← hdata, List.append_assoc, List.singleton_append]
  have hadded : addName (behind (slashOf data) (name ++ [comma] ++ Decimal.encode size.toNat)) [file] =
      [file, ⟨behind (slashOf data) name ++ comma :: Decimal.encode size.toNat, 0⟩] := by
    rw [addName, hbehind, if_neg (by simp)]
    rfl
  rw [parseLoop, parsePass_field hsize (Decimal.encode_ne_nil _) hfront hlength, hadded] at h
  have hnames : [file.filename, behind (slashOf data) name ++ comma :: Decimal.encode size.toNat] <+:
      out.map (·.filename) := by
    split_ifs at h with hhead
    · exact parseLoop_names h
    · exact parseLoop_names h
  have hmem := hnames.subset (List.mem_cons_of_mem _ List.mem_cons_self)
  obtain ⟨entry, hentry, heq⟩ := List.mem_map.mp hmem
  exact ⟨entry, hentry, by rw [heq]; simp⟩

end Passes

section Setup

variable {getFileSize : List UInt8 → Option UInt64} {files : List DragFile} {output out : List UInt8}

lemma setupLoop_prefix (h : setupLoop getFileSize files output = some out) : output <+: out := by
  induction files generalizing output with
  | nil =>
    obtain rfl := Option.some.inj h
    exact List.prefix_rfl
  | cons file files ih =>
    rw [setupLoop] at h
    obtain ⟨filesize, -, hrest⟩ := Option.bind_eq_some_iff.mp h
    exact (List.prefix_append output _).trans (ih hrest)

lemma setupLoop_cons {file : DragFile} (h : setupLoop getFileSize (file :: files) [] = some out) :
    ∃ size rest, getFileSize file.filename = some size ∧
      file.filename ++ comma :: (Decimal.encode size.toNat ++ comma :: rest) = out ∧ (files = [] → rest = []) := by
  rw [setupLoop] at h
  obtain ⟨size, hsize, hrest⟩ := Option.bind_eq_some_iff.mp h
  obtain ⟨rest, rfl⟩ := setupLoop_prefix hrest
  refine ⟨size, rest, hsize, by simp, ?_⟩
  rintro rfl
  exact List.self_eq_append_right.mp (Option.some.inj hrest)

lemma setupDragInfo_count (hcount : files.length ≤ 65535) :
    setupDragInfo getFileSize files output = (setupLoop getFileSize files output).map fun out => (↑files.length, out) := by
  have hint : (BitVec.ofNat 32 files.length).toInt = files.length := by
    rw [BitVec.toInt_eq_toNat_of_lt]
    · rw [BitVec.toNat_ofNat, Nat.mod_eq_of_lt (by omega)]
    · rw [BitVec.toNat_ofNat, Nat.mod_eq_of_lt (by omega)]
      omega
  rw [setupDragInfo, hint]
  simp

end Setup

section RoundTrip

variable {getFileSize : List UInt8 → Option UInt64} {fileList files : List DragFile} {file entry : DragFile}

lemma Received.not_mem (h : Received getFileSize file entry) (hname : comma ∉ file.filename) : comma ∉ entry.filename := by
  rw [h.1]
  exact fun hmem => hname ((behind_suffix _ _).subset hmem)

lemma received_not_mem (h : List.Forall₂ (Received getFileSize) fileList files)
    (hnames : ∀ file ∈ fileList, comma ∉ file.filename) : ∀ entry ∈ files, comma ∉ entry.filename := by
  induction h with
  | nil => simp
  | cons hfile _ ih =>
    rw [List.forall_mem_cons] at hnames ⊢
    exact ⟨hfile.not_mem hnames.1, ih hnames.2⟩

/-- The text of what is dragged gives back the files that are dragged exactly if there is one at most, and its name does
not end with a separator. -/
theorem parse_setup_iff (uninit : ℕ → UInt64) (hnames : ∀ file ∈ fileList, comma ∉ file.filename)
    (hcount : fileList.length ≤ 65535) {size : ℤ} {output : List UInt8} (hlength : output.length < npos)
    (hsetup : setupDragInfo getFileSize fileList [] = some (size, output)) :
    (∃ files, parseDragInfo uninit size.toNat output = some files ∧ List.Forall₂ (Received getFileSize) fileList files) ↔
      fileList = [] ∨ ∃ file, fileList = [file] ∧ baseName file.filename ≠ [] := by
  rw [setupDragInfo_count hcount] at hsetup
  obtain ⟨text, hloop, heq⟩ := Option.map_eq_some_iff.mp hsetup
  obtain ⟨rfl, rfl⟩ := Prod.ext_iff.mp heq
  dsimp only at hlength ⊢
  rw [Int.toNat_natCast]
  cases fileList with
  | nil => exact iff_of_true ⟨[], rfl, .nil⟩ (Or.inl rfl)
  | cons file others =>
    have hname := hnames file List.mem_cons_self
    obtain ⟨size, rest, hsize, htext, hrest⟩ := setupLoop_cons hloop
    rw [List.length_cons, parseDragInfo]
    cases others with
    | nil =>
      have hbase : behind (slashOf text) file.filename = baseName file.filename := by
        rw [← htext, hrest rfl, slashOf_entry, baseName]
      by_cases hnone : baseName file.filename = []
      · refine iff_of_false ?_ (by simp [hnone])
        rintro ⟨files, hparse, hall⟩
        rw [parseLoop_unnamed hname htext hlength (hbase.trans hnone) 0 files hparse] at hall
        cases hall
      · rw [← hbase] at hnone
        refine iff_of_true ⟨_, parseLoop_first hname htext hlength hnone 0, ?_⟩ (Or.inr ⟨file, rfl, hbase ▸ hnone⟩)
        exact .cons ⟨hbase, by rw [hsize]; rfl⟩ .nil
    | cons other others =>
      refine iff_of_false ?_ (by simp)
      rintro ⟨files, hparse, hall⟩
      by_cases hnone : behind (slashOf text) file.filename = []
      · rw [parseLoop_unnamed hname htext hlength hnone _ files hparse] at hall
        cases hall
      · rw [parseLoop_first hname htext hlength hnone] at hparse
        obtain ⟨entry, hentry, hcomma⟩ := parseLoop_second htext hlength hparse
        exact received_not_mem hall hnames entry hentry hcomma

end RoundTrip

theorem one_file_parsed : ∃ files, parseDragInfo (fun _ => 0) 1 [47, 97, 44, 53, 44] = some files ∧
    List.Forall₂ (Received fun _ => some 5) [⟨[47, 97], 0⟩] files := by
  have hsetup : setupDragInfo (fun _ => some 5) [⟨[47, 97], 0⟩] [] = some (1, [47, 97, 44, 53, 44]) := rfl
  exact (parse_setup_iff (fun _ => 0) (by decide) (by decide) (by decide) hsetup).mpr (Or.inr ⟨_, rfl, by decide⟩)

/-- The files `a` of five bytes and `b` of seven. -/
theorem two_files_parsed : ¬ ∀ (uninit : ℕ → UInt64) (getFileSize : List UInt8 → Option UInt64) (fileList : List DragFile)
    (size : ℤ) (output : List UInt8), (∀ file ∈ fileList, comma ∉ file.filename) → fileList.length ≤ 65535 →
    output.length < npos → setupDragInfo getFileSize fileList [] = some (size, output) →
    ∃ files, parseDragInfo uninit size.toNat output = some files ∧
      List.Forall₂ (Received getFileSize) fileList files := by
  intro h
  obtain ⟨files, hparse, hall⟩ := h (fun _ => 0) (fun name => if name = [97] then some 5 else some 7)
    [⟨[97], 0⟩, ⟨[98], 0⟩] 2 [97, 44, 53, 44, 98, 44, 55, 44] (by decide) (by decide) (by decide) rfl
  have hrun : parseDragInfo (fun _ => 0) 2 [97, 44, 53, 44, 98, 44, 55, 44] =
      some [⟨[97], 5⟩, ⟨[97, 44, 53], 0⟩] := by decide +kernel
  obtain rfl := Option.some.inj (hrun.symm.trans hparse)
  obtain ⟨-, hrest⟩ := List.forall₂_cons.mp hall
  obtain ⟨hsecond, -⟩ := List.forall₂_cons.mp hrest
  exact absurd hsecond.1 (by decide)

end InputLeap.Protocol.DragInformation
