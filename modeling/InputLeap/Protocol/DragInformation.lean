import InputLeap.Lib.Lines
import InputLeap.Protocol.ClipboardChunk
import Mathlib.Data.List.DropRight

/-! The files that are dragged from one screen to another. They are sent as one text, with a comma behind each name and
behind each size, and are read from it with positions in the text, of which one stands for none. -/

namespace InputLeap.Protocol

open InputLeap.Lib

structure DragFile where
  filename : List UInt8
  filesize : ℕ
deriving DecidableEq

namespace DragInformation

section Strings

def npos : ℕ := 2 ^ 64 - 1

def comma : UInt8 := 44

variable (data : List UInt8)

/-- `std::string::find`. -/
def find (c : UInt8) (pos : ℕ) : ℕ :=
  let rest := data.drop pos
  let before := rest.takeWhile fun d => d ≠ c
  if before.length = rest.length then npos else pos + before.length

/-- `std::string::find_last_of` for one character. -/
def findLastOf (c : UInt8) (pos : ℕ) : ℕ :=
  let front := data.take (pos + 1)
  let behind := front.rtakeWhile fun d => d ≠ c
  if behind.length = front.length then npos else front.length - behind.length - 1

/-- `std::string::substr`, which throws for a position behind the end. -/
def substr (pos len : ℕ) : Option (List UInt8) :=
  if pos ≤ data.length then some ((data.drop pos).take len) else none

end Strings

def sizeAdd (a b : ℕ) : ℕ := (a + b) % 2 ^ 64

def sizeSub (a b : ℕ) : ℕ := ClipboardChunk.sizeSub a b

/-- Only what is in front of a zero is read. -/
def stringToNum (uninit : UInt64) (str : List UInt8) : ℕ := stringToSizeType uninit (str.takeWhile fun c => c ≠ 0)

/-- `dragFileList.at(index)`, which throws for an index behind the end. -/
def setFilesize (files : List DragFile) (index size : ℕ) : Option (List DragFile) :=
  if index < files.length then some (files.modify index fun f => { f with filesize := size }) else none

def slashOf (data : List UInt8) : UInt8 := if 47 ∈ data then 47 else 92

inductive Pass
  | stop
  | next (files : List DragFile) (startPos : ℕ)
deriving DecidableEq

/-- The name is added if it is not empty. -/
def pushFile (data : List UInt8) (findResult1 findResult2 : ℕ) (files : List DragFile) : Option (List DragFile) :=
  if 1 < sizeSub findResult1 findResult2 then
    (substr data (sizeAdd findResult2 1) (sizeSub (sizeSub findResult1 findResult2) 1)).map fun filename =>
      files ++ [⟨filename, 0⟩]
  else some files

def readSize (uninit : UInt64) (data : List UInt8) (index findResult1 findResult2 : ℕ) (files : List DragFile) :
    Option (List DragFile) :=
  if 1 < sizeSub findResult2 findResult1 then
    (substr data (sizeAdd findResult1 1) (sizeSub (sizeSub findResult2 findResult1) 1)).bind fun filesize =>
      setFilesize files index (stringToNum uninit filesize)
  else some files

def parsePass (uninit : UInt64) (data : List UInt8) (index startPos : ℕ) (files : List DragFile) : Option Pass :=
  let findResult1 := find data comma startPos
  let findResult2 := findLastOf data (slashOf data) findResult1
  if findResult1 = startPos then some .stop
  else do
    let files ← pushFile data findResult1 findResult2 files
    let startPos := sizeAdd findResult1 1
    let findResult2 := find data comma startPos
    let files ← readSize uninit data index findResult1 findResult2 files
    some (.next files startPos)

/-- The loop while `index < fileNum`. `uninit index` is what the variable in `stringToNum` happens to hold. -/
def parseLoop (uninit : ℕ → UInt64) (data : List UInt8) : ℕ → ℕ → ℕ → List DragFile → Option (List DragFile)
  | 0, _, _, files => some files
  | passes + 1, index, startPos, files =>
    match parsePass (uninit index) data index startPos files with
    | none => none
    | some .stop => some files
    | some (.next files startPos) => parseLoop uninit data passes (index + 1) startPos files

/-- There is no result where the function throws. -/
def parseDragInfo (uninit : ℕ → UInt64) (fileNum : ℕ) (data : List UInt8) : Option (List DragFile) :=
  parseLoop uninit data fileNum 0 0 []

section Positions

variable {data front rest field s : List UInt8} {slash c : UInt8} {pos : ℕ}

lemma forall_ne_of_not_mem (h : c ∉ s) : ∀ d ∈ s, decide (d ≠ c) = true := by
  intro d hd
  exact decide_eq_true (ne_of_mem_of_not_mem hd h)

lemma takeWhile_field (hfield : comma ∉ field) (rest : List UInt8) :
    (field ++ comma :: rest).takeWhile (fun d => d ≠ comma) = field := by
  rw [List.takeWhile_append_of_pos (forall_ne_of_not_mem hfield)]
  simp

lemma find_field (hfield : comma ∉ field) (front rest : List UInt8) :
    find (front ++ (field ++ comma :: rest)) comma front.length = front.length + field.length := by
  rw [find, List.drop_left' rfl, takeWhile_field hfield]
  simp

lemma find_none (h : comma ∉ data.drop pos) : find data comma pos = npos := by
  rw [find, List.takeWhile_eq_self_iff.mpr (forall_ne_of_not_mem h)]
  exact if_pos rfl

def behind (slash : UInt8) (s : List UInt8) : List UInt8 := s.rtakeWhile fun d => d ≠ slash

lemma behind_suffix (slash : UInt8) (s : List UInt8) : behind slash s <:+ s := List.rtakeWhile_suffix _ _

lemma length_behind_le (slash : UInt8) (s : List UInt8) : (behind slash s).length ≤ s.length :=
  (behind_suffix slash s).length_le

lemma drop_behind (slash : UInt8) (s : List UInt8) : s.drop (s.length - (behind slash s).length) = behind slash s :=
  (List.suffix_iff_eq_drop.mp (behind_suffix slash s)).symm

lemma behind_concat (h : c ≠ slash) (s : List UInt8) : behind slash (s ++ [c]) = behind slash s ++ [c] :=
  List.rtakeWhile_concat_pos _ _ _ (decide_eq_true h)

lemma not_mem_behind (slash : UInt8) (s : List UInt8) : slash ∉ behind slash s := by
  intro hmem
  have hne := List.mem_rtakeWhile_imp hmem
  exact of_decide_eq_true hne rfl

lemma length_behind_eq_iff : (behind slash s).length = s.length ↔ slash ∉ s := by
  constructor
  · intro h hmem
    have heq := (behind_suffix slash s).eq_of_length h
    exact not_mem_behind slash s (heq.symm ▸ hmem)
  · intro h
    rw [behind, List.rtakeWhile_eq_self_iff.mpr (forall_ne_of_not_mem h)]

lemma behind_eq_nil_iff (hs : s ≠ []) : behind slash s = [] ↔ s.getLast? = some slash := by
  rw [behind, List.rtakeWhile_eq_nil_iff, List.getLast?_eq_getLast_of_ne_nil hs, Option.some.injEq]
  simp [hs]

lemma sizeAdd_npos : sizeAdd npos 1 = 0 := rfl

lemma sizeSub_npos {a : ℕ} (h : a < npos) : sizeSub a npos = a + 1 := by
  have hn : npos = 2 ^ 64 - 1 := rfl
  rw [sizeSub, ClipboardChunk.sizeSub, Nat.mod_eq_of_lt (by omega : npos < 2 ^ 64)]
  omega

lemma sizeSub_of_le {a b : ℕ} (hle : b ≤ a) (ha : a ≤ npos) : sizeSub a b = a - b := by
  have hn : npos = 2 ^ 64 - 1 := rfl
  exact ClipboardChunk.sizeSub_of_le hle (by omega)

lemma sizeAdd_one {a : ℕ} (h : a < npos) : sizeAdd a 1 = a + 1 := by
  have hn : npos = 2 ^ 64 - 1 := rfl
  exact Nat.mod_eq_of_lt (by omega)

lemma findLastOf_comma (hslash : comma ≠ slash) (hlength : s.length < npos) (rest : List UInt8) :
    sizeSub s.length (findLastOf (s ++ comma :: rest) slash s.length) = (behind slash s).length + 1 ∧
      sizeAdd (findLastOf (s ++ comma :: rest) slash s.length) 1 = s.length - (behind slash s).length := by
  have hfront : (s ++ comma :: rest).take (s.length + 1) = s ++ [comma] := by
    rw [List.append_cons, List.take_left' (by simp)]
  have hbehind : (s ++ [comma]).rtakeWhile (fun d => d ≠ slash) = behind slash s ++ [comma] := behind_concat hslash s
  have hle := length_behind_le slash s
  rw [findLastOf, hfront, hbehind, List.length_append, List.length_append, List.length_singleton]
  split_ifs with hall
  · rw [sizeSub_npos hlength, sizeAdd_npos]
    omega
  · rw [sizeSub_of_le (by omega) hlength.le, sizeAdd_one (by omega)]
    omega

end Positions

section Passes

variable {data front rest field : List UInt8} {index : ℕ} {files : List DragFile} {uninit : UInt64}

lemma comma_ne_slashOf (data : List UInt8) : comma ≠ slashOf data := by
  rw [slashOf]
  split_ifs
  · decide
  · decide

def addName (name : List UInt8) (files : List DragFile) : List DragFile :=
  if name = [] then files else files ++ [⟨name, 0⟩]

lemma pushFile_comma {s : List UInt8} (hlength : (s ++ comma :: rest).length < npos) (files : List DragFile) :
    pushFile (s ++ comma :: rest) s.length
        (findLastOf (s ++ comma :: rest) (slashOf (s ++ comma :: rest)) s.length) files =
      some (addName (behind (slashOf (s ++ comma :: rest)) s) files) := by
  have hslash := comma_ne_slashOf (s ++ comma :: rest)
  generalize slashOf (s ++ comma :: rest) = slash at hslash
  have hshort : s.length < npos := by
    rw [List.length_append] at hlength
    omega
  obtain ⟨hsub, hadd⟩ := findLastOf_comma hslash hshort rest
  have hle := length_behind_le slash s
  rw [pushFile, hsub, hadd, addName]
  by_cases hname : behind slash s = []
  · simp [hname]
  · have hpos : 0 < (behind slash s).length := List.length_pos_iff.mpr hname
    have hdrop : (s ++ comma :: rest).drop (s.length - (behind slash s).length) = behind slash s ++ comma :: rest := by
      rw [List.drop_append_of_le_length (Nat.sub_le _ _), drop_behind]
    have hinside : s.length - (behind slash s).length ≤ (s ++ comma :: rest).length := by
      rw [List.length_append]
      omega
    rw [if_pos (by omega), if_neg hname, substr, if_pos hinside, hdrop, sizeSub_of_le (by omega) (by omega),
      Nat.add_sub_cancel, List.take_left' rfl, Option.map_some]

lemma readSize_found {s : List UInt8} {found : ℕ} (hlength : (s ++ comma :: rest).length < npos)
    (hle : s.length < found) (hfound : found ≤ npos) (files : List DragFile) :
    readSize uninit (s ++ comma :: rest) index s.length found files =
      if 1 < found - s.length then setFilesize files index (stringToNum uninit (rest.take (found - s.length - 1)))
      else some files := by
  have hdrop : (s ++ comma :: rest).drop (s.length + 1) = rest := by
    rw [List.append_cons, List.drop_left' (by simp)]
  have hinside : s.length + 1 ≤ (s ++ comma :: rest).length := by
    rw [List.length_append, List.length_cons]
    omega
  rw [readSize, sizeSub_of_le hle.le hfound, sizeSub_of_le (by omega) (by omega), sizeAdd_one (by omega), substr,
    if_pos hinside, hdrop, Option.bind_some]

lemma readSize_comma {s : List UInt8} (hlength : (s ++ comma :: rest).length < npos) (files : List DragFile) :
    readSize uninit (s ++ comma :: rest) index s.length (find (s ++ comma :: rest) comma (s.length + 1)) files =
      if rest.head? = some comma then some files
      else setFilesize files index (stringToNum uninit (rest.takeWhile fun d => d ≠ comma)) := by
  have hsum : (s ++ comma :: rest).length = s.length + (rest.length + 1) := by simp
  cases hfirst : Lines.firstLine comma rest with
  | none =>
    have hcomma := Lines.firstLine_eq_none.mp hfirst
    have hhead : rest.head? ≠ some comma := fun h => hcomma (List.mem_of_mem_head? h)
    have hnone : find (s ++ comma :: rest) comma (s.length + 1) = npos := by
      apply find_none
      rwa [List.append_cons, List.drop_left' (by simp)]
    rw [hnone, readSize_found hlength (by omega) le_rfl, if_pos (by omega), if_neg hhead,
      List.take_of_length_le (by omega), List.takeWhile_eq_self_iff.mpr (forall_ne_of_not_mem hcomma)]
  | some cut =>
    obtain ⟨size, more⟩ := cut
    obtain ⟨rfl, hsize⟩ := Lines.firstLine_eq_some hfirst
    have hfind : find (s ++ comma :: (size ++ comma :: more)) comma (s.length + 1) = s.length + 1 + size.length := by
      have := find_field hsize (s ++ [comma]) more
      simpa using this
    have hmore : (size ++ comma :: more).length = size.length + (more.length + 1) := by simp
    have hcut : s.length + 1 + size.length - s.length - 1 = size.length := by omega
    rw [hfind, readSize_found hlength (by omega) (by omega), takeWhile_field hsize, hcut, List.take_left' rfl]
    cases size with
    | nil =>
      rw [if_neg (by simp)]
      exact (if_pos rfl).symm
    | cons c size =>
      have hhead : ((c :: size) ++ comma :: more).head? ≠ some comma := by
        intro h
        obtain rfl : c = comma := by simpa using h
        exact hsize List.mem_cons_self
      rw [if_neg hhead, if_pos (by rw [List.length_cons]; omega)]

/-- Without another comma the position wraps around to the start of the text. -/
lemma readSize_start (hlength : data.length < npos) (files : List DragFile) :
    readSize uninit data index npos (find data comma 0) files =
      if comma ∈ data ∧ data.head? ≠ some comma then
        setFilesize files index (stringToNum uninit (data.takeWhile fun d => d ≠ comma))
      else some files := by
  cases hfirst : Lines.firstLine comma data with
  | none =>
    have hcomma := Lines.firstLine_eq_none.mp hfirst
    have hnone : find data comma 0 = npos := find_none (by rwa [List.drop_zero])
    rw [hnone, if_neg fun h => hcomma h.1]
    rfl
  | some cut =>
    obtain ⟨field, rest⟩ := cut
    obtain ⟨rfl, hfield⟩ := Lines.firstLine_eq_some hfirst
    have hsum : (field ++ comma :: rest).length = field.length + (rest.length + 1) := by simp
    have hfind : find (field ++ comma :: rest) comma 0 = field.length := by
      have := find_field hfield [] rest
      simpa using this
    rw [hfind, readSize, sizeSub_npos (by omega), sizeAdd_npos, takeWhile_field hfield,
      sizeSub_of_le (by omega) (by omega), Nat.add_sub_cancel, substr, if_pos (Nat.zero_le _), List.drop_zero,
      List.take_left' rfl, Option.bind_some]
    cases field with
    | nil => simp
    | cons c field =>
      have hhead : ((c :: field) ++ comma :: rest).head? ≠ some comma := by
        intro h
        obtain rfl : c = comma := by simpa using h
        exact hfield List.mem_cons_self
      rw [if_pos (by rw [List.length_cons]; omega), if_pos ⟨by simp, hhead⟩]

lemma pushFile_npos (hlength : data.length < npos) (files : List DragFile) :
    pushFile data npos (findLastOf data (slashOf data) npos) files =
      some (if slashOf data ∈ data then files ++ [⟨behind (slashOf data) data, 0⟩] else files) := by
  generalize slashOf data = slash
  have hle := length_behind_le slash data
  have hfront : data.take (npos + 1) = data := List.take_of_length_le (by omega)
  have hlast : findLastOf data slash npos =
      if (behind slash data).length = data.length then npos else data.length - (behind slash data).length - 1 := by
    rw [findLastOf, hfront]
    rfl
  rw [pushFile, hlast]
  by_cases hmem : slash ∈ data
  · have hless : (behind slash data).length ≠ data.length := fun h => length_behind_eq_iff.mp h hmem
    have hn : npos = 2 ^ 64 - 1 := rfl
    have hadd : sizeAdd (data.length - (behind slash data).length - 1) 1 = data.length - (behind slash data).length := by
      rw [sizeAdd_one (by omega)]
      omega
    rw [if_neg hless, if_pos hmem, sizeSub_of_le (by omega) le_rfl, if_pos (by omega), hadd,
      sizeSub_of_le (by omega) (by omega), substr, if_pos (Nat.sub_le _ _), drop_behind, List.take_of_length_le (by omega),
      Option.map_some]
  · rw [if_pos (length_behind_eq_iff.mpr hmem), if_neg hmem]
    rfl

lemma parsePass_empty (front more : List UInt8) (files : List DragFile) :
    parsePass uninit (front ++ comma :: more) index front.length files = some .stop := by
  have hfind : find (front ++ comma :: more) comma front.length = front.length := find_field List.not_mem_nil front more
  rw [parsePass, hfind]
  exact if_pos rfl

lemma parsePass_field {more : List UInt8} (hfield : comma ∉ field) (hne : field ≠ [])
    (hdata : front ++ (field ++ comma :: more) = data) (hlength : data.length < npos) (files : List DragFile) :
    parsePass uninit data index front.length files =
      (if more.head? = some comma then some (addName (behind (slashOf data) (front ++ field)) files)
        else setFilesize (addName (behind (slashOf data) (front ++ field)) files) index
          (stringToNum uninit (more.takeWhile fun d => d ≠ comma))).map
        fun files => .next files (front ++ field ++ [comma]).length := by
  have hpos : 0 < field.length := List.length_pos_iff.mpr hne
  have hfind : find data comma front.length = (front ++ field).length := by
    rw [← hdata, find_field hfield, List.length_append]
  have hmoved : (front ++ field).length ≠ front.length := by
    rw [List.length_append]
    omega
  rw [← List.append_assoc] at hdata
  subst hdata
  have hinside : (front ++ field).length < npos := by
    rw [List.length_append] at hlength
    omega
  rw [parsePass, hfind]
  simp only [if_neg hmoved, pushFile_comma hlength, sizeAdd_one hinside, Option.bind_eq_bind, Option.bind_some]
  have hnext : (front ++ field ++ [comma]).length = (front ++ field).length + 1 := List.length_append
  rw [readSize_comma hlength, hnext]
  cases (if more.head? = some comma then _ else _ : Option (List DragFile)) with
  | none => rfl
  | some sized => rfl

lemma parsePass_last {startPos : ℕ} (hlast : comma ∉ data.drop startPos) (hstart : startPos < npos)
    (hlength : data.length < npos) (files : List DragFile) :
    parsePass uninit data index startPos files =
      (if comma ∈ data ∧ data.head? ≠ some comma then
          setFilesize (if slashOf data ∈ data then files ++ [⟨behind (slashOf data) data, 0⟩] else files) index
            (stringToNum uninit (data.takeWhile fun d => d ≠ comma))
        else some (if slashOf data ∈ data then files ++ [⟨behind (slashOf data) data, 0⟩] else files)).map
        fun files => .next files 0 := by
  rw [parsePass, find_none hlast]
  simp only [if_neg hstart.ne', pushFile_npos hlength, sizeAdd_npos, Option.bind_eq_bind, Option.bind_some]
  rw [readSize_start hlength]
  cases (if comma ∈ data ∧ data.head? ≠ some comma then _ else _ : Option (List DragFile)) with
  | none => rfl
  | some sized => rfl

end Passes

section Throws

def named (slash : UInt8) (field : List UInt8) : Bool := field ≠ [] ∧ field.getLast? ≠ some slash

/-- The passes stop in front of an empty field. A field that ends with a separator adds no name, so that the next size has
none to go to, and behind the last field only a path is a name. -/
def SafeFields (data : List UInt8) (passes : ℕ) (fields : List (List UInt8)) : Prop :=
  passes ≤ (fields.takeWhile (named (slashOf data))).length ∨
    match fields.dropWhile (named (slashOf data)) with
    | [] => comma ∈ data → slashOf data ∈ data
    | field :: more => field = [] ∨ more.head? = some []

def Safe (fileNum : ℕ) (data : List UInt8) : Prop := SafeFields data fileNum (Lines.lines comma data)

variable {data rest field : List UInt8} {fields more : List (List UInt8)} {passes : ℕ}

lemma named_iff {slash : UInt8} : named slash field = true ↔ field ≠ [] ∧ field.getLast? ≠ some slash :=
  decide_eq_true_iff

lemma safeFields_zero (data : List UInt8) (fields : List (List UInt8)) : SafeFields data 0 fields := Or.inl (Nat.zero_le _)

lemma safeFields_nil : SafeFields data (passes + 1) [] ↔ (comma ∈ data → slashOf data ∈ data) := by
  rw [SafeFields, List.takeWhile_nil, List.dropWhile_nil]
  exact or_iff_right (Nat.not_succ_le_zero _)

lemma safeFields_named (h : named (slashOf data) field = true) :
    SafeFields data (passes + 1) (field :: more) ↔ SafeFields data passes more := by
  rw [SafeFields, SafeFields, List.takeWhile_cons_of_pos h, List.dropWhile_cons_of_pos h, List.length_cons,
    Nat.add_le_add_iff_right]

lemma safeFields_unnamed (h : ¬ named (slashOf data) field = true) :
    SafeFields data (passes + 1) (field :: more) ↔ field = [] ∨ more.head? = some [] := by
  rw [SafeFields, List.takeWhile_cons_of_neg h, List.dropWhile_cons_of_neg h]
  exact or_iff_right (Nat.not_succ_le_zero _)

lemma safeFields_all (hnamed : ∀ field ∈ fields, named (slashOf data) field = true) (hslash : slashOf data ∈ data) :
    SafeFields data passes fields := by
  right
  rw [List.dropWhile_eq_nil_iff.mpr hnamed]
  exact fun _ => hslash

lemma lines_eq_nil_iff : Lines.lines comma rest = [] ↔ comma ∉ rest := by
  constructor
  · intro h hmem
    cases hfirst : Lines.firstLine comma rest with
    | none => exact Lines.firstLine_eq_none.mp hfirst hmem
    | some cut =>
      obtain ⟨rfl, hline⟩ := Lines.firstLine_eq_some hfirst
      rw [Lines.lines_append_line hline] at h
      cases h
  · intro h
    rw [Lines.lines, Lines.split_of_not_mem h]

lemma head?_lines : (Lines.lines comma rest).head? = some [] ↔ rest.head? = some comma := by
  cases hfirst : Lines.firstLine comma rest with
  | none =>
    have hcomma := Lines.firstLine_eq_none.mp hfirst
    rw [lines_eq_nil_iff.mpr hcomma]
    refine iff_of_false (by simp) fun h => ?_
    exact hcomma (List.mem_of_mem_head? h)
  | some cut =>
    obtain ⟨rfl, hline⟩ := Lines.firstLine_eq_some hfirst
    rw [Lines.lines_append_line hline]
    cases hcut : cut.1 with
    | nil => simp
    | cons c line =>
      have hc : c ≠ comma := by
        rintro rfl
        exact hline (hcut ▸ List.mem_cons_self)
      simp [hc]

lemma setFilesize_added (files : List DragFile) (added : DragFile) (size : ℕ) :
    ∃ sized, setFilesize (files ++ [added]) files.length size = some sized ∧ sized.length = files.length + 1 :=
  ⟨_, if_pos (by simp), by simp⟩

lemma behind_field (hne : field ≠ []) (front : List UInt8) {slash : UInt8} :
    behind slash (front ++ field) = [] ↔ field.getLast? = some slash := by
  rw [behind_eq_nil_iff (by simp [hne]), List.getLast?_append_of_ne_nil _ hne]

lemma parseLoop_empty (uninit : ℕ → UInt64) (front more : List UInt8) (passes index : ℕ) (files : List DragFile) :
    parseLoop uninit (front ++ comma :: more) passes index front.length files = some files := by
  cases passes with
  | zero => rfl
  | succ passes => rw [parseLoop, parsePass_empty]

lemma parseLoop_no_comma (uninit : ℕ → UInt64) (hcomma : comma ∉ data) (hlength : data.length < npos) (passes index : ℕ)
    (files : List DragFile) : (parseLoop uninit data passes index 0 files).isSome = true := by
  induction passes generalizing index files with
  | zero => rfl
  | succ passes ih =>
    have hlast : comma ∉ data.drop 0 := by rwa [List.drop_zero]
    rw [parseLoop, parsePass_last hlast (by decide) hlength, if_neg fun h => hcomma h.1, Option.map_some]
    exact ih _ _

lemma parseLoop_isSome (uninit : ℕ → UInt64) (hcomma : comma ∈ data) (hlength : data.length < npos) (passes : ℕ)
    {front rest : List UInt8} (seen : List (List UInt8)) (files : List DragFile) (hdata : front ++ rest = data)
    (hlines : Lines.lines comma data = seen ++ Lines.lines comma rest)
    (hseen : ∀ field ∈ seen, named (slashOf data) field = true) :
    (parseLoop uninit data passes files.length front.length files).isSome = true ↔
      SafeFields data passes (Lines.lines comma rest) := by
  induction passes generalizing front rest seen files with
  | zero => exact iff_of_true rfl (safeFields_zero _ _)
  | succ passes ih =>
    have hfront : front.length < npos := by
      rw [← hdata, List.length_append] at hlength
      omega
    cases hfirst : Lines.firstLine comma rest with
    | none =>
      have hrest := Lines.firstLine_eq_none.mp hfirst
      rw [lines_eq_nil_iff.mpr hrest, List.append_nil] at hlines
      have hhead : data.head? ≠ some comma := by
        rw [Ne, ← head?_lines, hlines]
        intro h
        exact (named_iff.mp (hseen _ (List.mem_of_mem_head? h))).1 rfl
      have hlast : comma ∉ data.drop front.length := by rwa [← hdata, List.drop_left' rfl]
      rw [lines_eq_nil_iff.mpr hrest, safeFields_nil, parseLoop, parsePass_last hlast hfront hlength,
        if_pos ⟨hcomma, hhead⟩]
      by_cases hslash : slashOf data ∈ data
      · rw [if_pos hslash]
        obtain ⟨sized, hsized, hcount⟩ := setFilesize_added files
          ⟨behind (slashOf data) data, 0⟩ (stringToNum (uninit files.length) (data.takeWhile fun d => d ≠ comma))
        have hwrapped := ih [] sized (List.nil_append data) rfl (by simp)
        rw [hsized, Option.map_some, ← hcount]
        refine iff_of_true (hwrapped.mpr ?_) fun _ => hslash
        exact safeFields_all (hlines ▸ hseen) hslash
      · rw [if_neg hslash, setFilesize, if_neg (lt_irrefl _)]
        exact iff_of_false (by simp) fun h => hslash (h hcomma)
    | some cut =>
      obtain ⟨rfl, hfield⟩ := Lines.firstLine_eq_some hfirst
      rw [Lines.lines_append_line hfield] at hlines ⊢
      by_cases hempty : cut.1 = []
      · have hnamed : ¬ named (slashOf data) cut.1 = true := fun h => (named_iff.mp h).1 hempty
        rw [safeFields_unnamed hnamed, ← hdata, hempty, List.nil_append, parseLoop, parsePass_empty]
        exact iff_of_true rfl (Or.inl rfl)
      · rw [parseLoop, parsePass_field hfield hempty hdata hlength]
        by_cases hends : cut.1.getLast? = some (slashOf data)
        · have hnamed : ¬ named (slashOf data) cut.1 = true := fun h => (named_iff.mp h).2 hends
          have hnext : front ++ cut.1 ++ [comma] ++ cut.2 = data := by simpa using hdata
          rw [safeFields_unnamed hnamed, addName, if_pos ((behind_field hempty front).mpr hends), head?_lines]
          split_ifs with hhead
          · obtain ⟨more, hmore⟩ := List.head?_eq_some_iff.mp hhead
            rw [hmore] at hnext
            rw [Option.map_some, ← hnext]
            exact iff_of_true (Option.isSome_of_eq_some (parseLoop_empty _ _ _ _ _ _)) (Or.inr hhead)
          · rw [setFilesize, if_neg (lt_irrefl _)]
            exact iff_of_false (by simp) fun h => h.elim hempty hhead
        · have hnamed : named (slashOf data) cut.1 = true := named_iff.mpr ⟨hempty, hends⟩
          have hname := mt (behind_field hempty front).mp hends
          rw [safeFields_named hnamed, addName, if_neg hname]
          have hcut : front ++ cut.1 ++ [comma] ++ cut.2 = data := by simpa using hdata
          have hnext := fun sized => ih (seen ++ [cut.1]) sized hcut (by simpa using hlines)
            (List.forall_mem_append.mpr ⟨hseen, by simpa using hnamed⟩)
          split_ifs with hhead
          · have hadded := hnext (files ++ [⟨behind (slashOf data) (front ++ cut.1), 0⟩])
            rwa [List.length_append, List.length_singleton] at hadded
          · obtain ⟨sized, hsized, hcount⟩ := setFilesize_added files
              ⟨behind (slashOf data) (front ++ cut.1), 0⟩
              (stringToNum (uninit files.length) (cut.2.takeWhile fun d => d ≠ comma))
            rw [hsized, Option.map_some, ← hcount]
            exact hnext sized

/-- Exactly these texts are read without a position or an index that is out of range. -/
theorem parseDragInfo_isSome_iff (uninit : ℕ → UInt64) (fileNum : ℕ) {data : List UInt8} (hlength : data.length < npos) :
    (parseDragInfo uninit fileNum data).isSome = true ↔ Safe fileNum data := by
  rw [parseDragInfo, Safe]
  by_cases hcomma : comma ∈ data
  · exact parseLoop_isSome uninit hcomma hlength fileNum [] [] (List.nil_append data) rfl (by simp)
  · refine iff_of_true (parseLoop_no_comma uninit hcomma hlength fileNum 0 []) ?_
    rw [lines_eq_nil_iff.mpr hcomma]
    exact Or.inr fun h => absurd h hcomma

lemma two_files_read : (parseDragInfo (fun _ => 0) 2 [97, 44, 53, 44, 98, 44, 55, 44]).isSome = true :=
  (parseDragInfo_isSome_iff _ 2 (by decide)).mpr (Or.inl (by decide))

/-- `a,` for two files: the second pass finds no name and goes on with the size of the second file. -/
lemma one_name_for_two : ¬ ∀ (uninit : ℕ → UInt64) (fileNum : ℕ) (data : List UInt8), data.length < npos →
    (parseDragInfo uninit fileNum data).isSome = true := by
  intro h
  have hread := h (fun _ => 0) 2 [97, 44] (by decide)
  exact absurd hread (by decide)

end Throws

end DragInformation

end InputLeap.Protocol
