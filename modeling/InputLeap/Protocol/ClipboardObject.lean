import InputLeap.Protocol.ClipboardRecords

/-! A clipboard that is filled from the data of another one holds what that one held, also if there are formats among
the data that it does not know. -/

namespace InputLeap.Protocol

open InputLeap.Lib IClipboard

structure ClipboardObject where
  isOpen : Bool
  owner : Bool
  time : ℕ
  timeOwned : ℕ
  data : Format → List UInt8
  added : Format → Bool

namespace ClipboardObject

def openAt (c : ClipboardObject) (time : ℕ) : ClipboardObject := { c with isOpen := true, time := time }

def close (c : ClipboardObject) : ClipboardObject := { c with isOpen := false }

def clear (c : ClipboardObject) : ClipboardObject :=
  { c with data := fun _ => [], added := fun _ => false, timeOwned := c.time, owner := true }

def add (c : ClipboardObject) (format : Format) (data : List UInt8) : ClipboardObject :=
  { c with data := Function.update c.data format data, added := Function.update c.added format true }

def contents (c : ClipboardObject) : Clipboard := fun f => if c.added f then some (c.data f) else none

/-- A format without a place in the table cannot be added. -/
def call (c : ClipboardObject) : ClipboardCall → Option ClipboardObject
  | .open time => some (c.openAt time)
  | .clear => some c.clear
  | .add format data =>
    if h : 0 ≤ format ∧ format < numFormats then some (c.add ⟨format.toNat, by omega⟩ data) else none
  | .close => some c.close

/-- `IClipboard::marshall`, which opens the clipboard and closes it again. -/
def marshall (c : ClipboardObject) : List UInt8 × ClipboardObject := (c.contents.marshall, (c.openAt 0).close)

def unmarshall (c : ClipboardObject) (rep : EnumRep) (data : List UInt8) (time : ℕ) : Option ClipboardObject :=
  (IClipboard.unmarshall data rep true time).bind fun calls => calls.foldlM call c

def size (c : ClipboardObject) : ℕ := (Clipboard.formats.map fun f => ((c.contents f).getD []).length).sum

end ClipboardObject

section Encoding

def encodeRecord (r : Record) : List UInt8 :=
  BigEndian.encode 4 r.1 ++ (BigEndian.encode 4 r.2.length ++ r.2)

def encodeRecords (rs : List Record) : List UInt8 := BigEndian.encode 4 rs.length ++ rs.flatMap encodeRecord

def recordsOf (c : Clipboard) (fs : List Format) : List Record :=
  fs.filterMap fun f => (c f).map fun data => ((f : ℕ), data)

def IsWide (r : Record) : Prop := r.1 < 2 ^ 32 ∧ r.2.length < 2 ^ 32

def isKnown (r : Record) : Bool := decide (r.1 < numFormats)

lemma recordsOf_cons_none {c : Clipboard} {f : Format} (h : c f = none) (fs : List Format) :
    recordsOf c (f :: fs) = recordsOf c fs := by
  simp [recordsOf, h]

lemma recordsOf_cons_some {c : Clipboard} {f : Format} {data : List UInt8} (h : c f = some data) (fs : List Format) :
    recordsOf c (f :: fs) = (↑f, data) :: recordsOf c fs := by
  simp [recordsOf, h]

lemma length_recordsOf (c : Clipboard) (fs : List Format) :
    (recordsOf c fs).length = fs.countP fun f => (c f).isSome := by
  induction fs with
  | nil => rfl
  | cons f fs ih =>
    cases h : c f with
    | none => rw [recordsOf_cons_none h, ih, List.countP_cons_of_neg (by simp [h])]
    | some data => rw [recordsOf_cons_some h, List.length_cons, ih, List.countP_cons_of_pos (by simp [h])]

lemma flatMap_recordsOf (c : Clipboard) (fs : List Format) :
    (recordsOf c fs).flatMap encodeRecord = c.marshallFormats fs := by
  induction fs with
  | nil => rfl
  | cons f fs ih =>
    cases h : c f with
    | none => simp [recordsOf_cons_none h, Clipboard.marshallFormats_cons_none h, ih]
    | some data => simp [recordsOf_cons_some h, Clipboard.marshallFormats_cons_some h, encodeRecord, ih]

lemma encodeRecords_recordsOf (c : Clipboard) : encodeRecords (recordsOf c Clipboard.formats) = c.marshall := by
  rw [encodeRecords, length_recordsOf, flatMap_recordsOf, Clipboard.marshall]

lemma takeRecords_encode {rs : List Record} (h : ∀ r ∈ rs, IsWide r) :
    takeRecords rs.length (rs.flatMap encodeRecord) = rs := by
  induction rs with
  | nil => rfl
  | cons r rs ih =>
    obtain ⟨hid, hlength⟩ := h r List.mem_cons_self
    generalize hrest : rs.flatMap encodeRecord = rest at ih
    have hdata : (r :: rs).flatMap encodeRecord =
        BigEndian.encode 4 r.1 ++ (BigEndian.encode 4 r.2.length ++ (r.2 ++ rest)) := by
      simp [encodeRecord, hrest]
    have hword : BigEndian.decode (((r :: rs).flatMap encodeRecord).take 4) = r.1 := by
      rw [hdata, List.take_left' (by simp), BigEndian.decode_encode (by simpa using hid)]
    have hsize : BigEndian.decode ((((r :: rs).flatMap encodeRecord).drop 4).take 4) = r.2.length := by
      rw [hdata, List.drop_left' (by simp), List.take_left' (by simp), BigEndian.decode_encode (by simpa using hlength)]
    have hbehind : ((r :: rs).flatMap encodeRecord).drop 8 = r.2 ++ rest := by
      rw [hdata, ← List.append_assoc, List.drop_left' (by simp)]
    have hwhole : ¬ (((r :: rs).flatMap encodeRecord).length < 8 ∨ (r.2 ++ rest).length < r.2.length) := by
      rw [hdata]
      simp
      omega
    rw [List.length_cons, takeRecords, hsize, hbehind, hword, if_neg hwhole, List.take_left' rfl, List.drop_left' rfl,
      ih fun r hr => h r (List.mem_cons_of_mem _ hr)]

lemma records_encodeRecords {rs : List Record} (h : ∀ r ∈ rs, IsWide r) (hlength : rs.length < 2 ^ 32) :
    records (encodeRecords rs) = rs := by
  have hcount : rs.length < 256 ^ 4 := by simpa using hlength
  rw [records, if_neg (by simp [encodeRecords]), encodeRecords, List.take_left' (by simp), List.drop_left' (by simp),
    BigEndian.decode_encode hcount]
  exact takeRecords_encode h

end Encoding

section Filling

variable {rep : EnumRep} {rs : List Record}

def addRecord (c : Clipboard) (r : Record) : Clipboard :=
  if h : r.1 < numFormats then Function.update c ⟨r.1, h⟩ (some r.2) else c

lemma contents_add (o : ClipboardObject) (f : Format) (data : List UInt8) :
    (o.add f data).contents = Function.update o.contents f (some data) := by
  funext g
  by_cases hg : g = f
  · subst hg
    simp [ClipboardObject.contents, ClipboardObject.add]
  · simp [ClipboardObject.contents, ClipboardObject.add, Function.update_of_ne hg]

lemma addCall_known {r : Record} (h : isKnown r = true) (rep : EnumRep) : addCall rep r = some (.add r.1 r.2) := by
  have hlt : r.1 < numFormats := of_decide_eq_true h
  have hformats : numFormats < 2 ^ 31 := by decide
  have hword : toInt r.1 = r.1 := if_pos (hlt.trans hformats)
  have hformat : rep.toFormat r.1 = r.1 := by
    cases rep with
    | unsigned => rfl
    | signed => exact hword
  rw [addCall, hword, hformat, if_pos (by exact_mod_cast hlt)]

lemma addCall_unknown {r : Record} (h : isKnown r = false) (hword : r.1 < 2 ^ 31) : addCall rep r = none := by
  have hge : ¬ r.1 < numFormats := of_decide_eq_false h
  rw [addCall, toInt, if_pos hword, if_neg (by exact_mod_cast hge)]

lemma filterMap_addCall (h : ∀ r ∈ rs, r.1 < 2 ^ 31) :
    rs.filterMap (addCall rep) = (rs.filter isKnown).map fun r => .add r.1 r.2 := by
  induction rs with
  | nil => rfl
  | cons r rs ih =>
    have hrest := ih fun r hr => h r (List.mem_cons_of_mem _ hr)
    cases hknown : isKnown r with
    | true => rw [List.filterMap_cons_some (addCall_known hknown rep), List.filter_cons_of_pos hknown, List.map_cons, hrest]
    | false =>
      rw [List.filterMap_cons_none (addCall_unknown hknown (h r List.mem_cons_self)),
        List.filter_cons_of_neg (by simp [hknown]), hrest]

lemma foldlM_add (h : ∀ r ∈ rs, isKnown r = true) (o : ClipboardObject) :
    ∃ p, (rs.map fun r => ClipboardCall.add r.1 r.2).foldlM ClipboardObject.call o = some p ∧
      p.contents = rs.foldl addRecord o.contents := by
  induction rs generalizing o with
  | nil => exact ⟨o, rfl, rfl⟩
  | cons r rs ih =>
    have hlt : r.1 < numFormats := of_decide_eq_true (h r List.mem_cons_self)
    have hcall : o.call (.add r.1 r.2) = some (o.add ⟨r.1, hlt⟩ r.2) := by
      rw [ClipboardObject.call, dif_pos ⟨Int.natCast_nonneg _, by exact_mod_cast hlt⟩]
      rfl
    obtain ⟨p, hp, hcontents⟩ := ih (fun r hr => h r (List.mem_cons_of_mem _ hr)) (o.add ⟨r.1, hlt⟩ r.2)
    refine ⟨p, ?_, ?_⟩
    · rw [List.map_cons, List.foldlM_cons, hcall]
      exact hp
    · rw [hcontents, contents_add, List.foldl_cons, addRecord, dif_pos hlt]

lemma foldl_addRecord (c d : Clipboard) (fs : List Format) :
    (recordsOf c fs).foldl addRecord d = fun f => if f ∈ fs then (c f).or (d f) else d f := by
  induction fs generalizing d with
  | nil => simp [recordsOf]
  | cons f fs ih =>
    funext g
    cases hc : c f with
    | none =>
      rw [recordsOf_cons_none hc, ih]
      by_cases hg : g = f
      · simp [hg, hc]
      · simp [hg]
    | some data =>
      rw [recordsOf_cons_some hc, List.foldl_cons, addRecord, dif_pos f.isLt, ih]
      by_cases hg : g = f
      · subst hg
        simp [hc]
      · simp [hg]

lemma unmarshall_records (hwide : ∀ r ∈ rs, IsWide r) (hlength : rs.length < 2 ^ 32)
    (hwords : ∀ r ∈ rs, r.1 < 2 ^ 31) (o : ClipboardObject) (time : ℕ) :
    ∃ p, o.unmarshall rep (encodeRecords rs) time = some p ∧ p.isOpen = false ∧
      p.contents = (rs.filter isKnown).foldl addRecord .clear := by
  obtain ⟨p, hp, hcontents⟩ := foldlM_add (fun r hr => (List.mem_filter.mp hr).2) (o.openAt time).clear
  refine ⟨p.close, ?_, rfl, hcontents⟩
  have hopened (calls : List ClipboardCall) :
      ([ClipboardCall.open time, ClipboardCall.clear] ++ calls).foldlM ClipboardObject.call o =
        calls.foldlM ClipboardObject.call (o.openAt time).clear := rfl
  rw [ClipboardObject.unmarshall, unmarshall_eq, records_encodeRecords hwide hlength, filterMap_addCall hwords,
    Option.bind_some, List.append_assoc, hopened, List.foldlM_append, hp]
  rfl

/-- A call outside of the table has no result, and nothing comes after it. -/
lemma inTable_of_foldlM {calls : List ClipboardCall} {o p : ClipboardObject}
    (h : calls.foldlM ClipboardObject.call o = some p) : ∀ call ∈ calls, call.InTable := by
  induction calls generalizing o with
  | nil => simp
  | cons call calls ih =>
    rw [List.foldlM_cons] at h
    obtain ⟨q, hq, hrest⟩ := Option.bind_eq_some_iff.mp h
    refine List.forall_mem_cons.mpr ⟨?_, ih hrest⟩
    cases call with
    | add format data =>
      rw [ClipboardObject.call] at hq
      split_ifs at hq with hformat
      exact hformat
    | _ => trivial

lemma words_of_unmarshall (hwide : ∀ r ∈ rs, IsWide r) (hlength : rs.length < 2 ^ 32) {o p : ClipboardObject} {time : ℕ}
    (h : o.unmarshall rep (encodeRecords rs) time = some p) : ∀ r ∈ rs, r.1 < 2 ^ 31 := by
  rw [ClipboardObject.unmarshall, unmarshall_eq, Option.bind_some] at h
  have hcalls := (forall_calls_iff trivial trivial trivial).mp (inTable_of_foldlM h)
  rw [forall_addCall_iff, records_encodeRecords hwide hlength] at hcalls
  exact hcalls

lemma recordsOf_known {c : ClipboardObject} (hsize : c.size < 2 ^ 32) :
    ∀ r ∈ recordsOf c.contents Clipboard.formats, IsWide r ∧ r.1 < numFormats := by
  intro r hr
  obtain ⟨f, hf, hdata⟩ := List.mem_filterMap.mp hr
  obtain ⟨data, hc, rfl⟩ := Option.map_eq_some_iff.mp hdata
  have hle : ((c.contents f).getD []).length ≤ c.size :=
    List.le_sum_of_mem (List.mem_map.mpr ⟨f, hf, rfl⟩)
  rw [hc, Option.getD_some] at hle
  exact ⟨⟨f.isLt.trans (by decide), hle.trans_lt hsize⟩, f.isLt⟩

end Filling

/-- A clipboard is filled with what another one holds, whatever it held itself. From data with more records between those
of the other, whose formats are not known, it is filled so just if none of them is negative as an `int`. -/
theorem object_round_trip_iff (rep : EnumRep) {c : ClipboardObject} (hsize : c.size < 2 ^ 32) (d : ClipboardObject)
    (time : ℕ) :
    (∃ p, d.unmarshall rep c.marshall.1 time = some p ∧ p.isOpen = false ∧ p.contents = c.contents) ∧
    ∀ rs : List Record, (∀ r ∈ rs, IsWide r) → rs.length < 2 ^ 32 →
      rs.filter isKnown = recordsOf c.contents Clipboard.formats →
      ((∃ p, d.unmarshall rep (encodeRecords rs) time = some p ∧ p.isOpen = false ∧ p.contents = c.contents) ↔
        ∀ r ∈ rs, r.1 < 2 ^ 31) := by
  have hall : (recordsOf c.contents Clipboard.formats).foldl addRecord .clear = c.contents := by
    rw [foldl_addRecord]
    funext f
    simp [Clipboard.formats, Clipboard.clear]
  have hrecords := recordsOf_known hsize
  have hformats : numFormats < 2 ^ 31 := by decide
  refine ⟨?_, fun rs hwide hlength hsame => ⟨?_, fun hwords => ?_⟩⟩
  · have hlength : (recordsOf c.contents Clipboard.formats).length < 2 ^ 32 := by
      rw [length_recordsOf]
      exact List.countP_le_length.trans_lt (by decide)
    obtain ⟨p, hp, hclosed, hcontents⟩ := unmarshall_records (fun r hr => (hrecords r hr).1) hlength
      (fun r hr => (hrecords r hr).2.trans hformats) d time
    rw [encodeRecords_recordsOf] at hp
    have hknown : (recordsOf c.contents Clipboard.formats).filter isKnown = recordsOf c.contents Clipboard.formats :=
      List.filter_eq_self.mpr fun r hr => decide_eq_true (hrecords r hr).2
    rw [hknown, hall] at hcontents
    exact ⟨p, hp, hclosed, hcontents⟩
  · rintro ⟨p, hp, -⟩
    exact words_of_unmarshall hwide hlength hp
  · obtain ⟨p, hp, hclosed, hcontents⟩ := unmarshall_records hwide hlength hwords d time
    rw [hsame, hall] at hcontents
    exact ⟨p, hp, hclosed, hcontents⟩

def sampleObject : ClipboardObject :=
  ⟨false, true, 0, 3, fun f => if f.val = 0 then [104, 105] else [], fun f => f.val = 0 ∨ f.val = 3⟩

def otherObject : ClipboardObject := ⟨false, false, 9, 9, fun _ => [7], fun _ => true⟩

theorem sampleObject_round_trip : ∃ p, otherObject.unmarshall .unsigned sampleObject.marshall.1 5 = some p ∧
    p.isOpen = false ∧ p.contents = sampleObject.contents :=
  (object_round_trip_iff .unsigned (by decide) _ 5).1

def largestFormat : List Record := [(4294967295, [])]

/-- An empty clipboard, and a record whose id is the largest word: it is added behind the tables. -/
theorem largestFormat_added : ¬ ∀ (rep : EnumRep) (c d : ClipboardObject) (time : ℕ) (rs : List Record),
    c.size < 2 ^ 32 → (∀ r ∈ rs, IsWide r) → rs.length < 2 ^ 32 →
    rs.filter isKnown = recordsOf c.contents Clipboard.formats →
    ∃ p, d.unmarshall rep (encodeRecords rs) time = some p ∧ p.isOpen = false ∧ p.contents = c.contents := by
  intro hall
  have hwide : ∀ r ∈ largestFormat, IsWide r := by simp [largestFormat, IsWide]
  have hlength : largestFormat.length < 2 ^ 32 := by decide
  obtain ⟨p, hp, -⟩ := hall .unsigned ⟨false, true, 0, 0, fun _ => [], fun _ => false⟩ otherObject 5 largestFormat
    (by decide) hwide hlength (by decide)
  exact absurd (words_of_unmarshall hwide hlength hp (4294967295, []) List.mem_cons_self) (by decide)

end InputLeap.Protocol
