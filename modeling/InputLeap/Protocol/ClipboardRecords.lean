import InputLeap.Protocol.Clipboard
import Mathlib.Algebra.BigOperators.Group.List.Basic
import Mathlib.Algebra.Order.BigOperators.Group.List

/-! A clipboard as an object that is opened, filled and closed, and how it is filled from the data of another one. The
data comes from the network: a number of records, each of which gives the size of what is in it. -/

namespace InputLeap.Protocol

open InputLeap.Lib

/-- The integer type that a compiler takes for the formats, which are an enumeration without a type of its own. -/
inductive EnumRep
  | unsigned
  | signed
deriving DecidableEq

def toInt (word : ℕ) : ℤ := if word < 2 ^ 31 then word else (word : ℤ) - 2 ^ 32

def EnumRep.toFormat : EnumRep → ℕ → ℤ
  | unsigned, word => word
  | signed, word => toInt word

inductive ClipboardCall
  | open (time : ℕ)
  | clear
  | add (format : ℤ) (data : List UInt8)
  | close
deriving DecidableEq

namespace ClipboardCall

def InTable : ClipboardCall → Prop
  | add format _ => 0 ≤ format ∧ format < numFormats
  | _ => True

def isOpen : Bool → ClipboardCall → Bool
  | _, .open _ => true
  | _, close => false
  | b, _ => b

end ClipboardCall

namespace IClipboard

section Reading

variable (data : List UInt8)

def readUInt32 (index : ℕ) : Option ℕ :=
  if index + 4 ≤ data.length then some (BigEndian.decode ((data.drop index).take 4)) else none

def substr (index size : ℕ) : Option (List UInt8) :=
  if index + size ≤ data.length then some ((data.drop index).take size) else none

/-- The data of a format is saved if the format is known. Formats are compared as `int`, which has all the values of
the enumeration, whatever represents them. -/
def saveFormat (rep : EnumRep) (word index size : ℕ) : Option (List ClipboardCall) :=
  if toInt word < numFormats then (substr data index size).map fun s => [.add (rep.toFormat word) s] else some []

/-- The loop over the formats, which stops at the first one that is not whole. There is no result if something is read
that is not in the data. -/
def readFormats (rep : EnumRep) : ℕ → ℕ → Option (List ClipboardCall)
  | 0, _ => some []
  | n + 1, index =>
    if data.length - index < 8 then some []
    else do
      let word ← readUInt32 data index
      let size ← readUInt32 data (index + 4)
      if data.length - (index + 8) < size then some []
      else
        let added ← saveFormat data rep word (index + 8) size
        let more ← readFormats rep n (index + 8 + size)
        some (added ++ more)

/-- What is called on a clipboard that is to be filled. `opens` is what its `open` returns. -/
def unmarshall (rep : EnumRep) (opens : Bool) (time : ℕ) : Option (List ClipboardCall) :=
  if !opens then some [.open time]
  else if data.length < 4 then some [.open time, .clear, .close]
  else do
    let numFormats ← readUInt32 data 0
    let added ← readFormats data rep numFormats 4
    some ([.open time, .clear] ++ added ++ [.close])

end Reading

section Records

abbrev Record := ℕ × List UInt8

def takeRecords : ℕ → List UInt8 → List Record
  | 0, _ => []
  | n + 1, data =>
    let size := BigEndian.decode ((data.drop 4).take 4)
    if data.length < 8 ∨ (data.drop 8).length < size then []
    else (BigEndian.decode (data.take 4), (data.drop 8).take size) :: takeRecords n ((data.drop 8).drop size)

/-- The records of the data that are whole, and no more of them than it says there are. -/
def records (data : List UInt8) : List Record :=
  if data.length < 4 then [] else takeRecords (BigEndian.decode (data.take 4)) (data.drop 4)

def addCall (rep : EnumRep) (r : Record) : Option ClipboardCall :=
  if toInt r.1 < numFormats then some (.add (rep.toFormat r.1) r.2) else none

variable {data : List UInt8} {rep : EnumRep}

lemma readUInt32_of_le {index : ℕ} (h : index + 4 ≤ data.length) :
    readUInt32 data index = some (BigEndian.decode ((data.drop index).take 4)) := if_pos h

lemma saveFormat_of_le {index size : ℕ} (h : index + size ≤ data.length) (word : ℕ) :
    saveFormat data rep word index size = some (addCall rep (word, (data.drop index).take size)).toList := by
  rw [saveFormat, substr, if_pos h, addCall]
  split_ifs
  · rfl
  · rfl

lemma readFormats_eq (rep : EnumRep) (n index : ℕ) :
    readFormats data rep n index = some ((takeRecords n (data.drop index)).filterMap (addCall rep)) := by
  induction n generalizing index with
  | zero => rfl
  | succ n ih =>
    rw [readFormats, takeRecords]
    rw [List.length_drop, List.drop_drop, List.drop_drop, List.length_drop]
    by_cases hheader : data.length - index < 8
    · rw [if_pos hheader, if_pos (.inl hheader), List.filterMap_nil]
    · rw [if_neg hheader, readUInt32_of_le (by omega), readUInt32_of_le (by omega)]
      simp only [Option.bind_eq_bind, Option.bind_some]
      generalize BigEndian.decode ((data.drop (index + 4)).take 4) = size
      generalize BigEndian.decode ((data.drop index).take 4) = word
      by_cases hsize : data.length - (index + 8) < size
      · rw [if_pos hsize, if_pos (.inr hsize), List.filterMap_nil]
      · rw [if_neg hsize, if_neg (not_or.mpr ⟨hheader, hsize⟩), ih, List.drop_drop, saveFormat_of_le (by omega)]
        simp only [Option.bind_some, List.filterMap_cons]
        cases addCall rep (word, (data.drop (index + 8)).take size) <;> simp

lemma unmarshall_eq (data : List UInt8) (rep : EnumRep) (time : ℕ) : unmarshall data rep true time =
    some ([.open time, .clear] ++ (records data).filterMap (addCall rep) ++ [.close]) := by
  rw [unmarshall, records]
  by_cases hcount : data.length < 4
  · simp [hcount]
  · rw [readUInt32_of_le (by omega), List.drop_zero]
    simp [hcount, readFormats_eq]

lemma takeRecords_lt {n : ℕ} {r : Record} (h : r ∈ takeRecords n data) : r.1 < 2 ^ 32 := by
  induction n generalizing data with
  | zero => simp [takeRecords] at h
  | succ n ih =>
    rw [takeRecords] at h
    split_ifs at h
    · simp at h
    · rcases List.mem_cons.mp h with rfl | h
      · apply (BigEndian.decode_lt _).trans_le
        rw [List.length_take]
        exact (Nat.pow_le_pow_right (by decide) (Nat.min_le_left 4 _)).trans (by decide)
      · exact ih h

lemma records_lt {r : Record} (h : r ∈ records data) : r.1 < 2 ^ 32 := by
  rw [records] at h
  split_ifs at h
  · simp at h
  · exact takeRecords_lt h

/-- A format that is compared as what it is, is in the table; one that is negative as an `int` is not. -/
lemma inTable_toFormat_iff {rep : EnumRep} {word : ℕ} (h : word < 2 ^ 32) (hless : toInt word < numFormats) :
    (0 ≤ rep.toFormat word ∧ rep.toFormat word < numFormats) ↔ word < 2 ^ 31 := by
  have hformats : numFormats ≤ 2 ^ 31 := by decide
  rw [toInt] at hless
  cases rep with
  | unsigned =>
    rw [EnumRep.toFormat]
    split_ifs at hless <;> omega
  | signed =>
    rw [EnumRep.toFormat, toInt]
    split_ifs at hless ⊢ <;> omega

end Records

section Safety

variable {data : List UInt8} {rep : EnumRep}

/-- Filling a clipboard reads what is in the data, adds to places in the table, and closes a clipboard that it has
opened. -/
structure Safe (opens : Bool) (result : Option (List ClipboardCall)) : Prop where
  reads : result.isSome = true
  formats : ∀ calls ∈ result, ∀ call ∈ calls, call.InTable
  closed : opens = true → ∀ calls ∈ result, calls.foldl ClipboardCall.isOpen false = false

lemma addCall_inTable_iff {r : Record} (h : r.1 < 2 ^ 32) :
    (∀ call ∈ addCall rep r, call.InTable) ↔ r.1 < 2 ^ 31 := by
  rw [addCall]
  split_ifs with hless
  · simp only [Option.mem_some_iff, forall_eq', ClipboardCall.InTable]
    exact inTable_toFormat_iff h hless
  · refine iff_of_true nofun ?_
    rw [toInt] at hless
    split_ifs at hless with hword
    · exact hword
    · omega

lemma forall_addCall_iff :
    (∀ call ∈ (records data).filterMap (addCall rep), call.InTable) ↔ ∀ r ∈ records data, r.1 < 2 ^ 31 := by
  constructor
  · intro h r hr
    apply (@addCall_inTable_iff rep r (records_lt hr)).mp
    exact fun call hcall => h call (List.mem_filterMap.mpr ⟨r, hr, hcall⟩)
  · intro h call hcall
    obtain ⟨r, hr, hcall⟩ := List.mem_filterMap.mp hcall
    exact (addCall_inTable_iff (records_lt hr)).mpr (h r hr) call hcall

lemma forall_calls_iff {P : ClipboardCall → Prop} {time : ℕ} {added : List ClipboardCall} (hopen : P (.open time))
    (hclear : P .clear) (hclose : P .close) :
    (∀ call ∈ [.open time, .clear] ++ added ++ [.close], P call) ↔ ∀ call ∈ added, P call := by
  simp [hopen, hclear, hclose, or_imp, forall_and]

lemma safe_opened_iff (data : List UInt8) (rep : EnumRep) (time : ℕ) :
    Safe true (unmarshall data rep true time) ↔ ∀ r ∈ records data, r.1 < 2 ^ 31 := by
  rw [unmarshall_eq, ← @forall_addCall_iff data rep]
  constructor
  · intro h
    exact (forall_calls_iff trivial trivial trivial).mp (h.formats _ rfl)
  · intro h
    refine ⟨rfl, ?_, ?_⟩
    · rintro calls ⟨⟩
      exact (forall_calls_iff trivial trivial trivial).mpr h
    · rintro - calls ⟨⟩
      rw [List.foldl_append]
      rfl

lemma safe_unopened (data : List UInt8) (rep : EnumRep) (time : ℕ) : Safe false (unmarshall data rep false time) := by
  refine ⟨rfl, ?_, ?_⟩
  · rintro calls ⟨⟩ call hcall
    rw [List.mem_singleton.mp hcall]
    trivial
  · exact nofun

/-- Formats are stored in the table, whatever the data and whatever represents them, just if no record has an id that
is negative as an `int`. -/
theorem unmarshall_safe_iff (data : List UInt8) (rep : EnumRep) (opens : Bool) (time : ℕ) :
    Safe opens (unmarshall data rep opens time) ↔ opens = false ∨ ∀ r ∈ records data, r.1 < 2 ^ 31 := by
  cases opens with
  | false => simp [safe_unopened]
  | true => simp [safe_opened_iff]

def negativeFormat : List UInt8 := [0, 0, 0, 1, 255, 255, 255, 255, 0, 0, 0, 0]

theorem unmarshall_negativeFormat : ¬ ∀ (data : List UInt8) (rep : EnumRep) (opens : Bool) (time : ℕ),
    Safe opens (unmarshall data rep opens time) := by
  intro hall
  have hformats := (hall negativeFormat .unsigned true 0).formats _ rfl (.add 4294967295 []) (by decide)
  exact absurd hformats.2 (by decide)

end Safety

end IClipboard

end InputLeap.Protocol
