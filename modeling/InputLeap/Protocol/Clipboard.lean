import InputLeap.Lib.BigEndian
import Mathlib.Data.Fintype.Pi
import Mathlib.Order.Nat

/-! The contents of a clipboard and their form on the wire: the number of formats, and for each its
id, its size and its data. -/

namespace InputLeap.Protocol

open InputLeap.Lib

abbrev numFormats : ℕ := 7

abbrev Format := Fin numFormats

abbrev Clipboard := Format → Option (List UInt8)

namespace Clipboard

def clear : Clipboard := fun _ => none

def formats : List Format := List.finRange numFormats

def marshallFormats (c : Clipboard) (fs : List Format) : List UInt8 :=
  fs.flatMap fun f =>
    match c f with
    | none => []
    | some data => BigEndian.encode 4 f ++ BigEndian.encode 4 data.length ++ data

def marshall (c : Clipboard) : List UInt8 :=
  BigEndian.encode 4 (formats.countP fun f => (c f).isSome) ++ marshallFormats c formats

def readFormats : ℕ → List UInt8 → Clipboard → Clipboard
  | 0, _, c => c
  | n + 1, data, c =>
    if data.length < 8 then c
    else
      let format := BigEndian.decode (data.take 4)
      let size := BigEndian.decode ((data.drop 4).take 4)
      let rest := data.drop 8
      if rest.length < size then c
      else
        readFormats n (rest.drop size)
          (if h : format < numFormats then Function.update c ⟨format, h⟩ (some (rest.take size)) else c)

def unmarshall (data : List UInt8) : Clipboard :=
  if data.length < 4 then clear else readFormats (BigEndian.decode (data.take 4)) (data.drop 4) clear

lemma marshallFormats_cons_none {c : Clipboard} {f : Format} (h : c f = none) (fs : List Format) :
    marshallFormats c (f :: fs) = marshallFormats c fs := by
  simp [marshallFormats, h]

lemma marshallFormats_cons_some {c : Clipboard} {f : Format} {data : List UInt8} (h : c f = some data)
    (fs : List Format) :
    marshallFormats c (f :: fs) =
      BigEndian.encode 4 f ++ (BigEndian.encode 4 data.length ++ (data ++ marshallFormats c fs)) := by
  simp [marshallFormats, h]

lemma readFormats_succ {f : Format} {data rest : List UInt8} (h : data.length < 2 ^ 32) (n : ℕ)
    (c : Clipboard) :
    readFormats (n + 1) (BigEndian.encode 4 f ++ (BigEndian.encode 4 data.length ++ (data ++ rest))) c =
      readFormats n rest (Function.update c f (some data)) := by
  have hlen : ¬ (BigEndian.encode 4 f ++ (BigEndian.encode 4 data.length ++ (data ++ rest))).length < 8 := by
    simp
    omega
  have hf : (f : ℕ) < 256 ^ 4 := f.isLt.trans (by decide)
  have hid : BigEndian.decode
      ((BigEndian.encode 4 f ++ (BigEndian.encode 4 data.length ++ (data ++ rest))).take 4) = f := by
    rw [List.take_left' (by simp), BigEndian.decode_encode hf]
  have hdrop : (BigEndian.encode 4 f ++ (BigEndian.encode 4 data.length ++ (data ++ rest))).drop 4 =
      BigEndian.encode 4 data.length ++ (data ++ rest) := List.drop_left' (by simp)
  have hsize : BigEndian.decode ((BigEndian.encode 4 data.length ++ (data ++ rest)).take 4) = data.length := by
    rw [List.take_left' (by simp), BigEndian.decode_encode (by simpa using h)]
  have hrest : (BigEndian.encode 4 f ++ (BigEndian.encode 4 data.length ++ (data ++ rest))).drop 8 =
      data ++ rest := by
    rw [← List.append_assoc, List.drop_left' (by simp)]
  rw [readFormats, if_neg hlen, hdrop, hsize, hrest, hid]
  simp

lemma readFormats_marshallFormats {c : Clipboard} {fs : List Format}
    (h : ∀ f data, c f = some data → data.length < 2 ^ 32) (d : Clipboard) :
    readFormats (fs.countP fun f => (c f).isSome) (marshallFormats c fs) d =
      fun f => if f ∈ fs then (c f).or (d f) else d f := by
  induction fs generalizing d with
  | nil => simp [readFormats]
  | cons f fs ih =>
    cases hc : c f with
    | none =>
      rw [marshallFormats_cons_none hc, List.countP_cons_of_neg (by simp [hc]), ih]
      funext g
      by_cases hg : g = f
      · simp [hg, hc]
      · simp [hg]
    | some data =>
      rw [marshallFormats_cons_some hc, List.countP_cons_of_pos (by simp [hc]), readFormats_succ (h f data hc), ih]
      funext g
      by_cases hg : g = f
      · subst hg
        simp [hc]
      · simp [hg]

lemma data_length_le {c : Clipboard} {f : Format} {data : List UInt8} (h : c f = some data) :
    data.length ≤ (marshall c).length := by
  have hmem : f ∈ formats := List.mem_finRange f
  rw [marshall, List.length_append]
  apply le_add_left
  generalize formats = fs at hmem
  induction fs with
  | nil => simp at hmem
  | cons g fs ih =>
    rcases List.mem_cons.mp hmem with rfl | hmem
    · rw [marshallFormats_cons_some h]
      simp
      omega
    · apply (ih hmem).trans
      simp [marshallFormats]

theorem unmarshall_marshall {c : Clipboard} (h : (marshall c).length < 2 ^ 32) :
    unmarshall (marshall c) = c := by
  have hcount : (formats.countP fun f => (c f).isSome) < 256 ^ 4 :=
    lt_of_le_of_lt List.countP_le_length (by decide)
  have hlen : ¬ (marshall c).length < 4 := by
    simp [marshall]
  rw [unmarshall, if_neg hlen, marshall, List.take_left' (by simp), List.drop_left' (by simp),
    BigEndian.decode_encode hcount, readFormats_marshallFormats]
  · funext f
    simp [formats, clear]
  · intro f data hf
    exact (data_length_le hf).trans_lt h

lemma marshall_injective {c d : Clipboard} (h : (marshall c).length < 2 ^ 32)
    (heq : marshall c = marshall d) : c = d := by
  rw [← unmarshall_marshall h, heq, unmarshall_marshall (heq ▸ h)]

end Clipboard

end InputLeap.Protocol
