import Mathlib.Data.List.Basic

/-! Codes whose words are read one after the other from the front of a text. A reader that inverts the encoding of one
symbol inverts the encoding of a text of symbols, and accepts no other texts. -/

namespace InputLeap.Lib

variable {α β : Type}

/-- What the reader returns until nothing is left, each symbol with at least one letter. -/
def repeatNext (next : List β → α × List β) : ℕ → List β → List α
  | 0, _ => []
  | _ + 1, [] => []
  | fuel + 1, b :: text => (next (b :: text)).1 :: repeatNext next fuel (next (b :: text)).2

structure PrefixCode (Valid : α → Prop) (encode : α → List β) (next : List β → α × List β) : Prop where
  encode_ne_nil : ∀ a, Valid a → encode a ≠ []
  next_encode : ∀ a, Valid a → ∀ rest, next (encode a ++ rest) = (a, rest)
  encode_next : ∀ text, text ≠ [] → Valid (next text).1 → encode (next text).1 ++ (next text).2 = text
  next_shorter : ∀ text, text ≠ [] → (next text).2.length < text.length

lemma repeatNext_cons {next : List β → α × List β} {text : List β} (h : text ≠ []) (fuel : ℕ) :
    repeatNext next (fuel + 1) text = (next text).1 :: repeatNext next fuel (next text).2 := by
  obtain ⟨b, text, rfl⟩ := List.exists_cons_of_ne_nil h
  rfl

lemma repeatNext_nil (next : List β → α × List β) (fuel : ℕ) : repeatNext next fuel [] = [] := by
  cases fuel with
  | zero => rfl
  | succ fuel => rfl

namespace PrefixCode

variable {Valid : α → Prop} {encode : α → List β} {next : List β → α × List β}

lemma repeatNext_fuel (hcode : PrefixCode Valid encode next) {fuel fuel' : ℕ} {text : List β}
    (h : text.length ≤ fuel) (h' : text.length ≤ fuel') : repeatNext next fuel text = repeatNext next fuel' text := by
  induction fuel generalizing fuel' text with
  | zero =>
    rw [List.eq_nil_of_length_eq_zero (Nat.le_zero.mp h), repeatNext_nil, repeatNext_nil]
  | succ fuel ih =>
    by_cases hnil : text = []
    · rw [hnil, repeatNext_nil, repeatNext_nil]
    have hpos := List.length_pos_of_ne_nil hnil
    have hshort := hcode.next_shorter text hnil
    obtain ⟨fuel', rfl⟩ := Nat.exists_eq_succ_of_ne_zero (show fuel' ≠ 0 by omega)
    rw [repeatNext_cons hnil, repeatNext_cons hnil, @ih fuel' _ (by omega) (by omega)]

lemma repeatNext_encode (hcode : PrefixCode Valid encode next) {a : α} (ha : Valid a) (rest : List β) {fuel : ℕ}
    (h : (encode a ++ rest).length ≤ fuel) :
    repeatNext next fuel (encode a ++ rest) = a :: repeatNext next rest.length rest := by
  have hne := hcode.encode_ne_nil a ha
  have hpos := List.length_pos_of_ne_nil hne
  rw [List.length_append] at h
  obtain ⟨fuel, rfl⟩ := Nat.exists_eq_succ_of_ne_zero (show fuel ≠ 0 by omega)
  rw [repeatNext_cons (by simp [hne]), hcode.next_encode a ha, hcode.repeatNext_fuel (by dsimp only; omega) (Nat.le_refl _)]

theorem repeatNext_flatMap (hcode : PrefixCode Valid encode next) {symbols : List α} (h : ∀ a ∈ symbols, Valid a) :
    repeatNext next (symbols.flatMap encode).length (symbols.flatMap encode) = symbols := by
  induction symbols with
  | nil => rfl
  | cons a symbols ih =>
    rw [List.flatMap_cons, hcode.repeatNext_encode (h a List.mem_cons_self) _ (Nat.le_refl _),
      ih fun b hb => h b (List.mem_cons_of_mem a hb)]

lemma flatMap_repeatNext (hcode : PrefixCode Valid encode next) {fuel : ℕ} {text : List β} (hfuel : text.length ≤ fuel)
    (h : ∀ a ∈ repeatNext next fuel text, Valid a) : (repeatNext next fuel text).flatMap encode = text := by
  induction fuel generalizing text with
  | zero =>
    rw [List.eq_nil_of_length_eq_zero (Nat.le_zero.mp hfuel)]
    rfl
  | succ fuel ih =>
    by_cases hnil : text = []
    · rw [hnil, repeatNext_nil, List.flatMap_nil]
    have hshort := hcode.next_shorter text hnil
    rw [repeatNext_cons hnil] at h ⊢
    rw [List.flatMap_cons, ih (by omega) fun a ha => h a (List.mem_cons_of_mem _ ha),
      hcode.encode_next text hnil (h _ List.mem_cons_self)]

/-- The texts that are read without an invalid symbol are those of the encoding. -/
theorem valid_iff (hcode : PrefixCode Valid encode next) (text : List β) :
    (∀ a ∈ repeatNext next text.length text, Valid a) ↔
      ∃ symbols : List α, (∀ a ∈ symbols, Valid a) ∧ text = symbols.flatMap encode := by
  constructor
  · intro h
    exact ⟨_, h, (hcode.flatMap_repeatNext (Nat.le_refl _) h).symm⟩
  · rintro ⟨symbols, h, rfl⟩
    rwa [hcode.repeatNext_flatMap h]

end PrefixCode

end InputLeap.Lib
