import Mathlib.Order.Lattice
import Mathlib.Order.Basic
import Mathlib.Data.List.Pairwise

/-! Ordered maps as sorted lists of entries. Keys are compared through `key`; inserting keeps an
entry that is already there. -/

namespace InputLeap.Lib

variable {κ o ν : Type} [LinearOrder o]

@[ext]
structure OrdMap (key : κ → o) (ν : Type) where
  entries : List (κ × ν)
  sorted : entries.Pairwise fun a b => key a.1 < key b.1

namespace OrdMap

variable {key : κ → o}

def empty : OrdMap key ν := ⟨[], .nil⟩

def find? (m : OrdMap key ν) (k : κ) : Option ν :=
  (m.entries.find? fun e => decide (key e.1 = key k)).map Prod.snd

def contains (m : OrdMap key ν) (k : κ) : Bool := (m.find? k).isSome

def lastLe? (m : OrdMap key ν) (k : κ) : Option (κ × ν) :=
  (m.entries.filter fun e => decide (key e.1 ≤ key k)).getLast?

def firstGt? (m : OrdMap key ν) (k : κ) : Option (κ × ν) :=
  m.entries.find? fun e => decide (key k < key e.1)

def insertEntry (key : κ → o) (k : κ) (v : ν) : List (κ × ν) → List (κ × ν)
  | [] => [(k, v)]
  | e :: es =>
    if key k < key e.1 then (k, v) :: e :: es
    else if key e.1 < key k then e :: insertEntry key k v es
    else e :: es

lemma mem_insertEntry {k : κ} {v : ν} {es : List (κ × ν)} {e : κ × ν} (h : e ∈ insertEntry key k v es) :
    e = (k, v) ∨ e ∈ es := by
  induction es with
  | nil => simpa [insertEntry] using h
  | cons d es ih =>
    rw [insertEntry] at h
    split_ifs at h
    · rcases List.mem_cons.mp h with h | h
      · exact .inl h
      · exact .inr h
    · rcases List.mem_cons.mp h with h | h
      · exact .inr (by simp [h])
      · exact (ih h).imp id (List.mem_cons_of_mem d)
    · exact .inr h

lemma insertEntry_sorted {k : κ} {v : ν} {es : List (κ × ν)}
    (h : es.Pairwise fun a b => key a.1 < key b.1) :
    (insertEntry key k v es).Pairwise fun a b => key a.1 < key b.1 := by
  induction es with
  | nil => exact List.pairwise_singleton _ _
  | cons d es ih =>
    obtain ⟨hd, hes⟩ := List.pairwise_cons.mp h
    rw [insertEntry]
    split_ifs with hlt hgt
    · refine List.pairwise_cons.mpr ⟨fun e he => ?_, h⟩
      rcases List.mem_cons.mp he with rfl | he
      · exact hlt
      · exact hlt.trans (hd e he)
    · refine List.pairwise_cons.mpr ⟨fun e he => ?_, ih hes⟩
      rcases mem_insertEntry he with rfl | he
      · exact hgt
      · exact hd e he
    · exact h

def insert (m : OrdMap key ν) (k : κ) (v : ν) : OrdMap key ν :=
  ⟨insertEntry key k v m.entries, insertEntry_sorted m.sorted⟩

def erase (m : OrdMap key ν) (k : κ) : OrdMap key ν :=
  ⟨m.entries.filter fun e => decide (key e.1 ≠ key k), m.sorted.filter _⟩

def set (m : OrdMap key ν) (k : κ) (v : ν) : OrdMap key ν := (m.erase k).insert k v

instance [DecidableEq κ] [DecidableEq ν] : DecidableEq (OrdMap key ν) := fun m n =>
  decidable_of_iff (m.entries = n.entries) ⟨OrdMap.ext, congrArg entries⟩

def modify (m : OrdMap key ν) (k : κ) (f : ν → ν) : OrdMap key ν :=
  ⟨m.entries.map fun e => if key e.1 = key k then (e.1, f e.2) else e, by
    refine List.pairwise_map.mpr (m.sorted.imp fun {a b} h => ?_)
    split_ifs <;> exact h⟩

def mapValues (m : OrdMap key ν) (f : ν → ν) : OrdMap key ν :=
  ⟨m.entries.map fun e => (e.1, f e.2), List.pairwise_map.mpr m.sorted⟩

def filter (m : OrdMap key ν) (p : κ × ν → Bool) : OrdMap key ν := ⟨m.entries.filter p, m.sorted.filter p⟩

section Lemmas

variable {m : OrdMap key ν} {k : κ} {v : ν}

lemma entry_unique {d e : κ × ν} (hd : d ∈ m.entries) (he : e ∈ m.entries) (h : key d.1 = key e.1) :
    d = e := by
  by_contra hne
  have hkeys : m.entries.Pairwise fun a b => key a.1 ≠ key b.1 := m.sorted.imp fun h => h.ne
  have : Std.Symm fun a b : κ × ν => key a.1 ≠ key b.1 := ⟨fun _ _ h => h.symm⟩
  exact hkeys.forall hd he hne h

lemma find?_eq_some : m.find? k = some v ↔ ∃ n, key n = key k ∧ (n, v) ∈ m.entries := by
  constructor
  · intro h
    obtain ⟨⟨n, w⟩, hf, rfl⟩ := Option.map_eq_some_iff.mp h
    exact ⟨n, by simpa using List.find?_some hf, List.mem_of_find?_eq_some hf⟩
  · rintro ⟨n, hn, hmem⟩
    cases hf : m.entries.find? (fun e => decide (key e.1 = key k)) with
    | none =>
      have := List.find?_eq_none.mp hf (n, v) hmem
      simp [hn] at this
    | some d =>
      have hd : key d.1 = key k := by simpa using List.find?_some hf
      have := entry_unique (List.mem_of_find?_eq_some hf) hmem (hd.trans hn.symm)
      simp [find?, hf, this]

lemma contains_eq_false : m.contains k = false ↔ ∀ n w, (n, w) ∈ m.entries → key n ≠ key k := by
  rw [contains, Option.isSome_eq_false_iff, Option.isNone_iff_eq_none]
  constructor
  · intro h n w hmem hn
    rw [find?_eq_some.mpr ⟨n, hn, hmem⟩] at h
    exact absurd h (by simp)
  · intro h
    cases hf : m.find? k with
    | none => rfl
    | some w =>
      obtain ⟨n, hn, hmem⟩ := find?_eq_some.mp hf
      exact absurd hn (h n w hmem)

lemma mem_insert (h : m.contains k = false) {e : κ × ν} :
    e ∈ (m.insert k v).entries ↔ e = (k, v) ∨ e ∈ m.entries := by
  refine ⟨mem_insertEntry, ?_⟩
  have hne := contains_eq_false.mp h
  change _ → e ∈ insertEntry key k v m.entries
  generalize m.entries = es at hne
  induction es with
  | nil => simp [insertEntry]
  | cons d es ih =>
    have hd := hne d.1 d.2 (by simp)
    have ih := ih fun n w hmem => hne n w (by simp [hmem])
    rw [insertEntry]
    split_ifs with hlt hgt
    · simp
    · rintro (he | he)
      · exact List.mem_cons_of_mem d (ih (.inl he))
      · rcases List.mem_cons.mp he with rfl | he
        · simp
        · exact List.mem_cons_of_mem d (ih (.inr he))
    · exact absurd (le_antisymm (not_lt.mp hlt) (not_lt.mp hgt)) hd

lemma contains_iff : m.contains k = true ↔ ∃ e ∈ m.entries, key e.1 = key k := by
  rw [← Bool.not_eq_false, contains_eq_false]
  constructor
  · intro h
    by_contra hnone
    exact h fun n w hmem hn => hnone ⟨(n, w), hmem, hn⟩
  · rintro ⟨e, he, hk⟩ h
    exact h e.1 e.2 he hk

lemma insert_of_contains (h : m.contains k = true) : (m.insert k v).entries = m.entries := by
  obtain ⟨e, he, hk⟩ := contains_iff.mp h
  obtain ⟨es, hsorted⟩ := m
  change insertEntry key k v es = es
  induction es with
  | nil => exact absurd he (List.not_mem_nil)
  | cons d es ih =>
    obtain ⟨hd, hes⟩ := List.pairwise_cons.mp hsorted
    rw [insertEntry]
    rcases List.mem_cons.mp he with rfl | he
    · rw [if_neg (by simp [hk]), if_neg (by simp [hk])]
    · have hlt : key d.1 < key k := hk ▸ hd e he
      rw [if_neg hlt.not_gt, if_pos hlt, ih hes (contains_iff.mpr ⟨e, he, hk⟩) he]

lemma contains_insert {j : κ} : (m.insert k v).contains j = true ↔ key k = key j ∨ m.contains j = true := by
  rcases hk : m.contains k with _ | _
  · simp only [contains_iff, mem_insert hk]
    constructor
    · rintro ⟨e, rfl | he, hj⟩
      · exact .inl hj
      · exact .inr ⟨e, he, hj⟩
    · rintro (hj | ⟨e, he, hj⟩)
      · exact ⟨(k, v), .inl rfl, hj⟩
      · exact ⟨e, .inr he, hj⟩
  · rw [contains_iff, insert_of_contains hk, ← contains_iff]
    refine ⟨.inr, ?_⟩
    rintro (hj | hj)
    · obtain ⟨e, he, hek⟩ := contains_iff.mp hk
      exact contains_iff.mpr ⟨e, he, hek.trans hj⟩
    · exact hj

lemma mem_erase {e : κ × ν} : e ∈ (m.erase k).entries ↔ e ∈ m.entries ∧ key e.1 ≠ key k := by
  simp [erase]

lemma contains_erase {j : κ} : (m.erase k).contains j = true ↔ m.contains j = true ∧ key j ≠ key k := by
  simp only [contains_iff, mem_erase]
  constructor
  · rintro ⟨e, ⟨he, hne⟩, hj⟩
    exact ⟨⟨e, he, hj⟩, hj ▸ hne⟩
  · rintro ⟨⟨e, he, hj⟩, hne⟩
    exact ⟨e, ⟨he, hj ▸ hne⟩, hj⟩

lemma keys_modify {f : ν → ν} : (m.modify k f).entries.map Prod.fst = m.entries.map Prod.fst := by
  rw [modify, List.map_map]
  apply List.map_congr_left
  intro e _
  dsimp only [Function.comp]
  split_ifs <;> rfl

lemma contains_modify {j : κ} {f : ν → ν} : (m.modify k f).contains j = m.contains j := by
  rw [Bool.eq_iff_iff, contains_iff, contains_iff]
  constructor
  · rintro ⟨e, he, hj⟩
    obtain ⟨d, hd, rfl⟩ := List.mem_map.mp he
    refine ⟨d, hd, ?_⟩
    split_ifs at hj <;> exact hj
  · rintro ⟨d, hd, hj⟩
    refine ⟨_, List.mem_map_of_mem hd, ?_⟩
    split_ifs <;> exact hj

lemma contains_mapValues {j : κ} {f : ν → ν} : (m.mapValues f).contains j = m.contains j := by
  rw [Bool.eq_iff_iff, contains_iff, contains_iff]
  constructor
  · rintro ⟨e, he, hj⟩
    obtain ⟨d, hd, rfl⟩ := List.mem_map.mp he
    exact ⟨d, hd, hj⟩
  · rintro ⟨d, hd, hj⟩
    exact ⟨_, List.mem_map_of_mem hd, hj⟩

lemma mem_mapValues {f : ν → ν} {e : κ × ν} : e ∈ (m.mapValues f).entries ↔ ∃ d ∈ m.entries, (d.1, f d.2) = e :=
  List.mem_map

lemma mem_filter {p : κ × ν → Bool} {e : κ × ν} : e ∈ (m.filter p).entries ↔ e ∈ m.entries ∧ p e = true :=
  List.mem_filter

lemma mem_of_firstGt? {e : κ × ν} (h : m.firstGt? k = some e) : e ∈ m.entries :=
  List.mem_of_find?_eq_some h

lemma lastLe?_of_mem {d : κ × ν} (hd : d ∈ m.entries) (hle : key d.1 ≤ key k) :
    ∃ e, m.lastLe? k = some e ∧ e ∈ m.entries ∧ key d.1 ≤ key e.1 ∧ key e.1 ≤ key k := by
  have hmem : d ∈ m.entries.filter fun e => decide (key e.1 ≤ key k) :=
    List.mem_filter.mpr ⟨hd, decide_eq_true hle⟩
  have hne := List.ne_nil_of_mem hmem
  have hlast := List.mem_filter.mp (List.getLast_mem hne)
  refine ⟨_, List.getLast?_eq_some_getLast hne, hlast.1, ?_, of_decide_eq_true hlast.2⟩
  have hsorted := m.sorted.filter fun e => decide (key e.1 ≤ key k)
  rw [← List.dropLast_concat_getLast hne] at hmem hsorted
  rcases List.mem_append.mp hmem with hmem | hmem
  · exact ((List.pairwise_append.mp hsorted).2.2 d hmem _ (List.mem_singleton.mpr rfl)).le
  · rw [List.mem_singleton.mp hmem]

lemma firstGt?_of_mem {d : κ × ν} (hd : d ∈ m.entries) (hgt : key k < key d.1) :
    ∃ e, m.firstGt? k = some e ∧ e ∈ m.entries ∧ key k < key e.1 ∧ key e.1 ≤ key d.1 := by
  have hsome : (m.firstGt? k).isSome = true := List.find?_isSome.mpr ⟨d, hd, decide_eq_true hgt⟩
  obtain ⟨e, he⟩ := Option.isSome_iff_exists.mp hsome
  have hkey : key k < key e.1 := by simpa using List.find?_some he
  refine ⟨e, he, mem_of_firstGt? he, hkey, ?_⟩
  obtain ⟨-, as, bs, hsplit, hbefore⟩ := List.find?_eq_some_iff_append.mp he
  have hsorted := hsplit ▸ m.sorted
  rw [hsplit] at hd
  rcases List.mem_append.mp hd with hd | hd
  · simpa [hgt] using hbefore d hd
  · rcases List.mem_cons.mp hd with rfl | hd
    · exact le_rfl
    · exact ((List.pairwise_cons.mp (List.pairwise_append.mp hsorted).2.1).1 d hd).le

lemma insert_append (h : ∀ e ∈ m.entries, key e.1 < key k) : (m.insert k v).entries = m.entries ++ [(k, v)] := by
  change insertEntry key k v m.entries = _
  generalize m.entries = es at h
  induction es with
  | nil => rfl
  | cons e es ih =>
    have he := h e List.mem_cons_self
    rw [insertEntry, if_neg he.asymm, if_pos he, ih fun d hd => h d (List.mem_cons_of_mem e hd), List.cons_append]

lemma foldl_insert (m : OrdMap key ν) {es : List (κ × ν)}
    (h : (m.entries ++ es).Pairwise fun a b => key a.1 < key b.1) :
    (es.foldl (fun m e => m.insert e.1 e.2) m).entries = m.entries ++ es := by
  induction es generalizing m with
  | nil => simp
  | cons e es ih =>
    have hbefore : ∀ d ∈ m.entries, key d.1 < key e.1 := by
      intro d hd
      exact (List.pairwise_append.mp h).2.2 d hd e List.mem_cons_self
    have hinsert : (m.insert e.1 e.2).entries = m.entries ++ [e] := insert_append hbefore
    rw [List.foldl_cons, ih, hinsert, List.append_assoc, List.singleton_append]
    rwa [hinsert, List.append_assoc, List.singleton_append]

lemma foldl_insert_entries (m : OrdMap key ν) : m.entries.foldl (fun m e => m.insert e.1 e.2) .empty = m :=
  OrdMap.ext (foldl_insert .empty m.sorted)

lemma nodup_entries (m : OrdMap key ν) : m.entries.Nodup := m.sorted.imp fun hlt heq => (heq ▸ hlt).false

lemma ext_mem {m n : OrdMap key ν} (h : ∀ e, e ∈ m.entries ↔ e ∈ n.entries) : m = n := by
  have hperm : m.entries.Perm n.entries := (List.perm_ext_iff_of_nodup (nodup_entries m) (nodup_entries n)).mpr h
  apply OrdMap.ext
  exact hperm.eq_of_pairwise (fun a b _ _ hab hba => (hab.asymm hba).elim) m.sorted n.sorted

lemma modify_insert (h : m.contains k = false) (f : ν → ν) : (m.insert k v).modify k f = m.insert k (f v) := by
  apply ext_mem
  intro e
  have hne : ∀ d ∈ m.entries, key d.1 ≠ key k := fun d hd => contains_eq_false.mp h d.1 d.2 hd
  rw [mem_insert h]
  constructor
  · intro he
    obtain ⟨d, hd, rfl⟩ := List.mem_map.mp he
    rcases (mem_insert h).mp hd with rfl | hd
    · exact .inl (if_pos rfl)
    · exact .inr (by rwa [if_neg (hne d hd)])
  · rintro (rfl | he)
    · exact List.mem_map.mpr ⟨(k, v), (mem_insert h).mpr (.inl rfl), if_pos rfl⟩
    · exact List.mem_map.mpr ⟨e, (mem_insert h).mpr (.inr he), if_neg (hne e he)⟩

lemma entries_modify {f : ν → ν} :
    (m.modify k f).entries = m.entries.map fun e => if key e.1 = key k then (e.1, f e.2) else e := rfl

lemma entries_mapValues {f : ν → ν} : (m.mapValues f).entries = m.entries.map fun e => (e.1, f e.2) := rfl

lemma find?_modify (h : m.contains k = true) (w : ν) : (m.modify k fun _ => w).find? k = some w := by
  obtain ⟨e, he, hk⟩ := contains_iff.mp h
  exact find?_eq_some.mpr ⟨e.1, hk, List.mem_map.mpr ⟨e, he, if_pos hk⟩⟩

lemma find?_modify_of_ne {j : κ} (h : key j ≠ key k) (f : ν → ν) : (m.modify k f).find? j = m.find? j := by
  apply Option.ext
  intro w
  rw [find?_eq_some, find?_eq_some]
  apply exists_congr
  intro n
  apply and_congr_right
  intro hn
  rw [entries_modify, List.mem_map]
  constructor
  · rintro ⟨e, he, heq⟩
    split_ifs at heq with hk
    · exact absurd (hn.symm.trans ((congrArg (fun e => key e.1) heq).symm.trans hk)) h
    · exact heq ▸ he
  · intro hmem
    exact ⟨(n, w), hmem, if_neg fun hk => h (hn.symm.trans hk)⟩

lemma modify_self (h : m.find? k = some v) : (m.modify k fun _ => v) = m := by
  obtain ⟨n, hn, hmem⟩ := find?_eq_some.mp h
  apply OrdMap.ext
  refine (List.map_congr_left fun e he => ?_).trans (List.map_id m.entries)
  dsimp only [id]
  split_ifs with hk
  · rw [entry_unique he hmem (hk.trans hn.symm)]
  · rfl

lemma modify_modify (f g : ν → ν) : (m.modify k f).modify k g = m.modify k (g ∘ f) := by
  apply OrdMap.ext
  rw [entries_modify, entries_modify, entries_modify, List.map_map]
  apply List.map_congr_left
  intro e _
  dsimp only [Function.comp]
  split_ifs
  · rfl
  · rfl

lemma erase_of_not_contains (h : m.contains k = false) : m.erase k = m := by
  apply OrdMap.ext
  rw [erase, List.filter_eq_self]
  intro e he
  exact decide_eq_true (contains_eq_false.mp h e.1 e.2 he)

lemma find?_insert_of_ne {j : κ} (h : key j ≠ key k) : (m.insert k v).find? j = m.find? j := by
  apply Option.ext
  intro w
  rw [find?_eq_some, find?_eq_some]
  apply exists_congr
  intro n
  apply and_congr_right
  intro hn
  rcases hk : m.contains k with _ | _
  · rw [mem_insert hk, or_iff_right]
    rintro heq
    exact h (hn.symm.trans (congrArg (fun e => key e.1) heq))
  · rw [insert_of_contains hk]

lemma not_contains_erase (m : OrdMap key ν) (k : κ) : (m.erase k).contains k = false := by
  rw [Bool.eq_false_iff]
  intro hcontains
  exact (contains_erase.mp hcontains).2 rfl

lemma mem_set {e : κ × ν} : e ∈ (m.set k v).entries ↔ e = (k, v) ∨ e ∈ m.entries ∧ key e.1 ≠ key k := by
  rw [set, mem_insert (not_contains_erase m k), mem_erase]

lemma find?_set_self (m : OrdMap key ν) (k : κ) (v : ν) : (m.set k v).find? k = some v :=
  find?_eq_some.mpr ⟨k, rfl, mem_set.mpr (.inl rfl)⟩

lemma find?_congr {j : κ} (h : key j = key k) : m.find? j = m.find? k := by
  rw [find?, find?, h]

lemma find?_erase_of_ne {j : κ} (h : key j ≠ key k) : (m.erase k).find? j = m.find? j := by
  apply Option.ext
  intro w
  rw [find?_eq_some, find?_eq_some]
  apply exists_congr
  intro n
  rw [mem_erase]
  apply and_congr_right
  intro hn
  apply and_iff_left
  intro heq
  exact h (hn.symm.trans heq)

lemma find?_insert_self (h : m.contains k = false) (v : ν) : (m.insert k v).find? k = some v :=
  find?_eq_some.mpr ⟨k, rfl, (mem_insert h).mpr (.inl rfl)⟩

lemma find?_mapValues (f : ν → ν) : (m.mapValues f).find? k = (m.find? k).map f := by
  rw [find?, find?, entries_mapValues, List.find?_map, Option.map_map, Option.map_map]
  rfl

lemma find?_modify_eq {j : κ} (f : ν → ν) :
    (m.modify k f).find? j = if key j = key k then (m.find? j).map f else m.find? j := by
  split_ifs with h
  · rw [find?, find?, entries_modify, List.find?_map, Option.map_map, Option.map_map]
    have hkeys : ((fun e : κ × ν => decide (key e.1 = key j)) ∘ fun e => if key e.1 = key k then (e.1, f e.2) else e) =
        fun e => decide (key e.1 = key j) := by
      funext e
      dsimp only [Function.comp]
      split_ifs <;> rfl
    rw [hkeys]
    apply Option.map_congr
    intro e he
    have hfound := List.find?_some he
    have hkey : key e.1 = key k := (of_decide_eq_true hfound).trans h
    simp [hkey]
  · exact find?_modify_of_ne h f

lemma find?_insert {j : κ} :
    (m.insert k v).find? j = if key j = key k then some ((m.find? j).getD v) else m.find? j := by
  split_ifs with h
  · rcases hk : m.contains k with _ | _
    · rw [find?_congr h, find?_insert_self hk, find?_congr h]
      rw [contains, Option.isSome_eq_false_iff, Option.isNone_iff_eq_none] at hk
      rw [hk, Option.getD_none]
    · have hsame : (m.insert k v).find? j = m.find? j := by
        rw [find?, find?, insert_of_contains hk]
      obtain ⟨w, hw⟩ := Option.isSome_iff_exists.mp hk
      rw [hsame, find?_congr h, hw, Option.getD_some]
  · exact find?_insert_of_ne h

lemma find?_erase {j : κ} : (m.erase k).find? j = if key j = key k then none else m.find? j := by
  split_ifs with h
  · have hnone := not_contains_erase m k
    rw [contains, Option.isSome_eq_false_iff, Option.isNone_iff_eq_none] at hnone
    rw [find?_congr h, hnone]
  · exact find?_erase_of_ne h

lemma perm_insert (h : m.contains k = false) (v : ν) : (m.insert k v).entries.Perm ((k, v) :: m.entries) := by
  apply (List.perm_ext_iff_of_nodup (nodup_entries _) _).mpr
  · intro e
    rw [mem_insert h, List.mem_cons]
  · refine List.nodup_cons.mpr ⟨fun hmem => ?_, nodup_entries m⟩
    exact contains_eq_false.mp h k v hmem rfl

lemma perm_erase {e : κ × ν} (he : e ∈ m.entries) : m.entries.Perm (e :: (m.erase e.1).entries) := by
  apply (List.perm_ext_iff_of_nodup (nodup_entries m) _).mpr
  · intro d
    rw [List.mem_cons, mem_erase]
    constructor
    · intro hd
      by_cases hkey : key d.1 = key e.1
      · exact .inl (entry_unique hd he hkey)
      · exact .inr ⟨hd, hkey⟩
    · rintro (rfl | ⟨hd, -⟩)
      · exact he
      · exact hd
  · refine List.nodup_cons.mpr ⟨fun hmem => ?_, nodup_entries _⟩
    exact (mem_erase.mp hmem).2 rfl

lemma find?_set_of_ne {j : κ} (h : key j ≠ key k) : (m.set k v).find? j = m.find? j := by
  rw [set, find?_insert_of_ne h, find?_erase_of_ne h]

lemma erase_set (h : m.contains k = false) (v : ν) : (m.set k v).erase k = m := by
  apply ext_mem
  intro e
  rw [mem_erase, mem_set]
  constructor
  · rintro ⟨rfl | ⟨he, -⟩, hne⟩
    · exact absurd rfl hne
    · exact he
  · intro he
    have hne := contains_eq_false.mp h e.1 e.2 he
    exact ⟨.inr ⟨he, hne⟩, hne⟩

lemma mem_foldl_insert {es : List (κ × ν)} (hnew : ∀ e ∈ es, m.contains e.1 = false)
    (hdistinct : es.Pairwise fun a b => key a.1 ≠ key b.1) {d : κ × ν} :
    d ∈ (es.foldl (fun m e => m.insert e.1 e.2) m).entries ↔ d ∈ es ∨ d ∈ m.entries := by
  induction es generalizing m with
  | nil => simp
  | cons e es ih =>
    obtain ⟨hfirst, hrest⟩ := List.pairwise_cons.mp hdistinct
    rw [List.foldl_cons, ih _ hrest, mem_insert (hnew e List.mem_cons_self), List.mem_cons]
    · constructor
      · rintro (hd | hd | hd)
        · exact .inl (.inr hd)
        · exact .inl (.inl hd)
        · exact .inr hd
      · rintro ((hd | hd) | hd)
        · exact .inr (.inl hd)
        · exact .inl hd
        · exact .inr (.inr hd)
    · intro a ha
      have hne := hfirst a ha
      have hold := hnew a (List.mem_cons_of_mem e ha)
      rw [Bool.eq_false_iff] at hold ⊢
      intro hcontains
      exact (contains_insert.mp hcontains).elim hne hold

lemma foldl_modify (m : OrdMap key ν) (f g : ν → ν) :
    m.entries.foldl (fun r e => r.modify e.1 fun _ => g e.2) (m.mapValues f) = m.mapValues g := by
  -- the entries up to some point have their new values, those from there on still the old ones
  have hrun (rest : List (κ × ν)) : ∀ (done : List (κ × ν)) (r : OrdMap key ν), m.entries = done ++ rest →
      r.entries = done.map (fun e => (e.1, g e.2)) ++ rest.map (fun e => (e.1, f e.2)) →
      rest.foldl (fun r e => r.modify e.1 fun _ => g e.2) r = m.mapValues g := by
    induction rest with
    | nil =>
      intro done r hm hr
      apply OrdMap.ext
      rw [List.foldl_nil, hr, entries_mapValues, hm, List.append_nil, List.map_nil, List.append_nil]
    | cons e rest ih =>
      intro done r hm hr
      have hsorted := m.sorted
      rw [hm, List.pairwise_append] at hsorted
      obtain ⟨-, hrest, hdone⟩ := hsorted
      rw [List.foldl_cons]
      apply ih (done ++ [e])
      · rw [hm, List.append_assoc, List.singleton_append]
      · rw [entries_modify, hr, List.map_append, List.map_map, List.map_cons, List.map_cons, List.map_map, if_pos rfl,
          List.map_append, List.append_assoc, List.map_singleton, List.singleton_append]
        congr 1
        · apply List.map_congr_left
          intro d hd
          exact if_neg (hdone d hd e List.mem_cons_self).ne
        · congr 1
          apply List.map_congr_left
          intro d hd
          exact if_neg ((List.pairwise_cons.mp hrest).1 d hd).ne'
  exact hrun m.entries [] (m.mapValues f) rfl rfl

lemma foldl_component {σ α : Type} {f : σ → κ × ν → σ} (component : σ → α) (g : ν → α)
    (hset : ∀ s e, key e.1 = key k → component (f s e) = g e.2)
    (hkeep : ∀ s e, key e.1 ≠ key k → component (f s e) = component s) (m : OrdMap key ν) (s : σ) :
    component (m.entries.foldl f s) = ((m.find? k).map g).getD (component s) := by
  obtain ⟨es, hsorted⟩ := m
  simp only [find?]
  induction es generalizing s with
  | nil => rfl
  | cons e es ih =>
    obtain ⟨he, hes⟩ := List.pairwise_cons.mp hsorted
    rw [List.foldl_cons, ih _ hes]
    by_cases hk : key e.1 = key k
    · have hnone : es.find? (fun e => decide (key e.1 = key k)) = none := by
        apply List.find?_eq_none.mpr
        intro d hd
        simpa [← hk] using (he d hd).ne'
      simp [hk, hnone, hset s e hk]
    · simp [hk, hkeep s e hk]

end Lemmas

end OrdMap

end InputLeap.Lib
