import InputLeap.Server.Config

/-! What a client reads from a list of options about its clipboard. A list of options is a list of ids, each with a value
behind it, but the loop goes from one element to the next and ends with the first id of the sharing. -/

namespace InputLeap.Client

structure ClipboardSettings where
  enableClipboard : Bool
  maximumClipboardSize : ℕ
deriving DecidableEq

namespace ClipboardSettings

/-- The loop over the elements of a list. It has no result where it would read behind the end. -/
def readOptions : List ℕ → ClipboardSettings → Option ClipboardSettings
  | [], s => some s
  | id :: rest, s =>
    if id = kOptionClipboardSharing then
      match rest with
      | [] => none
      | value :: _ => some { s with enableClipboard := decide (value ≠ 0) }
    else if id = kOptionClipboardSharingSize then
      match rest with
      | [] => none
      | value :: rest => readOptions rest { s with maximumClipboardSize := value }
    else readOptions rest s

def forceOff (s : ClipboardSettings) : ClipboardSettings :=
  if s.enableClipboard = true ∧ s.maximumClipboardSize = 0 then { s with enableClipboard := false } else s

def setOptions (options : List ℕ) (s : ClipboardSettings) : Option ClipboardSettings :=
  if options.length % 2 ≠ 0 then some s else (readOptions options s).map forceOff

section Pairs

def pairs : List ℕ → List (OptionID × ℕ)
  | id :: value :: rest => (id, value) :: pairs rest
  | _ => []

def elements (ps : List (OptionID × ℕ)) : List ℕ := ps.flatMap fun p => [p.1, p.2]

def apply (s : ClipboardSettings) (p : OptionID × ℕ) : ClipboardSettings :=
  if p.1 = kOptionClipboardSharing then { s with enableClipboard := decide (p.2 ≠ 0) }
  else if p.1 = kOptionClipboardSharingSize then { s with maximumClipboardSize := p.2 }
  else s

def applyAll (ps : List (OptionID × ℕ)) (s : ClipboardSettings) : ClipboardSettings := forceOff (ps.foldl apply s)

lemma elements_cons (p : OptionID × ℕ) (ps : List (OptionID × ℕ)) : elements (p :: ps) = p.1 :: p.2 :: elements ps := by
  simp [elements]

lemma length_elements (ps : List (OptionID × ℕ)) : (elements ps).length = 2 * ps.length := by
  induction ps with
  | nil => rfl
  | cons p ps ih =>
    rw [elements_cons, List.length_cons, List.length_cons, ih, List.length_cons]
    omega

lemma take_elements (ps : List (OptionID × ℕ)) (k : ℕ) : (elements ps).take (2 * k) = elements (ps.take k) := by
  induction ps generalizing k with
  | nil => simp [elements]
  | cons p ps ih =>
    cases k with
    | zero => simp [elements]
    | succ k => simp [elements_cons, Nat.mul_succ, ih]

lemma pairs_elements (ps : List (OptionID × ℕ)) : pairs (elements ps) = ps := by
  induction ps with
  | nil => rfl
  | cons p ps ih => simp [elements_cons, pairs, ih]

lemma elements_pairs {options : List ℕ} (h : options.length % 2 = 0) : elements (pairs options) = options := by
  induction options using pairs.induct with
  | case1 id value rest ih =>
    rw [List.length_cons, List.length_cons] at h
    rw [pairs, elements_cons, ih (by omega)]
  | case2 options hshort =>
    cases options with
    | nil => rfl
    | cons id options =>
      cases options with
      | nil => simp at h
      | cons value rest => exact absurd rfl (hshort id value rest)

end Pairs

section Reading

def isClipboardOption (id : ℕ) : Bool := id == kOptionClipboardSharing || id == kOptionClipboardSharingSize

def Idle (s : ClipboardSettings) (p : OptionID × ℕ) : Prop :=
  (p.1 = kOptionClipboardSharing → s.maximumClipboardSize ≠ 0 → decide (p.2 ≠ 0) = s.enableClipboard) ∧
    (p.1 = kOptionClipboardSharingSize → p.2 = s.maximumClipboardSize)

/-- Up to the sharing, no other option has one of the two ids as its value; behind it, no option says anything new. -/
def Straight : List (OptionID × ℕ) → ClipboardSettings → Prop
  | [], _ => True
  | p :: ps, s =>
    if p.1 = kOptionClipboardSharing then ∀ q ∈ ps, Idle (apply s p) q
    else (p.1 ≠ kOptionClipboardSharingSize → isClipboardOption p.2 = false) ∧ Straight ps (apply s p)

lemma sharing_ne_size : kOptionClipboardSharing ≠ kOptionClipboardSharingSize := by decide

lemma forceOff_eq_iff (s t : ClipboardSettings) : forceOff s = forceOff t ↔
    s.maximumClipboardSize = t.maximumClipboardSize ∧
      (t.maximumClipboardSize ≠ 0 → s.enableClipboard = t.enableClipboard) := by
  obtain ⟨e, n⟩ := s
  obtain ⟨e', n'⟩ := t
  cases e <;> cases e' <;> simp only [forceOff] <;> split_ifs <;> simp_all <;> omega

lemma forceOff_apply_iff {s t : ClipboardSettings} (h : forceOff s = forceOff t) (p : OptionID × ℕ) :
    forceOff (apply s p) = forceOff t ↔ Idle t p := by
  obtain ⟨hsize, henable⟩ := (forceOff_eq_iff s t).mp h
  rw [forceOff_eq_iff, Idle, apply]
  by_cases hsharing : p.1 = kOptionClipboardSharing
  · simp [hsharing, sharing_ne_size, hsize]
  · by_cases hmax : p.1 = kOptionClipboardSharingSize
    · simp only [hmax, sharing_ne_size.symm, if_true, if_false, false_implies, true_implies, true_and]
      exact and_iff_left henable
    · simp only [hsharing, hmax, if_false, false_implies, and_self]
      exact iff_of_true ⟨hsize, henable⟩ trivial

lemma forceOff_foldl_iff {s t : ClipboardSettings} (h : forceOff s = forceOff t) (ps : List (OptionID × ℕ)) :
    (∀ k, forceOff ((ps.take k).foldl apply s) = forceOff t) ↔ ∀ p ∈ ps, Idle t p := by
  induction ps generalizing s with
  | nil => simp [h]
  | cons p ps ih =>
    constructor
    · intro hall
      have hp := hall 1
      rw [List.take_succ_cons, List.take_zero, List.foldl_cons, List.foldl_nil] at hp
      have hps := (ih hp).mp fun k => hall (k + 1)
      simp only [List.forall_mem_cons]
      exact ⟨(forceOff_apply_iff h p).mp hp, hps⟩
    · intro hall k
      cases k with
      | zero => simpa using h
      | succ k =>
        have hp := (forceOff_apply_iff h p).mpr (hall p List.mem_cons_self)
        exact (ih hp).mpr (fun q hq => hall q (List.mem_cons_of_mem _ hq)) k

def Reads (ps : List (OptionID × ℕ)) (s : ClipboardSettings) : Prop :=
  (readOptions (elements ps) s).map forceOff = some (applyAll ps s)

lemma readOptions_sharing {p : OptionID × ℕ} (h : p.1 = kOptionClipboardSharing) (ps : List (OptionID × ℕ))
    (s : ClipboardSettings) : readOptions (elements (p :: ps)) s = some (apply s p) := by
  rw [elements_cons, readOptions, if_pos h, apply, if_pos h]

lemma readOptions_size {p : OptionID × ℕ} (h : p.1 = kOptionClipboardSharingSize) (ps : List (OptionID × ℕ))
    (s : ClipboardSettings) : readOptions (elements (p :: ps)) s = readOptions (elements ps) (apply s p) := by
  simp [elements_cons, readOptions, apply, h, sharing_ne_size.symm]

lemma readOptions_other {p : OptionID × ℕ} (h : p.1 ≠ kOptionClipboardSharing) (h' : p.1 ≠ kOptionClipboardSharingSize)
    (ps : List (OptionID × ℕ)) (s : ClipboardSettings) :
    readOptions (elements (p :: ps)) s = readOptions (p.2 :: elements ps) s := by
  simp [elements_cons, readOptions, h, h']

/-- Where the last value is one of the two ids, the loop reads behind the end. -/
lemma readOptions_end {p : OptionID × ℕ} (h : p.1 ≠ kOptionClipboardSharing) (h' : p.1 ≠ kOptionClipboardSharingSize)
    (hvalue : isClipboardOption p.2 = true) (s : ClipboardSettings) : readOptions (elements [p]) s = none := by
  rw [readOptions_other h h']
  rw [isClipboardOption, Bool.or_eq_true, beq_iff_eq, beq_iff_eq] at hvalue
  rcases hvalue with hvalue | hvalue
  · simp [readOptions, elements, hvalue]
  · simp [readOptions, elements, hvalue, sharing_ne_size.symm]

lemma readOptions_skip {p : OptionID × ℕ} (h : p.1 ≠ kOptionClipboardSharing) (h' : p.1 ≠ kOptionClipboardSharingSize)
    (hvalue : isClipboardOption p.2 = false) (ps : List (OptionID × ℕ)) (s : ClipboardSettings) :
    readOptions (elements (p :: ps)) s = readOptions (elements ps) (apply s p) := by
  rw [isClipboardOption, Bool.or_eq_false_iff, beq_eq_false_iff_ne, beq_eq_false_iff_ne] at hvalue
  rw [readOptions_other h h', readOptions.eq_def]
  simp [hvalue.1, hvalue.2, apply, h, h']

lemma reads_iff (ps : List (OptionID × ℕ)) (s : ClipboardSettings) :
    (∀ k, Reads (ps.take k) s) ↔ Straight ps s := by
  induction ps generalizing s with
  | nil => simp [Reads, Straight, elements, readOptions, applyAll]
  | cons p ps ih =>
    have hzero : Reads ((p :: ps).take 0) s := by simp [Reads, elements, readOptions, applyAll]
    have hcut : (∀ k, Reads ((p :: ps).take k) s) ↔ ∀ k, Reads (p :: ps.take k) s := by
      constructor
      · exact fun h k => h (k + 1)
      · intro h k
        cases k with
        | zero => exact hzero
        | succ k => exact h k
    rw [hcut, Straight]
    split_ifs with hsharing
    · rw [← forceOff_foldl_iff rfl]
      apply forall_congr'
      intro k
      rw [Reads, readOptions_sharing hsharing, applyAll, Option.map_some, Option.some.injEq, List.foldl_cons]
      exact eq_comm
    · by_cases hsize : p.1 = kOptionClipboardSharingSize
      · simp only [hsize, ne_eq, not_true_eq_false, false_implies, true_and]
        rw [← ih]
        apply forall_congr'
        intro k
        rw [Reads, readOptions_size hsize]
        rfl
      · by_cases hvalue : isClipboardOption p.2 = true
        · refine iff_of_false (fun h => ?_) fun h => ?_
          · have hend := h 0
            rw [List.take_zero, Reads, readOptions_end hsharing hsize hvalue] at hend
            nomatch hend
          · rw [h.1 hsize] at hvalue
            nomatch hvalue
        · have hfalse : isClipboardOption p.2 = false := by simpa using hvalue
          simp only [hfalse, implies_true, true_and]
          rw [← ih]
          apply forall_congr'
          intro k
          rw [Reads, readOptions_skip hsharing hsize hfalse]
          rfl

lemma setOptions_elements (ps : List (OptionID × ℕ)) (s : ClipboardSettings) :
    setOptions (elements ps) s = some (applyAll ps s) ↔ Reads ps s := by
  rw [setOptions, if_neg (by simp [length_elements]), Reads]

end Reading

/-- The settings are what the pairs say, for a list and for all that it starts with, just if its pairs up to the first
that sets the sharing are read in step, and those behind it say nothing new. -/
theorem setOptions_pairs_iff {options : List ℕ} (h : options.length % 2 = 0) (s : ClipboardSettings) :
    (∀ k, setOptions (options.take (2 * k)) s = some (applyAll (pairs (options.take (2 * k))) s)) ↔
      Straight (pairs options) s := by
  rw [← reads_iff]
  apply forall_congr'
  intro k
  conv_lhs => rw [← elements_pairs h, take_elements, pairs_elements]
  exact setOptions_elements _ s

/-- The sharing stands in front of its size, as the ids are sorted. -/
def sortedOptions : List ℕ := [kOptionClipboardSharing, 1, kOptionClipboardSharingSize, 1024]

theorem setOptions_sortedOptions : ¬ (∀ options : List ℕ, options.length % 2 = 0 → ∀ s : ClipboardSettings,
    setOptions options s = some (applyAll (pairs options) s)) := by
  intro hall
  exact absurd (hall sortedOptions rfl ⟨true, 2 ^ 31 - 1⟩) (by decide)

theorem setOptions_size_first :
    setOptions [kOptionClipboardSharingSize, 1024, kOptionClipboardSharing, 1] ⟨true, 2 ^ 31 - 1⟩ =
      some (applyAll (pairs [kOptionClipboardSharingSize, 1024, kOptionClipboardSharing, 1]) ⟨true, 2 ^ 31 - 1⟩) := by
  have hlength : [kOptionClipboardSharingSize, 1024, kOptionClipboardSharing, 1].length % 2 = 0 := rfl
  refine (setOptions_pairs_iff hlength ⟨true, 2 ^ 31 - 1⟩).mpr ?_ 2
  simp [pairs, Straight, sharing_ne_size.symm]

end ClipboardSettings

end InputLeap.Client
