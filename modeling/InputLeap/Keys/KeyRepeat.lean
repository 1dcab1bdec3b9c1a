import InputLeap.Keys.KeyState
import Mathlib.Data.List.SplitBy

/-! The keystrokes that are sent, those that repeat as often as the key repeats. Between the keystrokes that repeat there
may be others, so that they stand in more than one run. -/

namespace InputLeap.Keys

def Keystroke.isRepeat : Keystroke → Bool
  | .button _ _ isRepeat _ => isRepeat
  | .group _ _ _ => false

namespace KeyState

/-- The loop `while (count-- > 0)`: what it sends, and where it leaves the iterator. -/
def repeatKeys (start : List Keystroke) : ℕ → List Keystroke → List Keystroke × List Keystroke
  | 0, k => ([], k)
  | count + 1, _ =>
    let more := repeatKeys start count (start.dropWhile Keystroke.isRepeat)
    (start.takeWhile Keystroke.isRepeat ++ more.1, more.2)

lemma repeatKeys_eq (start k : List Keystroke) {count : ℕ} (h : count ≠ 0) : repeatKeys start count k =
    ((List.replicate count (start.takeWhile Keystroke.isRepeat)).flatten, start.dropWhile Keystroke.isRepeat) := by
  induction count generalizing k with
  | zero => exact absurd rfl h
  | succ count ih =>
    by_cases hc : count = 0
    · subst hc
      simp [repeatKeys]
    · simp [repeatKeys, ih _ hc, List.replicate_succ]

/-- The loop over the keystrokes. The counter of the inner loop is that of the call, and has wrapped around when the
inner loop ends. -/
def fakeKeysFrom (keys : List Keystroke) (count : UInt32) : List Keystroke :=
  match keys with
  | [] => []
  | k :: ks =>
    if k.isRepeat then
      (repeatKeys (k :: ks) count.toNat (k :: ks)).1 ++
        fakeKeysFrom (repeatKeys (k :: ks) count.toNat (k :: ks)).2 (0 - 1)
    else k :: fakeKeysFrom ks count
termination_by (keys.length, if count = 0 then 1 else 0)
decreasing_by
  · rename_i hk
    by_cases hc : count = 0
    · subst hc
      apply Prod.Lex.right
      simp
    · apply Prod.Lex.left
      have hne : count.toNat ≠ 0 := fun h => hc (UInt32.toNat_inj.mp h)
      rw [repeatKeys_eq _ _ hne, List.dropWhile_cons_of_pos hk]
      exact Nat.lt_succ_of_le (List.dropWhile_sublist _).length_le
  · exact Prod.Lex.left _ _ (Nat.lt_succ_self _)

def fakeKeys (keys : List Keystroke) (count : UInt32) : List Keystroke :=
  if count = 0 ∨ keys = [] then [] else fakeKeysFrom keys count

section Runs

/-- The keystrokes cut into the longest runs of keystrokes that repeat, and the others one by one. -/
def runs (keys : List Keystroke) : List (List Keystroke) := keys.splitBy fun a b => a.isRepeat && b.isRepeat

def isRun (run : List Keystroke) : Bool := run.all Keystroke.isRepeat

def repeatRuns (count : ℕ) (rs : List (List Keystroke)) : List Keystroke :=
  rs.flatMap fun run => if isRun run then (List.replicate count run).flatten else run

/-- The keystrokes with each run that repeats sent `count` times. -/
def repeated (count : ℕ) (keys : List Keystroke) : List Keystroke := repeatRuns count (runs keys)

lemma isRun_takeWhile (keys : List Keystroke) : isRun (keys.takeWhile Keystroke.isRepeat) = true :=
  List.all_takeWhile

lemma runs_cons {k : Keystroke} (hk : k.isRepeat = false) (ks : List Keystroke) : runs (k :: ks) = [k] :: runs ks := by
  have hcut := List.splitBy_append (r := fun a b => a.isRepeat && b.isRepeat) (l := [k]) (m := ks) (by simp [hk])
  exact hcut

lemma runs_append {run rest : List Keystroke} (hne : run ≠ []) (hrun : ∀ k ∈ run, k.isRepeat = true)
    (hrest : ∀ k ∈ rest.head?, k.isRepeat = false) : runs (run ++ rest) = run :: runs rest := by
  have hone : runs run = [run] := by
    apply List.splitBy_of_isChain hne
    apply List.Pairwise.isChain
    apply List.pairwise_of_forall_mem_list
    intro a ha b hb
    simp [hrun a ha, hrun b hb]
  rw [runs, List.splitBy_append, ← runs, hone, ← runs, List.singleton_append]
  intro x _ y hy
  simp [hrest y hy]

lemma runs_repeat {k : Keystroke} (hk : k.isRepeat = true) (ks : List Keystroke) :
    runs (k :: ks) = (k :: ks).takeWhile Keystroke.isRepeat :: runs ((k :: ks).dropWhile Keystroke.isRepeat) := by
  conv_lhs => rw [← List.takeWhile_append_dropWhile (p := Keystroke.isRepeat) (l := k :: ks)]
  apply runs_append
  · simp [hk]
  · exact fun d hd => List.all_eq_true.mp (isRun_takeWhile (k :: ks)) d hd
  · intro d hd
    have := List.head?_dropWhile_not Keystroke.isRepeat (k :: ks)
    rw [hd] at this
    simpa using this

end Runs

/-- How often a run is sent: the first one as often as asked for, and those behind it as often as the counter says that
has wrapped around. -/
def sendRuns : ℕ → List (List Keystroke) → List Keystroke
  | _, [] => []
  | count, run :: rest =>
    if isRun run then (List.replicate count run).flatten ++ sendRuns (2 ^ 32 - 1) rest
    else run ++ sendRuns count rest

lemma fakeKeysFrom_eq {keys : List Keystroke} {count : UInt32} (h : count ≠ 0) :
    fakeKeysFrom keys count = sendRuns count.toNat (runs keys) := by
  induction keys, count using fakeKeysFrom.induct with
  | case1 count => simp [fakeKeysFrom, runs, sendRuns]
  | case2 count k ks hk ih =>
    have hne : count.toNat ≠ 0 := fun hc => h (UInt32.toNat_inj.mp hc)
    rw [repeatKeys_eq _ _ hne] at ih
    rw [fakeKeysFrom, if_pos hk, repeatKeys_eq _ _ hne, runs_repeat hk, sendRuns, if_pos (isRun_takeWhile _),
      ih (by decide)]
    rfl
  | case3 count k ks hk ih =>
    have hfalse : k.isRepeat = false := by simpa using hk
    rw [fakeKeysFrom, if_neg hk, runs_cons hfalse, sendRuns, if_neg (by simp [isRun, hfalse]), ih h]
    rfl

section Counts

variable {rs : List (List Keystroke)} {m n : ℕ}

lemma repeatRuns_cons (n : ℕ) (run : List Keystroke) (rs : List (List Keystroke)) : repeatRuns n (run :: rs) =
    (if isRun run then (List.replicate n run).flatten else run) ++ repeatRuns n rs := by
  simp [repeatRuns]

lemma repeatRuns_of_none (h : rs.countP isRun = 0) (m n : ℕ) : repeatRuns m rs = repeatRuns n rs := by
  induction rs with
  | nil => rfl
  | cons run rs ih =>
    have hrun : isRun run = false := by simpa using List.countP_eq_zero.mp h run List.mem_cons_self
    rw [List.countP_cons_of_neg (by simp [hrun])] at h
    simp [repeatRuns_cons, hrun, ih h]

lemma length_repeatRuns_le (hmn : m ≤ n) (rs : List (List Keystroke)) :
    (repeatRuns m rs).length ≤ (repeatRuns n rs).length := by
  induction rs with
  | nil => exact Nat.le_refl _
  | cons run rs ih =>
    rw [repeatRuns_cons, repeatRuns_cons, List.length_append, List.length_append]
    apply Nat.add_le_add _ ih
    split_ifs
    · simpa using Nat.mul_le_mul_right run.length hmn
    · exact Nat.le_refl _

lemma length_repeatRuns_lt (hmn : m < n) (hne : ∀ run ∈ rs, run ≠ []) (h : rs.countP isRun ≠ 0) :
    (repeatRuns m rs).length < (repeatRuns n rs).length := by
  induction rs with
  | nil => exact absurd rfl h
  | cons run rs ih =>
    rw [repeatRuns_cons, repeatRuns_cons, List.length_append, List.length_append]
    by_cases hrun : isRun run = true
    · apply Nat.add_lt_add_of_lt_of_le _ (length_repeatRuns_le hmn.le rs)
      have hpos : 0 < run.length := List.length_pos_iff.mpr (hne run List.mem_cons_self)
      simpa [hrun] using Nat.mul_lt_mul_of_pos_right hmn hpos
    · rw [List.countP_cons_of_neg hrun] at h
      rw [if_neg hrun, if_neg hrun]
      exact Nat.add_lt_add_left (ih (fun run hr => hne run (List.mem_cons_of_mem _ hr)) h) _

lemma repeatRuns_eq_iff (hne : ∀ run ∈ rs, run ≠ []) :
    repeatRuns m rs = repeatRuns n rs ↔ rs.countP isRun = 0 ∨ m = n := by
  constructor
  · intro heq
    by_contra hc
    obtain ⟨hcount, hmn⟩ := not_or.mp hc
    have hlength := congrArg List.length heq
    rcases Nat.lt_or_gt_of_ne hmn with hlt | hlt
    · exact (length_repeatRuns_lt hlt hne hcount).ne hlength
    · exact (length_repeatRuns_lt hlt hne hcount).ne' hlength
  · rintro (hcount | rfl)
    · exact repeatRuns_of_none hcount m n
    · rfl

lemma sendRuns_wrapped (rs : List (List Keystroke)) : sendRuns (2 ^ 32 - 1) rs = repeatRuns (2 ^ 32 - 1) rs := by
  generalize hn : 2 ^ 32 - 1 = n
  induction rs with
  | nil => rfl
  | cons run rs ih =>
    rw [sendRuns, repeatRuns_cons, hn, ih]
    split_ifs <;> rfl

lemma sendRuns_eq_iff (n : ℕ) (hne : ∀ run ∈ rs, run ≠ []) :
    sendRuns n rs = repeatRuns n rs ↔ rs.countP isRun ≤ 1 ∨ n = 2 ^ 32 - 1 := by
  induction rs with
  | nil => simp [sendRuns, repeatRuns]
  | cons run rs ih =>
    have hrest : ∀ run ∈ rs, run ≠ [] := fun run hr => hne run (List.mem_cons_of_mem _ hr)
    rw [sendRuns, repeatRuns_cons]
    by_cases hrun : isRun run = true
    · rw [if_pos hrun, if_pos hrun, List.append_right_inj, sendRuns_wrapped, repeatRuns_eq_iff hrest,
        List.countP_cons_of_pos hrun]
      omega
    · rw [if_neg hrun, if_neg hrun, List.append_right_inj, ih hrest, List.countP_cons_of_neg hrun]

end Counts

/-- The keys are repeated as asked for just if no more than one run of them repeats, or the count is that which the
counter wraps around to. -/
theorem fakeKeys_repeated_iff (keys : List Keystroke) {count : UInt32} (h : count ≠ 0) :
    fakeKeys keys count = repeated count.toNat keys ↔
      (runs keys).countP isRun ≤ 1 ∨ count.toNat = 2 ^ 32 - 1 := by
  have hsend : fakeKeys keys count = sendRuns count.toNat (runs keys) := by
    rw [fakeKeys]
    split_ifs with hc
    · obtain rfl := hc.resolve_left h
      rfl
    · exact fakeKeysFrom_eq h
  rw [hsend]
  exact sendRuns_eq_iff count.toNat fun run => List.ne_nil_of_mem_splitBy

def repeatsTwice : List Keystroke :=
  [.button 30 true true 0, .button 42 true false 0, .button 31 true true 0]

theorem fakeKeys_repeatsTwice : ¬ (∀ (keys : List Keystroke) (count : UInt32), count ≠ 0 →
    fakeKeys keys count = repeated count.toNat keys) := by
  intro hall
  have hruns : runs repeatsTwice = repeatsTwice.map fun k => [k] := by decide
  have heq := hall repeatsTwice 1 (by decide)
  rw [fakeKeys, if_neg (by decide), fakeKeysFrom_eq (by decide), repeated, sendRuns_eq_iff, hruns] at heq
  · exact absurd heq (by decide)
  · exact fun run => List.ne_nil_of_mem_splitBy

theorem fakeKeys_repeated_once : fakeKeys [.button 30 true true 0] 3 = repeated 3 [.button 30 true true 0] :=
  (fakeKeys_repeated_iff _ (by decide)).mpr (.inl (by decide))

end KeyState

end InputLeap.Keys
