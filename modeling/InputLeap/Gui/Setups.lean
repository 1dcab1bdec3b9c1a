import InputLeap.Gui.Overlap
import Mathlib.Data.List.Forall2

/-! The setups of a layout: which one is found for the displays that a computer has now, what becomes of the computers when
it is restored, and what is kept of a layout when it is saved. -/

namespace InputLeap.Gui

open InputLeap.Lib

/-- What a setup keeps of a computer: where it is, its displays and its scale. -/
def ScreenConfig.place (s : ScreenConfig) : Rect × List DisplayConfig × ℤ := (s.desktop, s.displays, s.scale)

namespace LayoutModel

section Best

variable {count : Setup × ℕ → Option ℕ}

/-- Nothing counts for more than this, and what counts for as much is behind it. -/
def Leads (count : Setup × ℕ → Option ℕ) (l : List (Setup × ℕ)) (b : ℕ × ℕ) : Prop :=
  (∃ e ∈ l, e.2 = b.1 ∧ count e = some b.2) ∧ ∀ e ∈ l, ∀ n ∈ count e, n < b.2 ∨ n = b.2 ∧ b.1 ≤ e.2

lemma foldl_better (l : List (Setup × ℕ)) (hsorted : l.Pairwise fun d e => d.2 < e.2) :
    (l.foldl (better count) none = none ↔ ∀ e ∈ l, count e = none) ∧
      ∀ b ∈ l.foldl (better count) none, Leads count l b := by
  induction l using List.reverseRecOn with
  | nil => simp
  | append_singleton l e ih =>
    obtain ⟨hbefore, -, hlast⟩ := List.pairwise_append.mp hsorted
    obtain ⟨hnone, hsome⟩ := ih hbefore
    rw [List.foldl_append, List.foldl_cons, List.foldl_nil]
    generalize l.foldl (better count) none = best at hnone hsome
    rw [better]
    cases hcount : count e with
    | none =>
      dsimp only
      refine ⟨by simp [hnone, hcount, or_imp, forall_and], fun b hb => ?_⟩
      obtain ⟨⟨d, hd, hdb⟩, hall⟩ := hsome b hb
      refine ⟨⟨d, List.mem_append_left _ hd, hdb⟩, fun f hf n hn => ?_⟩
      rcases List.mem_append.mp hf with hf | hf
      · exact hall f hf n hn
      · rw [List.mem_singleton.mp hf, hcount] at hn
        cases hn
    | some k =>
      have hcounted : ¬∀ d ∈ l ++ [e], count d = none := by
        intro hall
        rw [hall e (by simp)] at hcount
        cases hcount
      dsimp only
      split_ifs with hbetter
      · refine ⟨iff_of_false (by simp) hcounted, ?_⟩
        rintro b ⟨⟩
        refine ⟨⟨e, by simp, rfl, hcount⟩, fun f hf n hn => ?_⟩
        rcases List.mem_append.mp hf with hf | hf
        · cases best with
          | none =>
            rw [hnone.mp rfl f hf] at hn
            cases hn
          | some b =>
            have hlt : b.2 < k := by simpa using hbetter
            have := (hsome b rfl).2 f hf n hn
            exact .inl (by omega)
        · obtain rfl := List.mem_singleton.mp hf
          rw [hcount] at hn
          exact .inr ⟨(Option.some.inj hn).symm, le_rfl⟩
      · cases best with
        | none => simp at hbetter
        | some b =>
          have hle : k ≤ b.2 := by simpa using hbetter
          refine ⟨iff_of_false (by simp) hcounted, ?_⟩
          rintro _ ⟨⟩
          obtain ⟨⟨d, hd, hdb, hdn⟩, hall⟩ := hsome b rfl
          refine ⟨⟨d, List.mem_append_left _ hd, hdb, hdn⟩, fun f hf n hn => ?_⟩
          rcases List.mem_append.mp hf with hf | hf
          · exact hall f hf n hn
          · obtain rfl := List.mem_singleton.mp hf
            rw [hcount] at hn
            obtain rfl := Option.some.inj hn
            have hbehind := hlast d hd f (List.mem_singleton_self f)
            omega

lemma Leads.unique {l : List (Setup × ℕ)} {a b : ℕ × ℕ} (ha : Leads count l a) (hb : Leads count l b) : a = b := by
  obtain ⟨⟨d, hd, hda, hdn⟩, halla⟩ := ha
  obtain ⟨⟨e, he, heb, hen⟩, hallb⟩ := hb
  have hab := halla e he b.2 hen
  have hba := hallb d hd a.2 hdn
  exact Prod.ext (by omega) (by omega)

end Best

variable {qt : Qt} {m m' : LayoutModel} {key : Name} {displays : List DisplayConfig}

/-- A setup in which the computer with the key has the displays, and the others that it knows have those of now. -/
def Suits (qt : Qt) (m : LayoutModel) (key : Name) (displays : List DisplayConfig) (setup : Setup) : Prop :=
  (setup.find key).map ScreenConfig.displays = some displays ∧
    ∀ s ∈ m.others qt key, ∀ other ∈ setup.find (qt.toLower s.name), other.displays = s.displays

instance (setup : Setup) : Decidable (m.Suits qt key displays setup) := inferInstanceAs (Decidable (_ ∧ _))

def knownOthers (qt : Qt) (m : LayoutModel) (key : Name) (setup : Setup) : ℕ := (m.others qt key).countP (known qt setup)

lemma knownOthers_le {setup : Setup} : m.knownOthers qt key setup ≤ (m.others qt key).length := List.countP_le_length

lemma common_eq_some {setup : Setup} {n : ℕ} : m.common qt key displays setup = some n ↔
    m.Suits qt key displays setup ∧ n = m.knownOthers qt key setup := by
  have hlength (l : List ScreenConfig) : (l.filterMap fun s =>
      (setup.find (qt.toLower s.name)).map fun other => decide (other.displays = s.displays)).length =
        l.countP (known qt setup) := by
    rw [List.length_filterMap_eq_countP]
    exact List.countP_congr fun s _ => by simp [known]
  rw [common, Suits, knownOthers]
  split_ifs with hkey
  · exact iff_of_false (by simp) fun h => hkey h.1.1
  · dsimp only
    rw [hlength]
    split_ifs with hall
    · rw [Option.some.injEq, eq_comm, and_iff_right]
      refine ⟨not_not.mp hkey, fun s hs other hother => ?_⟩
      have htrue := List.all_eq_true.mp hall (decide (other.displays = s.displays))
        (List.mem_filterMap.mpr ⟨s, hs, by simp [Option.mem_def.mp hother]⟩)
      simpa using htrue
    · refine iff_of_false (by simp) fun h => hall (List.all_eq_true.mpr fun b hb => ?_)
      obtain ⟨s, hs, hfind⟩ := List.mem_filterMap.mp hb
      obtain ⟨other, hother, rfl⟩ := Option.map_eq_some_iff.mp hfind
      exact decide_eq_true (h.1.2 s hs other hother)

lemma common_eq_none {setup : Setup} : m.common qt key displays setup = none ↔ ¬m.Suits qt key displays setup := by
  rw [← Option.not_isSome_iff_eq_none, Option.isSome_iff_exists]
  simp [common_eq_some]

/-- A setup of those that are not shown suits the displays of now, and knows more computers than any other, or is the
first of several. -/
def Found (qt : Qt) (m : LayoutModel) (key : Name) (displays : List DisplayConfig) (k : ℕ) (setup : Setup) : Prop :=
  m.setups[k]? = some setup ∧ m.activeSetup ≠ some k ∧ m.Suits qt key displays setup ∧
    ∀ (j : ℕ) (other : Setup), m.setups[j]? = some other → m.activeSetup ≠ some j → m.Suits qt key displays other →
      m.knownOthers qt key other < m.knownOthers qt key setup ∨
        m.knownOthers qt key other = m.knownOthers qt key setup ∧ k ≤ j

lemma pairwise_zipIdx (l : List Setup) : l.zipIdx.Pairwise fun d e => d.2 < e.2 := by
  rw [List.pairwise_iff_getElem]
  intro i j hi hj hij
  simpa using hij

lemma candidate_eq_some {e : Setup × ℕ} {n : ℕ} : m.candidate qt key displays e = some n ↔
    m.activeSetup ≠ some e.2 ∧ m.Suits qt key displays e.1 ∧ n = m.knownOthers qt key e.1 := by
  rw [candidate]
  split_ifs with hactive
  · simp [hactive]
  · simp [hactive, common_eq_some]

lemma leads_iff {b : ℕ × ℕ} : Leads (m.candidate qt key displays) m.setups.zipIdx b ↔
    ∃ setup, m.Found qt key displays b.1 setup ∧ b.2 = m.knownOthers qt key setup := by
  constructor
  · rintro ⟨⟨⟨setup, k⟩, he, rfl, hcount⟩, hall⟩
    obtain ⟨hactive, hsuits, hn⟩ := candidate_eq_some.mp hcount
    refine ⟨setup, ⟨List.mem_zipIdx_iff_getElem?.mp he, hactive, hsuits, fun j other hother hne hsuits' => ?_⟩, hn⟩
    rw [← hn]
    exact hall (other, j) (List.mem_zipIdx_iff_getElem?.mpr hother) _ (candidate_eq_some.mpr ⟨hne, hsuits', rfl⟩)
  · rintro ⟨setup, ⟨hsetup, hactive, hsuits, hall⟩, hn⟩
    refine ⟨⟨(setup, b.1), List.mem_zipIdx_iff_getElem?.mpr hsetup, rfl,
      candidate_eq_some.mpr ⟨hactive, hsuits, hn⟩⟩, ?_⟩
    intro e he n hcount
    obtain ⟨hne, hsuits', rfl⟩ := candidate_eq_some.mp hcount
    rw [hn]
    exact hall e.2 e.1 (List.mem_zipIdx_iff_getElem?.mp he) hne hsuits'

lemma bestSetup_eq_some {k : ℕ} : m.bestSetup qt key displays = some k ↔ ∃ setup, m.Found qt key displays k setup := by
  obtain ⟨hnone, hsome⟩ := @foldl_better (m.candidate qt key displays) m.setups.zipIdx (pairwise_zipIdx _)
  rw [bestSetup]
  constructor
  · intro h
    obtain ⟨b, hb, rfl⟩ := Option.map_eq_some_iff.mp h
    obtain ⟨setup, hfound, -⟩ := leads_iff.mp (hsome b hb)
    exact ⟨setup, hfound⟩
  · rintro ⟨setup, hfound⟩
    have hleads : Leads (m.candidate qt key displays) m.setups.zipIdx (k, m.knownOthers qt key setup) :=
      leads_iff.mpr ⟨setup, hfound, rfl⟩
    cases hfold : m.setups.zipIdx.foldl (better (m.candidate qt key displays)) none with
    | none =>
      obtain ⟨⟨e, he, -, hcount⟩, -⟩ := hleads
      rw [hnone.mp hfold e he] at hcount
      cases hcount
    | some b =>
      rw [(hsome b hfold).unique hleads]
      rfl

lemma bestSetup_eq_none : m.bestSetup qt key displays = none ↔ ∀ k setup, ¬m.Found qt key displays k setup := by
  rw [Option.eq_none_iff_forall_not_mem]
  exact forall_congr' fun k => (not_congr bestSetup_eq_some).trans not_exists

lemma not_found_iff : (∀ k setup, ¬m.Found qt key displays k setup) ↔
    ∀ (j : ℕ) (other : Setup), m.setups[j]? = some other → m.activeSetup ≠ some j → ¬m.Suits qt key displays other := by
  obtain ⟨hnone, -⟩ := @foldl_better (m.candidate qt key displays) m.setups.zipIdx (pairwise_zipIdx _)
  rw [← bestSetup_eq_none, bestSetup, Option.map_eq_none_iff, hnone]
  constructor
  · intro h j other hother hne
    have hcount := h (other, j) (List.mem_zipIdx_iff_getElem?.mpr hother)
    rw [candidate, if_neg hne] at hcount
    exact common_eq_none.mp hcount
  · intro h e he
    rw [candidate]
    split_ifs with hactive
    · rfl
    · exact common_eq_none.mpr (h e.2 e.1 (List.mem_zipIdx_iff_getElem?.mp he) hactive)

def SameOthers (qt : Qt) (key : Name) (s t : ScreenConfig) : Prop :=
  t.name = s.name ∧ (qt.toLower s.name ≠ key → t.displays = s.displays)

lemma SameOthers.refl (s : ScreenConfig) : SameOthers qt key s s := ⟨rfl, fun _ => rfl⟩

section Same

variable {l l' : List ScreenConfig}

lemma forall₂_others (h : List.Forall₂ (SameOthers qt key) l l') :
    List.Forall₂ (SameOthers qt key) (l.filter fun s => decide (qt.toLower s.name ≠ key))
      (l'.filter fun s => decide (qt.toLower s.name ≠ key)) := by
  induction h with
  | nil => exact .nil
  | cons hst _ ih =>
    rw [List.filter_cons, List.filter_cons, hst.1]
    split_ifs
    · exact .cons hst ih
    · exact ih

lemma forall₂_names (h : List.Forall₂ (SameOthers qt key) l l') :
    l'.map ScreenConfig.name = l.map ScreenConfig.name := by
  induction h with
  | nil => rfl
  | cons hst _ ih => rw [List.map_cons, List.map_cons, hst.1, ih]

lemma suits_congr {setup : Setup} (h : List.Forall₂ (SameOthers qt key) m.screens m'.screens) :
    m'.Suits qt key displays setup ↔ m.Suits qt key displays setup := by
  have hsame (l l' : List ScreenConfig) (h : List.Forall₂ (SameOthers qt key) l l')
      (hkey : ∀ s ∈ l, qt.toLower s.name ≠ key) :
      (∀ s ∈ l', ∀ other ∈ setup.find (qt.toLower s.name), other.displays = s.displays) ↔
        ∀ s ∈ l, ∀ other ∈ setup.find (qt.toLower s.name), other.displays = s.displays := by
    induction h with
    | nil => rfl
    | cons hst _ ih =>
      rw [List.forall_mem_cons, List.forall_mem_cons, hst.1, hst.2 (hkey _ List.mem_cons_self),
        ih fun s hs => hkey s (List.mem_cons_of_mem _ hs)]
  rw [Suits, Suits, others, others,
    hsame _ _ (forall₂_others h) fun s hs => by simpa using (List.mem_filter.mp hs).2]

lemma knownOthers_congr {setup : Setup} (h : List.Forall₂ (SameOthers qt key) m.screens m'.screens) :
    m'.knownOthers qt key setup = m.knownOthers qt key setup := by
  have hsame (l l' : List ScreenConfig) (h : List.Forall₂ (SameOthers qt key) l l') :
      l'.countP (known qt setup) = l.countP (known qt setup) := by
    induction h with
    | nil => rfl
    | cons hst _ ih => rw [List.countP_cons, List.countP_cons, known, known, hst.1, ih]
  exact hsame _ _ (forall₂_others h)

end Same

section Names

lemma indexOf_congr {name : Name} (h : m'.screens.map ScreenConfig.name = m.screens.map ScreenConfig.name) :
    m'.indexOf qt name = m.indexOf qt name := by
  have hnames (m : LayoutModel) : (m.screens.findIdx? fun s => qt.sameName s.name name) =
      (m.screens.map ScreenConfig.name).findIdx? fun n => qt.sameName n name := by
    rw [List.findIdx?_map]
    rfl
  rw [indexOf, indexOf, hnames, hnames, h]

lemma save_screens (m : LayoutModel) : (m.save qt).screens = m.screens := by
  rw [save]
  cases m.store with
  | none => rfl
  | some store =>
    dsimp only [recordSetup]
    split <;> rfl

lemma save_store_isSome (m : LayoutModel) : (m.save qt).store.isSome = m.store.isSome := by
  rw [save]
  cases hstore : m.store with
  | none => simp [hstore]
  | some store => rfl

end Names

def HoldsPlaces (qt : Qt) (setup : Setup) (screens : List ScreenConfig) : Prop :=
  ∀ s ∈ screens, (setup.find (qt.toLower s.name)).map ScreenConfig.place = some s.place

instance (qt : Qt) (setup : Setup) (screens : List ScreenConfig) : Decidable (HoldsPlaces qt setup screens) :=
  inferInstanceAs (Decidable (∀ s ∈ screens, _))

lemma place_restoreScreen {setup : Setup} {s stored : ScreenConfig} (h : setup.find (qt.toLower s.name) = some stored) :
    (restoreScreen qt setup s).place = stored.place := by
  rw [restoreScreen, h, ScreenConfig.place, ScreenConfig.place]
  have hdesktop : (restored s stored).desktop = stored.desktop := ScreenConfig.desktop_congr rfl rfl rfl rfl rfl
  dsimp only
  rw [hdesktop]
  rfl

lemma places_restored_iff {setup : Setup} {l l' : List ScreenConfig}
    (hnames : l'.map ScreenConfig.name = l.map ScreenConfig.name)
    (hknown : ∀ s ∈ l, (setup.find (qt.toLower s.name)).isSome = true) :
    (l'.map (restoreScreen qt setup)).map ScreenConfig.place = l.map ScreenConfig.place ↔ HoldsPlaces qt setup l := by
  induction l generalizing l' with
  | nil =>
    obtain rfl := List.map_eq_nil_iff.mp hnames
    exact iff_of_true rfl fun s hs => absurd hs List.not_mem_nil
  | cons s l ih =>
    cases l' with
    | nil => simp at hnames
    | cons t l' =>
      obtain ⟨hname, hrest⟩ := List.cons_eq_cons.mp hnames
      obtain ⟨stored, hstored⟩ := Option.isSome_iff_exists.mp (hknown s List.mem_cons_self)
      have hplace := place_restoreScreen (s := t) (hname ▸ hstored)
      have htail := ih hrest fun u hu => hknown u (List.mem_cons_of_mem s hu)
      rw [List.map_cons, List.map_cons, List.map_cons, List.cons_eq_cons, hplace, htail, HoldsPlaces, HoldsPlaces,
        List.forall_mem_cons, hstored, Option.map_some, Option.some.injEq]

lemma unknown_eq_nil {setup : Setup} (hnames : m'.screens.map ScreenConfig.name = m.screens.map ScreenConfig.name)
    (hknown : ∀ s ∈ m.screens, (setup.find (qt.toLower s.name)).isSome = true) : m'.unknown qt setup = [] := by
  rw [unknown, List.map_eq_nil_iff, List.filter_eq_nil_iff]
  rintro ⟨t, i⟩ ht
  have hmem : t.name ∈ m.screens.map ScreenConfig.name := by
    rw [← hnames]
    exact List.mem_map_of_mem (List.fst_mem_of_mem_zipIdx ht)
  obtain ⟨s, hs, hname⟩ := List.mem_map.mp hmem
  simp [known, ← hname, hknown s hs]

lemma normaliseDisplays_name (s : ScreenConfig) : s.normaliseDisplays.name = s.name := by
  rw [ScreenConfig.normaliseDisplays]
  split <;> rfl

section Lists

variable {R : ScreenConfig → ScreenConfig → Prop} {l l' : List ScreenConfig} {i : ℕ} {s t : ScreenConfig}

lemma forall₂_getElem? (h : List.Forall₂ R l l') (hs : l[i]? = some s) : ∃ t, l'[i]? = some t ∧ R s t := by
  induction h generalizing i with
  | nil => simp at hs
  | cons hst _ ih =>
    cases i with
    | zero => exact ⟨_, rfl, Option.some.inj hs ▸ hst⟩
    | succ i => exact ih hs

lemma forall₂_map_right (f : ScreenConfig → ScreenConfig) (hf : ∀ s ∈ l, R s (f s)) : List.Forall₂ R l (l.map f) := by
  induction l with
  | nil => exact .nil
  | cons s l ih => exact .cons (hf s List.mem_cons_self) (ih fun t ht => hf t (List.mem_cons_of_mem s ht))

lemma forall₂_set (h : List.Forall₂ R l l') (hs : l[i]? = some s) (ht : R s t) : List.Forall₂ R l (l'.set i t) := by
  induction h generalizing i with
  | nil => exact .nil
  | cons hst hrest ih =>
    cases i with
    | zero => exact .cons (Option.some.inj hs ▸ ht) hrest
    | succ i => exact .cons hst (ih hs)

lemma forall₂_modify (f : ScreenConfig → ScreenConfig) (hrefl : ∀ s, R s s) (hf : ∀ s, R s (f s)) (l : List ScreenConfig) (i : ℕ) :
    List.Forall₂ R l (l.modify i f) := by
  induction l generalizing i with
  | nil => cases i <;> exact .nil
  | cons s l ih =>
    cases i with
    | zero => exact .cons (hf s) (List.forall₂_same.mpr fun t _ => hrefl t)
    | succ i => exact .cons (hrefl s) (ih i)

end Lists

def Moved (s t : ScreenConfig) : Prop :=
  t.name = s.name ∧ t.displays = s.displays ∧ t.displaysReported = s.displaysReported ∧
    t.displaysTyped = s.displaysTyped

lemma Moved.refl (s : ScreenConfig) : Moved s s := ⟨rfl, rfl, rfl, rfl⟩

lemma Moved.trans {s t u : ScreenConfig} (h : Moved s t) (h' : Moved t u) : Moved s u :=
  ⟨h'.1.trans h.1, h'.2.1.trans h.2.1, h'.2.2.1.trans h.2.2.1, h'.2.2.2.trans h.2.2.2⟩

lemma forall₂_trans {R S T : ScreenConfig → ScreenConfig → Prop} {l l' l'' : List ScreenConfig}
    (hRST : ∀ s t u, R s t → S t u → T s u) (h : List.Forall₂ R l l') (h' : List.Forall₂ S l' l'') :
    List.Forall₂ T l l'' := by
  induction h generalizing l'' with
  | nil =>
    cases h'
    exact .nil
  | cons hst _ ih =>
    cases h' with
    | cons htu hrest => exact .cons (hRST _ _ _ hst htu) (ih hrest)

lemma clearAside_moved (m : LayoutModel) (i : ℕ) : List.Forall₂ Moved m.screens (m.clearAside i).screens := by
  rw [clearAside]
  split
  · exact List.forall₂_same.mpr fun s _ => .refl s
  · split_ifs
    · split
      · exact List.forall₂_same.mpr fun s _ => .refl s
      · exact forall₂_modify _ .refl (fun s => ⟨rfl, rfl, rfl, rfl⟩) _ _
    · exact List.forall₂_same.mpr fun s _ => .refl s

lemma foldl_clearAside_moved (rest : List ℕ) (m : LayoutModel) :
    List.Forall₂ Moved m.screens (rest.foldl clearAside m).screens := by
  induction rest generalizing m with
  | nil => exact List.forall₂_same.mpr fun s _ => .refl s
  | cons i rest ih => exact forall₂_trans (R := Moved) (S := Moved) (T := Moved) (fun _ _ _ => .trans) (clearAside_moved m i) (ih _)

lemma foldl_clearAside_frame (rest : List ℕ) (m : LayoutModel) :
    (rest.foldl clearAside m).setups = m.setups ∧ (rest.foldl clearAside m).store = m.store := by
  induction rest generalizing m with
  | nil => exact ⟨rfl, rfl⟩
  | cons i rest ih =>
    obtain ⟨hsetups, hstore⟩ := ih (m.clearAside i)
    obtain ⟨hsetups', hstore'⟩ := clearAside_frame m i
    exact ⟨hsetups.trans hsetups', hstore.trans hstore'⟩

lemma restoreScreen_sameOthers {setup : Setup} (h : m.Suits qt key displays setup) {s : ScreenConfig}
    (hs : s ∈ m.screens) : SameOthers qt key s (restoreScreen qt setup s) := by
  rw [restoreScreen]
  cases hfind : setup.find (qt.toLower s.name) with
  | none => exact .refl s
  | some stored =>
    exact ⟨rfl, fun hkey => h.2 s (List.mem_filter.mpr ⟨hs, by simpa using hkey⟩) stored hfind⟩

lemma save_setups (hstore : m.store.isSome = true) :
    (m.save qt).setups = (m.recordSetup qt).setups ∧ (m.save qt).activeSetup = (m.recordSetup qt).activeSetup := by
  rw [save]
  cases hsome : m.store with
  | none => simp [hsome] at hstore
  | some store => exact ⟨rfl, rfl⟩

lemma recordSetup_active {k : ℕ} (hactive : m.activeSetup = some k) (hk : k < m.setups.length) :
    (m.recordSetup qt).setups = m.setups.set k (Setup.ofScreens qt m.screens) ∧
      (m.recordSetup qt).activeSetup = some k := by
  have hfilter : (m.activeSetup.filter fun i => decide (i < m.setups.length)) = some k := by simp [hactive, hk]
  rw [recordSetup, hfilter]
  exact ⟨rfl, hactive⟩

lemma recordSetup_new (hactive : m.activeSetup = none) (hfew : m.setups.length < kMaxSetups) :
    (m.recordSetup qt).setups = Setup.ofScreens qt m.screens :: m.setups ∧
      (m.recordSetup qt).activeSetup = some 0 := by
  rw [recordSetup, hactive]
  exact ⟨List.take_of_length_le hfew, rfl⟩

end LayoutModel

end InputLeap.Gui
