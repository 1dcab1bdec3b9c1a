import InputLeap.Server.Events

/-! What a client says about its screen comes in sixteen bits a value. The position in the middle of the screen, which
replaces one that is off it, is stored in sixteen bits too. -/

namespace InputLeap

open InputLeap.Lib

lemma storeInt16_eq {n : ℤ} (hlow : -2 ^ 15 ≤ n) (hhigh : n < 2 ^ 15) : storeInt16 n = n := by
  rw [storeInt16, Int.bmod_def]
  split_ifs <;> omega

lemma storeInt16_over {n : ℤ} (hlow : 2 ^ 15 ≤ n) (hhigh : n < 2 ^ 16) : storeInt16 n = n - 2 ^ 16 := by
  rw [storeInt16, Int.bmod_def]
  split_ifs <;> omega

structure InfoMessage where
  x : Int16
  y : Int16
  w : Int16
  h : Int16
  dummy1 : Int16
  mx : Int16
  my : Int16

namespace InfoMessage

variable (m : InfoMessage)

def shape : DisplayRect := ⟨m.x.toInt, m.y.toInt, m.w.toInt, m.h.toInt⟩

def cursor : Position := (m.mx.toInt, m.my.toInt)

def Accepted : Prop := 0 < m.w.toInt ∧ 0 < m.h.toInt

instance : Decidable m.Accepted := inferInstanceAs (Decidable (_ ∧ _))

def CentreFits : Prop := m.x.toInt + m.w.toInt / 2 < 2 ^ 15 ∧ m.y.toInt + m.h.toInt / 2 < 2 ^ 15

end InfoMessage

variable {m : InfoMessage}

lemma storeInt16_inside_iff {x w : Int16} (hw : 0 < w.toInt) :
    (x.toInt ≤ storeInt16 (x.toInt + w.toInt / 2) ∧ storeInt16 (x.toInt + w.toInt / 2) < x.toInt + w.toInt) ↔
      x.toInt + w.toInt / 2 < 2 ^ 15 := by
  have hx := x.le_toInt
  have hx' := x.toInt_lt
  have hw' := w.toInt_lt
  rcases lt_or_ge (x.toInt + w.toInt / 2) (2 ^ 15) with hlt | hge
  · rw [storeInt16_eq (by omega) hlt]
    omega
  · rw [storeInt16_over hge (by omega)]
    omega

lemma Proxy.recvInfo_accepted (hm : m.Accepted) (p : Proxy) :
    p.recvInfo m.shape m.cursor = { p with
      shape := m.shape
      cursor := if m.shape.contains m.cursor then m.cursor
        else (storeInt16 (m.x.toInt + m.w.toInt / 2), storeInt16 (m.y.toInt + m.h.toInt / 2)) } := by
  obtain ⟨hw, hh⟩ := hm
  have hnot : ¬(m.shape.w ≤ 0 ∨ m.shape.h ≤ 0) := not_or.mpr ⟨not_le.mpr hw, not_le.mpr hh⟩
  rw [recvInfo, if_neg hnot]
  rfl

lemma Proxy.recvInfo_inside_iff (hm : m.Accepted) (p : Proxy) :
    (p.recvInfo m.shape m.cursor).shape.contains (p.recvInfo m.shape m.cursor).cursor = true ↔
      m.shape.contains m.cursor = true ∨ m.CentreFits := by
  rw [recvInfo_accepted hm]
  dsimp only
  by_cases hinside : m.shape.contains m.cursor = true
  · rw [if_pos hinside]
    exact iff_of_true hinside (.inl hinside)
  · rw [if_neg hinside, DisplayRect.contains, decide_eq_true_eq, ← and_assoc]
    have hacross := @storeInt16_inside_iff m.x m.w hm.1
    have hdown := @storeInt16_inside_iff m.y m.h hm.2
    exact (and_congr hacross hdown).trans (or_iff_right hinside).symm

namespace Server

variable {env : Env} {s : Server} {c : ClientId}

/-- No position that is stored for the description, or recorded from it afterwards, is off the screen. -/
def Coherent (env : Env) (s : Server) (c : ClientId) (m : InfoMessage) : Prop :=
  let stored := s.handleInfo c m.shape m.cursor
  (stored.getShape c).contains (stored.proxies c).cursor = true ∧
    (c ∈ s.registry.clientSet → ∀ t, stored.handleShapeChanged env c = some t →
      (t.getShape c).contains (t.proxies c).jump = true ∧
        (c = s.active → (t.getShape c).contains t.pointer.pos = true)) ∧
    ∀ t, stored.addClient c = some t → (t.getShape c).contains (t.proxies c).jump = true

lemma proxies_handleInfo (hc : c ≠ primaryClient) (shape : DisplayRect) (cursor : Position) :
    (s.handleInfo c shape cursor).proxies c = (s.proxies c).recvInfo shape cursor := by
  rw [handleInfo, modifyProxy]
  dsimp only
  rw [Function.update_self, if_neg hc]

lemma handleShapeChanged_records (hc : c ≠ primaryClient) (hmem : c ∈ s.registry.clientSet) {t : Server}
    (h : s.handleShapeChanged env c = some t) :
    (t.proxies c).shape = (s.proxies c).shape ∧ (t.proxies c).jump = (s.proxies c).cursor ∧
      (c = s.active → t.pointer.pos = (s.proxies c).cursor) := by
  rw [handleShapeChanged, if_neg (not_not.mpr hmem)] at h
  dsimp only at h
  rw [if_pos hc] at h
  obtain rfl := Option.some.inj h
  rw [takeCursor]
  dsimp only
  split_ifs with hactive
  · simp [modifyProxy]
  · simp only [modifyProxy, Function.update_self, true_and]
    exact fun h => absurd h hactive

lemma addClient_records {t : Server} (h : s.addClient c = some t) :
    (t.proxies c).shape = (s.proxies c).shape ∧ (t.proxies c).jump = (s.proxies c).cursor := by
  obtain ⟨registry, -, rfl⟩ := Option.map_eq_some_iff.mp h
  simp [modifyProxy]

theorem coherent_iff (hc : c ≠ primaryClient) (hm : m.Accepted) :
    Coherent env s c m ↔ m.shape.contains m.cursor = true ∨ m.CentreFits := by
  have hstored : (s.handleInfo c m.shape m.cursor).proxies c = _ := proxies_handleInfo hc m.shape m.cursor
  rw [← Proxy.recvInfo_inside_iff hm (s.proxies c), ← hstored]
  refine ⟨fun h => h.1, fun h => ⟨h, fun hmem t ht => ?_, fun t ht => ?_⟩⟩
  · obtain ⟨hshape, hjump, hpos⟩ := @handleShapeChanged_records env (s.handleInfo c m.shape m.cursor) c hc hmem t ht
    refine ⟨?_, fun hactive => ?_⟩
    · rw [getShape, hshape, hjump]
      exact h
    · rw [getShape, hshape, hpos hactive]
      exact h
  · obtain ⟨hshape, hjump⟩ := addClient_records ht
    rw [getShape, hshape, hjump]
    exact h

/-- A screen of 10000 by 1000 pixels whose left edge is at 30000, with the cursor at `(0, 0)`. -/
def farRight : InfoMessage := ⟨30000, 0, 10000, 1000, 0, 0, 0⟩

theorem coherent_iff_farRight : Coherent .plain (plain (.empty)) 1 farRight ↔
    farRight.shape.contains farRight.cursor = true ∨ farRight.CentreFits :=
  coherent_iff (by decide) (by decide)

/-- The middle, at 35000, is stored as -30536. -/
theorem info_off_screen : ¬ ∀ (env : Env) (s : Server) (c : ClientId) (m : InfoMessage), c ≠ primaryClient →
    m.Accepted → Coherent env s c m := by
  intro h
  have hstored := (h .plain (plain .empty) 1 farRight (by decide) (by decide)).1
  exact absurd hstored (by decide)

end Server

end InputLeap
