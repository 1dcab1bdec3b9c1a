import InputLeap.Gui.EnteringNames
import InputLeap.Gui.LayoutJson
import InputLeap.Gui.Scaling
import Mathlib.Data.List.GetD

/-! A client gets the configuration and sends it back as it is. The configuration for the server is the same then if all
that the document loses says nothing: it has limits for the displays, the keys and the actions, whole megabytes, and no
hotkeys where there are those of a mirror. -/

namespace InputLeap.Gui

open InputLeap.Lib InputLeap.Lib.Text

namespace ScreenConfig

variable {s t : ScreenConfig}

structure Alike (t s : ScreenConfig) : Prop where
  name : t.name = s.name
  rects : t.displayRects = s.displayRects
  own : t.displays.map DisplayConfig.rect = s.displays.map DisplayConfig.rect

lemma Alike.faces (h : Alike t s) (side : Side) : faces t side = faces s side := congrArg (facesOf side) h.rects

lemma Alike.nativeSize (h : Alike t s) : t.nativeSize = s.nativeSize := by
  rw [ScreenConfig.nativeSize, ScreenConfig.nativeSize, h.own]

lemma Alike.display (h : Alike t s) (i : ℕ) : (t.displays.getD i .default).rect = (s.displays.getD i .default).rect := by
  rw [← List.getD_map (f := DisplayConfig.rect), ← List.getD_map (f := DisplayConfig.rect), h.own]

lemma Alike.ownRange (h : Alike t s) (display : ℕ) (side : Side) (start stop : ℤ) :
    ownRange t display side start stop = ownRange s display side start stop := by
  have hdisplay := h.display display
  simp only [DisplayConfig.rect, Rect.mk.injEq] at hdisplay
  obtain ⟨hx, hy, hwidth, hheight⟩ := hdisplay
  simp only [Gui.ownRange, h.nativeSize, h.rects, hx, hy, hwidth, hheight]

lemma Alike.displaysLine (h : Alike t s) : t.displaysLine = s.displaysLine := by
  have htexts (displays : List DisplayConfig) : displays.flatMap displayText =
      (displays.map DisplayConfig.rect).flatMap fun r : Rect =>
        ' ' :: formatInt r.x ++ ',' :: formatInt r.y ++ ',' :: formatInt r.width ++ ',' :: formatInt r.height := by
    rw [List.flatMap_map]
    rfl
  rw [ScreenConfig.displaysLine, ScreenConfig.displaysLine, h.name, htexts, htexts, h.own]

lemma Alike.length (h : Alike t s) : t.displays.length = s.displays.length := by
  rw [← List.length_map, h.own, List.length_map]

end ScreenConfig

namespace LayoutModel

variable {l l' : LayoutModel} {f : ScreenConfig → ScreenConfig}

lemma ahead_map (hscreens : l'.screens = l.screens.map f) (h : ∀ s ∈ l.screens, (f s).Alike s) (side : Side) (i : ℕ) (face : Face) :
    l'.ahead side i face = l.ahead side i face := by
  rw [ahead, ahead, hscreens, List.zipIdx_map, List.flatMap_map]
  apply List.flatMap_congr
  rintro ⟨t, j⟩ ht
  dsimp only [Prod.map_apply, id]
  rw [(h t (List.fst_mem_of_mem_zipIdx ht)).faces]

lemma links_map (hscreens : l'.screens = l.screens.map f) (h : ∀ s ∈ l.screens, (f s).Alike s) : l'.links = l.links := by
  rw [links, links]
  apply List.flatMap_congr
  intro side _
  rw [hscreens, List.zipIdx_map, List.flatMap_map]
  apply List.flatMap_congr
  rintro ⟨s, i⟩ hs
  have hsAlike := h s (List.fst_mem_of_mem_zipIdx hs)
  dsimp only [Prod.map_apply, id]
  rw [hsAlike.faces]
  apply List.flatMap_congr
  intro face _
  rw [pieces, pieces, ahead_map hscreens h]
  apply List.filterMap_congr
  intro piece _
  rw [link, link, hscreens, List.getElem?_map]
  cases ht : l.screens[piece.value.screen]? with
  | none => rfl
  | some t =>
    dsimp only [Option.map_some, Option.bind_some]
    rw [hsAlike.ownRange, (h t (List.mem_of_getElem? ht)).ownRange]

lemma linkLines_map (hscreens : l'.screens = l.screens.map f) (h : ∀ s ∈ l.screens, (f s).Alike s) :
    l'.linkLines = l.linkLines := by
  have hname (i : ℕ) : (l'.screens[i]?).elim [] ScreenConfig.name = (l.screens[i]?).elim [] ScreenConfig.name := by
    rw [hscreens, List.getElem?_map]
    cases hs : l.screens[i]? with
    | none => rfl
    | some s => exact (h s (List.mem_of_getElem? hs)).name
  have htext (link : ScreenLink) : l'.linkText link = l.linkText link := by
    delta linkText
    rw [hname]
  rw [linkLines, linkLines, links_map hscreens h, hscreens, List.zipIdx_map, List.flatMap_map]
  apply List.flatMap_congr
  rintro ⟨s, i⟩ hs
  dsimp only [Prod.map_apply, id]
  rw [(h s (List.fst_mem_of_mem_zipIdx hs)).name, funext htext]

lemma displaysLines_map (hscreens : l'.screens = l.screens.map f) (h : ∀ s ∈ l.screens, (f s).Alike s) :
    l'.displaysLines = l.displaysLines := by
  rw [displaysLines, displaysLines, hscreens, List.filter_map, List.map_map]
  have hfilter : l.screens.filter ((fun s => decide (2 ≤ s.displays.length)) ∘ f) =
      l.screens.filter fun s => decide (2 ≤ s.displays.length) := by
    apply List.filter_congr
    intro s hs
    rw [Function.comp_apply, (h s hs).length]
  rw [hfilter]
  apply List.map_congr_left
  intro s hs
  exact (h s (List.mem_of_mem_filter hs)).displaysLine

def hotkeyLines (lower : ℕ → ℕ) (hotkeys : List Hotkey) : Option (List Name) :=
  (hotkeys.mapM (Hotkey.line lower)).map List.flatten

lemma configText_congr {lower : ℕ → ℕ} (hscreens : l'.screens = l.screens.map f) (h : ∀ s ∈ l.screens, (f s).Alike s)
    (hlines : ∀ s ∈ l.screens, (f s).screenLines = s.screenLines ∧ (f s).aliasLines = s.aliasLines)
    (hoptions : l'.options.lines = l.options.lines) (hhotkeys : hotkeyLines lower l'.hotkeys = hotkeyLines lower l.hotkeys) :
    l'.configText lower = l.configText lower := by
  have hscreen : l'.screens.flatMap ScreenConfig.screenLines = l.screens.flatMap ScreenConfig.screenLines := by
    rw [hscreens, List.flatMap_map]
    exact List.flatMap_congr fun s hs => (hlines s hs).1
  have halias : l'.screens.flatMap ScreenConfig.aliasLines = l.screens.flatMap ScreenConfig.aliasLines := by
    rw [hscreens, List.flatMap_map]
    exact List.flatMap_congr fun s hs => (hlines s hs).2
  have hsplit (l : LayoutModel) : l.configLines lower = (hotkeyLines lower l.hotkeys).map fun hotkeys =>
      sectionText .screens (l.screens.flatMap ScreenConfig.screenLines) ++
        sectionText .aliases (l.screens.flatMap ScreenConfig.aliasLines) ++ sectionText .links l.linkLines ++
        (if l.displaysLines = [] then [] else sectionText .displays l.displaysLines) ++
        sectionText .options (l.options.lines ++ hotkeys) := by
    rw [configLines, hotkeyLines, Option.map_map]
    rfl
  rw [configText, configText, hsplit, hsplit, hscreen, halias, linkLines_map hscreens h, displaysLines_map hscreens h,
    hoptions, hhotkeys]

end LayoutModel

section Arrived

variable {s : ScreenConfig}

structure ScreenConfig.Sendable (s : ScreenConfig) : Prop where
  cornered : Cornered s.displays
  cornerSize : 0 ≤ s.cornerSize
  scales : ∀ d ∈ s.displays, s.displayScale d.arrived = s.displayScale d

instance (s : ScreenConfig) : Decidable s.Sendable :=
  decidable_of_iff (Cornered s.displays ∧ 0 ≤ s.cornerSize ∧ ∀ d ∈ s.displays, s.displayScale d.arrived = s.displayScale d)
    ⟨fun h => ⟨h.1, h.2.1, h.2.2⟩, fun h => ⟨h.cornered, h.cornerSize, h.scales⟩⟩

def ScreenConfig.withArrived (s : ScreenConfig) : ScreenConfig := { s with displays := s.displays.map DisplayConfig.arrived }

lemma cornered_arrived {displays : List DisplayConfig} (h : Cornered displays) : Cornered (displays.map DisplayConfig.arrived) := by
  obtain ⟨hplaced, ⟨dx, hdx, hx⟩, dy, hdy, hy⟩ := h
  refine ⟨?_, ⟨_, List.mem_map_of_mem hdx, hx⟩, _, List.mem_map_of_mem hdy, hy⟩
  intro d hd
  obtain ⟨e, he, rfl⟩ := List.mem_map.mp hd
  exact hplaced e he

lemma ScreenConfig.arrived_eq (hscale : kMinScale ≤ s.scale ∧ s.scale ≤ kMaxScale) (h : s.Sendable) :
    s.arrived = s.withArrived := by
  rw [arrived, qBound_eq hscale.1 hscale.2, max_eq_right h.cornerSize]
  exact normaliseDisplays_eq (s := s.withArrived) (cornered_arrived h.cornered)

lemma biggest_arrived (d : DisplayConfig) (ds : List DisplayConfig) :
    biggest d.arrived (ds.map DisplayConfig.arrived) = ((biggest d ds).1.arrived, (biggest d ds).2) := by
  have harea (d : DisplayConfig) : d.arrived.area = d.area := rfl
  have hfold (main : DisplayConfig × ℕ) :
      (ds.zipIdx 1).foldl (fun main e => if main.1.area < (Prod.map DisplayConfig.arrived id e).1.area then
        Prod.map DisplayConfig.arrived id e else main) (Prod.map DisplayConfig.arrived id main) =
      Prod.map DisplayConfig.arrived id ((ds.zipIdx 1).foldl (fun main e => if main.1.area < e.1.area then e else main) main) := by
    apply List.foldl_hom
    intro main e
    rw [Prod.map_fst, Prod.map_fst, harea, harea]
    split_ifs <;> rfl
  rw [biggest, biggest, List.zipIdx_map, List.foldl_map]
  exact hfold (d, 0)

lemma mainRect_arrived {t : ScreenConfig} {m : DisplayConfig} (h : t.displayScale m.arrived = s.displayScale m) :
    t.mainRect m.arrived = s.mainRect m := by
  rw [ScreenConfig.mainRect, ScreenConfig.mainRect, h]
  rfl

lemma besideMain_arrived {t : ScreenConfig} {m d : DisplayConfig} (hm : t.displayScale m.arrived = s.displayScale m)
    (hd : t.displayScale d.arrived = s.displayScale d) : t.besideMain m.arrived d.arrived = s.besideMain m d := by
  rw [ScreenConfig.besideMain, ScreenConfig.besideMain, mainRect_arrived hm, hm, hd]
  rfl

lemma unplacedRects_arrived (h : ∀ d ∈ s.displays, s.displayScale d.arrived = s.displayScale d) :
    s.withArrived.unplacedRects = s.unplacedRects := by
  rw [ScreenConfig.unplacedRects, ScreenConfig.unplacedRects, ScreenConfig.withArrived]
  dsimp only
  cases hdisplays : s.displays with
  | nil => rfl
  | cons d ds =>
    rw [hdisplays] at h
    have hbiggest : (biggest d ds).1 ∈ d :: ds := List.fst_mem_of_mem_zipIdx (biggest_mem d ds)
    rw [List.map_cons]
    dsimp only
    rw [biggest_arrived, ← List.map_cons, List.zipIdx_map, List.map_map]
    apply List.map_congr_left
    rintro ⟨e, i⟩ he
    have hscale := h e (List.fst_mem_of_mem_zipIdx he)
    dsimp only [Function.comp_apply, Prod.map_apply, id]
    split_ifs
    · exact mainRect_arrived (h _ hbiggest)
    · exact besideMain_arrived (h _ hbiggest) hscale

lemma alike_arrived (h : ∀ d ∈ s.displays, s.displayScale d.arrived = s.displayScale d) :
    s.withArrived.Alike s := by
  refine ⟨rfl, ?_, ?_⟩
  · rw [ScreenConfig.displayRects, ScreenConfig.displayRects, unplacedRects_arrived h]
    rfl
  · rw [ScreenConfig.withArrived, List.map_map]
    rfl

end Arrived

section Hotkeys

variable {lower : ℕ → ℕ} {h : Hotkey} {hotkeys : List Hotkey}

def Hotkey.Sendable (h : Hotkey) : Prop :=
  h.actions = [] ∨ (h.keySequence.sequence ≠ [] ∧ h.keySequence.sequence.length ≤ 16) ∧ h.actions.length ≤ 64 ∧
    ∀ a ∈ h.actions, a.keySequence.sequence.length ≤ 16

instance (h : Hotkey) : Decidable h.Sendable := inferInstanceAs (Decidable (_ ∨ _))

lemma written_arrived {a : KeyAction} (ha : a.keySequence.sequence.length ≤ 16) : a.arrived.written lower = a.written lower := by
  have hsequence : a.arrived.keySequence.sequence = a.keySequence.sequence := List.take_of_length_le ha
  simp only [KeyAction.written, KeyAction.text, KeyAction.nameIndex, KeyAction.commandArgs, KeyAction.keyArgs,
    KeySequence.isMouseButton, KeySequence.toString, hsequence]
  rfl

lemma mapM_arrived {actions : List KeyAction} (h : ∀ a ∈ actions, a.keySequence.sequence.length ≤ 16) :
    (actions.map KeyAction.arrived).mapM (KeyAction.written lower) = actions.mapM (KeyAction.written lower) := by
  induction actions with
  | nil => rfl
  | cons a actions ih =>
    rw [List.map_cons, List.mapM_cons, List.mapM_cons, written_arrived (h a List.mem_cons_self),
      ih fun b hb => h b (List.mem_cons_of_mem a hb)]

lemma line_arrived (hsend : h.Sendable) : h.arrived.line lower = h.line lower := by
  rcases hsend with hnone | ⟨⟨-, hkeys⟩, hactions, hactionKeys⟩
  · rw [Hotkey.line, Hotkey.line, if_pos hnone, if_pos]
    rw [Hotkey.arrived, hnone]
    rfl
  · have hsequence : h.arrived.keySequence.sequence = h.keySequence.sequence := List.take_of_length_le hkeys
    have htext : h.arrived.text lower = h.text lower := by
      simp only [Hotkey.text, KeySequence.isMouseButton, KeySequence.toString, hsequence]
      rfl
    have harrived : h.arrived.actions = h.actions.map KeyAction.arrived := by
      rw [Hotkey.arrived, List.take_of_length_le hactions]
    simp only [Hotkey.line, htext, harrived, List.map_eq_nil_iff, mapM_arrived hactionKeys]

lemma hotkeyLines_cons (h : Hotkey) (hotkeys : List Hotkey) : LayoutModel.hotkeyLines lower (h :: hotkeys) =
    (h.line lower).bind fun lines => (LayoutModel.hotkeyLines lower hotkeys).map (lines ++ ·) := by
  rw [LayoutModel.hotkeyLines, LayoutModel.hotkeyLines, List.mapM_cons]
  cases h.line lower with
  | none => rfl
  | some lines => cases hotkeys.mapM (Hotkey.line lower) <;> rfl

lemma hotkeyLines_arrived (hsend : ∀ h ∈ hotkeys, h.Sendable) :
    LayoutModel.hotkeyLines lower ((hotkeys.map Hotkey.arrived).filter fun h =>
      h.keySequence.isValid && decide (h.keySequence.sequence ≠ [])) = LayoutModel.hotkeyLines lower hotkeys := by
  induction hotkeys with
  | nil => rfl
  | cons h hotkeys ih =>
    have hrest := ih fun k hk => hsend k (List.mem_cons_of_mem h hk)
    have hline : h.arrived.line lower = h.line lower := line_arrived (hsend h List.mem_cons_self)
    rw [List.map_cons, hotkeyLines_cons, ← hline, List.filter_cons]
    split_ifs with hkeys
    · rw [hotkeyLines_cons, hrest]
    · have hempty : h.keySequence.sequence = [] := by
        simpa [Hotkey.arrived, KeySequence.arrived] using hkeys
      have hnone : h.actions = [] := (hsend h List.mem_cons_self).resolve_right fun hkept => hkept.1.1 hempty
      rw [hrest, hline, Hotkey.line, if_pos hnone, Option.bind_some]
      cases LayoutModel.hotkeyLines lower hotkeys <;> rfl

end Hotkeys

section Options

variable {o : LayoutOptions}

/-- Whole megabytes, as many as an `int` holds. -/
def LayoutOptions.Sendable (o : LayoutOptions) : Prop :=
  o.clipboardSharingSize % (1000 * 1000) = 0 ∧ 0 < o.clipboardSharingSize ∧ o.clipboardSharingSize / (1000 * 1000) < 2 ^ 31

instance (o : LayoutOptions) : Decidable o.Sendable := inferInstanceAs (Decidable (_ ∧ _))

lemma LayoutOptions.arrived_eq (hdimming : 0 ≤ o.dimmingPercentage ∧ o.dimmingPercentage ≤ 100) (h : o.Sendable) : o.arrived = o := by
  obtain ⟨hwhole, hpos, hfits⟩ := h
  have hmb : o.clipboardSharingSizeMb = (o.clipboardSharingSize / (1000 * 1000) : ℕ) := by
    have hnat : (BitVec.ofNat 32 (o.clipboardSharingSize / (1000 * 1000))).toNat = o.clipboardSharingSize / (1000 * 1000) := by
      rw [BitVec.toNat_ofNat, Nat.mod_eq_of_lt (by omega)]
    rw [clipboardSharingSizeMb, BitVec.toInt_eq_toNat_of_lt (by omega), hnat]
  have hsize : (max 1 o.clipboardSharingSizeMb).toNat * 1000 * 1000 = o.clipboardSharingSize := by
    rw [hmb]
    omega
  rw [arrived, hsize, qBound_eq hdimming.1 hdimming.2]

end Options

namespace WholeLayout

variable {qt : Qt} {lower : ℕ → ℕ} {m m' : WholeLayout} {json : Value}

structure Sendable (m : WholeLayout) : Prop where
  screens : ∀ s ∈ m.screens, s.Sendable
  options : m.options.Sendable
  hotkeys : ∀ h ∈ m.hotkeys, h.Sendable
  mirror : m.mirrorHotkeys = [] ∨ ∀ h ∈ m.hotkeys, h.actions = []

instance (m : WholeLayout) : Decidable m.Sendable :=
  decidable_of_iff ((∀ s ∈ m.screens, s.Sendable) ∧ m.options.Sendable ∧ (∀ h ∈ m.hotkeys, h.Sendable) ∧
      (m.mirrorHotkeys = [] ∨ ∀ h ∈ m.hotkeys, h.actions = []))
    ⟨fun h => ⟨h.1, h.2.1, h.2.2.1, h.2.2.2⟩, fun h => ⟨h.screens, h.options, h.hotkeys, h.mirror⟩⟩

lemma matchesNamePattern_ne_nil {name : Name} (h : matchesNamePattern name = true) : name ≠ [] := by
  rintro rfl
  simp [matchesNamePattern] at h

lemma names_of_accepted (hjson : m.toJson lower = some json) (h : refused json = none) : ∀ s ∈ m.screens, s.name ≠ [] := by
  intro s hs
  obtain ⟨hscreens, -⟩ := toJson_fields hjson
  have hnone : (m.screens.map ScreenConfig.toJson).findSome? screenRefused = none := by
    by_contra hsome
    obtain ⟨why, hwhy⟩ := Option.ne_none_iff_exists'.mp hsome
    rw [refused, hscreens, Value.toArray_array, hwhy] at h
    split_ifs at h
  have haccepted := List.findSome?_eq_none_iff.mp hnone _ (List.mem_map_of_mem hs)
  apply matchesNamePattern_ne_nil
  by_contra hname
  rw [screenRefused] at haccepted
  have hfield : (s.toJson.field "name").toText = s.name := rfl
  rw [hfield, if_pos (Bool.eq_false_iff.mpr hname)] at haccepted
  simp at haccepted

lemma screens_loadJson (hjson : m.toJson lower = some json) (haccepted : refused json = none) (hsend : m.Sendable)
    (hdistinct : LayoutModel.Distinct qt m.screens) (hscale : ∀ s ∈ m.screens, kMinScale ≤ s.scale ∧ s.scale ≤ kMaxScale) :
    (m.loadJson qt json).screens = m.screens.map ScreenConfig.withArrived := by
  obtain ⟨hscreens, -⟩ := toJson_fields hjson
  have harrived : (m.screens.map ScreenConfig.toJson).map ScreenConfig.ofJson = m.screens.map ScreenConfig.withArrived := by
    rw [List.map_map]
    apply List.map_congr_left
    intro s hs
    rw [Function.comp_apply, ScreenConfig.ofJson_toJson, ScreenConfig.arrived_eq (hscale s hs) (hsend.screens s hs)]
  have hloaded : (m.loadJson qt json).screens =
      ((m.screens.map ScreenConfig.toJson).map ScreenConfig.ofJson |>.foldl (LayoutModel.appendNew qt)
        { m.toLayoutModel with screens := [] }).screens := by
    rw [loadJson, hscreens]
    rfl
  have hmapped : LayoutModel.Distinct qt (m.screens.map ScreenConfig.withArrived) := hdistinct.map fun _ => rfl
  rw [hloaded, harrived, LayoutModel.foldl_appendNew (m := { m.toLayoutModel with screens := [] }) hmapped]
  apply List.filter_eq_self.mpr
  intro t ht
  obtain ⟨s, hs, rfl⟩ := List.mem_map.mp ht
  exact decide_eq_true (names_of_accepted hjson haccepted s hs)

lemma options_loadJson (hjson : m.toJson lower = some json) : (m.loadJson qt json).options = m.options.arrived := by
  obtain ⟨-, hoptions, -⟩ := toJson_fields hjson
  rw [loadJson, hoptions]
  exact LayoutOptions.ofJson_jsonFields m.options

lemma hotkeys_loadJson (hjson : m.toJson lower = some json) (hsend : m.Sendable) :
    LayoutModel.hotkeyLines lower (m.loadJson qt json).hotkeys = LayoutModel.hotkeyLines lower m.hotkeys := by
  obtain ⟨-, -, -, hdata⟩ := toJson_fields hjson
  rw [loadJson, hdata]
  dsimp only
  split_ifs with hmirror
  · rw [Value.toArray_array, List.map_map]
    have hmap : m.hotkeys.map (Hotkey.ofJson ∘ Hotkey.toJson) = m.hotkeys.map Hotkey.arrived :=
      List.map_congr_left fun h _ => h.ofJson_toJson
    rw [hmap]
    exact hotkeyLines_arrived hsend.hotkeys
  · have hnone (hotkeys : List Hotkey) (h : ∀ k ∈ hotkeys, k.actions = []) :
        LayoutModel.hotkeyLines lower hotkeys = some [] := by
      induction hotkeys with
      | nil => rfl
      | cons k hotkeys ih =>
        rw [hotkeyLines_cons, Hotkey.line, if_pos (h k List.mem_cons_self), ih fun j hj => h j (List.mem_cons_of_mem k hj)]
        rfl
    rw [hnone _ (hsend.mirror.resolve_left hmirror)]
    rfl

lemma configText_replaceWith (hjson : m.toJson lower = some json) (hreplaced : m.replaceWith qt json = .ok m')
    (hsend : m.Sendable) (hdistinct : LayoutModel.Distinct qt m.screens)
    (hscale : ∀ s ∈ m.screens, kMinScale ≤ s.scale ∧ s.scale ≤ kMaxScale)
    (hdimming : 0 ≤ m.options.dimmingPercentage ∧ m.options.dimmingPercentage ≤ 100) :
    m'.configText lower = m.configText lower := by
  rw [replaceWith] at hreplaced
  split at hreplaced
  · simp at hreplaced
  · rename_i haccepted
    obtain rfl := Except.ok.inj hreplaced
    apply LayoutModel.configText_congr (f := ScreenConfig.withArrived)
    · rw [save, LayoutModel.save_screens]
      exact screens_loadJson hjson haccepted hsend hdistinct hscale
    · intro s hs
      exact alike_arrived (hsend.screens s hs).scales
    · exact fun s _ => ⟨rfl, rfl⟩
    · rw [save, LayoutModel.options_save]
      dsimp only
      rw [options_loadJson hjson, LayoutOptions.arrived_eq hdimming hsend.options]
    · rw [save, LayoutModel.hotkeys_save]
      exact @hotkeys_loadJson qt lower m json hjson hsend

end WholeLayout

end InputLeap.Gui
