import InputLeap.Server.CutCalls

/-! Rules line by line: what the reader makes of the text of a rule, and when all rules come back. -/

namespace InputLeap

open InputLeap.Lib InputLeap.Lib.Text

/-- What is read from the text of a condition. Without its closing bracket it is not read. -/
def Condition.reread (c : Config) (condition : Condition) : Option Condition :=
  if Whole (callText condition.call) then condition.readBack c else none

def Action.reread (c : Config) (a : Action) : Option Action := if Whole (callText a.call) then a.readBack c else none

section Texts

/-- Text within the line of a rule. It ends with a colon where a list of screens has lost its bracket. -/
structure RuleText (s : Name) : Prop where
  nonempty : s ≠ []
  chars : ∀ ch ∈ s, isLineChar ch = true
  first : ∀ ch ∈ s.head?, isGraph ch = true
  last : ∀ ch ∈ s.getLast?, isGraph ch = true

lemma RuleText.append {s t : Name} (hs : RuleText s) (ht : RuleText t) {sep : Name}
    (hsep : ∀ ch ∈ sep, isLineChar ch = true) : RuleText (s ++ sep ++ t) := by
  refine ⟨by simp [hs.nonempty], ?_, ?_, ?_⟩
  · intro ch hch
    rcases List.mem_append.mp hch with hch | hch
    · exact (List.mem_append.mp hch).elim (hs.chars ch) (hsep ch)
    · exact ht.chars ch hch
  · obtain ⟨d, u, rfl⟩ := List.exists_cons_of_ne_nil hs.nonempty
    exact hs.first
  · obtain ⟨u, d, rfl⟩ := (List.eq_nil_or_concat t).resolve_left ht.nonempty
    simpa [← List.append_assoc] using ht.last

lemma RuleText.clean {s : Name} (hs : RuleText s) : CleanLine s := by
  obtain ⟨ch, hch⟩ := Option.isSome_iff_exists.mp (List.isSome_head?.mpr hs.nonempty)
  obtain ⟨d, hd⟩ := Option.isSome_iff_exists.mp (List.getLast?_isSome.mpr hs.nonempty)
  exact ⟨hs.chars, ⟨ch, hch, isBlank_of_isGraph (hs.first ch hch)⟩, ⟨d, hd, isLineEnd_of_isGraph (hs.last d hd)⟩⟩

lemma ruleText_of_visible {s : Name} (hne : s ≠ []) (h : ∀ ch ∈ s, isGraph ch = true ∧ ch ≠ '#') : RuleText s :=
  ⟨hne, fun ch hch => isLineChar_of_isGraph (h ch hch).1 (h ch hch).2, fun ch hch => (h ch (List.mem_of_mem_head? hch)).1,
    fun ch hch => (h ch (List.mem_of_mem_getLast? hch)).1⟩

variable {call : String × List Name}

lemma ReadableCall.callText_ne_nil (h : ReadableCall call) : callText call ≠ [] :=
  List.append_ne_nil_of_left_ne_nil h.nonempty _

lemma ReadableCall.ruleText (h : ReadableCall call) {text : Name} (htext : sprintf (callText call) = some text) :
    RuleText text := by
  rcases h.written htext with ⟨-, rfl⟩ | ⟨hcut, rfl⟩
  · exact ruleText_of_visible h.callText_ne_nil h.visible
  · have hlength := not_whole_length hcut
    apply ruleText_of_visible
    · apply List.ne_nil_of_length_pos
      rw [List.length_dropLast]
      omega
    · exact fun ch hch => h.visible ch (List.dropLast_subset _ hch)

lemma ReadableCall.parse_value (h : ReadableCall call) {delim : List Char}
    (hdelim : delim = [',', ';', '\n'] ∨ delim = [',', '\n']) {blanks rest : Name}
    (hblanks : ∀ ch ∈ blanks, isBlank ch = true) (hrest : ∀ ch ∈ rest.head?, ch ∈ delim ∧ (ch = ',' ∨ ch = ';')) :
    parseNameWithArgs "value" delim (blanks ++ (callText call ++ rest)) = .ok (call.1.toList, call.2, rest) := by
  have hword : ∀ d ∈ delim, isWordChar d = false := by
    rcases hdelim with rfl | rfl <;> decide
  have hneed : needDelim delim = false := by
    rcases hdelim with rfl | rfl <;> decide
  have hskip : rest.dropWhile isBlank = rest := by
    apply dropWhile_head
    intro ch hch
    rcases (hrest ch hch).2 with rfl | rfl <;> rfl
  have hargs : ∀ arg ∈ call.2, ∀ ch ∈ arg, isGraph ch = true ∧ isArgChar ch = true := by
    intro arg harg ch hch
    obtain ⟨hgraph, harg, -⟩ := isRuleChar_iff.mp (h.args arg harg ch hch)
    exact ⟨hgraph, harg⟩
  have hparse : parseNameWithArgs "value" delim (blanks ++ (call.1.toList ++ argsText call.2 ++ rest)) =
      .ok (call.1.toList, call.2, rest.dropWhile isBlank) := by
    apply parse_call hargs h.last hword h.nonempty h.word hblanks
    · intro ch hch
      simp [inName, (hrest ch hch).1]
    · intro ch hch
      rw [hskip] at hch
      rcases (hrest ch hch).2 with rfl | rfl <;> decide
    · intro hdelim
      exact absurd (hneed.symm.trans hdelim) Bool.false_ne_true
  rwa [hskip] at hparse

def moreText (ts : List Name) : Name := ts.flatMap fun t => ", ".toList ++ t

lemma intercalate_texts (t : Name) (ts : List Name) : ", ".toList.intercalate (t :: ts) = t ++ moreText ts := by
  induction ts generalizing t with
  | nil => simp [moreText]
  | cons u ts ih =>
    rw [List.intercalate_cons_cons, ih]
    simp [moreText]

lemma length_moreText (ts : List Name) : ts.length ≤ (moreText ts).length := by
  induction ts with
  | nil => exact le_rfl
  | cons t ts ih =>
    rw [moreText, List.flatMap_cons, ← moreText, List.length_append, List.length_append, List.length_cons]
    change ts.length + 1 ≤ 2 + _ + _
    omega

lemma moreText_head (ts : List Name) {tail : Name} (htail : ∀ ch ∈ tail.head?, ch = ';') :
    ∀ ch ∈ (moreText ts ++ tail).head?, ch = ',' ∨ ch = ';' := by
  cases ts with
  | nil => exact fun ch hch => .inr (htail ch hch)
  | cons t ts =>
    rintro ch ⟨⟩
    exact .inl rfl

lemma forall₂_of_mapM {α β : Type} {f : α → Option β} {l : List α} {bs : List β} (h : l.mapM f = some bs) :
    List.Forall₂ (fun a b => f a = some b) l bs := by
  induction l generalizing bs with
  | nil =>
    obtain rfl := Option.some.inj h
    exact .nil
  | cons a l ih =>
    rw [List.mapM_cons] at h
    obtain ⟨b, hb, h⟩ := Option.bind_eq_some_iff.mp h
    obtain ⟨bs', hbs, h⟩ := Option.bind_eq_some_iff.mp h
    obtain rfl := Option.some.inj h
    exact .cons hb (ih hbs)

lemma forall₂_mem {α β : Type} {R : α → β → Prop} {l : List α} {bs : List β} (h : List.Forall₂ R l bs) :
    ∀ b ∈ bs, ∃ a ∈ l, R a b := by
  induction h with
  | nil => exact fun b hb => nomatch hb
  | @cons a b l bs hab _ ih =>
    refine List.forall_mem_cons.mpr ⟨⟨a, List.mem_cons_self, hab⟩, fun d hd => ?_⟩
    obtain ⟨e, he, hed⟩ := ih d hd
    exact ⟨e, List.mem_cons_of_mem a he, hed⟩

abbrev Written : List Action → List Name → Prop := List.Forall₂ fun a t => a.format = some t

end Texts

def Config.deactivateRest (c : Config) (fuel : ℕ) (r : Rule) : Name → Except String Rule
  | [] => .ok r
  | _ :: s => c.deactivateActions fuel r s

lemma Config.deactivateActions_succ (c : Config) (fuel : ℕ) (r : Rule) (s : Name) :
    c.deactivateActions (fuel + 1) r s = parseNameWithArgs "value" [',', '\n'] s >>= fun p =>
      c.parseAction r false p.1 p.2.1 >>= fun r => c.deactivateRest fuel r p.2.2 := by
  rw [Config.deactivateActions]
  cases parseNameWithArgs "value" [',', '\n'] s with
  | error e => rfl
  | ok p =>
    obtain ⟨name, args, rest⟩ := p
    change (c.parseAction r false name args >>= _) = c.parseAction r false name args >>= _
    congr 1

section Actions

variable {c : Config} (hinv : c.StoredInv) {a : Action} {as : List Action} {t : Name} {ts : List Name}

lemma behind_of_head {delim : List Char} {rest : Name} (h : ∀ ch ∈ rest.head?, ch ∈ delim ∧ (ch = ',' ∨ ch = ';')) :
    Behind rest := by
  cases rest with
  | nil => exact .inl rfl
  | cons ch rest =>
    rcases (h ch rfl).2 with rfl | rfl
    · exact .inr (.inl ⟨rest, rfl⟩)
    · exact .inr (.inr (.inl ⟨rest, rfl⟩))

include hinv

lemma action_reread (h : a.Stored c) (ht : a.format = some t) {delim : List Char}
    (hdelim : delim = [',', ';', '\n'] ∨ delim = [',', '\n']) {blanks rest : Name}
    (hblanks : ∀ ch ∈ blanks, isBlank ch = true) (hrest : ∀ ch ∈ rest.head?, ch ∈ delim ∧ (ch = ',' ∨ ch = ';'))
    (r : Rule) (activate : Bool) {β : Type} (f : Rule → Name → Except String β) :
    (parseNameWithArgs "value" delim (blanks ++ (t ++ rest)) >>= fun p =>
      c.parseAction r activate p.1 p.2.1 >>= fun r => f r p.2.2).toOption =
    (a.reread c).bind fun b => (f (r.adoptAction b activate) rest).toOption := by
  have hcall := h.readableCall hinv
  rw [Action.format_eq] at ht
  rw [Action.reread]
  rcases hcall.written ht with ⟨hwhole, rfl⟩ | ⟨hcut, rfl⟩
  · rw [hcall.parse_value hdelim hblanks hrest, if_pos hwhole]
    change (c.parseAction r activate a.call.1.toList a.call.2 >>= _).toOption = _
    rw [toOption_bind, parseAction_reread hinv h]
    cases a.readBack c with
    | none => rfl
    | some b => rfl
  · have hword : ∀ d ∈ delim, isWordChar d = false := by
      rcases hdelim with rfl | rfl <;> decide
    rw [if_neg hcut, Option.bind_none]
    cases hparse : parseNameWithArgs "value" delim (blanks ++ ((callText a.call).dropLast ++ rest)) with
    | error e => rfl
    | ok p =>
      obtain ⟨name, args, rest'⟩ := p
      have hfails := (parseAction_cut hinv hword hblanks (behind_of_head hrest) h hcut hparse r activate).2
      change (c.parseAction r activate name args >>= _).toOption = none
      rw [toOption_bind, hfails]
      rfl

lemma activateActions_reread (has : ∀ a ∈ as, a.Stored c) (hwritten : Written as ts) {tail : Name}
    (htail : ∀ ch ∈ tail.head?, ch = ';') {fuel : ℕ} (hfuel : ts.length ≤ fuel) (r : Rule) :
    (c.activateActions fuel r (moreText ts ++ tail)).toOption =
      (as.mapM (Action.reread c)).map fun bs => ({ r with activateActions := r.activateActions ++ bs }, tail) := by
  induction hwritten generalizing r fuel with
  | nil =>
    have hrule : ({ r with activateActions := r.activateActions ++ [] } : Rule) = r := by rw [List.append_nil]
    rw [List.mapM_nil]
    change (c.activateActions fuel r tail).toOption = some ({ r with activateActions := r.activateActions ++ [] }, tail)
    rw [hrule]
    unfold Config.activateActions
    cases fuel with
    | zero => rfl
    | succ fuel =>
      cases tail with
      | nil => rfl
      | cons ch tail =>
        obtain rfl := htail ch rfl
        rfl
  | @cons a t as ts ht _ ih =>
    cases fuel with
    | zero => simp at hfuel
    | succ fuel =>
      have hrest := fun b hb => has b (List.mem_cons_of_mem a hb)
      have htext : moreText (t :: ts) ++ tail = ',' :: ([' '] ++ (t ++ (moreText ts ++ tail))) := by
        simp [moreText]
      have hend : ∀ ch ∈ (moreText ts ++ tail).head?, ch ∈ [',', ';', '\n'] ∧ (ch = ',' ∨ ch = ';') := by
        intro ch hch
        rcases moreText_head ts htail ch hch with rfl | rfl
        · exact ⟨by decide, .inl rfl⟩
        · exact ⟨by decide, .inr rfl⟩
      rw [htext]
      unfold Config.activateActions
      dsimp only
      rw [if_neg (by decide)]
      refine (action_reread hinv (has a List.mem_cons_self) ht (.inl rfl) (by decide) hend r true
        (c.activateActions fuel)).trans ?_
      rw [List.mapM_cons]
      cases a.reread c with
      | none => rfl
      | some b =>
        rw [Option.bind_some, ih hrest (by simpa using hfuel)]
        cases as.mapM (Action.reread c) with
        | none => rfl
        | some bs => simp [Rule.adoptAction]

lemma deactivateActions_reread (has : ∀ b ∈ a :: as, b.Stored c) (ht : a.format = some t) (hwritten : Written as ts)
    {blanks : Name} (hblanks : ∀ ch ∈ blanks, isBlank ch = true) {fuel : ℕ} (hfuel : ts.length < fuel) (r : Rule) :
    (c.deactivateActions fuel r (blanks ++ (t ++ moreText ts))).toOption =
      ((a :: as).mapM (Action.reread c)).map fun bs => { r with deactivateActions := r.deactivateActions ++ bs } := by
  induction hwritten generalizing a t r fuel blanks with
  | nil =>
    cases fuel with
    | zero => simp at hfuel
    | succ fuel =>
      have hend : ∀ ch ∈ (moreText []).head?, ch ∈ [',', '\n'] ∧ (ch = ',' ∨ ch = ';') := fun ch hch => nomatch hch
      rw [Config.deactivateActions_succ]
      refine (action_reread hinv (has a List.mem_cons_self) ht (.inr rfl) hblanks hend r false
        (c.deactivateRest fuel)).trans ?_
      rw [List.mapM_cons]
      cases a.reread c with
      | none => rfl
      | some b => rfl
  | @cons d u as ts hu _ ih =>
    cases fuel with
    | zero => simp at hfuel
    | succ fuel =>
      have hrest := fun b hb => has b (List.mem_cons_of_mem a hb)
      have htext : moreText (u :: ts) = ',' :: ([' '] ++ (u ++ moreText ts)) := by
        simp [moreText]
      have hend : ∀ ch ∈ (moreText (u :: ts)).head?, ch ∈ [',', '\n'] ∧ (ch = ',' ∨ ch = ';') := by
        rintro ch ⟨⟩
        decide
      rw [Config.deactivateActions_succ]
      refine (action_reread hinv (has a List.mem_cons_self) ht (.inr rfl) hblanks hend r false
        (c.deactivateRest fuel)).trans ?_
      rw [List.mapM_cons, htext]
      cases a.reread c with
      | none => rfl
      | some b =>
        rw [Option.bind_some]
        change (c.deactivateActions fuel _ ([' '] ++ (u ++ moreText ts))).toOption = _
        rw [ih hrest hu (by decide) (by simpa using hfuel)]
        cases (d :: as).mapM (Action.reread c) with
        | none => rfl
        | some bs => simp [Rule.adoptAction]

end Actions

def Rule.reread (c : Config) (r : Rule) : Option Rule :=
  if r.actions = [] then none
  else
    (r.condition.bind (Condition.reread c)).bind fun condition =>
      (r.activateActions.mapM (Action.reread c)).bind fun as =>
        (r.deactivateActions.mapM (Action.reread c)).map fun ds => ⟨some condition, as, ds⟩

def deactivateText (ts : List Name) : Name := if ts = [] then [] else "; ".toList ++ ", ".toList.intercalate ts

lemma deactivateText_head (ts : List Name) : ∀ ch ∈ (deactivateText ts).head?, ch = ';' := by
  rw [deactivateText]
  split_ifs
  · simp
  · rintro ch ⟨⟩
    rfl

lemma moreText_delim (ts us : List Name) :
    ∀ ch ∈ (moreText ts ++ deactivateText us).head?, ch ∈ [',', ';', '\n'] ∧ (ch = ',' ∨ ch = ';') := by
  intro ch hch
  rcases moreText_head ts (deactivateText_head us) ch hch with rfl | rfl
  · exact ⟨by decide, .inl rfl⟩
  · exact ⟨by decide, .inr rfl⟩

section Rules

variable {c : Config} (hinv : c.StoredInv) {condition : Condition} (hcondition : condition.Stored c)
  {as ds : List Action} {ts us : List Name} (has : ∀ a ∈ as, a.Stored c) (hds : ∀ d ∈ ds, d.Stored c)
  (hts : Written as ts) (hus : Written ds us)

include hinv in
lemma action_text {a : Action} {t : Name} (h : a.Stored c) (ht : a.format = some t) : RuleText t := by
  rw [Action.format_eq] at ht
  exact (h.readableCall hinv).ruleText ht

include hinv has hds hts hus in
lemma parseRest_reread (r : Rule) :
    (do
      let (rule, rest) ← c.activateActions (moreText ts ++ deactivateText us).length r (moreText ts ++ deactivateText us)
      match rest.tail.dropWhile isBlank with
      | [] => return rule
      | s => c.deactivateActions (s.length + 1) rule s).toOption =
    (as.mapM (Action.reread c)).bind fun bs => (ds.mapM (Action.reread c)).map fun es =>
      { r with activateActions := r.activateActions ++ bs, deactivateActions := r.deactivateActions ++ es } := by
  have hfuel : ts.length ≤ (moreText ts ++ deactivateText us).length := by
    have := length_moreText ts
    rw [List.length_append]
    omega
  rw [toOption_bind, activateActions_reread hinv has hts (deactivateText_head us) hfuel]
  cases as.mapM (Action.reread c) with
  | none => rfl
  | some bs =>
    rw [Option.map_some, Option.bind_some, Option.bind_some]
    dsimp only
    cases hus with
    | nil =>
      rw [List.mapM_nil]
      change some _ = some _
      simp
    | @cons d u ds us hu hus =>
      have hrule := action_text hinv (hds d List.mem_cons_self) hu
      have hskip : (deactivateText (u :: us)).tail.dropWhile isBlank = u ++ moreText us := by
        have htext : (deactivateText (u :: us)).tail = [' '] ++ (u ++ moreText us) := by
          rw [deactivateText, if_neg (by simp), intercalate_texts]
          rfl
        rw [htext]
        apply dropWhile_word (by decide)
        intro ch hch
        obtain ⟨b, v, hbv⟩ := List.exists_cons_of_ne_nil hrule.nonempty
        rw [hbv] at hch
        obtain rfl := Option.some.inj hch
        exact isBlank_of_isGraph (hrule.first _ (by rw [hbv]; rfl))
      have hne : u ++ moreText us ≠ [] := by simp [hrule.nonempty]
      have hlength : us.length < (u ++ moreText us).length + 1 := by
        have := length_moreText us
        rw [List.length_append]
        omega
      have hrun := deactivateActions_reread hinv hds hu hus (fun ch (hch : ch ∈ []) => nomatch hch) hlength
        { r with activateActions := r.activateActions ++ bs }
      rw [List.nil_append] at hrun
      rw [hskip]
      obtain ⟨b, v, hbv⟩ := List.exists_cons_of_ne_nil hne
      rw [hbv] at hrun ⊢
      exact hrun

lemma bind_ite_pure {α β : Type} {p : Prop} [Decidable p] (x : Except String α) (a : α) (f : α → Except String β) :
    (if p then x >>= f else pure a >>= f).toOption = if p then x.toOption.bind fun a => (f a).toOption else (f a).toOption := by
  split_ifs
  · exact toOption_bind x f
  · rfl

include hinv hcondition

section Whole

variable (hwhole : Whole (callText condition.call))

include hwhole hts has hds hus

lemma parseRule_activate {a : Action} (ha : a.Stored c) {t : Name} (ht : a.format = some t) :
    ((parseNameWithArgs "value" [',', ';', '\n'] ([' '] ++ (t ++ (moreText ts ++ deactivateText us)))).toOption.bind fun p =>
      (c.parseRule condition.call.1.toList condition.call.2 p.1 p.2.1 p.2.2).toOption) =
    Rule.reread c ⟨some condition, a :: as, ds⟩ := by
  have hcall := ha.readableCall hinv
  have hsome : ¬ (⟨some condition, a :: as, ds⟩ : Rule).actions = [] := by simp [Rule.actions]
  rw [Rule.reread, if_neg hsome, Option.bind_some, Condition.reread, if_pos hwhole, List.mapM_cons]
  rw [Action.format_eq] at ht
  rcases hcall.written ht with ⟨haction, rfl⟩ | ⟨hcut, rfl⟩
  · rw [hcall.parse_value (.inl rfl) (by decide) (moreText_delim ts us), Action.reread, if_pos haction]
    change (c.parseRule condition.call.1.toList condition.call.2 a.call.1.toList a.call.2 _).toOption = _
    rw [Config.parseRule, toOption_bind, parseCondition_reread hinv hcondition]
    cases condition.readBack c with
    | none => rfl
    | some condition' =>
      rw [Option.bind_some, Option.bind_some]
      dsimp only
      rw [bind_ite_pure, if_pos (.inl hcall.nonempty), parseAction_reread hinv ha]
      cases a.readBack c with
      | none => rfl
      | some b =>
        rw [Option.map_some, Option.bind_some]
        refine (parseRest_reread hinv has hds hts hus _).trans ?_
        cases as.mapM (Action.reread c) with
        | none => rfl
        | some bs => rfl
  · have hnone : (condition.readBack c).bind (fun _ => (none : Option Rule)) = none := by
      cases condition.readBack c <;> rfl
    rw [Action.reread, if_neg hcut]
    refine Eq.trans ?_ hnone.symm
    cases hparse : parseNameWithArgs "value" [',', ';', '\n']
        ([' '] ++ ((callText a.call).dropLast ++ (moreText ts ++ deactivateText us))) with
    | error e => rfl
    | ok p =>
      obtain ⟨name, args, rest⟩ := p
      have hfails (r : Rule) := parseAction_cut hinv (by decide) (by decide)
        (behind_of_head (moreText_delim ts us)) ha hcut hparse r true
      change (c.parseRule condition.call.1.toList condition.call.2 name args rest).toOption = none
      rw [Config.parseRule, toOption_bind]
      cases (c.parseCondition condition.call.1.toList condition.call.2).toOption with
      | none => rfl
      | some condition' =>
        rw [Option.bind_some]
        dsimp only
        rw [bind_ite_pure, if_pos (.inl (hfails (Rule.new condition')).1), (hfails _).2]
        rfl

omit has hts in
lemma parseRule_deactivate (hne : ds ≠ []) :
    (c.parseRule condition.call.1.toList condition.call.2 [] [] (deactivateText us)).toOption =
      Rule.reread c ⟨some condition, [], ds⟩ := by
  have hhead : ¬ (([] : Name) ≠ [] ∨ (deactivateText us).head? ≠ some ';') := by
    cases hus with
    | nil => exact absurd rfl hne
    | cons => simp [deactivateText]
  have hsome : ¬ (⟨some condition, [], ds⟩ : Rule).actions = [] := by simp [Rule.actions, hne]
  have hrest (r : Rule) := parseRest_reread hinv (List.forall_mem_nil _) hds .nil hus r
  rw [Config.parseRule, toOption_bind, parseCondition_reread hinv hcondition, Rule.reread, if_neg hsome,
    Option.bind_some, Condition.reread, if_pos hwhole]
  cases condition.readBack c with
  | none => rfl
  | some condition' =>
    rw [Option.bind_some, Option.bind_some]
    dsimp only
    rw [bind_ite_pure, if_neg hhead]
    exact (hrest _).trans rfl

end Whole

omit hinv hcondition in
lemma reread_cut (hcut : ¬ Whole (callText condition.call)) : Rule.reread c ⟨some condition, as, ds⟩ = none := by
  rw [Rule.reread]
  split_ifs
  · rfl
  · rw [Option.bind_some, Condition.reread, if_neg hcut, Option.bind_none]

end Rules

section Lines

variable {resolves : Name → Bool} {s : Reading} {line : Name}

/-- A blank at the end of a line is taken away. -/
lemma next_trailing {sect : SectionName} (hinside : s.inside = some sect) (h : CleanLine line) :
    s.next resolves (['\t'] ++ line ++ [' ']) = (s.readSectionLine resolves sect line).toOption := by
  have hne : line ≠ [] := by
    rintro rfl
    obtain ⟨ch, hch, -⟩ := h.first
    nomatch hch
  have hfront : stripFront (['\t'] ++ (line ++ [' '])) = line ++ [' '] := by
    apply stripFront_indent (by decide)
    obtain ⟨ch, hch, hblank⟩ := h.first
    exact ⟨ch, List.mem_head?_append_of_mem_head? hch, hblank⟩
  have hcomment : (line ++ [' ']).takeWhile (fun ch => ch != '#') = line ++ [' '] := by
    rw [List.takeWhile_eq_self_iff]
    intro ch hch
    rcases List.mem_append.mp hch with hch | hch
    · have := h.chars ch hch
      rw [isLineChar, Bool.and_eq_true] at this
      exact this.2
    · rw [List.mem_singleton.mp hch]
      rfl
  have hback : stripBack (line ++ [' ']) = line := by
    obtain ⟨ch, hch, hend⟩ := h.last
    have hall : (line ++ [' ']).all isLineEnd = false := by
      apply List.all_eq_false.mpr
      exact ⟨ch, List.mem_append_left _ (List.mem_of_mem_getLast? hch), by simp [hend]⟩
    rw [stripBack, if_neg (by simp [hall]), List.rdropWhile_concat_pos _ _ _ (by decide)]
    apply rdropWhile_last
    intro d hd
    obtain rfl := Option.some.inj (hch.symm.trans hd)
    exact hend
  have hstrip : stripLine (['\t'] ++ line ++ [' ']) = some line := by
    rw [stripLine, List.append_assoc, hfront, hcomment, hback, if_neg hne]
  rw [Reading.next, Reading.readLine, hstrip]
  dsimp only
  rw [checkChars_clean h, hinside]
  rfl

lemma handleOption_condition (condition : Condition) (value : Name) :
    s.handleOption resolves condition.call.1.toList value = .ok none := by
  have hnames : ∀ word ∈ ["keystroke", "mousebutton", "connect"], word.toList ≠ "address".toList ∧
      optionNamed globalOptions word.toList = none := by decide +kernel
  have hword : condition.call.1 ∈ ["keystroke", "mousebutton", "connect"] := by
    cases condition <;> simp [Condition.call]
  obtain ⟨haddress, hoption⟩ := hnames _ hword
  rw [Reading.handleOption, if_neg haddress, hoption]

def Reading.addRule (s : Reading) (rule : Rule) : Reading := { s with rules := s.rules ++ [rule] }

variable {condition : Condition}

lemma readOptionLine_rule (hcall : ReadableCall condition.call) (text : Name) :
    (s.readOptionLine resolves (callText condition.call ++ " = ".toList ++ text)).toOption =
      ((parseNameWithArgs "value" [',', ';', '\n'] ([' '] ++ text)).toOption.bind fun p =>
        (s.config.parseRule condition.call.1.toList condition.call.2 p.1 p.2.1 p.2.2).toOption).map s.addRule := by
  have hargs : ∀ arg ∈ condition.call.2, ∀ ch ∈ arg, isGraph ch = true ∧ isArgChar ch = true := by
    intro arg harg ch hch
    obtain ⟨hgraph, harg, -⟩ := isRuleChar_iff.mp (hcall.args arg harg ch hch)
    exact ⟨hgraph, harg⟩
  have hname : parseNameWithArgs "name" ['='] (callText condition.call ++ " = ".toList ++ text) = _ :=
    parse_callName hargs hcall.last hcall.nonempty hcall.word
  rw [Reading.readOptionLine, hname]
  change (parseNameWithArgs "value" _ ([' '] ++ text) >>= _).toOption = _
  cases parseNameWithArgs "value" [',', ';', '\n'] ([' '] ++ text) with
  | error e => rfl
  | ok p =>
    obtain ⟨value, valueArgs, rest⟩ := p
    change (s.handleOption resolves condition.call.1.toList value >>= _).toOption =
      (s.config.parseRule condition.call.1.toList condition.call.2 value valueArgs rest).toOption.map s.addRule
    rw [handleOption_condition]
    cases s.config.parseRule condition.call.1.toList condition.call.2 value valueArgs rest with
    | error e => rfl
    | ok rule => rfl

/-- A condition without its closing bracket swallows the equals sign. -/
lemma readOptionLine_cut (hinv : s.config.StoredInv) (h : condition.Stored s.config)
    (hcut : ¬ Whole (callText condition.call)) (text : Name) :
    (s.readOptionLine resolves ((callText condition.call).dropLast ++ " =".toList ++ text)).toOption = none := by
  rw [Reading.readOptionLine, List.append_assoc, toOption_bind]
  cases hparse : parseNameWithArgs "name" ['='] ((callText condition.call).dropLast ++ (" =".toList ++ text)) with
  | error e => rfl
  | ok p =>
    obtain ⟨name, args, rest⟩ := p
    obtain ⟨rfl, hfails⟩ := parseCondition_cut hinv (by decide) (show ∀ ch ∈ ([] : Name), _ by decide)
      (.inr (.inr (.inr ⟨text, rfl⟩))) h hcut hparse
    change (parseNameWithArgs "value" [',', ';', '\n'] rest.tail >>= _).toOption = none
    cases parseNameWithArgs "value" [',', ';', '\n'] rest.tail with
    | error e => rfl
    | ok p =>
      obtain ⟨value, valueArgs, rest⟩ := p
      change (s.handleOption resolves condition.call.1.toList value >>= _).toOption = none
      rw [handleOption_condition]
      change (s.config.parseRule condition.call.1.toList args value valueArgs rest >>= _).toOption = none
      rw [toOption_bind, Config.parseRule, toOption_bind, hfails]
      rfl

/-- Without a value, the line cannot be read. -/
lemma readOptionLine_empty (hcall : ReadableCall condition.call) :
    (s.readOptionLine resolves (callText condition.call ++ " =".toList)).toOption = none := by
  have hargs : ∀ arg ∈ condition.call.2, ∀ ch ∈ arg, isGraph ch = true ∧ isArgChar ch = true := by
    intro arg harg ch hch
    obtain ⟨hgraph, harg, -⟩ := isRuleChar_iff.mp (hcall.args arg harg ch hch)
    exact ⟨hgraph, harg⟩
  have hname : parseNameWithArgs "name" ['='] ([] ++ (condition.call.1.toList ++ argsText condition.call.2 ++ " =".toList)) =
      .ok (condition.call.1.toList, condition.call.2, " =".toList.dropWhile isBlank) := by
    apply parse_call hargs hcall.last (by decide) hcall.nonempty hcall.word (by simp)
    · rintro ch ⟨⟩
      rfl
    · decide
    · exact fun _ => ⟨'=', rfl, by decide⟩
  rw [List.nil_append, ← callText] at hname
  rw [Reading.readOptionLine, hname]
  rfl

lemma intercalate_ruleText {t : Name} {ts : List Name} (h : ∀ u ∈ t :: ts, RuleText u) :
    RuleText (", ".toList.intercalate (t :: ts)) := by
  induction ts generalizing t with
  | nil =>
    rw [List.intercalate_singleton]
    exact h t List.mem_cons_self
  | cons u ts ih =>
    rw [List.intercalate_cons_cons]
    exact (h t List.mem_cons_self).append (ih fun v hv => h v (List.mem_cons_of_mem t hv)) (by decide)

def valueText (ts us : List Name) : Name := ", ".toList.intercalate ts ++ deactivateText us

lemma valueText_ruleText {ts us : List Name} (hts : ∀ t ∈ ts, RuleText t) (hus : ∀ u ∈ us, RuleText u)
    (hne : ts ≠ [] ∨ us ≠ []) : RuleText (valueText ts us) := by
  have hsemicolon : RuleText [';'] := ruleText_of_visible (by decide) (by decide)
  cases us with
  | nil =>
    obtain ⟨t, ts, rfl⟩ := List.exists_cons_of_ne_nil (hne.resolve_right (absurd rfl))
    rw [valueText, deactivateText, if_pos rfl, List.append_nil]
    exact intercalate_ruleText hts
  | cons u us =>
    have hdeactivate := hsemicolon.append (intercalate_ruleText hus) (show ∀ ch ∈ [' '], isLineChar ch = true by decide)
    rw [valueText, deactivateText, if_neg (by simp)]
    cases ts with
    | nil => exact hdeactivate
    | cons t ts =>
      have hboth := (intercalate_ruleText hts).append hdeactivate
        (show ∀ ch ∈ ([] : Name), isLineChar ch = true by decide)
      rwa [List.append_nil] at hboth

lemma deactivate_iff {ds : List Action} {us : List Name} (h : Written ds us) : ds = [] ↔ us = [] := by
  cases h with
  | nil => exact iff_of_true rfl rfl
  | cons => exact iff_of_false (by simp) (by simp)

lemma Rule.format_cases {as ds : List Action} {text : Name} (h : Rule.format ⟨some condition, as, ds⟩ = some text) :
    ∃ ctext ts us, condition.format = some ctext ∧ Written as ts ∧ Written ds us ∧
      text = ctext ++ " = ".toList ++ valueText ts us := by
  obtain ⟨ctext, hcondition, h⟩ := Option.bind_eq_some_iff.mp h
  obtain ⟨activate, has, h⟩ := Option.bind_eq_some_iff.mp h
  obtain ⟨deactivate, hds, h⟩ := Option.bind_eq_some_iff.mp h
  obtain ⟨ts, hts, rfl⟩ := Option.map_eq_some_iff.mp has
  obtain ⟨us, hus, rfl⟩ := Option.map_eq_some_iff.mp hds
  have hwritten := forall₂_of_mapM hus
  refine ⟨ctext, ts, us, hcondition, forall₂_of_mapM hts, hwritten, ?_⟩
  rw [← Option.some.inj h, valueText, deactivateText, if_congr (deactivate_iff hwritten) rfl rfl]
  simp

lemma next_value (hinside : s.inside = some .options) {ctext value : Name} (hcondition : RuleText ctext)
    (hvalue : RuleText value) : s.next resolves ('\t' :: (ctext ++ " = ".toList ++ value)) =
      (s.readOptionLine resolves (ctext ++ " = ".toList ++ value)).toOption := by
  have hline : RuleText (ctext ++ " = ".toList ++ value) := hcondition.append hvalue (by decide)
  have hnext : s.next resolves (['\t'] ++ (ctext ++ " = ".toList ++ value)) = _ :=
    next_content hinside (by decide) hline.clean (optionLine_ne_end _ _)
  rw [List.singleton_append] at hnext
  rw [hnext]
  rfl

lemma next_novalue (hinside : s.inside = some .options) {ctext : Name} (hcondition : RuleText ctext) :
    s.next resolves ('\t' :: (ctext ++ " = ".toList)) =
      (s.readOptionLine resolves (ctext ++ " =".toList)).toOption := by
  have hequals : RuleText ['='] := ruleText_of_visible (by decide) (by decide)
  have hline := hcondition.append hequals (show ∀ ch ∈ [' '], isLineChar ch = true by decide)
  have htext : ctext ++ [' '] ++ ['='] = ctext ++ " =".toList := by simp
  have hend : ctext ++ " =".toList ≠ "end".toList := by
    intro hend
    have hmem : '=' ∈ ctext ++ " =".toList := by simp
    rw [hend] at hmem
    exact absurd hmem (by decide)
  have hnext : '\t' :: (ctext ++ " = ".toList) = ['\t'] ++ (ctext ++ " =".toList) ++ [' '] := by simp
  rw [hnext, next_trailing hinside (htext ▸ hline.clean), Reading.readSectionLine, if_neg hend]
  rfl

lemma written_ruleText {c : Config} (hinv : c.StoredInv) {as : List Action} {ts : List Name} (h : Written as ts)
    (has : ∀ a ∈ as, a.Stored c) : ∀ t ∈ ts, RuleText t := by
  intro t ht
  obtain ⟨a, ha, hformat⟩ := forall₂_mem h t ht
  exact action_text hinv (has a ha) hformat

lemma next_rule (hinv : s.config.StoredInv) {rule : Rule} (h : rule.Stored s.config)
    (hinside : s.inside = some .options) {text : Name} (htext : rule.format = some text) :
    s.next resolves ('\t' :: text) = (rule.reread s.config).map s.addRule := by
  obtain ⟨⟨condition, hsome, hcondition⟩, hactions⟩ := h
  obtain ⟨_, as, ds⟩ := rule
  dsimp only at hsome
  subst hsome
  have has : ∀ a ∈ as, a.Stored s.config := fun a ha => hactions a (List.mem_append_left _ ha)
  have hds : ∀ d ∈ ds, d.Stored s.config := fun d hd => hactions d (List.mem_append_right _ hd)
  have hcall := hcondition.readableCall hinv
  obtain ⟨ctext, ts, us, hctext, hts, hus, rfl⟩ := Rule.format_cases htext
  rw [Condition.format_eq] at hctext
  have hrule := hcall.ruleText hctext
  have hlines {value : Name} (hvalue : RuleText value) : s.next resolves ('\t' :: (ctext ++ " = ".toList ++ value)) =
      (s.readOptionLine resolves (ctext ++ " = ".toList ++ value)).toOption := next_value hinside hrule hvalue
  have htsText := written_ruleText hinv hts has
  have husText := written_ruleText hinv hus hds
  rcases hcall.written hctext with ⟨hwhole, rfl⟩ | ⟨hcut, rfl⟩
  · cases hts with
    | nil =>
      cases hus with
      | nil =>
        have hline : '\t' :: (callText condition.call ++ " = ".toList ++ valueText [] []) =
            '\t' :: (callText condition.call ++ " = ".toList) := by simp [valueText, deactivateText]
        rw [hline, next_novalue hinside hrule, readOptionLine_empty hcall]
        rfl
      | @cons d u ds us hu hus =>
        rw [hlines (valueText_ruleText htsText husText (.inr (by simp))), readOptionLine_rule hcall]
        refine congrArg (Option.map s.addRule) ?_
        exact parseRule_deactivate hinv hcondition hds (.cons hu hus) hwhole (by simp)
    | @cons a t as ts ht hts =>
      have hvalue : [' '] ++ valueText (t :: ts) us = [' '] ++ (t ++ (moreText ts ++ deactivateText us)) := by
        rw [valueText, intercalate_texts, List.append_assoc]
      rw [hlines (valueText_ruleText htsText husText (.inl (by simp))), readOptionLine_rule hcall, hvalue,
        parseRule_activate hinv hcondition (fun b hb => has b (List.mem_cons_of_mem a hb)) hds hts hus hwhole
          (has a List.mem_cons_self) ht]
  · rw [reread_cut hcut, Option.map_none]
    by_cases hne : ts ≠ [] ∨ us ≠ []
    · have hcutLine := @readOptionLine_cut resolves s condition hinv hcondition hcut ([' '] ++ valueText ts us)
      rw [hlines (valueText_ruleText htsText husText hne)]
      rw [List.append_assoc] at hcutLine
      rw [List.append_assoc]
      exact hcutLine
    · obtain ⟨rfl, rfl⟩ : ts = [] ∧ us = [] := by
        rwa [not_or, not_not, not_not] at hne
      have hline : '\t' :: ((callText condition.call).dropLast ++ " = ".toList ++ valueText [] []) =
          '\t' :: ((callText condition.call).dropLast ++ " = ".toList) := by simp [valueText, deactivateText]
      have hcutLine := @readOptionLine_cut resolves s condition hinv hcondition hcut []
      rw [List.append_nil] at hcutLine
      rw [hline, next_novalue hinside hrule, hcutLine]

end Lines

lemma runFrom_rules {resolves : Name → Bool} {s : Reading} (hinv : s.config.StoredInv) {rules : List Rule}
    (hrules : ∀ rule ∈ rules, rule.Stored s.config) (hinside : s.inside = some .options) {lines : List Name}
    (hlines : formatRules rules = some lines) :
    runFrom (Reading.next resolves) lines s =
      (rules.mapM (Rule.reread s.config)).map fun rs => { s with rules := s.rules ++ rs } := by
  rw [formatRules] at hlines
  induction rules generalizing s lines with
  | nil =>
    have hsame : ({ s with rules := s.rules ++ [] } : Reading) = s := by rw [List.append_nil]
    obtain rfl := Option.some.inj hlines
    rw [List.mapM_nil]
    change some s = some ({ s with rules := s.rules ++ [] } : Reading)
    rw [hsame]
  | cons rule rules ih =>
    have hrest := fun r hr => hrules r (List.mem_cons_of_mem rule hr)
    rw [List.mapM_cons] at hlines
    obtain ⟨line, hline, h⟩ := Option.bind_eq_some_iff.mp hlines
    obtain ⟨lines', hlines', h⟩ := Option.bind_eq_some_iff.mp h
    obtain rfl := Option.some.inj h
    obtain ⟨text, htext, rfl⟩ := Option.map_eq_some_iff.mp hline
    rw [runFrom, next_rule hinv (hrules rule List.mem_cons_self) hinside htext, List.mapM_cons]
    cases rule.reread s.config with
    | none => rfl
    | some rule' =>
      have hrun := ih (s := s.addRule rule') hinv hrest hinside hlines'
      rw [Option.map_some, Option.bind_some, hrun]
      change Option.map _ (rules.mapM (Rule.reread s.config)) = _
      cases rules.mapM (Rule.reread s.config) with
      | none => rfl
      | some rs => simp [Reading.addRule]

section Kept

/-- A broadcast without a list goes to all screens. -/
def Action.addressed : Action → Action
  | keyboardBroadcast mode screens => keyboardBroadcast mode (if screens = [] then ['*'] else screens)
  | a => a

def Rule.addressed (r : Rule) : Rule :=
  ⟨r.condition, r.activateActions.map Action.addressed, r.deactivateActions.map Action.addressed⟩

def KeptKey (key : KeyID) : Prop := key ≠ KeyNames.kKeyAltGr ∧ KeyNames.Printable key

instance (key : KeyID) : Decidable (KeptKey key) := inferInstanceAs (Decidable (_ ∧ _))

namespace Config

def KeptName (c : Config) (name : Name) : Prop := c.getCanonicalName name = name

instance (c : Config) (name : Name) : Decidable (c.KeptName name) := inferInstanceAs (Decidable (_ = _))

end Config

def Condition.Spelled (c : Config) : Condition → Prop
  | keystroke key _ => KeptKey key
  | mouseButton _ _ => True
  | screenConnected screen => c.KeptName screen

def Action.Spelled (c : Config) : Action → Prop
  | switchToScreen screen => c.KeptName screen
  | keyboardBroadcast _ screens => ∀ n ∈ listed screens, c.KeptName n
  | keystroke key _ screens _ => KeptKey key ∧ ∀ n ∈ listed screens, c.KeptName n
  | _ => True

def Condition.Kept (c : Config) (condition : Condition) : Prop := Whole (callText condition.call) ∧ condition.Spelled c

def Action.Kept (c : Config) (a : Action) : Prop := Whole (callText a.call) ∧ a.Spelled c

structure Rule.Kept (c : Config) (r : Rule) : Prop where
  nonempty : r.actions ≠ []
  condition : ∀ condition ∈ r.condition, condition.Kept c
  actions : ∀ a ∈ r.actions, a.Kept c

instance (c : Config) (condition : Condition) : Decidable (condition.Spelled c) :=
  match condition with
  | .keystroke _ _ => inferInstanceAs (Decidable (KeptKey _))
  | .mouseButton _ _ => .isTrue trivial
  | .screenConnected _ => inferInstanceAs (Decidable (c.KeptName _))

instance (c : Config) (a : Action) : Decidable (a.Spelled c) :=
  match a with
  | .switchToScreen _ => inferInstanceAs (Decidable (c.KeptName _))
  | .keyboardBroadcast _ screens => inferInstanceAs (Decidable (∀ n ∈ listed screens, c.KeptName n))
  | .keystroke _ _ screens _ => inferInstanceAs (Decidable (KeptKey _ ∧ ∀ n ∈ listed screens, c.KeptName n))
  | .lockCursorToScreen _ => .isTrue trivial
  | .toggleScreen => .isTrue trivial
  | .switchInDirection _ => .isTrue trivial
  | .mouseButton _ _ _ => .isTrue trivial

instance (c : Config) (condition : Condition) : Decidable (condition.Kept c) := inferInstanceAs (Decidable (_ ∧ _))

instance (c : Config) (a : Action) : Decidable (a.Kept c) := inferInstanceAs (Decidable (_ ∧ _))

instance (c : Config) (r : Rule) : Decidable (r.Kept c) :=
  decidable_of_iff (r.actions ≠ [] ∧ (∀ condition ∈ r.condition, condition.Kept c) ∧ ∀ a ∈ r.actions, a.Kept c)
    ⟨fun ⟨hne, hcondition, hactions⟩ => ⟨hne, hcondition, hactions⟩, fun h => ⟨h.nonempty, h.condition, h.actions⟩⟩

variable {c : Config}

lemma Condition.readBack_iff {condition : Condition} : condition.readBack c = some condition ↔ condition.Spelled c := by
  cases condition with
  | keystroke key mask =>
    refine Iff.trans ?_ (rereadKey_eq_some_iff key mask)
    rw [Condition.readBack, Option.map_eq_some_iff]
    constructor
    · rintro ⟨⟨key', mask'⟩, hread, heq⟩
      obtain ⟨rfl, rfl⟩ := Condition.keystroke.inj heq
      exact hread
    · exact fun hread => ⟨_, hread, rfl⟩
  | mouseButton button mask => exact iff_of_true rfl trivial
  | screenConnected screen =>
    rw [Condition.readBack, Option.some.injEq, Condition.screenConnected.injEq]
    rfl

lemma Action.readBack_iff (hinv : c.StoredInv) {a : Action} (h : a.Stored c) :
    (∃ b, a.readBack c = some b ∧ b.addressed = a.addressed) ↔ a.Spelled c := by
  cases a with
  | lockCursorToScreen mode => exact iff_of_true ⟨_, rfl, rfl⟩ trivial
  | switchToScreen screen =>
    constructor
    · rintro ⟨b, hb, heq⟩
      obtain rfl := Option.some.inj hb
      exact Action.switchToScreen.inj heq
    · intro hkept
      exact ⟨_, rfl, congrArg Action.switchToScreen hkept⟩
  | toggleScreen => exact iff_of_true ⟨_, rfl, rfl⟩ trivial
  | switchInDirection dir => exact iff_of_true ⟨_, rfl, rfl⟩ trivial
  | keyboardBroadcast mode screens =>
    refine Iff.trans ?_ (hinv.rereadScreens_eq_iff h)
    have hsame : (∃ b, (Action.keyboardBroadcast mode screens).readBack c = some b ∧
        b.addressed = (Action.keyboardBroadcast mode screens).addressed) ↔
        (if (if screens = ['*'] then [] else c.rereadScreens screens) = [] then ['*']
          else if screens = ['*'] then [] else c.rereadScreens screens) = if screens = [] then ['*'] else screens := by
      constructor
      · rintro ⟨b, hb, heq⟩
        obtain rfl := Option.some.inj hb
        exact (Action.keyboardBroadcast.inj heq).2
      · intro heq
        exact ⟨_, rfl, congrArg (Action.keyboardBroadcast mode) heq⟩
    rw [hsame]
    rcases Config.ruleScreens_cases h with rfl | rfl | ⟨names, -, rfl, -, -⟩
    · exact iff_of_true rfl rfl
    · exact iff_of_true rfl rfl
    · have hnil : colonText names ≠ [] := by simp [colonText]
      have hall : colonText names ≠ ['*'] := fun heq => absurd (List.cons.inj heq).1 (by decide)
      rw [if_neg hnil, if_neg hall]
      split_ifs with hempty
      · rw [hempty]
        exact iff_of_false hall.symm hnil.symm
      · rfl
  | keystroke key mask screens press =>
    refine Iff.trans ?_ (and_congr (rereadKey_eq_some_iff key mask) (hinv.rereadScreens_eq_iff h.2))
    constructor
    · rintro ⟨b, hb, heq⟩
      obtain ⟨⟨key', mask'⟩, hread, rfl⟩ := Option.map_eq_some_iff.mp hb
      obtain ⟨rfl, rfl, hscreens, -⟩ := Action.keystroke.inj heq
      exact ⟨hread, hscreens⟩
    · rintro ⟨hread, hscreens⟩
      refine ⟨_, Option.map_eq_some_iff.mpr ⟨_, hread, rfl⟩, ?_⟩
      exact congrArg (fun screens => Action.keystroke key mask screens press) hscreens
  | mouseButton button mask press => exact iff_of_true ⟨_, rfl, rfl⟩ trivial

lemma Condition.reread_iff {condition : Condition} : condition.reread c = some condition ↔ condition.Kept c := by
  rw [Condition.reread, Condition.Kept, ← Condition.readBack_iff]
  split_ifs with hwhole
  · exact (and_iff_right hwhole).symm
  · exact iff_of_false (by simp) fun h => hwhole h.1

lemma Action.reread_iff (hinv : c.StoredInv) {a : Action} (h : a.Stored c) :
    (∃ b, a.reread c = some b ∧ b.addressed = a.addressed) ↔ a.Kept c := by
  rw [Action.Kept, ← Action.readBack_iff hinv h]
  by_cases hwhole : Whole (callText a.call)
  · have hreread : a.reread c = a.readBack c := if_pos hwhole
    rw [hreread, and_iff_right hwhole]
  · have hreread : a.reread c = none := if_neg hwhole
    rw [hreread]
    exact iff_of_false (by simp) fun h => hwhole h.1

lemma exists_mapM_iff {α β γ : Type} {f : α → Option β} {g : β → γ} {h : α → γ} {l : List α} :
    (∃ bs, l.mapM f = some bs ∧ bs.map g = l.map h) ↔ ∀ a ∈ l, ∃ b, f a = some b ∧ g b = h a := by
  induction l with
  | nil => exact iff_of_true ⟨[], rfl, rfl⟩ fun a ha => nomatch ha
  | cons a l ih =>
    rw [List.forall_mem_cons, ← ih, List.mapM_cons]
    constructor
    · rintro ⟨bs, hbs, heq⟩
      obtain ⟨b, hb, hrest⟩ := Option.bind_eq_some_iff.mp hbs
      obtain ⟨cs, hcs, hpure⟩ := Option.bind_eq_some_iff.mp hrest
      obtain rfl := Option.some.inj hpure
      obtain ⟨hhead, htail⟩ := List.cons.inj heq
      exact ⟨⟨b, hb, hhead⟩, cs, hcs, htail⟩
    · rintro ⟨⟨b, hb, hhead⟩, cs, hcs, htail⟩
      refine ⟨b :: cs, ?_, ?_⟩
      · rw [hb, hcs]
        rfl
      · rw [List.map_cons, List.map_cons, hhead, htail]

lemma Rule.reread_iff (hinv : c.StoredInv) {r : Rule} (h : r.Stored c) :
    (∃ r', r.reread c = some r' ∧ r'.addressed = r.addressed) ↔ r.Kept c := by
  obtain ⟨⟨condition, hsome, -⟩, hactions⟩ := h
  obtain ⟨_, as, ds⟩ := r
  dsimp only at hsome
  subst hsome
  have has : ∀ a ∈ as, a.Stored c := fun a ha => hactions a (List.mem_append_left _ ha)
  have hds : ∀ d ∈ ds, d.Stored c := fun d hd => hactions d (List.mem_append_right _ hd)
  have hiff {l : List Action} (hl : ∀ a ∈ l, a.Stored c) :
      (∃ bs, l.mapM (Action.reread c) = some bs ∧ bs.map Action.addressed = l.map Action.addressed) ↔ ∀ a ∈ l, a.Kept c :=
    exists_mapM_iff.trans (forall₂_congr fun a ha => Action.reread_iff hinv (hl a ha))
  constructor
  · rintro ⟨r', hr', heq⟩
    rw [Rule.reread] at hr'
    split_ifs at hr' with hempty
    obtain ⟨condition', hcondition, hr'⟩ := Option.bind_eq_some_iff.mp hr'
    obtain ⟨bs, hbs, hr'⟩ := Option.bind_eq_some_iff.mp hr'
    obtain ⟨es, hes, rfl⟩ := Option.map_eq_some_iff.mp hr'
    obtain ⟨hsame, hbs', hes'⟩ := Rule.mk.inj heq
    obtain rfl := Option.some.inj hsame
    refine ⟨hempty, ?_, ?_⟩
    · rintro _ ⟨⟩
      exact Condition.reread_iff.mp hcondition
    · intro a ha
      rcases List.mem_append.mp ha with ha | ha
      · exact (hiff has).mp ⟨bs, hbs, hbs'⟩ a ha
      · exact (hiff hds).mp ⟨es, hes, hes'⟩ a ha
  · rintro ⟨hempty, hcondition, hkept⟩
    obtain ⟨bs, hbs, hbs'⟩ := (hiff has).mpr fun a ha => hkept a (List.mem_append_left _ ha)
    obtain ⟨es, hes, hes'⟩ := (hiff hds).mpr fun d hd => hkept d (List.mem_append_right _ hd)
    refine ⟨⟨some condition, bs, es⟩, ?_, ?_⟩
    · rw [Rule.reread, if_neg hempty]
      dsimp only
      rw [Option.bind_some, Condition.reread_iff.mpr (hcondition condition rfl), Option.bind_some, hbs, Option.bind_some, hes]
      rfl
    · rw [Rule.addressed, Rule.addressed, hbs', hes']

end Kept

def Rule.Whole (r : Rule) : Prop :=
  (∀ condition ∈ r.condition, InputLeap.Whole (callText condition.call)) ∧
    ∀ a ∈ r.actions, InputLeap.Whole (callText a.call)

lemma mapM_format {as : List Action} (hinv : c.StoredInv) (has : ∀ a ∈ as, a.Stored c)
    (hwhole : ∀ a ∈ as, Whole (callText a.call)) : ∃ ts, as.mapM Action.format = some ts := by
  induction as with
  | nil => exact ⟨[], rfl⟩
  | cons a as ih =>
    obtain ⟨hstored, hrest⟩ := List.forall_mem_cons.mp has
    obtain ⟨hfirst, hwhole⟩ := List.forall_mem_cons.mp hwhole
    obtain ⟨ts, hts⟩ := ih hrest hwhole
    have hvisible := (hstored.readableCall hinv).visible
    refine ⟨callText a.call :: ts, ?_⟩
    rw [List.mapM_cons, Action.format_eq, sprintf_whole (fun ch hch => (hvisible ch hch).1) hfirst, hts]
    rfl

lemma Rule.Whole.format (hinv : c.StoredInv) {r : Rule} (h : r.Stored c) (hwhole : r.Whole) : ∃ text, r.format = some text := by
  obtain ⟨⟨condition, hsome, hcondition⟩, hactions⟩ := h
  obtain ⟨_, as, ds⟩ := r
  dsimp only at hsome
  subst hsome
  have hvisible := (hcondition.readableCall hinv).visible
  obtain ⟨ts, hts⟩ : ∃ ts, as.mapM Action.format = some ts := mapM_format hinv (fun a ha => hactions a (List.mem_append_left _ ha))
    fun a ha => hwhole.2 a (List.mem_append_left _ ha)
  obtain ⟨us, hus⟩ : ∃ us, ds.mapM Action.format = some us := mapM_format hinv (fun d hd => hactions d (List.mem_append_right _ hd))
    fun d hd => hwhole.2 d (List.mem_append_right _ hd)
  have hformat : condition.format = some (callText condition.call) := by
    rw [Condition.format_eq]
    exact sprintf_whole (fun ch hch => (hvisible ch hch).1) (hwhole.1 condition rfl)
  rw [Rule.format]
  dsimp only
  rw [hformat, formatActions, hts, formatActions, hus]
  exact ⟨_, rfl⟩

lemma formatRules_whole (hinv : c.StoredInv) {rules : List Rule} (hstored : ∀ r ∈ rules, r.Stored c)
    (hwhole : ∀ r ∈ rules, r.Whole) : ∃ lines, formatRules rules = some lines := by
  rw [formatRules]
  induction rules with
  | nil => exact ⟨[], rfl⟩
  | cons rule rules ih =>
    obtain ⟨hrule, hrest⟩ := List.forall_mem_cons.mp hstored
    obtain ⟨hfirst, hwhole⟩ := List.forall_mem_cons.mp hwhole
    obtain ⟨text, htext⟩ := hfirst.format hinv hrule
    obtain ⟨lines, hlines⟩ := ih hrest hwhole
    refine ⟨('\t' :: text) :: lines, ?_⟩
    rw [List.mapM_cons, htext, hlines]
    rfl

lemma Rule.Kept.whole {r : Rule} (h : r.Kept c) : r.Whole :=
  ⟨fun condition hcondition => (h.condition condition hcondition).1, fun a ha => (h.actions a ha).1⟩

/-- There are texts of the rules, and the lines that they are written as are read, in the same configuration, as the
same rules. -/
def StoredConfig.RulesReread (resolves : Name → Bool) (file : StoredConfig) : Prop :=
  ∃ lines, formatRules file.rules = some lines ∧
    ∃ s, runFrom (Reading.next resolves) lines ⟨⟨⟨file.config, []⟩, file.listenAddress⟩, some .options, []⟩ = some s ∧
      s.rules.map Rule.addressed = file.rules.map Rule.addressed

lemma rulesReread_iff {resolves : Name → Bool} {file : StoredConfig} (hinv : file.config.StoredInv)
    (hrules : ∀ rule ∈ file.rules, rule.Stored file.config) :
    file.RulesReread resolves ↔ ∀ rule ∈ file.rules, rule.Kept file.config := by
  have hiff : (∃ rs, file.rules.mapM (Rule.reread file.config) = some rs ∧
      rs.map Rule.addressed = file.rules.map Rule.addressed) ↔ ∀ rule ∈ file.rules, rule.Kept file.config :=
    exists_mapM_iff.trans (forall₂_congr fun rule hrule => Rule.reread_iff hinv (hrules rule hrule))
  constructor
  · rintro ⟨lines, hlines, s, hs, heq⟩
    rw [runFrom_rules hinv hrules rfl hlines] at hs
    obtain ⟨rs, hrs, rfl⟩ := Option.map_eq_some_iff.mp hs
    exact hiff.mp ⟨rs, hrs, heq⟩
  · intro hkept
    obtain ⟨lines, hlines⟩ := formatRules_whole hinv hrules fun rule hrule => (hkept rule hrule).whole
    obtain ⟨rs, hrs, heq⟩ := hiff.mpr hkept
    refine ⟨lines, hlines, ?_⟩
    rw [runFrom_rules hinv hrules rfl hlines]
    exact ⟨_, Option.map_eq_some_iff.mpr ⟨rs, hrs, rfl⟩, heq⟩

/-- The rules of a file come back if each has an action, all keys can be printed, screens are named as they are spelled
in the section of screens, and nothing is cut short. -/
theorem readConfig_rulesReread_iff {resolves : Name → Bool} {text : Name} {file : StoredConfig}
    (h : readConfig resolves text = .ok file) :
    file.RulesReread resolves ↔ ∀ rule ∈ file.rules, rule.Kept file.config :=
  rulesReread_iff (readConfig_storedInv h) (readConfig_storedRules h)

def ruleFile (rule : String) : Name :=
  ("section: screens\na:\nb:\nend\nsection: options\n" ++ rule ++ "\nend\n").toList

/-- The texts as lists, which are faster to evaluate. -/
lemma ruleFile_eq (rule : String) : ruleFile rule =
    "section: screens\na:\nb:\nend\nsection: options\n".toList ++ rule.toList ++ "\nend\n".toList := by
  rw [ruleFile, String.toList_append, String.toList_append]

theorem readConfig_rulesReread_toggle :
    ∃ file, readConfig (fun _ => true) (ruleFile "keystroke(Shift+a) = keyDown(b,a:B), toggleScreen; mouseUp(2)") = .ok file ∧
      file.RulesReread fun _ => true := by
  obtain ⟨file, hfile, hkept⟩ : ∃ file, readConfig (fun _ => true)
      (ruleFile "keystroke(Shift+a) = keyDown(b,a:B), toggleScreen; mouseUp(2)") = .ok file ∧
        ∀ rule ∈ file.rules, rule.Kept file.config := by
    rw [ruleFile_eq, String.toList_ofList, String.toList_ofList, String.toList_ofList]
    exact exists_ok_of_any (by decide +kernel)
  exact ⟨file, hfile, (readConfig_rulesReread_iff hfile).mpr hkept⟩

/-- A rule may be read without any action, but is then written as a line without a value. -/
theorem rule_without_action : ¬ ∀ text file, readConfig (fun _ => true) text = .ok file →
    file.RulesReread fun _ => true := by
  intro hall
  obtain ⟨file, hfile, hlost⟩ : ∃ file, readConfig (fun _ => true) (ruleFile "keystroke(a) = ;") = .ok file ∧
      ¬ ∀ rule ∈ file.rules, rule.Kept file.config := by
    rw [ruleFile_eq, String.toList_ofList, String.toList_ofList, String.toList_ofList]
    exact exists_ok_of_any (by decide +kernel)
  exact hlost ((rulesReread_iff (readConfig_storedInv hfile) (readConfig_storedRules hfile)).mp (hall _ file hfile))

end InputLeap
