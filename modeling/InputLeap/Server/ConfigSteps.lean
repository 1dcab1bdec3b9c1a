import InputLeap.Server.ConfigRead

/-! What a line of a file can do to the configuration that is being read. -/

namespace InputLeap

open InputLeap.Lib InputLeap.Lib.Text

lemma bind_eq_ok {α β : Type} {x : Except String α} {f : α → Except String β} {r : β} :
    (x >>= f) = .ok r ↔ ∃ a, x = .ok a ∧ f a = .ok r := by
  cases x with
  | error e => exact iff_of_false (fun h => by cases h) (by simp)
  | ok a => exact ⟨fun h => ⟨a, rfl, h⟩, fun ⟨_, h, hf⟩ => Except.ok.inj h ▸ hf⟩

lemma toOption_eq_some {α : Type} {x : Except String α} {a : α} : x.toOption = some a ↔ x = .ok a := by
  cases x with
  | error e => exact iff_of_false (by simp [Except.toOption]) (by simp)
  | ok b => exact ⟨fun h => congrArg _ (Option.some.inj h), fun h => congrArg _ (Except.ok.inj h)⟩

lemma toOption_bind {α β : Type} (x : Except String α) (f : α → Except String β) :
    (x >>= f).toOption = x.toOption.bind fun a => (f a).toOption := by
  cases x <;> rfl

def isValueChar (c : Char) : Bool := isGraph c && c != '(' && c != ',' && c != ';' && c != '#'

section Words

lemma stripLine_chars {raw line : Name} (h : stripLine raw = some line) : '#' ∉ line := by
  rw [stripLine] at h
  split_ifs at h
  obtain rfl := Option.some.inj h
  intro hmem
  rw [stripBack] at hmem
  have hline : '#' ∈ (stripFront raw).takeWhile fun c => c != '#' := by
    split_ifs at hmem
    · exact hmem
    · exact (List.rdropWhile_prefix _ _).subset hmem
  simpa using List.mem_takeWhile_imp hline

lemma checkChars_ok {line : Name} (h : checkChars line = .ok ()) : ∀ c ∈ line, isGraph c = true ∨ isBlank c = true := by
  intro c hc
  rw [checkChars] at h
  split at h
  · nomatch h
  · rename_i hf
    simpa [or_iff_not_imp_left] using List.find?_eq_none.mp hf c hc

lemma takeArgs_suffix {arg s : Name} {args : List Name} {rest : Name} (h : takeArgs arg s = some (args, rest)) :
    rest <:+ s := by
  induction s generalizing arg args rest with
  | nil => simp [takeArgs] at h
  | cons c s ih =>
    rw [takeArgs] at h
    split_ifs at h
    · obtain ⟨-, rfl⟩ := Prod.mk.inj (Option.some.inj h)
      exact List.suffix_cons c s
    · obtain ⟨⟨args', rest'⟩, htake, heq⟩ := Option.map_eq_some_iff.mp h
      obtain ⟨-, rfl⟩ := Prod.mk.inj heq
      exact (ih htake).trans (List.suffix_cons c s)
    · exact (ih h).trans (List.suffix_cons c s)

lemma trim_eq_nil {s : Name} (h : trim s = []) : s.all isBlank = true := by
  rw [trim] at h
  split_ifs at h with hall
  · exact hall
  · have hdrop := List.rdropWhile_eq_nil_iff.mp h
    rw [List.all_eq_true]
    intro c hc
    rcases List.mem_append.mp (List.takeWhile_append_dropWhile (p := isBlank) (l := s) ▸ hc) with hc | hc
    · exact List.mem_takeWhile_imp hc
    · exact hdrop c hc

lemma takeArgs_last {arg s : Name} {args : List Name} {rest : Name} (h : takeArgs arg s = some (args, rest)) :
    ∃ a ∈ args.getLast?, a ≠ [] := by
  induction s generalizing arg args rest with
  | nil => simp [takeArgs] at h
  | cons c s ih =>
    rw [takeArgs] at h
    split_ifs at h with _ hall
    · obtain ⟨rfl, -⟩ := Prod.mk.inj (Option.some.inj h)
      exact ⟨_, rfl, fun hnil => hall (trim_eq_nil hnil)⟩
    · obtain ⟨⟨args', rest'⟩, htake, heq⟩ := Option.map_eq_some_iff.mp h
      obtain ⟨rfl, -⟩ := Prod.mk.inj heq
      obtain ⟨a, ha, hne⟩ := ih htake
      obtain ⟨b, args', rfl⟩ := List.exists_cons_of_ne_nil fun hnil : args' = [] => nomatch hnil ▸ ha
      exact ⟨a, ha, hne⟩
    · exact ih h

lemma parseArgs_last {delim : List Char} {name name' line rest : Name} {args : List Name}
    (h : parseArgs delim name line = .ok (name', args, rest)) : args.getLast? ≠ some [] := by
  cases line with
  | nil =>
    rw [parseArgs] at h
    split_ifs at h
    cases h
    exact Option.some_ne_none _ ∘ Eq.symm
  | cons c s =>
    rw [parseArgs] at h
    split_ifs at h
    · cases h
      exact Option.some_ne_none _ ∘ Eq.symm
    · split at h
      · nomatch h
      · rename_i args' t htake
        rw [checkDelim] at h
        split_ifs at h
        cases h
        obtain ⟨a, ha, hne⟩ := takeArgs_last htake
        rintro hnil
        exact hne (Option.some.inj (ha.symm.trans hnil))

lemma parseArgs_ok {delim : List Char} {name name' line rest : Name} {args : List Name}
    (h : parseArgs delim name line = .ok (name', args, rest)) : name' = name ∧ rest <:+ line := by
  cases line with
  | nil =>
    rw [parseArgs] at h
    split_ifs at h
    cases h
    exact ⟨rfl, List.nil_suffix⟩
  | cons c s =>
    rw [parseArgs] at h
    split_ifs at h
    · cases h
      exact ⟨rfl, List.suffix_rfl⟩
    · split at h
      · nomatch h
      · rename_i args' t htake
        rw [checkDelim] at h
        split_ifs at h
        cases h
        exact ⟨rfl, ((List.dropWhile_suffix _).trans (takeArgs_suffix htake)).trans (List.suffix_cons c s)⟩

lemma parseNameWithArgs_ok {type : String} {delim : List Char} {line name rest : Name} {args : List Name}
    (h : parseNameWithArgs type delim line = .ok (name, args, rest)) :
    (∀ c ∈ name, c ∈ line ∧ inName delim c = true) ∧ rest <:+ line := by
  rw [parseNameWithArgs] at h
  split_ifs at h
  obtain ⟨rfl, hrest⟩ := parseArgs_ok h
  have hskip : line.dropWhile isBlank <:+ line := List.dropWhile_suffix _
  refine ⟨fun c hc => ⟨?_, List.mem_takeWhile_imp hc⟩, ?_⟩
  · exact hskip.subset ((List.takeWhile_prefix _).subset hc)
  · exact ((hrest.trans (List.dropWhile_suffix _)).trans (List.dropWhile_suffix _)).trans hskip

lemma parseNameWithArgs_last {type : String} {delim : List Char} {line name rest : Name} {args : List Name}
    (h : parseNameWithArgs type delim line = .ok (name, args, rest)) : args.getLast? ≠ some [] := by
  rw [parseNameWithArgs] at h
  split_ifs at h
  exact parseArgs_last h

end Words

namespace Reading

def IsInt32 (n : ℤ) : Prop := (BitVec.ofInt 32 n).toInt = n

structure ProperDisplay (d : DisplayRect) : Prop where
  size : 0 < d.w ∧ 0 < d.h
  range : IsInt32 d.x ∧ IsInt32 d.y ∧ IsInt32 d.w ∧ IsInt32 d.h

inductive Step (resolves : Name → Bool) (s : Reading) : Reading → Prop
  | skip : Step resolves s s
  | enter (sect : SectionName) : Step resolves s { s with inside := some sect, screen := [] }
  | leave : Step resolves s { s with inside := none }
  | address {value host : Name} (hvalue : ∀ c ∈ value, isValueChar c = true)
      (h : NetworkAddress.listenHost resolves value = some host) : Step resolves s { s with listenAddress := some host }
  | option {name value : Name} {option : OptionID} {kind : OptionKind} {v : OptionValue}
      (hname : optionNamed globalOptions name = some (option, kind)) (hv : kind.parse value = .ok v) :
      Step resolves s (s.addOption [] option v)
  | rule {name value rest : Name} {nameArgs valueArgs : List Name} {rule : Rule}
      (hname : nameArgs.getLast? ≠ some []) (hvalue : valueArgs.getLast? ≠ some [])
      (h : s.config.parseRule name nameArgs value valueArgs rest = .ok rule) :
      Step resolves s { s with rules := s.rules ++ [rule] }
  | addScreen {screen : Name} {c : Config} (hvalid : isValidScreenName screen = true)
      (h : s.config.addScreen screen = some c) (hinside : s.inside = some .screens) :
      Step resolves s { s.setConfig c with screen := screen }
  | screenOption {name value : Name} {option : OptionID} {kind : OptionKind} {v : OptionValue}
      (hname : optionNamed screenOptions name = some (option, kind)) (hv : kind.parse value = .ok v)
      (hinside : s.inside = some .screens) (hscreen : s.screen ≠ []) : Step resolves s (s.addOption s.screen option v)
  | header {screen : Name} (hscreen : s.config.isScreen screen = true) (hcanonical : s.config.isCanonicalName screen = true)
      (hinside : s.inside = some .links ∨ s.inside = some .aliases) : Step resolves s { s with screen := screen }
  | link {dstScreen : Name} {dir : Direction} {srcStart srcEnd dstStart dstEnd : ℚ} {c : Config}
      (hname : ∀ ch ∈ dstScreen, isGraph ch = true) (hdst : s.config.isScreen dstScreen = true)
      (h : s.config.connect s.screen dir srcStart srcEnd dstScreen dstStart dstEnd = some c)
      (hinside : s.inside = some .links) (hscreen : s.screen ≠ []) : Step resolves s (s.setConfig c)
  | addAlias {name : Name} {c : Config} (hvalid : isValidScreenName name = true)
      (h : s.config.addAlias s.screen name = some c) (hinside : s.inside = some .aliases) (hscreen : s.screen ≠ [])
      (hend : name ≠ "end".toList) : Step resolves s (s.setConfig c)
  | displays {canonical : Name} {name : Name} {displays : List DisplayRect} (hname : s.config.getCanonicalName name = canonical)
      (hcanonical : canonical ≠ []) (hlength : displays ≠ [] ∧ displays.length ≤ 32)
      (hproper : ∀ d ∈ displays, ProperDisplay d) :
      Step resolves s (s.setConfig { s.config with
        displays := (s.config.displays.erase canonical).insert canonical displays })

section Lines

variable {resolves : Name → Bool} {s t : Reading} {line : Name}

lemma step_of_readSection (h : s.readSection line = .ok t) : Step resolves s t := by
  rw [readSection] at h
  split_ifs at h
  split at h
  · nomatch h
  · cases h
    exact .enter _

lemma step_of_readOptionLine (hchars : ∀ c ∈ line, isGraph c = true ∨ isBlank c = true) (hcomment : '#' ∉ line)
    (h : s.readOptionLine resolves line = .ok t) : Step resolves s t := by
  obtain ⟨⟨name, nameArgs, rest⟩, hname, h⟩ := bind_eq_ok.mp h
  obtain ⟨⟨value, valueArgs, rest'⟩, hvalue, h⟩ := bind_eq_ok.mp h
  obtain ⟨handled, hhandled, h⟩ := bind_eq_ok.mp h
  have hrest : rest.tail <:+ line := (List.tail_suffix _).trans (parseNameWithArgs_ok hname).2
  have hchar : ∀ c ∈ value, isValueChar c = true := by
    intro c hc
    obtain ⟨hmem, hin⟩ := (parseNameWithArgs_ok hvalue).1 c hc
    have hline := hrest.subset hmem
    simp only [inName, Bool.not_eq_true', Bool.or_eq_false_iff, beq_eq_false_iff_ne] at hin
    have hgraph := (hchars c hline).resolve_right (by simp [hin.1.1])
    have hne : c ≠ '#' := fun hc => hcomment (hc ▸ hline)
    simp_all [isValueChar]
  rw [handleOption] at hhandled
  split_ifs at hhandled
  · split at hhandled
    · rename_i host hhost
      cases hhandled
      dsimp only at h
      split_ifs at h
      cases h
      exact .address hchar hhost
    · nomatch hhandled
  · split at hhandled
    · rename_i option kind hoption
      obtain ⟨v, hv, hhandled⟩ := bind_eq_ok.mp hhandled
      cases hhandled
      dsimp only at h
      split_ifs at h
      cases h
      exact .option hoption hv
    · cases hhandled
      obtain ⟨rule, hrule, h⟩ := bind_eq_ok.mp h
      cases h
      exact .rule (parseNameWithArgs_last hname) (parseNameWithArgs_last hvalue) hrule

lemma step_of_readScreenLine (hinside : s.inside = some .screens) (h : s.readScreenLine line = .ok t) :
    Step resolves s t := by
  rw [readScreenLine] at h
  split_ifs at h with hlast hscreen
  · rw [readScreenHeader] at h
    split_ifs at h with hvalid
    split at h
    · nomatch h
    · rename_i c hadd
      cases h
      exact .addScreen (by simpa using hvalid) hadd hinside
  · obtain ⟨⟨name, value⟩, -, h⟩ := bind_eq_ok.mp h
    dsimp only at h
    split at h
    · nomatch h
    · rename_i option kind hname
      obtain ⟨v, hv, h⟩ := bind_eq_ok.mp h
      cases h
      exact .screenOption hname hv hinside hscreen

lemma step_of_readHeader (hinside : s.inside = some .links ∨ s.inside = some .aliases)
    (h : s.readHeader line = .ok t) : Step resolves s t := by
  rw [readHeader] at h
  split_ifs at h with hscreen hcanonical
  cases h
  exact .header (by simpa using hscreen) (by simpa using hcanonical) hinside

lemma step_of_readLinkLine (hchars : ∀ c ∈ line, isGraph c = true ∨ isBlank c = true)
    (hinside : s.inside = some .links) (h : s.readLinkLine line = .ok t) : Step resolves s t := by
  rw [readLinkLine] at h
  split_ifs at h with hlast hscreen
  · exact step_of_readHeader (.inl hinside) h
  · obtain ⟨⟨side, srcArgs, rest⟩, hside, h⟩ := bind_eq_ok.mp h
    obtain ⟨⟨dstScreen, dstArgs, rest'⟩, hdst, h⟩ := bind_eq_ok.mp h
    obtain ⟨⟨srcStart, srcEnd⟩, -, h⟩ := bind_eq_ok.mp h
    obtain ⟨⟨dstStart, dstEnd⟩, -, h⟩ := bind_eq_ok.mp h
    have hrest : rest.tail <:+ line := (List.tail_suffix _).trans (parseNameWithArgs_ok hside).2
    have hname : ∀ c ∈ dstScreen, isGraph c = true := by
      intro c hc
      obtain ⟨hmem, hin⟩ := (parseNameWithArgs_ok hdst).1 c hc
      simp only [inName, Bool.not_eq_true', Bool.or_eq_false_iff] at hin
      exact (hchars c (hrest.subset hmem)).resolve_right (by simp [hin.1.1])
    dsimp only at h
    split at h
    · nomatch h
    · split_ifs at h with hknown
      split at h
      · nomatch h
      · rename_i c hconnect
        cases h
        exact .link hname (by simpa using hknown) hconnect hinside hscreen

lemma step_of_readAliasLine (hinside : s.inside = some .aliases) (hend : line ≠ "end".toList)
    (h : s.readAliasLine line = .ok t) : Step resolves s t := by
  rw [readAliasLine] at h
  split_ifs at h with hlast hscreen hvalid
  · exact step_of_readHeader (.inr hinside) h
  · split at h
    · nomatch h
    · rename_i c hadd
      cases h
      exact .addAlias (by simpa using hvalid) hadd hinside hscreen hend

lemma displayRects_length : ∀ values : List ℤ, (displayRects values).length = values.length / 4
  | [] | [_] | [_, _] | [_, _, _] => by simp [displayRects]
  | x :: y :: w :: h :: values => by
    rw [displayRects, List.length_cons, displayRects_length values]
    simp only [List.length_cons]
    omega

lemma mem_displayRects {d : DisplayRect} : ∀ {values : List ℤ}, d ∈ displayRects values →
    d.x ∈ values ∧ d.y ∈ values ∧ d.w ∈ values ∧ d.h ∈ values
  | [], h | [_], h | [_, _], h | [_, _, _], h => by simp [displayRects] at h
  | x :: y :: w :: h :: values, hd => by
    rw [displayRects] at hd
    rcases List.mem_cons.mp hd with rfl | hd
    · simp
    · obtain ⟨hx, hy, hw, hh⟩ := mem_displayRects hd
      simp [hx, hy, hw, hh]

lemma extractInts_range {fuel : ℕ} {numbers : Name} : ∀ n ∈ (extractInts fuel numbers).1, IsInt32 n := by
  induction fuel generalizing numbers with
  | zero => simp [extractInts]
  | succ fuel ih =>
    rw [extractInts]
    dsimp only
    split_ifs with hempty hvalue
    · simp
    · simp
    · intro n hn
      push Not at hvalue
      rcases List.mem_cons.mp hn with rfl | hn
      · exact hvalue.2
      · exact ih n hn

lemma step_of_readDisplaysLine (h : s.readDisplaysLine line = .ok t) : Step resolves s t := by
  rw [readDisplaysLine] at h
  split at h
  · nomatch h
  · dsimp only at h
    split_ifs at h with hknown hvalues hsize
    cases h
    have hlength := displayRects_length
    refine .displays rfl hknown ⟨?_, ?_⟩ ?_
    · rw [← List.length_pos_iff, hlength]
      push Not at hvalues
      have hpos := List.length_pos_iff.mpr hvalues.2.1
      omega
    · rw [hlength]
      push Not at hvalues
      omega
    · intro d hd
      have := List.any_eq_false.mp (Bool.eq_false_iff.mpr hsize) d hd
      simp only [decide_eq_true_eq, not_or, not_le] at this
      obtain ⟨hx, hy, hw, hh⟩ := mem_displayRects hd
      exact ⟨this, extractInts_range _ hx, extractInts_range _ hy, extractInts_range _ hw, extractInts_range _ hh⟩

theorem step_of_next {raw : Name} (h : s.next resolves raw = some t) : Step resolves s t := by
  rw [next, toOption_eq_some, readLine] at h
  split at h
  · cases h
    exact .skip
  · rename_i line hstrip
    obtain ⟨⟨⟩, hcheck, h⟩ := bind_eq_ok.mp h
    have hchars := checkChars_ok hcheck
    split at h
    · exact step_of_readSection h
    · rename_i sect hinside
      rw [readSectionLine] at h
      split_ifs at h with hend
      · cases h
        exact .leave
      · cases sect with
        | options => exact step_of_readOptionLine hchars (stripLine_chars hstrip) h
        | screens => exact step_of_readScreenLine hinside h
        | links => exact step_of_readLinkLine hchars hinside h
        | aliases => exact step_of_readAliasLine hinside hend h
        | displays => exact step_of_readDisplaysLine h

end Lines

end Reading

section Runs

variable {resolves : Name → Bool}

lemma readLines_eq_ok {line : ℕ} {s : Reading} {raws : List Name} {c : StoredConfig} :
    readLines resolves line s raws = .ok c ↔
      ∃ t, runFrom (Reading.next resolves) raws s = some t ∧ t.inside = none ∧ t.toStoredConfig = c := by
  induction raws generalizing line s with
  | nil =>
    rw [readLines, runFrom]
    cases hinside : s.inside with
    | none => simp [hinside]
    | some sect => simp [hinside]
  | cons raw raws ih =>
    rw [readLines, runFrom, Reading.next]
    cases s.readLine resolves raw with
    | error e => exact iff_of_false (by simp) (by simp [Except.toOption])
    | ok t => exact ih

/-- A text is read if its lines take the reader, step after step, to the end of a section. -/
theorem readConfig_eq_ok {text : Name} {c : StoredConfig} :
    readConfig resolves text = .ok c ↔
      ∃ t, runFrom (Reading.next resolves) (getlines [] text) .start = some t ∧ t.inside = none ∧ t.toStoredConfig = c :=
  readLines_eq_ok

/-- What every line keeps holds of what is read. -/
theorem readConfig_invariant {I : Reading → Prop} (hstart : I .start)
    (hstep : ∀ s t, I s → Reading.Step resolves s t → I t) {text : Name} {c : StoredConfig}
    (h : readConfig resolves text = .ok c) : ∃ t, I t ∧ t.toStoredConfig = c := by
  obtain ⟨t, hrun, -, rfl⟩ := readConfig_eq_ok.mp h
  exact ⟨t, runFrom_invariant (fun s _ t hs hnext => hstep s t hs (Reading.step_of_next hnext)) hstart hrun, rfl⟩

end Runs

end InputLeap
