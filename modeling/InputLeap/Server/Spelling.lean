import InputLeap.Server.Clients
import InputLeap.Server.ConfigNames
import InputLeap.Server.ConfigSteps

/-! The spelling of names in a file. Names are compared without case, but an alias leads to its screen as it is spelled
above the alias; the clients of a server are found by that spelling. -/

namespace InputLeap

open InputLeap.Lib InputLeap.Lib.Text

namespace Config

def keys (c : Config) : List Name := c.map.entries.map Prod.fst

/-- All names of a screen lead to the key under which it is stored. So a screen has one client at most, and a link to
the screen finds it, by whatever name. -/
structure OneSpelling (c : Config) : Prop where
  key : ∀ name, c.isScreen name = true → c.getCanonicalName name ∈ c.keys
  same : ∀ m n, c.isScreen m = true → c.isScreen n = true →
    caseless (c.getCanonicalName m) = caseless (c.getCanonicalName n) → c.getCanonicalName m = c.getCanonicalName n
  client : ∀ (r : Registry) (a b : ClientId), r.config = c → c.isScreen (r.names a) = true →
    c.isScreen (r.names b) = true → caseless (c.getCanonicalName (r.names a)) = caseless (c.getCanonicalName (r.names b)) →
    r.clients.find? (r.getName a) = some a → r.addClient b = none
  neighbor : ∀ (r : Registry) (a : ClientId) (rnd : ℚ → ℚ) (src : Name) (side : Direction) (position : ℚ),
    r.config = c → c.isScreen (r.names a) = true → r.clients.find? (r.getName a) = some a →
    (c.getNeighbor rnd src side position).1 ≠ [] →
    caseless (c.getNeighbor rnd src side position).1 = caseless (c.getCanonicalName (r.names a)) →
    r.clients.find? (c.getNeighbor rnd src side position).1 = some a

def Spelled (c : Config) : Prop := ∀ e ∈ c.nameToCanonicalName.entries, e.2 ∈ c.keys

/-- The names of the screens are stored as in the table, and none is empty. -/
structure ReadNames (c : Config) : Prop extends NamesInv c where
  nonempty : ∀ key ∈ c.keys, key ≠ []
  stored : ∀ key ∈ c.keys, (key, key) ∈ c.nameToCanonicalName.entries

section Steps

variable {c d : Config} {name canonical : Name}

lemma mem_keys_iff : name ∈ c.keys ↔ ∃ cell, (name, cell) ∈ c.map.entries := by
  simp [keys]

lemma contains_iff_key : c.map.contains name = true ↔ ∃ key ∈ c.keys, caseless key = caseless name := by
  rw [OrdMap.contains_iff]
  simp [keys]

lemma key_unique {key key' : Name} (h : key ∈ c.keys) (h' : key' ∈ c.keys) (hsame : caseless key = caseless key') :
    key = key' := by
  obtain ⟨cell, hcell⟩ := mem_keys_iff.mp h
  obtain ⟨cell', hcell'⟩ := mem_keys_iff.mp h'
  exact congrArg Prod.fst (OrdMap.entry_unique hcell hcell' hsame)

lemma mem_keys_addScreen (h : c.addScreen name = some d) (hinv : NamesInv c) {key : Name} :
    key ∈ d.keys ↔ key = name ∨ key ∈ c.keys := by
  rw [addScreen] at h
  split_ifs at h with hnew
  obtain rfl := Option.some.inj h
  have hmap : c.map.contains name = false := by
    by_contra hcontains
    obtain ⟨e, he, hsame, -⟩ := hinv.own name (by simpa using hcontains)
    exact hnew (OrdMap.contains_iff.mpr ⟨e, he, hsame⟩)
  simp only [mem_keys_iff, OrdMap.mem_insert hmap, Prod.mk.injEq]
  constructor
  · rintro ⟨cell, ⟨rfl, rfl⟩ | hcell⟩
    · exact .inl rfl
    · exact .inr ⟨cell, hcell⟩
  · rintro (rfl | ⟨cell, hcell⟩)
    · exact ⟨.empty, .inl ⟨rfl, rfl⟩⟩
    · exact ⟨cell, .inr hcell⟩

lemma mem_names_addScreen (h : c.addScreen name = some d) {e : Name × Name} :
    e ∈ d.nameToCanonicalName.entries ↔ e = (name, name) ∨ e ∈ c.nameToCanonicalName.entries := by
  rw [addScreen] at h
  split_ifs at h with hnew
  obtain rfl := Option.some.inj h
  exact OrdMap.mem_insert (Bool.eq_false_iff.mpr hnew)

lemma addAlias_eq_some (h : c.addAlias canonical name = some d) :
    d.map = c.map ∧ ∀ e, e ∈ d.nameToCanonicalName.entries ↔ e = (name, canonical) ∨ e ∈ c.nameToCanonicalName.entries := by
  rw [addAlias] at h
  split_ifs at h with hnew
  obtain rfl := Option.some.inj h
  refine ⟨rfl, fun e => OrdMap.mem_insert ?_⟩
  by_contra hcontains
  exact hnew (by simp [hcontains])

lemma spelled_addScreen (hinv : NamesInv c) (h : c.addScreen name = some d) : Spelled d ↔ Spelled c := by
  have hkeys (key : Name) : key ∈ d.keys ↔ key = name ∨ key ∈ c.keys := mem_keys_addScreen h hinv
  constructor
  · intro hd e he
    rcases (hkeys e.2).mp (hd e ((mem_names_addScreen h).mpr (.inr he))) with hname | hkey
    · -- a name that leads to the new one would be a screen already
      have hcontains : c.nameToCanonicalName.contains name = true := by
        obtain ⟨e', he', hsame, -⟩ := hinv.own e.2 (hinv.known e he)
        exact OrdMap.contains_iff.mpr ⟨e', he', hname ▸ hsame⟩
      rw [addScreen, if_pos hcontains] at h
      cases h
    · exact hkey
  · intro hc e he
    rw [hkeys]
    rcases (mem_names_addScreen h).mp he with rfl | he
    · exact .inl rfl
    · exact .inr (hc e he)

lemma spelled_addAlias (h : c.addAlias canonical name = some d) : Spelled d ↔ Spelled c ∧ canonical ∈ c.keys := by
  obtain ⟨hmap, hnames⟩ := addAlias_eq_some h
  have hkeys : d.keys = c.keys := by rw [keys, hmap, keys]
  simp only [Spelled, hnames, hkeys, forall_eq_or_imp]
  exact and_comm

lemma spelled_congr (hkeys : d.keys = c.keys) (hnames : d.nameToCanonicalName = c.nameToCanonicalName) :
    Spelled d ↔ Spelled c := by
  rw [Spelled, hkeys, hnames, Spelled]

lemma keys_connect {srcName dstName : Name} {side : Direction} {a b a' b' : ℚ}
    (h : c.connect srcName side a b dstName a' b' = some d) :
    d.keys = c.keys ∧ d.nameToCanonicalName = c.nameToCanonicalName := by
  rw [connect] at h
  split_ifs at h
  split at h
  · exact absurd h.symm (Option.some_ne_none _)
  · obtain ⟨cell, -, rfl⟩ := Option.map_eq_some_iff.mp h
    exact ⟨OrdMap.keys_modify, rfl⟩

lemma keys_addOption (c : Config) (name : Name) (option : OptionID) (value : OptionValue) :
    ((c.addOption name option value).getD c).keys = c.keys ∧
      ((c.addOption name option value).getD c).nameToCanonicalName = c.nameToCanonicalName := by
  rw [addOption]
  split_ifs
  · exact ⟨rfl, rfl⟩
  · exact ⟨OrdMap.keys_modify, rfl⟩
  · exact ⟨rfl, rfl⟩

end Steps

end Config

namespace Reading

def aliasLine (s : Reading) (raw : Name) : Option Name :=
  if s.inside = some .aliases then
    (stripLine raw).filter fun line => decide (line ≠ "end".toList ∧ line.getLast? ≠ some ':')
  else none

/-- An alias stands below the screen as it is spelled where the screen is defined. -/
def SpelledAlias (s : Reading) (raw : Name) : Prop := (s.aliasLine raw).isSome = true → s.screen ∈ s.config.keys

instance (s : Reading) (raw : Name) : Decidable (SpelledAlias s raw) := inferInstanceAs (Decidable (_ → _))

variable {resolves : Name → Bool} {s t : Reading} {raw : Name}

lemma step_names (h : Step resolves s t) :
    (t.config.keys = s.config.keys ∧ t.config.nameToCanonicalName = s.config.nameToCanonicalName) ∨
    (∃ screen, isValidScreenName screen = true ∧ s.config.addScreen screen = some t.config) ∨
    ∃ name, s.inside = some .aliases ∧ isValidScreenName name = true ∧ s.config.addAlias s.screen name = some t.config := by
  cases h with
  | skip | enter | leave | address | rule | header | displays => exact .inl ⟨rfl, rfl⟩
  | option | screenOption => exact .inl (Config.keys_addOption _ _ _ _)
  | link _ _ h => exact .inl (Config.keys_connect h)
  | addScreen hvalid h => exact .inr (.inl ⟨_, hvalid, h⟩)
  | addAlias hvalid h hinside => exact .inr (.inr ⟨_, hinside, hvalid, h⟩)

lemma readNames_start : start.config.ReadNames := by
  refine ⟨⟨⟨?_, ?_⟩, ?_⟩, ?_, ?_⟩
  · intro e he
    nomatch he
  · intro name hname
    nomatch hname
  · intro e he
    nomatch he
  · intro key hkey
    nomatch hkey
  · intro key hkey
    nomatch hkey

lemma Step.readNames (h : Step resolves s t) (hinv : s.config.ReadNames) : t.config.ReadNames := by
  rcases step_names h with ⟨hkeys, hnames⟩ | ⟨screen, hvalid, hadd⟩ | ⟨name, -, -, hadd⟩
  · refine ⟨hinv.toNamesInv.congr ?_ hnames, hkeys ▸ hinv.nonempty, ?_⟩
    · intro name
      rw [Bool.eq_iff_iff, Config.contains_iff_key, Config.contains_iff_key, hkeys]
    · rw [hkeys, hnames]
      exact hinv.stored
  · have hmem {key : Name} : key ∈ t.config.keys ↔ key = screen ∨ key ∈ s.config.keys :=
      Config.mem_keys_addScreen hadd hinv.toNamesInv
    refine ⟨hinv.toNamesInv.addScreen hadd, ?_, ?_⟩
    · intro key hkey
      rcases hmem.mp hkey with rfl | hkey
      · intro hnil
        simp [isValidScreenName, hnil] at hvalid
      · exact hinv.nonempty key hkey
    · intro key hkey
      rw [Config.mem_names_addScreen hadd]
      rcases hmem.mp hkey with rfl | hkey
      · exact .inl rfl
      · exact .inr (hinv.stored key hkey)
  · obtain ⟨hmap, hnames⟩ := Config.addAlias_eq_some hadd
    have hkeys : t.config.keys = s.config.keys := by rw [Config.keys, hmap, Config.keys]
    refine ⟨hinv.toNamesInv.addAlias hadd, hkeys ▸ hinv.nonempty, ?_⟩
    intro key hkey
    rw [hkeys] at hkey
    exact (hnames _).mpr (.inr (hinv.stored key hkey))

lemma next_aliases (hinside : s.inside = some .aliases) (h : s.next resolves raw = some t) :
    (∃ name, s.aliasLine raw = some name ∧ s.config.addAlias s.screen name = some t.config) ∨
      s.aliasLine raw = none ∧ t.config = s.config := by
  rw [next, toOption_eq_some, readLine] at h
  rw [aliasLine, if_pos hinside]
  split at h
  · rename_i hstrip
    cases h
    exact .inr ⟨by rw [hstrip]; rfl, rfl⟩
  · rename_i line hstrip
    obtain ⟨⟨⟩, -, h⟩ := bind_eq_ok.mp h
    simp only [hinside, readSectionLine] at h
    rw [hstrip]
    by_cases hend : line = "end".toList
    · rw [if_pos hend] at h
      cases h
      exact .inr ⟨by simp [hend], rfl⟩
    · rw [if_neg hend, readContent, readAliasLine] at h
      split_ifs at h with hlast
      · rw [readHeader] at h
        split_ifs at h
        cases h
        exact .inr ⟨by simp [hlast], rfl⟩
      · split at h
        · cases h
        · rename_i c hadd
          cases h
          exact .inl ⟨line, by rw [Option.filter_some, if_pos (decide_eq_true ⟨hend, hlast⟩)], hadd⟩

lemma next_spelled (hinv : s.config.ReadNames) (h : s.next resolves raw = some t) :
    t.config.Spelled ↔ s.config.Spelled ∧ SpelledAlias s raw := by
  by_cases hinside : s.inside = some .aliases
  · rcases next_aliases hinside h with ⟨name, hline, hadd⟩ | ⟨hline, hsame⟩
    · rw [Config.spelled_addAlias hadd, SpelledAlias, hline]
      simp
    · rw [hsame, SpelledAlias, hline]
      simp
  · have hline : SpelledAlias s raw := by
      intro hsome
      rw [aliasLine, if_neg hinside] at hsome
      nomatch hsome
    rw [and_iff_left hline]
    rcases step_names (step_of_next h) with ⟨hkeys, hnames⟩ | ⟨screen, -, hadd⟩ | ⟨name, halias, -, -⟩
    · exact Config.spelled_congr hkeys hnames
    · exact Config.spelled_addScreen hinv.toNamesInv hadd
    · exact absurd halias hinside

end Reading

namespace Config

variable {c : Config}

lemma mem_of_isScreen {name : Name} (h : c.isScreen name = true) :
    ∃ n, caseless n = caseless name ∧ (n, c.getCanonicalName name) ∈ c.nameToCanonicalName.entries := by
  obtain ⟨canonical, hfind⟩ := Option.isSome_iff_exists.mp h
  obtain ⟨n, hn, hmem⟩ := OrdMap.find?_eq_some.mp hfind
  exact ⟨n, hn, by rwa [getCanonicalName, hfind]⟩

lemma getCanonicalName_of_mem {e : Name × Name} (h : e ∈ c.nameToCanonicalName.entries) :
    c.isScreen e.1 = true ∧ c.getCanonicalName e.1 = e.2 := by
  have hfind : c.nameToCanonicalName.find? e.1 = some e.2 := OrdMap.find?_eq_some.mpr ⟨e.1, rfl, h⟩
  exact ⟨by simp [isScreen, OrdMap.contains, hfind], by simp [getCanonicalName, hfind]⟩

lemma getName_eq {r : Registry} {a : ClientId} (h : r.config.getCanonicalName (r.names a) ≠ []) :
    r.getName a = r.config.getCanonicalName (r.names a) := if_neg h

lemma oneSpelling_iff_spelled (hinv : c.ReadNames) : OneSpelling c ↔ Spelled c := by
  constructor
  · intro h e he
    obtain ⟨hscreen, hcanonical⟩ := getCanonicalName_of_mem he
    exact hcanonical ▸ h.key e.1 hscreen
  · intro h
    have hkey (name : Name) (hname : c.isScreen name = true) : c.getCanonicalName name ∈ c.keys := by
      obtain ⟨n, -, hmem⟩ := mem_of_isScreen hname
      exact h _ hmem
    have hsame (m n : Name) (hm : c.isScreen m = true) (hn : c.isScreen n = true)
        (heq : caseless (c.getCanonicalName m) = caseless (c.getCanonicalName n)) :
        c.getCanonicalName m = c.getCanonicalName n := key_unique (hkey m hm) (hkey n hn) heq
    have hname (r : Registry) (a : ClientId) (hr : r.config = c) (ha : c.isScreen (r.names a) = true) :
        r.getName a = c.getCanonicalName (r.names a) := by
      subst hr
      exact getName_eq (hinv.nonempty _ (hkey _ ha))
    refine ⟨hkey, hsame, ?_, ?_⟩
    · intro r a b hr ha hb heq hfind
      rw [Registry.addClient, if_pos]
      rw [hname r b hr hb, ← hsame _ _ ha hb heq, ← hname r a hr ha]
      simp [OrdMap.contains, hfind]
    · intro r a rnd src side position hr ha hfind hne heq
      have hdst : ∃ dst, c.isScreen dst = true ∧ (c.getNeighbor rnd src side position).1 = c.getCanonicalName dst := by
        rw [getNeighbor] at hne ⊢
        split at hne
        · exact absurd rfl hne
        · split at hne
          · exact absurd rfl hne
          · rename_i dst hlink
            refine ⟨dst.name, ?_, rfl⟩
            by_contra hunknown
            apply hne
            rw [isScreen, OrdMap.contains, Bool.not_eq_true, Option.isSome_eq_false_iff,
              Option.isNone_iff_eq_none] at hunknown
            rw [getCanonicalName, hunknown]
            rfl
      obtain ⟨dst, hscreen, hneighbor⟩ := hdst
      rw [hneighbor] at heq ⊢
      rw [hsame _ _ hscreen ha heq, ← hname r a hr ha, hfind]

end Config

/-- Every name of a screen leads to its key exactly if each alias stands below the screen as it was spelled first. -/
theorem readConfig_oneSpelling_iff {resolves : Name → Bool} {text : Name} {file : StoredConfig}
    (h : readConfig resolves text = .ok file) :
    file.config.OneSpelling ↔ Along (Reading.next resolves) Reading.SpelledAlias (getlines [] text) .start := by
  obtain ⟨t, hrun, -, rfl⟩ := readConfig_eq_ok.mp h
  have hinv : t.config.ReadNames := runFrom_invariant (I := fun s => s.config.ReadNames)
    (fun s _ t hs hnext => (Reading.step_of_next hnext).readNames hs) Reading.readNames_start hrun
  rw [Config.oneSpelling_iff_spelled hinv, iff_along (I := fun s => s.config.ReadNames)
    (P := fun s : Reading => s.config.Spelled) (fun s _ t hs hnext => (Reading.step_of_next hnext).readNames hs)
    (fun s _ t hs hnext => Reading.next_spelled hs hnext) Reading.readNames_start hrun]
  apply and_iff_right
  intro e he
  nomatch he

def aliasFile (screen : String) : Name :=
  ("section: screens\nDesk:\nend\nsection: aliases\n" ++ screen ++ ":\nwork\nend\n").toList

/-- The texts as lists, which are faster to evaluate. -/
lemma aliasFile_eq (screen : String) : aliasFile screen =
    "section: screens\nDesk:\nend\nsection: aliases\n".toList ++ screen.toList ++ ":\nwork\nend\n".toList := by
  rw [aliasFile, String.toList_append, String.toList_append]

lemma exists_ok_of_any {α β : Type} {x : Except α β} {P : β → Prop} [DecidablePred P]
    (h : x.toOption.any (fun b => decide (P b)) = true) : ∃ b, x = .ok b ∧ P b := by
  cases x with
  | error a => exact absurd h Bool.false_ne_true
  | ok b => exact ⟨b, rfl, of_decide_eq_true h⟩

theorem readConfig_oneSpelling_alias : ∃ file, readConfig (fun _ => true) (aliasFile "Desk") = .ok file ∧
    file.config.OneSpelling := by
  obtain ⟨file, hfile, -⟩ : ∃ file, readConfig (fun _ => true) (aliasFile "Desk") = .ok file ∧ True := by
    rw [aliasFile_eq, String.toList_ofList, String.toList_ofList, String.toList_ofList]
    exact exists_ok_of_any (by decide +kernel)
  exact ⟨file, hfile, (readConfig_oneSpelling_iff hfile).mpr (by decide +kernel)⟩

/-- The alias leads to `desk`, while the screen is stored as `Desk`. -/
theorem alias_spelled_otherwise :
    ¬ ∀ text file, readConfig (fun _ => true) text = .ok file → file.config.OneSpelling := by
  intro hall
  obtain ⟨file, hfile, hscreen, hkey⟩ : ∃ file, readConfig (fun _ => true) (aliasFile "desk") = .ok file ∧
      file.config.isScreen "work".toList = true ∧ file.config.getCanonicalName "work".toList ∉ file.config.keys :=
    exists_ok_of_any (by decide +kernel)
  exact hkey ((hall _ file hfile).key "work".toList hscreen)

end InputLeap
