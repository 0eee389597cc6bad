import Mathlib
import Columnar.Arguments

namespace Columnar.Arguments

/-! ### Words -/

/-- A word that cannot be taken for a switch. -/
def Plain (word : String) : Prop := word ≠ "" ∧ word.toList.head? ≠ some '-'

instance (word : String) : Decidable (Plain word) := inferInstanceAs (Decidable (_ ∧ _))

theorem Word.ofString_plain {word : String} (h : Plain word) : Word.ofString word = .plain := by
  unfold Word.ofString
  split
  · next heq => simp [Plain, heq] at h
  · next heq => simp [Plain, heq] at h
  · next heq => simp [Plain, heq] at h
  · rfl

def IsName (name : String) : Prop := name ≠ "" ∧ '=' ∉ name.toList

instance (name : String) : Decidable (IsName name) := inferInstanceAs (Decidable (_ ∧ _))

theorem IsName.takes {name : String} (h : IsName name) :
    ∀ c ∈ name.toList, (fun c : Char => decide (c ≠ '=')) c := by
  intro c hc
  simpa using fun heq : c = '=' => h.2 (heq ▸ hc)

theorem Word.ofString_long {name : String} (h : IsName name) :
    Word.ofString ("--" ++ name) = .long name none := by
  have hspan : name.toList.span (· ≠ '=') = (name.toList, []) := by
    rw [List.span_eq_takeWhile_dropWhile, List.takeWhile_eq_self_iff.mpr h.takes,
      List.dropWhile_eq_nil_iff.mpr h.takes]
  obtain ⟨c, cs, hname⟩ := List.exists_cons_of_ne_nil (mt String.toList_eq_nil_iff.mp h.1)
  have hword : ("--" ++ name).toList = '-' :: '-' :: c :: cs := by simp [← hname]
  rw [hname] at hspan
  simp only [Word.ofString, hword, hspan]
  simp [← hname]

theorem Word.ofString_attached {name : String} (h : IsName name) (value : String) :
    Word.ofString ("--" ++ name ++ "=" ++ value) = .long name (some value) := by
  have hspan : (name.toList ++ '=' :: value.toList).span (· ≠ '=') =
      (name.toList, '=' :: value.toList) := by
    rw [List.span_eq_takeWhile_dropWhile, List.takeWhile_append_of_pos h.takes,
      List.dropWhile_append_of_pos h.takes]
    simp
  obtain ⟨c, cs, hname⟩ := List.exists_cons_of_ne_nil (mt String.toList_eq_nil_iff.mp h.1)
  have hword : ("--" ++ name ++ "=" ++ value).toList = '-' :: '-' :: c :: (cs ++ '=' :: value.toList) := by
    simp [hname]
  rw [hname, List.cons_append] at hspan
  simp only [Word.ofString, hword, hspan]
  simp [← hname]

theorem Word.ofString_short {letter : Char} (h : letter ≠ '-') :
    Word.ofString (String.ofList ['-', letter]) = .short letter [] := by
  simp [Word.ofString, h]

/-! ### Spellings of a switch -/

/-- The words of a switch with its values. Only a single value can be attached. -/
inductive Spells (switch : Switch) : List String → List String → Prop
  | apart (values : List String) : Spells switch values (("--" ++ switch.long) :: values)
  | attached (value : String) : Spells switch [value] ["--" ++ switch.long ++ "=" ++ value]
  | short {letter : Char} (h : switch.short = some letter) (values : List String) :
    Spells switch values (String.ofList ['-', letter] :: values)

inductive SpellsAll : List (Switch × List String) → List String → Prop
  | nil : SpellsAll [] []
  | cons {switch : Switch} {values words rest : List String} {more : List (Switch × List String)}
    (first : Spells switch values words) (others : SpellsAll more rest) :
    SpellsAll ((switch, values) :: more) (words ++ rest)

/-- A level has a switch of this name and letter that takes values, and no subcommand looks like one. -/
structure Level.Offers (level : Level) (switch : Switch) : Prop where
  subcommands : ∀ name ∈ level.subcommands, Plain name
  name : IsName switch.long
  long : level.switches.find? (·.long = switch.long) = some switch
  letter : ∀ c, switch.short = some c → c ≠ '-'
  short : ∀ c, switch.short = some c → level.switches.find? (·.short = some c) = some switch
  role : switch.role = .single ∨ switch.role = .several

namespace Scan

/-- What a scan has been given once its last switch is finished. -/
structure Yields (scan : Scan) (given : List (String × List String)) : Prop where
  trailing : scan.trailing = false
  resolve : scan.resolve = .ok ⟨given, none, false⟩

variable {level : Level} {scan : Scan} {switch : Switch} {given : List (String × List String)}

theorem start_yields : Yields start [] := ⟨rfl, rfl⟩

theorem words_cons {word : String} (hscan : scan.trailing = false)
    (hword : scan.isAccepting ∨ word ∉ level.subcommands) (rest : List String) :
    words level scan (word :: rest) = (scan.takeWord level word >>= fun s => words level s rest) := by
  have hstop : (!scan.isAccepting && level.subcommands.contains word) = false := by
    rcases hword with h | h <;> simp [h]
  rw [words, hscan, hstop]
  rfl

theorem takeSwitch_apart (hrole : switch.role = .single ∨ switch.role = .several)
    (hscan : scan.Yields given) :
    scan.takeSwitch switch none = .ok ⟨given, some ⟨switch, [], true⟩, false⟩ := by
  rw [takeSwitch, hscan.resolve]
  rcases hrole with h | h <;> simp [h, bind, Except.bind, pure, Except.pure]

theorem takeSwitch_attached (hrole : switch.role = .single ∨ switch.role = .several)
    (hscan : scan.Yields given) (value : String) :
    scan.takeSwitch switch (some value) = give ⟨given, none, false⟩ switch [value] := by
  rw [takeSwitch, hscan.resolve]
  rcases hrole with h | h <;> simp [h, bind, Except.bind]

theorem give_eq {values : List String} (hvalues : values ≠ [])
    (honce : switch.role = .single → ∀ e ∈ given, e.1 ≠ switch.long) :
    give ⟨given, none, false⟩ switch values = .ok ⟨given ++ [(switch.long, values)], none, false⟩ := by
  rw [give, if_neg (by simpa using hvalues), if_neg]
  rintro ⟨hsingle, hany⟩
  obtain ⟨e, he, hlong⟩ := List.any_eq_true.mp hany
  exact honce hsingle e he (by simpa using hlong)

theorem takeLong_offered (hoffers : level.Offers switch) (scan : Scan) (value : Option String) :
    scan.takeLong level switch.long value = scan.takeSwitch switch value := by
  simp only [takeLong, hoffers.long]
  rcases hoffers.role with h | h <;> simp [h]

theorem takeWord_long (hoffers : level.Offers switch) (hscan : scan.Yields given) :
    scan.takeWord level ("--" ++ switch.long) = .ok ⟨given, some ⟨switch, [], true⟩, false⟩ := by
  rw [takeWord, Word.ofString_long hoffers.name, ← takeSwitch_apart hoffers.role hscan]
  exact takeLong_offered hoffers scan none

theorem takeWord_short {letter : Char} (hoffers : level.Offers switch) (hscan : scan.Yields given)
    (hletter : switch.short = some letter) :
    scan.takeWord level (String.ofList ['-', letter]) =
      .ok ⟨given, some ⟨switch, [], true⟩, false⟩ := by
  rw [takeWord, Word.ofString_short (hoffers.letter letter hletter)]
  simp only [takeShort, hoffers.short letter hletter]
  exact takeSwitch_apart hoffers.role hscan

theorem takeWord_attached (hoffers : level.Offers switch) (hscan : scan.Yields given)
    (value : String) :
    scan.takeWord level ("--" ++ switch.long ++ "=" ++ value) =
      give ⟨given, none, false⟩ switch [value] := by
  rw [takeWord, Word.ofString_attached hoffers.name, ← takeSwitch_attached hoffers.role hscan]
  exact takeLong_offered hoffers scan (some value)

theorem takeWord_value {word : String} (hword : Plain word) (taken : List String) :
    takeWord ⟨given, some ⟨switch, taken, true⟩, false⟩ level word =
      .ok ⟨given, some ⟨switch, taken ++ [word], switch.role = .several⟩, false⟩ := by
  rw [takeWord, Word.ofString_plain hword]
  rfl

/-- A switch takes the plain words behind it, the only one or as many as there are. -/
theorem words_values {values : List String} (hvalues : values ≠ []) (hplain : ∀ v ∈ values, Plain v)
    (hmany : switch.role = .several ∨ values.length = 1) (taken rest : List String) :
    words level ⟨given, some ⟨switch, taken, true⟩, false⟩ (values ++ rest) =
      words level ⟨given, some ⟨switch, taken ++ values, switch.role = .several⟩, false⟩ rest := by
  induction values generalizing taken with
  | nil => exact absurd rfl hvalues
  | cons value values ih =>
    obtain ⟨hvalue, hplain⟩ := List.forall_mem_cons.mp hplain
    rw [List.cons_append, words_cons rfl (Or.inl rfl), takeWord_value hvalue]
    change words level _ (values ++ rest) = _
    by_cases hlast : values = []
    · subst hlast
      rfl
    · have hseveral : switch.role = .several := by
        refine hmany.resolve_right fun hone => hlast ?_
        simpa using hone
      simp only [hseveral, decide_true] at ih ⊢
      rw [ih hlast hplain (Or.inl trivial) (taken ++ [value]), List.append_assoc,
        List.singleton_append]

theorem not_mem_subcommands (hoffers : level.Offers switch) {word : String}
    (hword : word.toList.head? = some '-') : word ∉ level.subcommands :=
  fun h => (hoffers.subcommands word h).2 hword

/-- After a switch in any spelling the scan has been given its values, and after a single one it takes no
more. -/
theorem words_spells {values spelled : List String} (hoffers : level.Offers switch)
    (hvalues : values ≠ []) (hplain : ∀ v ∈ values, Plain v)
    (hmany : switch.role = .several ∨ values.length = 1)
    (honce : switch.role = .single → ∀ e ∈ given, e.1 ≠ switch.long) (hscan : scan.Yields given)
    (h : Spells switch values spelled) (rest : List String) :
    ∃ next : Scan, next.Yields (given ++ [(switch.long, values)]) ∧
      (switch.role = .single → next.isAccepting = false) ∧
      words level scan (spelled ++ rest) = words level next rest := by
  have hgive := give_eq hvalues honce
  -- With its values behind it the switch stays unfinished until something else comes.
  have hbehind (word : String) (hdash : word.toList.head? = some '-')
      (hword : scan.takeWord level word = .ok ⟨given, some ⟨switch, [], true⟩, false⟩) :
      ∃ next : Scan, next.Yields (given ++ [(switch.long, values)]) ∧
        (switch.role = .single → next.isAccepting = false) ∧
        words level scan (word :: values ++ rest) = words level next rest := by
    refine ⟨⟨given, some ⟨switch, values, switch.role = .several⟩, false⟩, ⟨rfl, hgive⟩, ?_, ?_⟩
    · intro hsingle
      simp [isAccepting, hsingle]
    · rw [List.cons_append, words_cons hscan.trailing (Or.inr (not_mem_subcommands hoffers hdash)), hword]
      exact words_values hvalues hplain hmany [] rest
  cases h with
  | apart => exact hbehind _ (by simp) (takeWord_long hoffers hscan)
  | short hletter => exact hbehind _ (by simp) (takeWord_short hoffers hscan hletter)
  | attached value =>
    refine ⟨⟨given ++ [(switch.long, [value])], none, false⟩, ⟨rfl, rfl⟩, fun _ => rfl, ?_⟩
    rw [List.singleton_append,
      words_cons hscan.trailing (Or.inr (not_mem_subcommands hoffers (by simp))),
      takeWord_attached hoffers hscan, hgive]
    rfl

end Scan

/-! ### Spellings of a command line -/

/-- Switches that one level can be given together: all are its own, each has values that are plain, and a single
switch has one value and comes once. -/
structure Level.Admits (level : Level) (items : List (Switch × List String)) : Prop where
  offers : ∀ item ∈ items, level.Offers item.1
  values : ∀ item ∈ items, item.2 ≠ [] ∧ ∀ v ∈ item.2, Plain v
  many : ∀ item ∈ items, item.1.role = .several ∨ item.2.length = 1
  once : items.Pairwise fun a b => b.1.role = .single → a.1.long ≠ b.1.long

theorem Level.Admits.tail {level : Level} {item : Switch × List String}
    {items : List (Switch × List String)} (h : level.Admits (item :: items)) : level.Admits items where
  offers i hi := h.offers i (List.mem_cons_of_mem _ hi)
  values i hi := h.values i (List.mem_cons_of_mem _ hi)
  many i hi := h.many i (List.mem_cons_of_mem _ hi)
  once := h.once.of_cons

theorem Scan.words_spellsAll {level : Level} {items : List (Switch × List String)} {spelled : List String}
    (h : SpellsAll items spelled) (hadmits : level.Admits items) {scan : Scan}
    {given : List (String × List String)} (hscan : scan.Yields given)
    (hgiven : ∀ e ∈ given, ∀ item ∈ items, item.1.role = .single → e.1 ≠ item.1.long) :
    ∃ next : Scan, next.Yields (given ++ items.map fun item => (item.1.long, item.2)) ∧
      words level scan spelled = .ok (next, none) := by
  induction h generalizing scan given with
  | nil => exact ⟨scan, by simpa using hscan, rfl⟩
  | @cons switch values spelled rest more first others ih =>
    obtain ⟨hvalues, hplain⟩ := hadmits.values (switch, values) List.mem_cons_self
    obtain ⟨next, hnext, -, hwords⟩ := words_spells (hadmits.offers (switch, values) List.mem_cons_self)
      hvalues hplain (hadmits.many (switch, values) List.mem_cons_self)
      (fun hsingle e he => hgiven e he _ List.mem_cons_self hsingle) hscan first rest
    have hmore : ∀ e ∈ given ++ [(switch.long, values)], ∀ item ∈ more, item.1.role = .single →
        e.1 ≠ item.1.long := by
      intro e he item hitem
      rcases List.mem_append.mp he with he | he
      · exact hgiven e he item (List.mem_cons_of_mem _ hitem)
      · obtain rfl := List.mem_singleton.mp he
        exact List.rel_of_pairwise_cons hadmits.once hitem
    obtain ⟨last, hlast, hend⟩ := ih hadmits.tail hnext hmore
    refine ⟨last, by simpa using hlast, ?_⟩
    rw [hwords, hend]

theorem Scan.words_subcommand {level : Level} {scan : Scan} {name : String} (rest : List String)
    (hscan : scan.trailing = false) (haccepting : scan.isAccepting = false)
    (hname : name ∈ level.subcommands) :
    words level scan (name :: rest) = .ok (scan, some (name, rest)) := by
  simp [words, hscan, haccepting, hname]

variable {config : Option String} {command : Command} {front back : List (List String)}

def configItems (config : Option String) : List (Switch × List String) :=
  config.toList.map fun path => (configSwitch, [path])

def commandItems (command : Command) (front back : List (List String)) : List (Switch × List String) :=
  front.map (fileSwitch command.subcommand, ·) ++
    (columnSwitch, [command.column]) :: back.map (fileSwitch command.subcommand, ·)

/-- The command lines of a configuration and a command: the configuration stands in front of the subcommand;
behind it stand the column once and the files in their order, cut into groups of which each has its switch. -/
inductive Spelled (config : Option String) (command : Command) : List String → Prop
  | line {front back : List (List String)} {before after : List String}
    (hfiles : (front ++ back).flatten = command.files) (hgroups : ∀ group ∈ front ++ back, group ≠ [])
    (hbefore : SpellsAll (configItems config) before)
    (hafter : SpellsAll (commandItems command front back) after) :
    Spelled config command (before ++ command.subcommand.name :: after)

theorem offers_config : topLevel.Offers configSwitch where
  subcommands := by decide
  name := by decide
  long := by decide
  letter c h := by cases h; decide
  short c h := by cases h; decide
  role := Or.inl rfl

theorem offers_file (subcommand : Subcommand) :
    (level subcommand).Offers (fileSwitch subcommand) where
  subcommands := nofun
  name := by cases subcommand <;> decide
  long := by cases subcommand <;> decide
  letter c h := by cases subcommand <;> cases h <;> decide
  short c h := by cases subcommand <;> cases h <;> decide
  role := by cases subcommand <;> decide

theorem long_fileSwitch (subcommand : Subcommand) : (fileSwitch subcommand).long = "file" := by
  cases subcommand <;> rfl

theorem offers_column (subcommand : Subcommand) : (level subcommand).Offers columnSwitch where
  subcommands := nofun
  name := by decide
  long := by cases subcommand <;> decide
  letter := nofun
  short := nofun
  role := Or.inl rfl

theorem flatten_eq_singleton {groups : List (List String)} {file : String}
    (h : groups.flatten = [file]) (hgroups : ∀ group ∈ groups, group ≠ []) : groups = [[file]] := by
  cases groups with
  | nil => cases h
  | cons group groups =>
    obtain ⟨hgroup, hrest⟩ := List.forall_mem_cons.mp hgroups
    obtain ⟨hempty, -⟩ | ⟨hone, hnone⟩ := List.append_eq_singleton_iff.mp h
    · exact absurd hempty hgroup
    · cases groups with
      | nil => rw [hone]
      | cons next groups =>
        have hnext := List.flatten_eq_nil_iff.mp hnone next List.mem_cons_self
        exact absurd hnext (hrest next List.mem_cons_self)

theorem groups_of_single (hrole : (fileSwitch command.subcommand).role = .single)
    (hfiles : (front ++ back).flatten = command.files) (hgroups : ∀ group ∈ front ++ back, group ≠ []) :
    ∃ file, front ++ back = [[file]] := by
  cases command with
  | merge files column => cases hrole
  | unique file column | valueCounts file column | dictionaryEncode file column =>
    exact ⟨file, flatten_eq_singleton hfiles hgroups⟩

theorem mem_commandItems {item : Switch × List String} (h : item ∈ commandItems command front back) :
    (item.1 = fileSwitch command.subcommand ∧ item.2 ∈ front ++ back) ∨
      item = (columnSwitch, [command.column]) := by
  simp only [commandItems, List.mem_append, List.mem_cons, List.mem_map] at h
  rcases h with ⟨group, hgroup, rfl⟩ | rfl | ⟨group, hgroup, rfl⟩
  · exact Or.inl ⟨rfl, List.mem_append_left _ hgroup⟩
  · exact Or.inr rfl
  · exact Or.inl ⟨rfl, List.mem_append_right _ hgroup⟩

theorem admits_command (hfiles : (front ++ back).flatten = command.files)
    (hgroups : ∀ group ∈ front ++ back, group ≠ [])
    (hplain : ∀ word ∈ command.column :: command.files, Plain word) :
    (level command.subcommand).Admits (commandItems command front back) where
  offers item hitem := by
    rcases mem_commandItems hitem with ⟨hswitch, -⟩ | rfl
    · rw [hswitch]
      exact offers_file _
    · exact offers_column _
  values item hitem := by
    rcases mem_commandItems hitem with ⟨-, hgroup⟩ | rfl
    · refine ⟨hgroups _ hgroup, fun word hword => hplain word (List.mem_cons_of_mem _ ?_)⟩
      rw [← hfiles]
      exact List.mem_flatten.mpr ⟨_, hgroup, hword⟩
    · refine ⟨List.cons_ne_nil _ _, fun word hword => ?_⟩
      rw [List.mem_singleton.mp hword]
      exact hplain _ List.mem_cons_self
  many item hitem := by
    rcases mem_commandItems hitem with ⟨hswitch, hgroup⟩ | rfl
    · rcases (offers_file command.subcommand).role with hrole | hrole
      · obtain ⟨file, hone⟩ := groups_of_single hrole hfiles hgroups
        rw [hone] at hgroup
        exact Or.inr (by rw [List.mem_singleton.mp hgroup]; rfl)
      · exact Or.inl (hswitch ▸ hrole)
    · exact Or.inr rfl
  -- Files that come once are to be kept apart only from the column, and files of several groups from nothing.
  once := by
    rcases (offers_file command.subcommand).role with hrole | hrole
    · obtain ⟨file, hone⟩ := groups_of_single hrole hfiles hgroups
      rcases List.append_eq_singleton_iff.mp hone with ⟨rfl, rfl⟩ | ⟨rfl, rfl⟩
      · simp [commandItems, long_fileSwitch, columnSwitch]
      · simp [commandItems, long_fileSwitch, columnSwitch]
    · have hfree (groups : List (List String)) : groups.Pairwise fun _ _ => True :=
        List.pairwise_of_forall fun _ _ => trivial
      simp [commandItems, List.pairwise_append, List.pairwise_map, hrole, long_fileSwitch, columnSwitch, hfree]

theorem make?_command (h : command.files ≠ []) :
    Command.make? command.subcommand command.files command.column = some command := by
  cases command with
  | merge files column =>
    cases files with
    | nil => exact absurd rfl h
    | cons file files => rfl
  | unique file column | valueCounts file column | dictionaryEncode file column => rfl

theorem ofName?_name (subcommand : Subcommand) : Subcommand.ofName? subcommand.name = some subcommand := by
  cases subcommand <;> rfl

theorem values_file (command : Command) (front back : List (List String)) :
    Scan.values ⟨(commandItems command front back).map fun item => (item.1.long, item.2), none, false⟩
      (fileSwitch command.subcommand).long = (front ++ back).flatten := by
  simp [Scan.values, commandItems, long_fileSwitch, columnSwitch, List.filter_map, Function.comp_def]

theorem values_column (command : Command) (front back : List (List String)) :
    Scan.values ⟨(commandItems command front back).map fun item => (item.1.long, item.2), none, false⟩
      columnSwitch.long = [command.column] := by
  simp [Scan.values, commandItems, long_fileSwitch, columnSwitch, List.filter_map, Function.comp_def]

theorem parseCommand_spelled {words : List String} (hne : command.files ≠ [])
    (hfiles : (front ++ back).flatten = command.files) (hgroups : ∀ group ∈ front ++ back, group ≠ [])
    (hplain : ∀ word ∈ command.column :: command.files, Plain word)
    (h : SpellsAll (commandItems command front back) words) :
    parseCommand command.subcommand words = .ok command := by
  obtain ⟨scan, hscan, hwords⟩ := Scan.words_spellsAll h (admits_command hfiles hgroups hplain)
    Scan.start_yields nofun
  rw [List.nil_append] at hscan
  simp only [parseCommand, hwords, hscan.resolve, bind, Except.bind, values_file, values_column, hfiles,
    make?_command hne]
  rfl

theorem words_config {before : List String} (hplain : ∀ path ∈ config, Plain path)
    (h : SpellsAll (configItems config) before) (subcommand : Subcommand) (after : List String) :
    ∃ scan : Scan, scan.Yields ((configItems config).map fun item => (item.1.long, item.2)) ∧
      Scan.words topLevel .start (before ++ subcommand.name :: after) =
        .ok (scan, some (subcommand.name, after)) := by
  have hname : subcommand.name ∈ topLevel.subcommands := by cases subcommand <;> decide
  cases config with
  | none =>
    cases h
    exact ⟨.start, Scan.start_yields, Scan.words_subcommand after rfl rfl hname⟩
  | some path =>
    obtain _ | ⟨first, others⟩ := h
    cases others
    obtain ⟨scan, hscan, haccepting, hwords⟩ := Scan.words_spells offers_config (List.cons_ne_nil _ _)
      (by simpa using hplain path rfl) (Or.inr rfl)
      (fun _ _ he => absurd he List.not_mem_nil) Scan.start_yields first
      (subcommand.name :: after)
    refine ⟨scan, hscan, ?_⟩
    rw [List.append_nil, hwords]
    exact Scan.words_subcommand after hscan.trailing (haccepting rfl) hname

theorem values_config (config : Option String) :
    (Scan.values ⟨(configItems config).map fun item => (item.1.long, item.2), none, false⟩
      configSwitch.long).head? = config := by
  cases config <;> simp [Scan.values, configItems]

/-- Every spelling of a command line reads as what it spells, in whatever order its switches stand and in
whatever groups its files come. -/
theorem parse_spelled {words : List String} (hne : command.files ≠ [])
    (hplain : ∀ word ∈ config.toList ++ command.column :: command.files, Plain word)
    (h : Spelled config command words) : parse words = .ok ⟨config, command⟩ := by
  obtain ⟨hpath, hrest⟩ := List.forall_mem_append.mp hplain
  obtain @⟨front, back, before, after, hfiles, hgroups, hbefore, hafter⟩ := h
  obtain ⟨scan, hscan, hwords⟩ := words_config (by simpa using hpath) hbefore command.subcommand after
  have hcommand := parseCommand_spelled hne hfiles hgroups hrest hafter
  simp only [parse, hwords, ofName?_name, hcommand, hscan.resolve, bind, Except.bind, pure, Except.pure,
    values_config]

/-- A configuration and a column named like subcommands, with the column between two groups of files. -/
theorem parse_spelled_groups :
    (Command.merge ["a", "b", "c"] "unique").files ≠ [] ∧
    (∀ word ∈ ["help", "unique", "a", "b", "c"], Plain word) ∧
    Spelled (some "help") (.merge ["a", "b", "c"] "unique")
      ["-c", "help", "merge", "-f", "a", "b", "--column=unique", "--file=c"] ∧
    parse ["-c", "help", "merge", "-f", "a", "b", "--column=unique", "--file=c"] =
      .ok ⟨some "help", .merge ["a", "b", "c"] "unique"⟩ := by
  have hplain : ∀ word ∈ ["help", "unique", "a", "b", "c"], Plain word := by decide
  have hbefore : SpellsAll (configItems (some "help")) ["-c", "help"] := .cons (.short rfl ["help"]) .nil
  have hafter : SpellsAll (commandItems (.merge ["a", "b", "c"] "unique") [["a", "b"]] [["c"]])
      ["-f", "a", "b", "--column=unique", "--file=c"] :=
    .cons (.short rfl ["a", "b"]) (.cons (.attached "unique") (.cons (.attached "c") .nil))
  have h := Spelled.line rfl (by decide) hbefore hafter
  exact ⟨List.cons_ne_nil _ _, hplain, h, parse_spelled (List.cons_ne_nil _ _) hplain h⟩

end Columnar.Arguments
