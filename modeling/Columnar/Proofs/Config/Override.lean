import Mathlib
import Columnar.Config

namespace Columnar.Config

open Toml (Value)

/-! ### Entries under one key -/

def AtMost (key : String) (settings : Settings) : Prop :=
  settings = [] ∨ ∃ value, settings = [(key, value)]

variable {key : String} {settings : Settings}

theorem AtMost.put (h : AtMost key settings) (value : Value) :
    settings.put key value = [(key, value)] := by
  rcases h with rfl | ⟨old, rfl⟩
  · rfl
  · simp [Settings.put]

theorem find?_singleton (key : String) (value : Value) :
    Settings.find? [(key, value)] key = some value := by
  simp [Settings.find?]

theorem AtMost.overlayEntries (h : AtMost key settings) {entries : List (String × Value)}
    (hkeys : ∀ e ∈ entries, e.1 = key) : AtMost key (overlayEntries settings entries) := by
  induction entries generalizing settings with
  | nil =>
    rw [Config.overlayEntries]
    exact h
  | cons e entries ih =>
    obtain ⟨he, hentries⟩ := List.forall_mem_cons.mp hkeys
    obtain ⟨_, value⟩ := e
    obtain rfl : _ = key := he
    rw [Config.overlayEntries, h.put]
    exact ih (Or.inr ⟨_, rfl⟩) hentries

/-- A table grows by the keys that it is given, and any other value leaves no entries. -/
theorem AtMost.overlay {old : Option Value} {value : Value} (h : AtMost key (Settings.ofValue old))
    (hkeys : ∀ e ∈ Settings.ofValue (some value), e.1 = key) :
    AtMost key (Settings.ofValue (some (overlay old value))) := by
  cases value with
  | table entries =>
    rw [Config.overlay]
    exact h.overlayEntries hkeys
  | _ =>
    rw [Config.overlay]
    · exact Or.inl rfl
    · exact nofun

/-! ### Documents of one setting -/

/-- A document with no key but that of the hash settings, and if that is a table, none in it but the
capacity. -/
def Narrow (document : List (String × Value)) : Prop :=
  ∀ e ∈ document, e.1 = hashKey ∧ ∀ inner ∈ Settings.ofValue (some e.2), inner.1 = memoCapacityKey

/-- What is left of such documents: nothing, or one entry of which at most the capacity is set. -/
structure Prepared (settings : Settings) : Prop where
  hash : AtMost hashKey settings
  capacity : AtMost memoCapacityKey (Settings.ofValue (settings.find? hashKey))

theorem Prepared.nil : Prepared [] := ⟨Or.inl rfl, Or.inl rfl⟩

theorem add_hash (settings : Settings) (value : Value) :
    settings.add hashKey value = .ok (settings.put hashKey (overlay (settings.find? hashKey) value)) :=
  rfl

theorem Prepared.add_hash (h : Prepared settings) {value : Value}
    (hkeys : ∀ e ∈ Settings.ofValue (some value), e.1 = memoCapacityKey) :
    ∃ next, settings.add hashKey value = .ok next ∧ Prepared next := by
  refine ⟨_, Config.add_hash settings value, ?_⟩
  rw [h.hash.put]
  refine ⟨Or.inr ⟨_, rfl⟩, ?_⟩
  rw [find?_singleton]
  exact h.capacity.overlay hkeys

theorem Prepared.addDocument (h : Prepared settings) {document : List (String × Value)}
    (hdocument : Narrow document) :
    ∃ next, settings.addDocument document = .ok next ∧ Prepared next := by
  induction document generalizing settings with
  | nil => exact ⟨settings, rfl, h⟩
  | cons e document ih =>
    obtain ⟨he, hrest⟩ := List.forall_mem_cons.mp hdocument
    obtain ⟨_, value⟩ := e
    obtain rfl : _ = hashKey := he.1
    obtain ⟨next, hnext, hprepared⟩ := h.add_hash he.2
    obtain ⟨last, hlast, hdone⟩ := ih hprepared hrest
    refine ⟨last, ?_, hdone⟩
    rw [Settings.addDocument, List.foldlM_cons]
    change (settings.add hashKey value >>= fun s => Settings.addDocument s document) = _
    rw [hnext]
    exact hlast

/-! ### Variables -/

def lowerName (name : String) : List Char := name.toList.map lowerChar

def Prefixed (name : String) : Prop := envPrefix.toList <+: lowerName name

def capacityVariable : String := "COLKERN_HASH__MEMO_CAPACITY"

def capacityPath : String := "hash.memo_capacity"

theorem envKey?_eq_none {name : String} (h : ¬Prefixed name) : envKey? name = none := by
  refine if_neg ?_
  rwa [List.isPrefixOf_iff_prefix]

theorem envKey?_capacityVariable {name : String} (h : lowerName name = lowerName capacityVariable) :
    envKey? name = some capacityPath := by
  unfold lowerName at h
  simp only [envKey?, h]
  decide

/-- The value of a variable is no table, so nothing of what was there before is left in it. -/
theorem overlay_envValue (old : Option Value) (text : String) :
    overlay old (envValue text) = envValue text := by
  unfold envValue
  split
  · rfl
  · rfl
  · dsimp only
    split
    · rfl
    · split <;> rfl

theorem Prepared.add_capacity (h : Prepared settings) (text : String) :
    settings.add capacityPath (envValue text) =
      .ok [(hashKey, .table [(memoCapacityKey, envValue text)])] := by
  have hpath : KeyPath.ofKey capacityPath = ⟨hashKey, [.entry memoCapacityKey]⟩ := by decide
  have hset : settings.set ⟨hashKey, [.entry memoCapacityKey]⟩ (envValue text) =
      [(hashKey, .table [(memoCapacityKey, envValue text)])] := by
    simp only [Settings.set, setAt, overlay_envValue, h.capacity.put, h.hash.put]
  simp only [Settings.add, hpath, hset]
  rfl

theorem addEnvironment_other {name : String} (h : ¬Prefixed name) (text : String)
    (rest : List (String × String)) :
    addEnvironment settings ((name, text) :: rest) = addEnvironment settings rest := by
  simp only [addEnvironment, List.foldlM_cons, envKey?_eq_none h]
  rfl

theorem addEnvironment_capacity {name : String} (h : lowerName name = lowerName capacityVariable)
    (text : String) (rest : List (String × String)) :
    addEnvironment settings ((name, text) :: rest) =
      (settings.add capacityPath (envValue text) >>= fun s => addEnvironment s rest) := by
  simp only [addEnvironment, List.foldlM_cons, envKey?_capacityVariable h]

theorem addEnvironment_unset {environment : List (String × String)}
    (h : ∀ e ∈ environment, ¬Prefixed e.1) : addEnvironment settings environment = .ok settings := by
  induction environment with
  | nil => rfl
  | cons e environment ih =>
    obtain ⟨he, hrest⟩ := List.forall_mem_cons.mp h
    rw [addEnvironment_other he]
    exact ih hrest

theorem addEnvironment_append (before after : List (String × String)) :
    addEnvironment settings (before ++ after) =
      (addEnvironment settings before >>= fun s => addEnvironment s after) :=
  List.foldlM_append

/-- One variable gives the capacity this text, and no other has the prefix. -/
def SetsCapacity (environment : List (String × String)) (text : String) : Prop :=
  ∃ before name after, environment = before ++ (name, text) :: after ∧
    lowerName name = lowerName capacityVariable ∧ ∀ e ∈ before ++ after, ¬Prefixed e.1

theorem Prepared.addEnvironment (h : Prepared settings) {environment : List (String × String)}
    {text : String} (hsets : SetsCapacity environment text) :
    addEnvironment settings environment =
      .ok [(hashKey, .table [(memoCapacityKey, envValue text)])] := by
  obtain ⟨before, name, after, rfl, hname, hothers⟩ := hsets
  obtain ⟨hbefore, hafter⟩ := List.forall_mem_append.mp hothers
  rw [addEnvironment_append, addEnvironment_unset hbefore]
  change Config.addEnvironment settings ((name, text) :: after) = _
  rw [addEnvironment_capacity hname, h.add_capacity]
  exact addEnvironment_unset hafter

/-! ### Loading -/

/-- The same configuration, or a fault of each. The texts of the faults may differ. -/
def SameConfig (a b : Except Failure Config) : Prop :=
  (∃ config, a = .ok config ∧ b = .ok config) ∨
    ∃ cause cause', a = .error (.config cause) ∧ b = .error (.config cause')

theorem sameConfig_ofSettings (settings : Settings) :
    SameConfig (ofSettings settings) (ofSettings settings) := by
  unfold ofSettings
  split
  · exact Or.inl ⟨_, rfl, rfl⟩
  · exact Or.inr ⟨_, _, rfl, rfl⟩

variable {text value : String} {document : List (String × Value)}
  {environment : List (String × String)}

theorem readDocument_narrow (h : Toml.document? text = some document) (hnarrow : Narrow document) :
    ∃ next, readDocument text = .ok next ∧ Prepared next := by
  rw [readDocument, h]
  exact Prepared.nil.addDocument hnarrow

theorem load_none (h : SetsCapacity environment value) :
    load none environment = ofSettings [(hashKey, .table [(memoCapacityKey, envValue value)])] := by
  simp only [load, Prepared.nil.addEnvironment h, bind, Except.bind, pure, Except.pure]

theorem load_narrow (h : Toml.document? text = some document) (hnarrow : Narrow document)
    (hsets : SetsCapacity environment value) :
    load (some (some text)) environment =
      ofSettings [(hashKey, .table [(memoCapacityKey, envValue value)])] := by
  obtain ⟨next, hread, hprepared⟩ := readDocument_narrow h hnarrow
  simp only [load, hread, hprepared.addEnvironment hsets, bind, Except.bind]

theorem load_unset (text : String) (h : ∀ e ∈ environment, ¬Prefixed e.1) :
    load (some (some text)) environment = ofText text := by
  unfold load ofText
  cases hread : readDocument text with
  | error e => simp only [hread, bind, Except.bind]
  | ok settings => simp only [hread, addEnvironment_unset h, bind, Except.bind]

theorem ofSettings_capacity (value : Value) :
    ofSettings? [(hashKey, .table [(memoCapacityKey, value)])] =
      (capacity? value).map fun n => ⟨⟨n⟩⟩ := by
  simp [ofSettings?, hash?, find?_singleton, Option.map_map, Function.comp_def]

/-- A variable for the capacity decides alone: with a file of no other setting the configuration is that
without a file, and it is there whenever the variable's text reads as a capacity. Without a variable of the
prefix the configuration is that of the file's text. -/
theorem load_overrides (h : Toml.document? text = some document) (hnarrow : Narrow document)
    (environment : List (String × String)) :
    (∀ value, SetsCapacity environment value →
      SameConfig (load (some (some text)) environment) (load none environment) ∧
      ∀ config, load (some (some text)) environment = .ok config ↔
        capacity? (envValue value) = some config.hash.memoCapacity) ∧
    ((∀ e ∈ environment, ¬Prefixed e.1) →
      SameConfig (load (some (some text)) environment) (ofText text)) := by
  refine ⟨fun value hsets => ⟨?_, fun config => ?_⟩, fun hunset => ?_⟩
  · rw [load_narrow h hnarrow hsets, load_none hsets]
    exact sameConfig_ofSettings _
  · rw [load_narrow h hnarrow hsets, ofSettings, ofSettings_capacity]
    cases capacity? (envValue value) with
    | none => simp
    | some n =>
      obtain ⟨⟨m⟩⟩ := config
      simp
  · obtain ⟨next, hread, -⟩ := readDocument_narrow h hnarrow
    rw [load_unset text hunset, ofText, hread]
    exact sameConfig_ofSettings next

/-- A negative capacity in the file does no harm beside the variable, whatever the case of its letters, and is a
fault without it. -/
theorem load_overrides_negative :
    let text := "[hash]\nmemo_capacity = -1"
    let document := [(hashKey, Value.table [(memoCapacityKey, .integer (-1))])]
    let environment := [("HOME", "/"), ("Colkern_Hash__MEMO_capacity", "16")]
    Toml.document? text = some document ∧ Narrow document ∧ SetsCapacity environment "16" ∧
    load (some (some text)) environment = .ok ⟨⟨16⟩⟩ ∧
    SameConfig (load (some (some text)) environment) (load none environment) ∧
    SameConfig (load (some (some text)) []) (ofText text) := by
  intro text document environment
  have hdocument : Toml.document? text = some document := by cbv
  have hnarrow : Narrow document := by
    intro e he
    obtain rfl := List.mem_singleton.mp he
    exact ⟨rfl, fun inner hinner => by rw [List.mem_singleton.mp hinner]⟩
  have hsets : SetsCapacity environment "16" :=
    ⟨[("HOME", "/")], "Colkern_Hash__MEMO_capacity", [], rfl, by decide, by
      intro e he
      obtain rfl := List.mem_singleton.mp he
      unfold Prefixed
      decide⟩
  obtain ⟨hsame, hload⟩ := (load_overrides hdocument hnarrow environment).1 "16" hsets
  refine ⟨hdocument, hnarrow, hsets, (hload _).mpr ?_, hsame, ?_⟩
  · cbv
  · exact (load_overrides hdocument hnarrow []).2 (by simp)

end Columnar.Config

