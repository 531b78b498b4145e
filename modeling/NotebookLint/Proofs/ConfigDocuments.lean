import Mathlib.Data.Option.Basic
import NotebookLint.Config
import NotebookLint.Proofs.Fallible

/-! The settings that a document gives. Five of its values have to be of a certain kind, and the first
of them that is not decides the fault. The severity and the options of the rules may be of any kind. -/

set_option autoImplicit false

namespace NotebookLint

namespace Config

/-! ## Values in a document -/

/-- The value at the end of a path of keys. -/
def valueAt? : List String → Toml → Option Toml
  | [], value => some value
  | key :: keys, .table entries => (Toml.Table.get? entries key.toList).bind (valueAt? keys)
  | _ :: _, _ => none

def setting (name : String) : List String :=
  ["tool", "cellint", name]

def IsTable (value : Toml) : Prop :=
  ∃ entries, value = .table entries

/-- What stands at a path is a table, if anything stands there. -/
def TableAt (document : Toml) (keys : List String) : Prop :=
  ∀ value, valueAt? keys document = some value → IsTable value

/-- The rule names that a value lists: the items of a list of texts, the keys of a table or the
characters of a text. -/
inductive ListsNames : Toml → List Text → Prop where
  | items {written : List Text} : ListsNames (.array (written.map .string)) (written.map ruleName)
  | keys {entries : Toml.Table} : ListsNames (.table entries) (entries.map fun entry => ruleName entry.1)
  | characters {text : Text} : ListsNames (.string text) (text.map fun char => ruleName [char])

/-- What is wrong with a value that lists no rule names: an item of it is no text, or it cannot be
iterated over. -/
inductive ListFault : Toml → ConfigFault → Prop where
  | item {written : List Text} {item : Toml} {rest : List Toml} : (∀ text, item ≠ .string text) →
      ListFault (.array (written.map .string ++ item :: rest))
        (.lacksOperation (kindName item) "strip")
  | value {value : Toml} : (∀ items, value ≠ .array items) → (∀ entries, value ≠ .table entries) →
      (∀ text, value ≠ .string text) → ListFault value (.notIterable (kindName value))

/-- What stands at a path lists rule names, if anything stands there. -/
def NamesAt (document : Toml) (keys : List String) : Prop :=
  ∀ value, valueAt? keys document = some value → ∃ names, ListsNames value names

/-- The faults of a document, each if there is none of the kinds before it. -/
inductive FaultIn (document : Toml) : ConfigFault → Prop where
  | tool {value : Toml} : valueAt? ["tool"] document = some value → ¬ IsTable value →
      FaultIn document (.lacksOperation (kindName value) "get")
  | settings {value : Toml} : valueAt? ["tool", "cellint"] document = some value → ¬ IsTable value →
      FaultIn document (.lacksOperation (kindName value) "get")
  | rules {value : Toml} : valueAt? (setting "rules") document = some value → ¬ IsTable value →
      FaultIn document (.lacksOperation (kindName value) "items")
  | select {value : Toml} {fault : ConfigFault} : TableAt document (setting "rules") →
      valueAt? (setting "select") document = some value → ListFault value fault →
      FaultIn document fault
  | ignore {value : Toml} {fault : ConfigFault} : TableAt document (setting "rules") →
      NamesAt document (setting "select") →
      valueAt? (setting "ignore") document = some value → ListFault value fault →
      FaultIn document fault

/-- Every value that has to be of a certain kind is of that kind. -/
structure WellTyped (document : Toml) : Prop where
  tool : TableAt document ["tool"]
  settings : TableAt document ["tool", "cellint"]
  rules : TableAt document (setting "rules")
  select : NamesAt document (setting "select")
  ignore : NamesAt document (setting "ignore")

/-- A document gives these settings, with these entries in the log. -/
structure Describes (document : Toml) (config : Config) (log : List LogEntry) : Prop where
  tool : TableAt document ["tool"]
  settings : TableAt document ["tool", "cellint"]
  rules : ∃ rules, (valueAt? (setting "rules") document).getD (.table []) = .table rules ∧
    config.options = ruleOptions rules
  select : Option.Rel ListsNames (valueAt? (setting "select") document) config.select
  ignore : ListsNames ((valueAt? (setting "ignore") document).getD (.array [])) config.ignore
  severity : severity (valueAt? (setting "min_severity") document) = (config.minSeverity, log)

/-! ## Lists of rule names -/

theorem itemName_eq_ok_iff {item : Toml} {name : Text} :
    itemName item = .ok name ↔ ∃ written, item = .string written ∧ ruleName written = name := by
  cases item <;> simp [itemName]

theorem itemName_eq_error_iff {item : Toml} {fault : ConfigFault} :
    itemName item = .error fault ↔
      (∀ text, item ≠ .string text) ∧ .lacksOperation (kindName item) "strip" = fault := by
  cases item <;> simp [itemName]

theorem mapM_itemName_eq_ok {items : List Toml} {names : List Text} :
    items.mapM itemName = .ok names ↔
      ∃ written : List Text, items = written.map .string ∧ names = written.map ruleName := by
  rw [mapM_eq_ok]
  constructor
  · intro read
    induction read with
    | nil => exact ⟨[], rfl, rfl⟩
    | cons first _ ih =>
        obtain ⟨text, rfl, rfl⟩ := itemName_eq_ok_iff.mp first
        obtain ⟨written, rfl, rfl⟩ := ih
        exact ⟨text :: written, rfl, rfl⟩
  · intro read
    obtain ⟨written, rfl, rfl⟩ := read
    rw [List.forall₂_map_left_iff, List.forall₂_map_right_iff, List.forall₂_same]
    exact fun _ _ => rfl

theorem ruleSet_eq_ok_iff {value : Toml} {names : List Text} :
    ruleSet value = .ok names ↔ ListsNames value names := by
  constructor
  · intro read
    cases value with
    | array items =>
        obtain ⟨written, rfl, rfl⟩ := mapM_itemName_eq_ok.mp read
        exact .items
    | table => cases read; exact .keys
    | string => cases read; exact .characters
    | integer | float | boolean | dateTime | date | time => cases read
  · intro lists
    cases lists with
    | items => exact mapM_itemName_eq_ok.mpr ⟨_, rfl, rfl⟩
    | keys => rfl
    | characters => rfl

theorem ruleSet_eq_error_iff {value : Toml} {fault : ConfigFault} :
    ruleSet value = .error fault ↔ ListFault value fault := by
  constructor
  · intro failed
    cases value with
    | array items =>
        obtain ⟨before, item, rest, rfl, found, names, read⟩ := mapM_eq_error.mp failed
        obtain ⟨written, rfl, -⟩ := mapM_itemName_eq_ok.mp read
        obtain ⟨noText, rfl⟩ := itemName_eq_error_iff.mp found
        exact .item noText
    | table => cases failed
    | string => cases failed
    | integer | float | boolean | dateTime | date | time =>
        cases failed
        exact .value nofun nofun nofun
  · intro faulty
    cases faulty with
    | @item written item rest noText =>
        have read := mapM_itemName_eq_ok.mpr ⟨written, rfl, rfl⟩
        have found := itemName_eq_error_iff.mpr ⟨noText, rfl⟩
        exact mapM_eq_error.mpr ⟨_, item, rest, rfl, found, _, read⟩
    | value noList noTable noText =>
        cases value with
        | array items => exact absurd rfl (noList items)
        | table entries => exact absurd rfl (noTable entries)
        | string text => exact absurd rfl (noText text)
        | integer | float | boolean | dateTime | date | time => rfl

theorem exists_selects_iff {document : Toml} {keys : List String} :
    (∃ select, Option.Rel ListsNames (valueAt? keys document) select) ↔ NamesAt document keys := by
  rw [NamesAt]
  cases valueAt? keys document with
  | none => simpa using ⟨none, Option.Rel.none⟩
  | some value =>
      constructor
      · intro present
        obtain ⟨select, lists⟩ := present
        cases lists with
        | some lists =>
            intro other same
            cases same
            exact ⟨_, lists⟩
      · intro present
        obtain ⟨names, lists⟩ := present value rfl
        exact ⟨some names, .some lists⟩

theorem exists_ignores_iff {document : Toml} {keys : List String} :
    (∃ ignore, ListsNames ((valueAt? keys document).getD (.array [])) ignore) ↔
      NamesAt document keys := by
  rw [NamesAt]
  cases valueAt? keys document with
  | none =>
      have empty : ListsNames (.array []) [] := @ListsNames.items []
      simpa using ⟨[], empty⟩
  | some value => simp

/-! ## Tables -/

section Tables

variable {operation key : String} {entries inner : Toml.Table}

theorem tableOf_eq_ok_iff {value : Toml} :
    tableOf operation value = .ok inner ↔ value = .table inner := by
  cases value <;> simp [tableOf]

theorem tableOf_eq_error_iff {value : Toml} {fault : ConfigFault} :
    tableOf operation value = .error fault ↔
      ¬ IsTable value ∧ .lacksOperation (kindName value) operation = fault := by
  cases value <;> simp [tableOf, IsTable]

theorem valueAt?_single (key : String) (entries : Toml.Table) :
    valueAt? [key] (.table entries) = Toml.Table.get? entries key.toList := by
  cases found : Toml.Table.get? entries key.toList <;> simp [valueAt?, found]

theorem subtable_eq_ok_iff :
    subtable operation key entries = .ok inner ↔
      (valueAt? [key] (.table entries)).getD (.table []) = .table inner := by
  rw [subtable, tableOf_eq_ok_iff, valueAt?_single]

theorem subtable_eq_error_iff {fault : ConfigFault} :
    subtable operation key entries = .error fault ↔
      ∃ value, valueAt? [key] (.table entries) = some value ∧ ¬ IsTable value ∧
        .lacksOperation (kindName value) operation = fault := by
  rw [subtable, tableOf_eq_error_iff, valueAt?_single]
  cases Toml.Table.get? entries key.toList with
  | none => simp [IsTable]
  | some value => simp

theorem exists_subtable_iff {document : Toml} {keys : List String} :
    (∃ inner, (valueAt? keys document).getD (.table []) = .table inner) ↔ TableAt document keys := by
  cases found : valueAt? keys document with
  | none => simp [TableAt, found]
  | some value => simp [TableAt, found, IsTable]

/-- Below a table that is there or counts as empty. -/
theorem valueAt?_below
    (found : (valueAt? [key] (.table entries)).getD (.table []) = .table inner) (next : String)
    (keys : List String) :
    valueAt? (key :: next :: keys) (.table entries) = valueAt? (next :: keys) (.table inner) := by
  rw [valueAt?_single] at found
  rw [valueAt?]
  cases value : Toml.Table.get? entries key.toList with
  | none =>
      rw [value] at found
      cases found
      rfl
  | some value' =>
      rw [value] at found
      cases found
      rfl

/-- There is nothing below a value that is no table. -/
theorem exists_table_of_valueAt? {next : String} {keys : List String} {value : Toml}
    (found : valueAt? (key :: next :: keys) (.table entries) = some value) :
    ∃ inner, (valueAt? [key] (.table entries)).getD (.table []) = .table inner := by
  rw [valueAt?, Option.bind_eq_some_iff] at found
  obtain ⟨outer, there, found⟩ := found
  rw [valueAt?_single, there]
  cases outer with
  | table inner => exact ⟨inner, rfl⟩
  | array | string | integer | float | boolean | dateTime | date | time => cases found

end Tables

/-! ## Settings -/

/-- The selection that a table of settings gives. -/
def selection (settings : Toml.Table) : Except ConfigFault (Option (List Text)) :=
  match settings.get? "select".toList with
  | some value => (ruleSet value).map some
  | none => pure none

def ofSettings (settings : Toml.Table) : Except ConfigFault (Config × List LogEntry) := do
  let rules ← subtable "items" "rules" settings
  let select ← selection settings
  let ignore ← ruleSet ((settings.get? "ignore".toList).getD (.array []))
  let (minSeverity, log) := severity (settings.get? "min_severity".toList)
  pure (⟨select, ignore, minSeverity, ruleOptions rules⟩, log)

theorem ofDocument_eq (document : Toml.Table) :
    ofDocument document =
      subtable "get" "tool" document >>= fun tool =>
        subtable "get" "cellint" tool >>= ofSettings := by
  unfold ofDocument ofSettings selection
  congr
  funext tool
  congr
  funext settings
  congr
  funext rules
  -- What follows the selection stands in both of its branches.
  cases Toml.Table.get? settings "select".toList <;> rfl

section Settings

variable {settings : Toml.Table}

theorem selection_eq_ok_iff {select : Option (List Text)} :
    selection settings = .ok select ↔
      Option.Rel ListsNames (valueAt? ["select"] (.table settings)) select := by
  rw [selection, valueAt?_single]
  cases Toml.Table.get? settings "select".toList with
  | none =>
      constructor
      · intro absent
        cases absent
        exact .none
      · intro absent
        cases absent
        rfl
  | some value =>
      constructor
      · intro read
        obtain ⟨names, lists, rfl⟩ := except_map_eq_ok.mp read
        exact .some (ruleSet_eq_ok_iff.mp lists)
      · intro lists
        cases lists with
        | some lists => exact except_map_eq_ok.mpr ⟨_, ruleSet_eq_ok_iff.mpr lists, rfl⟩

theorem selection_eq_error_iff {fault : ConfigFault} :
    selection settings = .error fault ↔
      ∃ value, valueAt? ["select"] (.table settings) = some value ∧ ListFault value fault := by
  rw [selection, valueAt?_single]
  cases Toml.Table.get? settings "select".toList with
  | none => simp [pure, Except.pure]
  | some value =>
      simp only [Option.some.injEq, exists_eq_left', ← ruleSet_eq_error_iff]
      cases ruleSet value <;> simp [Except.map]

theorem exists_selection_iff :
    (∃ select, selection settings = .ok select) ↔ NamesAt (.table settings) ["select"] := by
  simp only [selection_eq_ok_iff, exists_selects_iff]

theorem ignored_eq_error_iff {fault : ConfigFault} :
    ruleSet ((Toml.Table.get? settings "ignore".toList).getD (.array [])) = .error fault ↔
      ∃ value, valueAt? ["ignore"] (.table settings) = some value ∧ ListFault value fault := by
  rw [valueAt?_single]
  cases Toml.Table.get? settings "ignore".toList with
  | none => simp [ruleSet, pure, Except.pure]
  | some value => simp [ruleSet_eq_error_iff]

theorem ofSettings_eq_error_iff {fault : ConfigFault} :
    ofSettings settings = .error fault ↔
      (∃ value, valueAt? ["rules"] (.table settings) = some value ∧ ¬ IsTable value ∧
          .lacksOperation (kindName value) "items" = fault) ∨
        TableAt (.table settings) ["rules"] ∧
          ((∃ value, valueAt? ["select"] (.table settings) = some value ∧ ListFault value fault) ∨
            NamesAt (.table settings) ["select"] ∧
              ∃ value, valueAt? ["ignore"] (.table settings) = some value ∧
                ListFault value fault) := by
  rw [ofSettings, except_bind_eq_error, subtable_eq_error_iff]
  apply or_congr_right
  constructor
  · intro failed
    obtain ⟨rules, isTable, failed⟩ := failed
    refine ⟨exists_subtable_iff.mp ⟨rules, subtable_eq_ok_iff.mp isTable⟩, ?_⟩
    rw [except_bind_eq_error, selection_eq_error_iff] at failed
    apply failed.imp_right
    intro failed
    obtain ⟨select, lists, failed⟩ := failed
    refine ⟨exists_selection_iff.mp ⟨select, lists⟩, ?_⟩
    rw [except_bind_eq_error, ignored_eq_error_iff] at failed
    cases failed with
    | inl failed => exact failed
    | inr failed =>
        obtain ⟨_, _, impossible⟩ := failed
        cases impossible
  · intro failed
    obtain ⟨tables, failed⟩ := failed
    obtain ⟨rules, isTable⟩ := exists_subtable_iff.mpr tables
    refine ⟨rules, subtable_eq_ok_iff.mpr isTable, ?_⟩
    rw [except_bind_eq_error, selection_eq_error_iff]
    apply failed.imp_right
    intro failed
    obtain ⟨names, failed⟩ := failed
    obtain ⟨select, lists⟩ := exists_selection_iff.mpr names
    refine ⟨select, lists, ?_⟩
    rw [except_bind_eq_error, ignored_eq_error_iff]
    exact .inl failed

theorem ofSettings_eq_ok_iff {config : Config} {log : List LogEntry} :
    ofSettings settings = .ok (config, log) ↔
      (∃ rules, (valueAt? ["rules"] (.table settings)).getD (.table []) = .table rules ∧
          config.options = ruleOptions rules) ∧
        Option.Rel ListsNames (valueAt? ["select"] (.table settings)) config.select ∧
        ListsNames ((valueAt? ["ignore"] (.table settings)).getD (.array [])) config.ignore ∧
        severity (valueAt? ["min_severity"] (.table settings)) = (config.minSeverity, log) := by
  simp only [ofSettings, except_bind_eq_ok, except_pure_eq_ok, subtable_eq_ok_iff,
    selection_eq_ok_iff, ruleSet_eq_ok_iff, ← valueAt?_single, Prod.mk.injEq]
  constructor
  · intro read
    obtain ⟨rules, isTable, select, selects, ignore, ignores, rfl, rfl⟩ := read
    exact ⟨⟨rules, isTable, rfl⟩, selects, ignores, rfl⟩
  · intro described
    obtain ⟨⟨rules, isTable, options⟩, selects, ignores, severe⟩ := described
    refine ⟨rules, isTable, config.select, selects, config.ignore, ignores, ?_, ?_⟩
    · rw [← options, severe]
    · rw [severe]

end Settings

/-! ## Documents -/

/-- The table of settings in a document, empty if there is none. -/
def SettingsOf (document settings : Toml.Table) : Prop :=
  ∃ tool, (valueAt? ["tool"] (.table document)).getD (.table []) = .table tool ∧
    (valueAt? ["cellint"] (.table tool)).getD (.table []) = .table settings

section Documents

variable {document settings : Toml.Table}

theorem SettingsOf.valueAt?_setting (sets : SettingsOf document settings) (name : String) :
    valueAt? (setting name) (.table document) = valueAt? [name] (.table settings) := by
  obtain ⟨tool, isTool, isSettings⟩ := sets
  rw [setting, valueAt?_below isTool, valueAt?_below isSettings]

theorem SettingsOf.tableAt_iff (sets : SettingsOf document settings) (name : String) :
    TableAt (.table document) (setting name) ↔ TableAt (.table settings) [name] := by
  rw [TableAt, TableAt, sets.valueAt?_setting]

theorem SettingsOf.namesAt_iff (sets : SettingsOf document settings) (name : String) :
    NamesAt (.table document) (setting name) ↔ NamesAt (.table settings) [name] := by
  rw [NamesAt, NamesAt, sets.valueAt?_setting]

theorem SettingsOf.ofDocument_eq (sets : SettingsOf document settings) :
    ofDocument document = ofSettings settings := by
  obtain ⟨tool, isTool, isSettings⟩ := sets
  rw [Config.ofDocument_eq, subtable_eq_ok_iff.mpr isTool]
  have found : subtable "get" "cellint" tool = .ok settings := subtable_eq_ok_iff.mpr isSettings
  exact congrArg (· >>= ofSettings) found

theorem exists_settingsOf_iff :
    (∃ settings, SettingsOf document settings) ↔
      TableAt (.table document) ["tool"] ∧ TableAt (.table document) ["tool", "cellint"] := by
  rw [← exists_subtable_iff, ← exists_subtable_iff]
  constructor
  · intro present
    obtain ⟨settings, tool, isTool, isSettings⟩ := present
    refine ⟨⟨tool, isTool⟩, settings, ?_⟩
    rw [valueAt?_below isTool]
    exact isSettings
  · intro present
    obtain ⟨⟨tool, isTool⟩, settings, isSettings⟩ := present
    rw [valueAt?_below isTool] at isSettings
    exact ⟨settings, tool, isTool, isSettings⟩

theorem exists_settingsOf_of_valueAt? {name : String} {value : Toml}
    (found : valueAt? (setting name) (.table document) = some value) :
    ∃ settings, SettingsOf document settings := by
  obtain ⟨tool, isTool⟩ := exists_table_of_valueAt? found
  rw [setting, valueAt?_below isTool] at found
  obtain ⟨settings, isSettings⟩ := exists_table_of_valueAt? found
  exact ⟨settings, tool, isTool, isSettings⟩

theorem ofDocument_eq_error_iff {fault : ConfigFault} :
    ofDocument document = .error fault ↔ FaultIn (.table document) fault := by
  constructor
  · intro failed
    rw [ofDocument_eq, except_bind_eq_error, subtable_eq_error_iff] at failed
    obtain ⟨value, found, noTable, rfl⟩ | ⟨tool, isTool, failed⟩ := failed
    · exact .tool found noTable
    rw [subtable_eq_ok_iff] at isTool
    rw [except_bind_eq_error, subtable_eq_error_iff] at failed
    obtain ⟨value, found, noTable, rfl⟩ | ⟨settings, isSettings, failed⟩ := failed
    · rw [← valueAt?_below isTool] at found
      exact .settings found noTable
    have sets : SettingsOf document settings := ⟨tool, isTool, subtable_eq_ok_iff.mp isSettings⟩
    rw [ofSettings_eq_error_iff, ← sets.tableAt_iff, ← sets.namesAt_iff] at failed
    simp only [← sets.valueAt?_setting] at failed
    obtain ⟨value, found, noTable, rfl⟩ | ⟨tables, ⟨value, found, faulty⟩ |
      ⟨names, value, found, faulty⟩⟩ := failed
    · exact .rules found noTable
    · exact .select tables found faulty
    · exact .ignore tables names found faulty
  · intro faulty
    cases faulty with
    | tool found noTable =>
        rw [ofDocument_eq, except_bind_eq_error, subtable_eq_error_iff]
        exact .inl ⟨_, found, noTable, rfl⟩
    | settings found noTable =>
        obtain ⟨tool, isTool⟩ := exists_table_of_valueAt? found
        rw [valueAt?_below isTool] at found
        rw [ofDocument_eq, except_bind_eq_error]
        refine .inr ⟨tool, subtable_eq_ok_iff.mpr isTool, ?_⟩
        rw [except_bind_eq_error, subtable_eq_error_iff]
        exact .inl ⟨_, found, noTable, rfl⟩
    | rules found noTable =>
        obtain ⟨settings, sets⟩ := exists_settingsOf_of_valueAt? found
        rw [sets.valueAt?_setting] at found
        rw [sets.ofDocument_eq, ofSettings_eq_error_iff]
        exact .inl ⟨_, found, noTable, rfl⟩
    | select tables found faulty =>
        obtain ⟨settings, sets⟩ := exists_settingsOf_of_valueAt? found
        rw [sets.tableAt_iff] at tables
        rw [sets.valueAt?_setting] at found
        rw [sets.ofDocument_eq, ofSettings_eq_error_iff]
        exact .inr ⟨tables, .inl ⟨_, found, faulty⟩⟩
    | ignore tables names found faulty =>
        obtain ⟨settings, sets⟩ := exists_settingsOf_of_valueAt? found
        rw [sets.tableAt_iff] at tables
        rw [sets.namesAt_iff] at names
        rw [sets.valueAt?_setting] at found
        rw [sets.ofDocument_eq, ofSettings_eq_error_iff]
        exact .inr ⟨tables, .inr ⟨names, _, found, faulty⟩⟩

theorem ofDocument_eq_ok_iff {config : Config} {log : List LogEntry} :
    ofDocument document = .ok (config, log) ↔ Describes (.table document) config log := by
  constructor
  · intro read
    obtain ⟨settings, sets⟩ : ∃ settings, SettingsOf document settings := by
      rw [ofDocument_eq, except_bind_eq_ok] at read
      obtain ⟨tool, isTool, read⟩ := read
      obtain ⟨settings, isSettings, -⟩ := except_bind_eq_ok.mp read
      exact ⟨settings, tool, subtable_eq_ok_iff.mp isTool, subtable_eq_ok_iff.mp isSettings⟩
    have tables := exists_settingsOf_iff.mp ⟨settings, sets⟩
    rw [sets.ofDocument_eq, ofSettings_eq_ok_iff] at read
    simp only [← sets.valueAt?_setting] at read
    exact ⟨tables.1, tables.2, read.1, read.2.1, read.2.2.1, read.2.2.2⟩
  · intro described
    obtain ⟨settings, sets⟩ := exists_settingsOf_iff.mpr ⟨described.tool, described.settings⟩
    rw [sets.ofDocument_eq, ofSettings_eq_ok_iff]
    simp only [← sets.valueAt?_setting]
    exact ⟨described.rules, described.select, described.ignore, described.severity⟩

theorem exists_ofDocument_iff :
    (∃ config log, ofDocument document = .ok (config, log)) ↔ WellTyped (.table document) := by
  simp only [ofDocument_eq_ok_iff]
  constructor
  · intro described
    obtain ⟨config, log, described⟩ := described
    obtain ⟨rules, isTable, -⟩ := described.rules
    exact
      { tool := described.tool
        settings := described.settings
        rules := exists_subtable_iff.mp ⟨rules, isTable⟩
        select := exists_selects_iff.mp ⟨config.select, described.select⟩
        ignore := exists_ignores_iff.mp ⟨config.ignore, described.ignore⟩ }
  · intro typed
    obtain ⟨rules, isTable⟩ := exists_subtable_iff.mpr typed.rules
    obtain ⟨select, selects⟩ := exists_selects_iff.mpr typed.select
    obtain ⟨ignore, ignores⟩ := exists_ignores_iff.mpr typed.ignore
    let grave := severity (valueAt? (setting "min_severity") (.table document))
    exact ⟨⟨select, ignore, grave.1, ruleOptions rules⟩, grave.2, typed.tool, typed.settings,
      ⟨rules, isTable, rfl⟩, selects, ignores, rfl⟩

end Documents

end Config

end NotebookLint
