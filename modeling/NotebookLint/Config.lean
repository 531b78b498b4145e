import NotebookLint.File.Tree
import NotebookLint.Log
import NotebookLint.Rules.Builtin
import NotebookLint.Text.Lowercase
import NotebookLint.Toml.Reader

/-!
# Configuration

The settings of a project stand in the table `tool.cellint` of the nearest `pyproject.toml`, which
is sought from a directory upwards. Without such a file, or if it is no valid TOML, the standard
settings hold. Values of a kind that a setting cannot have are faults, and so are a file that is
beyond a limit and a path that is too long to be looked up.
-/

set_option autoImplicit false

namespace NotebookLint

open File (Path Tree AccessFault Utf8Fault)

structure Config where
  /-- The rules to run; all of them if nothing is selected. -/
  select : Option (List Text)
  ignore : List Text
  minSeverity : Severity
  options : List (Text × RuleOptions)

inductive ConfigFault where
  /-- It cannot be told whether there is a file under a path. -/
  | noAccess (path : Path) (fault : AccessFault)
  | notUtf8 (fault : Utf8Fault)
  | limit (fault : LimitFault)
  /-- A value of the given kind was used like one that has the given operation. -/
  | lacksOperation (kind operation : String)
  | notIterable (kind : String)
  deriving DecidableEq

namespace ConfigFault

def message : ConfigFault → String
  | .noAccess path fault => fault.message path
  | .notUtf8 fault => fault.message
  | .limit fault => fault.message
  | .lacksOperation kind operation => s!"'{kind}' object has no attribute '{operation}'"
  | .notIterable kind => s!"'{kind}' object is not iterable"

end ConfigFault

namespace Config

def standard : Config := ⟨none, [], .info, []⟩

def kindName : Toml → String
  | .string _ => "str"
  | .integer _ => "int"
  | .float => "float"
  | .boolean _ => "bool"
  | .dateTime => "datetime.datetime"
  | .date => "datetime.date"
  | .time => "datetime.time"
  | .array _ => "list"
  | .table _ => "dict"

/-- The entries of a value that has to be a table, being used by the given operation. -/
def tableOf (operation : String) : Toml → Except ConfigFault Toml.Table
  | .table entries => .ok entries
  | value => .error (.lacksOperation (kindName value) operation)

def subtable (operation key : String) (entries : Toml.Table) : Except ConfigFault Toml.Table :=
  tableOf operation ((entries.get? key.toList).getD (.table []))

def ruleName (written : Text) : Text :=
  Text.lower (Text.trim written)

def itemName : Toml → Except ConfigFault Text
  | .string name => .ok (ruleName name)
  | value => .error (.lacksOperation (kindName value) "strip")

/-- The rule names that a value stands for: the items of a list, the keys of a table or the single
characters of a text. -/
def ruleSet : Toml → Except ConfigFault (List Text)
  | .array items => items.mapM itemName
  | .table entries => .ok (entries.map fun entry => ruleName entry.1)
  | .string text => .ok (text.map fun char => ruleName [char])
  | value => .error (.notIterable (kindName value))

def optionValue? : Toml → Option OptionValue
  | .boolean value => some (.flag value)
  | .integer value => some (.number value)
  | .string value => some (.text value)
  | _ => none

def ruleOptions (rules : Toml.Table) : List (Text × RuleOptions) :=
  rules.filterMap fun (rule, value) =>
    match value with
    | .table entries =>
        some (Text.lower rule, entries.filterMap fun (name, value) =>
          (optionValue? value).map fun value => (name, value))
    | _ => none

/-- The severity that a value stands for. A value that is no text counts as missing, and an unknown
label is noted in the log. -/
def severity : Option Toml → Severity × List LogEntry
  | some (.string label) =>
      match Severity.ofLabel? label with
      | some severity => (severity, [])
      | none => (.info, [.invalidSeverity label])
  | _ => (.info, [])

def ofDocument (document : Toml.Table) : Except ConfigFault (Config × List LogEntry) := do
  let tool ← subtable "get" "tool" document
  let settings ← subtable "get" "cellint" tool
  let rules ← subtable "items" "rules" settings
  let select ←
    match settings.get? "select".toList with
    | some value => (ruleSet value).map some
    | none => pure none
  let ignore ← ruleSet ((settings.get? "ignore".toList).getD (.array []))
  let (minSeverity, log) := severity (settings.get? "min_severity".toList)
  pure (⟨select, ignore, minSeverity, ruleOptions rules⟩, log)

def fileName : Text := "pyproject.toml".toList

def inDirectory? (tree : Tree) (directory : Path) : Except ConfigFault (Option Path) :=
  let candidate := directory.below [fileName]
  match tree.isFile candidate with
  | .ok true => .ok (some candidate)
  | .ok false => .ok none
  | .error fault => .error (.noAccess candidate fault)

/-- The nearest file with settings in a directory or above it; `above` is the number of directories
on the way to the root. -/
def find? (tree : Tree) (directory : Path) : (above : Nat) → Except ConfigFault (Option Path)
  | 0 => inDirectory? tree directory
  | above + 1 => do
      match ← inDirectory? tree directory with
      | some path => pure (some path)
      | none => find? tree { directory with components := directory.components.dropLast } above

/-- The settings that the contents of a file give. A file that cannot be read and one that is no TOML
give the standard settings. -/
def ofContents (path : Path) :
    Except AccessFault (List UInt8) → Except ConfigFault (Config × List LogEntry)
  | .error fault => .ok (standard, [.unreadableConfig path (.noAccess fault)])
  | .ok bytes => do
      let text ← (File.decodeUtf8 bytes).mapError ConfigFault.notUtf8
      match Toml.parse text with
      | .ok document => ofDocument document
      | .error .invalid => pure (standard, [.unreadableConfig path (.notToml text)])
      | .error (.limit fault) => .error (.limit fault)

/-- The settings of the nearest file in a directory, given by an absolute path, or above it. -/
def load (tree : Tree) (directory : Path) : Except ConfigFault (Config × List LogEntry) := do
  match ← find? tree directory directory.components.length with
  | none => pure (standard, [])
  | some path => ofContents path (tree.read path)

def loadHere (tree : Tree) : Except ConfigFault (Config × List LogEntry) :=
  load tree ⟨['/'], tree.workingDirectory⟩

def allows (config : Config) (rule : BuiltinRule) : Bool :=
  config.select.all (fun names => names.contains rule.name.toList) &&
    !config.ignore.contains rule.name.toList

/-- The options given for a rule, the last ones if they are given several times. -/
def optionsFor (config : Config) (rule : BuiltinRule) : RuleOptions :=
  ((config.options.reverse.find? fun entry => entry.1 == rule.name.toList).map Prod.snd).getD []

def activeRules (config : Config) : List BuiltinRule :=
  (BuiltinRule.all.filter config.allows).map fun rule => rule.configure (config.optionsFor rule)

def rules (memory : Nat) (config : Config) : List Rule :=
  config.activeRules.map (BuiltinRule.toRule memory)

end Config

end NotebookLint
