import NotebookLint.File.Tree

/-!
# Log entries

What the program notes about its own work, beside what it reports about notebooks.
-/

set_option autoImplicit false

namespace NotebookLint

inductive LogLevel where
  | debug
  | warning
  | error
  deriving DecidableEq, Repr

namespace LogLevel

def label : LogLevel → String
  | .debug => "DEBUG"
  | .warning => "WARNING"
  | .error => "ERROR"

end LogLevel

/-- Why a configuration file was passed over. -/
inductive Unreadable where
  | noAccess (fault : File.AccessFault)
  /-- The text of the file is no TOML. -/
  | notToml (text : Text)
  deriving DecidableEq, Repr

inductive LogEntry where
  /-- A rule failed on the cell with the given index, if the cell has one. -/
  | ruleFailed (rule : String) (cell : Option Int)
  | cellChecked (cell : Int) (diagnostics known : Nat)
  | unreadableConfig (path : File.Path) (cause : Unreadable)
  | invalidSeverity (label : Text)
  deriving DecidableEq, Repr

namespace LogEntry

def level : LogEntry → LogLevel
  | .ruleFailed _ _ => .error
  | .cellChecked _ _ _ => .debug
  | .unreadableConfig _ _ => .warning
  | .invalidSeverity _ => .warning

def origin : LogEntry → String
  | .ruleFailed _ _ => "cellint.engine"
  | .cellChecked _ _ _ => "cellint.engine"
  | .unreadableConfig _ _ => "cellint.config"
  | .invalidSeverity _ => "cellint.config"

/-- The wording of an entry, given what is said about a text that is no TOML. -/
def message (tomlFault : Text → String) : LogEntry → String
  | .ruleFailed rule cell =>
      let index := (cell.map toString).getD "None"
      s!"Rule {rule} failed on cell {index}"
  | .cellChecked cell diagnostics known =>
      s!"Cell {cell}: {diagnostics} diagnostics, {known} known names"
  | .unreadableConfig path (.noAccess fault) =>
      s!"Could not read {String.ofList path.toText}: {fault.message path}"
  | .unreadableConfig path (.notToml text) =>
      s!"Could not read {String.ofList path.toText}: {tomlFault text}"
  | .invalidSeverity label => s!"Ignoring invalid min_severity {String.ofList (Text.quoted label)}"

end LogEntry

end NotebookLint
