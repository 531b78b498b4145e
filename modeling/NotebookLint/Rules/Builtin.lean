import NotebookLint.Rule
import NotebookLint.Rules.CapitalizationTypos
import NotebookLint.Rules.DuplicateFunctions
import NotebookLint.Rules.EmptyCells
import NotebookLint.Rules.ImportIssues
import NotebookLint.Rules.IndentationErrors
import NotebookLint.Rules.MissingReturn
import NotebookLint.Rules.RedefinedVariables
import NotebookLint.Rules.UndefinedVariables
import NotebookLint.Rules.UnclosedBrackets

/-!
# Built-in rules

The nine built-in rules with their options. An option that a rule does not know, or that has a
value of the wrong kind, leaves the rule as it is.
-/

set_option autoImplicit false

namespace NotebookLint

inductive OptionValue where
  | flag (value : Bool)
  | number (value : Int)
  | text (value : Text)
  deriving DecidableEq, Repr

abbrev RuleOptions := List (Text × OptionValue)

inductive BuiltinRule where
  | undefinedVariables (allowCommonAliases : Bool)
  | capitalizationTypos
  | duplicateFunctions
  | emptyCells
  | importIssues (reportUnused : Bool)
  | indentationErrors (tabWidth : Nat)
  | missingReturn
  | redefinedVariables
  | unclosedBrackets
  deriving DecidableEq, Repr

namespace BuiltinRule

/-- Every built-in rule with its standard settings, in the order in which they report. -/
def all : List BuiltinRule :=
  [.undefinedVariables true, .capitalizationTypos, .duplicateFunctions, .emptyCells,
    .importIssues true, .indentationErrors standardTabWidth, .missingReturn, .redefinedVariables,
    .unclosedBrackets]

def name : BuiltinRule → String
  | .undefinedVariables _ => "undefined_variables"
  | .capitalizationTypos => "capitalization_typos"
  | .duplicateFunctions => "duplicate_functions"
  | .emptyCells => "empty_cells"
  | .importIssues _ => "import_issues"
  | .indentationErrors _ => "indentation_errors"
  | .missingReturn => "missing_return"
  | .redefinedVariables => "redefined_variables"
  | .unclosedBrackets => "unclosed_brackets"

def ofName? (name : String) : Option BuiltinRule :=
  all.find? fun rule => rule.name == name

def configure (options : RuleOptions) (rule : BuiltinRule) : BuiltinRule :=
  let option? (name : String) := (options.find? fun entry => entry.1 == name.toList).map Prod.snd
  match rule with
  | .undefinedVariables _ =>
      match option? "allow_common_aliases" with
      | some (.flag allow) => .undefinedVariables allow
      | _ => rule
  | .importIssues _ =>
      match option? "report_unused" with
      | some (.flag report) => .importIssues report
      | _ => rule
  | .indentationErrors _ =>
      match option? "tab_width" with
      | some (.number width) => if width > 0 then .indentationErrors width.toNat else rule
      | _ => rule
  | _ => rule

def findings (source : Text) (context : List Text) : BuiltinRule → List Finding
  | .undefinedVariables allowCommonAliases =>
      UndefinedVariables.findings allowCommonAliases source context
  | .capitalizationTypos => CapitalizationTypos.findings source context
  | .duplicateFunctions => DuplicateFunctions.findings source
  | .emptyCells => EmptyCells.findings source
  | .importIssues reportUnused => ImportIssues.findings reportUnused source
  | .indentationErrors tabWidth => IndentationErrors.findings tabWidth source
  | .missingReturn => MissingReturn.findings source
  | .redefinedVariables => RedefinedVariables.findings source
  | .unclosedBrackets => UnclosedBrackets.findings source

def definedNames (source : Text) : BuiltinRule → List Text
  | .undefinedVariables _ => Names.definedNames source
  | _ => []

/-- The least tab width that no text can be as long as. -/
def tabWidthLimit : Nat := 1 <<< 63

/-- Why a tab of the given width cannot be laid out; `memory` is the least width for which there is
no memory. -/
def tabFault? (memory tabWidth : Nat) : Option RuleFault :=
  if tabWidthLimit ≤ tabWidth then some .tabTooWide
  else if memory ≤ tabWidth then some .outOfMemory
  else none

/-- Why a rule cannot check a cell: it has to measure an indent, and a tab is too wide for that. -/
def fault? (memory : Nat) (source : Text) : BuiltinRule → Option RuleFault
  | .indentationErrors tabWidth =>
      if IndentationErrors.measuresIndent source then tabFault? memory tabWidth else none
  | _ => none

def toRule (memory : Nat) (rule : BuiltinRule) : Rule where
  name := rule.name
  check source offset context :=
    match rule.fault? memory source with
    | some fault => .error fault
    | none => .ok ((rule.findings source context).map (Finding.toDiagnostic rule.name offset))
  definedNames source := .ok (rule.definedNames source)

end BuiltinRule

namespace Text

/-- The width of a line's indent for any configured tab width: a tab counts no column if the width
is not positive, and there is none if the width cannot be laid out. -/
def measureIndent (memory : Nat) (tabWidth : Int) (line : Text) : Except RuleFault Nat :=
  if tabWidth < -BuiltinRule.tabWidthLimit then .error .tabTooWide
  else
    match BuiltinRule.tabFault? memory tabWidth.toNat with
    | some fault => .error fault
    | none => .ok (indentWidth tabWidth.toNat line)

end Text

end NotebookLint
