import NotebookLint.Text.Blank
import NotebookLint.Text.Quoted

/-!
# Diagnostics

What the rules report. A problem says what is wrong and is the only source of a message's wording
and of its severity. A finding places a problem in its cell; a diagnostic places it in the
notebook. Lines and columns are counted from one.
-/

set_option autoImplicit false

namespace NotebookLint

inductive Severity where
  | error
  | warning
  | info
  deriving DecidableEq, Repr

namespace Severity

/-- The rank by which severities are ordered, the gravest first. -/
def rank : Severity → Nat
  | .error => 1
  | .warning => 2
  | .info => 3

def label : Severity → String
  | .error => "error"
  | .warning => "warning"
  | .info => "info"

def all : List Severity := [.error, .warning, .info]

/-- The capital of a letter that may occur in a label. Besides the ASCII letters only the dotless i
and the long s have a capital among the ASCII letters. -/
def capital (char : Char) : Char :=
  if 'a' ≤ char && char ≤ 'z' then Char.ofNat (char.toNat - 32)
  else if char.toNat = 0x131 then 'I'
  else if char.toNat = 0x17F then 'S'
  else char

/-- The severity of a label in any letter case, blanks around it aside. -/
def ofLabel? (label : Text) : Option Severity :=
  let capitals := (Text.trim label).map capital
  if capitals = "ERROR".toList then some .error
  else if capitals = "WARNING".toList then some .warning
  else if capitals = "INFO".toList then some .info
  else none

def unknownMessage (label : Text) : String :=
  s!"Unknown severity {String.ofList (Text.quoted label)}; expected one of error, warning, info"

end Severity

inductive DefinitionKind where
  | functionDef
  | asyncFunctionDef
  | classDef
  deriving DecidableEq, Repr

namespace DefinitionKind

def label : DefinitionKind → String
  | .functionDef => "function"
  | .asyncFunctionDef => "async function"
  | .classDef => "class"

/-- The name of a kind at the beginning of a message, which does not tell functions apart. -/
def title : DefinitionKind → String
  | .functionDef | .asyncFunctionDef => "Function"
  | .classDef => "Class"

end DefinitionKind

inductive IndentStyle where
  | tabs
  | spaces
  deriving DecidableEq, Repr

inductive Triviality where
  | empty
  | onlyComments
  | onlyPass
  | onlyEllipsis
  deriving DecidableEq, Repr

/-- What is wrong. Lines cited by a problem are counted like the line of the report that holds
it. -/
inductive Problem where
  | undefinedName (name : Text)
  | misspelledName (name correct : Text)
  | repeatedDefinition (kind : DefinitionKind) (name : Text) (firstLine : Int)
  | trivialCell (reason : Triviality)
  | misplacedImport
  | wildcardImport
  | repeatedImport (name : Text) (firstLine : Int)
  | unusedImport (name : Text)
  | mixedIndent
  | foreignIndent (dominant : IndentStyle)
  | missingBlock
  | unexpectedIndent
  | unmatchedUnindent
  | oddIndent (spaces : Nat)
  | missingReturn (function : Text)
  | rebindsBuiltin (name : Text)
  | shadowsBuiltin (kind : DefinitionKind) (name : Text)
  | redefinesVariable (kind : DefinitionKind) (name : Text) (previousLine : Int)
  | loopShadowsBuiltin (name : Text)
  | unmatchedCloser (closer : Char)
  | mismatchedCloser (expected found : Char)
  | unclosedOpener (opener : Char) (column : Nat)
  | other (severity : Severity) (message : String)
  deriving DecidableEq, Repr

namespace Problem

def severity : Problem → Severity
  | .undefinedName _ => .error
  | .misspelledName _ _ => .warning
  | .repeatedDefinition _ _ _ => .warning
  | .trivialCell _ => .info
  | .misplacedImport => .info
  | .wildcardImport => .warning
  | .repeatedImport _ _ => .warning
  | .unusedImport _ => .info
  | .mixedIndent => .error
  | .foreignIndent _ => .warning
  | .missingBlock => .error
  | .unexpectedIndent => .error
  | .unmatchedUnindent => .error
  | .oddIndent _ => .warning
  | .missingReturn _ => .warning
  | .rebindsBuiltin _ => .warning
  | .shadowsBuiltin _ _ => .warning
  | .redefinesVariable _ _ _ => .warning
  | .loopShadowsBuiltin _ => .warning
  | .unmatchedCloser _ => .error
  | .mismatchedCloser _ _ => .error
  | .unclosedOpener _ _ => .error
  | .other severity _ => severity

def inQuotes (text : Text) : String :=
  String.ofList ('\x27' :: text ++ ['\x27'])

def message : Problem → String
  | .undefinedName name => s!"Undefined variable {inQuotes name}"
  | .misspelledName name correct =>
      s!"Possible capitalization typo: {inQuotes name} should be {inQuotes correct}"
  | .repeatedDefinition kind name firstLine =>
      s!"Duplicate {kind.label} name {inQuotes name} (first defined at line {firstLine})"
  | .trivialCell .empty => "Cell is empty"
  | .trivialCell .onlyComments => "Cell contains only comments"
  | .trivialCell .onlyPass => "Cell contains only 'pass' statements"
  | .trivialCell .onlyEllipsis => "Cell contains only ellipsis (...)"
  | .misplacedImport => "Import statement should be at the top of the cell"
  | .wildcardImport => "Wildcard import 'from X import *' is discouraged"
  | .repeatedImport name firstLine =>
      s!"Duplicate import of {inQuotes name} (first imported at line {firstLine})"
  | .unusedImport name => s!"Imported {inQuotes name} is unused"
  | .mixedIndent => "Mixed tabs and spaces in indentation"
  | .foreignIndent .spaces =>
      "Inconsistent indentation: file uses spaces elsewhere but this line uses tabs"
  | .foreignIndent .tabs =>
      "Inconsistent indentation: file uses tabs elsewhere but this line uses spaces"
  | .missingBlock => "Expected indented block after colon"
  | .unexpectedIndent => "Unexpected indent"
  | .unmatchedUnindent => "Unindent does not match any outer indentation level"
  | .oddIndent spaces =>
      s!"Inconsistent indentation: {spaces} spaces (expected multiple of 2 or 4)"
  | .missingReturn function =>
      s!"Function {inQuotes function} appears to compute a value but has no return statement"
  | .rebindsBuiltin name => s!"Redefining built-in name {inQuotes name}"
  | .shadowsBuiltin kind name => s!"{kind.title} name {inQuotes name} shadows built-in"
  | .redefinesVariable kind name previousLine =>
      s!"{kind.title} {inQuotes name} redefines variable (previously at line {previousLine})"
  | .loopShadowsBuiltin name => s!"Loop variable {inQuotes name} shadows built-in"
  | .unmatchedCloser closer => s!"Unmatched closing {inQuotes [closer]}"
  | .mismatchedCloser expected found =>
      s!"Mismatched bracket: expected {inQuotes [expected]} but found {inQuotes [found]}"
  | .unclosedOpener opener column =>
      s!"Unclosed {inQuotes [opener]} (opened at column {column})"
  | .other _ message => message

/-- The same problem with every cited line moved down. -/
def shift (lines : Int) : Problem → Problem
  | .repeatedDefinition kind name firstLine => .repeatedDefinition kind name (firstLine + lines)
  | .repeatedImport name firstLine => .repeatedImport name (firstLine + lines)
  | .redefinesVariable kind name previousLine => .redefinesVariable kind name (previousLine + lines)
  | problem => problem

end Problem

/-- A problem at its place in a cell. -/
structure Finding where
  problem : Problem
  line : Nat
  column : Option Nat := none
  deriving DecidableEq, Repr

/-- A problem at its place in a notebook. The cell and the line within it are known once the engine
has placed the report. -/
structure Diagnostic where
  rule : String
  problem : Problem
  line : Int
  column : Option Int := none
  cellIndex : Option Int := none
  cellLine : Option Int := none
  deriving DecidableEq, Repr

namespace Diagnostic

def message (diagnostic : Diagnostic) : String :=
  diagnostic.problem.message

def severity (diagnostic : Diagnostic) : Severity :=
  diagnostic.problem.severity

end Diagnostic

namespace Finding

/-- A finding in a cell that starts `offset` lines into the notebook. -/
def toDiagnostic (rule : String) (offset : Int) (finding : Finding) : Diagnostic where
  rule := rule
  problem := finding.problem.shift offset
  line := finding.line + offset
  column := finding.column.map Int.ofNat

end Finding

end NotebookLint
