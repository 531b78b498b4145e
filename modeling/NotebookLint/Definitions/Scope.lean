import NotebookLint.Diagnostic
import NotebookLint.Lexical.Lines
import NotebookLint.Lexical.Words

/-!
# Definitions and their scopes

The functions and classes that a cell defines, each with the definitions that enclose it. Scopes
follow from indentation alone: a definition encloses a later line if every line after the
definition, up to and including that line, is indented deeper.
-/

set_option autoImplicit false

namespace NotebookLint

structure Definition where
  name : Text
  line : Nat
  kind : DefinitionKind
  deriving DecidableEq, Repr

/-- A definition with the names of the definitions around it, the outermost first. -/
structure ScopedDefinition where
  scope : List Text
  definition : Definition
  deriving DecidableEq, Repr

namespace Definition

/-- Reads the header of a function: whether it is asynchronous, and its name. -/
def function? (line : Text) : Option (Bool × Text) := do
  let start := Text.trimLeft line
  let unmarked := (Text.after? "async".toList start).bind Text.gap?
  let rest ← (Text.after? "def".toList (unmarked.getD start)).bind Text.gap?
  let (name, rest) ← Text.name? rest
  let _ ← Text.char? '(' (Text.trimLeft rest)
  pure (unmarked.isSome, name)

def class? (line : Text) : Option Text := do
  let rest ← (Text.after? "class".toList (Text.trimLeft line)).bind Text.gap?
  let (name, rest) ← Text.name? rest
  let next ← (Text.trimLeft rest).head?
  if next == '(' || next == ':' then some name else none

def ofLine? (number : Nat) (line : Text) : Option Definition :=
  match function? line with
  | some (isAsync, name) => some ⟨name, number, if isAsync then .asyncFunctionDef else .functionDef⟩
  | none => (class? line).map fun name => ⟨name, number, .classDef⟩

def decorator? (line : Text) : Option Text := do
  let rest ← Text.char? '@' (Text.trimLeft line)
  let name := (Text.trimLeft rest).takeWhile fun char => isWordChar char || char == '.'
  if name.isEmpty then none else some name

/-- Whether a decorator is meant for a definition that repeats a name: the accessors of a property
and overloads. -/
def reusesName (decorator : Text) : Bool :=
  Text.endsWith ".setter".toList decorator || Text.endsWith ".getter".toList decorator ||
    Text.endsWith ".deleter".toList decorator || decorator == "overload".toList ||
    decorator == "typing.overload".toList

structure Frame where
  indent : Nat
  name : Text
  deriving DecidableEq, Repr

/-- The definitions of code lines outside brackets; `frames` holds the enclosing definitions,
innermost first, and `decorators` those that wait for their definition. -/
def scopedFrom (frames : List Frame) (decorators : List Text) :
    List CodeLine → List ScopedDefinition
  | [] => []
  | line :: rest =>
      let indent := Text.indentWidth standardTabWidth line.clean
      let frames := frames.dropWhile fun frame => frame.indent ≥ indent
      match decorator? line.clean with
      | some decorator => scopedFrom frames (decorators ++ [decorator]) rest
      | none =>
          match ofLine? line.number line.clean with
          | some definition =>
              let here :=
                if decorators.any reusesName then []
                else [⟨(frames.map Frame.name).reverse, definition⟩]
              here ++ scopedFrom (⟨indent, definition.name⟩ :: frames) [] rest
          | none => scopedFrom frames [] rest

end Definition

namespace Text

def statementLines (source : Text) : List CodeLine :=
  (logicalLines source).filter fun line => !line.insideBrackets

/-- The functions and classes that a cell defines with their scopes, those apart that are meant to
repeat a name. -/
def definitions (source : Text) : List ScopedDefinition :=
  Definition.scopedFrom [] [] (statementLines source)

end Text

end NotebookLint
