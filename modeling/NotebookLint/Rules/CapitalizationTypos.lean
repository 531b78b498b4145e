import NotebookLint.Diagnostic
import NotebookLint.Imports.Binding
import NotebookLint.Names.Usage
import NotebookLint.Text.Lowercase

/-!
# Capitalization typos

A name that differs from a known one by capitalization alone is taken for a typo. The constants
written in small letters are always reported. Other names are compared with those the cell defines
and with well-known ones, unless they are defined exactly as written, are attributes, belong to
the vocabulary of type annotations or are written in capitals throughout.
-/

set_option autoImplicit false

namespace NotebookLint.CapitalizationTypos

def constants : List Text :=
  Names.ofStrings ["True", "False", "None"]

def wellKnown : List Text :=
  Names.ofStrings
    ["print", "len", "range", "list", "dict", "set", "tuple", "str", "int", "float", "bool",
      "type", "isinstance", "hasattr", "getattr", "setattr", "enumerate", "zip", "map", "filter",
      "sorted", "reversed", "sum", "min", "max", "abs", "round", "open", "ValueError",
      "TypeError", "KeyError", "IndexError", "AttributeError", "ImportError", "NameError",
      "RuntimeError", "FileNotFoundError", "ZeroDivisionError", "AssertionError",
      "NotImplementedError", "StopIteration", "numpy", "pandas", "matplotlib", "tensorflow",
      "sklearn", "scipy", "seaborn"]

/-- The names of type annotations that differ from other names by their capital. -/
def typingNames : List Text :=
  Names.ofStrings
    ["List", "Dict", "Set", "Tuple", "Optional", "Union", "Any", "Callable", "Sequence",
      "Iterable", "Mapping", "Type", "ClassVar", "Final", "Literal", "TypeVar", "Generic",
      "Protocol"]

def definedOn? (line : Text) : Option Text :=
  let start := Text.trimLeft line
  let unmarked := Text.skipWord "async" start
  let definition : Option Text := do
    let rest ←
      (Text.after? "def".toList unmarked).bind Text.gap? <|>
        (Text.after? "class".toList unmarked).bind Text.gap?
    let (name, _) ← Text.name? rest
    pure name
  let assignment : Option Text := do
    let (name, rest) ← Text.name? start
    let _ ← Text.assignSign? rest
    pure name
  definition <|> assignment

/-- The names that a cell defines, in the order in which they decide a spelling. -/
def cellDefinitions (source : Text) : List Text :=
  ((Text.sourceLines source).filterMap fun line =>
    (definedOn? line.clean).filter fun name => !Names.isKeyword name) ++
  ((Text.importBindings source).filter fun binding => !binding.isWildcard).map ImportBinding.name

structure Spelling where
  lower : Text
  name : Text
  deriving DecidableEq, Repr

def spellings (names : List Text) : List Spelling :=
  names.map fun name => ⟨Text.lower name, name⟩

def spelling? (known : List Spelling) (lower : Text) : Option Text :=
  (known.find? fun spelling => spelling.lower == lower).map Spelling.name

def constantSpellings : List Spelling := spellings constants

def wellKnownSpellings : List Spelling := spellings wellKnown

/-- Whether a name of at least two characters has no small letter. It is asked only about names
whose lower-case form is an ASCII word, and such a name has ASCII letters and the Kelvin sign
only. -/
def inCapitals (name : Text) : Bool :=
  name.length > 1 && name.all fun char => !('a' ≤ char && char ≤ 'z')

/-- The spelling that a name should have, if it looks mistyped; `defined` holds the spellings of the
cell and `context` the names of earlier cells. -/
def suggestion? (defined : List Spelling) (context : List Text) (name : Text) : Option Text :=
  let lower := Text.lower name
  let constant? := spelling? constantSpellings lower
  if constant?.isSome && name == lower then constant?
  else if (defined.any fun spelling => spelling.name == name) || context.contains name then none
  else
    let known? :=
      (constant? <|> spelling? wellKnownSpellings lower).filter fun _ => !inCapitals name
    (spelling? defined lower <|> known?).filter fun correct => correct != name

def lineFindings (defined : List Spelling) (context : List Text) (line : SourceLine) :
    List Finding :=
  if SourceLine.isDirective line.raw then []
  else
    (Text.names line.clean).filterMap fun word =>
      if Names.isAttribute line.clean word.start || typingNames.contains word.text then none
      else
        (suggestion? defined context word.text).map fun correct =>
          ⟨.misspelledName word.text correct, line.number, some (word.start + 1)⟩

def findings (source : Text) (context : List Text) : List Finding :=
  let defined := spellings (cellDefinitions source)
  (Text.sourceLines source).flatMap (lineFindings defined context)

end NotebookLint.CapitalizationTypos
