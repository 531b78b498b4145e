import NotebookLint.Diagnostic
import NotebookLint.Lexical.Lines
import NotebookLint.Lexical.Words
import NotebookLint.Names.Reserved

/-!
# Missing return

A function looks as if it computed a value when it assigns to a result-like name, updates a
variable in place, or has a name that starts with a computing verb. Such a function is reported if
its body has neither a `return` nor a `yield`. Functions that conventionally return nothing,
property setters and stubs are exempt.
-/

set_option autoImplicit false

namespace NotebookLint.MissingReturn

structure Function where
  name : Text
  line : Nat
  decorators : List Text
  body : List Text
  deriving DecidableEq, Repr

/-- Reads the header of a function: the blanks before it, and its name. -/
def header? (line : Text) : Option (Text × Text) := do
  let start := Text.skipWord "async" (Text.trimLeft line)
  let rest ← (Text.after? "def".toList start).bind Text.gap?
  let (name, rest) ← Text.name? rest
  let _ ← Text.char? '(' (Text.trimLeft rest)
  pure (line.takeWhile isBlank, name)

def decorator? (line : Text) : Option Text := do
  let rest ← Text.char? '@' (Text.trimLeft line)
  let rest := Text.trimLeft rest
  if rest.head?.any isNameStart then
    some (rest.takeWhile fun char => isWordChar char || char == '.')
  else none

/-- The lines after a header that is still open at `depth` brackets: the last line of the header, if
it is not `line` itself, and what follows it. -/
def afterHeader (depth : Int) (line : Text) : List Text → Text × List Text
  | [] => (line, [])
  | next :: rest =>
      if depth > 0 then afterHeader (depth + Text.bracketDelta next) next rest
      else (line, next :: rest)

/-- Reads the end of a header after its closing parenthesis: an optional result annotation and a
colon. -/
def afterColon? (text : Text) : Option Text :=
  let rest := Text.trimLeft text
  match Text.after? ['-', '>'] rest with
  | some result => Text.char? ':' (result.dropWhile fun char => char != ':')
  | none => Text.char? ':' rest

def inlineBody? : Text → Option Text
  | [] => none
  | char :: rest =>
      match if char == ')' then afterColon? rest else none with
      | some body => some body
      | none => inlineBody? rest

/-- The body of a function: the visible rest of its header's last line, and the following lines up
to the first visible one that is not indented deeper than the header. -/
def bodyLines (indent : Nat) (headerEnd : Text) (following : List Text) : List Text :=
  ((inlineBody? headerEnd).filter fun body => !Text.isBlankText body).toList ++
    following.takeWhile fun line =>
      Text.isBlankText line || Text.indentWidth standardTabWidth line > indent

/-- The functions of blanked lines, of which the first has the given number; `decorators` are those
that wait for their function. -/
def functionsFrom (number : Nat) (decorators : List Text) : List Text → List Function
  | [] => []
  | line :: rest =>
      match decorator? line with
      | some decorator => functionsFrom (number + 1) (decorators ++ [decorator]) rest
      | none =>
          match header? line with
          | some (margin, name) =>
              let (headerEnd, following) := afterHeader (Text.bracketDelta line) line rest
              let indent := Text.indentWidth standardTabWidth margin
              ⟨name, number, decorators, bodyLines indent headerEnd following⟩ ::
                functionsFrom (number + 1) [] rest
          | none =>
              functionsFrom (number + 1) (if Text.isBlankText line then decorators else []) rest

/-- The functions of a cell. A nested function also belongs to the body of the one around it. -/
def functions (source : Text) : List Function :=
  functionsFrom 1 [] (Text.lines (Text.blanked source))

namespace Function

def hasReturn (function : Function) : Bool :=
  function.body.any fun line =>
    (Text.word? "return" (Text.trimLeft line)).isSome ||
      (Text.words line).any fun word => word.text == "yield".toList

def isStubLine (line : Text) : Bool :=
  let statement := Text.trim line
  (statement.all fun char => char == '"' || char == '\x27' || char == ' ') ||
    statement == "pass".toList || statement == "...".toList ||
    Text.startsWith "raise".toList statement

def isStub (function : Function) : Bool :=
  function.body.all isStubLine

def isSetter (function : Function) : Bool :=
  function.decorators.any fun decorator => Text.endsWith ".setter".toList decorator

def resultNames : List Text :=
  Names.ofStrings
    ["result", "total", "sum", "count", "output", "value", "answer", "res", "ret", "data"]

def updateOperators : List Text :=
  Names.ofStrings ["+=", "-=", "*=", "/="]

def computingVerbs : List Text :=
  Names.ofStrings
    ["get_", "calculate_", "compute_", "find_", "create_", "build_", "make_", "generate_",
      "parse_", "convert_", "transform_", "extract_", "fetch_", "load_", "read_"]

/-- Whether a text starts with an assignment to something that ends in a result-like name, or with
an update. -/
def startsComputation (text : Text) : Bool :=
  (resultNames.any fun name =>
    ((Text.after? name text).map Text.trimLeft).any fun rest => rest.head? == some '=') ||
  updateOperators.any fun operator => Text.startsWith operator text

def looksComputing (function : Function) : Bool :=
  (Text.suffixes (Text.ofLines function.body)).any startsComputation ||
    computingVerbs.any fun verb => Text.startsWith verb function.name

def conventionalNames : List Text :=
  Names.ofStrings
    ["__init__", "__del__", "__setattr__", "__delattr__", "__setitem__", "__delitem__",
      "__enter__", "__exit__", "setUp", "tearDown", "setUpClass", "tearDownClass", "setup",
      "teardown", "main"]

def lacksReturn (function : Function) : Bool :=
  !conventionalNames.contains function.name && !function.isSetter && !function.isStub &&
    !function.hasReturn && function.looksComputing

end Function

def findings (source : Text) : List Finding :=
  ((functions source).filter Function.lacksReturn).map
    fun function => ⟨.missingReturn function.name, function.line, none⟩

end NotebookLint.MissingReturn
