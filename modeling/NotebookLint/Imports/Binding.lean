import NotebookLint.Lexical.Lines
import NotebookLint.Lexical.Words

/-!
# Import bindings

The names that import statements bind. `import a.b` binds `a`, `import a.b as c` binds `c` and
`from m import x as y` binds `y`. A from-import may go on over several lines, in parentheses or by
backslashes.
-/

set_option autoImplicit false

namespace NotebookLint

/-- A name bound by an import statement on a line of its cell. The name of a wildcard import is the
star. -/
structure ImportBinding where
  name : Text
  module : Text
  line : Nat
  deriving DecidableEq, Repr

namespace ImportBinding

def isWildcard (binding : ImportBinding) : Bool :=
  binding.name == ['*']

end ImportBinding

namespace Import

/-- Reads the module and what follows the word `import` of a line that holds a from-import. -/
def fromHeader? (line : Text) : Option (Text × Text) := do
  let rest ← (Text.after? "from".toList (Text.trimLeft line)).bind Text.gap?
  let module := rest.takeWhile fun char => !isBlank char
  if module.isEmpty then none
  let rest ← Text.gap? (rest.dropWhile fun char => !isBlank char)
  let members ← (Text.after? "import".toList rest).bind Text.gap?
  pure (module, members)

def plainHeader? (line : Text) : Option Text :=
  (Text.after? "import".toList (Text.trimLeft line)).bind Text.gap?

def throughParenthesis : List Text → List Text
  | [] => []
  | line :: following =>
      if line.contains ')' then [line] else line :: throughParenthesis following

/-- The pieces of a statement that goes on over following lines as long as its last line ends in a
backslash, which is dropped. -/
def backslashPieces (piece : Text) : List Text → List Text
  | [] => [piece]
  | next :: following =>
      if Text.endsWithBackslash piece then
        (Text.trimRight piece).dropLast :: backslashPieces next following
      else [piece]

/-- The member list of a from-import whose first line ends in `members`, with the lines it goes on
over joined to it by spaces. -/
def memberList (members : Text) (following : List Text) : Text :=
  if (Text.trimLeft members).head? == some '(' && !members.contains ')' then
    Text.join [' '] (members :: throughParenthesis following)
  else Text.join [' '] (backslashPieces members following)

def members (list : Text) : List Text :=
  let bare := list.map fun char => if char == '(' || char == ')' then ' ' else char
  (Text.splitOn ',' bare).map Text.trim

/-- Reads the alias after a member: nothing at the end of the member, or the word `as` and a
name. -/
def alias? (rest : Text) : Option (Option Text) :=
  if rest.isEmpty then some none
  else do
    let rest ← (Text.gap? rest).bind (Text.after? "as".toList)
    let (name, rest) ← (Text.gap? rest).bind Text.name?
    if rest.isEmpty then some (some name) else none

def memberName? (member : Text) : Option Text := do
  let (name, rest) ← Text.name? member
  let renamed ← alias? rest
  pure (renamed.getD name)

/-- The name that a member of a plain import binds, and the module it names. -/
def moduleName? (member : Text) : Option (Text × Text) := do
  if !member.head?.any isNameStart then none
  let isModuleChar := fun char => isWordChar char || char == '.'
  let module := member.takeWhile isModuleChar
  let renamed ← alias? (member.dropWhile isModuleChar)
  pure (renamed.getD (module.takeWhile fun char => char != '.'), module)

def lineBindings (line : SourceLine) (following : List Text) : List ImportBinding :=
  match fromHeader? line.clean with
  | some (module, list) =>
      (members (memberList list following)).filterMap fun member =>
        if member == ['*'] then some ⟨member, module, line.number⟩
        else (memberName? member).map fun name => ⟨name, module, line.number⟩
  | none =>
      match plainHeader? line.clean with
      | some list =>
          (members list).filterMap fun member =>
            (moduleName? member).map fun (name, module) => ⟨name, module, line.number⟩
      | none => []

def bindingsOf : List SourceLine → List ImportBinding
  | [] => []
  | line :: following =>
      (if SourceLine.isDirective line.raw then []
        else lineBindings line (following.map SourceLine.clean)) ++ bindingsOf following

end Import

namespace Text

def importBindings (source : Text) : List ImportBinding :=
  Import.bindingsOf (sourceLines source)

end Text

end NotebookLint
