import NotebookLint.Lexical.Words
import NotebookLint.Names.Reserved

/-!
# Binding patterns of a line

The places of a blanked line that bind names: assignments, annotations, assignment expressions,
loop targets, aliases, anonymous functions and scope declarations. Each is a small recogniser
that reads the line from left to right.
-/

set_option autoImplicit false

namespace NotebookLint.Names

def bareNames (text : Text) : List Text :=
  ((Text.names text).map Word.text).filter fun name => !isKeyword name

def skipChar (expected : Char) (text : Text) : Text :=
  (Text.char? expected text).getD text

def target? (text : Text) : Option (Text × Text) :=
  Text.name? (skipChar '*' text)

/-- Reads further targets, each after a comma; `fuel` bounds their number. -/
def furtherTargets : (fuel : Nat) → Text → List Text × Text
  | 0, text => ([], text)
  | fuel + 1, text =>
      match (Text.char? ',' (Text.trimLeft text)).bind fun rest => target? (Text.trimLeft rest) with
      | some (name, rest) =>
          let (names, rest) := furtherTargets fuel rest
          (name :: names, rest)
      | none => ([], text)

/-- Reads a group of targets with its equals sign: names separated by commas, possibly with a comma
after the last one and parentheses around them. Every target takes a character, so the length of
the text bounds their number. -/
def targetGroup? (text : Text) : Option (List Text × Text) := do
  let start := Text.trimLeft (skipChar '(' (Text.trimLeft text))
  let (first, rest) ← target? start
  let (others, rest) := furtherTargets rest.length rest
  let rest := Text.trimLeft (skipChar ',' (Text.trimLeft rest))
  let rest ← Text.assignSign? (skipChar ')' rest)
  pure (first :: others, rest)

def chainedTargets : (fuel : Nat) → Text → List Text
  | 0, _ => []
  | fuel + 1, text =>
      match targetGroup? text with
      | some (names, rest) => names ++ chainedTargets fuel rest
      | none => []

def annotated? (line : Text) : Option Text := do
  let (name, rest) ← Text.name? (Text.trimLeft line)
  let rest ← Text.char? ':' (Text.trimLeft rest)
  if rest.head? != some '=' && !Text.isBlankText rest then some name else none

def assignmentTargets (line : Text) : List Text :=
  (chainedTargets (line.length + 1) line ++ (annotated? line).toList).filter fun name =>
    !isKeyword name

def startsStatement (line : Text) : Bool :=
  (ofStrings ["if", "elif", "while", "for", "with", "except", "assert", "return"]).contains
    (Text.firstWord line)

def className? (line : Text) : Option Text :=
  (((Text.after? "class".toList (Text.trimLeft line)).bind Text.gap?).bind Text.name?).map Prod.fst

/-- The names that assignment expressions bind. The name is the part of a word that starts with its
first letter or underscore; `skipped` says that the text stands inside a word after that part
began, so that no name starts here. -/
def walrusFrom (skipped : Bool) : Text → List Text
  | [] => []
  | char :: rest =>
      let here :=
        if skipped || !isNameStart char then []
        else if Text.startsWith [':', '='] (Text.trimLeft (rest.dropWhile isWordChar)) then
          [char :: rest.takeWhile isWordChar]
        else []
      here ++ walrusFrom (isWordChar char && (skipped || isNameStart char)) rest

def walrusTargets (line : Text) : List Text :=
  walrusFrom false line

/-- What stands before the first blank that begins `in` as a word of its own after blanks, and what
follows that word. -/
def beforeIn? : Text → Option (Text × Text)
  | [] => none
  | char :: rest =>
      match if isBlank char then Text.word? "in" (Text.trimLeft rest) else none with
      | some after => some ([], after)
      | none => (beforeIn? rest).map fun (before, after) => (char :: before, after)

/-- Reads the targets of a loop after its word `for`: at least one character up to the word `in`. -/
def loopTargets? (text : Text) : Option (Text × Text) := do
  match ← Text.gap? text with
  | [] => none
  | char :: rest => (beforeIn? rest).map fun (before, after) => (char :: before, after)

/-- The target texts of the loops of a line. `atWordStart` says that a word may start here, and
`passed` counts characters that belong to a loop already read. -/
def loopTargetsFrom (atWordStart : Bool) : (passed : Nat) → Text → List Text
  | _, [] => []
  | passed + 1, char :: rest => loopTargetsFrom (!isWordChar char) passed rest
  | 0, char :: rest =>
      match
        if atWordStart then (Text.after? "for".toList (char :: rest)).bind loopTargets? else none
      with
      | some (targets, after) =>
          targets :: loopTargetsFrom (!isWordChar char) (rest.length - after.length) rest
      | none => loopTargetsFrom (!isWordChar char) 0 rest

def loopNames (line : Text) : List Text :=
  (loopTargetsFrom true 0 line).flatMap bareNames

def asAlias? (text : Text) : Option (Text × Text) :=
  ((Text.after? "as".toList text).bind Text.gap?).bind Text.name?

def aliasesFrom (atWordStart : Bool) : (passed : Nat) → Text → List Text
  | _, [] => []
  | passed + 1, char :: rest => aliasesFrom (!isWordChar char) passed rest
  | 0, char :: rest =>
      match if atWordStart then asAlias? (char :: rest) else none with
      | some (name, after) =>
          name :: aliasesFrom (!isWordChar char) (rest.length - after.length) rest
      | none => aliasesFrom (!isWordChar char) 0 rest

def contextAliases (line : Text) : List Text :=
  if (Text.word? "with" (Text.skipWord "async" (Text.trimLeft line))).isSome then
    aliasesFrom true 0 line
  else []

def exceptionAlias? (line : Text) : Option Text := do
  let rest ← Text.word? "except" (Text.trimLeft line)
  (aliasesFrom false 0 rest).head?

def lambdaParametersFrom (atWordStart : Bool) : (passed : Nat) → Text → List Text
  | _, [] => []
  | passed + 1, char :: rest => lambdaParametersFrom (!isWordChar char) passed rest
  | 0, char :: rest =>
      match if atWordStart then Text.word? "lambda" (char :: rest) else none with
      | some after =>
          if after.contains ':' then
            let parameters := after.takeWhile fun char => char != ':'
            parameters ::
              lambdaParametersFrom (!isWordChar char) ("ambda".length + parameters.length + 1) rest
          else []
      | none => lambdaParametersFrom (!isWordChar char) 0 rest

def lambdaParameters (line : Text) : List Text :=
  lambdaParametersFrom true 0 line

def scopeDeclaration (line : Text) : List Text :=
  let start := Text.trimLeft line
  let rest :=
    (Text.after? "global".toList start).bind Text.gap? <|>
      (Text.after? "nonlocal".toList start).bind Text.gap?
  bareNames (rest.getD [])

end NotebookLint.Names
