import NotebookLint.Diagnostic
import NotebookLint.Lexical.Glyph

/-!
# Unclosed brackets

Every bracket has to be closed by one of its own kind. The rule reads the cell with a scan of its
own in which every literal is opaque, replacement fields included. A closer that does not match the
innermost opener leaves that opener in place, so that one stray bracket does not lead to reports
about all brackets after it.
-/

set_option autoImplicit false

namespace NotebookLint.UnclosedBrackets

inductive Region where
  | code
  | comment
  /-- Inside a literal, with three quotes on each side if it is `long` and with one otherwise. -/
  | literal (quote : Char) (long : Bool)
  /-- Before `more + 1` characters that are hidden whatever they are. -/
  | skip (more : Nat) (next : Region)
  deriving DecidableEq, Repr

def hidden (char : Char) : Char :=
  if char == '\n' then '\n' else ' '

def afterCode (char : Char) (rest : Text) : Region :=
  if char == '#' then .comment
  else if isQuote char then
    if pairAhead char rest then .skip 1 (.literal char true) else .literal char false
  else .code

/-- The region after a character in a literal. A backslash that has a character after it hides that
character, and a line break ends a literal with one quote on each side. -/
def afterLiteral (quote : Char) (long : Bool) (char : Char) (rest : Text) : Region :=
  if char == '\\' && !rest.isEmpty then .skip 0 (.literal quote long)
  else if long then
    if char == quote && pairAhead quote rest then .skip 1 .code else .literal quote long
  else if char == quote || char == '\n' then .code
  else .literal quote long

def hideFrom : Region → Text → Text
  | _, [] => []
  | .code, char :: rest =>
      (if char == '#' || isQuote char then ' ' else char) :: hideFrom (afterCode char rest) rest
  | .comment, char :: rest =>
      hidden char :: hideFrom (if char == '\n' then .code else .comment) rest
  | .literal quote long, char :: rest =>
      hidden char :: hideFrom (afterLiteral quote long char rest) rest
  | .skip 0 next, char :: rest => hidden char :: hideFrom next rest
  | .skip (more + 1) next, char :: rest => hidden char :: hideFrom (.skip more next) rest

/-- A text with its literals and comments hidden. Positions and line breaks stay as they are. -/
def hideLiterals (text : Text) : Text :=
  hideFrom .code text

structure Bracket where
  char : Char
  line : Nat
  column : Nat
  deriving DecidableEq, Repr

def bracketsFrom (line column : Nat) : Text → List Bracket
  | [] => []
  | char :: rest =>
      if char == '\n' then bracketsFrom (line + 1) 1 rest
      else if isOpener char || isCloser char then
        ⟨char, line, column⟩ :: bracketsFrom line (column + 1) rest
      else bracketsFrom line (column + 1) rest

def brackets (source : Text) : List Bracket :=
  bracketsFrom 1 1 (hideLiterals source)

def closerOf (opener : Char) : Char :=
  if opener == '(' then ')' else if opener == '[' then ']' else '\x7d'

/-- The findings about brackets, `unclosed` being the openers not yet closed, innermost first. The
openers that stay unclosed are reported last, in the order of the text. -/
def matchFrom (unclosed : List Bracket) : List Bracket → List Finding
  | [] =>
      unclosed.reverse.map fun opener =>
        ⟨.unclosedOpener opener.char opener.column, opener.line, some opener.column⟩
  | bracket :: rest =>
      if isOpener bracket.char then matchFrom (bracket :: unclosed) rest
      else
        match unclosed with
        | [] =>
            ⟨.unmatchedCloser bracket.char, bracket.line, some bracket.column⟩ :: matchFrom [] rest
        | opener :: outer =>
            if closerOf opener.char == bracket.char then matchFrom outer rest
            else
              ⟨.mismatchedCloser (closerOf opener.char) bracket.char, bracket.line,
                some bracket.column⟩ :: matchFrom (opener :: outer) rest

def findings (source : Text) : List Finding :=
  matchFrom [] (brackets source)

end NotebookLint.UnclosedBrackets
