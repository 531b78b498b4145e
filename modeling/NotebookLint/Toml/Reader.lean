import NotebookLint.Toml.Scalar

/-!
# Reading TOML documents

A document is a sequence of statements, one a line: entries, table headers and headers of array
items. A name may be given a value only once, a table may be opened by a header only once, and
what was written inline cannot be extended later. The first fault in the text decides whether it is
invalid or beyond a limit.
-/

set_option autoImplicit false

namespace NotebookLint.Toml

/-- Drops a comment. There is none in a text that starts with a comment holding a control
character. -/
def afterComment? (text : Text) : Option Text :=
  match text with
  | '#' :: rest =>
      if (rest.takeWhile fun char => char != '\n').any isControl then none
      else some (rest.dropWhile fun char => char != '\n')
  | _ => some text

def skipCommentsFrom : (fuel : Nat) → Text → Option Text
  | 0, text => some text
  | fuel + 1, text =>
      match skipLines text with
      | '#' :: rest => (afterComment? ('#' :: rest)).bind (skipCommentsFrom fuel)
      | rest => some rest

def skipComments? (text : Text) : Option Text :=
  skipCommentsFrom (text.length + 1) text

def isBareKeyChar (char : Char) : Bool :=
  ('a' ≤ char && char ≤ 'z') || ('A' ≤ char && char ≤ 'Z') || isDigit char ||
    char == '-' || char == '_'

def keyPart? (text : Text) : Option (Text × Text) :=
  match text with
  | [] => none
  | char :: rest =>
      if isBareKeyChar char then some (text.takeWhile isBareKeyChar, text.dropWhile isBareKeyChar)
      else if char == '\x27' then literal? rest
      else if char == '"' then basicFrom false (rest.length + 1) [] rest
      else none

def keyFrom : (fuel : Nat) → Text → Option (Key × Text)
  | 0, _ => none
  | fuel + 1, text => do
      let (part, rest) ← keyPart? text
      match skip rest with
      | '.' :: rest => do
          let (parts, rest) ← keyFrom fuel (skip rest)
          some (part :: parts, rest)
      | rest => some ([part], rest)

def key? (text : Text) : Option (Key × Text) :=
  keyFrom (text.length + 1) text

def isBelow (keys : List Key) (key : Key) : Bool :=
  keys.any fun outer => outer.isPrefixOf key

def isContainer : Toml → Bool
  | .array _ => true
  | .table _ => true
  | _ => false

/-- Adds an entry to an inline table; `closed` are the keys of inline values before it. -/
def addInline? (closed : List Key) (table : Table) (key : Key) (value : Toml) : Option Table :=
  if isBelow closed key then none
  else
    match key.getLast? with
    | none => none
    | some last => Table.modify false (Table.insert? last value) key.dropLast table

/-- The depth to which values may stand inside each other: an array takes two steps of it, and an
inline table three. -/
def maxDepth : Nat := 988

def roomInside (steps room : Nat) : Except Fault Nat :=
  if room < steps then .error (.limit (.tooDeep .tomlValue)) else .ok (room - steps)

mutual

/-- Reads a value; `fuel` bounds the number of values and entries, and `room` is the depth that is
left. -/
def valueFrom : (fuel room : Nat) → Text → Except Fault (Toml × Text)
  | 0, _, _ => .error .invalid
  | fuel + 1, room, text =>
      match text with
      | '[' :: rest => do
          let room ← roomInside 2 room
          let rest ← orInvalid (skipComments? rest)
          match rest with
          | ']' :: rest => .ok (.array [], rest)
          | rest => itemsFrom fuel room [] rest
      | '\x7b' :: rest => do
          let room ← roomInside 3 room
          match skip rest with
          | '\x7d' :: rest => .ok (.table [], rest)
          | rest => entriesFrom fuel room [] [] rest
      | '"' :: _ => (orInvalid (string? text)).map fun (value, rest) => (.string value, rest)
      | '\x27' :: _ => (orInvalid (string? text)).map fun (value, rest) => (.string value, rest)
      | _ => plainScalar text

def itemsFrom : (fuel room : Nat) → (done : List Toml) → Text → Except Fault (Toml × Text)
  | 0, _, _, _ => .error .invalid
  | fuel + 1, room, done, text => do
      let (item, rest) ← valueFrom fuel room text
      let rest ← orInvalid (skipComments? rest)
      match rest with
      | ']' :: rest => .ok (.array (item :: done).reverse, rest)
      | ',' :: rest => do
          let rest ← orInvalid (skipComments? rest)
          match rest with
          | ']' :: rest => .ok (.array (item :: done).reverse, rest)
          | rest => itemsFrom fuel room (item :: done) rest
      | _ => .error .invalid

def entriesFrom :
    (fuel room : Nat) → (closed : List Key) → Table → Text → Except Fault (Toml × Text)
  | 0, _, _, _, _ => .error .invalid
  | fuel + 1, room, closed, entries, text => do
      let (key, rest) ← orInvalid (key? text)
      let rest ← orInvalid (mark? '=' rest)
      let (value, rest) ← valueFrom fuel room (skip rest)
      let entries ← orInvalid (addInline? closed entries key value)
      match skip rest with
      | '\x7d' :: rest => .ok (.table entries, rest)
      | ',' :: rest =>
          let closed := if isContainer value then key :: closed else closed
          entriesFrom fuel room closed entries (skip rest)
      | _ => .error .invalid

end

def value (text : Text) : Except Fault (Toml × Text) :=
  valueFrom (2 * text.length + 2) maxDepth text

structure Draft where
  table : Table
  header : Key
  /-- The tables that no header may open any more. -/
  opened : List Key
  /-- The tables that dotted keys have opened since the last header. -/
  dotted : List Key
  /-- The values that were written inline. -/
  closed : List Key

namespace Draft

def empty : Draft := ⟨[], [], [], [], []⟩

/-- The draft at a header: the tables opened by dotted keys count as opened from now on. -/
def settle (draft : Draft) : Draft :=
  { draft with opened := draft.dotted ++ draft.opened, dotted := [] }

def openTable? (key : Key) (draft : Draft) : Option Draft :=
  let draft := draft.settle
  if draft.opened.contains key || isBelow draft.closed key then none
  else
    (draft.table.modify true some key).map fun table =>
      { draft with table, header := key, opened := key :: draft.opened }

/-- Adds an item to the array of tables of a header. What was said about the item before it does not
bind the new one. -/
def openItem? (key : Key) (draft : Draft) : Option Draft :=
  let draft := draft.settle
  if isBelow draft.closed key then none
  else
    match key.getLast? with
    | none => none
    | some last =>
        (draft.table.modify true (Table.append? last) key.dropLast).map fun table =>
          { draft with
            table
            header := key
            opened := key :: draft.opened.filter fun other => !key.isPrefixOf other
            closed := draft.closed.filter fun other => !key.isPrefixOf other }

def around (header key : Key) : List Key :=
  ((List.range key.length).drop 1).map fun count => header ++ key.take count

def addEntry? (key : Key) (value : Toml) (draft : Draft) : Option Draft :=
  let outer := around draft.header key
  let parent := draft.header ++ key.dropLast
  if outer.any draft.opened.contains || isBelow draft.closed parent then none
  else
    match key.getLast? with
    | none => none
    | some last =>
        (draft.table.modify true (Table.insert? last value) parent).map fun table =>
          { draft with
            table
            dotted := outer ++ draft.dotted
            closed :=
              if isContainer value then (draft.header ++ key) :: draft.closed
              else draft.closed }

end Draft

def statement (draft : Draft) (text : Text) : Except Fault (Draft × Text) :=
  match text with
  | '[' :: '[' :: rest => orInvalid do
      let (key, rest) ← key? (skip rest)
      let draft ← draft.openItem? key
      let rest ← Text.after? [']', ']'] rest
      some (draft, skip rest)
  | '[' :: rest => orInvalid do
      let (key, rest) ← key? (skip rest)
      let draft ← draft.openTable? key
      let rest ← mark? ']' rest
      some (draft, skip rest)
  | '#' :: _ => .ok (draft, text)
  | _ => do
      let (key, rest) ← orInvalid (key? text)
      let rest ← orInvalid (mark? '=' rest)
      let (value, rest) ← value (skip rest)
      let draft ← orInvalid (draft.addEntry? key value)
      .ok (draft, skip rest)

def statementsFrom : (fuel : Nat) → Draft → Text → Except Fault Table
  | 0, _, _ => .error .invalid
  | fuel + 1, draft, text =>
      match skip text with
      | [] => .ok draft.table
      | '\n' :: rest => statementsFrom fuel draft rest
      | text => do
          let (draft, rest) ← statement draft text
          let rest ← orInvalid (afterComment? rest)
          match rest with
          | [] => .ok draft.table
          | '\n' :: rest => statementsFrom fuel draft rest
          | _ => .error .invalid

def dropReturns : Text → Text
  | [] => []
  | '\r' :: '\n' :: rest => '\n' :: dropReturns rest
  | char :: rest => char :: dropReturns rest

def parse (text : Text) : Except Fault Table :=
  let text := dropReturns text
  statementsFrom (text.length + 1) .empty text

end NotebookLint.Toml
