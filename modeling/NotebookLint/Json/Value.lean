import NotebookLint.Text.Basic

/-!
# JSON values

Integers are kept apart from other numbers, because only an integer can be a cell index. An
object keeps its members in the order in which they were written.
-/

set_option autoImplicit false

namespace NotebookLint

inductive Json where
  | null
  | bool (value : Bool)
  | integer (value : Int)
  /-- A number with a fraction or an exponent, an infinity or no number at all. Nothing depends on
  its value. -/
  | decimal
  | string (value : Text)
  | array (items : List Json)
  | object (members : List (Text × Json))
  deriving Inhabited

namespace Json

/-- The member of an object under a key, the last one written if there are several. -/
def member? (key : String) : Json → Option Json
  | .object members =>
      (members.reverse.find? fun entry => entry.1 == key.toList).map Prod.snd
  | _ => none

def text? : Json → Option Text
  | .string value => some value
  | _ => none

def integer? : Json → Option Int
  | .integer value => some value
  | _ => none

end Json

end NotebookLint
