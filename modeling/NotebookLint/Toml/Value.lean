import NotebookLint.Text.Basic

/-!
# TOML values

The values of a configuration file. Of numbers with a fraction and of dates and times only the kind
is kept, because nothing depends on their value. A table keeps its entries in the order in which
they were written.
-/

set_option autoImplicit false

namespace NotebookLint

inductive Toml where
  | string (value : Text)
  | integer (value : Int)
  | float
  | boolean (value : Bool)
  | dateTime
  | date
  | time
  | array (items : List Toml)
  | table (entries : List (Text × Toml))
  deriving Inhabited

namespace Toml

abbrev Table := List (Text × Toml)

/-- The path to a value: the keys of the tables around it and its own. -/
abbrev Key := List Text

def Table.get? (table : Table) (key : Text) : Option Toml :=
  (table.find? fun entry => entry.1 == key).map Prod.snd

def Table.set (key : Text) (value : Toml) : Table → Table
  | [] => [(key, value)]
  | entry :: entries =>
      if entry.1 == key then (key, value) :: entries else entry :: Table.set key value entries

/-- Changes the table under a key. Tables on the way are made where they are missing; an array on
the way stands for its last item if `throughArrays` holds, and any other value makes the change
impossible. -/
def Table.modify (throughArrays : Bool) (change : Table → Option Table) : Key → Table → Option Table
  | [], entries => change entries
  | key :: keys, entries =>
      match Table.get? entries key with
      | none =>
          (Table.modify throughArrays change keys []).map fun inner =>
            Table.set key (.table inner) entries
      | some (.table inner) =>
          (Table.modify throughArrays change keys inner).map fun inner =>
            Table.set key (.table inner) entries
      | some (.array items) =>
          match throughArrays, items.getLast? with
          | true, some (.table inner) =>
              (Table.modify throughArrays change keys inner).map fun inner =>
                Table.set key (.array (items.dropLast ++ [.table inner])) entries
          | _, _ => none
      | some _ => none

def Table.insert? (key : Text) (value : Toml) (table : Table) : Option Table :=
  if (Table.get? table key).isSome then none else some (table ++ [(key, value)])

def Table.append? (key : Text) (table : Table) : Option Table :=
  match Table.get? table key with
  | none => some (table ++ [(key, .array [.table []])])
  | some (.array items) => some (table.set key (.array (items ++ [.table []])))
  | some _ => none

end Toml

end NotebookLint
