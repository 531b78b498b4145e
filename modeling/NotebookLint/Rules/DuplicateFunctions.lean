import NotebookLint.Definitions.Scope

/-!
# Duplicate functions

A function or class may not repeat the name of another one in the same scope. The report cites the
line of the first of them.
-/

set_option autoImplicit false

namespace NotebookLint.DuplicateFunctions

/-- The findings among definitions; `earlier` holds those before them, the latest first. -/
def repeated (earlier : List ScopedDefinition) : List ScopedDefinition → List Finding
  | [] => []
  | current :: rest =>
      let first? := earlier.reverse.find? fun other =>
        other.scope == current.scope && other.definition.name == current.definition.name
      let here :=
        match first? with
        | some first =>
            let definition := current.definition
            [⟨.repeatedDefinition definition.kind definition.name first.definition.line,
              definition.line, none⟩]
        | none => []
      here ++ repeated (current :: earlier) rest

def findings (source : Text) : List Finding :=
  repeated [] (Text.definitions source)

end NotebookLint.DuplicateFunctions
