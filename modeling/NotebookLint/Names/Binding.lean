import NotebookLint.Imports.Binding
import NotebookLint.Names.Signature
import NotebookLint.Names.Target

/-!
# Names that a cell binds

A cell binds the names of its functions, classes and parameters, its assignment, loop and
comprehension targets, aliases, imports, and the names it declares to belong to an outer scope,
whatever the scope in which it does so. Directives bind nothing.
-/

set_option autoImplicit false

namespace NotebookLint.Names

/-- The names that one code line binds. A line inside brackets assigns nothing: an equals sign there
passes an argument. -/
def lineBindings (line : CodeLine) : List Text :=
  let clean := line.clean
  (className? clean).toList ++
    (if line.insideBrackets || startsStatement clean then [] else assignmentTargets clean) ++
    walrusTargets clean ++
    loopNames clean ++
    contextAliases clean ++
    (exceptionAlias? clean).toList ++
    (lambdaParameters clean).flatMap parameterNames ++
    scopeDeclaration clean

def signatureNames (source : Text) : List Text :=
  (signatures (Text.blanked source)).flatMap fun (name, parameters) =>
    name :: parameterNames parameters

def importedNames (source : Text) : List Text :=
  ((Text.importBindings source).filter fun binding => !binding.isWildcard).map ImportBinding.name

def definedNames (source : Text) : List Text :=
  let bound :=
    signatureNames source ++ importedNames source ++ (Text.codeLines source).flatMap lineBindings
  bound.filter fun name => !isKeyword name

end NotebookLint.Names
