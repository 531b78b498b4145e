import NotebookLint.Command.Arguments
import NotebookLint.Command.Search
import NotebookLint.Config
import NotebookLint.Engine.Lint
import NotebookLint.Json.Printer
import NotebookLint.Notebook.Load
import NotebookLint.Report

/-!
# The check command

Lints the notebooks that the arguments name and reports on them as text or JSON. A notebook that
cannot be loaded adds an error line and nothing else, unless it is beyond a limit, which stops the
run. The exit code is one if anything was reported and two if the arguments cannot be understood.

Reports and error lines are printed as the platform prints plain text. Log entries are written as
they are.
-/

set_option autoImplicit false

namespace NotebookLint.Command

open File (Path Tree)

/-- What a run leaves to the machine and the libraries under the program. -/
structure Platform where
  /-- The least width of a tab for which there is no memory. -/
  memory : Nat
  /-- What becomes of a line that is printed where no terminal reads it. -/
  plain : String → String
  /-- What is said about a text that is no TOML. -/
  tomlFault : Text → String

inductive Outcome where
  | usageError
  | finished (exitCode : Nat) (standardOutput errorOutput : String)
  deriving DecidableEq, Repr

inductive RunFault where
  | config (fault : ConfigFault)
  | search (fault : SearchFault)
  | load (fault : LoadFault)

namespace RunFault

def message : RunFault → String
  | .config fault => fault.message
  | .search fault => fault.fault.message fault.path
  | .load fault => fault.message

end RunFault

inductive Notice where
  | logged (entry : LogEntry)
  | loadFault (fault : LoadFault)

namespace Notice

/-- How a notice is printed. Log entries show level and origin in a verbose run, and otherwise
appear only if they are warnings or errors. -/
def line? (platform : Platform) (verbose : Bool) : Notice → Option String
  | .loadFault fault => some (platform.plain s!"error: {fault.message}")
  | .logged entry =>
      let message := entry.message platform.tomlFault
      if verbose then some s!"{entry.level.label}:{entry.origin}:{message}"
      else if entry.level == .debug then none
      else some message

end Notice

structure FileResult where
  path : Path
  diagnostics : Option (List Diagnostic)
  notices : List Notice

/-- Checks one file with an engine, which then knows the names of that file. -/
def checkFile (tree : Tree) (least : Severity) (engine : Engine) (path : Path) :
    Except RunFault (FileResult × Engine) :=
  match Notebook.load tree path with
  | .error fault =>
      if fault.stopsRun then .error (.load fault)
      else .ok (⟨path, none, [.loadFault fault]⟩, engine)
  | .ok cells =>
      let (result, engine) := engine.lintNotebook cells
      .ok (⟨path, some (Report.atLeast least result.diagnostics), result.log.map .logged⟩, engine)

def checkFiles (tree : Tree) (least : Severity) :
    Engine → List Path → Except RunFault (List FileResult)
  | _, [] => .ok []
  | engine, path :: rest => do
      let (result, engine) ← checkFile tree least engine path
      let others ← checkFiles tree least engine rest
      pure (result :: others)

namespace FileResult

def reported (result : FileResult) : List Diagnostic :=
  result.diagnostics.getD []

end FileResult

def textLine (path : Path) (diagnostic : Diagnostic) : String :=
  let number (value : Option Int) := (value.map toString).getD "None"
  let file := String.ofList path.toText
  let place := s!"{file}:cell {number diagnostic.cellIndex}:line {number diagnostic.cellLine}"
  s!"{place}: {diagnostic.rule} {diagnostic.severity.label} {diagnostic.message}"

def jsonNumber (value : Option Int) : Json :=
  (value.map Json.integer).getD .null

def jsonDiagnostic (diagnostic : Diagnostic) : Json :=
  .object
    [("line".toList, .integer diagnostic.line),
      ("column".toList, jsonNumber diagnostic.column),
      ("message".toList, .string diagnostic.message.toList),
      ("severity".toList, .string diagnostic.severity.label.toList),
      ("rule".toList, .string diagnostic.rule.toList),
      ("cellIndex".toList, jsonNumber diagnostic.cellIndex),
      ("cellLine".toList, jsonNumber diagnostic.cellLine)]

def jsonStats (stats : Report.Stats) : Json :=
  let severities := stats.bySeverity.map fun (severity, count) =>
    (severity.label.toList, Json.integer count)
  let rules := stats.byRule.map fun (rule, count) => (rule.toList, Json.integer count)
  .object
    [("total".toList, .integer stats.total),
      ("bySeverity".toList, .object severities),
      ("byRule".toList, .object rules)]

def jsonReport (withStats : Bool) (results : List FileResult) : Json :=
  let files := results.filterMap fun result =>
    result.diagnostics.map fun diagnostics =>
      (result.path.toText, .array (diagnostics.map jsonDiagnostic))
  let stats := Report.stats (results.flatMap FileResult.reported)
  .object
    (("files".toList, .object files) ::
      if withStats then [("stats".toList, jsonStats stats)] else [])

def statsLines (stats : Report.Stats) : List String :=
  let severities := stats.bySeverity.map fun (severity, count) => s!"{count} {severity.label}"
  let rules :=
    stableSort (fun left right => !Text.precedes right.1.toList left.1.toList) stats.byRule
  let summary := ", ".intercalate severities
  s!"{stats.total} diagnostics ({summary})" :: rules.map fun (rule, count) => s!"  {rule}: {count}"

def textReport (withStats : Bool) (results : List FileResult) : List String :=
  (results.flatMap fun result => result.reported.map (textLine result.path)) ++
    if withStats then statsLines (Report.stats (results.flatMap FileResult.reported)) else []

def printed (lines : List String) : String :=
  String.join (lines.map fun line => line ++ "\n")

/-- The severity from which on to report: the one asked for, or else the configured one. Nothing if
an unknown one is asked for. -/
def threshold? (arguments : Arguments) (config : Config) : Option Severity :=
  match arguments.minSeverity with
  | some label => Severity.ofLabel? label
  | none => some config.minSeverity

def outcome (platform : Platform) (arguments : Arguments) (log : List LogEntry)
    (results : List FileResult) : Outcome :=
  let output :=
    match arguments.format with
    | .json => [String.ofList (Json.print (jsonReport arguments.stats results))]
    | .text => textReport arguments.stats results
  let notices := log.map Notice.logged ++ results.flatMap FileResult.notices
  .finished (if results.any fun result => !result.reported.isEmpty then 1 else 0)
    (printed (output.map platform.plain))
    (printed (notices.filterMap (Notice.line? platform arguments.verbose)))

/-- Runs the check command. Path arguments are accepted before anything is read. -/
def check (platform : Platform) (tree : Tree) (arguments : Arguments) :
    Except RunFault Outcome := do
  (arguments.paths.forM accept).mapError RunFault.search
  let (config, log) ← (Config.loadHere tree).mapError RunFault.config
  match threshold? arguments config with
  | none => pure .usageError
  | some least =>
      let paths ← (files tree arguments.paths).mapError RunFault.search
      let results ← checkFiles tree least (Engine.start (config.rules platform.memory)) paths
      pure (outcome platform arguments log results)

def run (platform : Platform) (tree : Tree) (arguments : List Text) : Except RunFault Outcome :=
  match (checkArguments? arguments).bind Arguments.ofList? with
  | none => .ok .usageError
  | some arguments => check platform tree arguments

end NotebookLint.Command
