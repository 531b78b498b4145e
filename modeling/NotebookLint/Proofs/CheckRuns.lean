import NotebookLint.Proofs.FileSearch
import NotebookLint.Proofs.NotebookRun
import NotebookLint.Proofs.ReportForms

/-! Checking several files. One engine serves them all, yet what is reported on a file is what a run
on that file alone reports, so a run comes to the results of its files one after the other. A file
is loaded under the spelling of its first mention, and a spelling that leads nowhere hides the file
from every later one. -/

set_option autoImplicit false

namespace NotebookLint.Command

open File (Path Tree)

/-! ## Single files -/

/-- What checking a file with a new engine gives. -/
def checkAlone (tree : Tree) (least : Severity) (rules : List Rule) (path : Path) :
    Except RunFault FileResult :=
  (checkFile tree least (Engine.start rules) path).map Prod.fst

section Files

variable {tree : Tree} {least : Severity} {rules : List Rule} {path : Path}

theorem checkAlone_of_load {cells : List Cell} (loaded : Notebook.load tree path = .ok cells) :
    checkAlone tree least rules path =
      .ok ⟨path, some (Report.atLeast least
          ((Engine.start rules).lintNotebook cells).1.diagnostics),
        ((Engine.start rules).lintNotebook cells).1.log.map .logged⟩ := by
  rw [checkAlone, checkFile, loaded]
  rfl

theorem checkAlone_of_fault {fault : LoadFault} (failed : Notebook.load tree path = .error fault) :
    checkAlone tree least rules path =
      if fault.stopsRun then .error (.load fault)
      else .ok ⟨path, none, [.loadFault fault]⟩ := by
  rw [checkAlone, checkFile, failed]
  dsimp only
  split <;> rfl

/-- The engine that the files share matters by its rules alone. -/
theorem checkFiles_eq_mapM (engine : Engine) (paths : List Path) :
    checkFiles tree least engine paths = paths.mapM (checkAlone tree least engine.rules) := by
  induction paths generalizing engine with
  | nil => rfl
  | cons path rest ih =>
      rw [checkFiles, List.mapM_cons]
      cases loaded : Notebook.load tree path with
      | error fault =>
          rw [checkAlone_of_fault loaded, checkFile, loaded]
          dsimp only
          split
          · rfl
          · simp only [bind, Except.bind, ih]
      | ok cells =>
          have same := @Engine.lintNotebook_congr engine (Engine.start engine.rules) rfl cells
          rw [checkAlone_of_load loaded, checkFile, loaded, ← same]
          simp only [bind, Except.bind, ih]
          rfl

/-- A file is either linted or reported as one that cannot be loaded. -/
theorem checkAlone_cases {result : FileResult}
    (checked : checkAlone tree least rules path = .ok result) :
    (∃ cells, Notebook.load tree path = .ok cells ∧
      result = ⟨path, some (Report.atLeast least
          ((Engine.start rules).lintNotebook cells).1.diagnostics),
        ((Engine.start rules).lintNotebook cells).1.log.map .logged⟩) ∨
    ∃ fault, Notebook.load tree path = .error fault ∧
      result = ⟨path, none, [.loadFault fault]⟩ := by
  cases loaded : Notebook.load tree path with
  | ok cells =>
      rw [checkAlone_of_load loaded] at checked
      exact .inl ⟨cells, rfl, (Except.ok.inj checked).symm⟩
  | error fault =>
      rw [checkAlone_of_fault loaded] at checked
      split at checked
      · cases checked
      · exact .inr ⟨fault, rfl, (Except.ok.inj checked).symm⟩

theorem path_of_checkAlone {result : FileResult}
    (checked : checkAlone tree least rules path = .ok result) : result.path = path := by
  obtain ⟨_, _, rfl⟩ | ⟨_, _, rfl⟩ := checkAlone_cases checked
  · rfl
  · rfl

theorem diagnostics_of_checkAlone {result : FileResult}
    (checked : checkAlone tree least rules path = .ok result) :
    result.diagnostics = none ↔ ∃ fault, Notebook.load tree path = .error fault := by
  obtain ⟨cells, loaded, rfl⟩ | ⟨fault, failed, rfl⟩ := checkAlone_cases checked
  · simp [loaded]
  · simp [failed]

/-- Only a null character in the path or a limit on the document keeps a file from being checked. -/
theorem exists_checkAlone_eq_ok (noNull : path.holdsNull = false) :
    (∃ result, checkAlone tree least rules path = .ok result) ↔
      ∀ fault, Notebook.load tree path ≠ .error (.limit fault) := by
  cases loaded : Notebook.load tree path with
  | ok cells => simp [checkAlone_of_load loaded]
  | error fault =>
      rw [checkAlone_of_fault loaded]
      cases fault with
      | limit fault => simp [LoadFault.stopsRun]
      | notUtf8 _ _ => simp [LoadFault.stopsRun]
      | notJson _ _ => simp [LoadFault.stopsRun]
      | noCells _ => simp [LoadFault.stopsRun]
      | noAccess other fault =>
          have visible : fault ≠ .nullCharacter := fun null =>
            Notebook.load_ne_nullCharacter noNull other (null ▸ loaded)
          simp [LoadFault.stopsRun, visible]

end Files

/-! ## What results come to -/

theorem printed_append (first second : List String) :
    printed (first ++ second) = printed first ++ printed second := by
  simp [printed]

def errorLines (platform : Platform) (arguments : Arguments) (log : List LogEntry)
    (results : List FileResult) : List String :=
  (log.map Notice.logged ++ results.flatMap FileResult.notices).filterMap
    (Notice.line? platform arguments.verbose)

theorem outcome_append_unloaded (platform : Platform) (arguments : Arguments) (log : List LogEntry)
    (before after : List FileResult) (path : Path) (fault : LoadFault) :
    ∃ code output earlier later,
      outcome platform arguments log (before ++ after) = .finished code output (earlier ++ later) ∧
      outcome platform arguments log (before ++ ⟨path, none, [.loadFault fault]⟩ :: after) =
        .finished code output
          (earlier ++ printed [platform.plain s!"error: {fault.message}"] ++ later) := by
  generalize whole : before ++ ⟨path, none, [.loadFault fault]⟩ :: after = results
  have sameCode : (results.any fun result => !result.reported.isEmpty) =
      (before ++ after).any fun result => !result.reported.isEmpty := by
    simp [← whole, FileResult.reported]
  have sameText : textReport arguments.stats results =
      textReport arguments.stats (before ++ after) := by
    simp [← whole, textReport, FileResult.reported]
  have sameJson : jsonReport arguments.stats results =
      jsonReport arguments.stats (before ++ after) := by
    simp [← whole, jsonReport, FileResult.reported]
  have notices : results.flatMap FileResult.notices =
      before.flatMap FileResult.notices ++
        .loadFault fault :: after.flatMap FileResult.notices := by
    simp [← whole]
  have line : Notice.line? platform arguments.verbose (.loadFault fault) =
      some (platform.plain s!"error: {fault.message}") := rfl
  simp only [outcome, sameCode, sameText, sameJson, notices]
  refine ⟨_, _, printed (errorLines platform arguments log before),
    printed (errorLines platform arguments [] after),
    congrArg (Outcome.finished _ _) ?_, congrArg (Outcome.finished _ _) ?_⟩
  · rw [← printed_append]
    simp [errorLines]
  · rw [← printed_append, ← printed_append]
    simp [errorLines, line]

theorem exitCode_outcome (platform : Platform) (arguments : Arguments) (log : List LogEntry)
    (results : List FileResult) :
    ∃ output errors, outcome platform arguments log results =
      .finished (if 0 < (Report.stats (results.flatMap FileResult.reported)).total then 1 else 0)
        output errors := by
  have positive : (results.any fun result => !result.reported.isEmpty) = true ↔
      0 < (Report.stats (results.flatMap FileResult.reported)).total := by
    simp only [List.any_eq_true, Bool.not_eq_true', List.isEmpty_eq_false_iff, Report.stats,
      List.length_pos_iff, ne_eq, List.flatMap_eq_nil_iff, not_forall, exists_prop]
  exact ⟨_, _, congrArg (fun code => Outcome.finished code _ _) (if_congr positive rfl rfl)⟩

/-- Paths to different locations are printed differently. -/
theorem nodup_map_toText {tree : Tree} {paths : List Path}
    (written : ∀ path ∈ paths, path.WellFormed) (distinct : (paths.map tree.resolve).Nodup) :
    (paths.map Path.toText).Nodup := by
  rw [List.Nodup, List.pairwise_map] at distinct ⊢
  refine distinct.imp_of_mem fun isFirst isSecond apart same => apart ?_
  rw [Path.eq_of_toText_eq (written _ isFirst) (written _ isSecond) same]

section Results

variable {tree : Tree} {least : Severity} {rules : List Rule} {paths : List Path}
  {results : List FileResult}
  (checked : paths.mapM (checkAlone tree least rules) = .ok results)

include checked

theorem map_path_of_mapM : results.map FileResult.path = paths := by
  rw [mapM_eq_ok] at checked
  induction checked with
  | nil => rfl
  | cons first _ ih => rw [List.map_cons, path_of_checkAlone first, ih]

theorem checkAlone_of_mem {result : FileResult} (member : result ∈ results) :
    checkAlone tree least rules result.path = .ok result := by
  obtain ⟨path, -, found⟩ := exists_of_mem_mapM checked member
  rw [path_of_checkAlone found, found]

theorem exists_mem_of_mapM {path : Path} (member : path ∈ paths) :
    ∃ result ∈ results, result.path = path := by
  rw [← map_path_of_mapM checked] at member
  exact List.mem_map.mp member

end Results

section Mentions

variable {tree : Tree} {least : Severity} {rules : List Rule} {mentioned : List Path}
  {results : List FileResult}
  (checked : (distinctFrom tree [] mentioned).mapM (checkAlone tree least rules) = .ok results)

include checked

/-- Every mentioned location has one result, in the order of first mention. -/
theorem map_resolve_of_mapM :
    results.map (fun result => tree.resolve result.path) =
      (mentioned.map tree.resolve).eraseDups := by
  have located := map_resolve_distinctFrom tree [] mentioned
  rw [← map_path_of_mapM checked, List.map_map] at located
  simpa [Function.comp_def] using located

theorem find?_of_mem_results {result : FileResult} (member : result ∈ results) :
    mentioned.find? (fun mention => tree.resolve mention == tree.resolve result.path) =
      some result.path := by
  have kept : result.path ∈ distinctFrom tree [] mentioned := by
    rw [← map_path_of_mapM checked]
    exact List.mem_map_of_mem member
  exact find?_of_mem_distinctFrom kept

end Mentions

/-! ## Runs -/

/-- The same check of a single path. -/
def Arguments.only (arguments : Arguments) (path : Path) : Arguments :=
  { arguments with paths := [path] }

/-- Whether nothing stops a run: no argument is too long or holds the null character, and no
document is beyond a limit. -/
structure Completes (tree : Tree) (paths : List Path) : Prop where
  arguments : ∀ path ∈ paths, ∀ fault, tree.lookup path = .error fault → isDeferred fault = true
  documents : ∀ mentioned, mentions tree paths = .ok mentioned →
    ∀ path ∈ distinctFrom tree [] mentioned, ∀ fault,
      Notebook.load tree path ≠ .error (.limit fault)

/-- Whether a run checks the mentioned files as they are checked one by one. -/
structure ChecksTogether (platform : Platform) (tree : Tree) (arguments : Arguments)
    (log : List LogEntry) (mentioned : List Path) (results : List FileResult) : Prop where
  found : mentions tree arguments.paths = .ok mentioned
  /-- What is found does not depend on how it is printed. -/
  finishes : ∀ other : Arguments, other.paths = arguments.paths →
    other.minSeverity = arguments.minSeverity →
      check platform tree other = .ok (outcome platform other log results)
  /-- Each file once, in the order of first mention. -/
  once : results.map (fun result => tree.resolve result.path) =
    (mentioned.map tree.resolve).eraseDups
  distinct : (results.map fun result => tree.resolve result.path).Nodup
  firstMention : ∀ result ∈ results,
    mentioned.find? (fun mention => tree.resolve mention == tree.resolve result.path) =
      some result.path
  alone : ∀ result ∈ results, result.diagnostics ≠ none →
    check platform tree (arguments.only result.path) = .ok (outcome platform arguments log [result])
  /-- A file that some mention leads to is checked exactly if its first mention leads anywhere, and
  then as under that mention. -/
  spelled : ∀ mention ∈ mentioned, ∀ cells, Notebook.load tree mention = .ok cells →
    ∃ result ∈ results, tree.resolve result.path = tree.resolve mention ∧
      (result.diagnostics = none ↔ ∃ fault, tree.lookup result.path = .error fault) ∧
      (result.diagnostics ≠ none →
        check platform tree (arguments.only mention) =
          .ok (outcome platform arguments log [{ result with path := mention }]))
  /-- A file that cannot be loaded adds its error line. -/
  unloaded : ∀ before failed after, results = before ++ failed :: after →
    failed.diagnostics = none → ∃ fault, Notebook.load tree failed.path = .error fault ∧
      ∃ code output earlier later,
        outcome platform arguments log (before ++ after) =
          .finished code output (earlier ++ later) ∧
        outcome platform arguments log results =
          .finished code output
            (earlier ++ printed [platform.plain s!"error: {fault.message}"] ++ later)
  sameLines : ∀ withStats, describedLines (jsonReport withStats results) = textReport false results
  sameCounts : ∃ counts, textReport true results = textReport false results ++ counts ∧
    counts.Perm (describedCounts (jsonReport true results))
  /-- No entry of a JSON report replaces another. -/
  keys : (results.map fun result => result.path.toText).Nodup
  tallies : (Report.stats (results.flatMap FileResult.reported)).AddUp
    (results.map FileResult.reported)
  exitCode : ∃ output errors, outcome platform arguments log results =
    .finished (if 0 < (Report.stats (results.flatMap FileResult.reported)).total then 1 else 0)
      output errors

section Runs

variable {platform : Platform} {tree : Tree} {arguments : Arguments} {config : Config}
  {log : List LogEntry} {least : Severity} (configured : Config.loadHere tree = .ok (config, log))
  (known : threshold? arguments config = some least)

include configured known

theorem check_eq_ok {result : Outcome} :
    check platform tree arguments = .ok result ↔
      ∃ mentioned results, mentions tree arguments.paths = .ok mentioned ∧
        (distinctFrom tree [] mentioned).mapM
          (checkAlone tree least (config.rules platform.memory)) = .ok results ∧
        outcome platform arguments log results = result := by
  simp only [check, configured, except_bind_eq_ok, except_mapError_eq_ok, Except.ok.injEq,
    exists_eq_left', known, files_eq_ok, except_pure_eq_ok, checkFiles_eq_mapM]
  constructor
  · intro finished
    obtain ⟨_, _, _, ⟨mentioned, found, rfl⟩, results, checked, same⟩ := finished
    exact ⟨mentioned, results, found, checked, same⟩
  · intro finished
    obtain ⟨mentioned, results, found, checked, same⟩ := finished
    exact ⟨(), forM_accept_of_mentions found, _, ⟨mentioned, found, rfl⟩, results, checked, same⟩

/-- A run that comes to its end does so in every form of report. -/
theorem check_of_mapM {mentioned : List Path}
    (found : mentions tree arguments.paths = .ok mentioned) {results : List FileResult}
    (checked : (distinctFrom tree [] mentioned).mapM
      (checkAlone tree least (config.rules platform.memory)) = .ok results)
    {other : Arguments} (samePaths : other.paths = arguments.paths)
    (sameLeast : other.minSeverity = arguments.minSeverity) :
    check platform tree other = .ok (outcome platform other log results) := by
  have alsoKnown : threshold? other config = some least := by
    rw [← known, threshold?, sameLeast, threshold?]
  rw [check_eq_ok configured alsoKnown]
  exact ⟨mentioned, results, samePaths ▸ found, checked, rfl⟩

/-- A run on a single file that can be loaded. -/
theorem check_only {path : Path} {cells : List Cell}
    (loaded : Notebook.load tree path = .ok cells) {result : FileResult}
    (checked : checkAlone tree least (config.rules platform.memory) path = .ok result) :
    check platform tree (arguments.only path) = .ok (outcome platform arguments log [result]) := by
  obtain ⟨bytes, _, readable, -⟩ := Notebook.load_eq_ok.mp loaded
  obtain ⟨location, leads⟩ := Tree.read_eq_ok.mp readable
  have alsoKnown : threshold? (arguments.only path) config = some least := known
  rw [check_eq_ok configured alsoKnown]
  refine ⟨[path], [result], mentions_of_file leads, ?_, rfl⟩
  have kept : distinctFrom tree [] [path] = [path] := by simp [distinctFrom]
  rw [kept, mapM_eq_ok]
  exact .cons checked .nil

theorem exists_check_eq_ok (wellFormed : tree.WellFormed)
    (written : ∀ path ∈ arguments.paths, path.WellFormed) :
    (∃ result, check platform tree arguments = .ok result) ↔ Completes tree arguments.paths := by
  have checkable (mentioned : List Path) (found : mentions tree arguments.paths = .ok mentioned)
      (path : Path) (kept : path ∈ distinctFrom tree [] mentioned) :
      (∃ result, checkAlone tree least (config.rules platform.memory) path = .ok result) ↔
        ∀ fault, Notebook.load tree path ≠ .error (.limit fault) := by
    have member := List.mem_of_find?_eq_some (find?_of_mem_distinctFrom kept)
    exact exists_checkAlone_eq_ok (wellFormed_of_mem_mentions wellFormed written found member).2
  constructor
  · intro finishes
    obtain ⟨result, finished⟩ := finishes
    obtain ⟨mentioned, results, found, all, -⟩ := (check_eq_ok configured known).mp finished
    refine ⟨exists_mentions_eq_ok.mp ⟨mentioned, found⟩, ?_⟩
    intro other alsoFound path kept
    obtain rfl := Except.ok.inj (found.symm.trans alsoFound)
    exact (checkable mentioned found path kept).mp (exists_mapM_eq_ok.mp ⟨results, all⟩ path kept)
  · intro completes
    obtain ⟨mentioned, found⟩ := exists_mentions_eq_ok.mpr completes.arguments
    have each := completes.documents mentioned found
    obtain ⟨results, all⟩ := exists_mapM_eq_ok.mpr fun path kept =>
      (checkable mentioned found path kept).mpr (each path kept)
    exact ⟨_, (check_eq_ok configured known).mpr ⟨mentioned, results, found, all, rfl⟩⟩

theorem alone_of_mapM {paths : List Path} {results : List FileResult}
    (checked : paths.mapM (checkAlone tree least (config.rules platform.memory)) = .ok results)
    {result : FileResult} (member : result ∈ results) (loads : result.diagnostics ≠ none) :
    check platform tree (arguments.only result.path) =
      .ok (outcome platform arguments log [result]) := by
  have single := checkAlone_of_mem checked member
  cases loaded : Notebook.load tree result.path with
  | error fault => exact absurd ((diagnostics_of_checkAlone single).mpr ⟨fault, loaded⟩) loads
  | ok cells => exact check_only configured known loaded single

/-- Two spellings of a file that lead there are reported alike. -/
theorem spelled_of_mapM (wellFormed : tree.WellFormed) {mentioned : List Path}
    {results : List FileResult}
    (checked : (distinctFrom tree [] mentioned).mapM
      (checkAlone tree least (config.rules platform.memory)) = .ok results)
    {mention : Path} (isMention : mention ∈ mentioned) {cells : List Cell}
    (loaded : Notebook.load tree mention = .ok cells) :
    ∃ result ∈ results, tree.resolve result.path = tree.resolve mention ∧
      (result.diagnostics = none ↔ ∃ fault, tree.lookup result.path = .error fault) ∧
      (result.diagnostics ≠ none →
        check platform tree (arguments.only mention) =
          .ok (outcome platform arguments log [{ result with path := mention }])) := by
  obtain ⟨path, kept, same⟩ := exists_mem_distinctFrom isMention
  obtain ⟨result, member, rfl⟩ := exists_mem_of_mapM checked kept
  have single := checkAlone_of_mem checked member
  refine ⟨result, member, same, ?_, ?_⟩
  · rw [diagnostics_of_checkAlone single]
    cases found : tree.lookup result.path with
    | error fault => simpa using ⟨_, Notebook.load_of_lookup_error found⟩
    | ok reached =>
        have alsoLoaded := Notebook.load_of_resolve_eq wellFormed same.symm loaded found
        simp [alsoLoaded]
  · intro loads
    cases found : tree.lookup result.path with
    | error fault =>
        have failed := Notebook.load_of_lookup_error found
        exact absurd ((diagnostics_of_checkAlone single).mpr ⟨_, failed⟩) loads
    | ok reached =>
        have alsoLoaded := Notebook.load_of_resolve_eq wellFormed same.symm loaded found
        rw [checkAlone_of_load alsoLoaded] at single
        rw [← Except.ok.inj single]
        exact check_only configured known loaded (checkAlone_of_load loaded)

/-- A run comes to its end unless an argument or a document is beyond a limit, and then it checks
the mentioned files as they are checked one by one. -/
theorem check_together (wellFormed : tree.WellFormed)
    (written : ∀ path ∈ arguments.paths, path.WellFormed) :
    ((∃ result, check platform tree arguments = .ok result) ↔ Completes tree arguments.paths) ∧
      ∀ result, check platform tree arguments = .ok result →
        ∃ mentioned results, ChecksTogether platform tree arguments log mentioned results := by
  refine ⟨exists_check_eq_ok configured known wellFormed written, ?_⟩
  intro result finished
  obtain ⟨mentioned, results, found, checked, -⟩ := (check_eq_ok configured known).mp finished
  have once := map_resolve_of_mapM checked
  have distinct : (results.map fun result => tree.resolve result.path).Nodup :=
    once ▸ nodup_eraseDups _
  refine ⟨mentioned, results, ?_⟩
  constructor
  case found => exact found
  case finishes => exact fun _ => check_of_mapM configured known found checked
  case once => exact once
  case distinct => exact distinct
  case firstMention => exact fun result => find?_of_mem_results checked
  case alone => exact fun result => alone_of_mapM configured known checked
  case spelled => exact fun mention => spelled_of_mapM configured known wellFormed checked
  case unloaded =>
    intro before failed after split none
    have single := checkAlone_of_mem checked (split ▸ List.mem_append_right _ List.mem_cons_self)
    obtain ⟨_, _, same⟩ | ⟨fault, fails, same⟩ := checkAlone_cases single
    · rw [same] at none
      cases none
    · refine ⟨fault, fails, ?_⟩
      rw [split, same]
      exact outcome_append_unloaded ..
  case sameLines => exact fun withStats => describedLines_jsonReport withStats results
  case sameCounts =>
    refine ⟨_, ?_, describedCounts_jsonReport results⟩
    simp [textReport]
  case keys =>
    have locations : ((results.map FileResult.path).map tree.resolve).Nodup := by
      rwa [List.map_map]
    have printable := nodup_map_toText ?_ locations
    · rwa [List.map_map] at printable
    · intro path member
      obtain ⟨result, isResult, rfl⟩ := List.mem_map.mp member
      have isMention := List.mem_of_find?_eq_some (find?_of_mem_results checked isResult)
      exact (wellFormed_of_mem_mentions wellFormed written found isMention).1
  case tallies =>
    rw [List.flatMap_def]
    exact Report.stats_addUp _
  case exitCode => exact exitCode_outcome ..

end Runs

/-- A directory with a script, and below it a notebook that is no JSON. -/
def sampleTree : Tree where
  entries :=
    [(["home", "x.py"].map String.toList, .file [121, 10]),
      (["home", "notes", "n.ipynb"].map String.toList, .file [91])]
  workingDirectory := ["home".toList]

/-- A platform on which no line holds what a terminal would take for a command. -/
def samplePlatform : Platform :=
  ⟨1 <<< 37, id, fun _ => "invalid TOML"⟩

def sampleArguments (written : List Text) : Arguments :=
  ⟨written.map Path.ofText, none, .text, false, false⟩

/-- A script under three spellings and a directory with a notebook that cannot be read. -/
theorem check_together_sample :
    let words := ["./x.py", "notes", "x.py", "notes/../x.py"].map String.toList
    let arguments := sampleArguments words
    sampleTree.WellFormed ∧ Arguments.ofList? words = some arguments ∧
      Config.loadHere sampleTree = .ok (Config.standard, []) ∧
      threshold? arguments Config.standard = some .info ∧
      (check samplePlatform sampleTree arguments).toOption.isSome = true ∧
      ((∃ result, check samplePlatform sampleTree arguments = .ok result) ↔
        Completes sampleTree arguments.paths) ∧
      ∀ result, check samplePlatform sampleTree arguments = .ok result →
        ∃ mentioned results,
          ChecksTogether samplePlatform sampleTree arguments [] mentioned results := by
  intro words arguments
  have leaves : ∀ entry ∈ sampleTree.entries, entry.1 ≠ [] ∧
      ¬entry.1 <+: sampleTree.workingDirectory ∧
        ∀ other ∈ sampleTree.entries, entry.1 <+: other.1 → other.1 = entry.1 := by
    decide +kernel
  have names : ∀ entry ∈ sampleTree.entries, ∀ name ∈ entry.1,
      (name ≠ [] ∧ '/' ∉ name ∧ name ≠ ['.']) ∧ '\x00' ∉ name := by
    decide +kernel
  have wellFormed : sampleTree.WellFormed := by
    refine ⟨fun entry member _ => leaves entry member, fun entry member name inside => ?_⟩
    obtain ⟨⟨nonempty, noSlash, noDot⟩, noNull⟩ := names entry member name inside
    exact ⟨⟨nonempty, noSlash, noDot⟩, noNull⟩
  have understood : Arguments.ofList? words = some arguments := rfl
  have configured : Config.loadHere sampleTree = .ok (Config.standard, []) := rfl
  have known : threshold? arguments Config.standard = some .info := rfl
  exact ⟨wellFormed, understood, configured, known, by decide +kernel,
    check_together configured known wellFormed (wellFormed_of_ofList? understood)⟩

/-- A file is missed if its first spelling leads nowhere, and an argument that is too long keeps all
files from being checked. -/
theorem check_not_together :
    let spellings := ["missing/../x.py".toList, "x.py".toList]
    ((sampleArguments spellings).paths.map sampleTree.resolve).eraseDups =
        [["home".toList, "x.py".toList]] ∧
      (check samplePlatform sampleTree (sampleArguments ["x.py".toList])).toOption =
        some (.finished 1
          "x.py:cell 0:line 1: undefined_variables error Undefined variable 'y'\n" "") ∧
      (check samplePlatform sampleTree (sampleArguments spellings)).toOption = some (.finished 0 ""
        ("error: cannot read missing/../x.py: " ++
          "[Errno 2] No such file or directory: 'missing/../x.py'\n")) ∧
      (check samplePlatform sampleTree (sampleArguments
        ["x.py".toList, List.replicate 256 'n'])).toOption = none := by
  decide +kernel

end NotebookLint.Command
