import NotebookLint.Proofs.FunctionSpacing
import NotebookLint.Proofs.SignatureSpacing
import NotebookLint.Proofs.StatementSpacing
import NotebookLint.Rules.Builtin

/-! What rules find in cells that read alike. Such cells bind, read, import and define the same
names, so that every rule that looks at code line by line finds the same in both; the rule on
indents does so even where lines inside literals are directives in one of them only. -/

set_option autoImplicit false

namespace NotebookLint

open Text

private theorem flatMap_eq_of_forall₂ {α β γ : Type} {related : α → β → Prop} {left : List α}
    {right : List β} (same : List.Forall₂ related left right) {first : α → List γ}
    {second : β → List γ} (equal : ∀ one other, related one other → first one = second other) :
    left.flatMap first = right.flatMap second := by
  induction same with
  | nil => rfl
  | cons head _ ih => rw [List.flatMap_cons, List.flatMap_cons, equal _ _ head, ih]

private theorem filterMap_eq_of_forall₂ {α β γ : Type} {related : α → β → Prop} {left : List α}
    {right : List β} (same : List.Forall₂ related left right) {first : α → Option γ}
    {second : β → Option γ} (equal : ∀ one other, related one other → first one = second other) :
    left.filterMap first = right.filterMap second := by
  induction same with
  | nil => rfl
  | cons head _ ih => rw [List.filterMap_cons, List.filterMap_cons, equal _ _ head, ih]

theorem all_eq_of_forall₂ {α β : Type} {related : α → β → Prop} {left : List α}
    {right : List β} (same : List.Forall₂ related left right) {first : α → Bool}
    {second : β → Bool} (equal : ∀ one other, related one other → first one = second other) :
    left.all first = right.all second := by
  induction same with
  | nil => rfl
  | cons head _ ih => rw [List.all_cons, List.all_cons, equal _ _ head, ih]

/-! ## Imports -/

private theorem Import.bindingsOf_eq {left right : List SourceLine}
    (same : List.Forall₂ SourceLine.ReadsAlike left right) :
    bindingsOf left = bindingsOf right := by
  induction same with
  | nil => rfl
  | @cons first second firsts seconds line lines ih =>
      have following : (firsts.map SourceLine.clean).map squeeze =
          (seconds.map SourceLine.clean).map squeeze :=
        map_squeeze_of_forall₂ (List.rel_map (fun _ _ line => line.clean) lines)
      rw [bindingsOf, bindingsOf, line.directive, ih,
        lineBindings_congr line.number line.clean.squeeze_eq following]

private theorem Text.ReadsAlike.importBindings_eq {left right : Text}
    (same : ReadsAlike left right) : importBindings left = importBindings right :=
  Import.bindingsOf_eq same

/-! ## Names -/

namespace Names

private theorem lineBindings_eq {left right : CodeLine} (same : CodeLine.ReadsAlike left right) :
    lineBindings left = lineBindings right := by
  have clean := same.line.clean
  have lambdas : ∀ text, (lambdaParameters (squeeze text)).flatMap parameterNames =
      (lambdaParameters text).flatMap parameterNames := by
    intro text
    rw [lambdaParameters_squeeze, List.flatMap_map]
    simp only [parameterNames_squeeze]
  simp only [lineBindings, same.insideBrackets_eq, clean.eq_of_blind _ className?_squeeze,
    clean.eq_of_blind _ startsStatement_squeeze, clean.eq_of_blind _ assignmentTargets_squeeze,
    clean.eq_of_blind _ walrusTargets_squeeze, clean.eq_of_blind _ loopNames_squeeze,
    clean.eq_of_blind _ contextAliases_squeeze, clean.eq_of_blind _ exceptionAlias?_squeeze,
    clean.eq_of_blind (fun text => (lambdaParameters text).flatMap parameterNames) lambdas,
    clean.eq_of_blind _ scopeDeclaration_squeeze]

theorem definedNames_eq {left right : Text} (same : Text.ReadsAlike left right) :
    definedNames left = definedNames right := by
  have signatures : signatureNames left = signatureNames right := by
    rw [signatureNames, signatureNames, ← flatMap_signatures_squeeze, same.sameCode.squeeze_blanked,
      flatMap_signatures_squeeze]
  have lines : (codeLines left).flatMap lineBindings = (codeLines right).flatMap lineBindings :=
    flatMap_eq_of_forall₂ same.codeLines fun _ _ => lineBindings_eq
  rw [definedNames, definedNames, signatures, lines, importedNames, importedNames,
    same.importBindings_eq]

private theorem isKeywordArgument_eq {left right : CodeLine}
    (same : CodeLine.ReadsAlike left right) {word : Word} (member : word ∈ words left.clean) :
    isKeywordArgument left word = isKeywordArgument right word := by
  have sign : ∀ text, (assignSign? (squeeze text)).isSome = (assignSign? text).isSome := by
    intro text
    rw [assignSign?_squeeze, Option.isSome_map]
  rw [isKeywordArgument, isKeywordArgument, same.line.clean.take_eq member, same.depth,
    (same.line.clean.drop_repadded member).eq_of_blind
      (fun text => (assignSign? text).isSome) sign]

private theorem lineUsages_eq {left right : CodeLine} (same : CodeLine.ReadsAlike left right) :
    lineUsages left = lineUsages right := by
  have clean := same.line.clean
  have kept : ∀ word ∈ names left.clean,
      (!isKeyword word.text && !isAttribute left.clean word.start && !isKeywordArgument left word) =
        (!isKeyword word.text && !isAttribute right.clean word.start &&
          !isKeywordArgument right word) := by
    intro word named
    have member : word ∈ words left.clean := (List.mem_filter.mp named).1
    rw [clean.isAttribute_eq member, isKeywordArgument_eq same member]
  rw [lineUsages, lineUsages, List.filter_congr kept, clean.names_eq, same.line.number]

private theorem usagesOf_eq {left right : List CodeLine}
    (same : List.Forall₂ CodeLine.ReadsAlike left right) (inImport : Bool) :
    usagesOf inImport left = usagesOf inImport right := by
  induction same generalizing inImport with
  | nil => rfl
  | cons line lines ih =>
      simp only [usagesOf, line.line.clean.eq_of_blind _ startsImport_squeeze, line.depth,
        line.endDepth_eq, lineUsages_eq line, ih]

private theorem usedNames_eq {left right : Text} (same : Text.ReadsAlike left right) :
    usedNames left = usedNames right :=
  usagesOf_eq same.codeLines false

end Names

/-! ## Definitions -/

namespace Text.ReadsAlike

variable {left right : Text}

private theorem statementLines (same : ReadsAlike left right) :
    List.Forall₂ CodeLine.ReadsAlike (statementLines left) (statementLines right) := by
  apply List.rel_filter (fun first second line => by simp [line.insideBrackets_eq])
  apply List.rel_filter (fun first second line => by
    simp [line.line.interior, line.line.clean.eq_of_blind _ isBlankText_squeeze]) same.codeLines

end Text.ReadsAlike

private theorem visible_of_mem_statementLines {source : Text} {line : CodeLine}
    (member : line ∈ statementLines source) : isBlankText line.clean = false := by
  have logical := (List.mem_filter.mp (List.mem_filter.mp member).1).2
  simp only [Bool.and_eq_true, Bool.not_eq_true'] at logical
  exact logical.2

private theorem Definition.scopedFrom_eq {left right : List CodeLine}
    (same : List.Forall₂ CodeLine.ReadsAlike left right)
    (visible : ∀ line ∈ left, isBlankText line.clean = false) (frames : List Frame)
    (decorators : List Text) :
    scopedFrom frames decorators left = scopedFrom frames decorators right := by
  induction same generalizing frames decorators with
  | nil => rfl
  | @cons first second firsts seconds line lines ih =>
      have later := ih fun other inside => visible other (by simp [inside])
      have definition : ofLine? first.number first.clean = ofLine? second.number second.clean := by
        rw [line.line.number, line.line.clean.eq_of_blind _ (ofLine?_squeeze second.number)]
      simp only [scopedFrom, line.line.clean.indentWidth_eq (visible first (by simp)),
        line.line.clean.eq_of_blind _ decorator?_squeeze, definition, later]

private theorem Text.ReadsAlike.definitions_eq {left right : Text}
    (same : ReadsAlike left right) : definitions left = definitions right :=
  Definition.scopedFrom_eq same.statementLines (fun _ => visible_of_mem_statementLines) [] []

/-! ## Rules -/

/-- The name that is assigned at the beginning of a text does not depend on spacing. -/
private theorem assigned_squeeze {α : Type} (result : Text → α) (text : Text) :
    ((name? (squeeze text)).bind fun pair =>
        (assignSign? pair.2).bind fun _ => some (result pair.1)) =
      (name? text).bind fun pair => (assignSign? pair.2).bind fun _ => some (result pair.1) := by
  apply bind_name?_squeeze
  intro name rest
  rw [assignSign?_squeeze]
  exact bind_map_squeeze (fun _ => rfl) _

theorem UndefinedVariables.findings_eq {left right : Text} (same : Text.ReadsAlike left right)
    (magic : isCellMagic left = isCellMagic right) (allowCommonAliases : Bool)
    (context : List Text) :
    findings allowCommonAliases left context = findings allowCommonAliases right context := by
  simp only [findings, magic, known, Names.definedNames_eq same, Names.usedNames_eq same]

namespace CapitalizationTypos

private theorem definedOn?_squeeze (line : Text) : definedOn? (squeeze line) = definedOn? line := by
  have headed : ∀ read : Option Text,
      ((read.map squeeze).bind fun rest => (name? rest).bind fun pair => some pair.1) =
        read.bind fun rest => (name? rest).bind fun pair => some pair.1 := by
    intro read
    apply bind_map_squeeze
    intro rest
    exact bind_name?_squeeze (fun _ _ => rfl) rest
  have alternatives : ∀ first second : Option Text,
      (first.map squeeze <|> second.map squeeze) = (first <|> second).map squeeze := by
    intro first second
    cases first <;> rfl
  simp only [definedOn?, trimLeft_squeeze, skipWord_squeeze "async" (by decide),
    afterGap_squeeze "def".toList (by decide),
    afterGap_squeeze "class".toList (by decide), alternatives,
    Option.bind_eq_bind, Option.pure_def, headed]
  congr 1
  funext _
  exact assigned_squeeze id (trimLeft line)

private theorem lineFindings_eq {left right : SourceLine} (same : left.ReadsAlike right)
    (defined : List Spelling) (context : List Text) :
    lineFindings defined context left = lineFindings defined context right := by
  have clean := same.clean
  rw [lineFindings, lineFindings, same.directive, ← clean.names_eq, same.number]
  split
  · rfl
  · apply List.filterMap_congr
    intro word named
    rw [clean.isAttribute_eq (List.mem_filter.mp named).1]

theorem findings_eq {left right : Text} (same : Text.ReadsAlike left right)
    (context : List Text) : findings left context = findings right context := by
  have definitions : cellDefinitions left = cellDefinitions right := by
    rw [cellDefinitions, cellDefinitions, same.importBindings_eq,
      filterMap_eq_of_forall₂ same fun first second line => by
        rw [line.clean.eq_of_blind _ definedOn?_squeeze]]
  rw [findings, findings, definitions]
  exact flatMap_eq_of_forall₂ same fun _ _ line => lineFindings_eq line _ context

end CapitalizationTypos

theorem DuplicateFunctions.findings_eq {left right : Text} (same : Text.ReadsAlike left right) :
    findings left = findings right := by
  rw [findings, findings, same.definitions_eq]

namespace ImportIssues

private theorem topLevelFrom_eq {left right : List CodeLine}
    (same : List.Forall₂ CodeLine.ReadsAlike left right) (continued : Bool) :
    topLevelFrom continued left = topLevelFrom continued right := by
  induction same generalizing continued with
  | nil => rfl
  | @cons first second firsts seconds line lines ih =>
      have clean := line.line.clean
      -- A blank line is skipped as a bare literal, whatever its indent.
      have skipped : (isBareLiteral (trim second.clean) ||
            indentWidth standardTabWidth first.clean > 0) =
          (isBareLiteral (trim second.clean) || indentWidth standardTabWidth second.clean > 0) := by
        cases blank : isBlankText first.clean with
        | false => rw [clean.indentWidth_eq blank]
        | true =>
            have none : trim second.clean = [] := by
              rw [← clean.trim_eq]
              exact trim_append_of_isBlankText blank []
            rw [none]
            rfl
      simp only [topLevelFrom, line.insideBrackets_eq, line.line.interior, clean.trim_eq,
        Bool.or_assoc, skipped, line.line.number, clean.eq_of_blind _ endsWithBackslash_squeeze, ih]

private theorem usedFrom_eq {left right : List CodeLine}
    (same : List.Forall₂ CodeLine.ReadsAlike left right) (importLines : List Nat)
    (inList : Bool) : usedFrom importLines inList left = usedFrom importLines inList right := by
  induction same generalizing inList with
  | nil => rfl
  | cons line lines ih =>
      have clean := line.line.clean
      simp only [usedFrom, line.line.number, clean.eq_of_blind _ (contains_squeeze '('),
        clean.eq_of_blind _ (contains_squeeze ')'), clean.names_eq, ih]

theorem findings_eq {left right : Text} (same : Text.ReadsAlike left right)
    (reportUnused : Bool) : findings reportUnused left = findings reportUnused right := by
  simp only [findings, misplaced, topLevelStatements, topLevelFrom_eq same.codeLines, unused,
    usedNames, usedFrom_eq same.codeLines, same.importBindings_eq]

end ImportIssues

namespace IndentationErrors

private theorem isPassive_eq {left right : SourceLine} (same : left.SameCode right)
    (outside : left.interior = false) : isPassive left = isPassive right := by
  rw [isPassive, isPassive, same.clean.eq_of_blind _ isBlankText_squeeze,
    (same.raw outside).isDirective_eq]

private theorem isCompared_eq {left right : SourceLine} (same : left.SameCode right) :
    (!left.interior && !isPassive left) = (!right.interior && !isPassive right) := by
  rw [← same.interior]
  cases outside : left.interior with
  | true => rfl
  | false => rw [isPassive_eq same outside]

private theorem dominantStyle?_eq {left right : List SourceLine}
    (same : List.Forall₂ SourceLine.SameCode left right) :
    dominantStyle? left = dominantStyle? right := by
  have styles : ((left.filter fun line => !line.interior && !isPassive line).map fun line =>
        style? (indent line.raw)) =
      (right.filter fun line => !line.interior && !isPassive line).map fun line =>
        style? (indent line.raw) := by
    induction same with
    | nil => rfl
    | @cons first second firsts seconds line lines ih =>
        simp only [List.filter_cons, ← isCompared_eq line]
        split
        · rename_i compared
          have outside : first.interior = false := by
            simp only [Bool.and_eq_true, Bool.not_eq_true'] at compared
            exact compared.1
          rw [List.map_cons, List.map_cons, (line.raw outside).indent_eq, ih]
        · exact ih
  simp only [dominantStyle?, styles]

private theorem pass_eq {left right : Text} (same : Repadded left right) (state : State) :
    state.pass left = state.pass right := by
  simp only [State.pass, depthAfter, same.eq_of_blind _ lastVisible?_squeeze,
    same.eq_of_blind _ bracketDelta_squeeze, same.eq_of_blind _ endsWithBackslash_squeeze]

private theorem step_eq {left right : SourceLine} (same : left.SameCode right) (tabWidth : Nat)
    (dominant : Option IndentStyle) (state : State) :
    step tabWidth dominant state left = step tabWidth dominant state right := by
  -- Inside a literal only the blanked text is read, whatever the raw text is.
  cases outside : left.interior with
  | true =>
      have alsoInside : right.interior = true := by rw [← same.interior, outside]
      simp only [step, outside, alsoInside, if_true, pass_eq same.clean]
  | false =>
      simp only [step, ← same.interior, outside, isPassive_eq same outside, pass_eq same.clean,
        (same.raw outside).indent_eq, indentWidth]

private theorem findingsFrom_eq {left right : List SourceLine}
    (same : List.Forall₂ SourceLine.SameCode left right) (tabWidth : Nat)
    (dominant : Option IndentStyle) (state : State) :
    findingsFrom tabWidth dominant state left = findingsFrom tabWidth dominant state right := by
  induction same generalizing state with
  | nil => rfl
  | cons line lines ih => simp only [findingsFrom, step_eq line, line.number, ih]

theorem findings_eq {left right : Text} (same : Text.SameCode left right) (tabWidth : Nat) :
    findings tabWidth left = findings tabWidth right := by
  rw [findings, findings, dominantStyle?_eq same]
  exact findingsFrom_eq same tabWidth _ _

theorem measuresIndent_eq {left right : Text} (same : Text.SameCode left right) :
    measuresIndent left = measuresIndent right := by
  have none : (sourceLines left).all (fun line => !(!line.interior && !isPassive line)) =
      (sourceLines right).all fun line => !(!line.interior && !isPassive line) :=
    all_eq_of_forall₂ same fun first second line => by rw [isCompared_eq line]
  rw [measuresIndent, measuresIndent, List.any_eq_not_all_not, List.any_eq_not_all_not, none]

end IndentationErrors

namespace RedefinedVariables

private theorem assigned?_eq {left right : CodeLine} (same : CodeLine.ReadsAlike left right) :
    assigned? left = assigned? right := by
  have equal := same.line.clean.eq_of_blind
    (fun text => (name? (trimLeft text)).bind fun pair =>
      (assignSign? pair.2).bind fun _ => some (Assigned.mk pair.1 right.number)) fun text => by
      rw [trimLeft_squeeze, assigned_squeeze (Assigned.mk · right.number)]
  simp only [assigned?, Option.bind_eq_bind, Option.pure_def, same.line.number, equal]

private theorem definitionProblems_eq {left right : CodeLine}
    (same : CodeLine.ReadsAlike left right) (assignments : List Assigned) :
    definitionProblems assignments left = definitionProblems assignments right := by
  rw [definitionProblems, definitionProblems, same.line.number,
    same.line.clean.eq_of_blind _ (Definition.ofLine?_squeeze right.number)]

private def loopVariables (line : Text) : List Text :=
  match (after? "for".toList (skipWord "async" (trimLeft line))).bind Names.loopTargets? with
  | none => []
  | some (targets, _) => (names targets).map Word.text

private theorem loopVariables_squeeze (line : Text) :
    loopVariables (squeeze line) = loopVariables line := by
  rw [loopVariables, loopVariables, trimLeft_squeeze, skipWord_squeeze _ (by decide),
    after?_squeeze _ (by decide)]
  cases after? "for".toList (skipWord "async" (trimLeft line)) with
  | none => rfl
  | some rest =>
      simp only [Option.map_some, Option.bind_some, Names.loopTargets?_squeeze]
      cases Names.loopTargets? rest with
      | none => rfl
      | some pair => exact map_text_names_squeeze pair.1

private theorem loopProblems_eq_map (line : CodeLine) :
    loopProblems line =
      ((loopVariables line.clean).filter isBuiltin).map Problem.loopShadowsBuiltin := by
  simp only [loopProblems, loopVariables]
  cases (after? "for".toList (skipWord "async" (trimLeft line.clean))).bind Names.loopTargets? with
  | none => rfl
  | some pair =>
      simp only [List.filter_map, List.map_map]
      rfl

private theorem loopProblems_eq {left right : CodeLine} (same : CodeLine.ReadsAlike left right) :
    loopProblems left = loopProblems right := by
  rw [loopProblems_eq_map, loopProblems_eq_map,
    same.line.clean.eq_of_blind _ loopVariables_squeeze]

private theorem findingsFrom_eq {left right : List CodeLine}
    (same : List.Forall₂ CodeLine.ReadsAlike left right) (assignments : List Assigned) :
    findingsFrom assignments left = findingsFrom assignments right := by
  induction same generalizing assignments with
  | nil => rfl
  | @cons first second firsts seconds line lines ih =>
      simp only [findingsFrom, assignmentProblems, assigned?_eq line,
        definitionProblems_eq line, loopProblems_eq line, line.line.number, ih]

theorem findings_eq {left right : Text} (same : Text.ReadsAlike left right) :
    findings left = findings right :=
  findingsFrom_eq same.statementLines []

end RedefinedVariables

/-! ## All rules -/

namespace BuiltinRule

/-- Whether a rule leaves out every directive, one that stands inside a literal included. -/
def skipsDirectives : BuiltinRule → Bool
  | .undefinedVariables _ | .capitalizationTypos | .duplicateFunctions | .importIssues _
  | .redefinedVariables => true
  | .emptyCells | .indentationErrors _ | .missingReturn | .unclosedBrackets => false

/-- Two cells that a rule has nothing to tell apart by. -/
structure ReadsAlike (rule : BuiltinRule) (left right : Text) : Prop where
  code : Text.SameCode left right
  lines : rule.skipsDirectives = true → Text.ReadsAlike left right
  magic : isCellMagic left = isCellMagic right
  triviality : EmptyCells.triviality? left = EmptyCells.triviality? right
  brackets : rule = .unclosedBrackets →
    UnclosedBrackets.findings left = UnclosedBrackets.findings right

namespace ReadsAlike

variable {memory : Nat} {rule : BuiltinRule} {left right : Text}

private theorem findings_eq (same : rule.ReadsAlike left right) (context : List Text) :
    rule.findings left context = rule.findings right context := by
  cases rule with
  | undefinedVariables allow =>
      exact UndefinedVariables.findings_eq (same.lines rfl) same.magic allow context
  | capitalizationTypos => exact CapitalizationTypos.findings_eq (same.lines rfl) context
  | duplicateFunctions => exact DuplicateFunctions.findings_eq (same.lines rfl)
  | emptyCells => simp only [findings, EmptyCells.findings, same.triviality]
  | importIssues report => exact ImportIssues.findings_eq (same.lines rfl) report
  | indentationErrors tabWidth => exact IndentationErrors.findings_eq same.code tabWidth
  | missingReturn => exact MissingReturn.findings_eq_of_repadded same.code.cleanLines
  | redefinedVariables => exact RedefinedVariables.findings_eq (same.lines rfl)
  | unclosedBrackets => exact same.brackets rfl

private theorem fault?_eq (same : rule.ReadsAlike left right) :
    rule.fault? memory left = rule.fault? memory right := by
  cases rule with
  | indentationErrors tabWidth => simp only [fault?, IndentationErrors.measuresIndent_eq same.code]
  | _ => rfl

theorem check_eq (same : rule.ReadsAlike left right) (offset : Int) (context : List Text) :
    (rule.toRule memory).check left offset context =
      (rule.toRule memory).check right offset context := by
  simp only [toRule, same.fault?_eq, same.findings_eq context]

theorem definedNames_eq (same : rule.ReadsAlike left right) :
    (rule.toRule memory).definedNames left = (rule.toRule memory).definedNames right := by
  cases rule with
  | undefinedVariables allow => exact congrArg Except.ok (Names.definedNames_eq (same.lines rfl))
  | _ => rfl

end ReadsAlike

end BuiltinRule

end NotebookLint
