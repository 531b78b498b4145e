import NotebookLint.Engine.Lint
import NotebookLint.Proofs.AlikeCells
import NotebookLint.Proofs.CommentRewriting

/-! Comment text does not influence analysis. Cells that differ in comments only read alike, so every
rule that does not look at brackets finds the same in both, and what linting reports differs at most
by what the comments suppress. -/

set_option autoImplicit false

namespace NotebookLint

open Text

namespace Text

/-- Two texts whose source lines differ in comments only. -/
def Recommented (left right : Text) : Prop :=
  List.Forall₂ SourceLine.Recommented (sourceLines left) (sourceLines right)

namespace Recommented

variable {left right : Text}

private theorem readsAlike (same : Recommented left right) : ReadsAlike left right :=
  same.imp fun _ _ line => line.readsAlike

private theorem lines (same : Recommented left right) :
    List.Forall₂ SameUpToMark (lines left) (lines right) := by
  rw [← map_raw_sourceLines, ← map_raw_sourceLines]
  exact List.rel_map (fun _ _ line => line.raw) same

end Recommented

end Text

private theorem Text.Recommented.isCellMagic_eq {left right : Text}
    (same : Recommented left right) : isCellMagic left = isCellMagic right := by
  have lines := same.lines
  unfold isCellMagic
  generalize Text.lines left = leftLines at lines ⊢
  generalize Text.lines right = rightLines at lines ⊢
  induction lines with
  | nil => rfl
  | @cons first second firsts seconds line lines ih =>
      rw [List.find?_cons, List.find?_cons, line.isBlankText_eq]
      cases isBlankText second with
      | true => exact ih
      | false => exact line.startsWithPercents_eq

namespace EmptyCells

private theorem isBlankText_eq {left right : Text} (same : Text.Recommented left right) :
    isBlankText left = isBlankText right := by
  rw [isBlankText_eq_all, isBlankText_eq_all]
  exact all_eq_of_forall₂ same.lines fun _ _ line => line.isBlankText_eq

/-- Two trimmed lines that begin alike and are told apart by no text without a mark. -/
private structure SameStatement (left right : Text) : Prop where
  head : left.head? = right.head?
  beq : ∀ word : Text, word.any isMark = false → (left == word) = (right == word)

private theorem forall₂_statements {left right : Text} (same : Text.Recommented left right) :
    List.Forall₂ SameStatement (statements left) (statements right) := by
  have trimmed : List.Forall₂ SameStatement ((lines left).map trim) ((lines right).map trim) :=
    List.rel_map (fun _ _ line => ⟨line.head?_trim_eq, fun _ => line.trim_beq_eq⟩) same.lines
  refine List.rel_filter (fun first second line => ?_) trimmed
  have empty : first.isEmpty = second.isEmpty := by
    have head := line.head
    cases first <;> cases second <;> simp_all
  simp [empty, line.head]

private theorem triviality?_eq {left right : Text} (same : Text.Recommented left right) :
    triviality? left = triviality? right := by
  have statements := forall₂_statements same
  have empty : (EmptyCells.statements left).isEmpty = (EmptyCells.statements right).isEmpty := by
    rw [Bool.eq_iff_iff, List.isEmpty_iff_length_eq_zero, List.isEmpty_iff_length_eq_zero,
      statements.length_eq]
  have all : ∀ word : Text, word.any isMark = false →
      ((EmptyCells.statements left).all fun statement => statement == word) =
        (EmptyCells.statements right).all fun statement => statement == word :=
    fun word unmarked => all_eq_of_forall₂ statements fun _ _ line => line.beq word unmarked
  simp only [triviality?, isBlankText_eq same, empty, all "pass".toList (by decide),
    all "...".toList (by decide)]

end EmptyCells

namespace BuiltinRule

private theorem readsAlike {left right : Text} (same : Text.Recommented left right)
    {rule : BuiltinRule} (noBrackets : rule ≠ .unclosedBrackets) : rule.ReadsAlike left right where
  code := same.readsAlike.sameCode
  lines := fun _ => same.readsAlike
  magic := same.isCellMagic_eq
  triviality := EmptyCells.triviality?_eq same
  brackets := fun brackets => absurd brackets noBrackets

private theorem check_eq {left right : Text} (same : Text.Recommented left right) (memory : Nat)
    (offset : Int) (context : List Text) {rule : BuiltinRule}
    (noBrackets : rule ≠ .unclosedBrackets) :
    (rule.toRule memory).check left offset context =
      (rule.toRule memory).check right offset context :=
  (readsAlike same noBrackets).check_eq offset context

private theorem definedNames_eq {left right : Text} (same : Text.Recommented left right)
    (memory : Nat) (rule : BuiltinRule) :
    (rule.toRule memory).definedNames left = (rule.toRule memory).definedNames right := by
  by_cases brackets : rule = .unclosedBrackets
  · subst brackets
    rfl
  · exact (readsAlike same brackets).definedNames_eq

end BuiltinRule

private theorem Lint.runRules_eq {left right : Text} (same : Text.Recommented left right)
    (memory : Nat) (offset : Int) (context : List Text) (cellIndex : Option Int)
    {rules : List BuiltinRule} (noBrackets : .unclosedBrackets ∉ rules) :
    runRules ⟨left, offset, context, cellIndex⟩ (rules.map (BuiltinRule.toRule memory)) =
      runRules ⟨right, offset, context, cellIndex⟩ (rules.map (BuiltinRule.toRule memory)) := by
  induction rules with
  | nil => rfl
  | cons rule rest ih =>
      simp only [List.mem_cons, not_or] at noBrackets
      have run : runRule ⟨left, offset, context, cellIndex⟩ (rule.toRule memory) =
          runRule ⟨right, offset, context, cellIndex⟩ (rule.toRule memory) := by
        simp only [runRule, BuiltinRule.check_eq same memory offset context (Ne.symm noBrackets.1),
          BuiltinRule.definedNames_eq same memory]
      rw [List.map_cons, runRules, runRules, run, ih noBrackets.2]

/-- Comment text does not influence analysis. Every rule but the one on brackets reports the same
and defines the same names, whatever the comments of a cell are rewritten to. A cell is then linted
to the same reports before suppressions, so that only the markers in its comments make a
difference. -/
theorem Engine.lintCell_rewriteComments {rewrite : Nat → Option Text}
    (unbroken : ∀ index text, rewrite index = some text → '\n' ∉ text) (memory : Nat)
    (source : Text) (offset : Int) (context : List Text) :
    (∀ rule : BuiltinRule, rule ≠ .unclosedBrackets →
      (rule.toRule memory).check source offset context =
          (rule.toRule memory).check (rewriteComments rewrite source) offset context ∧
        (rule.toRule memory).definedNames source =
          (rule.toRule memory).definedNames (rewriteComments rewrite source)) ∧
    ∀ (engine : Engine) (rules : List BuiltinRule),
      engine.rules = rules.map (BuiltinRule.toRule memory) → .unclosedBrackets ∉ rules →
      ∀ cellIndex : Option Int,
        let result := engine.lintCell ⟨source, offset, context, cellIndex⟩
        let rewritten :=
          engine.lintCell ⟨rewriteComments rewrite source, offset, context, cellIndex⟩
        (∃ found : List Diagnostic,
          result.diagnostics = Suppression.apply source offset found ∧
          rewritten.diagnostics =
            Suppression.apply (rewriteComments rewrite source) offset found) ∧
        result.defined = rewritten.defined ∧ result.log = rewritten.log ∧
        (Suppression.ofSource source = Suppression.ofSource (rewriteComments rewrite source) →
          result = rewritten) := by
  have same : Text.Recommented source (rewriteComments rewrite source) :=
    forall₂_sourceLines_rewriteComments unbroken source
  refine ⟨fun rule noBrackets => ⟨BuiltinRule.check_eq same memory offset context noBrackets,
    BuiltinRule.definedNames_eq same memory rule⟩, ?_⟩
  intro engine rules builtin noBrackets cellIndex
  have run := Lint.runRules_eq same memory offset context cellIndex noBrackets
  simp only [Engine.lintCell, Lint.cell, builtin, run, true_and]
  refine ⟨⟨_, rfl, rfl⟩, ?_⟩
  intro markers
  simp only [Suppression.apply, markers]

/-- Comments inside an import list, a parameter list and a body, one of them rewritten to brackets
and quotes: the function without a return and the imports without use are reported as before. -/
theorem Engine.lintCell_rewriteComments_signature :
    let source := ("from os import (path, # it's\n    sep)\ndef get_a(a, # \"b\n" ++
      "      b='#'): # x\n    total = a + b # y\n").toList
    let rewrite : Nat → Option Text
      | 0 => some []
      | 2 => some " ) '''".toList
      | 4 => some "   long (".toList
      | _ => none
    let rules : List BuiltinRule := [.missingReturn, .importIssues true]
    let memory := 1 <<< 37
    (∀ index text, rewrite index = some text → '\n' ∉ text) ∧
      rewriteComments rewrite source =
        ("from os import (path, #\n    sep)\ndef get_a(a, # ) '''\n" ++
          "      b='#'): # x\n    total = a + b #   long (\n").toList ∧
      (rules.flatMap fun rule => (rule.findings source []).map Finding.line) = [3, 1, 1] ∧
      (BuiltinRule.missingReturn.toRule memory).check source 7 [] =
        (BuiltinRule.missingReturn.toRule memory).check (rewriteComments rewrite source) 7 [] ∧
      (Engine.start (rules.map (BuiltinRule.toRule memory))).lintCell ⟨source, 7, [], none⟩ =
        (Engine.start (rules.map (BuiltinRule.toRule memory))).lintCell
          ⟨rewriteComments rewrite source, 7, [], none⟩ := by
  intro source rewrite rules memory
  have unbroken : ∀ index text, rewrite index = some text → '\n' ∉ text := by
    intro index text known
    simp only [rewrite] at known
    split at known <;> cases known <;> decide
  have markers : Suppression.ofSource source =
      Suppression.ofSource (rewriteComments rewrite source) := by
    decide +kernel
  obtain ⟨byRule, byEngine⟩ := Engine.lintCell_rewriteComments unbroken memory source 7 []
  refine ⟨unbroken, by decide +kernel, by decide +kernel, (byRule .missingReturn (by decide)).1, ?_⟩
  exact (byEngine _ rules rfl (by decide) none).2.2.2 markers

end NotebookLint
