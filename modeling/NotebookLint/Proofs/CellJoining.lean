import NotebookLint.Names.Binding
import NotebookLint.Names.Usage
import NotebookLint.Proofs.BindingSpacing
import NotebookLint.Proofs.BracketDepth
import NotebookLint.Proofs.ScanRestart
import NotebookLint.Proofs.SignatureSpacing

/-! Joining cells at the end of a statement. Four things may reach over a line break: the bracket
depth, an import statement whose names are not read, a member list in parentheses or behind a
backslash, and a parameter list. Where brackets are closed and no backslash is left, none of them
does, so two joined texts bind and read the names that they bind and read one by one. -/

set_option autoImplicit false

namespace NotebookLint

namespace Text

/-- Whether a statement ends with a text of code: it leaves no bracket open and has no backslash at
its end. -/
structure EndsStatement (text : Text) : Prop where
  code : ∀ line ∈ lines text, SourceLine.isDirective line = false
  nested : Nested (blanked text)
  ended : ∀ last ∈ (lines (blanked text)).getLast?, endsWithBackslash last = false

theorem EndsStatement.code_sourceLines {text : Text} (ends : text.EndsStatement) :
    ∀ line ∈ sourceLines text, SourceLine.isDirective line.raw = false := by
  intro line member
  apply ends.code
  rw [← map_raw_sourceLines]
  exact List.mem_map_of_mem member

theorem EndsStatement.closes_sourceLines {text : Text} (ends : text.EndsStatement) :
    closes [] ((sourceLines text).map SourceLine.clean).flatten = true := by
  rw [map_clean_sourceLines, flatten_lines, closes_filter_break]
  exact (nested_iff_closes _).mp ends.nested

theorem EndsStatement.ended_sourceLines {text : Text} (ends : text.EndsStatement) :
    ∀ last ∈ (sourceLines text).getLast?, endsWithBackslash last.clean = false := by
  intro last member
  apply ends.ended
  rw [← map_clean_sourceLines, List.getLast?_map]
  exact Option.mem_map_of_mem _ member

theorem EndsStatement.depthAfterLines {text : Text} (ends : text.EndsStatement) :
    CodeLine.depthAfterLines 0 (sourceLines text) = 0 := by
  have closed := ends.closes_sourceLines
  have counted := CodeLine.depthAfterLines_eq
    (fun line member directive => absurd directive (by simp [ends.code_sourceLines line member]))
    (staysOpen_of_closes closed)
  have balanced := bracketDelta_of_closes closed
  simp only [List.length_nil] at balanced counted
  omega

end Text

/-! ## Names that are read -/

namespace Names

def Usage.moveDown (lines : Nat) (usage : Usage) : Usage :=
  { usage with line := usage.line + lines }

theorem usagesOf_moveDown (lines : Nat) (inImport : Bool) (source : List CodeLine) :
    usagesOf inImport (source.map (CodeLine.moveDown lines)) =
      (usagesOf inImport source).map (Usage.moveDown lines) := by
  induction source generalizing inImport with
  | nil => rfl
  | cons line rest ih =>
      have here : lineUsages (line.moveDown lines) =
          (lineUsages line).map (Usage.moveDown lines) := by
        simp only [lineUsages, List.map_map]
        rfl
      have unchanged : (line.moveDown lines).clean = line.clean ∧
        (line.moveDown lines).depth = line.depth ∧
        (line.moveDown lines).endDepth = line.endDepth := ⟨rfl, rfl, rfl⟩
      simp only [List.map_cons, usagesOf, unchanged, here]
      split
      · exact ih _
      · rw [List.map_append, ih]

/-- An import statement does not go on after lines that leave no bracket open. -/
theorem usagesOf_append {inImport : Bool} {lines : List CodeLine} (more : List CodeLine)
    (fresh : lines = [] → inImport = false)
    (closed : ∀ last ∈ lines.getLast?, last.endDepth = 0) :
    usagesOf inImport (lines ++ more) = usagesOf inImport lines ++ usagesOf false more := by
  induction lines generalizing inImport with
  | nil => rw [fresh rfl]; rfl
  | cons line rest ih =>
      have closedRest : ∀ last ∈ rest.getLast?, last.endDepth = 0 := by
        intro last member
        apply closed
        rw [List.getLast?_cons, Option.mem_def.mp member]
        rfl
      simp only [List.cons_append, usagesOf]
      split
      · refine ih ?_ closedRest
        rintro rfl
        simpa using closed line rfl
      · rw [ih (fun _ => rfl) closedRest, List.append_assoc]

end Names

/-! ## Imports -/

namespace Text

theorem endsWithBackslash_append (before : Text) {after : Text} (ends : endsWithBackslash after = true) :
    endsWithBackslash (before ++ after) = true := by
  simp only [endsWithBackslash, lastVisible?, beq_iff_eq] at ends ⊢
  rw [List.reverse_append, List.dropWhile_append]
  split
  · rename_i none
    rw [List.isEmpty_iff.mp none] at ends
    cases ends
  · rename_i some
    rw [List.head?_append, ends]
    rfl

theorem suffix_of_gap? {text rest : Text} (read : gap? text = some rest) : rest <:+ text := by
  obtain ⟨blanks, split⟩ := Names.exists_of_gap? read
  exact ⟨blanks, split.symm⟩

theorem suffix_of_afterGap? {beginning text rest : Text}
    (read : (after? beginning text).bind gap? = some rest) : rest <:+ text := by
  obtain ⟨following, begun, gap⟩ := Option.bind_eq_some_iff.mp read
  rw [Names.eq_append_of_after? begun]
  exact (suffix_of_gap? gap).trans (List.suffix_append _ _)

end Text

namespace Import

open Text

/-- The member list of a from-import is the end of its line. -/
theorem suffix_of_fromHeader? {line module list : Text}
    (read : fromHeader? line = some (module, list)) : list <:+ line := by
  simp only [fromHeader?, Option.bind_eq_bind, Option.pure_def] at read
  obtain ⟨rest, begun, read⟩ := Option.bind_eq_some_iff.mp read
  split at read
  · cases read
  · obtain ⟨further, gap, read⟩ := Option.bind_eq_some_iff.mp read
    obtain ⟨members, word, read⟩ := Option.bind_eq_some_iff.mp read
    cases read
    have inFurther : list <:+ further := suffix_of_afterGap? word
    have inRest : further <:+ rest := (suffix_of_gap? gap).trans (List.dropWhile_suffix _)
    have inLine : rest <:+ line := (suffix_of_afterGap? begun).trans (List.dropWhile_suffix _)
    exact inFurther.trans (inRest.trans inLine)

theorem throughParenthesis_append {lines : List Text} (more : List Text)
    (closed : ')' ∈ lines.flatten) :
    throughParenthesis (lines ++ more) = throughParenthesis lines := by
  induction lines with
  | nil => simp at closed
  | cons line rest ih =>
      simp only [List.cons_append, throughParenthesis]
      split
      · rfl
      · rename_i without
        rw [ih]
        rw [List.flatten_cons, List.mem_append] at closed
        exact closed.resolve_left (by simpa using without)

theorem backslashPieces_append {piece : Text} {lines : List Text} (more : List Text)
    (ended : ∀ last ∈ (piece :: lines).getLast?, endsWithBackslash last = false) :
    backslashPieces piece (lines ++ more) = backslashPieces piece lines := by
  induction lines generalizing piece with
  | nil =>
      cases more with
      | nil => rfl
      | cons next following => simp [backslashPieces, ended piece rfl]
  | cons next following ih =>
      simp only [List.cons_append, backslashPieces]
      split
      · rw [ih]
        simpa [List.getLast?_cons_cons] using ended
      · rfl

/-- A member list goes on no further than over lines that close what its line opens and have no
backslash at their end. -/
theorem memberList_append {line list : Text} {lines : List Text} (more : List Text)
    (rest : list <:+ line) {opened : List Char} (closed : closes opened (line :: lines).flatten)
    (ended : ∀ last ∈ (line :: lines).getLast?, endsWithBackslash last = false) :
    memberList list (lines ++ more) = memberList list lines := by
  obtain ⟨before, rfl⟩ := rest
  unfold memberList
  split
  · rename_i parenthesis
    simp only [Bool.and_eq_true, beq_iff_eq, Bool.not_eq_true', List.contains_eq_mem,
      decide_eq_false_iff_not] at parenthesis
    obtain ⟨first, unclosed⟩ := parenthesis
    rw [throughParenthesis_append]
    -- The parenthesis that opens the list is closed, and not on its own line.
    obtain ⟨blanks, split⟩ := Names.exists_eq_append_trimLeft list
    obtain ⟨inner, begun⟩ := List.head?_eq_some_iff.mp first
    rw [begun] at split
    have text : ((before ++ list) :: lines).flatten =
        (before ++ blanks) ++ '(' :: (inner ++ lines.flatten) := by
      simp [split]
    rw [text] at closed
    obtain ⟨still, after, -⟩ := exists_opened_of_closes _ closed
    have opens : closes ('(' :: still) (inner ++ lines.flatten) = true := after
    have member : ')' ∈ inner ++ lines.flatten := closerOf_mem_of_closes opens List.mem_cons_self
    rcases List.mem_append.mp member with here | later
    · exact absurd (by simp [split, here]) unclosed
    · exact later
  · rw [backslashPieces_append]
    intro last member
    cases lines with
    | nil =>
        cases member
        by_contra continued
        have whole := endsWithBackslash_append before (by simpa using continued)
        rw [ended (before ++ list) rfl] at whole
        cases whole
    | cons next following =>
        rw [List.getLast?_cons_cons] at member
        exact ended last (by rwa [List.getLast?_cons_cons])

theorem bindingsOf_append {lines : List SourceLine} (more : List SourceLine) {opened : List Char}
    (closed : closes opened (lines.map SourceLine.clean).flatten = true)
    (ended : ∀ last ∈ lines.getLast?, endsWithBackslash last.clean = false) :
    bindingsOf (lines ++ more) = bindingsOf lines ++ bindingsOf more := by
  induction lines generalizing opened with
  | nil => rfl
  | cons line rest ih =>
      have endedRest : ∀ last ∈ rest.getLast?, endsWithBackslash last.clean = false := by
        intro last member
        apply ended
        rw [List.getLast?_cons, Option.mem_def.mp member]
        rfl
      obtain ⟨still, closedRest, -⟩ := exists_opened_of_closes _ closed
      have here : lineBindings line ((rest ++ more).map SourceLine.clean) =
          lineBindings line (rest.map SourceLine.clean) := by
        rw [List.map_append, lineBindings, lineBindings]
        cases header : fromHeader? line.clean with
        | none => rfl
        | some read =>
            simp only
            rw [memberList_append _ (suffix_of_fromHeader? header) closed]
            intro last member
            rw [← List.map_cons, List.getLast?_map] at member
            obtain ⟨source, found, rfl⟩ := Option.map_eq_some_iff.mp member
            exact ended source found
      rw [List.cons_append, bindingsOf, bindingsOf, here, ih closedRest endedRest,
        List.append_assoc]

def moveDown (lines : Nat) (binding : ImportBinding) : ImportBinding :=
  { binding with line := binding.line + lines }

theorem lineBindings_moveDown (lines : Nat) (line : SourceLine) (following : List Text) :
    lineBindings (line.moveDown lines) following =
      (lineBindings line following).map (moveDown lines) := by
  have clean : (line.moveDown lines).clean = line.clean := rfl
  have number : (line.moveDown lines).number = line.number + lines := rfl
  simp only [lineBindings, clean, number]
  cases fromHeader? line.clean with
  | some read =>
      simp only [List.map_filterMap]
      congr 1
      funext member
      split
      · rfl
      · cases memberName? member <;> rfl
  | none =>
      cases plainHeader? line.clean with
      | none => rfl
      | some list =>
          simp only [List.map_filterMap]
          congr 1
          funext member
          cases moduleName? member <;> rfl

theorem bindingsOf_moveDown (lines : Nat) (source : List SourceLine) :
    bindingsOf (source.map (SourceLine.moveDown lines)) =
      (bindingsOf source).map (moveDown lines) := by
  induction source with
  | nil => rfl
  | cons line rest ih =>
      have unchanged : (rest.map (SourceLine.moveDown lines)).map SourceLine.clean =
          rest.map SourceLine.clean := by
        rw [List.map_map]
        rfl
      have raw : (line.moveDown lines).raw = line.raw := rfl
      simp only [List.map_cons, bindingsOf, List.map_append, ih, unchanged, raw]
      split
      · rfl
      · rw [lineBindings_moveDown]

theorem map_name_bindingsOf_moveDown (lines : Nat) (source : List SourceLine) :
    (bindingsOf (source.map (SourceLine.moveDown lines))).map ImportBinding.name =
      (bindingsOf source).map ImportBinding.name := by
  rw [bindingsOf_moveDown, List.map_map]
  rfl

end Import

/-! ## Signatures -/

namespace Names

open Text

private theorem dropWhile_append_break (dropped : Char → Bool) (stops : dropped '\n' = false)
    (text more : Text) :
    (text ++ '\n' :: more).dropWhile dropped = text.dropWhile dropped ++ '\n' :: more := by
  rw [List.dropWhile_append, List.dropWhile_cons_of_neg (by simp [stops])]
  split
  · rename_i empty
    rw [List.isEmpty_iff.mp empty, List.nil_append]
  · rfl

private theorem takeWhile_append_break (taken : Char → Bool) (stops : taken '\n' = false)
    (text more : Text) : (text ++ '\n' :: more).takeWhile taken = text.takeWhile taken := by
  induction text with
  | nil => simp [stops]
  | cons char rest ih => simp [List.takeWhile_cons, ih]

private theorem after?_append_break (beginning : Text) (unbroken : '\n' ∉ beginning)
    (text more : Text) :
    after? beginning (text ++ '\n' :: more) =
      (after? beginning text).map (· ++ '\n' :: more) := by
  induction beginning generalizing text with
  | nil => rfl
  | cons expected others ih =>
      simp only [List.mem_cons, not_or] at unbroken
      cases text with
      | nil => simp [after?, unbroken.1]
      | cons char rest =>
          simp only [List.cons_append, after?]
          split
          · exact ih unbroken.2 rest
          · rfl

private theorem afterSpaces_append_break (beginning : Text) (unbroken : '\n' ∉ beginning)
    (text more : Text) :
    (after? beginning (text ++ '\n' :: more)).bind spaces? =
      ((after? beginning text).bind spaces?).map (· ++ '\n' :: more) := by
  rw [after?_append_break _ unbroken]
  cases after? beginning text with
  | none => rfl
  | some rest =>
      cases rest with
      | nil => rfl
      | cons char others =>
          simp only [Option.map_some, Option.bind_some, List.cons_append, spaces?]
          split
          · rw [skipSpaces, dropWhile_append_break _ rfl]
            rfl
          · rfl

private theorem name?_append_break (text more : Text) :
    name? (text ++ '\n' :: more) =
      (name? text).map (Prod.map id (· ++ '\n' :: more)) := by
  cases text with
  | nil => rfl
  | cons char rest =>
      simp only [List.cons_append, name?]
      split
      · rw [takeWhile_append_break _ (by decide), dropWhile_append_break _ (by decide)]
        rfl
      · rfl

private theorem char?_append_break (expected : Char) (visible : expected ≠ '\n')
    (text more : Text) :
    char? expected (text ++ '\n' :: more) = (char? expected text).map (· ++ '\n' :: more) := by
  cases text with
  | nil => simp [char?, Ne.symm visible]
  | cons char rest =>
      simp only [List.cons_append, char?]
      split <;> rfl

/-- A header is read within its line. -/
theorem functionHeader?_append_break (text more : Text) :
    functionHeader? (text ++ '\n' :: more) =
      (functionHeader? text).map (Prod.map id (· ++ '\n' :: more)) := by
  simp only [functionHeader?, Option.bind_eq_bind, skipSpaces,
    dropWhile_append_break isSpaceOrTab rfl,
    afterSpaces_append_break "async".toList (by decide), Option.getD_map,
    afterSpaces_append_break "def".toList (by decide)]
  cases (after? "def".toList
      (((after? "async".toList (text.dropWhile isSpaceOrTab)).bind spaces?).getD
        (text.dropWhile isSpaceOrTab))).bind spaces? with
  | none => rfl
  | some rest =>
      simp only [Option.map_some, Option.bind_some, name?_append_break]
      cases name? rest with
      | none => rfl
      | some pair =>
          simp only [Option.map_some, Option.bind_some, Prod.map_snd, Prod.map_fst,
            dropWhile_append_break isSpaceOrTab rfl,
            char?_append_break '(' (by decide)]
          cases char? '(' (pair.2.dropWhile isSpaceOrTab) <;> rfl

private theorem suffix_of_afterSpaces? {beginning text rest : Text}
    (read : (after? beginning text).bind spaces? = some rest) : rest <:+ text := by
  obtain ⟨following, begun, spaced⟩ := Option.bind_eq_some_iff.mp read
  rw [spaces?_eq] at spaced
  split at spaced
  · cases spaced
    rw [eq_append_of_after? begun]
    exact (List.dropWhile_suffix _).trans (List.suffix_append _ _)
  · cases spaced

/-- What follows the parenthesis of a header is the end of the text. -/
theorem suffix_of_functionHeader? {text name parameters : Text}
    (read : functionHeader? text = some (name, parameters)) : '(' :: parameters <:+ text := by
  simp only [functionHeader?, Option.bind_eq_bind, Option.pure_def] at read
  obtain ⟨named, defined, read⟩ := Option.bind_eq_some_iff.mp read
  obtain ⟨⟨found, afterName⟩, nameRead, read⟩ := Option.bind_eq_some_iff.mp read
  obtain ⟨inner, opened, read⟩ := Option.bind_eq_some_iff.mp read
  cases read
  have parenthesis : '(' :: parameters = skipSpaces afterName := by
    cases spaced : skipSpaces afterName with
    | nil => simp [spaced, char?] at opened
    | cons char others =>
        simp only [spaced, char?] at opened
        split at opened
        · rename_i same
          rw [same, Option.some.inj opened]
        · cases opened
  obtain ⟨front, last, -, split⟩ := exists_of_name? nameRead
  have inNamed : '(' :: parameters <:+ named := by
    rw [parenthesis, split]
    exact (List.dropWhile_suffix _).trans ((List.suffix_cons last _).trans
      (List.suffix_append _ _))
  have start : ((after? "async".toList (skipSpaces text)).bind spaces?).getD (skipSpaces text) <:+
      skipSpaces text := by
    cases marked : (after? "async".toList (skipSpaces text)).bind spaces? with
    | none => exact List.suffix_refl _
    | some rest => exact suffix_of_afterSpaces? marked
  exact inNamed.trans ((suffix_of_afterSpaces? defined).trans
    (start.trans (List.dropWhile_suffix _)))

/-- A bracket that a text closes is closed before anything that follows the text. -/
theorem exists_beforeCloser?_of_closes {opened : List Char} {text : Text}
    (closed : closes opened text = true) {depth : Nat} (deep : depth < opened.length) :
    ∃ inner, ∀ more, beforeCloser? depth (text ++ more) = some inner := by
  induction text generalizing opened depth with
  | nil =>
      obtain rfl : opened = [] := by simpa [closes] using closed
      cases deep
  | cons char rest ih =>
      rw [closes_cons] at closed
      simp only [List.cons_append, beforeCloser?]
      split at closed
      · rename_i opens
        obtain ⟨inner, found⟩ := ih closed (Nat.succ_lt_succ deep)
        exact ⟨char :: inner, fun more => by rw [if_pos opens, found, Option.map_some]⟩
      · rename_i noOpener
        split at closed
        · rename_i isCloser
          cases opened with
          | nil => cases closed
          | cons opener outer =>
              simp only [Bool.and_eq_true] at closed
              cases depth with
              | zero => exact ⟨[], fun more => by rw [if_neg noOpener, if_pos isCloser]⟩
              | succ depth =>
                  obtain ⟨inner, found⟩ := ih closed.2 (Nat.lt_of_succ_lt_succ deep)
                  refine ⟨char :: inner, fun more => ?_⟩
                  rw [if_neg noOpener, if_pos isCloser]
                  simp only [found, Option.map_some]
        · rename_i noCloser
          obtain ⟨inner, found⟩ := ih closed deep
          exact ⟨char :: inner, fun more => by
            rw [if_neg noOpener, if_neg noCloser, found, Option.map_some]⟩

theorem signatureAt_append_break (atLineStart : Bool) {opened : List Char} {text : Text}
    (closed : closes opened text = true) (more : Text) :
    signatureAt atLineStart (text ++ '\n' :: more) = signatureAt atLineStart text := by
  unfold signatureAt
  split
  · rw [functionHeader?_append_break]
    cases header : functionHeader? text with
    | none => rfl
    | some read =>
        obtain ⟨before, rfl⟩ := suffix_of_functionHeader? header
        obtain ⟨still, after, -⟩ := exists_opened_of_closes _ closed
        have opens : closes ('(' :: still) read.2 = true := after
        obtain ⟨inner, found⟩ := exists_beforeCloser?_of_closes opens (Nat.succ_pos _)
        have alone := found []
        rw [List.append_nil] at alone
        simp [parameterText, found, alone]
  · rfl

theorem signaturesFrom_append_break (atLineStart : Bool) {opened : List Char} {text : Text}
    (closed : closes opened text = true) (more : Text) :
    signaturesFrom atLineStart (text ++ '\n' :: more) =
      signaturesFrom atLineStart text ++ signaturesFrom true more := by
  induction text generalizing atLineStart opened with
  | nil =>
      have blank : functionHeader? ('\n' :: more) = none := rfl
      cases atLineStart with
      | true => simp [signaturesFrom, blank]
      | false => rfl
  | cons char rest ih =>
      have here := signatureAt_append_break atLineStart closed more
      obtain ⟨still, later, -⟩ := exists_opened_of_closes [char] closed
      rw [List.cons_append] at here ⊢
      rw [signaturesFrom_cons, here, ih _ later, signaturesFrom_cons, List.append_assoc]

/-! ## Joined texts -/

section Joined

variable {before after : Text} (ends : before.EndsStatement)
  (restarts : Glyph.scan (before ++ '\n' :: after) =
    Glyph.scan before ++ ⟨'\n', .code⟩ :: Glyph.scan after)
include ends restarts

theorem signatureNames_of_scan :
    signatureNames (before ++ '\n' :: after) = signatureNames before ++ signatureNames after := by
  have closed : closes [] (blanked before) = true := (nested_iff_closes _).mp ends.nested
  rw [signatureNames, blanked_of_scan restarts, signatures, signaturesFrom_append_break true closed,
    List.flatMap_append]
  rfl

theorem importedNames_of_scan :
    importedNames (before ++ '\n' :: after) = importedNames before ++ importedNames after := by
  have named : ∀ bindings : List ImportBinding,
      (bindings.filter fun binding => !binding.isWildcard).map ImportBinding.name =
        (bindings.map ImportBinding.name).filter fun name => !(name == ['*']) := by
    intro bindings
    rw [List.filter_map]
    rfl
  simp only [importedNames, named, importBindings]
  rw [sourceLines_of_scan restarts,
    Import.bindingsOf_append _ ends.closes_sourceLines ends.ended_sourceLines, List.map_append,
    Import.map_name_bindingsOf_moveDown, List.filter_append]

theorem lineBindings_of_scan :
    (codeLines (before ++ '\n' :: after)).flatMap lineBindings =
      (codeLines before).flatMap lineBindings ++ (codeLines after).flatMap lineBindings := by
  rw [codeLines_of_scan restarts ends.depthAfterLines, List.flatMap_append, List.flatMap_map]
  rfl

theorem usedNames_of_scan :
    usedNames (before ++ '\n' :: after) =
      usedNames before ++ (usedNames after).map (Usage.moveDown (lineCount before)) := by
  have closed : ∀ last ∈ (codeLines before).getLast?, last.endDepth = 0 := by
    intro last member
    rw [CodeLine.endDepth_of_getLast? member, ends.depthAfterLines]
  rw [usedNames, codeLines_of_scan restarts ends.depthAfterLines, usagesOf_append _ (fun _ => rfl) closed,
    usagesOf_moveDown]
  rfl

end Joined

/-- A text that ends a statement and a text that begins outside its literals bind and read, when
they are joined, the names that they bind and read one by one. -/
theorem definedNames_usedNames_append_break (before after : Text) (ends : before.EndsStatement)
    (outside : lineCount before ∉ interiorLines (before ++ '\n' :: after)) :
    (∀ name, name ∈ definedNames (before ++ '\n' :: after) ↔
      name ∈ definedNames before ∨ name ∈ definedNames after) ∧
    usedNames (before ++ '\n' :: after) =
      usedNames before ++ (usedNames after).map (Usage.moveDown (lineCount before)) := by
  have restarts := scan_append_break outside
  refine ⟨?_, usedNames_of_scan ends restarts⟩
  intro name
  simp only [definedNames, signatureNames_of_scan ends restarts,
    importedNames_of_scan ends restarts, lineBindings_of_scan ends restarts, List.filter_append,
    List.mem_append]
  tauto

/-- A member list goes on over two lines before a parameter list that does, and the last line of the
first text begins inside a literal. -/
theorem definedNames_usedNames_append_break_lists :
    let before : Text := "from m import (a,\n  b)\ndef f(x,\n  y=[a]): '''\n'''".toList
    let after : Text := "c = f(y)".toList
    before.EndsStatement ∧ lineCount before ∉ interiorLines (before ++ '\n' :: after) ∧
      definedNames before = ["f", "x", "y", "a", "b"].map String.toList ∧
      usedNames after = [⟨['c'], 1, 1⟩, ⟨['f'], 1, 5⟩, ⟨['y'], 1, 7⟩] ∧
      (∀ name, name ∈ definedNames (before ++ '\n' :: after) ↔
        name ∈ definedNames before ∨ name ∈ definedNames after) ∧
      usedNames (before ++ '\n' :: after) =
        usedNames before ++ [⟨['c'], 6, 1⟩, ⟨['f'], 6, 5⟩, ⟨['y'], 6, 7⟩] := by
  intro before after
  have ends : before.EndsStatement := by
    constructor <;> decide +kernel
  have outside : lineCount before ∉ interiorLines (before ++ '\n' :: after) := by decide +kernel
  have used : usedNames after = [⟨['c'], 1, 1⟩, ⟨['f'], 1, 5⟩, ⟨['y'], 1, 7⟩] := by
    decide +kernel
  obtain ⟨defined, joined⟩ := definedNames_usedNames_append_break before after ends outside
  rw [used] at joined
  exact ⟨ends, outside, by decide +kernel, used, defined, joined⟩

end Names

end NotebookLint
