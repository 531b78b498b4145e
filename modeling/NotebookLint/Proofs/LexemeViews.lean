import NotebookLint.Proofs.Lexemes

/-! The views of a text recover its lexical structure. What is shown of a well-formed text, the
lines that begin inside its literals and its comments by line follow from its lexemes alone. -/

set_option autoImplicit false

namespace NotebookLint.Lexeme

/-! ## What is shown -/

private theorem isMarkerLetter_of_mem_markerOf {code : Text} {letter : Char}
    (member : letter ∈ markerOf code) : isMarkerLetter letter = true := by
  unfold markerOf at member
  dsimp only at member
  split at member
  · rename_i marked
    simp only [Bool.and_eq_true, List.all_eq_true] at marked
    exact marked.2 letter member
  · simp at member

private theorem ne_break_of_mem_markerOf {code : Text} {letter : Char}
    (member : letter ∈ markerOf code) : letter ≠ '\n' := by
  rintro rfl
  exact absurd (isMarkerLetter_of_mem_markerOf member) (by decide)

private theorem map_shown_code (text : Text) :
    (text.map fun char => (⟨char, .code⟩ : Glyph)).map Glyph.shown = text :=
  Glyph.map_shown_ofRole_of_isKept rfl text

private theorem map_shown_delimiter (text : Text) :
    (text.map fun char => (⟨char, .delimiter⟩ : Glyph)).map Glyph.shown = text :=
  Glyph.map_shown_ofRole_of_isKept rfl text

private theorem map_shown_body (text : Text) :
    (text.map fun char => (⟨char, .body⟩ : Glyph)).map Glyph.shown = text.map blank := by
  simp [blank, Glyph.shown]

private theorem map_shown_comment (text : Text) :
    (text.map fun char => (⟨char, .comment⟩ : Glyph)).map Glyph.shown = text.map blank := by
  simp [blank, Glyph.shown]

private theorem map_shown_markerOf (code : Text) :
    ((markerOf code).map fun char => (⟨char, .marker⟩ : Glyph)).map Glyph.shown =
      List.replicate (markerOf code).length ' ' :=
  Glyph.map_shown_ofRole_of_not_isKept rfl fun inside => ne_break_of_mem_markerOf inside rfl

theorem map_shown_glyphsFrom (code : Text) (lexemes : List Lexeme) :
    (glyphsFrom code lexemes).map Glyph.shown = shownFrom code lexemes := by
  induction lexemes generalizing code with
  | nil => exact map_shown_code code
  | cons lexeme rest ih =>
      cases lexeme with
      | code text => exact ih (code ++ text)
      | comment text =>
          simp only [glyphsFrom, shownFrom, List.map_append, map_shown_code, map_shown_comment, ih]
      | literal lexeme =>
          simp only [glyphsFrom, shownFrom, StringLexeme.glyphs, withoutMarker, List.map_append,
            map_shown_code, map_shown_markerOf, map_shown_delimiter, map_shown_body, ih,
            List.append_assoc]

/-! ## Lines inside literals -/

/-- The lines that begin inside a literal, after a line break among the given glyphs. -/
private def interiorAfter (line : Nat) : List Glyph → List Nat
  | [] => []
  | glyph :: rest =>
      if glyph.isBreak then
        (if glyph.role = .code then [] else [line + 1]) ++ interiorAfter (line + 1) rest
      else interiorAfter line rest

private theorem filterMap_interior_ofScan (line : Nat) (interior : Bool)
    (started glyphs : List Glyph) :
    (SourceLine.ofScan (line + 1) interior started glyphs).filterMap
        (fun line => if line.interior then some (line.number - 1) else none) =
      (if interior then [line] else []) ++ interiorAfter line glyphs := by
  induction glyphs generalizing line interior started with
  | nil => cases interior <;> rfl
  | cons glyph rest ih =>
      by_cases isBreak : glyph.isBreak = true
      · have later := ih (line + 1) (glyph.role != .code) []
        by_cases isCode : glyph.role = .code
        · cases interior <;>
            simp_all [SourceLine.ofScan, SourceLine.ofGlyphs, interiorAfter]
        · cases interior <;>
            simp_all [SourceLine.ofScan, SourceLine.ofGlyphs, interiorAfter]
      · simp [SourceLine.ofScan, interiorAfter, isBreak, ih]

private theorem interiorAfter_append (line : Nat) (first second : List Glyph) :
    interiorAfter line (first ++ second) =
      interiorAfter line first ++
        interiorAfter (line + (first.map Glyph.char).count '\n') second := by
  induction first generalizing line with
  | nil => rfl
  | cons glyph rest ih =>
      by_cases isBreak : glyph.char = '\n'
      · simp [interiorAfter, Glyph.isBreak, isBreak, ih, Nat.add_assoc, Nat.add_comm 1]
      · simp [interiorAfter, Glyph.isBreak, isBreak, ih]

private theorem interiorAfter_code (line : Nat) (text : Text) :
    interiorAfter line (text.map fun char => ⟨char, .code⟩) = [] := by
  induction text generalizing line with
  | nil => rfl
  | cons char rest ih => simp [interiorAfter, ih]

private theorem interiorAfter_of_unbroken (line : Nat) (role : Role) {text : Text}
    (unbroken : '\n' ∉ text) : interiorAfter line (text.map fun char => ⟨char, role⟩) = [] := by
  induction text with
  | nil => rfl
  | cons char rest ih =>
      simp only [List.mem_cons, not_or] at unbroken
      simp [interiorAfter, Glyph.isBreak, Ne.symm unbroken.1, ih unbroken.2]

private theorem interiorAfter_body (line : Nat) (text : Text) :
    interiorAfter line (text.map fun char => ⟨char, .body⟩) =
      List.range' (line + 1) (text.count '\n') := by
  induction text generalizing line with
  | nil => rfl
  | cons char rest ih =>
      by_cases isBreak : char = '\n'
      · simp [interiorAfter, Glyph.isBreak, isBreak, ih, List.range'_succ]
      · simp [interiorAfter, Glyph.isBreak, isBreak, ih]

private theorem not_mem_delimiter {lexeme : StringLexeme} (quoted : isQuote lexeme.quote = true) :
    '\n' ∉ lexeme.delimiter := by
  intro member
  exact (not_special_of_isQuote quoted).2 (List.eq_of_mem_replicate member).symm

private theorem count_text {lexeme : StringLexeme} (quoted : isQuote lexeme.quote = true) :
    lexeme.text.count '\n' = lexeme.bodyText.count '\n' := by
  have none := List.count_eq_zero_of_not_mem (not_mem_delimiter quoted)
  simp [StringLexeme.text, none]

private theorem map_char_glyphs (lexeme : StringLexeme) :
    lexeme.glyphs.map Glyph.char = lexeme.text := by
  simp [StringLexeme.glyphs, StringLexeme.text, Function.comp_def]

private theorem interiorAfter_glyphs {lexeme : StringLexeme}
    (quoted : isQuote lexeme.quote = true) (line : Nat) :
    interiorAfter line lexeme.glyphs =
      List.range' (line + 1) (lexeme.text.count '\n') := by
  have none := List.count_eq_zero_of_not_mem (not_mem_delimiter quoted)
  simp only [StringLexeme.glyphs, interiorAfter_append,
    interiorAfter_of_unbroken _ _ (not_mem_delimiter quoted), interiorAfter_body, List.map_map,
    List.nil_append, List.append_nil, count_text quoted]
  simp [Function.comp_def, none]

/-- Code is cut in two where its marker begins. -/
private theorem take_append_markerOf (code : Text) :
    code.take (code.length - (markerOf code).length) ++ markerOf code = code := by
  rw [← List.suffix_iff_eq_append]
  unfold markerOf
  dsimp only
  split
  · rw [← List.reverse_prefix, List.reverse_reverse]
    exact List.takeWhile_prefix _
  · exact List.nil_suffix

private def codeGlyphs (code : Text) : List Glyph :=
  ((code.take (code.length - (markerOf code).length)).map fun char => ⟨char, .code⟩) ++
    (markerOf code).map fun char => ⟨char, .marker⟩

private theorem map_char_codeGlyphs (code : Text) : (codeGlyphs code).map Glyph.char = code := by
  simp [codeGlyphs, Function.comp_def, take_append_markerOf]

private theorem interiorAfter_codeGlyphs (line : Nat) (code : Text) :
    interiorAfter line (codeGlyphs code) = [] := by
  have unbroken : '\n' ∉ markerOf code := fun member => ne_break_of_mem_markerOf member rfl
  rw [codeGlyphs, interiorAfter_append, interiorAfter_code,
    interiorAfter_of_unbroken _ _ unbroken, List.nil_append]

private theorem interiorAfter_glyphsFrom {lexemes : List Lexeme} {code : Text}
    (wellFormed : WellFormedFrom code lexemes) (line : Nat) :
    interiorAfter line (glyphsFrom code lexemes) =
      interiorFrom (line + code.count '\n') lexemes := by
  induction lexemes generalizing code line with
  | nil => exact interiorAfter_code line code
  | cons lexeme rest ih =>
      cases lexeme with
      | code text =>
          rw [glyphsFrom, ih wellFormed.2 line]
          simp [interiorFrom, Lexeme.text, Nat.add_assoc]
      | comment text =>
          obtain ⟨unbroken, -, later⟩ := wellFormed
          have noBreak : '\n' ∉ '#' :: text := by simp [unbroken]
          rw [glyphsFrom, interiorAfter_append, interiorAfter_append, interiorAfter_code,
            interiorAfter_of_unbroken _ _ noBreak, ih later]
          simp [interiorFrom, Lexeme.text, Function.comp_def,
            List.count_eq_zero_of_not_mem unbroken]
      | literal lexeme =>
          obtain ⟨closed, -, later⟩ := wellFormed
          have split : glyphsFrom code (.literal lexeme :: rest) =
              codeGlyphs code ++ (lexeme.glyphs ++ glyphsFrom [] rest) := by
            simp [glyphsFrom, codeGlyphs]
          rw [split, interiorAfter_append, interiorAfter_append, interiorAfter_codeGlyphs,
            interiorAfter_glyphs closed.quoted, ih later, map_char_codeGlyphs, map_char_glyphs]
          rfl

/-! ## Comments by line -/

/-- The comments among glyphs, with their lines; `pending` is the comment of the first line so
far. -/
private def commentsIn (line : Nat) (pending : Text) : List Glyph → List (Nat × Text)
  | [] => if pending = [] then [] else [(line, pending)]
  | glyph :: rest =>
      if glyph.isBreak then
        (if pending = [] then [] else [(line, pending)]) ++ commentsIn (line + 1) [] rest
      else if glyph.role = .comment then commentsIn line (pending ++ [glyph.char]) rest
      else commentsIn line pending rest

private theorem toList_comment?_ofGlyphs (line : Nat) (interior : Bool) (glyphs : List Glyph) :
    ((SourceLine.ofGlyphs (line + 1) interior glyphs).comment?.map fun text =>
        (line, text)).toList =
      commentsIn line ((glyphs.filter fun glyph => glyph.role == .comment).map Glyph.char) [] := by
  simp only [SourceLine.ofGlyphs, commentsIn]
  cases glyphs.filter (fun glyph => glyph.role == .comment) <;> simp

private theorem flatMap_comment?_ofScan (line : Nat) (interior : Bool)
    (started glyphs : List Glyph) :
    (SourceLine.ofScan (line + 1) interior started glyphs).flatMap
        (fun line => (line.comment?.map fun text => (line.number - 1, text)).toList) =
      commentsIn line
        ((started.reverse.filter fun glyph => glyph.role == .comment).map Glyph.char) glyphs := by
  induction glyphs generalizing line interior started with
  | nil =>
      rw [← toList_comment?_ofGlyphs line interior started.reverse]
      simp [SourceLine.ofScan, SourceLine.ofGlyphs]
  | cons glyph rest ih =>
      by_cases isBreak : glyph.isBreak = true
      · have flushed := toList_comment?_ofGlyphs line interior started.reverse
        rw [SourceLine.ofScan, if_pos isBreak, List.flatMap_cons, ih]
        rw [commentsIn, if_pos isBreak]
        exact congrArg (· ++ _) flushed
      · rw [SourceLine.ofScan, if_neg isBreak, ih, commentsIn, if_neg isBreak]
        by_cases isComment : glyph.role = .comment
        · simp [isComment]
        · simp [isComment]

/-- Glyphs outside comments, read where no comment is pending, only move the line on. -/
private theorem commentsIn_append_of_forall (line : Nat) {glyphs : List Glyph}
    (outside : ∀ glyph ∈ glyphs, glyph.role ≠ .comment) (rest : List Glyph) :
    commentsIn line [] (glyphs ++ rest) =
      commentsIn (line + (glyphs.map Glyph.char).count '\n') [] rest := by
  induction glyphs generalizing line with
  | nil => rfl
  | cons glyph others ih =>
      have later := fun start => ih start fun other inside => outside other (by simp [inside])
      by_cases isBreak : glyph.char = '\n'
      · simp [commentsIn, Glyph.isBreak, isBreak, later, Nat.add_assoc, Nat.add_comm 1]
      · simp [commentsIn, Glyph.isBreak, isBreak, later, outside glyph (by simp)]

private theorem commentsIn_comment (line : Nat) (pending : Text) {text : Text}
    (unbroken : '\n' ∉ text) (rest : List Glyph) :
    commentsIn line pending ((text.map fun char => ⟨char, .comment⟩) ++ rest) =
      commentsIn line (pending ++ text) rest := by
  induction text generalizing pending with
  | nil => simp
  | cons char others ih =>
      simp only [List.mem_cons, not_or] at unbroken
      simp [commentsIn, Glyph.isBreak, Ne.symm unbroken.1, ih _ unbroken.2]

/-- A pending comment is complete where its line ends. -/
private theorem commentsIn_pending (line : Nat) {pending : Text} (some : pending ≠ [])
    {glyphs : List Glyph} (ends : ∀ glyph ∈ glyphs.head?, glyph.char = '\n') :
    commentsIn line pending glyphs = (line, pending) :: commentsIn line [] glyphs := by
  cases glyphs with
  | nil => simp [commentsIn, some]
  | cons glyph rest => simp [commentsIn, some, Glyph.isBreak, ends glyph (by simp)]

private theorem commentsIn_glyphsFrom {lexemes : List Lexeme} {code : Text}
    (wellFormed : WellFormedFrom code lexemes) (line : Nat) :
    commentsIn line [] (glyphsFrom code lexemes) =
      commentsFrom (line + code.count '\n') lexemes := by
  induction lexemes generalizing code line with
  | nil =>
      have outside : ∀ glyph ∈ code.map fun char => Glyph.mk char .code, glyph.role ≠ .comment := by
        simp
      have scanned := commentsIn_append_of_forall line outside []
      simpa [glyphsFrom, commentsFrom, commentsIn] using scanned
  | cons lexeme rest ih =>
      cases lexeme with
      | code text =>
          rw [glyphsFrom, ih wellFormed.2 line]
          simp [commentsFrom, Lexeme.text, Nat.add_assoc]
      | comment text =>
          obtain ⟨unbroken, ends, later⟩ := wellFormed
          have noBreak : '\n' ∉ '#' :: text := by simp [unbroken]
          have stops : ∀ glyph ∈ (glyphsFrom [] rest).head?, glyph.char = '\n' := by
            rw [← scan_concat later]
            exact Glyph.ends_scanFrom _ ends
          rw [glyphsFrom, List.append_assoc, commentsIn_append_of_forall line (by simp),
            commentsIn_comment _ _ noBreak, List.nil_append,
            commentsIn_pending _ (by simp) stops, ih later]
          simp [commentsFrom, Function.comp_def]
      | literal lexeme =>
          obtain ⟨-, -, later⟩ := wellFormed
          have split : glyphsFrom code (.literal lexeme :: rest) =
              (codeGlyphs code ++ lexeme.glyphs) ++ glyphsFrom [] rest := by
            simp [glyphsFrom, codeGlyphs]
          have outside : ∀ glyph ∈ codeGlyphs code ++ lexeme.glyphs, glyph.role ≠ .comment := by
            simp only [codeGlyphs, StringLexeme.glyphs, List.mem_append, List.mem_map]
            rintro glyph ((⟨_, _, rfl⟩ | ⟨_, _, rfl⟩) | (⟨_, _, rfl⟩ | ⟨_, _, rfl⟩) | ⟨_, _, rfl⟩)
            all_goals simp
          rw [split, commentsIn_append_of_forall line outside, ih later, List.map_append,
            map_char_codeGlyphs, map_char_glyphs]
          simp [commentsFrom, Lexeme.text, Nat.add_assoc]

/-- The scan recovers the lexical structure of every well-formed text: code is shown as it is but
for the markers of literals, delimiters stay, and all else in literals and comments is blanked; the
lines inside literals are those after a line break in a literal; and the comments are those that
the text was written with. -/
theorem views_concat {lexemes : List Lexeme} (wellFormed : WellFormed lexemes) :
    Text.blanked (concat lexemes) = shownFrom [] lexemes ∧
      Text.interiorLines (concat lexemes) = interiorFrom 0 lexemes ∧
      Text.comments (concat lexemes) = commentsFrom 0 lexemes := by
  refine ⟨?_, ?_, ?_⟩
  · rw [Text.blanked, scan_concat wellFormed, map_shown_glyphsFrom]
  · rw [Text.interiorLines, Text.sourceLines, scan_concat wellFormed]
    have interior := filterMap_interior_ofScan 0 false [] (glyphsFrom [] lexemes)
    rw [interiorAfter_glyphsFrom wellFormed 0] at interior
    simpa using interior
  · rw [Text.comments, Text.sourceLines, scan_concat wellFormed,
      List.filterMap_eq_flatMap_toList]
    have byLine := flatMap_comment?_ofScan 0 false [] (glyphsFrom [] lexemes)
    rw [List.reverse_nil, List.filter_nil, List.map_nil, commentsIn_glyphsFrom wellFormed 0]
      at byLine
    simpa using byLine

/-- Markers cut into pieces, an escaped line break, an empty literal beside another one, quotes
inside a literal and comments directly after literals. -/
theorem views_concat_adjacent :
    let lexemes : List Lexeme :=
      [.code "x = r".toList, .code ['b'],
        .literal ⟨'"', false, [.plain 'a', .escape '\n', .plain '\x27']⟩,
        .literal ⟨'\x27', false, []⟩, .code [' '],
        .literal ⟨'"', true, [.plain '"', .escape '"', .plain '\n', .plain '#']⟩,
        .comment " it's".toList, .code "\nbar".toList, .literal ⟨'\x27', true, []⟩, .comment []]
    WellFormed lexemes ∧
      concat lexemes =
        "x = rb\"a\\\n'\"'' \"\"\"\"\\\"\n#\"\"\"# it's\nbar''''''#".toList ∧
      Text.blanked (concat lexemes) =
        "x =   \"  \n \"'' \"\"\"   \n \"\"\"      \nbar'''''' ".toList ∧
      Text.interiorLines (concat lexemes) = [1, 2] ∧
      Text.comments (concat lexemes) = [(2, "# it's".toList), (3, ['#'])] := by
  intro lexemes
  have wellFormed : WellFormed lexemes := by decide
  have shown : shownFrom [] lexemes =
      "x =   \"  \n \"'' \"\"\"   \n \"\"\"      \nbar'''''' ".toList := by decide
  refine ⟨wellFormed, by decide, ?_⟩
  rw [← shown]
  exact views_concat wellFormed

end NotebookLint.Lexeme
