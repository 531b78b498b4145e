import NotebookLint.Proofs.AlikeLines
import NotebookLint.Proofs.Lexemes

/-! Rewriting comments. Giving the comments of a text other texts changes nothing but these
comments: the scan of the rewritten text has the same glyphs outside comments, and the source lines
of both texts agree up to the text of a comment and the number of spaces that stand for it. -/

set_option autoImplicit false

namespace NotebookLint

namespace Text

/-- A text with the comments rewritten for which `rewrite` has a text: on the line with that index,
counted from zero, the text after the hash sign of the comment is replaced. -/
def rewriteComments (rewrite : Nat → Option Text) (source : Text) : Text :=
  ofLines ((lines source).mapIdx fun index line =>
    match (comments source).lookup index, rewrite index with
    | some comment, some text => line.take (line.length - comment.length) ++ '#' :: text
    | _, _ => line)

end Text

namespace Glyph

def ofComment (comment : Text) : List Glyph :=
  comment.map fun char => ⟨char, .comment⟩

/-- Two lists of glyphs that differ in the texts of their comments only. -/
inductive Recommented : List Glyph → List Glyph → Prop
  | nil : Recommented [] []
  | other {glyph : Glyph} {left right : List Glyph} (outside : glyph.role ≠ .comment)
      (later : Recommented left right) : Recommented (glyph :: left) (glyph :: right)
  | comment {old new : Text} {left right : List Glyph} (oldUnbroken : '\n' ∉ old)
      (newUnbroken : '\n' ∉ new) (ends : ∀ glyph ∈ left.head?, glyph.char = '\n')
      (later : Recommented left right) :
      Recommented (ofComment ('#' :: old) ++ left) (ofComment ('#' :: new) ++ right)

@[simp] theorem map_char_ofComment (comment : Text) : (ofComment comment).map char = comment := by
  simp [ofComment, Function.comp_def]

theorem map_shown_ofComment {comment : Text} (unbroken : '\n' ∉ comment) :
    (ofComment comment).map shown = List.replicate comment.length ' ' :=
  map_shown_ofRole_of_not_isKept rfl unbroken

theorem Recommented.head?_map_char {left right : List Glyph} (same : Recommented left right) :
    left.head?.map char = right.head?.map char := by
  cases same with
  | nil => rfl
  | other => rfl
  | comment => rfl

/-- What follows a comment is a line break in both lists. -/
theorem Recommented.ends {left right : List Glyph} (same : Recommented left right)
    (ends : ∀ glyph ∈ left.head?, glyph.char = '\n') :
    ∀ glyph ∈ right.head?, glyph.char = '\n' := by
  intro glyph member
  have first : left.head?.map char = some glyph.char := by
    rw [same.head?_map_char, member, Option.map_some]
  obtain ⟨other, found, equal⟩ := Option.map_eq_some_iff.mp first
  rw [← equal]
  exact ends other found

end Glyph

/-! ## The scan of a rewritten text -/

namespace Mode

/-- The characters ahead are looked at up to a hash sign only. -/
structure SameAhead (left right : Text) : Prop where
  first : left.head? = right.head?
  second : left.head? ≠ some '#' → left.tail.head? = right.tail.head?

private theorem pairAhead_eq (quote : Char) (ahead : Text) :
    pairAhead quote ahead = (ahead.head? == some quote && ahead.tail.head? == some quote) := by
  match ahead with
  | [] => rfl
  | [first] => simp [pairAhead]
  | first :: second :: _ => simp [pairAhead]

private theorem SameAhead.pairAhead {left right : Text} (same : SameAhead left right) {quote : Char}
    (quoted : isQuote quote = true) : pairAhead quote left = pairAhead quote right := by
  rw [pairAhead_eq, pairAhead_eq, same.first]
  by_cases opens : right.head? = some quote
  · have noHash : left.head? ≠ some '#' := by
      rw [same.first, opens]
      rintro ⟨⟩
      exact absurd quoted (by decide)
    rw [same.second noHash]
  · rw [beq_eq_false_iff_ne.mpr opens, Bool.false_and, Bool.false_and]

private theorem SameAhead.isEmpty {left right : Text} (same : SameAhead left right) :
    left.isEmpty = right.isEmpty := by
  have first := same.first
  cases left <;> cases right <;> simp_all

private theorem SameAhead.openLiteral {left right : Text} (same : SameAhead left right)
    {quote : Char} (quoted : isQuote quote = true) (formatted : Bool) :
    openLiteral quote left formatted = openLiteral quote right formatted := by
  rw [Mode.openLiteral, Mode.openLiteral, same.pairAhead quoted]

private theorem SameAhead.stepCode {left right : Text} (same : SameAhead left right) (char : Char)
    (afterWord : Bool) : stepCode char left afterWord = stepCode char right afterWord := by
  unfold Mode.stepCode
  by_cases quoted : isQuote char = true
  · rw [same.openLiteral quoted false, if_pos quoted, if_pos quoted]
  · rw [if_neg quoted, if_neg quoted]
    match left, right, same with
    | [], [], _ => rfl
    | next :: leftRest, other :: rightRest, ⟨first, second⟩ =>
        obtain rfl : next = other := by simpa using first
        by_cases hash : next = '#'
        · subst hash
          rfl
        · have further : leftRest.head? = rightRest.head? := second (by simpa using hash)
          simp only [further]

private theorem SameAhead.stepInside {left right : Text} (same : SameAhead left right) (char : Char)
    {literal : Literal} (quoted : isQuote literal.quote = true) :
    stepInside char left literal = stepInside char right literal := by
  unfold Mode.stepInside
  rw [same.isEmpty, same.pairAhead quoted, same.first]

private theorem SameAhead.stepField {left right : Text} (same : SameAhead left right) (char : Char)
    (literal : Literal) (place : Field) :
    stepField char left literal place = stepField char right literal place := by
  have step : place.step char left = place.step char right := by
    cases place with
    | expression depth => simp only [Field.step, same.first]
    | quoted depth quote => rfl
    | format depth => rfl
  rw [Mode.stepField, Mode.stepField, step]

/-- A step looks at the characters ahead only as far as a comment cannot begin there. -/
theorem SameAhead.step {left right : Text} (same : SameAhead left right) {mode : Mode}
    {char : Char} (fits : mode.Fits (char :: left)) :
    mode.step char left = mode.step char right := by
  match mode, fits with
  | .code afterWord, _ => exact same.stepCode char afterWord
  | .comment, _ => rfl
  | .marker 0 formatted, fits =>
      simp only [Mode.step, same.openLiteral fits.isQuote_of_marker formatted]
  | .marker (_ + 1) _, _ => rfl
  | .opening 0 _, _ => rfl
  | .opening (_ + 1) _, _ => rfl
  | .inside literal, quoted => exact same.stepInside char quoted
  | .escaped _, _ => rfl
  | .doubled _, _ => rfl
  | .field literal place, _ => exact same.stepField char literal place
  | .closing 0, _ => rfl
  | .closing (_ + 1), _ => rfl

private theorem openLiteral_ne_comment (quote : Char) (ahead : Text) (formatted : Bool) :
    Mode.openLiteral quote ahead formatted ≠ .comment := by
  unfold Mode.openLiteral
  split <;> exact nofun

private theorem stepCode_ne_comment {char : Char} (noHash : char ≠ '#') (ahead : Text)
    (afterWord : Bool) :
    (Mode.stepCode char ahead afterWord).1 ≠ .comment ∧
      (Mode.stepCode char ahead afterWord).2 ≠ .comment := by
  unfold Mode.stepCode
  rw [if_neg (by simpa using noHash)]
  split
  · exact ⟨nofun, openLiteral_ne_comment _ _ _⟩
  · split
    · split
      · split
        · exact ⟨nofun, nofun⟩
        · split <;> exact ⟨nofun, nofun⟩
      · exact ⟨nofun, nofun⟩
    · exact ⟨nofun, nofun⟩

private theorem stepInside_ne_comment (char : Char) (ahead : Text) (literal : Literal) :
    (Mode.stepInside char ahead literal).1 ≠ .comment ∧
      (Mode.stepInside char ahead literal).2 ≠ .comment := by
  unfold Mode.stepInside
  repeat' split
  all_goals exact ⟨nofun, nofun⟩

private theorem stepField_ne_comment (char : Char) (ahead : Text) (literal : Literal)
    (place : Field) :
    (Mode.stepField char ahead literal place).1 ≠ .comment ∧
      (Mode.stepField char ahead literal place).2 ≠ .comment := by
  unfold Mode.stepField
  dsimp only
  repeat' split
  all_goals exact ⟨nofun, nofun⟩

/-- A comment begins in code only, at a hash sign. -/
theorem step_outside_comment {mode : Mode} (outside : mode ≠ .comment) (char : Char) (rest : Text) :
    (char = '#' ∧ ∃ afterWord, mode = .code afterWord) ∨
      (mode.step char rest).1 ≠ .comment ∧ (mode.step char rest).2 ≠ .comment := by
  match mode, outside with
  | .code afterWord, _ =>
      by_cases hash : char = '#'
      · exact .inl ⟨hash, afterWord, rfl⟩
      · exact .inr (stepCode_ne_comment hash rest afterWord)
  | .marker 0 formatted, _ => exact .inr ⟨nofun, openLiteral_ne_comment _ _ _⟩
  | .inside literal, _ => exact .inr (stepInside_ne_comment char rest literal)
  | .field literal place, _ => exact .inr (stepField_ne_comment char rest literal place)
  | .marker (_ + 1) _, _ | .opening 0 _, _ | .opening (_ + 1) _, _ | .escaped _, _
  | .doubled _, _ | .closing 0, _ | .closing (_ + 1), _ => exact .inr ⟨nofun, nofun⟩

end Mode

namespace Glyph

theorem scanFrom_hash {text rest : Text} (unbroken : '\n' ∉ text)
    (ends : ∀ char ∈ rest.head?, char = '\n') (afterWord : Bool) :
    scanFrom (.code afterWord) ('#' :: (text ++ rest)) =
      ofComment ('#' :: text) ++ scanFrom (.code false) rest := by
  have hash : Mode.step '#' (text ++ rest) (.code afterWord) = (.comment, .comment) := rfl
  rw [scanFrom_cons, hash, Lexeme.scanFrom_comment unbroken ends]
  rfl

/-- Glyphs in which only comments differ have the same characters ahead, as far as a step looks. -/
private theorem Recommented.sameAhead {left right : List Glyph} (same : Recommented left right) :
    Mode.SameAhead (left.map char) (right.map char) := by
  refine ⟨by simpa using same.head?_map_char, ?_⟩
  cases same with
  | nil => intro; rfl
  | other _ later =>
      intro _
      simpa using later.head?_map_char
  | comment =>
      intro noHash
      exact absurd rfl noHash

/-- The scan of a text in which only comments were rewritten is the scan of the old text with these
comments rewritten. -/
theorem Recommented.scanFrom_eq {left right : List Glyph} (same : Recommented left right)
    {mode : Mode} {text : Text} (outside : mode ≠ .comment) (fits : mode.Fits text)
    (scanned : scanFrom mode text = left) : scanFrom mode (right.map char) = right := by
  induction same generalizing mode text with
  | nil => rfl
  | @other glyph left right notComment later ih =>
      cases text with
      | nil => simp at scanned
      | cons first rest =>
          rw [scanFrom_cons, List.cons.injEq] at scanned
          obtain ⟨rfl, tail⟩ := scanned
          have ahead : Mode.SameAhead rest (right.map char) := by
            have known := later.sameAhead
            rwa [← tail, map_char_scanFrom] at known
          have step := ahead.step fits
          rcases Mode.step_outside_comment outside first rest with ⟨rfl, afterWord, rfl⟩ | stays
          · exact absurd rfl notComment
          · rw [List.map_cons, scanFrom_cons, ← step, ih stays.2 fits.step tail]
  | @comment old new left right oldUnbroken newUnbroken ends later ih =>
      cases text with
      | nil => simp [ofComment] at scanned
      | cons first rest =>
          have chars : first :: rest = '#' :: (old ++ left.map char) := by
            rw [← map_char_scanFrom mode (first :: rest), scanned]
            simp
          obtain ⟨rfl, rfl⟩ := List.cons.inj chars
          have leftEnds : ∀ next ∈ (left.map char).head?, next = '\n' := by
            simpa using ends
          have rightEnds : ∀ next ∈ (right.map char).head?, next = '\n' := by
            simpa using later.ends ends
          rcases Mode.step_outside_comment outside '#' (old ++ left.map char) with
            ⟨-, afterWord, rfl⟩ | stays
          · rw [scanFrom_hash oldUnbroken leftEnds] at scanned
            have tail : scanFrom (.code false) (left.map char) = left :=
              List.append_cancel_left scanned
            have again := ih (nofun : Mode.code false ≠ .comment) trivial tail
            have whole : (ofComment ('#' :: new) ++ right).map char =
                '#' :: (new ++ right.map char) := by simp
            rw [whole, scanFrom_hash newUnbroken rightEnds, again]
          · rw [scanFrom_cons] at scanned
            have role : (mode.step '#' (old ++ left.map char)).1 = .comment := by
              simpa [ofComment] using congrArg (·.head?.map Glyph.role) scanned
            exact absurd role stays.1

end Glyph

/-! ## Source lines of a rewritten text -/

namespace SourceLine

/-- Two source lines that differ in the text of a comment only. -/
structure Recommented (left right : SourceLine) : Prop where
  number : left.number = right.number
  interior : left.interior = right.interior
  raw : Text.SameUpToMark left.raw right.raw
  clean : Text.Repadded left.clean right.clean

theorem Recommented.refl (line : SourceLine) : Recommented line line :=
  ⟨rfl, rfl, .same _, .same _⟩

theorem Recommented.readsAlike {left right : SourceLine} (same : Recommented left right) :
    ReadsAlike left right where
  number := same.number
  interior := same.interior
  raw := fun _ => same.raw
  clean := same.clean
  directive := same.raw.isDirective_eq

/-- Glyphs without line breaks all go to the line that is being read. -/
theorem ofScan_append_of_unbroken (number : Nat) (interior : Bool) (started : List Glyph)
    {glyphs : List Glyph} (unbroken : ∀ glyph ∈ glyphs, glyph.char ≠ '\n') (rest : List Glyph) :
    ofScan number interior started (glyphs ++ rest) =
      ofScan number interior (glyphs.reverse ++ started) rest := by
  induction glyphs generalizing started with
  | nil => rfl
  | cons glyph others ih =>
      have visible : glyph.char ≠ '\n' := unbroken glyph (by simp)
      have later := ih (glyph :: started) fun other inside => unbroken other (by simp [inside])
      simp [ofScan, Glyph.isBreak, visible, later]

theorem unbroken_ofComment {text : Text} (unbroken : '\n' ∉ text) :
    ∀ glyph ∈ Glyph.ofComment ('#' :: text), glyph.char ≠ '\n' := by
  intro glyph member isBreak
  obtain ⟨char, inside, rfl⟩ := List.mem_map.mp member
  obtain rfl : char = '\n' := isBreak
  simp [unbroken] at inside

private theorem recommented_ofGlyphs (number : Nat) (interior : Bool) (before : List Glyph)
    {old new : Text} (oldUnbroken : '\n' ∉ old) (newUnbroken : '\n' ∉ new) :
    Recommented (ofGlyphs number interior (before ++ Glyph.ofComment ('#' :: old)))
      (ofGlyphs number interior (before ++ Glyph.ofComment ('#' :: new))) where
  number := rfl
  interior := rfl
  raw := by
    simp only [ofGlyphs, List.map_append, Glyph.map_char_ofComment]
    exact .mark _ rfl _ _
  clean := by
    have oldComment : '\n' ∉ '#' :: old := by simp [oldUnbroken]
    have newComment : '\n' ∉ '#' :: new := by simp [newUnbroken]
    have oldShown := Glyph.map_shown_ofComment oldComment
    have newShown := Glyph.map_shown_ofComment newComment
    simp only [ofGlyphs, List.map_append, oldShown, newShown, List.length_cons]
    exact .ending _ _ _

/-- Texts whose scans differ in comments only have source lines that differ in comments only. -/
theorem forall₂_ofScan {left right : List Glyph} (same : Glyph.Recommented left right)
    (number : Nat) (interior : Bool) (started : List Glyph) :
    List.Forall₂ Recommented (ofScan number interior started left)
      (ofScan number interior started right) := by
  induction same generalizing number interior started with
  | nil => exact .cons (.refl _) .nil
  | @other glyph left right outside later ih =>
      simp only [ofScan]
      split
      · exact .cons (.refl _) (ih _ _ _)
      · exact ih _ _ _
  | @comment old new left right oldUnbroken newUnbroken ends later ih =>
      rw [ofScan_append_of_unbroken _ _ _ (unbroken_ofComment oldUnbroken),
        ofScan_append_of_unbroken _ _ _ (unbroken_ofComment newUnbroken)]
      have line := recommented_ofGlyphs number interior started.reverse oldUnbroken newUnbroken
      -- After a comment both texts end or go on with the same line break.
      cases later with
      | nil => simpa [ofScan] using line
      | @other glyph left right _ _ =>
          have isBreak : glyph.isBreak = true :=
            (Glyph.isBreak_iff glyph).mpr (ends glyph (by simp))
          have following := ih number interior started
          simp only [ofScan, isBreak, if_true, List.forall₂_cons] at following ⊢
          exact ⟨by simpa using line, following.2⟩
      | comment =>
          have hash := ends ⟨'#', .comment⟩ (by simp [Glyph.ofComment])
          exact absurd hash (by decide)

/-! ## Rewriting line by line -/

/-- The raw text of a line with its comment rewritten. -/
private def rewritten (rewrite : Nat → Option Text) (line : SourceLine) : Text :=
  match line.comment?, rewrite (line.number - 1) with
  | some comment, some text => line.raw.take (line.raw.length - comment.length) ++ '#' :: text
  | _, _ => line.raw

private theorem rewritten_append (rewrite : Nat → Option Text) (number : Nat) (interior : Bool)
    {before : List Glyph} (outside : ∀ glyph ∈ before, glyph.role ≠ .comment)
    (glyphs : List Glyph) :
    rewritten rewrite (ofGlyphs number interior (before ++ glyphs)) =
      before.map Glyph.char ++ rewritten rewrite (ofGlyphs number interior glyphs) := by
  have none : before.filter (fun glyph => glyph.role == .comment) = [] := by
    simpa using outside
  have bound := List.length_filter_le (fun glyph : Glyph => glyph.role == .comment) glyphs
  simp only [rewritten, ofGlyphs, List.filter_append, none, List.nil_append]
  cases comment : glyphs.filter (fun glyph => glyph.role == .comment) with
  | nil => simp
  | cons first others =>
      rw [comment] at bound
      cases rewrite (number - 1) with
      | none => simp
      | some text =>
          have cut : (before.map Glyph.char ++ glyphs.map Glyph.char).length -
                ((first :: others).map Glyph.char).length =
              (before.map Glyph.char).length +
                ((glyphs.map Glyph.char).length - ((first :: others).map Glyph.char).length) := by
            simp only [List.length_append, List.length_map]
            omega
          simp only [List.map_append]
          rw [cut, List.take_length_add_append, List.append_assoc]

private theorem map_rewritten_ofScan (rewrite : Nat → Option Text) (number : Nat) (interior : Bool)
    {started : List Glyph} (outside : ∀ glyph ∈ started, glyph.role ≠ .comment)
    (recent glyphs : List Glyph) :
    (ofScan number interior (recent ++ started) glyphs).map (rewritten rewrite) =
      ((ofScan number interior recent glyphs).map (rewritten rewrite)).modifyHead
        (started.reverse.map Glyph.char ++ ·) := by
  have outsideBefore : ∀ glyph ∈ started.reverse, glyph.role ≠ .comment := by simpa
  have line := rewritten_append rewrite number interior outsideBefore recent.reverse
  induction glyphs generalizing recent with
  | nil => simpa [ofScan] using line
  | cons glyph rest ih =>
      simp only [ofScan]
      split
      · simpa using line
      · exact ih (glyph :: recent) (rewritten_append rewrite number interior outsideBefore _)

private theorem ofLines_modifyHead {pieces : List Text} (nonempty : pieces ≠ []) (before : Text) :
    Text.ofLines (pieces.modifyHead (before ++ ·)) = before ++ Text.ofLines pieces := by
  match pieces with
  | [piece] => rfl
  | piece :: next :: others => simp [Text.ofLines, Text.join]

/-- The text that a scan's lines are rewritten to. -/
private def rewrittenText (rewrite : Nat → Option Text) (number : Nat) (interior : Bool)
    (glyphs : List Glyph) : Text :=
  Text.ofLines ((ofScan number interior [] glyphs).map (rewritten rewrite))

private theorem ofScan_ne_nil (number : Nat) (interior : Bool) (started glyphs : List Glyph) :
    ofScan number interior started glyphs ≠ [] := by
  intro empty
  have length := length_ofScan number interior started glyphs
  rw [empty] at length
  simp [Text.lineCount] at length

private theorem rewrittenText_break (rewrite : Nat → Option Text) (number : Nat) (interior : Bool)
    {glyph : Glyph} (isBreak : glyph.char = '\n') (rest : List Glyph) :
    rewrittenText rewrite number interior (glyph :: rest) =
      '\n' :: rewrittenText rewrite (number + 1) (glyph.role != .code) rest := by
  have some := ofScan_ne_nil (number + 1) (glyph.role != .code) [] rest
  obtain ⟨line, lines, split⟩ := List.exists_cons_of_ne_nil some
  rw [rewrittenText, rewrittenText, ofScan, if_pos ((Glyph.isBreak_iff glyph).mpr isBreak), split]
  rfl

private theorem rewrittenText_other (rewrite : Nat → Option Text) (number : Nat) (interior : Bool)
    {glyph : Glyph} (visible : glyph.char ≠ '\n') (outside : glyph.role ≠ .comment)
    (rest : List Glyph) :
    rewrittenText rewrite number interior (glyph :: rest) =
      glyph.char :: rewrittenText rewrite number interior rest := by
  have outsideBefore : ∀ other ∈ [glyph], other.role ≠ .comment := by simpa
  have line := map_rewritten_ofScan rewrite number interior outsideBefore [] rest
  rw [List.nil_append] at line
  rw [rewrittenText, rewrittenText, ofScan, if_neg (by simpa [Glyph.isBreak]), line,
    ofLines_modifyHead (by simpa using ofScan_ne_nil number interior [] rest)]
  rfl

private theorem rewritten_comment (rewrite : Nat → Option Text) (number : Nat) (interior : Bool)
    (text : Text) :
    rewritten rewrite (ofGlyphs number interior (Glyph.ofComment ('#' :: text))) =
      '#' :: (rewrite (number - 1)).getD text := by
  have all : (Glyph.ofComment ('#' :: text)).filter (fun glyph => glyph.role == .comment) =
      Glyph.ofComment ('#' :: text) := by
    simp [Glyph.ofComment]
  simp only [rewritten, ofGlyphs, all]
  cases rewrite (number - 1) with
  | none => simp [Glyph.ofComment, Function.comp_def]
  | some new => simp [Glyph.ofComment]

private theorem rewrittenText_comment (rewrite : Nat → Option Text) (number : Nat) (interior : Bool)
    {text : Text} (unbroken : '\n' ∉ text) {rest : List Glyph}
    (ends : ∀ glyph ∈ rest.head?, glyph.char = '\n') :
    rewrittenText rewrite number interior (Glyph.ofComment ('#' :: text) ++ rest) =
      '#' :: (rewrite (number - 1)).getD text ++ rewrittenText rewrite number interior rest := by
  have line := rewritten_comment rewrite number interior text
  unfold rewrittenText
  rw [ofScan_append_of_unbroken _ _ _ (unbroken_ofComment unbroken), List.append_nil]
  cases rest with
  | nil => simpa [ofScan, Text.ofLines, Text.join, rewritten, ofGlyphs] using line
  | cons glyph following =>
      have isBreak : glyph.isBreak = true := (Glyph.isBreak_iff glyph).mpr (ends glyph (by simp))
      have some := ofScan_ne_nil (number + 1) (glyph.role != .code) [] following
      obtain ⟨next, lines, split⟩ := List.exists_cons_of_ne_nil some
      simp only [ofScan, isBreak, if_true, split, List.map_cons, List.reverse_reverse, line,
        Text.ofLines, Text.join]
      simp [rewritten, ofGlyphs]

/-- Rewriting the lines of a scan gives a text whose glyphs differ in comments only. -/
private theorem exists_recommented {rewrite : Nat → Option Text}
    (unbroken : ∀ index text, rewrite index = some text → '\n' ∉ text) {mode : Mode}
    (outside : mode ≠ .comment) (text : Text) (number : Nat) (interior : Bool) :
    ∃ right, Glyph.Recommented (Glyph.scanFrom mode text) right ∧
      right.map Glyph.char =
        rewrittenText rewrite number interior (Glyph.scanFrom mode text) := by
  induction size : text.length using Nat.strong_induction_on generalizing text mode number interior
  rename_i length ih
  cases text with
  | nil => exact ⟨[], .nil, rfl⟩
  | cons char rest =>
      rcases Mode.step_outside_comment outside char rest with ⟨rfl, afterWord, rfl⟩ | stays
      · -- A comment takes the rest of its line.
        obtain ⟨old, later, rfl, oldUnbroken, ends⟩ := Text.exists_first_line rest
        have glyphEnds := Glyph.ends_scanFrom (.code false) ends
        have shorter : later.length < length := by
          rw [← size]
          simp only [List.length_cons, List.length_append]
          omega
        obtain ⟨right, same, chars⟩ := ih later.length shorter
          (nofun : Mode.code false ≠ .comment) later number interior rfl
        have newUnbroken : '\n' ∉ (rewrite (number - 1)).getD old := by
          cases new : rewrite (number - 1) with
          | none => simpa using oldUnbroken
          | some text => simpa using unbroken _ _ new
        rw [Glyph.scanFrom_hash oldUnbroken ends]
        refine ⟨_, .comment oldUnbroken newUnbroken glyphEnds same, ?_⟩
        rw [rewrittenText_comment rewrite number interior oldUnbroken glyphEnds, List.map_append,
          Glyph.map_char_ofComment, chars]
      · have shorter : rest.length < length := by
          rw [← size]
          simp
        rw [Glyph.scanFrom_cons]
        by_cases isBreak : char = '\n'
        · obtain ⟨right, same, chars⟩ := ih rest.length shorter stays.2 rest (number + 1)
            ((mode.step char rest).1 != .code) rfl
          refine ⟨_, .other stays.1 same, ?_⟩
          rw [rewrittenText_break rewrite number interior isBreak, List.map_cons, chars, isBreak]
        · obtain ⟨right, same, chars⟩ := ih rest.length shorter stays.2 rest number interior rfl
          refine ⟨_, .other stays.1 same, ?_⟩
          rw [rewrittenText_other rewrite number interior isBreak stays.1, List.map_cons, chars]

end SourceLine

namespace Text

/-- The comment that is listed for a line is the one that stands on it. -/
private theorem lookup_comments {lines : List SourceLine}
    (positive : ∀ line ∈ lines, 1 ≤ line.number)
    (distinct : (lines.map SourceLine.number).Nodup) {line : SourceLine} (member : line ∈ lines) :
    (lines.filterMap fun line => line.comment?.map fun text => (line.number - 1, text)).lookup
      (line.number - 1) = line.comment? := by
  induction lines with
  | nil => simp at member
  | cons first others ih =>
      rw [List.map_cons, List.nodup_cons] at distinct
      have apart : ∀ other ∈ others, first.number - 1 ≠ other.number - 1 := by
        intro other inside equal
        have firstPositive := positive first (by simp)
        have otherPositive := positive other (by simp [inside])
        apply distinct.1
        rw [show first.number = other.number by omega]
        exact List.mem_map_of_mem inside
      rcases List.mem_cons.mp member with rfl | inside
      · cases comment : line.comment? with
        | some text => simp [comment]
        | none =>
            rw [List.filterMap_cons_none (by simp [comment]), List.lookup_eq_none_iff]
            intro entry listed
            obtain ⟨other, inside, made⟩ := List.mem_filterMap.mp listed
            obtain ⟨text, -, rfl⟩ := Option.map_eq_some_iff.mp made
            simpa using apart other inside
      · have later := ih (fun other within => positive other (by simp [within])) distinct.2 inside
        cases comment : first.comment? with
        | none => rw [List.filterMap_cons_none (by simp [comment]), later]
        | some text =>
            rw [List.filterMap_cons_some (by rw [comment]; rfl), List.lookup_cons]
            have differs : (line.number - 1 == first.number - 1) = false := by
              simpa using (apart line inside).symm
            rw [differs, later]

private theorem rewriteComments_eq (rewrite : Nat → Option Text) (source : Text) :
    rewriteComments rewrite source =
      SourceLine.rewrittenText rewrite 1 false (Glyph.scan source) := by
  unfold rewriteComments SourceLine.rewrittenText
  congr 1
  apply List.ext_getElem?
  intro index
  rw [← map_raw_sourceLines, List.getElem?_mapIdx, List.getElem?_map, List.getElem?_map]
  change _ = Option.map _ (sourceLines source)[index]?
  cases found : (sourceLines source)[index]? with
  | none => rfl
  | some line =>
      have numbered := getElem?_number_sourceLines found
      have listed : (comments source).lookup index = line.comment? := by
        have distinct : ((sourceLines source).map SourceLine.number).Nodup := by
          rw [map_number_sourceLines]
          exact List.nodup_range'
        have known := lookup_comments (fun line member => (getElem?_of_mem_sourceLines member).1)
          distinct (List.mem_of_getElem? found)
        rw [numbered, Nat.add_sub_cancel] at known
        exact known
      simp only [Option.map_some, listed, SourceLine.rewritten, numbered, Nat.add_sub_cancel]

/-- Rewriting comments leaves all source lines as they are but for these comments. -/
theorem forall₂_sourceLines_rewriteComments {rewrite : Nat → Option Text}
    (unbroken : ∀ index text, rewrite index = some text → '\n' ∉ text) (source : Text) :
    List.Forall₂ SourceLine.Recommented (sourceLines source)
      (sourceLines (rewriteComments rewrite source)) := by
  have outside : Mode.code false ≠ .comment := nofun
  obtain ⟨right, same, chars⟩ := SourceLine.exists_recommented unbroken outside source 1 false
  have rescanned : Glyph.scan (rewriteComments rewrite source) = right := by
    rw [rewriteComments_eq, Glyph.scan, Glyph.scan, ← chars]
    exact same.scanFrom_eq outside trivial rfl
  rw [sourceLines, sourceLines, rescanned]
  exact SourceLine.forall₂_ofScan same 1 false []

end Text

end NotebookLint
