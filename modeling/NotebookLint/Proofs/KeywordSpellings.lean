import NotebookLint.Rules.Builtin

/-! Keywords that are taken for typos. The well-known spellings and those of the constants never
differ from a keyword, so a keyword is only reported on account of the cell itself: if the first name
that the cell defines with these letters, their case aside, is another word, then every place that
reads the keyword is told to write that word. -/

set_option autoImplicit false

namespace NotebookLint.CapitalizationTypos

/-- The first name that a cell defines that is a given word, letter case aside. -/
def firstSpelling? (source word : Text) : Option Text :=
  (cellDefinitions source).find? fun name => Text.lower name == Text.lower word

/-- Whether a cell spells a word otherwise: the first name it defines with these letters is another
one, and nobody defines the word as it is written. -/
structure IsRespelled (source : Text) (context : List Text) (word correct : Text) : Prop where
  first : firstSpelling? source word = some correct
  other : correct ≠ word
  undefinedHere : word ∉ cellDefinitions source
  undefinedEarlier : word ∉ context

/-- Whether a word is read on a line from a position on, as code and not as an attribute. -/
structure ReadsAt (source : Text) (line : SourceLine) (word : Word) : Prop where
  inCell : line ∈ Text.sourceLines source
  isCode : SourceLine.isDirective line.raw = false
  isRead : word ∈ Text.names line.clean
  isFree : Names.isAttribute line.clean word.start = false

theorem mem_findings_iff {source : Text} {context : List Text} {finding : Finding} :
    finding ∈ findings source context ↔
      ∃ line word, ReadsAt source line word ∧ typingNames.contains word.text = false ∧
        ∃ correct,
          suggestion? (spellings (cellDefinitions source)) context word.text = some correct ∧
            finding = ⟨.misspelledName word.text correct, line.number, some (word.start + 1)⟩ := by
  simp only [findings, List.mem_flatMap]
  constructor
  · rintro ⟨line, inCell, member⟩
    simp only [lineFindings] at member
    split at member
    · cases member
    · rename_i isCode
      obtain ⟨word, isRead, made⟩ := List.mem_filterMap.mp member
      split at made
      · cases made
      · rename_i isOrdinary
        obtain ⟨isFree, untyped⟩ : Names.isAttribute line.clean word.start = false ∧
            typingNames.contains word.text = false := by simpa using isOrdinary
        obtain ⟨correct, suggested, rfl⟩ := Option.map_eq_some_iff.mp made
        exact ⟨line, word, ⟨inCell, by simpa using isCode, isRead, isFree⟩, untyped, correct,
          suggested, rfl⟩
  · rintro ⟨line, word, ⟨inCell, isCode, isRead, isFree⟩, untyped, correct, suggested, rfl⟩
    refine ⟨line, inCell, ?_⟩
    rw [lineFindings, isCode, if_neg Bool.false_ne_true]
    refine List.mem_filterMap.mpr ⟨word, isRead, ?_⟩
    rw [isFree, untyped, Bool.or_false, if_neg Bool.false_ne_true, suggested, Option.map_some]

theorem spelling?_spellings (names : List Text) (lower : Text) :
    spelling? (spellings names) lower = names.find? fun name => Text.lower name == lower := by
  simp [spelling?, spellings, Function.comp_def]

/-- No constant and no well-known name differs from a keyword by capitalization alone. -/
theorem known_of_mem_keywords : ∀ word ∈ Names.keywords,
    spelling? wellKnownSpellings (Text.lower word) = none ∧
      (spelling? constantSpellings (Text.lower word) = none ∨
        spelling? constantSpellings (Text.lower word) = some word ∧ word ≠ Text.lower word) ∧
      typingNames.contains word = false := by
  decide +kernel

/-- A keyword is compared with nothing but the names that the cell defines. -/
theorem suggestion?_of_mem_keywords {word : Text} (reserved : word ∈ Names.keywords)
    (names context : List Text) :
    suggestion? (spellings names) context word =
      if word ∈ names ∨ word ∈ context then none
      else (names.find? fun name => Text.lower name == Text.lower word).filter
        fun correct => correct != word := by
  obtain ⟨unknown, constant, -⟩ := known_of_mem_keywords word reserved
  have capital : ((spelling? constantSpellings (Text.lower word)).isSome &&
      word == Text.lower word) = false := by
    rcases constant with none | ⟨-, differs⟩
    · simp [none]
    · simp [differs]
  have defined : ((spellings names).any (fun spelling => spelling.name == word) ||
      context.contains word) = decide (word ∈ names ∨ word ∈ context) := by
    rw [Bool.eq_iff_iff]
    simp [spellings]
  simp only [suggestion?, capital, defined, unknown, Bool.false_eq_true, if_false,
    decide_eq_true_eq, spelling?_spellings]
  congr 1
  cases names.find? fun name => Text.lower name == Text.lower word with
  | some correct => rfl
  | none =>
      rcases constant with none | ⟨same, -⟩
      · simp [none]
      · simp [same]

theorem suggestion?_eq_some_iff {word : Text} (reserved : word ∈ Names.keywords) {source : Text}
    {context : List Text} {correct : Text} :
    suggestion? (spellings (cellDefinitions source)) context word = some correct ↔
      IsRespelled source context word correct := by
  rw [suggestion?_of_mem_keywords reserved]
  constructor
  · intro suggested
    split at suggested
    · cases suggested
    · rename_i undefined
      obtain ⟨here, earlier⟩ := not_or.mp undefined
      obtain ⟨first, other⟩ := Option.filter_eq_some_iff.mp suggested
      exact ⟨first, by simpa using other, here, earlier⟩
  · rintro ⟨first, other, here, earlier⟩
    rw [if_neg (not_or.mpr ⟨here, earlier⟩), Option.filter_eq_some_iff]
    exact ⟨first, by simpa using other⟩

/-- The reports about a keyword: there is one wherever the keyword is read if the cell spells it
otherwise, and there is none if it does not. -/
theorem mem_check_keyword_iff {word : Text} (reserved : word ∈ Names.keywords) (memory : Nat)
    (source : Text) (offset : Int) (context : List Text) :
    ∃ diagnostics,
      (BuiltinRule.capitalizationTypos.toRule memory).check source offset context =
          .ok diagnostics ∧
        ∀ diagnostic,
          (diagnostic ∈ diagnostics ∧
              ∃ correct, diagnostic.problem = .misspelledName word correct) ↔
            ∃ correct line start, IsRespelled source context word correct ∧
              ReadsAt source line ⟨word, start⟩ ∧
              diagnostic =
                { rule := "capitalization_typos"
                  problem := .misspelledName word correct
                  line := line.number + offset
                  column := some (start + 1) } := by
  refine ⟨_, rfl, fun diagnostic => ?_⟩
  rw [List.mem_map]
  constructor
  · rintro ⟨⟨finding, member, rfl⟩, _, about⟩
    obtain ⟨line, ⟨text, start⟩, reads, -, correct, suggested, rfl⟩ := mem_findings_iff.mp member
    obtain ⟨rfl, rfl⟩ := Problem.misspelledName.inj about
    exact ⟨correct, line, start, (suggestion?_eq_some_iff reserved).mp suggested, reads, rfl⟩
  · rintro ⟨correct, line, start, respelled, reads, rfl⟩
    have untyped := (known_of_mem_keywords word reserved).2.2
    have suggested := (suggestion?_eq_some_iff reserved).mpr respelled
    exact ⟨⟨_, mem_findings_iff.mpr ⟨line, _, reads, untyped, correct, suggested, rfl⟩, rfl⟩,
      correct, rfl⟩

theorem mem_check_keyword_iff_assigned :
    let source : Text := "Class = 1\nclass A: pass".toList
    let memory := 1 <<< 37
    "class".toList ∈ Names.keywords ∧
      IsRespelled source [] "class".toList "Class".toList ∧
      ∃ diagnostics,
        (BuiltinRule.capitalizationTypos.toRule memory).check source 0 [] = .ok diagnostics ∧
          ∀ diagnostic,
            (diagnostic ∈ diagnostics ∧
                ∃ correct, diagnostic.problem = .misspelledName "class".toList correct) ↔
              ∃ correct line start, IsRespelled source [] "class".toList correct ∧
                ReadsAt source line ⟨"class".toList, start⟩ ∧
                diagnostic =
                  { rule := "capitalization_typos"
                    problem := .misspelledName "class".toList correct
                    line := line.number + 0
                    column := some (start + 1) } := by
  intro source memory
  have reserved : "class".toList ∈ Names.keywords := by decide
  have respelled : IsRespelled source [] "class".toList "Class".toList := by
    constructor <;> decide +kernel
  exact ⟨reserved, respelled, mem_check_keyword_iff reserved memory source 0 []⟩

/-- A cell that assigns to a constant in small letters is told to write the constant so, and at the
same time not to. -/
theorem check_reports_constant :
    let source : Text := "true = 1\nflag = True".toList
    let memory := 1 <<< 37
    "True".toList ∈ Names.keywords ∧ ∃ diagnostics,
      (BuiltinRule.capitalizationTypos.toRule memory).check source 0 [] = .ok diagnostics ∧
        (diagnostics.map Diagnostic.problem).contains
          (.misspelledName "true".toList "True".toList) ∧
        (diagnostics.map Diagnostic.problem).contains
          (.misspelledName "True".toList "true".toList) := by
  refine ⟨by decide, _, rfl, ?_, ?_⟩ <;> decide +kernel

end NotebookLint.CapitalizationTypos
