import Mathlib.Algebra.Ring.Nat
import NotebookLint.Notebook.Percent
import NotebookLint.Proofs.TextLines

/-! Where the chunks of a percent-format script lie. A chunk is a run of consecutive lines of the
script without a marker among them, up to the next marker or the end, and it starts on the line that
it says. If it has lines at all, these are the lines of its text; a chunk without lines has the text
of a chunk with one empty line. So every line of a script but the markers and a blank beginning lies
in exactly one chunk, and a script that is written from texts is read as these texts. -/

set_option autoImplicit false

namespace NotebookLint.Percent

/-- Whether a chunk is a run of lines of a document, up to a marker or the end. The first line of the
document has the given number. -/
def Chunk.RunsIn (number : Nat) (document : List Text) (chunk : Chunk) : Prop :=
  ∃ skipped following, document = skipped ++ (chunk.lines ++ following) ∧
    chunk.start = number + skipped.length ∧ (∀ line ∈ chunk.lines, isMarker line = false) ∧
    ∀ line ∈ following.head?, isMarker line = true

theorem Chunk.RunsIn.cons {number : Nat} {document : List Text} {chunk : Chunk}
    (runs : chunk.RunsIn (number + 1) document) (line : Text) :
    chunk.RunsIn number (line :: document) := by
  obtain ⟨skipped, following, split, start, unmarked, ended⟩ := runs
  refine ⟨line :: skipped, following, ?_, ?_, unmarked, ended⟩
  · rw [split, List.cons_append]
  · rw [start, List.length_cons]
    omega

theorem Chunk.RunsIn.getElem? {document : List Text} {chunk : Chunk} (runs : chunk.RunsIn 0 document)
    {row : Nat} (inside : row < chunk.lines.length) :
    document[chunk.start + row]? = chunk.lines[row]? := by
  obtain ⟨skipped, following, rfl, start, -⟩ := runs
  rw [start, Nat.zero_add, List.getElem?_append_right (Nat.le_add_right _ _),
    Nat.add_sub_cancel_left, List.getElem?_append_left inside]

/-- What stands behind a chunk is a marker, or nothing. -/
theorem Chunk.RunsIn.isMarker_behind {document : List Text} {chunk : Chunk}
    (runs : chunk.RunsIn 0 document) {line : Text}
    (behind : document[chunk.start + chunk.lines.length]? = some line) : isMarker line = true := by
  obtain ⟨skipped, following, rfl, start, -, ended⟩ := runs
  rw [start, Nat.zero_add, List.getElem?_append_right (Nat.le_add_right _ _),
    Nat.add_sub_cancel_left, List.getElem?_append_right (Nat.le_refl _), Nat.sub_self,
    ← List.head?_eq_getElem?] at behind
  exact ended line behind

/-- The first chunk starts with the first line. -/
theorem exists_chunksFrom_eq_cons (number : Nat) (document : List Text) :
    ∃ lines chunks, chunksFrom number document = ⟨number, lines⟩ :: chunks := by
  cases document with
  | nil => exact ⟨[], [], rfl⟩
  | cons line rest =>
      unfold chunksFrom
      split
      · exact ⟨[], _, rfl⟩
      · split
        · exact ⟨_, [], rfl⟩
        · exact ⟨_, _, rfl⟩

theorem runsIn_of_mem_chunksFrom {number : Nat} {document : List Text} {chunk : Chunk}
    (member : chunk ∈ chunksFrom number document) : chunk.RunsIn number document := by
  induction document generalizing number chunk with
  | nil =>
      obtain rfl : chunk = ⟨number, []⟩ := by simpa [chunksFrom] using member
      exact ⟨[], [], rfl, rfl, by simp, by simp⟩
  | cons line rest ih =>
      cases marker : isMarker line with
      | true =>
          rw [chunksFrom, if_pos marker] at member
          rcases List.mem_cons.mp member with rfl | later
          · exact ⟨[], line :: rest, rfl, rfl, by simp, by simpa using marker⟩
          · exact (ih later).cons line
      | false =>
          obtain ⟨lines, chunks, split⟩ := exists_chunksFrom_eq_cons (number + 1) rest
          have first : Chunk.RunsIn (number + 1) rest ⟨number + 1, lines⟩ :=
            ih (by rw [split]; exact List.mem_cons_self)
          simp only [chunksFrom, marker, Bool.false_eq_true, if_false, split] at member
          rcases List.mem_cons.mp member with rfl | later
          · -- Nothing is skipped before the first of the later chunks, which the line joins.
            obtain ⟨skipped, following, joined, start, unmarked, ended⟩ := first
            obtain rfl : skipped = [] := by
              apply List.eq_nil_of_length_eq_zero
              simp only at start
              omega
            refine ⟨[], following, ?_, rfl, ?_, ended⟩
            · simpa using joined
            · intro other among
              rcases List.mem_cons.mp among with rfl | old
              · exact marker
              · exact unmarked other old
          · exact (ih (by rw [split]; exact List.mem_cons_of_mem _ later)).cons line

theorem runsIn_of_mem_chunks {source : Text} {chunk : Chunk} (member : chunk ∈ chunks source) :
    chunk.RunsIn 0 (Text.lines source) := by
  apply runsIn_of_mem_chunksFrom
  unfold chunks at member
  split at member
  · rename_i beginning next rest split
    rw [split]
    split at member
    · exact List.mem_cons_of_mem _ member
    · exact member
  · exact member

/-- A chunk that has lines has the lines of its text. -/
theorem lines_text {source : Text} {chunk : Chunk} (member : chunk ∈ chunks source)
    (nonempty : chunk.lines ≠ []) : Text.lines chunk.text = chunk.lines := by
  obtain ⟨skipped, following, split, -⟩ := runsIn_of_mem_chunks member
  rw [Chunk.text, Text.lines_eq_splitOn, Text.ofLines_eq_intercalate]
  apply List.splitOn_intercalate '\n' _ nonempty
  intro line isLine
  apply Text.not_mem_of_mem_lines (show line ∈ Text.lines source from ?_)
  rw [split]
  simp [isLine]

/-! ## Cutting at markers -/

/-- Whether lines, of which the first has the given number, are cut at their markers into chunks. -/
inductive CutInto : (number : Nat) → (document : List Text) → List Chunk → Prop
  | last {number : Nat} {lines : List Text} (unmarked : ∀ line ∈ lines, isMarker line = false) :
      CutInto number lines [⟨number, lines⟩]
  | next {number : Nat} {lines : List Text} {marker : Text} {rest : List Text}
      {chunks : List Chunk} (unmarked : ∀ line ∈ lines, isMarker line = false)
      (marked : isMarker marker = true)
      (later : CutInto (number + (lines.length + 1)) rest chunks) :
      CutInto number (lines ++ marker :: rest) (⟨number, lines⟩ :: chunks)

theorem CutInto.cons {number start : Nat} {line : Text} {document lines : List Text}
    {chunks : List Chunk} (visible : isMarker line = false)
    (cut : CutInto (number + 1) document (⟨start, lines⟩ :: chunks)) :
    CutInto number (line :: document) (⟨number, line :: lines⟩ :: chunks) := by
  cases cut with
  | last unmarked => exact .last (List.forall_mem_cons.mpr ⟨visible, unmarked⟩)
  | next unmarked marked later =>
      refine .next (List.forall_mem_cons.mpr ⟨visible, unmarked⟩) marked ?_
      rw [List.length_cons, Nat.add_comm (lines.length + 1), ← Nat.add_assoc]
      exact later

theorem cutInto_chunksFrom (number : Nat) (document : List Text) :
    CutInto number document (chunksFrom number document) := by
  induction document generalizing number with
  | nil => exact .last (by simp)
  | cons line rest ih =>
      cases marker : isMarker line with
      | true =>
          rw [chunksFrom, if_pos marker]
          exact @CutInto.next number [] line rest _ (by simp) marker (ih (number + 1))
      | false =>
          obtain ⟨lines, chunks, split⟩ := exists_chunksFrom_eq_cons (number + 1) rest
          have later := ih (number + 1)
          simp only [chunksFrom, marker, Bool.false_eq_true, if_false, split] at later ⊢
          exact later.cons marker

/-- Lines without a marker go to the first of the chunks behind them. -/
theorem chunksFrom_append {lines : List Text} (unmarked : ∀ line ∈ lines, isMarker line = false)
    (number : Nat) (document : List Text) :
    chunksFrom number (lines ++ document) =
      (chunksFrom (number + lines.length) document).modifyHead
        fun chunk => ⟨number, lines ++ chunk.lines⟩ := by
  induction lines generalizing number with
  | nil =>
      obtain ⟨others, chunks, split⟩ := exists_chunksFrom_eq_cons number document
      simp [split]
  | cons line rest ih =>
      obtain ⟨visible, others⟩ := List.forall_mem_cons.mp unmarked
      obtain ⟨lines, chunks, split⟩ :=
        exists_chunksFrom_eq_cons (number + (line :: rest).length) document
      have shift : number + 1 + rest.length = number + (line :: rest).length := by
        rw [List.length_cons]
        omega
      rw [List.cons_append, chunksFrom, visible, ih others (number + 1), shift, split]
      simp

theorem chunksFrom_split {lines : List Text} (unmarked : ∀ line ∈ lines, isMarker line = false)
    {marker : Text} (marked : isMarker marker = true) (number : Nat) (rest : List Text) :
    chunksFrom number (lines ++ marker :: rest) =
      ⟨number, lines⟩ :: chunksFrom (number + (lines.length + 1)) rest := by
  rw [chunksFrom_append unmarked, chunksFrom, if_pos marked, Nat.add_assoc]
  simp

/-- The chunks into which lines are cut are the only ones. -/
theorem CutInto.chunksFrom_eq {number : Nat} {document : List Text} {chunks : List Chunk}
    (cut : CutInto number document chunks) : chunksFrom number document = chunks := by
  induction cut with
  | @last number lines unmarked =>
      have joined := chunksFrom_append unmarked number []
      simpa [chunksFrom] using joined
  | next unmarked marked later ih => rw [chunksFrom_split unmarked marked, ih]

theorem CutInto.le_start {number : Nat} {document : List Text} {chunks : List Chunk}
    (cut : CutInto number document chunks) : ∀ chunk ∈ chunks, number ≤ chunk.start := by
  induction cut with
  | last => simp
  | next unmarked marked later ih =>
      refine List.forall_mem_cons.mpr ⟨Nat.le_refl _, fun chunk member => ?_⟩
      exact Nat.le_trans (Nat.le_add_right _ _) (ih chunk member)

/-- A chunk ends before the marker in front of the next one. -/
theorem CutInto.ordered {number : Nat} {document : List Text} {chunks : List Chunk}
    (cut : CutInto number document chunks) :
    chunks.Pairwise fun first second => first.start + first.lines.length < second.start := by
  induction cut with
  | last => exact List.pairwise_singleton _ _
  | @next number lines marker rest chunks unmarked marked later ih =>
      refine List.pairwise_cons.mpr ⟨fun chunk member => ?_, ih⟩
      have start := later.le_start chunk member
      simp only
      omega

/-- Every line but the markers belongs to a chunk. -/
theorem CutInto.exists_chunk {number : Nat} {document : List Text} {chunks : List Chunk}
    (cut : CutInto number document chunks) {row : Nat} {line : Text}
    (found : document[row]? = some line) (visible : isMarker line = false) :
    ∃ chunk ∈ chunks, chunk.start ≤ number + row ∧
      number + row < chunk.start + chunk.lines.length := by
  induction cut generalizing row with
  | last =>
      have inside := (List.getElem?_eq_some_iff.mp found).1
      exact ⟨_, List.mem_singleton_self _, by simp only; omega, by simp only; omega⟩
  | @next number lines marker rest chunks unmarked marked later ih =>
      by_cases inside : row < lines.length
      · exact ⟨_, List.mem_cons_self, by simp only; omega, by simp only; omega⟩
      · rw [List.getElem?_append_right (by omega)] at found
        cases behind : row - lines.length with
        | zero =>
            rw [behind] at found
            cases found
            rw [marked] at visible
            cases visible
        | succ further =>
            rw [behind, List.getElem?_cons_succ] at found
            obtain ⟨chunk, member, start, stop⟩ := ih found
            exact ⟨chunk, List.mem_cons_of_mem _ member, by omega, by omega⟩

/-! ## The beginning that is dropped -/

/-- Whether a row lies before the first marker of a document, with nothing but blank lines there. -/
def InBlankBeginning (document : List Text) (row : Nat) : Prop :=
  ∃ beginning marker rest, document = beginning ++ marker :: rest ∧ row < beginning.length ∧
    isMarker marker = true ∧
    ∀ line ∈ beginning, isMarker line = false ∧ Text.isBlankText line = true

/-- The chunks of a script are those of its lines, or those behind a first marker that has blank lines
before it. -/
theorem chunks_cases (source : Text) :
    (∃ beginning marker rest, Text.lines source = beginning ++ marker :: rest ∧
        isMarker marker = true ∧
        (∀ line ∈ beginning, isMarker line = false ∧ Text.isBlankText line = true) ∧
        chunks source = chunksFrom (beginning.length + 1) rest) ∨
      chunks source = chunksFrom 0 (Text.lines source) ∧
        ∀ row, ¬InBlankBeginning (Text.lines source) row := by
  have cut := cutInto_chunksFrom 0 (Text.lines source)
  unfold chunks
  generalize Text.lines source = document at cut ⊢
  generalize whole : chunksFrom 0 document = all at cut ⊢
  cases cut with
  | last unmarked =>
      refine .inr ⟨rfl, ?_⟩
      rintro row ⟨beginning, marker, rest, rfl, -, marked, -⟩
      rw [unmarked marker (by simp)] at marked
      cases marked
  | @next _ lines marker rest others unmarked marked later =>
      obtain ⟨found, further, split⟩ := exists_chunksFrom_eq_cons (0 + (lines.length + 1)) rest
      rw [later.chunksFrom_eq] at split
      cases blank : Text.isBlankText (Chunk.text ⟨0, lines⟩) with
      | true =>
          refine .inl ⟨lines, marker, rest, rfl, marked, fun line member => ⟨unmarked line member, ?_⟩,
            ?_⟩
          · rw [Chunk.text, Text.isBlankText_ofLines, List.all_eq_true] at blank
            exact blank line member
          · have behind := later.chunksFrom_eq
            rw [Nat.zero_add] at behind
            rw [behind, split]
            simp [blank]
      | false =>
          refine .inr ⟨by rw [split]; simp [blank], ?_⟩
          rintro row ⟨beginning, other, rest', same, -, otherMarked, blanks⟩
          rw [same, chunksFrom_split (fun line member => (blanks line member).1) otherMarked] at whole
          have first := (List.cons.inj whole).1
          injection first with _ sameLines
          have allBlank : lines.all Text.isBlankText = true :=
            List.all_eq_true.mpr fun line member => (blanks line (sameLines ▸ member)).2
          rw [Chunk.text, Text.isBlankText_ofLines, allBlank] at blank
          cases blank

/-! ## Nothing is lost, repeated or moved -/

/-- Whether a row of a document is one of the rows that a chunk's text takes. -/
def Chunk.Covers (chunk : Chunk) (row : Nat) : Prop :=
  chunk.start ≤ row ∧ row < chunk.start + Text.lineCount chunk.text

theorem lineCount_text {source : Text} {chunk : Chunk} (member : chunk ∈ chunks source)
    (nonempty : chunk.lines ≠ []) : Text.lineCount chunk.text = chunk.lines.length := by
  rw [← Text.length_lines, lines_text member nonempty]

/-- A chunk without lines has a text of one line. -/
theorem lineCount_text_le {source : Text} {chunk : Chunk} (member : chunk ∈ chunks source) :
    Text.lineCount chunk.text ≤ chunk.lines.length + 1 := by
  by_cases empty : chunk.lines = []
  · rw [Chunk.text, empty]
    rfl
  · rw [lineCount_text member empty]
    exact Nat.le_succ _

theorem ordered_chunks (source : Text) :
    (chunks source).Pairwise fun first second =>
      first.start + Text.lineCount first.text ≤ second.start := by
  have cut : (chunks source).Pairwise fun first second =>
      first.start + first.lines.length < second.start := by
    rcases chunks_cases source with ⟨beginning, marker, rest, -, -, -, behind⟩ | ⟨whole, -⟩
    · rw [behind]
      exact (cutInto_chunksFrom _ _).ordered
    · rw [whole]
      exact (cutInto_chunksFrom _ _).ordered
  apply cut.imp_of_mem
  intro first second member _ apart
  have height := lineCount_text_le member
  omega

/-- No two chunks cover the same row. -/
theorem position_of_covers {source : Text} {row left right : Nat} {first second : Chunk}
    (isFirst : (chunks source)[left]? = some first) (isSecond : (chunks source)[right]? = some second)
    (covers : first.Covers row) (alsoCovers : second.Covers row) : left = right := by
  obtain ⟨leftBound, rfl⟩ := List.getElem?_eq_some_iff.mp isFirst
  obtain ⟨rightBound, rfl⟩ := List.getElem?_eq_some_iff.mp isSecond
  have ordered := List.pairwise_iff_getElem.mp (ordered_chunks source)
  rcases Nat.lt_trichotomy left right with before | same | behind
  · have apart := ordered left right leftBound rightBound before
    exact absurd covers.2 (by have := alsoCovers.1; omega)
  · exact same
  · have apart := ordered right left rightBound leftBound behind
    exact absurd alsoCovers.2 (by have := covers.1; omega)

theorem exists_chunk_of_line {source : Text} {row : Nat} {line : Text}
    (found : (Text.lines source)[row]? = some line) (visible : isMarker line = false)
    (kept : ¬InBlankBeginning (Text.lines source) row) :
    ∃ chunk ∈ chunks source, chunk.start ≤ row ∧ row < chunk.start + chunk.lines.length := by
  rcases chunks_cases source with ⟨beginning, marker, rest, split, marked, blanks, behind⟩ | ⟨whole, -⟩
  · have later : beginning.length ≤ row := by
      by_contra inside
      exact kept ⟨beginning, marker, rest, split, by omega, marked, blanks⟩
    rw [split, List.getElem?_append_right later] at found
    cases further : row - beginning.length with
    | zero =>
        rw [further] at found
        cases found
        rw [marked] at visible
        cases visible
    | succ below =>
        rw [further, List.getElem?_cons_succ] at found
        obtain ⟨chunk, member, start, stop⟩ :=
          (cutInto_chunksFrom (beginning.length + 1) rest).exists_chunk found visible
        exact ⟨chunk, behind ▸ member, by omega, by omega⟩
  · obtain ⟨chunk, member, start, stop⟩ :=
      (cutInto_chunksFrom 0 (Text.lines source)).exists_chunk found visible
    exact ⟨chunk, whole ▸ member, by omega, by omega⟩

structure KeepsLines (source : Text) : Prop where
  /-- A line that is no marker lies in exactly one chunk, at its distance from the chunk's first
  line, unless it belongs to a blank beginning. -/
  inOneChunk : ∀ (row : Nat) (line : Text), (Text.lines source)[row]? = some line →
    isMarker line = false → ¬InBlankBeginning (Text.lines source) row →
      ∃ (position : Nat) (chunk : Chunk), (chunks source)[position]? = some chunk ∧
        chunk.Covers row ∧ (Text.lines chunk.text)[row - chunk.start]? = some line ∧
          ∀ (other : Nat) (second : Chunk), (chunks source)[other]? = some second →
            second.Covers row → other = position
  /-- A blank beginning lies in no chunk. -/
  dropped : ∀ row, InBlankBeginning (Text.lines source) row →
    ∀ chunk ∈ chunks source, ¬chunk.Covers row
  /-- Where a chunk has a text at all, it has no line that is not in the script. -/
  original : ∀ chunk ∈ chunks source, chunk.text ≠ [] →
    ∀ (row : Nat) (line : Text), (Text.lines chunk.text)[row]? = some line →
      (Text.lines source)[chunk.start + row]? = some line ∧ isMarker line = false
  ordered : (chunks source).Pairwise fun first second =>
    first.start + Text.lineCount first.text ≤ second.start

theorem keepsLines (source : Text) : KeepsLines source where
  inOneChunk row line found visible kept := by
    obtain ⟨chunk, member, start, stop⟩ := exists_chunk_of_line found visible kept
    obtain ⟨position, isChunk⟩ := List.getElem?_of_mem member
    have nonempty : chunk.lines ≠ [] := by
      intro empty
      rw [empty, List.length_nil] at stop
      omega
    have covers : chunk.Covers row := ⟨start, by rw [lineCount_text member nonempty]; exact stop⟩
    have place : row - chunk.start < chunk.lines.length := by omega
    have same := (runsIn_of_mem_chunks member).getElem? place
    rw [Nat.add_sub_cancel' start, found] at same
    refine ⟨position, chunk, isChunk, covers, ?_, ?_⟩
    · rw [lines_text member nonempty, same]
    · intro other second isSecond alsoCovers
      exact position_of_covers isSecond isChunk alsoCovers covers
  dropped row isBlank chunk member covers := by
    rcases chunks_cases source with ⟨beginning, marker, rest, split, marked, blanks, behind⟩ | ⟨-, none⟩
    · obtain ⟨others, marker', rest', split', inside, marked', blanks'⟩ := isBlank
      have same : beginning = others := by
        have cut := chunksFrom_split (fun line member => (blanks line member).1) marked 0 rest
        have cut' := chunksFrom_split (fun line member => (blanks' line member).1) marked' 0 rest'
        rw [← split, split', cut'] at cut
        injection (List.cons.inj cut).1 with _ sameLines
        exact sameLines.symm
      rw [behind] at member
      have start := (cutInto_chunksFrom (beginning.length + 1) rest).le_start chunk member
      have before := covers.1
      rw [same] at start
      omega
    · exact none row isBlank
  original chunk member visible row line found := by
    have nonempty : chunk.lines ≠ [] := by
      intro empty
      rw [Chunk.text, empty] at visible
      exact visible rfl
    rw [lines_text member nonempty] at found
    have runs := runsIn_of_mem_chunks member
    have inside := (List.getElem?_eq_some_iff.mp found).1
    refine ⟨by rw [runs.getElem? inside, found], ?_⟩
    obtain ⟨-, -, -, -, unmarked, -⟩ := runs
    exact unmarked line (List.mem_of_getElem? found)
  ordered := ordered_chunks source

/-! ## Reading scripts back -/

def markerLine : Text := "# %%".toList

/-- The script of several texts: a marker line and the text for each of them. -/
def scriptOf (texts : List Text) : Text :=
  Text.ofLines (texts.flatMap fun text => [markerLine, text])

/-- The chunks of texts that are written from the given row on. -/
def chunksOf (number : Nat) : List Text → List Chunk
  | [] => []
  | text :: rest =>
      ⟨number + 1, Text.lines text⟩ :: chunksOf (number + (Text.lineCount text + 1)) rest

theorem lines_scriptOf {texts : List Text} (nonempty : texts ≠ []) :
    Text.lines (scriptOf texts) = texts.flatMap fun text => markerLine :: Text.lines text := by
  rw [scriptOf, Text.lines_ofLines, List.flatMap_assoc]
  · apply List.flatMap_congr
    intro text _
    simp [markerLine, Text.lines_of_not_mem]
  · simpa using List.exists_mem_of_ne_nil texts nonempty

theorem chunksFrom_scriptLines {texts : List Text}
    (unmarked : ∀ text ∈ texts, ∀ line ∈ Text.lines text, isMarker line = false) (number : Nat) :
    chunksFrom number (texts.flatMap fun text => markerLine :: Text.lines text) =
      ⟨number, []⟩ :: chunksOf number texts := by
  induction texts generalizing number with
  | nil => rfl
  | cons text rest ih =>
      obtain ⟨first, others⟩ := List.forall_mem_cons.mp unmarked
      have marked : isMarker markerLine = true := rfl
      have next : number + 1 + Text.lineCount text = number + (Text.lineCount text + 1) := by omega
      rw [List.flatMap_cons, List.cons_append, chunksFrom, if_pos marked, chunksFrom_append first,
        Text.length_lines, next, ih others]
      simp [chunksOf]

theorem map_text_chunksOf (number : Nat) (texts : List Text) :
    (chunksOf number texts).map Chunk.text = texts := by
  induction texts generalizing number with
  | nil => rfl
  | cons text rest ih => simp [chunksOf, Chunk.text, Text.ofLines_lines, ih]

theorem getElem?_chunksOf {number position : Nat} {texts : List Text} {chunk : Chunk}
    (found : (chunksOf number texts)[position]? = some chunk) :
    chunk.lines ≠ [] ∧ chunk.start =
      number + ((texts.take position).map fun text => Text.lineCount text + 1).sum + 1 := by
  induction texts generalizing number position with
  | nil => simp [chunksOf] at found
  | cons text rest ih =>
      cases position with
      | zero =>
          obtain rfl : ⟨number + 1, Text.lines text⟩ = chunk := by simpa [chunksOf] using found
          exact ⟨Text.lines_ne_nil text, by simp⟩
      | succ position =>
          obtain ⟨nonempty, start⟩ := ih (by simpa [chunksOf] using found)
          refine ⟨nonempty, ?_⟩
          rw [start, List.take_succ_cons, List.map_cons, List.sum_cons]
          omega

theorem chunks_scriptOf {texts : List Text} (nonempty : texts ≠ [])
    (unmarked : ∀ text ∈ texts, ∀ line ∈ Text.lines text, isMarker line = false) :
    chunks (scriptOf texts) = chunksOf 0 texts := by
  rw [chunks, lines_scriptOf nonempty, chunksFrom_scriptLines unmarked]
  cases texts with
  | nil => exact absurd rfl nonempty
  | cons text rest => rfl

structure ReadsBack (texts : List Text) : Prop where
  sameTexts : (chunks (scriptOf texts)).map Chunk.text = texts
  /-- Every text starts behind its marker line and those before it, and its lines stand there. -/
  starts : ∀ (position : Nat) (chunk : Chunk),
    (chunks (scriptOf texts))[position]? = some chunk →
      chunk.start = ((texts.take position).map fun text => Text.lineCount text + 1).sum + 1 ∧
        Text.lines chunk.text <+: (Text.lines (scriptOf texts)).drop chunk.start
  sameCells : (cells (scriptOf texts)).map Cell.text = texts
  numbered : (cells (scriptOf texts)).map Cell.index =
    (List.range texts.length).map fun (position : Nat) => some (position : Int)

theorem readsBack {texts : List Text} (nonempty : texts ≠ [])
    (unmarked : ∀ text ∈ texts, ∀ line ∈ Text.lines text, isMarker line = false) :
    ReadsBack texts := by
  have cut := chunks_scriptOf nonempty unmarked
  have same : (chunks (scriptOf texts)).map Chunk.text = texts := by
    rw [cut, map_text_chunksOf]
  refine ⟨same, ?_, ?_, ?_⟩
  · intro position chunk found
    have member := List.mem_of_getElem? found
    rw [cut] at found
    obtain ⟨hasLines, start⟩ := getElem?_chunksOf found
    refine ⟨by simpa using start, ?_⟩
    obtain ⟨skipped, following, split, place, -⟩ := runsIn_of_mem_chunks member
    rw [lines_text member hasLines, split, place, Nat.zero_add, List.drop_left]
    exact List.prefix_append _ _
  · rw [cells, numberCells, same, List.map_map]
    exact List.zipIdx_map_fst 0 texts
  · rw [cells, numberCells, same, List.map_map, List.range_eq_range', ← List.zipIdx_map_snd 0 texts,
      List.map_map]
    rfl

/-- Cutting a script into chunks loses, repeats and moves no line, and a script that is written from
texts is read as these texts. -/
theorem keepsLines_and_readsBack (source : Text) (texts : List Text) (nonempty : texts ≠ [])
    (unmarked : ∀ text ∈ texts, ∀ line ∈ Text.lines text, isMarker line = false) :
    KeepsLines source ∧ ReadsBack texts :=
  ⟨keepsLines source, readsBack nonempty unmarked⟩

/-- An empty text, a text that ends in a line break, and one with a line that is almost a marker. -/
theorem keepsLines_and_readsBack_empty :
    let texts : List Text := ["".toList, "x = 1\n".toList, "\n# %%x\n #%%".toList]
    texts ≠ [] ∧ (∀ text ∈ texts, ∀ line ∈ Text.lines text, isMarker line = false) ∧
      KeepsLines (scriptOf texts) ∧ ReadsBack texts := by
  intro texts
  have nonempty : texts ≠ [] := List.cons_ne_nil _ _
  have unmarked : ∀ text ∈ texts, ∀ line ∈ Text.lines text, isMarker line = false := by decide
  exact ⟨nonempty, unmarked,
    keepsLines_and_readsBack (scriptOf texts) texts nonempty unmarked⟩

end NotebookLint.Percent
