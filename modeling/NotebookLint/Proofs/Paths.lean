import NotebookLint.File.Tree
import NotebookLint.Notebook.Load
import NotebookLint.Proofs.Fallible
import NotebookLint.Proofs.TextLines

/-! Spellings of paths. A path that is well-formed is determined by the way it is printed. If a path
leads anywhere at all, then to the location that its spelling names, so two spellings of a location
that both lead there lead to the same file. The spelling alone does not tell whether it leads
anywhere. -/

set_option autoImplicit false

namespace NotebookLint.File

/-! ## Printed paths -/

/-- Whether a name can be a component of a path. -/
structure IsComponent (name : Text) : Prop where
  nonempty : name ≠ []
  noSlash : '/' ∉ name
  noDot : name ≠ ['.']

namespace Path

/-- Whether a path is made of what the text of a path can hold. -/
structure WellFormed (path : Path) : Prop where
  root : path.root = [] ∨ path.root = ['/'] ∨ path.root = ['/', '/']
  components : ∀ name ∈ path.components, IsComponent name

theorem wellFormed_ofText (written : Text) : (ofText written).WellFormed := by
  constructor
  · unfold ofText
    dsimp only
    split
    · exact .inl rfl
    · exact .inr (.inr rfl)
    · exact .inr (.inl rfl)
  · intro name member
    obtain ⟨piece, real⟩ := List.mem_filter.mp member
    rw [Bool.and_eq_true, Bool.not_eq_true', bne_iff_ne] at real
    exact ⟨List.isEmpty_eq_false_iff.mp real.1, Text.not_mem_of_mem_splitOn piece, real.2⟩

theorem WellFormed.below {path : Path} (wellFormed : path.WellFormed) {names : List Text}
    (components : ∀ name ∈ names, IsComponent name) : (path.below names).WellFormed :=
  ⟨wellFormed.root, List.forall_mem_append.mpr ⟨wellFormed.components, components⟩⟩

private theorem filter_components {names : List Text}
    (components : ∀ name ∈ names, IsComponent name) :
    names.filter (fun name => !name.isEmpty && name != ['.']) = names := by
  rw [List.filter_eq_self]
  intro name member
  obtain ⟨nonempty, -, noDot⟩ := components name member
  simp [nonempty, noDot]

private theorem componentsOf_join {names : List Text}
    (components : ∀ name ∈ names, IsComponent name) :
    componentsOf (Text.join ['/'] names) = names := by
  cases names with
  | nil => rfl
  | cons name rest =>
      rw [componentsOf, Text.splitOn_eq, Text.join_eq_intercalate,
        List.splitOn_intercalate '/' (fun name member => (components name member).noSlash)
          (List.cons_ne_nil _ _)]
      exact filter_components components

private theorem componentsOf_cons_slash (written : Text) :
    componentsOf ('/' :: written) = componentsOf written := by
  simp [componentsOf, Text.splitOn, Text.splitWhen]

private theorem takeWhile_slash_join {names : List Text}
    (components : ∀ name ∈ names, IsComponent name) :
    (Text.join ['/'] names).takeWhile (fun char => char == '/') = [] := by
  cases names with
  | nil => rfl
  | cons name rest =>
      obtain ⟨nonempty, noSlash, -⟩ := components name List.mem_cons_self
      obtain ⟨char, others, rfl⟩ := List.exists_cons_of_ne_nil nonempty
      have visible : (char == '/') = false := by
        rw [beq_eq_false_iff_ne]
        rintro rfl
        exact noSlash List.mem_cons_self
      cases rest with
      | nil => simp [Text.join, visible]
      | cons next more => simp [Text.join, visible]

/-- A printed path is read as the path that was printed. -/
theorem ofText_toText {path : Path} (wellFormed : path.WellFormed) : ofText path.toText = path := by
  obtain ⟨root, components⟩ := path
  obtain ⟨known, areComponents⟩ := wellFormed
  have start := takeWhile_slash_join areComponents
  have names := componentsOf_join areComponents
  dsimp only at known
  rcases known with rfl | rfl | rfl
  · cases components with
    | nil => rfl
    | cons name rest =>
        have printed : toText ⟨[], name :: rest⟩ = Text.join ['/'] (name :: rest) := rfl
        rw [printed, ofText, start, names]
        rfl
  · have printed : toText ⟨['/'], components⟩ = '/' :: Text.join ['/'] components := rfl
    rw [printed, ofText, componentsOf_cons_slash, names]
    simp [start]
  · have printed : toText ⟨['/', '/'], components⟩ = '/' :: '/' :: Text.join ['/'] components := rfl
    rw [printed, ofText, componentsOf_cons_slash, componentsOf_cons_slash, names]
    simp [start]

theorem eq_of_toText_eq {left right : Path} (first : left.WellFormed) (second : right.WellFormed)
    (same : left.toText = right.toText) : left = right := by
  rw [← ofText_toText first, same, ofText_toText second]

end Path

/-! ## Where paths lead -/

namespace Tree

theorem follow_cons_eq_ok {tree : Tree} {location target : Location} {name : Text}
    {names : List Text} :
    tree.follow location (name :: names) = .ok target ↔
      tree.node? location = some .directory ∧ utf8Length name ≤ maxNameBytes ∧
        tree.follow (step location name) names = .ok target := by
  cases stands : tree.node? location with
  | none => simp [follow, stands]
  | some node =>
      cases node with
      | file bytes => simp [follow, stands]
      | unreadable => simp [follow, stands]
      | directory =>
          by_cases fits : utf8Length name ≤ maxNameBytes
          · simp [follow, stands, fits, Nat.not_lt.mpr fits]
          · simp [follow, stands, fits, Nat.lt_of_not_le fits]

theorem follow_eq_foldl {tree : Tree} {location target : Location} {names : List Text}
    (followed : tree.follow location names = .ok target) : target = names.foldl step location := by
  induction names generalizing location with
  | nil =>
      cases followed
      rfl
  | cons name rest ih =>
      obtain ⟨-, -, further⟩ := follow_cons_eq_ok.mp followed
      exact ih further

/-- A path that leads anywhere leads to the location that it names. -/
theorem lookup_eq_ok {tree : Tree} {path : Path} {location : Location} {node : Node}
    (found : tree.lookup path = .ok (location, node)) :
    path.holdsNull = false ∧ location = tree.resolve path ∧ tree.node? location = some node ∧
      tree.follow (tree.startOf path) path.components = .ok location := by
  unfold lookup at found
  split at found
  · cases found
  · rename_i noNull
    split at found
    · cases found
    · obtain ⟨target, followed, stands⟩ := except_bind_eq_ok.mp found
      split at stands
      · rename_i other isNode
        cases stands
        exact ⟨by simpa using noNull, follow_eq_foldl followed, isNode, followed⟩
      · cases stands

/-- Whether a tree is one that a file system can hold. -/
structure WellFormed (tree : Tree) : Prop where
  /-- Nothing lies below a file, and a run takes place in a directory. -/
  leaves : ∀ entry ∈ tree.entries, entry.2 ≠ .directory →
    entry.1 ≠ [] ∧ ¬entry.1 <+: tree.workingDirectory ∧
      ∀ other ∈ tree.entries, entry.1 <+: other.1 → other.1 = entry.1
  names : ∀ entry ∈ tree.entries, ∀ name ∈ entry.1, IsComponent name ∧ '\x00' ∉ name

theorem exists_entry_of_file {tree : Tree} {location : Location} {bytes : List UInt8}
    (stands : tree.node? location = some (.file bytes)) :
    ∃ entry ∈ tree.entries, entry.1 = location ∧ entry.2 = .file bytes := by
  unfold node? at stands
  split at stands
  · rename_i entry found
    have same : entry.1 = location := by simpa using List.find?_some found
    exact ⟨entry, List.mem_of_find?_eq_some found, same, Option.some.inj stands⟩
  · split at stands <;> cases stands

theorem prefix_of_directory {tree : Tree} {location : Location}
    (stands : tree.node? location = some .directory) :
    location = [] ∨ location <+: tree.workingDirectory ∨
      ∃ entry ∈ tree.entries, location <+: entry.1 := by
  unfold node? at stands
  split at stands
  · rename_i entry found
    have same : entry.1 = location := by simpa using List.find?_some found
    exact .inr (.inr ⟨entry, List.mem_of_find?_eq_some found, same ▸ List.prefix_rfl⟩)
  · split at stands
    · rename_i known
      simp only [Bool.or_eq_true, List.isEmpty_iff, beq_iff_eq, List.isPrefixOf_iff_prefix,
        List.any_eq_true] at known
      rcases known with ((empty | here) | outer) | below
      · exact .inl empty
      · exact .inr (.inl (here ▸ List.prefix_rfl))
      · exact .inr (.inl outer)
      · exact .inr (.inr below)
    · cases stands

/-- Nothing lies below a file. -/
theorem WellFormed.not_directory_below {tree : Tree} (wellFormed : tree.WellFormed)
    {location : Location} {bytes : List UInt8} (stands : tree.node? location = some (.file bytes))
    (name : Text) : tree.node? (location ++ [name]) ≠ some .directory := by
  obtain ⟨entry, member, rfl, isFile⟩ := exists_entry_of_file stands
  obtain ⟨-, notAbove, alone⟩ := wellFormed.leaves entry member (by simp [isFile])
  intro directory
  rcases prefix_of_directory directory with empty | outer | ⟨other, isOther, above⟩
  · simp at empty
  · exact notAbove ((List.prefix_append _ _).trans outer)
  · have same := alone other isOther ((List.prefix_append _ _).trans above)
    have longer := above.length_le
    rw [same, List.length_append, List.length_singleton] at longer
    omega

/-- The last component is a step from a directory. -/
theorem follow_concat {tree : Tree} {location target : Location} {names : List Text} {last : Text}
    (followed : tree.follow location (names ++ [last]) = .ok target) :
    ∃ directory, tree.node? directory = some .directory ∧ step directory last = target := by
  induction names generalizing location with
  | nil =>
      obtain ⟨isDirectory, -, reached⟩ := follow_cons_eq_ok.mp followed
      exact ⟨location, isDirectory, Except.ok.inj reached⟩
  | cons name rest ih =>
      obtain ⟨-, -, further⟩ := follow_cons_eq_ok.mp followed
      exact ih further

/-- A path that leads to a file ends in the name of the file. -/
theorem WellFormed.getLast?_components {tree : Tree} (wellFormed : tree.WellFormed) {path : Path}
    {location : Location} {bytes : List UInt8}
    (found : tree.lookup path = .ok (location, .file bytes)) :
    path.components.getLast? = location.getLast? := by
  obtain ⟨-, -, stands, followed⟩ := lookup_eq_ok found
  obtain ⟨entry, member, rfl, isFile⟩ := exists_entry_of_file stands
  obtain ⟨nonempty, notAbove, -⟩ := wellFormed.leaves entry member (by simp [isFile])
  cases List.eq_nil_or_concat path.components with
  | inl none =>
      -- Without components a path leads to where it starts, and a file is at neither place.
      rw [none] at followed
      have start := Except.ok.inj followed
      unfold startOf at start
      split at start
      · exact absurd start.symm nonempty
      · exact absurd (start ▸ List.prefix_rfl) notAbove
  | inr some =>
      obtain ⟨names, last, split⟩ := some
      rw [split, List.concat_eq_append] at followed ⊢
      obtain ⟨directory, isDirectory, reached⟩ := follow_concat followed
      rw [List.getLast?_concat]
      unfold step at reached
      split at reached
      · -- A double dot leads out of a directory, and no file has a directory below it.
        cases List.eq_nil_or_concat directory with
        | inl empty =>
            rw [empty] at reached
            exact absurd reached.symm nonempty
        | inr inside =>
            obtain ⟨outside, name, rfl⟩ := inside
            rw [List.concat_eq_append, List.dropLast_concat] at reached
            rw [List.concat_eq_append, reached] at isDirectory
            exact absurd isDirectory (wellFormed.not_directory_below stands name)
      · rw [← reached, List.getLast?_concat]

end Tree

theorem Path.suffix_congr {left right : Path}
    (same : left.components.getLast? = right.components.getLast?) : left.suffix = right.suffix := by
  rw [suffix, suffix, same]

theorem Tree.read_eq_ok {tree : Tree} {path : Path} {bytes : List UInt8} :
    tree.read path = .ok bytes ↔ ∃ location, tree.lookup path = .ok (location, .file bytes) := by
  unfold read
  cases found : tree.lookup path with
  | error fault => simp [bind, Except.bind]
  | ok reached =>
      obtain ⟨location, node⟩ := reached
      cases node <;> simp [bind, Except.bind]

theorem Tree.follow_ne_nullCharacter {tree : Tree} (location : Location) (names : List Text) :
    tree.follow location names ≠ .error .nullCharacter := by
  induction names generalizing location with
  | nil => simp [follow]
  | cons name rest ih =>
      rw [follow]
      split
      · simp
      · simp
      · simp
      · split
        · simp
        · exact ih _

theorem Tree.lookup_eq_nullCharacter {tree : Tree} {path : Path} :
    tree.lookup path = .error .nullCharacter ↔ path.holdsNull = true := by
  constructor
  · intro failed
    by_contra noNull
    rw [lookup, if_neg noNull] at failed
    split at failed
    · cases failed
    · cases followed : tree.follow (tree.startOf path) path.components with
      | error fault =>
          rw [followed] at failed
          cases failed
          exact follow_ne_nullCharacter _ _ followed
      | ok location =>
          simp only [followed, bind, Except.bind] at failed
          split at failed <;> cases failed
  · intro null
    rw [lookup, if_pos null]

end NotebookLint.File

namespace NotebookLint.Notebook

open File (Path Tree)

/-- A notebook that can be loaded is in a file, and of the path to it only the ending matters. -/
theorem load_eq_ok {tree : Tree} {path : Path} {cells : List Cell} :
    load tree path = .ok cells ↔
      ∃ bytes text, tree.read path = .ok bytes ∧ File.decodeUtf8 bytes = .ok text ∧
        if path.suffix == ".ipynb".toList then
          documentCells path (File.unifyLineBreaks text) = .ok cells
        else Percent.cells (File.unifyLineBreaks text) = cells := by
  simp only [load, readText, except_bind_eq_ok, except_mapError_eq_ok, except_pure_eq_ok]
  constructor
  · rintro ⟨_, ⟨bytes, readable, text, decoded, rfl⟩, loaded⟩
    refine ⟨bytes, text, readable, decoded, ?_⟩
    split at loaded
    · rwa [if_pos ‹_›]
    · rw [if_neg ‹_›]
      exact except_pure_eq_ok.mp loaded
  · rintro ⟨bytes, text, readable, decoded, loaded⟩
    refine ⟨_, ⟨bytes, readable, text, decoded, rfl⟩, ?_⟩
    split at loaded
    · rwa [if_pos ‹_›]
    · rw [if_neg ‹_›]
      exact except_pure_eq_ok.mpr loaded

theorem load_of_lookup_error {tree : Tree} {path : Path} {fault : File.AccessFault}
    (failed : tree.lookup path = .error fault) :
    load tree path = .error (.noAccess path fault) := by
  simp [load, readText, Tree.read, failed, bind, Except.bind, Except.mapError]

theorem documentCells_ne_noAccess (path other : Path) (text : Text) (fault : File.AccessFault) :
    documentCells path text ≠ .error (.noAccess other fault) := by
  unfold documentCells
  split
  · simp
  · simp
  · split <;> simp

theorem load_ne_nullCharacter {tree : Tree} {path : Path} (noNull : path.holdsNull = false)
    (other : Path) : load tree path ≠ .error (.noAccess other .nullCharacter) := by
  cases found : tree.lookup path with
  | error fault =>
      rw [load_of_lookup_error found]
      intro same
      cases same
      rw [Tree.lookup_eq_nullCharacter, noNull] at found
      cases found
  | ok reached =>
      obtain ⟨location, node⟩ := reached
      cases node with
      | directory => simp [load, readText, Tree.read, found, bind, Except.bind, Except.mapError]
      | unreadable => simp [load, readText, Tree.read, found, bind, Except.bind, Except.mapError]
      | file bytes =>
          simp only [load, readText, Tree.read, found, bind, Except.bind, Except.mapError]
          cases File.decodeUtf8 bytes with
          | error fault => simp
          | ok text =>
              dsimp only [pure, Except.pure]
              split
              · exact documentCells_ne_noAccess _ _ _ _
              · simp

theorem documentCells_congr {path other : Path} {text : Text} {cells : List Cell}
    (known : documentCells path text = .ok cells) : documentCells other text = .ok cells := by
  unfold documentCells at known ⊢
  split at known
  · cases known
  · cases known
  · split at known
    · exact known
    · cases known

/-- Two spellings of a location that lead there lead to the same notebook. -/
theorem load_of_resolve_eq {tree : Tree} (wellFormed : tree.WellFormed) {left right : Path}
    (same : tree.resolve left = tree.resolve right) {cells : List Cell}
    (loaded : load tree left = .ok cells) {reached : File.Location × File.Node}
    (found : tree.lookup right = .ok reached) : load tree right = .ok cells := by
  obtain ⟨bytes, text, readable, decoded, known⟩ := load_eq_ok.mp loaded
  obtain ⟨location, leads⟩ := File.Tree.read_eq_ok.mp readable
  obtain ⟨-, named, stands, -⟩ := File.Tree.lookup_eq_ok leads
  obtain ⟨other, node⟩ := reached
  obtain ⟨-, alsoNamed, alsoStands, -⟩ := File.Tree.lookup_eq_ok found
  obtain rfl : other = location := by rw [alsoNamed, named, same]
  obtain rfl : node = .file bytes := Option.some.inj (alsoStands.symm.trans stands)
  have ending : left.suffix = right.suffix := by
    apply File.Path.suffix_congr
    rw [wellFormed.getLast?_components leads, wellFormed.getLast?_components found]
  refine load_eq_ok.mpr ⟨bytes, text, File.Tree.read_eq_ok.mpr ⟨_, found⟩, decoded, ?_⟩
  rw [ending] at known
  split at known
  · rw [if_pos ‹_›]
    exact documentCells_congr known
  · rwa [if_neg ‹_›]

end NotebookLint.Notebook
