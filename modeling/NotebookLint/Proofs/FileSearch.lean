import NotebookLint.Command.Arguments
import NotebookLint.Command.Search
import NotebookLint.Proofs.Paths
import NotebookLint.Proofs.Sorting
import NotebookLint.Proofs.Tallies

/-! Which files path arguments stand for. Each location that is mentioned is taken once, in the
order and with the spelling of its first mention. -/

set_option autoImplicit false

namespace NotebookLint.Command

open File (Path Tree Location AccessFault)

/-- The files that path arguments mention one after the other, repetitions included. -/
def mentions (tree : Tree) (paths : List Path) : Except SearchFault (List Path) :=
  (paths.mapM (expand tree)).map List.flatten

theorem files_eq_ok {tree : Tree} {paths found : List Path} :
    files tree paths = .ok found ↔
      ∃ mentioned, mentions tree paths = .ok mentioned ∧
        distinctFrom tree [] mentioned = found := by
  simp only [files, mentions, except_map_eq_ok]
  constructor
  · rintro ⟨groups, expanded, kept⟩
    exact ⟨_, ⟨groups, expanded, rfl⟩, kept⟩
  · rintro ⟨_, ⟨groups, expanded, rfl⟩, kept⟩
    exact ⟨groups, expanded, kept⟩

/-! ## The first mention -/

theorem map_resolve_distinctFrom (tree : Tree) (seen : List Location) (paths : List Path) :
    (distinctFrom tree seen paths).map tree.resolve =
      ((paths.map tree.resolve).filter fun location => !seen.contains location).eraseDups := by
  induction paths generalizing seen with
  | nil => rfl
  | cons path rest ih =>
      rw [distinctFrom, List.map_cons]
      by_cases known : seen.contains (tree.resolve path)
      · rw [if_pos known, ih, List.filter_cons_of_neg (by simpa using known)]
      · rw [if_neg known, List.filter_cons_of_pos (by simpa using known), List.map_cons, ih,
          List.eraseDups_cons, List.filter_filter]
        congr 2
        refine List.filter_congr fun location _ => ?_
        rw [List.contains_cons, Bool.not_or]

theorem resolve_not_mem_of_distinctFrom {tree : Tree} {seen : List Location} {paths : List Path}
    {path : Path} (kept : path ∈ distinctFrom tree seen paths) : tree.resolve path ∉ seen := by
  have listed := List.mem_map_of_mem (f := tree.resolve) kept
  rw [map_resolve_distinctFrom, List.mem_eraseDups, List.mem_filter] at listed
  simpa using listed.2

/-- What is kept is the first mention of its location. -/
theorem find?_of_mem_distinctFrom {tree : Tree} {seen : List Location} {paths : List Path}
    {path : Path} (kept : path ∈ distinctFrom tree seen paths) :
    paths.find? (fun mention => tree.resolve mention == tree.resolve path) = some path := by
  induction paths generalizing seen with
  | nil => cases kept
  | cons first rest ih =>
      have fresh := resolve_not_mem_of_distinctFrom kept
      rw [distinctFrom] at kept
      split at kept
      · rename_i known
        have apart : tree.resolve first ≠ tree.resolve path := by
          intro same
          exact fresh (same ▸ List.contains_iff_mem.mp known)
        rw [List.find?_cons_of_neg (by simpa using apart)]
        exact ih kept
      · rcases List.mem_cons.mp kept with rfl | later
        · rw [List.find?_cons_of_pos (by simp)]
        · have apart : tree.resolve path ≠ tree.resolve first := by
            intro same
            exact resolve_not_mem_of_distinctFrom later (same ▸ List.mem_cons_self)
          rw [List.find?_cons_of_neg (by simpa using apart.symm)]
          exact ih later

/-- Every mentioned location is kept. -/
theorem exists_mem_distinctFrom {tree : Tree} {paths : List Path} {mention : Path}
    (mentioned : mention ∈ paths) :
    ∃ path ∈ distinctFrom tree [] paths, tree.resolve path = tree.resolve mention := by
  have listed : tree.resolve mention ∈ (distinctFrom tree [] paths).map tree.resolve := by
    rw [map_resolve_distinctFrom, List.mem_eraseDups]
    simpa using ⟨mention, mentioned, rfl⟩
  exact List.mem_map.mp listed

/-! ## Written paths -/

theorem paths_setValue? {name value : Text} {draft next : Draft}
    (set : setValue? name value draft = some next) : next.paths = draft.paths := by
  unfold setValue? at set
  split at set
  · cases set
    rfl
  · split at set
    · cases set
      rfl
    · cases set

theorem paths_setFlag? {name : Text} {draft next : Draft} (set : setFlag? name draft = some next) :
    next.paths = draft.paths := by
  unfold setFlag? at set
  split at set
  · cases set
    rfl
  · split at set
    · cases set
      rfl
    · split at set
      · split at set
        · cases set
          rfl
        · cases set
      · cases set

theorem wellFormed_addPaths {draft : Draft} (known : ∀ path ∈ draft.paths, path.WellFormed)
    (written : List Text) : ∀ path ∈ (draft.addPaths written).paths, path.WellFormed := by
  intro path member
  cases List.mem_append.mp member with
  | inl old => exact known path old
  | inr new =>
      obtain ⟨text, -, rfl⟩ := List.mem_map.mp new
      exact Path.wellFormed_ofText text

theorem wellFormed_readFrom {draft result : Draft} {words : List Text}
    (known : ∀ path ∈ draft.paths, path.WellFormed)
    (understood : readFrom draft words = some result) : ∀ path ∈ result.paths, path.WellFormed := by
  fun_induction readFrom draft words with
  | case1 draft => exact Option.some.inj understood ▸ known
  | case2 draft word rest _ => exact Option.some.inj understood ▸ wellFormed_addPaths known rest
  | case3 draft word rest _ _ ih => exact ih (wellFormed_addPaths known [word]) understood
  | case4 draft word rest _ _ _ name ih =>
      obtain ⟨next, set, later⟩ := Option.bind_eq_some_iff.mp understood
      exact ih next (paths_setValue? set ▸ known) later
  | case5 draft word => cases understood
  | case6 draft word _ _ _ _ value rest ih =>
      obtain ⟨next, set, later⟩ := Option.bind_eq_some_iff.mp understood
      exact ih next (paths_setValue? set ▸ known) later
  | case7 draft word rest _ _ _ _ ih =>
      obtain ⟨next, set, later⟩ := Option.bind_eq_some_iff.mp understood
      exact ih next (paths_setFlag? set ▸ known) later

/-- The paths of an argument list are printed as they can be written. -/
theorem wellFormed_of_ofList? {words : List Text} {arguments : Arguments}
    (understood : Arguments.ofList? words = some arguments) :
    ∀ path ∈ arguments.paths, path.WellFormed := by
  unfold Arguments.ofList? at understood
  split at understood
  · cases understood
  · obtain ⟨draft, read, rest⟩ := Option.bind_eq_some_iff.mp understood
    obtain ⟨format, -, made⟩ := Option.bind_eq_some_iff.mp rest
    rw [← Option.some.inj made]
    exact wellFormed_readFrom (fun path member => by cases member) read

/-! ## Arguments -/

theorem expand_of_file {tree : Tree} {path : Path} {location : Location} {bytes : List UInt8}
    (found : tree.lookup path = .ok (location, .file bytes)) : expand tree path = .ok [path] := by
  rw [expand, found]

/-- An argument can be expanded unless it is too long or holds the null character. -/
theorem exists_expand_eq_ok {tree : Tree} {path : Path} :
    (∃ found, expand tree path = .ok found) ↔
      ∀ fault, tree.lookup path = .error fault → isDeferred fault = true := by
  unfold expand
  split
  · rename_i found
    simp [found]
  · rename_i found
    simp [found]
  · rename_i fault failed
    simp only [failed, Except.error.injEq, forall_eq']
    split <;> simp_all

theorem exists_mentions_eq_ok {tree : Tree} {paths : List Path} :
    (∃ mentioned, mentions tree paths = .ok mentioned) ↔
      ∀ path ∈ paths, ∀ fault, tree.lookup path = .error fault → isDeferred fault = true := by
  simp only [← exists_expand_eq_ok, ← exists_mapM_eq_ok, mentions, except_map_eq_ok]
  constructor
  · intro found
    obtain ⟨_, groups, expanded, -⟩ := found
    exact ⟨groups, expanded⟩
  · intro found
    obtain ⟨groups, expanded⟩ := found
    exact ⟨_, groups, expanded, rfl⟩

/-- Arguments that can be expanded have been accepted. -/
theorem forM_accept_of_mentions {tree : Tree} {paths mentioned : List Path}
    (found : mentions tree paths = .ok mentioned) : paths.forM accept = .ok () := by
  rw [forM_eq_ok]
  intro path member
  have deferred := exists_mentions_eq_ok.mp ⟨mentioned, found⟩ path member .nullCharacter
  have noNull : ¬path.holdsNull = true := fun null => by
    cases deferred (Tree.lookup_eq_nullCharacter.mpr null)
  rw [accept, if_neg noNull]

theorem mentions_of_file {tree : Tree} {path : Path} {location : Location} {bytes : List UInt8}
    (found : tree.lookup path = .ok (location, .file bytes)) :
    mentions tree [path] = .ok [path] := by
  simp [mentions, expand_of_file found, pure, Except.pure, bind, Except.bind, Except.map]

/-! ## What is mentioned -/

theorem mem_of_mem_beginnings {α : Type} {list part : List α}
    (member : part ∈ Tree.beginnings list) : ∀ element ∈ part, element ∈ list := by
  induction list generalizing part with
  | nil => cases member
  | cons head rest ih =>
      cases member with
      | head => simp
      | tail _ longer =>
          obtain ⟨shorter, isPart, rfl⟩ := List.mem_map.mp longer
          intro element inside
          cases inside with
          | head => exact List.mem_cons_self
          | tail _ later => exact List.mem_cons_of_mem _ (ih isPart element later)

/-- What lies below a directory has its name from an entry. -/
theorem exists_entry_of_mem_allBelow {tree : Tree} {directory location : Location}
    (below : location ∈ tree.allBelow directory) :
    ∃ entry ∈ tree.entries, ∀ name ∈ location, name ∈ entry.1 := by
  rw [Tree.allBelow, List.mem_eraseDups, List.mem_flatMap] at below
  obtain ⟨rest, isRest, beginning⟩ := below
  obtain ⟨entry, member, relative⟩ := List.mem_filterMap.mp isRest
  refine ⟨entry, member, fun name inside => ?_⟩
  have listed := mem_of_mem_beginnings beginning name inside
  simp only [Tree.relativeTo?] at relative
  split at relative
  · cases relative
    exact List.mem_of_mem_drop listed
  · cases relative

theorem mem_notebooksBelow {tree : Tree} {root path : Path} {directory : Location} :
    path ∈ notebooksBelow tree root directory ↔
      ∃ location ∈ tree.allBelow directory, isNotebookName location = true ∧
        root.below location = path ∧ isSkipped path = false := by
  simp only [notebooksBelow, List.mem_filter, List.mem_map, (stableSort_perm ..).mem_iff]
  constructor
  · intro found
    obtain ⟨⟨location, ⟨below, named⟩, same⟩, kept⟩ := found
    exact ⟨location, below, named, same, by simpa using kept⟩
  · intro found
    obtain ⟨location, below, named, same, kept⟩ := found
    exact ⟨⟨location, ⟨below, named⟩, same⟩, by simpa using kept⟩

/-- A mentioned file has a path that can be printed and read again, and it holds no null
character. -/
theorem wellFormed_of_mem_expand {tree : Tree} (wellFormed : tree.WellFormed) {path : Path}
    (written : path.WellFormed) {found : List Path} (expanded : expand tree path = .ok found)
    {mention : Path} (member : mention ∈ found) :
    mention.WellFormed ∧ mention.holdsNull = false := by
  unfold expand at expanded
  split at expanded
  · rename_i directory leads
    cases expanded
    obtain ⟨location, below, -, rfl, -⟩ := mem_notebooksBelow.mp member
    obtain ⟨entry, isEntry, names⟩ := exists_entry_of_mem_allBelow below
    have components := fun name inside => wellFormed.names entry isEntry name (names name inside)
    refine ⟨written.below fun name inside => (components name inside).1, ?_⟩
    have noNull := (Tree.lookup_eq_ok leads).1
    simp only [Path.holdsNull, Path.below, List.any_append, Bool.or_eq_false_iff] at noNull ⊢
    refine ⟨noNull, List.any_eq_false.mpr fun name inside => ?_⟩
    simpa using (components name inside).2
  · rename_i leads
    cases expanded
    obtain rfl := List.mem_singleton.mp member
    exact ⟨written, (Tree.lookup_eq_ok leads).1⟩
  · rename_i fault failed
    split at expanded
    · rename_i deferred
      cases expanded
      obtain rfl := List.mem_singleton.mp member
      refine ⟨written, Bool.eq_false_iff.mpr fun null => ?_⟩
      rw [Tree.lookup, if_pos null] at failed
      cases failed
      cases deferred
    · cases expanded

theorem wellFormed_of_mem_mentions {tree : Tree} (wellFormed : tree.WellFormed) {paths : List Path}
    (written : ∀ path ∈ paths, path.WellFormed) {mentioned : List Path}
    (found : mentions tree paths = .ok mentioned) {mention : Path} (member : mention ∈ mentioned) :
    mention.WellFormed ∧ mention.holdsNull = false := by
  obtain ⟨groups, expanded, rfl⟩ := except_map_eq_ok.mp found
  obtain ⟨group, isGroup, inside⟩ := List.mem_flatten.mp member
  obtain ⟨path, isPath, single⟩ := exists_of_mem_mapM expanded isGroup
  exact wellFormed_of_mem_expand wellFormed (written path isPath) single inside

end NotebookLint.Command
