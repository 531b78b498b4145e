import Mathlib.Data.List.Infix
import NotebookLint.Proofs.ConfigDocuments
import NotebookLint.Proofs.Utf8Decoding

/-! Loading of settings. A file that cannot be read or is no TOML gives the standard settings, and what
the severity and the options of the rules are makes no difference. Yet not every file gives settings:
bytes of no text and values that are used before their kind is known are faults. -/

set_option autoImplicit false

namespace NotebookLint.Config

open File (Path Tree AccessFault decodeUtf8 encodeUtf8)

/-! ## The search -/

/-- Where the file with settings may be for a directory: in it or in one above, the nearest first. -/
def places (directory : Path) : List Path :=
  directory.components.inits.reverse.map fun above =>
    { directory with components := above ++ [fileName] }

/-- What a search along several places comes to. -/
inductive Search (tree : Tree) : List Path → Except ConfigFault (Option Path) → Prop where
  | nowhere : Search tree [] (.ok none)
  | here {path : Path} {farther : List Path} :
      tree.isFile path = .ok true → Search tree (path :: farther) (.ok (some path))
  | unknown {path : Path} {farther : List Path} {fault : AccessFault} :
      tree.isFile path = .error fault →
      Search tree (path :: farther) (.error (.noAccess path fault))
  | further {path : Path} {farther : List Path} {result : Except ConfigFault (Option Path)} :
      tree.isFile path = .ok false → Search tree farther result →
      Search tree (path :: farther) result

theorem Search.unique {tree : Tree} {list : List Path}
    {first second : Except ConfigFault (Option Path)} (one : Search tree list first)
    (other : Search tree list second) : first = second := by
  induction one with
  | nowhere =>
      cases other with
      | nowhere => rfl
  | here found =>
      cases other with
      | here => rfl
      | unknown failed => cases found.symm.trans failed
      | further missed => cases found.symm.trans missed
  | unknown failed =>
      cases other with
      | here found => cases failed.symm.trans found
      | unknown same =>
          cases failed.symm.trans same
          rfl
      | further missed => cases failed.symm.trans missed
  | further missed _ ih =>
      cases other with
      | here found => cases missed.symm.trans found
      | unknown failed => cases missed.symm.trans failed
      | further _ later => exact ih later

theorem places_concat (root : Text) (components : List Text) (last : Text) :
    places ⟨root, components ++ [last]⟩ =
      (⟨root, components ++ [last]⟩ : Path).below [fileName] :: places ⟨root, components⟩ := by
  simp [places, List.inits_append, Path.below]

theorem search_find? (tree : Tree) (root : Text) (components : List Text) :
    Search tree (places ⟨root, components⟩) (find? tree ⟨root, components⟩ components.length) := by
  -- The search goes up by dropping the last component.
  induction components using List.reverseRecOn with
  | nil =>
      have place : places ⟨root, []⟩ = [(⟨root, []⟩ : Path).below [fileName]] := rfl
      rw [place, List.length_nil, find?, inDirectory?]
      cases found : tree.isFile ((⟨root, []⟩ : Path).below [fileName]) with
      | error fault => exact .unknown found
      | ok present =>
          cases present with
          | true => exact .here found
          | false => exact .further found .nowhere
  | append_singleton above last ih =>
      rw [places_concat, List.length_append, List.length_singleton, find?, inDirectory?]
      simp only [List.dropLast_concat]
      cases found : tree.isFile ((⟨root, above ++ [last]⟩ : Path).below [fileName]) with
      | error fault => exact .unknown found
      | ok present =>
          cases present with
          | true => exact .here found
          | false => exact .further found ih

theorem find?_eq_iff {tree : Tree} {directory : Path} {result : Except ConfigFault (Option Path)} :
    find? tree directory directory.components.length = result ↔
      Search tree (places directory) result := by
  have searched := search_find? tree directory.root directory.components
  constructor
  · intro found
    rw [← found]
    exact searched
  · intro search
    exact searched.unique search

theorem Search.nowhere_iff {tree : Tree} {list : List Path} :
    Search tree list (.ok none) ↔ ∀ path ∈ list, tree.isFile path = .ok false := by
  induction list with
  | nil => simpa using Search.nowhere
  | cons path farther ih =>
      rw [List.forall_mem_cons, ← ih]
      constructor
      · intro search
        cases search with
        | further missed later => exact ⟨missed, later⟩
      · intro missed
        exact .further missed.1 missed.2

/-- Of a file that a search finds nothing but the permission to read it may be missing. -/
theorem Search.read_cases {tree : Tree} {list : List Path} {path : Path}
    (search : Search tree list (.ok (some path))) :
    (∃ bytes, tree.read path = .ok bytes) ∨ tree.read path = .error .permissionDenied := by
  generalize same : (Except.ok (some path) : Except ConfigFault (Option Path)) = result at search
  induction search with
  | nowhere | unknown => cases same
  | further _ _ ih => exact ih same
  | here found =>
      cases same
      unfold Tree.isFile at found
      unfold Tree.read
      cases looked : tree.lookup path with
      | error fault =>
          rw [looked] at found
          cases fault <;> cases found
      | ok reached =>
          obtain ⟨location, node⟩ := reached
          cases node with
          | file bytes => exact .inl ⟨bytes, rfl⟩
          | unreadable => exact .inr rfl
          | directory =>
              rw [looked] at found
              cases found

/-- A search is broken off only at a path that is too long. -/
theorem Search.exists_nameTooLong {tree : Tree} {list : List Path} {fault : ConfigFault}
    (search : Search tree list (.error fault)) : ∃ path, fault = .noAccess path .nameTooLong := by
  generalize same : (Except.error fault : Except ConfigFault (Option Path)) = result at search
  induction search with
  | nowhere | here => cases same
  | further _ _ ih => exact ih same
  | unknown failed =>
      cases same
      unfold Tree.isFile at failed
      split at failed
      · cases failed
      · cases failed
      · cases failed
        exact ⟨_, rfl⟩
      · cases failed

/-! ## The file -/

theorem ofContents_encodeUtf8 (path : Path) (text : Text) :
    ofContents path (.ok (encodeUtf8 text)) =
      match Toml.parse text with
      | .ok document => ofDocument document
      | .error .invalid => .ok (standard, [.unreadableConfig path (.notToml text)])
      | .error (.limit fault) => .error (.limit fault) := by
  have decoded : decodeUtf8 (encodeUtf8 text) = .ok text := File.decodeUtf8_eq_ok_iff.mpr rfl
  rw [ofContents, decoded]
  rfl

theorem ofContents_notUtf8 {bytes : List UInt8} {fault : File.Utf8Fault} (path : Path)
    (failed : decodeUtf8 bytes = .error fault) :
    ofContents path (.ok bytes) = .error (.notUtf8 fault) := by
  rw [ofContents, failed]
  rfl

/-- The nearest file with settings for a directory stands under this path and holds these bytes. -/
structure Supplies (tree : Tree) (directory path : Path) (bytes : List UInt8) : Prop where
  nearest : Search tree (places directory) (.ok (some path))
  readable : tree.read path = .ok bytes

/-- What loading the settings for a directory comes to. -/
inductive Loads (tree : Tree) (directory : Path) :
    Except ConfigFault (Config × List LogEntry) → Prop where
  | absent : Search tree (places directory) (.ok none) →
      Loads tree directory (.ok (standard, []))
  | unreadable {path : Path} : Search tree (places directory) (.ok (some path)) →
      tree.read path = .error .permissionDenied →
      Loads tree directory (.ok (standard, [.unreadableConfig path (.noAccess .permissionDenied)]))
  | invalid {path : Path} {text : Text} : Supplies tree directory path (encodeUtf8 text) →
      Toml.parse text = .error .invalid →
      Loads tree directory (.ok (standard, [.unreadableConfig path (.notToml text)]))
  | described {path : Path} {text : Text} {document : Toml.Table} {config : Config}
      {log : List LogEntry} :
      Supplies tree directory path (encodeUtf8 text) → Toml.parse text = .ok document →
      Describes (.table document) config log → Loads tree directory (.ok (config, log))
  | mistyped {path : Path} {text : Text} {document : Toml.Table} {fault : ConfigFault} :
      Supplies tree directory path (encodeUtf8 text) → Toml.parse text = .ok document →
      FaultIn (.table document) fault → Loads tree directory (.error fault)
  | notUtf8 {path : Path} {bytes : List UInt8} {fault : File.Utf8Fault} :
      Supplies tree directory path bytes → decodeUtf8 bytes = .error fault →
      Loads tree directory (.error (.notUtf8 fault))
  | beyondLimit {path : Path} {text : Text} {fault : LimitFault} :
      Supplies tree directory path (encodeUtf8 text) →
      Toml.parse text = .error (.limit fault) → Loads tree directory (.error (.limit fault))
  | tooLong {path : Path} :
      Search tree (places directory) (.error (.noAccess path .nameTooLong)) →
      Loads tree directory (.error (.noAccess path .nameTooLong))

section Loading

variable {tree : Tree} {directory : Path}

theorem load_of_found {path : Path} (search : Search tree (places directory) (.ok (some path))) :
    load tree directory = ofContents path (tree.read path) := by
  rw [load, find?_eq_iff.mpr search]
  rfl

theorem Supplies.load_eq {path : Path} {bytes : List UInt8}
    (supplies : Supplies tree directory path bytes) :
    load tree directory = ofContents path (.ok bytes) := by
  rw [load_of_found supplies.nearest, supplies.readable]

theorem Loads.load_eq {result : Except ConfigFault (Config × List LogEntry)}
    (loads : Loads tree directory result) : load tree directory = result := by
  cases loads with
  | absent search =>
      rw [load, find?_eq_iff.mpr search]
      rfl
  | tooLong search =>
      rw [load, find?_eq_iff.mpr search]
      rfl
  | unreadable search denied =>
      rw [load_of_found search, denied]
      rfl
  | invalid supplies parsed => rw [supplies.load_eq, ofContents_encodeUtf8, parsed]
  | described supplies parsed describes =>
      rw [supplies.load_eq, ofContents_encodeUtf8, parsed]
      exact ofDocument_eq_ok_iff.mpr describes
  | mistyped supplies parsed faulty =>
      rw [supplies.load_eq, ofContents_encodeUtf8, parsed]
      exact ofDocument_eq_error_iff.mpr faulty
  | notUtf8 supplies failed => rw [supplies.load_eq, ofContents_notUtf8 _ failed]
  | beyondLimit supplies parsed => rw [supplies.load_eq, ofContents_encodeUtf8, parsed]

theorem exists_loads_of_supplies {path : Path} {bytes : List UInt8}
    (supplies : Supplies tree directory path bytes) : ∃ result, Loads tree directory result := by
  cases decoded : decodeUtf8 bytes with
  | error fault => exact ⟨_, .notUtf8 supplies decoded⟩
  | ok text =>
      rw [← File.decodeUtf8_eq_ok_iff.mp decoded] at supplies
      cases parsed : Toml.parse text with
      | error fault =>
          cases fault with
          | invalid => exact ⟨_, .invalid supplies parsed⟩
          | limit fault => exact ⟨_, .beyondLimit supplies parsed⟩
      | ok document =>
          cases given : ofDocument document with
          | error fault =>
              exact ⟨_, .mistyped supplies parsed (ofDocument_eq_error_iff.mp given)⟩
          | ok settings =>
              obtain ⟨config, log⟩ := settings
              exact ⟨_, .described supplies parsed (ofDocument_eq_ok_iff.mp given)⟩

theorem exists_loads (tree : Tree) (directory : Path) : ∃ result, Loads tree directory result := by
  have search : Search tree (places directory) _ := find?_eq_iff.mp rfl
  generalize find? tree directory directory.components.length = found at search
  cases found with
  | error fault =>
      obtain ⟨path, rfl⟩ := search.exists_nameTooLong
      exact ⟨_, .tooLong search⟩
  | ok path? =>
      cases path? with
      | none => exact ⟨_, .absent search⟩
      | some path =>
          rcases search.read_cases with ⟨bytes, readable⟩ | denied
          · exact exists_loads_of_supplies ⟨search, readable⟩
          · exact ⟨_, .unreadable search denied⟩

theorem load_eq_iff {result : Except ConfigFault (Config × List LogEntry)} :
    load tree directory = result ↔ Loads tree directory result := by
  constructor
  · intro loaded
    obtain ⟨other, loads⟩ := exists_loads tree directory
    rw [← loaded, loads.load_eq]
    exact loads
  · exact Loads.load_eq

end Loading

/-- When there are settings for a directory: none are given, a file counts as giving none, or every
value in it that has to be of a certain kind is of that kind. -/
inductive Loadable (tree : Tree) (directory : Path) : Prop where
  | absent : (∀ path ∈ places directory, tree.isFile path = .ok false) → Loadable tree directory
  | unreadable {path : Path} : Search tree (places directory) (.ok (some path)) →
      tree.read path = .error .permissionDenied → Loadable tree directory
  | invalid {path : Path} {text : Text} : Supplies tree directory path (encodeUtf8 text) →
      Toml.parse text = .error .invalid → Loadable tree directory
  | typed {path : Path} {text : Text} {document : Toml.Table} :
      Supplies tree directory path (encodeUtf8 text) → Toml.parse text = .ok document →
      WellTyped (.table document) → Loadable tree directory

theorem exists_load_iff {tree : Tree} {directory : Path} :
    (∃ config log, load tree directory = .ok (config, log)) ↔ Loadable tree directory := by
  simp only [load_eq_iff]
  constructor
  · intro loads
    obtain ⟨config, log, loads⟩ := loads
    generalize same : (Except.ok (config, log) : Except ConfigFault _) = result at loads
    cases loads with
    | absent search => exact .absent (Search.nowhere_iff.mp search)
    | unreadable search denied => exact .unreadable search denied
    | invalid supplies parsed => exact .invalid supplies parsed
    | described supplies parsed describes =>
        cases same
        have typed := exists_ofDocument_iff.mp ⟨_, _, ofDocument_eq_ok_iff.mpr describes⟩
        exact .typed supplies parsed typed
    | mistyped | notUtf8 | beyondLimit | tooLong => cases same
  · intro loadable
    cases loadable with
    | absent missed => exact ⟨_, _, .absent (Search.nowhere_iff.mpr missed)⟩
    | unreadable search denied => exact ⟨_, _, .unreadable search denied⟩
    | invalid supplies parsed => exact ⟨_, _, .invalid supplies parsed⟩
    | typed supplies parsed typed =>
        obtain ⟨config, log, given⟩ := exists_ofDocument_iff.mpr typed
        exact ⟨config, log, .described supplies parsed (ofDocument_eq_ok_iff.mp given)⟩

structure LoadsSettings (tree : Tree) (directory : Path) : Prop where
  outcome : ∀ result, load tree directory = result ↔ Loads tree directory result
  returns : (∃ config log, load tree directory = .ok (config, log)) ↔ Loadable tree directory
  contents : ∀ path, Search tree (places directory) (.ok (some path)) →
    load tree directory = ofContents path (tree.read path)
  /-- A file that cannot be read counts as giving no settings. -/
  unreadable : ∀ path fault,
    ofContents path (.error fault) = .ok (standard, [.unreadableConfig path (.noAccess fault)])
  /-- A file that holds the bytes of no text is a fault. -/
  undecodable : ∀ path bytes, Supplies tree directory path bytes →
    (∀ text, encodeUtf8 text ≠ bytes) → ∃ fault, load tree directory = .error (.notUtf8 fault)

theorem loadsSettings (tree : Tree) (directory : Path) : LoadsSettings tree directory := by
  constructor
  case outcome => exact fun _ => load_eq_iff
  case returns => exact exists_load_iff
  case contents => exact fun _ search => load_of_found search
  case unreadable => exact fun _ _ => rfl
  case undecodable =>
    intro path bytes supplies noText
    cases decoded : decodeUtf8 bytes with
    | ok text => exact absurd (File.decodeUtf8_eq_ok_iff.mp decoded) (noText text)
    | error fault => exact ⟨fault, load_eq_iff.mpr (.notUtf8 supplies decoded)⟩

/-- A tree with a file of settings at its root. -/
def holding (bytes : List UInt8) : Tree :=
  ⟨[([fileName], .file bytes)], []⟩

/-- Settings are not loaded from every file: one is no text, in one there is a number for a table, and
in one a number for a rule name. -/
theorem not_loads_every_file :
    load (holding [0xFF]) ⟨['/'], []⟩ = .error (.notUtf8 ⟨.invalidStart, 0, 1, 0xFF⟩) ∧
      load (holding (encodeUtf8 "tool = 1".toList)) ⟨['/'], []⟩ =
        .error (.lacksOperation "int" "get") ∧
      load (holding (encodeUtf8 "[tool.cellint]\nselect = [1]".toList)) ⟨['/'], []⟩ =
        .error (.lacksOperation "int" "strip") ∧
      ¬ ∀ tree directory, ∃ config log, load tree directory = .ok (config, log) := by
  have bytes : load (holding [0xFF]) ⟨['/'], []⟩ =
      .error (.notUtf8 ⟨.invalidStart, 0, 1, 0xFF⟩) := by decide +kernel
  refine ⟨bytes, by decide +kernel, by decide +kernel, ?_⟩
  intro returns
  obtain ⟨config, log, loaded⟩ := returns (holding [0xFF]) ⟨['/'], []⟩
  cases bytes.symm.trans loaded

/-- A number for the severity and one for the options of a rule. -/
example :
    (load (holding (encodeUtf8 "[tool.cellint]\nmin_severity = 1\nrules.empty_cells = 2".toList))
      ⟨['/'], []⟩).isOk = true := by
  decide +kernel

/-- A file that is found and may not be read. -/
example :
    (load ⟨[([fileName], .unreadable)], []⟩ ⟨['/'], []⟩).toOption.map Prod.snd =
      some [.unreadableConfig ⟨['/'], [fileName]⟩ (.noAccess .permissionDenied)] := by
  decide +kernel

end NotebookLint.Config
