import ForthAsm.Files.Location

/-!
# Trees of files

Files and directories, and a working directory among them. The working directory and all that
stands above it are always directories; beside them stands only what was put there. A path leads
to a place, for reading, or names a place where a file can be put, for writing.

Main statement: `find?_put` says what a tree holds after a change.
-/

namespace ForthAsm

/-- What stands at a place. -/
inductive Node where
  /-- A regular file with its content. -/
  | file (content : List UInt8)
  /-- A directory. -/
  | directory
  deriving DecidableEq, Repr

/-- Files and directories, seen from a working directory. -/
structure Tree where
  /-- The working directory. -/
  home : Location
  /-- What stands where; of two entries for a place the first one counts. -/
  entries : List (Location × Node)
  deriving DecidableEq, Repr

namespace Tree

/-- The tree whose only directories are a working directory and those above it. -/
def emptyAt (home : Location) : Tree := ⟨home, []⟩

/-- An empty working directory. -/
def empty : Tree := emptyAt ⟨["home", "work"]⟩

/-- What stands at a place, if anything does. -/
def find? (tree : Tree) (location : Location) : Option Node :=
  if location.isOnWayTo tree.home then some .directory else tree.entries.lookup location

/-- The tree with something new at a place, instead of what stood there. -/
def put (tree : Tree) (location : Location) (node : Node) : Tree :=
  { tree with entries := (location, node) :: tree.entries.filter (·.1 ≠ location) }

/-- Where the names of a path are followed from. -/
def start (tree : Tree) (path : Path) : Location :=
  if path.isAbsolute then .root else tree.home

/-- A change does not move the working directory. -/
@[simp]
theorem start_put (tree : Tree) (location : Location) (node : Node) (path : Path) :
    (tree.put location node).start path = tree.start path := rfl

/-- Taking away the entries of one place leaves those of the others. -/
theorem lookup_filter_ne {place location : Location} (apart : location ≠ place)
    (entries : List (Location × Node)) :
    (entries.filter (·.1 ≠ place)).lookup location = entries.lookup location := by
  induction entries with
  | nil => rfl
  | cons entry entries ih =>
    obtain ⟨other, node⟩ := entry
    by_cases same : other = place
    · have differs : (location == place) = false := by simpa using apart
      simp [same, List.lookup_cons, differs, ← ih]
    · simp only [ne_eq, decide_not] at ih
      simp [same, List.lookup_cons, ih]

/-- A change where no directory stands is seen at its place and nowhere else. -/
theorem find?_put {tree : Tree} {place : Location} (free : tree.find? place ≠ some .directory)
    (node : Node) (location : Location) :
    (tree.put place node).find? location =
      if location = place then some node else tree.find? location := by
  have beside : place.isOnWayTo tree.home = false := by
    cases way : place.isOnWayTo tree.home with
    | false => rfl
    | true => exact absurd (by simp [find?, way]) free
  by_cases same : location = place
  · subst same
    simp [find?, put, beside]
  · have other : (location == place) = false := by simpa using same
    have kept := lookup_filter_ne same tree.entries
    rw [find?, put, List.lookup_cons, other, kept, if_neg same]
    rfl

/-- Of two changes at one place the second one counts. -/
@[simp]
theorem put_put (tree : Tree) (location : Location) (first second : Node) :
    (tree.put location first).put location second = tree.put location second := by
  simp [put]

/-- Follow one name from a place. -/
def enter (tree : Tree) (location : Location) (name : String) : Except IoFailure Location :=
  if tree.find? location ≠ some .directory then .error .notDirectory
  else if name = "." then .ok location
  else if name = ".." then .ok location.parent
  else if Path.nameLimit < name.utf8ByteSize then .error .nameTooLong
  else if (tree.find? (location.child name)).isNone then .error .notFound
  else .ok (location.child name)

/-- Follow names from a place, one after another. -/
def walk (tree : Tree) (location : Location) : List String → Except IoFailure Location
  | [] => .ok location
  | name :: names =>
    match tree.enter location name with
    | .ok location => tree.walk location names
    | .error cause => .error cause

/-- The place that a path leads to. A path that ends in a slash leads to directories only. -/
def locate (tree : Tree) (path : String) : Except IoFailure Location :=
  match Path.parse path with
  | .error cause => .error cause
  | .ok path =>
    match tree.walk (tree.start path) path.names with
    | .error cause => .error cause
    | .ok location =>
      if path.endsInSlash ∧ tree.find? location ≠ some .directory then .error .notDirectory
      else .ok location

/-- The content of the file that a path leads to. -/
def read (tree : Tree) (path : String) : Except IoFailure (List UInt8) :=
  match tree.locate path with
  | .error cause => .error cause
  | .ok location =>
    match tree.find? location with
    | some (.file content) => .ok content
    | _ => .error .isDirectory

/-- The place of a file with a given name in a directory, if a file can be written there. -/
def slot (tree : Tree) (parent : Location) (name : String) (endsInSlash : Bool) :
    Except IoFailure Location :=
  if tree.find? parent ≠ some .directory then .error .notDirectory
  else if name = "." ∨ name = ".." ∨ endsInSlash then .error .isDirectory
  else if Path.nameLimit < name.utf8ByteSize then .error .nameTooLong
  else if tree.find? (parent.child name) = some .directory then .error .isDirectory
  else .ok (parent.child name)

/-- The place that a path names for writing, if a file can be written there. -/
def target (tree : Tree) (path : String) : Except IoFailure Location :=
  match Path.parse path with
  | .error cause => .error cause
  | .ok path =>
    match path.names.getLast? with
    | none => .error .isDirectory
    | some name =>
      match tree.walk (tree.start path) path.names.dropLast with
      | .error cause => .error cause
      | .ok parent => tree.slot parent name path.endsInSlash

/-- The directories on the way along some names, those that are missing made. -/
def reach (tree : Tree) (location : Location) : List String → Location × Tree
  | [] => (location, tree)
  | name :: names =>
    if name = "." then tree.reach location names
    else if name = ".." then tree.reach location.parent names
    else if (tree.find? (location.child name)).isSome then tree.reach (location.child name) names
    else (tree.put (location.child name) .directory).reach (location.child name) names

/-- The tree with a directory at a path and with all directories above it. -/
def withDirectory (tree : Tree) (path : String) : Tree :=
  match Path.parse path with
  | .error _ => tree
  | .ok path => (tree.reach (tree.start path) path.names).2

/-- The tree with a file at a path and with all directories above it. -/
def withFile (tree : Tree) (path : String) (content : List UInt8) : Tree :=
  match Path.parse path with
  | .error _ => tree
  | .ok path =>
    match path.names.getLast? with
    | none => tree
    | some name =>
      let (parent, tree) := tree.reach (tree.start path) path.names.dropLast
      tree.put (parent.child name) (.file content)

end Tree

end ForthAsm
