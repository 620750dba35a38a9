import ForthAsm.Files.Tree
import ForthAsm.Source.Delivery

/-!
# File systems

To compile a file, a source is opened and read, and an output is opened and written. Whatever
answers these calls is a file system; its answers and effects live in a monad, so that the same
program runs on the files of a machine and on a tree of files. A file that is open for reading is
known by what it delivers: reading may break off although opening did not fail, and a directory
can be opened but not read.

`Tree.system` answers the calls with a tree. A place of the tree may have a guard, which refuses
to open a file, breaks off its reading, or refuses to write there.
-/

namespace ForthAsm

/-- The calls on files that a compilation makes, in the monad that has their effects. -/
structure FileSystem (m : Type → Type) (Handle : Type) where
  /-- Open a file for reading. The answer is what reading the open file delivers. -/
  openSource (path : String) : m (Except IoFailure (List Delivery))
  /-- Open a file for writing. What it holds is lost, and a file that is missing is made. -/
  create (path : String) : m (Except IoFailure Handle)
  /-- Write bytes behind those that were written to an open file. -/
  append (handle : Handle) (content : List UInt8) : m (Except IoFailure Unit)

/-- Replace the content of a file, or make the file. -/
def FileSystem.write {m : Type → Type} [Monad m] {Handle : Type} (system : FileSystem m Handle)
    (path : String) (content : List UInt8) : m (Except IoFailure Unit) := do
  match ← system.create path with
  | .error cause => return .error cause
  | .ok handle => system.append handle content

/-- What a place refuses, and why. -/
structure Guard where
  /-- The file is not opened for reading. -/
  opening : Option IoFailure
  /-- Reading the file breaks off behind a number of bytes. -/
  reading : Option (Nat × IoFailure)
  /-- No file is opened for writing. -/
  writing : Option IoFailure
  deriving DecidableEq, Repr

/-- The guard of a place that refuses nothing. -/
def Guard.free : Guard := ⟨none, none, none⟩

/-- The delivery of some bytes in one piece. Without bytes there is none: the next request finds
the end of the stream. -/
def Delivery.ofContent (content : List UInt8) : List Delivery :=
  if content.isEmpty then [] else [.bytes content]

/-- What is delivered when the open file is read that stands behind a guard. -/
def Node.deliveries (guard : Guard) : Node → List Delivery
  | .directory => [.failure .isDirectory]
  | .file content =>
    match guard.reading with
    | none => Delivery.ofContent content
    | some (count, cause) => Delivery.ofContent (content.take count) ++ [.failure cause]

namespace Tree

/-- Open the file that a path leads to, and find what reading it delivers. -/
def openSource (guards : Location → Guard) (tree : Tree) (path : String) :
    Except IoFailure (List Delivery) :=
  match tree.locate path with
  | .error cause => .error cause
  | .ok location =>
    match (guards location).opening, tree.find? location with
    | some cause, _ => .error cause
    | none, some node => .ok (node.deliveries (guards location))
    | none, none => .error .notFound

/-- Put an empty file where a path names a place for writing. -/
def create (guards : Location → Guard) (tree : Tree) (path : String) :
    Except IoFailure Location × Tree :=
  match tree.target path with
  | .error cause => (.error cause, tree)
  | .ok location =>
    match (guards location).writing with
    | some cause => (.error cause, tree)
    | none => (.ok location, tree.put location (.file []))

/-- Write bytes behind those of the file at a place. -/
def append (tree : Tree) (location : Location) (content : List UInt8) :
    Except IoFailure Unit × Tree :=
  match tree.find? location with
  | some (.file before) => (.ok (), tree.put location (.file (before ++ content)))
  | _ => (.error .isDirectory, tree)

/-- The file system of a tree whose places have guards. -/
def system (guards : Location → Guard) : FileSystem (StateM Tree) Location where
  openSource path := fun tree => (tree.openSource guards path, tree)
  create path := fun tree => tree.create guards path
  append location content := fun tree => tree.append location content

/-- The file system of a tree that refuses nothing. -/
def freeSystem : FileSystem (StateM Tree) Location :=
  system fun _ => .free

end Tree

end ForthAsm
