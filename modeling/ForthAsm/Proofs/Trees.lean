import ForthAsm.Files.System
import ForthAsm.Proofs.Deliveries

/-!
# Lawful file systems

What a program can rely on when it uses files, without knowing when a file can be opened. Reading
changes nothing, and an open file delivers what stands where its path leads, or it breaks off.
Opening a file for writing fails without effect or leaves an empty file, to which bytes can be
written; nothing else changes, and all paths lead where they led. How paths lead to places is left
open, so two paths may lead to one place.

Main statement: `Tree.lawful_system`, a tree of files is lawful, whatever its guards refuse.
-/

namespace ForthAsm

/-- What can be seen of the files in a state. -/
structure View (State Place : Type) where
  /-- The place that a path leads to. -/
  place? : State → String → Option Place
  /-- What stands at a place. -/
  node? : State → Place → Option Node

/-- A file was made or replaced where a path leads, and nothing else has changed. -/
structure View.Replaced {State Place : Type} (view : View State Place) (before after : State)
    (path : String) (place : Place) (content : List UInt8) : Prop where
  /-- No directory stood at the place. -/
  free : view.node? before place ≠ some .directory
  /-- The path leads to the place. -/
  leads : view.place? after path = some place
  /-- All paths lead where they led. -/
  kept : ∀ other found, view.place? before other = some found →
    view.place? after other = some found
  /-- The file holds the content. -/
  holds : view.node? after place = some (.file content)
  /-- At every other place stands what stood there. -/
  elsewhere : ∀ other, other ≠ place → view.node? after other = view.node? before other

/-- Of two replacements of a file the second one counts. -/
theorem View.Replaced.trans {State Place : Type} {view : View State Place}
    {before between after : State} {path : String} {place : Place} {first second : List UInt8}
    (one : view.Replaced before between path place first)
    (other : view.Replaced between after path place second) :
    view.Replaced before after path place second where
  free := one.free
  leads := other.leads
  kept path found led := other.kept path found (one.kept path found led)
  holds := other.holds
  elsewhere location apart := by
    rw [other.elsewhere location apart, one.elsewhere location apart]

/-- What a program that compiles files relies on. -/
structure FileSystem.Lawful {State Handle Place : Type}
    (system : FileSystem (StateM State) Handle) (view : View State Place) : Prop where
  /-- Opening a file for reading changes nothing. -/
  unchanged : ∀ path state, ((system.openSource path).run state).2 = state
  /-- An open file delivers what stands where its path leads, or it breaks off. -/
  delivered : ∀ path state deliveries, ((system.openSource path).run state).1 = .ok deliveries →
    (∃ cause, Delivery.BreakOff deliveries cause) ∨ ∃ place content,
      view.place? state path = some place ∧ view.node? state place = some (.file content) ∧
        Delivery.HandOver deliveries content
  /-- A file that is not opened for writing is left as it was, and all else too. -/
  refused : ∀ path state cause, ((system.create path).run state).1 = .error cause →
    ((system.create path).run state).2 = state
  /-- A file that is opened for writing is empty, and bytes can be written to it. -/
  created : ∀ path state handle, ((system.create path).run state).1 = .ok handle →
    let empty := ((system.create path).run state).2
    ∃ place, view.Replaced state empty path place [] ∧ ∀ content,
      ((system.append handle content).run empty).1 = .ok () ∧
        view.Replaced empty ((system.append handle content).run empty).2 path place content

namespace Tree

variable {tree : Tree} {location place : Location} {name path : String} {content : List UInt8}

/-- What can be seen of a tree. -/
def view : View Tree Location where
  place? tree path := (tree.locate path).toOption
  node? := find?

/-- A path is seen to lead where it leads. -/
theorem place?_view_iff :
    view.place? tree path = some location ↔ tree.locate path = .ok location := by
  cases led : tree.locate path with
  | error cause => simp [view, led, Except.toOption]
  | ok found => simp [view, led, Except.toOption]

/-- What stands at a place is seen there. -/
theorem node?_view (tree : Tree) (location : Location) :
    view.node? tree location = tree.find? location := rfl

/-- A path that is seen to lead to a file can be read. -/
theorem read_of_view (leads : view.place? tree path = some location)
    (holds : view.node? tree location = some (.file content)) : tree.read path = .ok content := by
  rw [place?_view_iff] at leads
  rw [node?_view] at holds
  simp [read, leads, holds]

/-- What has to hold for a file to be written under a name in a directory. -/
structure IsSlot (tree : Tree) (parent : Location) (name : String) (endsInSlash : Bool)
    (place : Location) : Prop where
  /-- The file stands in a directory. -/
  standing : tree.find? parent = some .directory
  /-- The name is not that of the directory itself. -/
  notSame : name ≠ "."
  /-- The name is not that of the directory above. -/
  notAbove : name ≠ ".."
  /-- The path does not ask for a directory. -/
  plain : endsInSlash = false
  /-- The name is not too long. -/
  short : name.utf8ByteSize ≤ Path.nameLimit
  /-- The place is the one with the name in the directory. -/
  child : place = parent.child name
  /-- No directory stands there. -/
  free : tree.find? place ≠ some .directory

/-- A place that is found for writing can be written. -/
theorem isSlot_of_slot {parent : Location} {endsInSlash : Bool}
    (found : tree.slot parent name endsInSlash = .ok place) :
    tree.IsSlot parent name endsInSlash place := by
  unfold slot at found
  split at found
  · simp at found
  · rename_i directory
    split at found
    · simp at found
    · rename_i ordinary
      split at found
      · simp at found
      · rename_i short
        split at found
        · simp at found
        · rename_i free
          simp only [not_or, Bool.not_eq_true] at ordinary
          simp only [Except.ok.injEq] at found
          subst found
          exact ⟨Decidable.not_not.mp directory, ordinary.1, ordinary.2.1, ordinary.2.2,
            Nat.le_of_not_lt short, rfl, free⟩

/-- A path for writing leads to a directory and ends in a name for the file. -/
theorem exists_slot_of_target (found : tree.target path = .ok place) :
    ∃ parsed parent last, Path.parse path = .ok parsed ∧ parsed.names.getLast? = some last ∧
      tree.walk (tree.start parsed) parsed.names.dropLast = .ok parent ∧
      tree.IsSlot parent last parsed.endsInSlash place := by
  unfold target at found
  split at found
  · simp at found
  · rename_i parsed taken
    split at found
    · simp at found
    · rename_i last ending
      split at found
      · simp at found
      · rename_i parent walked
        exact ⟨parsed, parent, last, taken, ending, walked, isSlot_of_slot found⟩

/-- One name leads on as before if something is put where no directory stands. -/
theorem enter_put {node : Node} {next : Location} (free : tree.find? place ≠ some .directory)
    (entered : tree.enter location name = .ok next) :
    (tree.put place node).enter location name = .ok next := by
  have directory : tree.find? location = some .directory := by
    apply Decidable.byContradiction
    intro other
    simp [enter, other] at entered
  -- What is entered is a directory and the place holds none, so the put is not seen on the way.
  have apart : location ≠ place := by
    rintro rfl
    exact free directory
  have kept : (tree.put place node).find? location = some .directory := by
    rw [find?_put free, if_neg apart, directory]
  unfold enter at entered ⊢
  rw [if_neg (by simp [directory])] at entered
  rw [if_neg (by simp [kept])]
  by_cases same : name = "."
  · simpa [same] using entered
  · by_cases above : name = ".."
    · simpa [above] using entered
    · rw [if_neg same, if_neg above] at entered ⊢
      by_cases long : Path.nameLimit < name.utf8ByteSize
      · simp [long] at entered
      · rw [if_neg long] at entered ⊢
        rw [find?_put free]
        split
        · simp only [Option.isNone_some, Bool.false_eq_true, ↓reduceIte]
          split at entered
          · simp at entered
          · exact entered
        · exact entered

/-- Names lead on as before if something is put where no directory stands. -/
theorem walk_put {node : Node} {names : List String} {reached : Location}
    (free : tree.find? place ≠ some .directory)
    (walked : tree.walk location names = .ok reached) :
    (tree.put place node).walk location names = .ok reached := by
  induction names generalizing location with
  | nil => exact walked
  | cons name names ih =>
    rw [walk] at walked ⊢
    cases entered : tree.enter location name with
    | error cause => simp [entered] at walked
    | ok next =>
      rw [entered] at walked
      rw [enter_put free entered]
      exact ih walked

/-- A last name is followed behind the others. -/
theorem walk_concat {names : List String} {reached : Location}
    (walked : tree.walk location names = .ok reached) :
    tree.walk location (names ++ [name]) = tree.enter reached name := by
  induction names generalizing location with
  | nil =>
    cases walked
    rw [List.nil_append, walk]
    cases tree.enter reached name <;> rfl
  | cons first names ih =>
    rw [walk] at walked
    rw [List.cons_append, walk]
    cases entered : tree.enter location first with
    | error cause => simp [entered] at walked
    | ok next =>
      rw [entered] at walked
      exact ih walked

/-- Paths lead where they led if a file is put where no directory stands. -/
theorem locate_put (free : tree.find? place ≠ some .directory)
    (led : tree.locate path = .ok location) (content : List UInt8) :
    (tree.put place (.file content)).locate path = .ok location := by
  have still : (tree.put place (.file content)).find? location = some .directory ↔
      tree.find? location = some .directory := by
    rw [find?_put free]
    split
    · rename_i same
      simpa [same] using free
    · rfl
  unfold locate at led ⊢
  split at led
  · contradiction
  · rename_i parsed taken
    split at led
    · contradiction
    · rename_i reached walked
      split at led
      · contradiction
      · rename_i proper
        cases led
        have again : (tree.put place (.file content)).walk (tree.start parsed) parsed.names =
            .ok location := walk_put free walked
        rw [start_put, again]
        simp only [ne_eq, still]
        exact if_neg proper

/-- The place that a path names for writing is no directory. -/
theorem free_of_target (found : tree.target path = .ok place) :
    tree.find? place ≠ some .directory := by
  obtain ⟨parsed, parent, last, taken, ending, walked, slot⟩ := exists_slot_of_target found
  exact slot.free

/-- A file that is put where a path names a place for writing is found by the path. -/
theorem locate_of_target (found : tree.target path = .ok place) (content : List UInt8) :
    (tree.put place (.file content)).locate path = .ok place := by
  obtain ⟨parsed, parent, last, taken, ending, walked, slot⟩ := exists_slot_of_target found
  have holds : (tree.put place (.file content)).find? place = some (.file content) := by
    rw [find?_put slot.free, if_pos rfl]
  have apart : parent ≠ place := by
    rintro rfl
    exact slot.free slot.standing
  have standing : (tree.put place (.file content)).find? parent = some .directory := by
    rw [find?_put slot.free, if_neg apart, slot.standing]
  have entered : (tree.put place (.file content)).enter parent last = .ok place := by
    rw [enter, if_neg (by simp [standing]), if_neg slot.notSame, if_neg slot.notAbove,
      if_neg (Nat.not_lt.mpr slot.short), ← slot.child, holds]
    rfl
  have names : parsed.names = parsed.names.dropLast ++ [last] := by
    obtain ⟨before, split⟩ := List.getLast?_eq_some_iff.mp ending
    rw [split, List.dropLast_concat]
  -- The walk to the directory is the one before the write; the new file is one step further.
  have reached : (tree.put place (.file content)).walk (tree.start parsed) parsed.names =
      .ok place := by
    rw [names, walk_concat (walk_put slot.free walked), entered]
  simp [locate, taken, reached, slot.plain]

/-- Putting a file where no directory stands, and where a path then leads, replaces that file. -/
theorem replaced_put (free : tree.find? place ≠ some .directory)
    (leads : (tree.put place (.file content)).locate path = .ok place) :
    view.Replaced tree (tree.put place (.file content)) path place content where
  free := free
  leads := place?_view_iff.mpr leads
  kept other reached led := by
    rw [place?_view_iff] at led ⊢
    exact locate_put free led content
  holds := by
    rw [node?_view, find?_put free, if_pos rfl]
  elsewhere other apart := by
    rw [node?_view, find?_put free, if_neg apart, node?_view]

/-- Where a file is opened for writing, its path names a place and an empty file stands there. -/
theorem create_of_ok {guards : Location → Guard}
    (opened : (tree.create guards path).1 = .ok place) :
    tree.target path = .ok place ∧ (tree.create guards path).2 = tree.put place (.file []) := by
  unfold create at opened ⊢
  split at opened
  · contradiction
  · split at opened
    · contradiction
    · rename_i found _ _
      cases opened
      simp [found]

/-- Where a file is not opened for writing, nothing changes. -/
theorem create_of_error {guards : Location → Guard} {cause : IoFailure}
    (refused : (tree.create guards path).1 = .error cause) :
    (tree.create guards path).2 = tree := by
  unfold create at refused ⊢
  split
  · rfl
  · split
    · rfl
    · simp_all

/-- Bytes are written behind those of a file that was put where no directory stood. -/
theorem append_put (free : tree.find? place ≠ some .directory) (before content : List UInt8) :
    (tree.put place (.file before)).append place content =
      (.ok (), tree.put place (.file (before ++ content))) := by
  simp [append, find?_put free]

end Tree

namespace Delivery

/-- Bytes in one piece carry themselves. -/
theorem carries_ofContent (content : List UInt8) : Carries (ofContent content) content := by
  cases content with
  | nil => exact ⟨by simp [ofContent], rfl⟩
  | cons byte bytes => exact ⟨by simp [ofContent, isPart], by simp [ofContent, Delivery.content]⟩

/-- What stands behind a guard is handed over to its end, or it breaks off. -/
theorem breakOff_or_handOver (guard : Guard) (node : Node) :
    (∃ cause, BreakOff (node.deliveries guard) cause) ∨
      ∃ content, node = .file content ∧ HandOver (node.deliveries guard) content := by
  cases node with
  | directory => exact .inl ⟨.isDirectory, [], [], [], rfl, by simp, rfl⟩
  | file content =>
    rw [Node.deliveries]
    cases guard.reading with
    | none =>
      exact .inr ⟨content, rfl, ofContent content, [], by simp, carries_ofContent content, by simp⟩
    | some broken =>
      obtain ⟨count, cause⟩ := broken
      exact .inl ⟨cause, ofContent (content.take count), content.take count, [], rfl,
        carries_ofContent (content.take count)⟩

end Delivery

namespace Tree

/-- The file system of a tree is lawful, whatever its guards refuse. -/
theorem lawful_system (guards : Location → Guard) : (system guards).Lawful view where
  unchanged _ _ := rfl
  delivered path tree deliveries opened := by
    change tree.openSource guards path = .ok deliveries at opened
    unfold openSource at opened
    split at opened
    · contradiction
    · rename_i location led
      split at opened
      · contradiction
      · rename_i node _ stands
        cases opened
        rcases Delivery.breakOff_or_handOver (guards location) node with
          broken | ⟨content, rfl, whole⟩
        · exact .inl broken
        · exact .inr ⟨location, content, place?_view_iff.mpr led, stands, whole⟩
      · contradiction
  refused _ _ _ refused := create_of_error refused
  created path tree place opened := by
    obtain ⟨found, emptied⟩ := create_of_ok opened
    have free := free_of_target found
    have still : (tree.put place (.file [])).find? place ≠ some .directory := by
      rw [find?_put free, if_pos rfl]
      simp
    intro empty
    rw [show empty = tree.put place (.file []) from emptied]
    refine ⟨place, replaced_put free (locate_of_target found []), ?_⟩
    intro content
    change ((tree.put place (.file [])).append place content).1 = .ok () ∧
      view.Replaced _ ((tree.put place (.file [])).append place content).2 path place content
    rw [append_put free, List.nil_append]
    refine ⟨rfl, ?_⟩
    have leads := locate_of_target found content
    rw [← put_put tree place (.file []) (.file content)] at leads ⊢
    exact replaced_put still leads

end Tree

end ForthAsm
