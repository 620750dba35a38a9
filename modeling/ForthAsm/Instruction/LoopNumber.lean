/-!
# Loop numbers

Code with a loop of its own needs labels that no other code has. A supply hands out numbers
one after another, and each number names the two ends of one loop. Numbers are 32-bit words.
-/

namespace ForthAsm

/-- The number of a loop. -/
structure LoopNumber where
  /-- How many numbers were handed out before this one. -/
  index : UInt32
  deriving DecidableEq, Repr

/-- Numbers are ordered as they are handed out. -/
instance : Ord LoopNumber where
  compare left right := compare left.index right.index

namespace LoopNumber

/-- The ending that a number gives to the labels of its loop. -/
def text (loop : LoopNumber) : String :=
  "_" ++ toString loop.index.toNat

/-- The label at the top of a loop. -/
def topName (loop : LoopNumber) : String :=
  "dots_loop" ++ loop.text

/-- The label behind a loop. -/
def endName (loop : LoopNumber) : String :=
  "dots_done" ++ loop.text

end LoopNumber

/-- A supply of loop numbers. -/
structure LoopSupply where
  /-- How many numbers were handed out so far. -/
  drawn : UInt32
  deriving DecidableEq, Repr

namespace LoopSupply

/-- A supply that has handed out nothing. -/
def fresh : LoopSupply := ⟨0⟩

/-- The next number, and the supply without it. -/
def draw (supply : LoopSupply) : LoopNumber × LoopSupply :=
  (⟨supply.drawn⟩, ⟨supply.drawn + 1⟩)

/-- The supply after a number of draws. -/
def drawMany (supply : LoopSupply) : Nat → LoopSupply
  | 0 => supply
  | count + 1 => supply.draw.2.drawMany count

/-- Drawing advances the count by one, as long as a number is left. -/
theorem toNat_drawn_draw {supply : LoopSupply} (room : supply.drawn.toNat + 1 < UInt32.size) :
    supply.draw.2.drawn.toNat = supply.drawn.toNat + 1 := by
  have limit : UInt32.size = 4294967296 := rfl
  simp only [draw, UInt32.toNat_add, UInt32.toNat_one]
  omega

end LoopSupply

end ForthAsm
