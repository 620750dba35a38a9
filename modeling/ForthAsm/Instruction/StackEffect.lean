/-!
# Stack effects

The effect of an instruction on the depth of the stack: how many slots it takes away and how
many it leaves instead.
-/

namespace ForthAsm

/-- How many slots are taken from the stack and how many are put on it afterwards. -/
structure StackEffect where
  /-- The number of slots taken. -/
  pops : UInt8
  /-- The number of slots put on the stack. -/
  pushes : UInt8
  deriving DecidableEq, Repr

namespace StackEffect

/-- The change of the depth of the stack. -/
def delta (effect : StackEffect) : Int :=
  effect.pushes.toNat - effect.pops.toNat

/-- The effect as a stack comment. -/
def text (effect : StackEffect) : String :=
  "( " ++ toString effect.pops.toNat ++ " -- " ++ toString effect.pushes.toNat ++ " )"

end StackEffect

end ForthAsm
