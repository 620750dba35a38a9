import ForthAsm.Proofs.Machine

/-!
# Stacks in memory

A stack of words lies in memory below the address where it began, the oldest word at the
highest address. `Machine.Holds` says that a machine has a given stack there, its top first;
the other registers and all memory below the stack pointer are left open.

Main statements: pushing and popping do to the stack in memory what they do to the list
(`Machine.Holds.push`, `Machine.Holds.pop`), and whatever keeps the memory from the stack
pointer upwards keeps the stack (`Machine.Holds.of_above`).
-/

namespace ForthAsm

namespace Memory

/-- The places of the bytes of a word. -/
theorem range_eight : List.range 8 = [0, 1, 2, 3, 4, 5, 6, 7] := rfl

/-- A word depends on its eight bytes only. -/
theorem load_congr {memory other : Memory} {address : UInt64}
    (same : ∀ index < 8, memory (address + UInt64.ofNat index) =
      other (address + UInt64.ofNat index)) :
    memory.load address = other.load address := by
  simp only [load, range_eight, List.foldr_cons, List.foldr_nil, same 0 (by decide),
    same 1 (by decide), same 2 (by decide), same 3 (by decide), same 4 (by decide),
    same 5 (by decide), same 6 (by decide), same 7 (by decide)]

/-- The distance from an address to one of the bytes of its word. -/
theorem toNat_add_sub {index : Nat} (small : index < 8) (address : UInt64) :
    (address + UInt64.ofNat index - address).toNat = index := by
  simp only [UInt64.toNat_sub, UInt64.toNat_add, UInt64.toNat_ofNat']
  have bound := address.toNat_lt
  omega

/-- A word that was stored is there. -/
@[simp]
theorem load_store_same (memory : Memory) (address value : UInt64) :
    (memory.store address value).load address = value := by
  have byte : ∀ index < 8, memory.store address value (address + UInt64.ofNat index) =
      byteOf value index := by
    intro index small
    rw [store, toNat_add_sub small, if_pos small]
  have bound := value.toNat_lt
  apply UInt64.toNat_inj.mp
  simp only [load, range_eight, List.foldr_cons, List.foldr_nil, byte 0 (by decide),
    byte 1 (by decide), byte 2 (by decide), byte 3 (by decide), byte 4 (by decide),
    byte 5 (by decide), byte 6 (by decide), byte 7 (by decide), byteOf, UInt8.toNat_ofNat',
    UInt64.toNat_ofNat']
  omega

/-- A word is not changed by a store that is far enough away on both sides. -/
theorem load_store_of_apart {address place : UInt64} (behind : 8 ≤ (place - address).toNat)
    (before : 8 ≤ (address - place).toNat) (memory : Memory) (value : UInt64) :
    (memory.store address value).load place = memory.load place := by
  apply load_congr
  intro index small
  have far : ¬(place + UInt64.ofNat index - address).toNat < 8 := by
    simp only [UInt64.toNat_sub, UInt64.toNat_add, UInt64.toNat_ofNat'] at behind before ⊢
    have bounds := And.intro address.toNat_lt place.toNat_lt
    omega
  rw [store, if_neg far]

/-- A word from the start of a region upwards is not changed by what keeps the region. -/
theorem load_eq_of_above {memory other : Memory} {start address : UInt64}
    (same : ∀ place, start ≤ place → other place = memory place)
    (above : start.toNat ≤ address.toNat) (inside : address.toNat + 8 ≤ UInt64.size) :
    other.load address = memory.load address := by
  apply load_congr
  intro index small
  apply same
  have limit : UInt64.size = 18446744073709551616 := rfl
  rw [UInt64.le_iff_toNat_le, UInt64.toNat_add, UInt64.toNat_ofNat']
  omega

end Memory

namespace Machine

/-- The address of a word of a stack, counted from the oldest one. -/
def slot (base : UInt64) (index : Nat) : UInt64 :=
  base - UInt64.ofNat (8 * (index + 1))

/-- One more word begins eight bytes further down. -/
theorem sub_words_succ (base : UInt64) (count : Nat) :
    base - UInt64.ofNat (8 * (count + 1)) = base - UInt64.ofNat (8 * count) - 8 := by
  have sum : UInt64.ofNat (8 * (count + 1)) = UInt64.ofNat (8 * count) + 8 := by
    rw [Nat.mul_add, UInt64.ofNat_add]
    rfl
  rw [sum]
  grind

/-- The address of a word of a stack as a number. -/
theorem toNat_slot {base : UInt64} {index : Nat} (room : 8 * (index + 1) ≤ base.toNat) :
    (slot base index).toNat = base.toNat - 8 * (index + 1) := by
  have bound := base.toNat_lt
  rw [slot, UInt64.toNat_sub, UInt64.toNat_ofNat']
  omega

/-- The machine has a stack, its top first, below an address that `%rbp` remembers. -/
structure Holds (base : UInt64) (stack : List UInt64) (machine : Machine) : Prop where
  /-- The address where the stack began. -/
  frame : machine.registers .rbp = base
  /-- The stack pointer is behind the last word. -/
  pointer : machine.registers .rsp = base - UInt64.ofNat (8 * stack.length)
  /-- The words, the oldest one first. -/
  slots : ∀ index value, stack.reverse[index]? = some value →
    machine.memory.load (slot base index) = value

namespace Holds

variable {base : UInt64} {stack : List UInt64} {machine other : Machine}

/-- The stack pointer as a number. -/
theorem toNat_pointer (holds : machine.Holds base stack)
    (fits : 8 * stack.length ≤ base.toNat) :
    (machine.registers .rsp).toNat = base.toNat - 8 * stack.length := by
  have bound := base.toNat_lt
  rw [holds.pointer, UInt64.toNat_sub, UInt64.toNat_ofNat']
  omega

/-- An empty stack is there wherever the frame begins at the stack pointer. -/
theorem empty (frame : machine.registers .rbp = machine.registers .rsp) :
    machine.Holds (machine.registers .rsp) [] := by
  refine ⟨frame, ?_, ?_⟩
  · simp
  · intro index value found
    simp at found

/-- Whatever keeps the two pointers and the memory from the stack pointer upwards keeps the
stack. -/
theorem of_above (holds : machine.Holds base stack) (fits : 8 * stack.length ≤ base.toNat)
    (frame : other.registers .rbp = machine.registers .rbp)
    (pointer : other.registers .rsp = machine.registers .rsp)
    (above : ∀ place, machine.registers .rsp ≤ place →
      other.memory place = machine.memory place) : other.Holds base stack := by
  refine ⟨frame.trans holds.frame, pointer.trans holds.pointer, ?_⟩
  intro index value found
  have inside : index < stack.length := by
    simpa using (List.getElem?_eq_some_iff.mp found).1
  have high := base.toNat_lt
  have limit : UInt64.size = 18446744073709551616 := rfl
  have place : (slot base index).toNat = base.toNat - 8 * (index + 1) :=
    toNat_slot (by omega)
  have start := holds.toNat_pointer fits
  rw [Memory.load_eq_of_above above (by omega) (by omega)]
  exact holds.slots index value found

/-- Whatever keeps the two pointers and the memory keeps the stack. -/
theorem of_eq (holds : machine.Holds base stack)
    (frame : other.registers .rbp = machine.registers .rbp)
    (pointer : other.registers .rsp = machine.registers .rsp)
    (memory : other.memory = machine.memory) : other.Holds base stack := by
  refine ⟨frame.trans holds.frame, pointer.trans holds.pointer, ?_⟩
  rw [memory]
  exact holds.slots

/-- The next line finds the same stack. -/
theorem next (holds : machine.Holds base stack) : machine.next.Holds base stack :=
  holds.of_eq rfl rfl rfl

/-- A register that is no part of the stack can be set. -/
theorem set (holds : machine.Holds base stack) {register : Register}
    (free : register ≠ .rbp ∧ register ≠ .rsp) (value : UInt64) :
    (machine.set register value).Holds base stack :=
  holds.of_eq (by simp [Ne.symm free.1]) (by simp [Ne.symm free.2]) rfl

/-- A register that is no part of the stack can be calculated. -/
theorem calculate (holds : machine.Holds base stack) {register : Register}
    (free : register ≠ .rbp ∧ register ≠ .rsp) (value : UInt64) :
    (machine.calculate register value).Holds base stack :=
  holds.of_eq (by simp [Ne.symm free.1]) (by simp [Ne.symm free.2]) rfl

/-- The word behind the last one of a stack is the next one. -/
theorem pointer_sub (holds : machine.Holds base stack) :
    machine.registers .rsp - 8 = slot base stack.length := by
  rw [holds.pointer, slot, sub_words_succ]

/-- A pushed word is the top of the stack. -/
theorem push (holds : machine.Holds base stack)
    (room : 8 * (stack.length + 1) ≤ base.toNat) (value : UInt64) :
    (machine.push value).Holds base (value :: stack) := by
  have memory : (machine.push value).memory =
      machine.memory.store (slot base stack.length) value := by
    rw [← holds.pointer_sub]
    rfl
  refine ⟨?_, ?_, ?_⟩
  · simpa using holds.frame
  · simpa [slot] using holds.pointer_sub
  · intro index word found
    rw [memory]
    rw [List.reverse_cons, List.getElem?_append] at found
    split at found
    · -- An older word: the new one is stored below all of them.
      rename_i inside
      rw [List.length_reverse] at inside
      have high := base.toNat_lt
      have older : (slot base index).toNat = base.toNat - 8 * (index + 1) :=
        toNat_slot (by omega)
      have newer : (slot base stack.length).toNat = base.toNat - 8 * (stack.length + 1) :=
        toNat_slot (by omega)
      rw [Memory.load_store_of_apart]
      · exact holds.slots index word found
      · rw [UInt64.toNat_sub]
        omega
      · rw [UInt64.toNat_sub]
        omega
    · rename_i outside
      obtain ⟨inside, same⟩ := List.getElem?_eq_some_iff.mp found
      have last : index = stack.length := by
        simp only [List.length_reverse, List.length_singleton] at inside outside
        omega
      subst last
      rw [Memory.load_store_same, ← same]
      simp

/-- The word at the stack pointer is the top of the stack. -/
theorem top {value : UInt64} (holds : machine.Holds base (value :: stack)) :
    machine.top = value := by
  have pointer : machine.registers .rsp = slot base stack.length := holds.pointer
  rw [Machine.top, pointer]
  exact holds.slots stack.length value (by simp)

/-- A popped word is gone from the stack. -/
theorem pop {value : UInt64} (holds : machine.Holds base (value :: stack)) {register : Register}
    (free : register ≠ .rbp ∧ register ≠ .rsp) : (machine.pop register).Holds base stack := by
  refine ⟨?_, ?_, ?_⟩
  · simpa [Ne.symm free.1] using holds.frame
  · simp only [registers_pop, Ne.symm free.2, ↓reduceIte, holds.pointer, List.length_cons]
    rw [sub_words_succ, UInt64.sub_add_cancel]
  · intro index word found
    apply holds.slots index word
    rw [List.reverse_cons, List.getElem?_append_left (List.getElem?_eq_some_iff.mp found).1]
    exact found

/-- Moving the stack pointer up by one word drops the top. -/
theorem drop {value : UInt64} (holds : machine.Holds base (value :: stack)) :
    (machine.calculate .rsp (machine.registers .rsp + 8)).Holds base stack := by
  have popped : (machine.pop .rax).Holds base stack := holds.pop (by decide)
  exact ⟨popped.frame, popped.pointer, popped.slots⟩

end Holds

end Machine

end ForthAsm
