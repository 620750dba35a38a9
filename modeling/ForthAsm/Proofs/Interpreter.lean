import ForthAsm.Proofs.Lowering

/-!
# Interpreting words

What the words of a program ask for, word by word and without any code: a session has a stack
of 64-bit words and the numbers it has printed. Sums and products wrap around, printed words
are taken as signed numbers, and words without a meaning are passed over. A word that needs
more of the stack than there is has no next session.

Main statement: `Session.act_of_pops`, an instruction that finds as many words on the stack as
its declared effect takes does change the depth as declared.
-/

namespace ForthAsm

/-- The state of an interpreter between two words. -/
structure Session where
  /-- The stack, its top first. -/
  stack : List UInt64
  /-- The numbers that were printed, the first one first. -/
  printed : List Int
  deriving DecidableEq, Repr

namespace Session

/-- Nothing is on the stack and nothing was printed. -/
def start : Session := ⟨[], []⟩

/-- Replace the top of the stack by some words, the new top first. -/
def replaceOne (session : Session) (words : UInt64 → List UInt64) : Option Session :=
  match session.stack with
  | top :: rest => some { session with stack := words top ++ rest }
  | _ => none

/-- Replace the two topmost words by some words, the new top first. -/
def replaceTwo (session : Session) (words : UInt64 → UInt64 → List UInt64) : Option Session :=
  match session.stack with
  | top :: second :: rest => some { session with stack := words top second ++ rest }
  | _ => none

/-- Print the top of the stack and take it away. -/
def print (session : Session) : Option Session :=
  match session.stack with
  | top :: rest => some ⟨rest, session.printed ++ [top.toInt64.toInt]⟩
  | _ => none

/-- Print the whole stack, the oldest word first. -/
def dump (session : Session) : Session :=
  { session with
    printed := session.printed ++ session.stack.reverse.map fun word => word.toInt64.toInt }

/-- Do what a word asks for. -/
def obey (session : Session) (text : String) : Option Session :=
  if Literal.IsDigits text then
    some { session with stack := UInt64.ofNat (Literal.placeValue text) :: session.stack }
  else
    match text with
    | "dup" => session.replaceOne fun top => [top, top]
    | "*" => session.replaceTwo fun top second => [second * top]
    | "+" => session.replaceTwo fun top second => [second + top]
    | "swap" => session.replaceTwo fun top second => [second, top]
    | "nip" => session.replaceTwo fun top _ => [top]
    | "tuck" => session.replaceTwo fun top second => [top, second, top]
    | "." => session.print
    | ".s" => some session.dump
    | _ => some session

/-- Do what some words ask for, one after the other. -/
def obeyAll (session : Session) (words : List Word) : Option Session :=
  words.foldlM (fun session word => session.obey word.text) session

/-- Do what an instruction stands for. -/
def act (session : Session) : Instruction → Option Session
  | .push value => some { session with stack := value :: session.stack }
  | .duplicate => session.replaceOne fun top => [top, top]
  | .multiply => session.replaceTwo fun top second => [second * top]
  | .print => session.print
  | .add => session.replaceTwo fun top second => [second + top]
  | .swap => session.replaceTwo fun top second => [second, top]
  | .nip => session.replaceTwo fun top _ => [top]
  | .tuck => session.replaceTwo fun top second => [top, second, top]
  | .dump _ => some session.dump
  | .unrecognized _ => some session

/-- A word asks for what its instruction stands for. -/
theorem obey_eq_act (session : Session) (before : Nat) (text : String) :
    session.obey text = session.act (Instruction.ofText before text) := by
  unfold obey Instruction.ofText
  split
  · rfl
  · split
    all_goals try rfl
    rename_i other
    rw [if_neg (show text ≠ Instruction.dumpName from other)]
    unfold Instruction.ofName?
    split
    all_goals first
      | contradiction
      | rfl

/-- Where the top of the stack was replaced there was one. -/
theorem replaceOne_eq_some {session later : Session} {words : UInt64 → List UInt64}
    (replaced : session.replaceOne words = some later) :
    ∃ top rest, session.stack = top :: rest ∧ later = ⟨words top ++ rest, session.printed⟩ := by
  unfold replaceOne at replaced
  split at replaced
  · rename_i top rest shape
    exact ⟨top, rest, shape, (Option.some.inj replaced).symm⟩
  · contradiction

/-- Where the two topmost words were replaced there were two. -/
theorem replaceTwo_eq_some {session later : Session} {words : UInt64 → UInt64 → List UInt64}
    (replaced : session.replaceTwo words = some later) :
    ∃ top second rest, session.stack = top :: second :: rest ∧
      later = ⟨words top second ++ rest, session.printed⟩ := by
  unfold replaceTwo at replaced
  split at replaced
  · rename_i top second rest shape
    exact ⟨top, second, rest, shape, (Option.some.inj replaced).symm⟩
  · contradiction

/-- Where a word was printed there was one. -/
theorem print_eq_some {session later : Session} (printed : session.print = some later) :
    ∃ top rest, session.stack = top :: rest ∧
      later = ⟨rest, session.printed ++ [top.toInt64.toInt]⟩ := by
  unfold print at printed
  split at printed
  · rename_i top rest shape
    exact ⟨top, rest, shape, (Option.some.inj printed).symm⟩
  · contradiction

/-- An instruction that finds as many words as it takes changes the depth by its effect. -/
theorem act_of_pops {session : Session} {instruction : Instruction}
    (deep : instruction.effect.pops.toNat ≤ session.stack.length) :
    ∃ later, session.act instruction = some later ∧
      (later.stack.length : Int) = session.stack.length + instruction.effect.delta := by
  obtain ⟨stack, printed⟩ := session
  cases instruction with
  | push value => exact ⟨_, rfl, rfl⟩
  | dump loop => exact ⟨_, rfl, (Int.add_zero _).symm⟩
  | unrecognized text => exact ⟨_, rfl, (Int.add_zero _).symm⟩
  | duplicate | print =>
    obtain _ | ⟨top, rest⟩ := stack
    · contradiction
    · refine ⟨_, rfl, ?_⟩
      simp only [Instruction.effect, StackEffect.delta, List.cons_append, List.nil_append,
        List.length_cons, UInt8.reduceToNat]
      omega
  | multiply | add | swap | nip | tuck =>
    obtain _ | ⟨top, _ | ⟨second, rest⟩⟩ := stack
    · contradiction
    · contradiction
    · refine ⟨_, rfl, ?_⟩
      simp only [Instruction.effect, StackEffect.delta, List.cons_append, List.nil_append,
        List.length_cons, UInt8.reduceToNat]
      omega

/-- The first word asks for what its instruction stands for, and the others follow. -/
theorem obeyAll_cons (session : Session) (before : Nat) (word : Word) (words : List Word) :
    session.obeyAll (word :: words) =
      (session.act (Instruction.ofText before word.text)).bind fun later =>
        later.obeyAll words := by
  rw [obeyAll, List.foldlM_cons, obey_eq_act session before]
  rfl

end Session

end ForthAsm
