import Chip8.Machine.Basic
import Chip8.Machine.Fault

/-!
# The call stack

Return addresses lie in memory, one above the other from the stack's start. The
stack pointer counts them. Their number is checked, their content is not: a
program that writes into the stack changes where its calls return to. Both
operations give the machine after them beside their answer, also where they fail.
-/

namespace Chip8.Machine

/-- Put a return address on the stack, unless all slots are in use. -/
def push (machine : Machine) (address : UInt16) : Except Fault Unit × Machine :=
  if stackSlots ≤ machine.sp then (.error .stackOverflow, machine)
  else (.ok (), { machine with
    memory := machine.memory.setSlot machine.sp address
    sp := machine.sp + 1 })

/-- Take the topmost return address off the stack, unless there is none. -/
def pop (machine : Machine) : Except Fault UInt16 × Machine :=
  match machine.sp with
  | 0 => (.error .stackUnderflow, machine)
  | below + 1 => (.ok (machine.memory.slot below), { machine with sp := below })

/-- On a full stack a push fails. -/
theorem push_of_full (machine : Machine) (address : UInt16) (full : stackSlots ≤ machine.sp) :
    machine.push address = (.error .stackOverflow, machine) :=
  if_pos full

/-- With a free slot a push fills it. -/
theorem push_of_free (machine : Machine) (address : UInt16) (free : machine.sp < stackSlots) :
    machine.push address = (.ok (), { machine with
      memory := machine.memory.setSlot machine.sp address
      sp := machine.sp + 1 }) :=
  if_neg (Nat.not_le_of_lt free)

/-- On an empty stack a pop fails. -/
theorem pop_of_empty (machine : Machine) (empty : machine.sp = 0) :
    machine.pop = (.error .stackUnderflow, machine) := by
  simp only [pop, empty]

/-- With a slot in use a pop frees it. -/
theorem pop_of_depth (machine : Machine) (below : Nat) (depth : machine.sp = below + 1) :
    machine.pop = (.ok (machine.memory.slot below), { machine with sp := below }) := by
  simp only [pop, depth]

/-- A push that fails changes nothing. -/
theorem push_failed (machine : Machine) (address : UInt16) (fault : Fault)
    (failed : (machine.push address).1 = .error fault) : (machine.push address).2 = machine := by
  by_cases full : stackSlots ≤ machine.sp
  · rw [push_of_full machine address full]
  · rw [push_of_free machine address (Nat.lt_of_not_le full)] at failed
    cases failed

/-- A pop that fails changes nothing. -/
theorem pop_failed (machine : Machine) (fault : Fault) (failed : machine.pop.1 = .error fault) :
    machine.pop.2 = machine := by
  cases depth : machine.sp with
  | zero => rw [pop_of_empty machine depth]
  | succ below =>
    rw [pop_of_depth machine below depth] at failed
    cases failed

end Chip8.Machine
