import Chip8.Machine.Basic

/-!
# Timers

Time is counted in executed instructions. With every sixth of them both timers
go down by one until they are zero. When one did go down the count starts anew;
as six divides it then, this does not change when they go down next.
-/

namespace Chip8.Machine

/-- One less, but never below zero. -/
def countDown (timer : UInt8) : UInt8 := if timer = 0 then 0 else timer - 1

/-- Count one executed instruction. -/
def tick (machine : Machine) : Machine :=
  let ticks := machine.ticks + 1
  if ticks % 6 ≠ 0 then { machine with ticks := ticks }
  else { machine with
    delay := countDown machine.delay
    sound := countDown machine.sound
    ticks := if machine.delay = 0 ∧ machine.sound = 0 then ticks else 0 }

end Chip8.Machine
