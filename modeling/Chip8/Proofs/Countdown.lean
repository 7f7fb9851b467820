import Chip8.Proofs.Cadence

/-!
# The timers after many ticks

The delay timer and the sound timer share one count of ticks. While either of them runs
the count starts anew with every beat, and once both have come to zero it only grows. So
after any number of ticks the timers have lost one for each beat since the start, as far
as there was something to lose, and the count tells how long ago the last of these beats
was. The invariant `CountedDown` says so for one number of ticks; a further tick keeps it
in both regimes and in the change from one to the other.
-/

namespace Chip8.Machine

/-- A timer that counts down loses one, unless it is zero. -/
theorem toNat_countDown (timer : UInt8) : (countDown timer).toNat = timer.toNat - 1 := by
  by_cases zero : timer = 0
  · subst zero
    rfl
  · have positive : (1 : UInt8) ≤ timer := by
      rw [UInt8.le_iff_toNat_le]
      exact Nat.pos_of_ne_zero fun none => zero (UInt8.toNat_inj.mp none)
    rw [countDown, if_neg zero, UInt8.toNat_sub_of_le _ _ positive]
    rfl

/-- On a beat both timers count down, and the count starts anew if there was something to
count. -/
theorem tick_on_beat (machine : Machine) (room : machine.ticks.toNat + 1 < tickCounts)
    (beat : (machine.ticks.toNat + 1) % 6 = 0) :
    machine.tick.delay.toNat = machine.delay.toNat - 1 ∧
      machine.tick.sound.toNat = machine.sound.toNat - 1 ∧
      machine.tick.ticks.toNat =
        if max machine.delay.toNat machine.sound.toNat = 0 then machine.ticks.toNat + 1 else 0 := by
  have due : (machine.ticks + 1) % 6 = 0 := by
    rw [due_iff, Nat.mod_eq_of_lt room]
    exact beat
  have resting : machine.delay = 0 ∧ machine.sound = 0 ↔
      max machine.delay.toNat machine.sound.toNat = 0 := by
    rw [← UInt8.toNat_inj, ← UInt8.toNat_inj, Nat.max_eq_zero_iff]
    rfl
  refine ⟨?_, ?_, ?_⟩
  · rw [tick_delay, if_neg (not_not_intro due), toNat_countDown]
  · rw [tick_sound, if_neg (not_not_intro due), toNat_countDown]
  · simp only [tick, if_neg (not_not_intro due), resting]
    split
    · rw [toNat_ticks_succ, Nat.mod_eq_of_lt room]
    · rfl

/-- Between two beats a tick is only counted. -/
theorem tick_off_beat (machine : Machine) (room : machine.ticks.toNat + 1 < tickCounts)
    (between : (machine.ticks.toNat + 1) % 6 ≠ 0) :
    machine.tick.delay = machine.delay ∧ machine.tick.sound = machine.sound ∧
      machine.tick.ticks.toNat = machine.ticks.toNat + 1 := by
  have early : (machine.ticks + 1) % 6 ≠ 0 := by
    intro due
    rw [due_iff, Nat.mod_eq_of_lt room] at due
    exact between due
  rw [tick_between machine early]
  refine ⟨rfl, rfl, ?_⟩
  rw [toNat_ticks_succ, Nat.mod_eq_of_lt room]

/-- How many beats there are among the next ticks. -/
def beats (machine : Machine) (count : Nat) : Nat := (machine.ticks.toNat % 6 + count) / 6

/-- At how many of these beats a timer still runs. -/
def spent (machine : Machine) (count : Nat) : Nat :=
  min (machine.beats count) (max machine.delay.toNat machine.sound.toNat)

/-- A tick on a beat is one beat more. -/
theorem beats_succ_on_beat (machine : Machine) (count : Nat)
    (beat : (machine.ticks.toNat + count + 1) % 6 = 0) :
    machine.beats (count + 1) = machine.beats count + 1 ∧
      machine.ticks.toNat % 6 + (count + 1) = 6 * machine.beats (count + 1) := by
  unfold beats
  omega

/-- A tick between two beats is none. -/
theorem beats_succ_off_beat (machine : Machine) (count : Nat)
    (between : (machine.ticks.toNat + count + 1) % 6 ≠ 0) :
    machine.beats (count + 1) = machine.beats count := by
  unfold beats
  omega

/-- Beats take six ticks each. -/
theorem six_mul_spent_le (machine : Machine) (count : Nat) :
    6 * machine.spent count ≤ count + machine.ticks.toNat % 6 := by
  unfold spent beats
  omega

/-- A machine is what another one becomes by a number of ticks. -/
structure CountedDown (start : Machine) (count : Nat) (machine : Machine) : Prop where
  delay : machine.delay.toNat = start.delay.toNat - start.beats count
  sound : machine.sound.toNat = start.sound.toNat - start.beats count
  ticks : machine.ticks.toNat =
    if start.spent count = 0 then start.ticks.toNat + count
    else count + start.ticks.toNat % 6 - 6 * start.spent count
  others : machine =
    { start with delay := machine.delay, sound := machine.sound, ticks := machine.ticks }

/-- No tick has been yet. -/
theorem countedDown_zero (start : Machine) : CountedDown start 0 start := by
  have early : start.beats 0 = 0 := Nat.div_eq_of_lt (Nat.mod_lt _ (by decide))
  have unspent : start.spent 0 = 0 := by rw [spent, early, Nat.zero_min]
  constructor
  · rw [early, Nat.sub_zero]
  · rw [early, Nat.sub_zero]
  · rw [if_pos unspent, Nat.add_zero]
  · rfl

/-- Whether or not a timer still runs, the count tells where the beats are. -/
theorem CountedDown.phase {start machine : Machine} {count : Nat}
    (before : CountedDown start count machine) :
    machine.ticks.toNat % 6 = (start.ticks.toNat + count) % 6 ∧
      machine.ticks.toNat ≤ start.ticks.toNat + count := by
  have ticks := before.ticks
  have room := start.six_mul_spent_le count
  split at ticks <;> omega

/-- Both timers are at zero once there were as many beats as the longer one needs. -/
theorem CountedDown.resting_iff {start machine : Machine} {count : Nat}
    (before : CountedDown start count machine) :
    max machine.delay.toNat machine.sound.toNat = 0 ↔
      max start.delay.toNat start.sound.toNat ≤ start.beats count := by
  rw [before.delay, before.sound]
  omega

/-- One tick more.

On a beat at which a timer runs, the count starts anew. On any other tick it goes on,
since the beats at which a timer ran stay as many as they were. -/
theorem CountedDown.tick {start machine : Machine} {count : Nat}
    (before : CountedDown start count machine)
    (room : start.ticks.toNat + (count + 1) < tickCounts) :
    CountedDown start (count + 1) machine.tick := by
  obtain ⟨phase, bound⟩ := before.phase
  have inRoom : machine.ticks.toNat + 1 < tickCounts := by omega
  have others : machine.tick = { start with
      delay := machine.tick.delay, sound := machine.tick.sound, ticks := machine.tick.ticks } := by
    rw [tick_eq, before.others]
  have goesOn (same : start.spent (count + 1) = start.spent count) : machine.ticks.toNat + 1 =
      if start.spent (count + 1) = 0 then start.ticks.toNat + (count + 1)
      else count + 1 + start.ticks.toNat % 6 - 6 * start.spent (count + 1) := by
    have enough := start.six_mul_spent_le count
    rw [before.ticks, same]
    split <;> omega
  by_cases beat : (machine.ticks.toNat + 1) % 6 = 0
  · obtain ⟨delay, sound, ticks⟩ := machine.tick_on_beat inRoom beat
    obtain ⟨more, whole⟩ := start.beats_succ_on_beat count (by omega)
    constructor
    · rw [delay, before.delay, more, Nat.sub_sub]
    · rw [sound, before.sound, more, Nat.sub_sub]
    · rw [ticks]
      by_cases resting : max start.delay.toNat start.sound.toNat ≤ start.beats count
      · rw [if_pos (before.resting_iff.mpr resting)]
        apply goesOn
        rw [spent, spent, more, Nat.min_eq_right resting, Nat.min_eq_right (Nat.le_succ_of_le resting)]
      · have running : start.spent (count + 1) = start.beats (count + 1) := by
          rw [spent, more]
          exact Nat.min_eq_left (Nat.lt_of_not_le resting)
        rw [if_neg (mt before.resting_iff.mp resting), running, if_neg (by omega)]
        omega
    · exact others
  · obtain ⟨delay, sound, ticks⟩ := machine.tick_off_beat inRoom beat
    have same := start.beats_succ_off_beat count (by omega)
    constructor
    · rw [delay, before.delay, same]
    · rw [sound, before.sound, same]
    · rw [ticks]
      apply goesOn
      rw [spent, spent, same]
    · exact others

/-- Any number of ticks, as long as the count of ticks does not wrap around. -/
theorem countedDown_repeat (start : Machine) (count : Nat)
    (room : start.ticks.toNat + count < tickCounts) :
    CountedDown start count (Nat.repeat Machine.tick count start) := by
  induction count with
  | zero => exact countedDown_zero start
  | succ count inductionHypothesis =>
    exact (inductionHypothesis (Nat.lt_of_succ_lt room)).tick room

/-- Closed form of the timers. After any number of ticks with which the count does not wrap
around, both timers have lost one for each beat, but none is below zero. The count has gone
on if no timer lost anything, and otherwise it numbers the ticks since the last beat at
which one did. A tick changes nothing else. -/
theorem repeat_tick_eq (machine : Machine) (count : Nat)
    (room : machine.ticks.toNat + count < tickCounts) :
    let after := Nat.repeat tick count machine
    let beats := (machine.ticks.toNat % 6 + count) / 6
    let spent := min beats (max machine.delay.toNat machine.sound.toNat)
    after.delay.toNat = machine.delay.toNat - beats ∧
      after.sound.toNat = machine.sound.toNat - beats ∧
      after.ticks.toNat = (if spent = 0 then machine.ticks.toNat + count
        else count + machine.ticks.toNat % 6 - 6 * spent) ∧
      after = { machine with delay := after.delay, sound := after.sound, ticks := after.ticks } := by
  intro after beats spent
  have counted := machine.countedDown_repeat count room
  exact ⟨counted.delay, counted.sound, counted.ticks, counted.others⟩

/-- A machine whose timers come to zero at different beats, the first of them four ticks
away. -/
def lapsing : Machine := { initial with delay := 3, sound := 1, ticks := 8 }

/-- Both have come to zero after 23 ticks. There were four beats in these, the last of them
without a timer that ran, and seven ticks since the one before. -/
theorem repeat_tick_eq_lapsing :
    lapsing.ticks.toNat + 23 < tickCounts ∧
      (Nat.repeat tick 23 lapsing).delay.toNat = 0 ∧
      (Nat.repeat tick 23 lapsing).sound.toNat = 0 ∧
      (Nat.repeat tick 23 lapsing).ticks.toNat = 7 := by
  have room : lapsing.ticks.toNat + 23 < tickCounts := by decide
  obtain ⟨delay, sound, ticks, _⟩ := repeat_tick_eq lapsing 23 room
  refine ⟨room, ?_, ?_, ?_⟩
  · rw [delay]
    decide
  · rw [sound]
    decide
  · rw [ticks]
    decide

end Chip8.Machine
