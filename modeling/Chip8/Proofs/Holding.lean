import Chip8.Keys.Held
import Chip8.Proofs.Batches

/-!
# How long a key stays down

A terminal tells of presses only, so a key is let go when it was not pressed for some
rounds. A round counts all held keys down, handles the presses that have arrived, and lets
the program take steps, which move no key. The count of a key is always what is left of
the hold since its latest press, and the key is down as long as something is left.
-/

namespace Chip8

/-- The key that a press stands for, if the press has a name and the name is bound. -/
def KeyPress.key? (press : KeyPress) (keymap : Keymap) : Option (Fin 16) :=
  press.code.name?.bind keymap.resolve

namespace HeldKeys

variable (held : HeldKeys) (keymap : Keymap) (machine : Machine)

/-! ## Single presses -/

/-- A press that leaves moves no key. -/
theorem press_of_quits (press : KeyPress) (quits : press.quits = true) :
    held.press keymap machine press = ⟨.quit, held, machine, []⟩ := by
  rw [HeldKeys.press, if_pos quits]

/-- A press that stands for no key moves none. -/
theorem press_of_unbound (press : KeyPress) (stays : press.quits = false)
    (unbound : press.key? keymap = none) :
    ∃ notices, held.press keymap machine press = ⟨.proceed, held, machine, notices⟩ := by
  rw [HeldKeys.press, stays]
  cases named : press.code.name? with
  | none => exact ⟨_, rfl⟩
  | some name =>
    have missing : keymap.resolve name = none := by simpa [KeyPress.key?, named] using unbound
    simp only [missing]
    exact ⟨_, rfl⟩

/-- A press that stands for a key brings it down and begins its count. -/
theorem press_of_bound (press : KeyPress) (stays : press.quits = false) (key : Fin 16)
    (bound : press.key? keymap = some key) :
    held.press keymap machine press =
      ⟨.proceed, { held with remaining := held.remaining.setIfInBounds key (max held.hold 1) },
        machine.setKey key.val true, []⟩ := by
  obtain ⟨name, named, found⟩ := Option.bind_eq_some_iff.mp bound
  simp only [HeldKeys.press, stays, named, found]
  rfl

/-- Presses of the keys for which `Pressed` holds lead from here to there: these keys are
down and their counts begin, all other keys are as they were. -/
structure Handles (Pressed : Fin 16 → Prop) (held : HeldKeys) (machine : Machine)
    (after : HeldKeys) (machineAfter : Machine) : Prop where
  hold : after.hold = held.hold
  begun : ∀ key, Pressed key →
    after.remaining.get key = max held.hold 1 ∧ machineAfter.keys.get key = true
  kept : ∀ key, ¬ Pressed key →
    after.remaining.get key = held.remaining.get key ∧
      machineAfter.keys.get key = machine.keys.get key

/-- A press that does not leave is handled as a press of its key, if it has one. -/
theorem handles_press (press : KeyPress) (stays : press.quits = false) :
    (held.press keymap machine press).control = .proceed ∧
      Handles (fun key => press.key? keymap = some key) held machine
        (held.press keymap machine press).held (held.press keymap machine press).machine := by
  cases pressed : press.key? keymap with
  | none =>
    obtain ⟨notices, same⟩ := held.press_of_unbound keymap machine press stays pressed
    rw [same]
    exact ⟨rfl, rfl, nofun, fun key _ => ⟨rfl, rfl⟩⟩
  | some bound =>
    rw [held.press_of_bound keymap machine press stays bound pressed]
    refine ⟨rfl, rfl, fun key same => ?_, fun key other => ?_⟩
    · obtain rfl := Option.some.inj same
      exact ⟨Vector.getElem_setIfInBounds_self bound.isLt,
        Vector.getElem_setIfInBounds_self bound.isLt⟩
    · have apart : bound.val ≠ key.val := fun same => other (congrArg some (Fin.ext same))
      exact ⟨Vector.getElem_setIfInBounds_ne key.isLt apart,
        Vector.getElem_setIfInBounds_ne key.isLt apart⟩

/-- A press after presses is one more press. -/
theorem Handles.trans {First Second : Fin 16 → Prop} {held middle after : HeldKeys}
    {machine machineMiddle machineAfter : Machine}
    (first : Handles First held machine middle machineMiddle)
    (second : Handles Second middle machineMiddle after machineAfter) :
    Handles (fun key => First key ∨ Second key) held machine after machineAfter where
  hold := second.hold.trans first.hold
  begun key pressed := by
    by_cases again : Second key
    · rw [← first.hold]
      exact second.begun key again
    · obtain ⟨count, down⟩ := second.kept key again
      rw [count, down]
      exact first.begun key (pressed.resolve_right again)
  kept key unpressed := by
    obtain ⟨count, down⟩ := second.kept key fun pressed => unpressed (.inr pressed)
    rw [count, down]
    exact first.kept key fun pressed => unpressed (.inl pressed)

/-- Presses none of which leaves are all handled. -/
theorem handles_all (presses : List KeyPress) (stays : ∀ press ∈ presses, press.quits = false) :
    Handles (fun key => ∃ press ∈ presses, press.key? keymap = some key) held machine
      (TerminalKeys.handle keymap held machine presses).keys.held
      (TerminalKeys.handle keymap held machine presses).machine := by
  induction presses generalizing held machine with
  | nil =>
    refine ⟨rfl, fun key pressed => ?_, fun key _ => ⟨rfl, rfl⟩⟩
    obtain ⟨press, member, _⟩ := pressed
    cases member
  | cons press rest inductionHypothesis =>
    obtain ⟨staysFirst, staysRest⟩ := List.forall_mem_cons.mp stays
    obtain ⟨proceeds, first⟩ := held.handles_press keymap machine press staysFirst
    have later := first.trans (inductionHypothesis _ _ staysRest)
    rw [TerminalKeys.handle]
    simp only [proceeds]
    simpa only [List.mem_cons, exists_eq_or_imp] using later

/-- Counting a frame takes one from every count and lets those keys go that had one left. -/
theorem release_get (key : Fin 16) :
    (held.release machine).1.remaining.get key = held.remaining.get key - 1 ∧
      (held.release machine).2.keys.get key =
        if held.remaining.get key = 1 then false else machine.keys.get key :=
  ⟨Vector.getElem_map _ key.isLt, Vector.getElem_ofFn key.isLt⟩

end HeldKeys

/-! ## Rounds -/

/-- What happens in one round: the presses that have arrived, and how many steps the program
takes after them. -/
structure Round where
  presses : List KeyPress
  steps : Nat

namespace Round

/-- No press of the round leaves. -/
def Stays (round : Round) : Prop := ∀ press ∈ round.presses, press.quits = false

/-- A key is pressed in the round. -/
def Presses (round : Round) (keymap : Keymap) (key : Fin 16) : Prop :=
  ∃ press ∈ round.presses, press.key? keymap = some key

end Round

/-- A system with its held keys. -/
structure Typing where
  held : HeldKeys
  system : System

namespace Typing

/-- No key is held yet. -/
def start (hold : Nat) (system : System) : Typing := ⟨.initial hold, system⟩

/-- One round: the keys are polled, and the program goes on. -/
def round (keymap : Keymap) (typing : Typing) (round : Round) : Typing :=
  let polled := TerminalKeys.poll ⟨typing.held, round.presses⟩ keymap typing.system.machine
  ⟨polled.keys.held, System.after ⟨polled.machine, typing.system.generator⟩ round.steps⟩

/-- Round after round. -/
def rounds (keymap : Keymap) (typing : Typing) (rounds : List Round) : Typing :=
  rounds.foldl (Typing.round keymap) typing

/-- How much is left of the hold of a key. -/
def left (typing : Typing) (key : Fin 16) : Nat := typing.held.remaining.get key

/-- The key is down. -/
def down (typing : Typing) (key : Fin 16) : Bool := typing.system.machine.keys.get key

/-- Presses last as long as they should, and the keys that are down are those whose hold has
not run out. -/
structure Steady (hold : Nat) (typing : Typing) : Prop where
  hold : typing.held.hold = hold
  down : ∀ key, typing.down key = decide (0 < typing.left key)

/-- Without a held key and with all keys up that is so. -/
theorem steady_start (hold : Nat) (system : System)
    (up : ∀ key : Fin 16, system.machine.keys.get key = false) :
    (start hold system).Steady hold where
  hold := rfl
  down key := by
    have none : (start hold system).left key = 0 := Vector.getElem_replicate key.isLt
    rw [none]
    exact up key

variable {keymap : Keymap} {typing : Typing} {hold : Nat} {key : Fin 16}

/-- A round begins the counts of the keys that are pressed in it and takes one from all
others, whose keys go up with the last one. -/
theorem round_get (typing : Typing) (keymap : Keymap) (key : Fin 16) (round : Round)
    (stays : round.Stays) :
    (typing.round keymap round).held.hold = typing.held.hold ∧
    (round.Presses keymap key → (typing.round keymap round).left key = max typing.held.hold 1 ∧
      (typing.round keymap round).down key = true) ∧
    (¬ round.Presses keymap key → (typing.round keymap round).left key = typing.left key - 1 ∧
      (typing.round keymap round).down key =
        if typing.left key = 1 then false else typing.down key) := by
  obtain ⟨count, lifted⟩ := typing.held.release_get typing.system.machine key
  have handled := HeldKeys.handles_all (typing.held.release typing.system.machine).1 keymap
    (typing.held.release typing.system.machine).2 round.presses stays
  have keys : (typing.round keymap round).down key = (TerminalKeys.handle keymap
      (typing.held.release typing.system.machine).1 (typing.held.release typing.system.machine).2
      round.presses).machine.keys.get key := by
    rw [down, Typing.round, System.keys_after]
    rfl
  rw [keys]
  refine ⟨handled.hold, handled.begun key, fun unpressed => ?_⟩
  obtain ⟨kept, same⟩ := handled.kept key unpressed
  exact ⟨kept.trans count, same.trans lifted⟩

/-- A round keeps keys steady. -/
theorem Steady.round (steady : typing.Steady hold) (round : Round) (stays : round.Stays) :
    (typing.round keymap round).Steady hold where
  hold := (typing.round_get keymap 0 round stays).1.trans steady.hold
  down key := by
    obtain ⟨_, begun, kept⟩ := typing.round_get keymap key round stays
    by_cases pressed : round.Presses keymap key
    · obtain ⟨count, isDown⟩ := begun pressed
      have lasts : 0 < max typing.held.hold 1 :=
        Nat.lt_of_lt_of_le Nat.zero_lt_one (Nat.le_max_right _ _)
      rw [count, isDown, decide_eq_true lasts]
    · obtain ⟨count, isDown⟩ := kept pressed
      rw [count, isDown, steady.down key]
      grind

/-- Rounds keep keys steady. -/
theorem Steady.rounds (steady : typing.Steady hold) (rounds : List Round)
    (stays : ∀ round ∈ rounds, round.Stays) : (typing.rounds keymap rounds).Steady hold := by
  induction rounds generalizing typing with
  | nil => exact steady
  | cons round rest inductionHypothesis =>
    obtain ⟨staysFirst, staysRest⟩ := List.forall_mem_cons.mp stays
    exact inductionHypothesis (steady.round round staysFirst) staysRest

/-- Rounds in which a key is not pressed take one each from its count. -/
theorem left_of_unpressed (typing : Typing) (rounds : List Round)
    (stays : ∀ round ∈ rounds, round.Stays)
    (unpressed : ∀ round ∈ rounds, ¬ round.Presses keymap key) :
    (typing.rounds keymap rounds).left key = typing.left key - rounds.length := by
  induction rounds generalizing typing with
  | nil => rfl
  | cons round rest inductionHypothesis =>
    obtain ⟨staysFirst, staysRest⟩ := List.forall_mem_cons.mp stays
    obtain ⟨unpressedFirst, unpressedRest⟩ := List.forall_mem_cons.mp unpressed
    obtain ⟨_, _, kept⟩ := typing.round_get keymap key round staysFirst
    have later := inductionHypothesis (typing.round keymap round) staysRest unpressedRest
    rw [(kept unpressedFirst).1] at later
    exact later.trans (by rw [List.length_cons, Nat.sub_sub, Nat.add_comm 1])

/-- Rounds take no more than one each from a count, since a further press begins it anew. -/
theorem left_of_spent (steady : typing.Steady hold) (rounds : List Round)
    (stays : ∀ round ∈ rounds, round.Stays) (spent : Nat)
    (room : max hold 1 - spent ≤ typing.left key) :
    max hold 1 - (spent + rounds.length) ≤ (typing.rounds keymap rounds).left key := by
  induction rounds generalizing typing spent with
  | nil => exact room
  | cons round rest inductionHypothesis =>
    obtain ⟨staysFirst, staysRest⟩ := List.forall_mem_cons.mp stays
    obtain ⟨_, begun, kept⟩ := typing.round_get keymap key round staysFirst
    have roomOnce : max hold 1 - (spent + 1) ≤ (typing.round keymap round).left key := by
      by_cases pressed : round.Presses keymap key
      · rw [(begun pressed).1, steady.hold]
        exact Nat.sub_le _ _
      · rw [(kept pressed).1]
        omega
    have later := inductionHypothesis (steady.round round staysFirst) staysRest (spent + 1) roomOnce
    rwa [Nat.add_assoc, Nat.add_comm 1] at later

/-- A key is pressed in no round, or there is a latest one in which it is. -/
theorem latest_press (keymap : Keymap) (key : Fin 16) (rounds : List Round) :
    (∀ round ∈ rounds, ¬ round.Presses keymap key) ∨
      ∃ earlier round later, rounds = earlier ++ round :: later ∧ round.Presses keymap key ∧
        ∀ after ∈ later, ¬ after.Presses keymap key := by
  induction rounds with
  | nil => exact .inl nofun
  | cons round rest inductionHypothesis =>
    rcases inductionHypothesis with never | ⟨earlier, latest, later, rfl, pressed, unpressed⟩
    · by_cases pressed : round.Presses keymap key
      · exact .inr ⟨[], round, rest, rfl, pressed, never⟩
      · exact .inl (List.forall_mem_cons.mpr ⟨pressed, never⟩)
    · exact .inr ⟨round :: earlier, latest, later, rfl, pressed, unpressed⟩

/-- Rounds after one in which a key is pressed go on from a count that has just begun. -/
theorem Steady.rounds_of_pressed (steady : typing.Steady hold) (earlier later : List Round)
    (round : Round) (stays : ∀ other ∈ earlier ++ round :: later, other.Stays)
    (pressed : round.Presses keymap key) :
    (∀ other ∈ later, other.Stays) ∧
      ∃ begun : Typing, begun.Steady hold ∧ begun.left key = max hold 1 ∧
        typing.rounds keymap (earlier ++ round :: later) = begun.rounds keymap later := by
  obtain ⟨staysEarlier, staysLater⟩ := List.forall_mem_append.mp stays
  obtain ⟨staysThen, staysRest⟩ := List.forall_mem_cons.mp staysLater
  have before : (typing.rounds keymap earlier).Steady hold := steady.rounds earlier staysEarlier
  refine ⟨staysRest, (typing.rounds keymap earlier).round keymap round,
    before.round round staysThen, ?_, ?_⟩
  · obtain ⟨_, begun, _⟩ := (typing.rounds keymap earlier).round_get keymap key round staysThen
    rw [(begun pressed).1, before.hold]
  · rw [Typing.rounds, List.foldl_append]
    rfl

/-- After the latest press of a key one is taken from its hold in every round. -/
theorem Steady.left_of_latest (steady : typing.Steady hold) (earlier later : List Round)
    (round : Round) (stays : ∀ other ∈ earlier ++ round :: later, other.Stays)
    (pressed : round.Presses keymap key) (latest : ∀ other ∈ later, ¬ other.Presses keymap key) :
    (typing.rounds keymap (earlier ++ round :: later)).left key = max hold 1 - later.length := by
  obtain ⟨staysLater, begun, _, whole, same⟩ :=
    steady.rounds_of_pressed earlier later round stays pressed
  rw [same, begun.left_of_unpressed later staysLater latest, whole]

/-- A key is down after rounds exactly if it was pressed in one of them and its hold has not
run out since.

A round in which the key was pressed need not be the latest one, so the count is only
bounded from below by what that round leaves of it. -/
theorem Steady.down_iff (steady : typing.Steady hold) (none : typing.left key = 0)
    (rounds : List Round) (stays : ∀ round ∈ rounds, round.Stays) :
    (typing.rounds keymap rounds).down key = true ↔
      ∃ earlier round later, rounds = earlier ++ round :: later ∧
        round.Presses keymap key ∧ later.length < max hold 1 := by
  rw [(steady.rounds rounds stays).down key, decide_eq_true_iff]
  constructor
  · intro remains
    obtain unpressed | ⟨earlier, round, later, rfl, pressed, latest⟩ :=
      latest_press keymap key rounds
    · have spent := typing.left_of_unpressed rounds stays unpressed
      omega
    · have left := steady.left_of_latest earlier later round stays pressed latest
      exact ⟨earlier, round, later, rfl, pressed, by omega⟩
  · rintro ⟨earlier, round, later, rfl, pressed, recent⟩
    obtain ⟨staysLater, begun, steadyThen, whole, same⟩ :=
      steady.rounds_of_pressed earlier later round stays pressed
    have left : max hold 1 - (0 + later.length) ≤ (begun.rounds keymap later).left key :=
      left_of_spent steadyThen later staysLater 0 (Nat.le_of_eq whole.symm)
    rw [same]
    omega

end Typing

/-- Begin with no key held and all keys up, and play any rounds, each a poll of the keys
that no press leaves and then some steps of the program. Then a key is down exactly if it
was pressed so few rounds ago that its hold, which is one round at least, has not run out.
What is left of the hold is counted from the round in which the key was pressed last, of
which `later` are the rounds since; nothing is left where it was pressed in none. A press
that leaves, one without a name and one whose name is not bound change nothing. -/
theorem key_down_while_held (hold : Nat) (keymap : Keymap) (system : System)
    (rounds : List Round) (up : ∀ key : Fin 16, system.machine.keys.get key = false)
    (stays : ∀ round ∈ rounds, round.Stays) :
    let typing := (Typing.start hold system).rounds keymap rounds
    (∀ key : Fin 16,
      (typing.system.machine.keys.get key = true ↔
        ∃ earlier round later, rounds = earlier ++ round :: later ∧
          round.Presses keymap key ∧ later.length < max hold 1) ∧
      (∀ earlier round later, rounds = earlier ++ round :: later →
        round.Presses keymap key → (∀ after ∈ later, ¬ after.Presses keymap key) →
        typing.held.remaining.get key = max hold 1 - later.length) ∧
      ((∀ round ∈ rounds, ¬ round.Presses keymap key) →
        typing.held.remaining.get key = 0)) ∧
    ∀ (held : HeldKeys) (machine : Machine) (press : KeyPress),
      press.quits = true ∨ press.key? keymap = none →
      (held.press keymap machine press).held = held ∧
        (held.press keymap machine press).machine = machine := by
  intro typing
  have start : (Typing.start hold system).Steady hold := Typing.steady_start hold system up
  refine ⟨fun key => ?_, fun held machine press changesNothing => ?_⟩
  · have none : (Typing.start hold system).left key = 0 := Vector.getElem_replicate key.isLt
    refine ⟨start.down_iff none rounds stays, ?_, fun unpressed => ?_⟩
    · intro earlier round later parts pressed latest
      subst parts
      exact start.left_of_latest earlier later round stays pressed latest
    · have spent := (Typing.start hold system).left_of_unpressed rounds stays unpressed
      rw [none, Nat.zero_sub] at spent
      exact spent
  · cases quits : press.quits with
    | true =>
      rw [held.press_of_quits keymap machine press quits]
      exact ⟨rfl, rfl⟩
    | false =>
      have unbound := changesNothing.resolve_left (by rw [quits]; exact Bool.false_ne_true)
      obtain ⟨notices, same⟩ := held.press_of_unbound keymap machine press quits unbound
      rw [same]
      exact ⟨rfl, rfl⟩

/-- A round in which an arrow is pressed, and one with a press that has no name. -/
def Round.tapping : List Round := [⟨[⟨.up, false⟩], 2⟩, ⟨[⟨.enter, false⟩], 1⟩]

/-- With a hold of two rounds the arrow's key is down after both, with one round left of
it. -/
theorem key_down_while_held_tapping :
    (∀ key : Fin 16, (System.brief 0 0).machine.keys.get key = false) ∧
      (∀ round ∈ Round.tapping, round.Stays) ∧
      ((Typing.start 2 (System.brief 0 0)).rounds .conventional
        Round.tapping).system.machine.keys.get 5 = true ∧
      ((Typing.start 2 (System.brief 0 0)).rounds .conventional
        Round.tapping).held.remaining.get 5 = 1 := by
  have up (key : Fin 16) : (System.brief 0 0).machine.keys.get key = false :=
    Vector.getElem_replicate key.isLt
  have stays : ∀ round ∈ Round.tapping, round.Stays := by
    simp [Round.tapping, Round.Stays, KeyPress.quits]
  have named : (⟨.up, false⟩ : KeyPress).key? .conventional = some 5 := by decide
  have pressed : (⟨[⟨.up, false⟩], 2⟩ : Round).Presses .conventional 5 :=
    ⟨⟨.up, false⟩, List.mem_cons_self, named⟩
  have nameless : (⟨.enter, false⟩ : KeyPress).key? .conventional = none := rfl
  have unpressed : ∀ after ∈ [(⟨[⟨.enter, false⟩], 1⟩ : Round)],
      ¬ after.Presses .conventional 5 := by
    intro after member pressed
    obtain rfl := List.mem_singleton.mp member
    obtain ⟨press, arrived, bound⟩ := pressed
    obtain rfl := List.mem_singleton.mp arrived
    rw [nameless] at bound
    cases bound
  obtain ⟨down, left, _⟩ :=
    (key_down_while_held 2 .conventional (System.brief 0 0) Round.tapping up stays).1 5
  exact ⟨up, stays, down.mpr ⟨[], _, _, rfl, pressed, by decide⟩, left [] _ _ rfl pressed unpressed⟩

end Chip8
