import Chip8.Keys.Script
import Chip8.Proofs.Batches
import Mathlib.Data.List.Induction

/-!
# What a script has done to the keys

A script is polled once for each frame, and the program takes steps in between, which move
no key. Each poll makes the changes of its frame in the order in which the script has them,
except the one at which the script leaves, which makes none. So after any number of polls
the changes that were made are those of the frames so far, sorted by frame without moving
changes of one frame past each other, and the latest of them that means a key has decided
it. A poll looks at the changes of its own frame alone: how those of different frames are
mixed in the script is not to be seen. The numbers of frames have 64 bits; polls after that
make the changes of the first frames once more.
-/

namespace Chip8

/-- A key that a host's name may stand for after it was moved. -/
theorem Machine.setNamedKey_get (machine : Machine) (keymap : Keymap) (name : String)
    (down : Bool) (key : Fin 16) :
    (machine.setNamedKey keymap name down).keys.get key =
      if keymap.resolve name = some key then down else machine.keys.get key := by
  cases bound : keymap.resolve name with
  | none => simp [setNamedKey, bound]
  | some own =>
    simp only [setNamedKey, bound, Option.some.injEq]
    by_cases same : own = key
    · rw [if_pos same, same]
      exact Vector.getElem_setIfInBounds_self key.isLt
    · have apart : own.val ≠ key.val := fun equal => same (Fin.ext equal)
      rw [if_neg same]
      exact Vector.getElem_setIfInBounds_ne key.isLt apart

namespace KeyChange

/-- A change is for no later frame than another one. -/
def noLater (first second : KeyChange) : Bool := first.frame ≤ second.frame

/-- Frames come one after the other. -/
theorem noLater_trans (first second third : KeyChange) (early : first.noLater second = true)
    (late : second.noLater third = true) : first.noLater third = true :=
  decide_eq_true (UInt64.le_trans (of_decide_eq_true early) (of_decide_eq_true late))

/-- Of two changes one is for no later frame than the other. -/
theorem noLater_total (first second : KeyChange) :
    (first.noLater second || second.noLater first) = true := by
  simp only [noLater, Bool.or_eq_true, decide_eq_true_iff]
  exact UInt64.le_total first.frame second.frame

end KeyChange

namespace Script

variable (changes : List KeyChange) (quitAt : Option UInt64) (keymap : Keymap)

/-! ## Changes in order -/

/-- The changes as they are due: by frame, and as the script has them within a frame. -/
def inOrder : List KeyChange := changes.mergeSort KeyChange.noLater

/-- The changes that one poll makes. The frame at which the script leaves makes none. -/
def due (frame : UInt64) : List KeyChange :=
  if quitAt = some frame then [] else changes.filter fun change => change.frame == frame

/-- The changes that a number of polls have made, one poll after the other. -/
def made (polls : Nat) : List KeyChange :=
  (List.range polls).flatMap fun poll => due changes quitAt (.ofNat poll)

/-- The latest change that was made of a key. -/
def latest (polls : Nat) (key : Fin 16) : Option KeyChange :=
  ((made changes quitAt polls).filter fun change =>
    keymap.resolve change.name == some key).getLast?

/-- In order, the frames go up. -/
theorem pairwise_inOrder :
    (inOrder changes).Pairwise fun first second => first.frame ≤ second.frame := by
  have sorted := List.pairwise_mergeSort KeyChange.noLater_trans KeyChange.noLater_total changes
  exact sorted.imp fun early => of_decide_eq_true early

/-- In order, the changes of one frame stand as the script has them: the sort is stable, so
it keeps them as they are among themselves, and it adds and drops none. -/
theorem filter_inOrder (frame : UInt64) :
    ((inOrder changes).filter fun change => change.frame == frame) =
      changes.filter fun change => change.frame == frame := by
  have ordered : (changes.filter fun change => change.frame == frame).Pairwise
      fun first second => first.noLater second = true := by
    apply List.pairwise_of_forall_mem_list
    intro first inFirst second inSecond
    simp only [List.mem_filter, beq_iff_eq] at inFirst inSecond
    simp [KeyChange.noLater, inFirst.2, inSecond.2]
  have kept : (changes.filter fun change => change.frame == frame).Sublist (inOrder changes) :=
    List.sublist_mergeSort KeyChange.noLater_trans KeyChange.noLater_total ordered
      List.filter_sublist
  have keptThere := kept.filter fun change => change.frame == frame
  rw [List.filter_filter] at keptThere
  simp only [Bool.and_self] at keptThere
  have asMany := ((List.mergeSort_perm changes KeyChange.noLater).filter
    fun change => change.frame == frame).length_eq
  exact (keptThere.eq_of_length asMany.symm).symm

/-- Among changes in order, those of one frame more are those of the frames before and then
the ones of this frame. -/
theorem filter_frames (ordered : List KeyChange)
    (sorted : ordered.Pairwise fun first second => first.frame ≤ second.frame)
    (keep : KeyChange → Bool) (frame : UInt64) :
    (ordered.filter fun change => keep change && change.frame.toNat < frame.toNat + 1) =
      (ordered.filter fun change => keep change && change.frame.toNat < frame.toNat) ++
        ordered.filter fun change => keep change && change.frame == frame := by
  induction ordered with
  | nil => rfl
  | cons first rest inductionHypothesis =>
    obtain ⟨least, sortedRest⟩ := List.pairwise_cons.mp sorted
    by_cases earlier : first.frame.toNat < frame.toNat
    · have before : first.frame.toNat < frame.toNat + 1 := Nat.lt_succ_of_lt earlier
      have other : ¬ first.frame = frame := fun same => Nat.ne_of_lt earlier (congrArg _ same)
      rw [List.filter_cons, List.filter_cons, List.filter_cons, inductionHypothesis sortedRest]
      cases keep first <;> simp [earlier, before, other]
    · -- No change from here on is earlier than the frame.
      have late : ∀ change ∈ first :: rest, frame.toNat ≤ change.frame.toNat := by
        intro change member
        rcases List.mem_cons.mp member with rfl | later
        · exact Nat.le_of_not_lt earlier
        · exact Nat.le_trans (Nat.le_of_not_lt earlier)
            (UInt64.le_iff_toNat_le.mp (least change later))
      have none : ((first :: rest).filter fun change =>
          keep change && change.frame.toNat < frame.toNat) = [] := by
        rw [List.filter_eq_nil_iff]
        intro change member
        simp [Nat.not_lt.mpr (late change member)]
      rw [none, List.nil_append]
      apply List.filter_congr
      intro change member
      have bound := late change member
      have same : decide (change.frame.toNat < frame.toNat + 1) = (change.frame == frame) := by
        rw [Bool.eq_iff_iff, decide_eq_true_iff, beq_iff_eq, ← UInt64.toNat_inj]
        omega
      rw [same]

/-- Nothing is made before the first poll. -/
theorem made_zero : made changes quitAt 0 = [] := rfl

/-- One poll more has made what was due at it. -/
theorem made_succ (polls : Nat) :
    made changes quitAt (polls + 1) =
      made changes quitAt polls ++ due changes quitAt (.ofNat polls) := by
  simp only [made, List.range_succ, List.flatMap_append, List.flatMap_cons, List.flatMap_nil,
    List.append_nil]

/-- What a poll makes is what stands in order for its frame. -/
theorem due_eq (frame : UInt64) :
    due changes quitAt frame = (inOrder changes).filter fun change =>
      quitAt != some change.frame && change.frame == frame := by
  rw [← List.filter_filter, filter_inOrder, due]
  by_cases quits : quitAt = some frame
  · rw [if_pos quits, eq_comm, List.filter_eq_nil_iff]
    intro change member
    rw [eq_of_beq (List.mem_filter.mp member).2, quits]
    simp
  · rw [if_neg quits, eq_comm, List.filter_eq_self]
    intro change member
    rw [eq_of_beq (List.mem_filter.mp member).2]
    simpa using quits

/-- As long as the numbers of frames do not start over, the changes made so far are those of
the frames so far in their order, without the frame at which the script leaves. -/
theorem made_eq (polls : Nat) (bound : polls ≤ UInt64.size) :
    made changes quitAt polls = (inOrder changes).filter fun change =>
      quitAt != some change.frame && change.frame.toNat < polls := by
  induction polls with
  | zero =>
    rw [made_zero, eq_comm, List.filter_eq_nil_iff]
    intro change _
    simp
  | succ polls inductionHypothesis =>
    have number : (UInt64.ofNat polls).toNat = polls := UInt64.toNat_ofNat_of_lt' bound
    have frames := filter_frames _ (pairwise_inOrder changes)
      (fun change => quitAt != some change.frame) (.ofNat polls)
    rw [number, ← due_eq] at frames
    rw [made_succ, inductionHypothesis (Nat.le_of_succ_le bound), frames]

/-! ## Polls -/

/-- Of the changes of a key the last one decides it, and changes of other keys leave it
alone. -/
theorem keys_apply (machine : Machine) (key : Fin 16) :
    (apply keymap machine changes).keys.get key =
      (((changes.filter fun change => keymap.resolve change.name == some key).getLast?).map
        KeyChange.down).getD (machine.keys.get key) := by
  induction changes generalizing machine with
  | nil => rfl
  | cons change rest inductionHypothesis =>
    have onward := inductionHypothesis (machine.setNamedKey keymap change.name change.down)
    rw [apply, List.foldl_cons]
    refine onward.trans ?_
    rw [Machine.setNamedKey_get, List.filter_cons]
    by_cases means : keymap.resolve change.name = some key
    · simp [means, List.getLast?_cons]
    · simp [means]

/-- A poll makes the changes that are due, and leaves where the script says so. -/
theorem poll_eq (script : Script) (machine : Machine) :
    script.poll keymap machine =
      ⟨.ok (if script.quitAt = some script.frame then .quit else .proceed),
        apply keymap machine (due script.changes script.quitAt script.frame),
        { script with frame := script.frame + 1 }, []⟩ := by
  rw [poll, due]
  by_cases quits : script.quitAt = some script.frame
  · simp [quits, apply]
  · simp [quits]

end Script

/-! ## Sessions -/

/-- A system with the script that moves its keys. -/
structure Scripted where
  script : Script
  system : System

namespace Scripted

/-- The script stands at its beginning. -/
def start (changes : List KeyChange) (quitAt : Option UInt64) (system : System) : Scripted :=
  ⟨.start changes quitAt, system⟩

/-- What the next poll gives. -/
def poll (keymap : Keymap) (scripted : Scripted) : Polled Script :=
  scripted.script.poll keymap scripted.system.machine

/-- One poll and then a number of steps. -/
def turn (keymap : Keymap) (scripted : Scripted) (steps : Nat) : Scripted :=
  let polled := scripted.poll keymap
  ⟨polled.keys, System.after ⟨polled.machine, scripted.system.generator⟩ steps⟩

/-- Polls one after the other, each with the steps that follow it. -/
def turns (keymap : Keymap) (scripted : Scripted) (steps : List Nat) : Scripted :=
  steps.foldl (turn keymap) scripted

variable (changes : List KeyChange) (quitAt : Option UInt64) (keymap : Keymap) (system : System)

/-- One more poll. -/
theorem turns_concat (scripted : Scripted) (steps : List Nat) (last : Nat) :
    scripted.turns keymap (steps ++ [last]) = (scripted.turns keymap steps).turn keymap last := by
  rw [turns, List.foldl_append]
  rfl

/-- The script counts its polls and stays as it is. -/
theorem script_turns (steps : List Nat) :
    ((start changes quitAt system).turns keymap steps).script =
      ⟨changes, quitAt, .ofNat steps.length⟩ := by
  induction steps using List.reverseRecOn with
  | nil => rfl
  | append_singleton steps last inductionHypothesis =>
    rw [turns_concat, List.length_append, UInt64.ofNat_add]
    simp only [turn, poll, Script.poll_eq, inductionHypothesis, List.length_singleton]
    rfl

/-- After polls and steps each key is where the latest of the changes made of it has put it,
or where it was at the start.

The induction is on the polls, and takes the last of them off: the changes it makes come
behind those made before. -/
theorem keys_turns (steps : List Nat) (key : Fin 16) :
    ((start changes quitAt system).turns keymap steps).system.machine.keys.get key =
      ((Script.latest changes quitAt keymap steps.length key).map KeyChange.down).getD
        (system.machine.keys.get key) := by
  induction steps using List.reverseRecOn with
  | nil =>
    rw [Script.latest, List.length_nil, Script.made_zero]
    rfl
  | append_singleton steps last inductionHypothesis =>
    rw [turns_concat, turn, System.keys_after, poll, Script.poll_eq, script_turns,
      Script.keys_apply, inductionHypothesis, List.length_append, List.length_singleton,
      Script.latest, Script.latest, Script.made_succ, List.filter_append, List.getLast?_append]
    cases ((Script.due changes quitAt (.ofNat steps.length)).filter fun change =>
      keymap.resolve change.name == some key).getLast? with
    | none => rfl
    | some change => rfl

/-- What is due at each poll alone decides how the machine goes on. -/
theorem system_turns (others : List KeyChange)
    (same : ∀ frame, Script.due others quitAt frame = Script.due changes quitAt frame)
    (steps : List Nat) :
    ((start others quitAt system).turns keymap steps).system =
      ((start changes quitAt system).turns keymap steps).system := by
  induction steps using List.reverseRecOn with
  | nil => rfl
  | append_singleton steps last inductionHypothesis =>
    simp only [turns_concat, turn, poll, Script.poll_eq, script_turns, inductionHypothesis, same]

/-- Where a script has brought the keys. After any number of polls, with any steps of the
program after each of them, a key is where the latest change of it has put it, and where it
was at the start if there is none. The changes are those of the frames polled so far except
the one at which the script leaves, by frame and within a frame by their place in the
script; the numbers of frames start over after 64 bits. Just the poll of that frame leaves.
A script whose changes stand otherwise, but in the same order within each frame, does the
same at every poll, and so does one that has other changes at the frame at which it
leaves. -/
theorem keys_follow_script (steps : List Nat) :
    let scripted := (start changes quitAt system).turns keymap steps
    (∀ key : Fin 16, scripted.system.machine.keys.get key =
      ((Script.latest changes quitAt keymap steps.length key).map KeyChange.down).getD
        (system.machine.keys.get key)) ∧
    (steps.length ≤ UInt64.size → Script.made changes quitAt steps.length =
      (Script.inOrder changes).filter fun change =>
        quitAt != some change.frame && change.frame.toNat < steps.length) ∧
    (scripted.poll keymap).answer =
      .ok (if quitAt = some (.ofNat steps.length) then .quit else .proceed) ∧
    ∀ others : List KeyChange,
      (∀ frame, quitAt ≠ some frame →
        (others.filter fun change => change.frame == frame) =
          changes.filter fun change => change.frame == frame) →
      let rewritten := (start others quitAt system).turns keymap steps
      rewritten.system = scripted.system ∧
        (rewritten.poll keymap).answer = (scripted.poll keymap).answer ∧
        (rewritten.poll keymap).machine = (scripted.poll keymap).machine := by
  intro scripted
  refine ⟨keys_turns changes quitAt keymap system steps, Script.made_eq changes quitAt _, ?_, ?_⟩
  · simp only [scripted, poll, Script.poll_eq, script_turns]
  · intro others same rewritten
    have sameDue (frame : UInt64) :
        Script.due others quitAt frame = Script.due changes quitAt frame := by
      rw [Script.due, Script.due]
      by_cases quits : quitAt = some frame
      · rw [if_pos quits, if_pos quits]
      · rw [if_neg quits, if_neg quits, same frame quits]
    have sameSystem := system_turns changes quitAt keymap system others sameDue steps
    refine ⟨sameSystem, ?_, ?_⟩
    · simp only [rewritten, scripted, poll, Script.poll_eq, script_turns]
    · simp only [rewritten, scripted, poll, Script.poll_eq, script_turns, sameSystem, sameDue]

/-- A script that is not in order: it lets a key go at the frame at which it leaves, and
before that presses it by another name, and another key for two frames. -/
def shuffled : List KeyChange :=
  [⟨2, "x", false⟩, ⟨1, "w", false⟩, ⟨0, "ArrowUp", true⟩, ⟨0, "x", true⟩]

/-- After three polls, the second of which leaves, the first key is still down and the other
one up. The script in order, without the change that is never made, does the same. -/
theorem keys_follow_script_shuffled :
    let scripted := (start shuffled (some 1) (.brief 0 0)).turns .conventional [1, 0, 2]
    let rewritten := (start [⟨0, "ArrowUp", true⟩, ⟨0, "x", true⟩, ⟨2, "x", false⟩] (some 1)
      (.brief 0 0)).turns .conventional [1, 0, 2]
    scripted.system.machine.keys.get 5 = true ∧ scripted.system.machine.keys.get 0 = false ∧
      rewritten.system = scripted.system := by
  intro scripted rewritten
  obtain ⟨keys, _, _, same⟩ :=
    keys_follow_script shuffled (some 1) .conventional (.brief 0 0) [1, 0, 2]
  have made : Script.made shuffled (some 1) 3 =
      [⟨0, "ArrowUp", true⟩, ⟨0, "x", true⟩, ⟨2, "x", false⟩] := by
    rw [Script.made_succ, Script.made_succ, Script.made_succ, Script.made_zero]
    decide
  have upward : Script.latest shuffled (some 1) .conventional 3 5 = some ⟨0, "ArrowUp", true⟩ := by
    rw [Script.latest, made]
    decide
  have lifted : Script.latest shuffled (some 1) .conventional 3 0 = some ⟨2, "x", false⟩ := by
    rw [Script.latest, made]
    decide
  refine ⟨?_, ?_, (same _ ?_).1⟩
  · have down := keys 5
    simp only [List.length_cons, List.length_nil, Nat.zero_add, upward] at down
    exact down
  · have up := keys 0
    simp only [List.length_cons, List.length_nil, Nat.zero_add, lifted] at up
    exact up
  · intro frame stays
    have other : frame ≠ 1 := fun same => stays (congrArg some same.symm)
    by_cases first : frame = 0
    · subst first
      decide
    · by_cases third : frame = 2
      · subst third
        decide
      · simp [shuffled, Ne.symm other, Ne.symm first, Ne.symm third]

end Scripted

end Chip8
