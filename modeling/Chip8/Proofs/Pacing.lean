import Chip8.Proofs.Trails

/-!
# The size of batches

How many instructions a frame executes matters to a program only through its keys, which
are polled between the batches, and through the frames that end a run. If no poll moves a
key, nobody leaves and every picture can be shown, the frames of a run are one course: as
many instructions as they allow in all, or fewer where the program ends or an instruction
fails. There is one such course only, so runs that allow equally many instructions leave
the same machine, however they share them out among frames.
-/

namespace Chip8

/-- A source of keys is quiet: from these keys on every poll lets the run go on, and leaves
a machine alone on which these numbers are down. -/
def Quiet {ι : Type} [KeySource ι] (keymap : Keymap) (down : Vector Bool 16) (keys : ι) : Prop :=
  ∃ calm : ι → Prop, calm keys ∧ ∀ keys machine, calm keys → machine.keys = down →
    (KeySource.poll keys keymap machine).answer = .ok .proceed ∧
      (KeySource.poll keys keymap machine).machine = machine ∧
      calm (KeySource.poll keys keymap machine).keys

/-- A quiet source is quiet after a poll. -/
theorem Quiet.next {ι : Type} [KeySource ι] {keymap : Keymap} {down : Vector Bool 16} {keys : ι}
    (quiet : Quiet keymap down keys) (machine : Machine) (same : machine.keys = down) :
    (KeySource.poll keys keymap machine).answer = .ok .proceed ∧
      (KeySource.poll keys keymap machine).machine = machine ∧
      Quiet keymap down (KeySource.poll keys keymap machine).keys := by
  obtain ⟨calm, here, goesOn⟩ := quiet
  obtain ⟨answer, untouched, later⟩ := goesOn keys machine here same
  exact ⟨answer, untouched, calm, later, goesOn⟩

/-- A script without changes that never leaves is quiet. -/
theorem Script.quiet (keymap : Keymap) (down : Vector Bool 16) (frame : UInt64) :
    Quiet keymap down (⟨[], none, frame⟩ : Script) :=
  ⟨fun script => script.changes = [] ∧ script.quitAt = none, ⟨rfl, rfl⟩,
    fun ⟨_, _, _⟩ _ ⟨still, stays⟩ _ => by cases still; cases stays; exact ⟨rfl, rfl, rfl, rfl⟩⟩

/-- How a run ends whose instructions end like this. -/
def BatchEnd.runEnd : BatchEnd → RunEnd
  | .complete => .limit
  | .halted _ _ => .halted
  | .failed fault => .failed (.fault fault)

namespace Console

variable {ι δ φ : Type}

/-- What lies between the one console and the other is a course of at most so many
instructions: the store and the size of batches stay, and the keys are quiet. -/
structure Paced [KeySource ι] (console after : Console ι δ φ) (room : Nat)
    (opcodes : List UInt16) (ending : BatchEnd) : Prop where
  course : console.system.Course room opcodes ending after.system
  store : after.store = console.store
  batchSize : after.batchSize = console.batchSize
  quiet : Quiet after.keymap after.machine.keys after.keys

variable [Display δ]
  (shows : ∀ (display : δ) (frame : Frame), (Display.present display frame).1 = .ok ())
include shows

/-- A display that shows everything shows the picture, and only the display changes. -/
theorem showIf_of_shows (console : Console ι δ φ) (drew : Bool) :
    ∃ display, console.showIf drew = (.ok (), { console with display := display }) := by
  cases drew with
  | false => exact ⟨console.display, rfl⟩
  | true => exact ⟨console.presentation.2, congrArg (·, console.presented) (shows _ _)⟩

/-- With quiet keys a frame is the course of its batch. -/
theorem Framed.paced [KeySource ι] {console after : Console ι δ φ}
    {happenings : List Happening} {frames executed : Nat} {ending : Option RunEnd}
    (way : console.Framed happenings after frames executed ending)
    (quiet : Quiet console.keymap console.machine.keys console.keys) :
    ∃ opcodes batchEnd, console.Paced after console.batchSize opcodes batchEnd ∧
      executed = opcodes.length ∧
      ending = batchEnd.outcome?.map fun _ => batchEnd.runEnd := by
  obtain ⟨proceeds, untouched, later⟩ := quiet.next console.machine rfl
  have here : console.polled.system = console.system :=
    congrArg (System.mk · console.generator) untouched
  have paced {opcodes : List UInt16} {batchEnd : BatchEnd} {last : System}
      (course : console.polled.system.Course console.batchSize opcodes batchEnd last)
      (display : δ) :
      console.Paced { console.polled.withSystem last with display := display }
        console.batchSize opcodes batchEnd := by
    rw [here] at course
    have still : last.machine.keys = console.machine.keys := course.keys
    rw [← still] at later
    exact ⟨course, rfl, rfl, later⟩
  have seen (last : System) (drew : Bool) :=
    showIf_of_shows shows (console.polled.withSystem last) drew
  cases way with
  | refused failure answer => cases answer.symm.trans proceeds
  | quit answer => cases answer.symm.trans proceeds
  | unseen answer opcodes batchEnd last course faultless error shown =>
    obtain ⟨display, same⟩ := seen last (drawsSprite opcodes)
    rw [same] at shown
    cases shown
  | fault answer opcodes fault last course =>
    exact ⟨opcodes, .failed fault, paced course console.display, rfl, rfl⟩
  | halted answer opcodes cause pc last course shown =>
    obtain ⟨display, same⟩ := seen last (drawsSprite opcodes)
    rw [same]
    exact ⟨opcodes, .halted cause pc, paced course display, rfl, rfl⟩
  | complete answer opcodes last course shown =>
    obtain ⟨display, same⟩ := seen last (drawsSprite opcodes)
    rw [same]
    exact ⟨opcodes, .complete, paced course display, rfl, rfl⟩

end Console

/-- A batch that ends a run does not end complete. -/
theorem BatchEnd.ne_complete {ending : BatchEnd} {ended : RunEnd}
    (ends : some ended = ending.outcome?.map fun _ => ending.runEnd) :
    ending ≠ .complete ∧ ended = ending.runEnd := by
  cases ending <;> cases ends <;> simp

/-- A batch that a run goes on from is complete. -/
theorem BatchEnd.eq_complete {ending : BatchEnd}
    (goesOn : none = ending.outcome?.map fun _ => ending.runEnd) : ending = .complete := by
  cases ending <;> cases goesOn
  rfl

/-- What a limit leaves is one batch and what it leaves after one more frame. -/
theorem mul_sub_of_lt (size frames most : Nat) (below : frames < most) :
    size * (most - frames) = size + size * (most - (frames + 1)) := by
  rw [Nat.add_comm size, ← Nat.mul_succ]
  exact congrArg (size * ·) (by omega)

/-- With quiet keys a run is one course of all the instructions that its frames allow.

The induction is on the frames of the run, and what its limit leaves to it gets less by one
with each of them. -/
theorem Progress.Trail.paced {ι δ φ : Type} [KeySource ι] [Display δ] {most : UInt64}
    {progress last : Progress ι δ φ} {happenings : List Happening} {ending : RunEnd}
    (shows : ∀ (display : δ) (frame : Frame), (Display.present display frame).1 = .ok ())
    (trail : progress.Trail (some most) happenings last ending)
    (quiet : Quiet progress.console.keymap progress.console.machine.keys progress.console.keys) :
    ∃ opcodes batchEnd,
      progress.console.Paced last.console
        (progress.console.batchSize * (most.toNat - progress.frames.toNat)) opcodes batchEnd ∧
      last.executed = progress.executed + .ofNat opcodes.length ∧ ending = batchEnd.runEnd := by
  induction trail with
  | limit progress reached =>
    obtain ⟨_, limited, above⟩ := (progress.isAllowed_eq_false_iff _).mp reached
    cases limited
    rw [Nat.sub_eq_zero_of_le (UInt64.le_iff_toNat_le.mp above)]
    exact ⟨[], .complete, ⟨.complete _, rfl, rfl, quiet⟩, (UInt64.add_zero _).symm, rfl⟩
  | last progress after ending allowed ends =>
    have below := UInt64.lt_iff_toNat_lt.mp ((progress.isAllowed_iff _).mp allowed most rfl)
    obtain ⟨frames, executed, way, _, added⟩ := framed_of_frame ends
    obtain ⟨opcodes, batchEnd, paced, rfl, ended⟩ := way.paced shows quiet
    obtain ⟨early, rfl⟩ := BatchEnd.ne_complete ended
    rw [mul_sub_of_lt _ _ _ below]
    exact ⟨opcodes, batchEnd,
      ⟨paced.course.extend early _, paced.store, paced.batchSize, paced.quiet⟩, added, rfl⟩
  | more progress after last rest ending allowed goesOn later inductionHypothesis =>
    have below := UInt64.lt_iff_toNat_lt.mp ((progress.isAllowed_iff _).mp allowed most rfl)
    have counted := (counts_of_goesOn allowed goesOn).exact most rfl
    obtain ⟨frames, executed, way, _, added⟩ := framed_of_frame goesOn
    obtain ⟨opcodes, batchEnd, paced, rfl, ended⟩ := way.paced shows quiet
    obtain rfl := BatchEnd.eq_complete ended
    obtain ⟨others, batchEnd, further, executions, ended⟩ := inductionHypothesis paced.quiet
    have course := further.course
    rw [paced.batchSize] at course
    rw [mul_sub_of_lt _ _ _ below, ← counted]
    refine ⟨opcodes ++ others, batchEnd, ⟨paced.course.append course, ?_, ?_, further.quiet⟩, ?_,
      ended⟩
    · exact further.store.trans paced.store
    · exact further.batchSize.trans paced.batchSize
    · rw [executions, added, count_count, List.length_append]

namespace Console

/-- What the result of a run says, apart from its frames. -/
def account : Except Failure Summary → Except Failure (UInt64 × Bool) :=
  Except.map fun summary => (summary.instructions, summary.halted)

/-- It is told by what was executed and by the end. -/
theorem account_result {ι δ φ : Type} (progress other : Progress ι δ φ) (ending : RunEnd)
    (executed : progress.executed = other.executed) :
    account (result progress ending) = account (result other ending) := by
  cases ending <;> simp only [account, result, Except.map, executed]

/-- A run fails if the flag registers cannot be saved, and else says what its frames came
to. -/
theorem account_close {ι δ φ : Type} [FlagStore φ] (last : Progress ι δ φ) (ending : RunEnd) :
    account (close last ending).result =
      (FlagStore.save last.console.store last.console.machine.flags).1.bind
        fun _ => account (result last ending) := by
  rw [result_close]
  cases (FlagStore.save last.console.store last.console.machine.flags).1 <;> rfl

variable {ι δ φ : Type}

/-- The console with another size of batches. -/
def withBatchSize (console : Console ι δ φ) (size : Nat) : Console ι δ φ :=
  { console with batchSize := size }

/-- With quiet keys and a display that shows everything, two runs from the same console
that allow equally many instructions both come to an end, and leave the same machine,
generator and store. Both fail alike, or both end alike with equally many instructions. -/
theorem pace_unobservable [KeySource ι] [Display δ] [FlagStore φ] (console : Console ι δ φ)
    (size otherSize : Nat) (frames otherFrames : UInt64)
    (quiet : Quiet console.keymap console.machine.keys console.keys)
    (shows : ∀ (display : δ) (frame : Frame), (Display.present display frame).1 = .ok ())
    (even : size * frames.toNat = otherSize * otherFrames.toNat) :
    ∃ one other, (console.withBatchSize size).run (some frames) = some one ∧
      (console.withBatchSize otherSize).run (some otherFrames) = some other ∧
      one.console.machine = other.console.machine ∧
      one.console.generator = other.console.generator ∧
      one.console.store = other.console.store ∧ account one.result = account other.result := by
  obtain ⟨happened, last, ending, trail⟩ := (console.withBatchSize size).begin.exists_trail frames
  obtain ⟨otherHappened, otherLast, otherEnding, otherTrail⟩ :=
    (console.withBatchSize otherSize).begin.exists_trail otherFrames
  obtain ⟨opcodes, batchEnd, paced, executed, rfl⟩ := trail.paced shows quiet
  obtain ⟨others, otherBatchEnd, otherPaced, otherExecuted, rfl⟩ := otherTrail.paced shows quiet
  have course : console.system.Course (otherSize * otherFrames.toNat) opcodes batchEnd _ :=
    even ▸ paced.course
  -- Both are the course of as many instructions from the same system, and there is only one.
  obtain ⟨rfl, rfl, same⟩ := course.unique otherPaced.course
  obtain ⟨machine, generator⟩ := System.mk.inj same
  have store := paced.store.trans otherPaced.store.symm
  have saved : FlagStore.save last.console.store last.console.machine.flags =
      FlagStore.save otherLast.console.store otherLast.console.machine.flags :=
    congr (congrArg FlagStore.save store) (congrArg Machine.flags machine)
  refine ⟨close last batchEnd.runEnd, close otherLast batchEnd.runEnd,
    (Console.run_eq_some_iff _ _ _).mpr ⟨_, _, _, trail, rfl⟩,
    (Console.run_eq_some_iff _ _ _).mpr ⟨_, _, _, otherTrail, rfl⟩,
    machine, generator, congrArg Prod.snd saved, ?_⟩
  rw [account_close, account_close, saved]
  exact congrArg _ (funext fun _ => account_result _ _ _ (executed.trans otherExecuted.symm))

/-- The short program ends after one instruction, in the second of two frames of one step
as in a single frame of two steps. -/
theorem pace_unobservable_brief :
    1 * 2 = 2 * 1 ∧ ∃ one other, (brief 1).run (some 2) = some one ∧
      (brief 2).run (some 1) = some other ∧ one.console.machine = other.console.machine ∧
      account one.result = account (.ok ⟨1, 1, true⟩) := by
  obtain ⟨one, other, ran, otherRan, machine, _, _, same⟩ :=
    pace_unobservable (brief 0) 1 2 2 1 (Script.quiet _ _ 0) (fun _ _ => rfl) rfl
  obtain ⟨report, reported, done⟩ := run_brief (some 1) 0 rfl
  obtain rfl : other = report := Option.some.inj (otherRan.symm.trans reported)
  exact ⟨rfl, one, other, ran, otherRan, machine, done ▸ same⟩

end Console

end Chip8
