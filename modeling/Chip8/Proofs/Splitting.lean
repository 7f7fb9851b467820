import Chip8.Proofs.Summaries

/-!
# Runs in two parts

A run that stops at its limit can be taken up again by another run, and the two do what
one run does whose limit is the sum of theirs. The second run counts from zero and finds
the flag registers saved in its store, and neither matters: nothing in a frame looks at
the counts or into the store. So a run and one that takes it up go on side by side, and
end in the same way in the same frame. Their counters are as far apart at the end as they
were at the beginning, also where those of the instructions start over.
-/

namespace Chip8

namespace Console

variable {ι δ φ : Type}

/-- The console with another store. -/
def withStore (console : Console ι δ φ) (store : φ) : Console ι δ φ :=
  { console with store := store }

/-- Showing the picture does not look into the store. -/
theorem showIf_withStore [Display δ] (console : Console ι δ φ) (store : φ) (drew : Bool) :
    (console.withStore store).showIf drew =
      ((console.showIf drew).1, (console.showIf drew).2.withStore store) := by
  cases drew <;> rfl

/-- Nor does a frame. -/
theorem frameHappenings_withStore [KeySource ι] (console : Console ι δ φ) (store : φ) :
    (console.withStore store).frameHappenings = console.frameHappenings := rfl

end Console

namespace Progress

variable {ι δ φ : Type}

/-- One run takes up the other, of which there were so many frames and instructions
before it began. They may differ in their stores and in their notices. -/
structure TakesUp (part whole : Progress ι δ φ) (frames executed : UInt64) : Prop where
  console : ∃ store, part.console = whole.console.withStore store
  frames : whole.frames = frames + part.frames
  executed : whole.executed = executed + part.executed

namespace TakesUp

variable {part whole : Progress ι δ φ} {frames executed : UInt64}

/-- Both execute the same batch, and go on or end alike. -/
theorem advance [Display δ] (same : part.TakesUp whole frames executed) :
    part.advance.1.TakesUp whole.advance.1 frames executed ∧
      part.advance.2 = whole.advance.2 := by
  obtain ⟨console, framesBefore, instructions, notices⟩ := whole
  obtain ⟨partConsole, partFrames, partInstructions, partNotices⟩ := part
  obtain ⟨⟨store, restocked⟩, counted, executions⟩ := same
  simp only at restocked counted executions
  subst restocked counted executions
  obtain ⟨opcodes, ending, last, course⟩ := console.system.exists_course console.batchSize
  have stepped : (console.withStore store).system.Course console.batchSize opcodes ending last :=
    course
  have shown : ((console.withStore store).withSystem last).showIf (drawsSprite opcodes) = _ :=
    (console.withSystem last).showIf_withStore store (drawsSprite opcodes)
  cases ending with
  | failed fault =>
    rw [advance_failed _ course, advance_failed _ stepped]
    exact ⟨⟨⟨store, rfl⟩, rfl, UInt64.add_assoc _ _ _⟩, rfl⟩
  | halted cause pc =>
    obtain ⟨wholeNotices, advanced⟩ :=
      advance_halted ⟨console, frames + partFrames, executed + partInstructions, notices⟩ course
    obtain ⟨laterNotices, restocked⟩ :=
      advance_halted ⟨console.withStore store, partFrames, partInstructions, partNotices⟩ stepped
    rw [advanced, restocked]
    refine ⟨⟨⟨store, congrArg Prod.snd shown⟩, UInt64.add_assoc _ _ _, UInt64.add_assoc _ _ _⟩, ?_⟩
    rw [shown]
  | complete =>
    rw [advance_complete _ course, advance_complete _ stepped]
    refine ⟨⟨⟨store, congrArg Prod.snd shown⟩, UInt64.add_assoc _ _ _, UInt64.add_assoc _ _ _⟩, ?_⟩
    rw [shown]

/-- Both poll alike, and do the same after it. -/
theorem frame [KeySource ι] [Display δ] (same : part.TakesUp whole frames executed) :
    part.frame.1.TakesUp whole.frame.1 frames executed ∧ part.frame.2 = whole.frame.2 ∧
      part.console.frameHappenings = whole.console.frameHappenings := by
  obtain ⟨store, restocked⟩ := same.console
  have polling : part.console.poll = whole.console.poll := by rw [restocked]; rfl
  have polled : part.polled.TakesUp whole.polled frames executed :=
    ⟨⟨store, by rw [Progress.polled, restocked]; rfl⟩, same.frames, same.executed⟩
  have happened : part.console.frameHappenings = whole.console.frameHappenings := by
    rw [restocked, Console.frameHappenings_withStore]
  rw [frame_eq, frame_eq, polling]
  cases whole.console.poll.answer with
  | error failure => exact ⟨polled, rfl, happened⟩
  | ok control =>
    cases control with
    | quit => exact ⟨⟨polled.console, polled.frames, polled.executed⟩, rfl, happened⟩
    | proceed => exact ⟨polled.advance.1, polled.advance.2, happened⟩

/-- One more frame is allowed to both or to neither, if the limit of the one is the frames
before it and the limit of the other. -/
theorem isAllowed (same : part.TakesUp whole frames executed) (more : UInt64)
    (room : frames.toNat + more.toNat < UInt64.size) (within : part.frames ≤ more) :
    whole.isAllowed (some (frames + more)) = part.isAllowed (some more) := by
  have below := UInt64.le_iff_toNat_le.mp within
  have here : whole.frames.toNat = frames.toNat + part.frames.toNat := by
    rw [same.frames, UInt64.toNat_add]
    exact Nat.mod_eq_of_lt (Nat.lt_of_le_of_lt (Nat.add_le_add_left below _) room)
  have limit : (frames + more).toNat = frames.toNat + more.toNat := by
    rw [UInt64.toNat_add]
    exact Nat.mod_eq_of_lt room
  simp only [Progress.isAllowed, Option.all_some, UInt64.lt_iff_toNat_lt, here, limit,
    Nat.add_lt_add_iff_left]

/-- So they stay together to the end. -/
theorem trail [KeySource ι] [Display δ] {more : UInt64} {happenings : List Happening}
    {last : Progress ι δ φ} {ending : RunEnd}
    (trail : part.Trail (some more) happenings last ending)
    (same : part.TakesUp whole frames executed)
    (room : frames.toNat + more.toNat < UInt64.size) (within : part.frames ≤ more) :
    ∃ finish, whole.Trail (some (frames + more)) happenings finish ending ∧
      last.TakesUp finish frames executed := by
  induction trail generalizing whole with
  | limit part reached =>
    rw [← same.isAllowed more room within] at reached
    exact ⟨whole, .limit whole reached, same⟩
  | last part after ending allowed ends =>
    obtain ⟨together, ended, happened⟩ := same.frame
    rw [← same.isAllowed more room within] at allowed
    rw [ends] at together ended
    rw [happened]
    exact ⟨_, .last whole _ ending allowed (Prod.ext rfl ended.symm), together⟩
  | more part after last rest ending allowed goesOn later inductionHypothesis =>
    obtain ⟨together, ended, happened⟩ := same.frame
    have further := frames_le_of_frame allowed goesOn
    rw [← same.isAllowed more room within] at allowed
    rw [goesOn] at together ended
    rw [happened]
    obtain ⟨finish, trail, finished⟩ := inductionHypothesis together further
    exact ⟨finish, .more whole _ finish rest ending allowed (Prod.ext rfl ended.symm) trail,
      finished⟩

end TakesUp

/-- A run that reached its limit goes on where the limit is higher. -/
theorem Trail.append [KeySource ι] [Display δ] {progress middle last : Progress ι δ φ}
    {first most : UInt64} {earlier rest : List Happening} {ending : RunEnd}
    (trail : progress.Trail (some first) earlier middle .limit) (higher : first ≤ most)
    (later : middle.Trail (some most) rest last ending) :
    progress.Trail (some most) (earlier ++ rest) last ending := by
  have stillAllowed {progress : Progress ι δ φ} (allowed : progress.isAllowed (some first) = true) :
      progress.isAllowed (some most) = true := by
    rw [isAllowed_iff] at allowed ⊢
    rintro _ ⟨⟩
    exact UInt64.lt_of_lt_of_le (allowed first rfl) higher
  generalize same : RunEnd.limit = reached at trail
  induction trail with
  | limit progress => exact later
  | last progress after ending allowed ends =>
    obtain ⟨_, _, way, _⟩ := framed_of_frame ends
    exact absurd (congrArg some same).symm way.ne_limit
  | more progress after middle happened ended allowed goesOn trail inductionHypothesis =>
    rw [List.append_assoc]
    exact .more progress after last _ ending (stillAllowed allowed) goesOn
      (inductionHypothesis later same)

end Progress

namespace Console

variable {ι δ φ : Type}

/-- A run that says that it went through all its frames without an end of the program has
reached its limit. -/
theorem reached_of_close [KeySource ι] [Display δ] [FlagStore φ] {progress last : Progress ι δ φ}
    {first executed : UInt64} {happenings : List Happening} {ending : RunEnd}
    (trail : progress.Trail (some first) happenings last ending)
    (reached : (close last ending).result = .ok ⟨first, executed, false⟩) :
    ending = .limit ∧ last.frames = first ∧ last.executed = executed := by
  obtain ⟨frames, instructions, ends⟩ := result_eq_ok (result_of_close reached)
  rcases ends with ⟨rfl, _⟩ | ⟨rfl, _⟩ | ⟨_, stopped⟩
  · exact ⟨rfl, frames, instructions⟩
  · have below := (last.isAllowed_iff _).mp trail.allowed first rfl
    rw [frames] at below
    exact absurd below (UInt64.lt_irrefl first)
  · cases stopped

/-- The summary of a run that takes up another one has what is left to it. -/
theorem result_takesUp {part whole : Progress ι δ φ} {frames executed : UInt64}
    (same : part.TakesUp whole frames executed) (ending : RunEnd) :
    result whole ending = (result part ending).map
      (fun rest => ⟨frames + rest.frames, executed + rest.instructions, rest.halted⟩) := by
  cases ending <;> simp only [result, same.frames, same.executed, Except.map]

/-- A run that reached its limit and another one after it, with a text in memory for the
flag registers, do what one run does whose limit is the sum of theirs. Both come to an end.
They leave the same console, pictures and stored text included, the same things happen in
the same order, and the second run fails as the one run does or ends as it does, with the
frames and instructions that are left to it. -/
theorem run_split [KeySource ι] [Display δ] (console : Console ι δ TextStore)
    (first more executed : UInt64) (room : first.toNat + more.toNat < UInt64.size)
    (stopped : Report ι δ TextStore) (ran : console.run (some first) = some stopped)
    (reached : stopped.result = .ok ⟨first, executed, false⟩) :
    ∃ rest whole, stopped.console.run (some more) = some rest ∧
      console.run (some (first + more)) = some whole ∧
      whole.console = rest.console ∧
      whole.result = rest.result.map (fun later =>
        ⟨first + later.frames, executed + later.instructions, later.halted⟩) ∧
      ∃ earlier later, console.Trail (some first) earlier stopped ∧
        stopped.console.Trail (some more) later rest ∧
        console.Trail (some (first + more)) (earlier ++ later) whole := by
  obtain ⟨earlier, middle, ending, trail, rfl⟩ := (console.run_eq_some_iff _ _).mp ran
  obtain ⟨rfl, frames, instructions⟩ := reached_of_close trail reached
  generalize left : (close middle .limit).console = taken
  have takesUp : taken.begin.TakesUp middle first executed := by
    subst left
    exact ⟨⟨_, rfl⟩, frames.trans (UInt64.add_zero _).symm,
      instructions.trans (UInt64.add_zero _).symm⟩
  obtain ⟨later, last, ending, rest⟩ := taken.begin.exists_trail more
  obtain ⟨finish, whole, together⟩ := takesUp.trail rest room UInt64.zero_le
  have higher : first ≤ first + more := by
    rw [UInt64.le_iff_toNat_le, UInt64.toNat_add, Nat.mod_eq_of_lt room]
    exact Nat.le_add_right _ _
  have parts : taken.Trail (some more) later (close last ending) := ⟨last, ending, rest, rfl⟩
  have joined : console.Trail (some (first + more)) (earlier ++ later) (close finish ending) :=
    ⟨finish, ending, trail.append higher whole, rfl⟩
  refine ⟨close last ending, close finish ending, (taken.run_eq_some_iff _ _).mpr ⟨_, parts⟩,
    (console.run_eq_some_iff _ _).mpr ⟨_, joined⟩, ?_, result_takesUp together ending,
    earlier, later, ⟨middle, .limit, trail, rfl⟩, parts, joined⟩
  -- Both save the same flag registers, and nothing else is different.
  obtain ⟨store, same⟩ := together.console
  rw [console_close, console_close, same]
  rfl

/-- The short program takes two frames of one step. The second of two runs with one frame
each tells of its end, as the one run with both frames does. -/
theorem run_split_brief :
    ∃ stopped rest whole, (brief 1).run (some 1) = some stopped ∧
      stopped.result = .ok ⟨1, 1, false⟩ ∧ stopped.console.run (some 1) = some rest ∧
      (brief 1).run (some 2) = some whole ∧ whole.console = rest.console ∧
      whole.result = rest.result.map
        (fun later => ⟨1 + later.frames, 1 + later.instructions, later.halted⟩) := by
  obtain ⟨stopped, ran, reached⟩ := run_brief_one
  obtain ⟨rest, whole, after, together, console, result, _⟩ :=
    run_split (brief 1) 1 1 1 (by decide) stopped ran reached
  exact ⟨stopped, rest, whole, ran, reached, after, together, console, result⟩

end Console

end Chip8
