import Chip8.Proofs.Trails

/-!
# What the summary of a run counts

A run that does not fail has a simple form: frames with complete batches, and after them
nothing more because the limit is reached, or the poll at which the user leaves, or one
last frame in which the program ends. The step that tells of the end of the program takes
a place in its batch but is no executed instruction, so the last frame always has fewer
than the others. What the summary says is counted off that form. Its counters have 64 bits
and show a count up to where they start over, as only a run without a limit can make the
frames do.
-/

namespace Chip8

/-- The happenings of a frame that executes these opcodes and may show a picture. -/
def frameOf (opcodes : List UInt16) (ending : BatchEnd) (picture : Option Frame) :
    List Happening :=
  .polled (.ok .proceed) :: (taken opcodes ending ++ picture.toList.map .presented)

/-- The happenings of a run that does not fail, with its frames and executed instructions,
in batches of this size. -/
inductive Form (size : Nat) : List Happening → Nat → Nat → RunEnd → Prop where
  /-- No more frames are allowed. -/
  | limit : Form size [] 0 0 .limit
  /-- The user leaves. -/
  | quit : Form size [.polled (.ok .quit)] 0 0 .quit
  /-- The program ends within a batch. -/
  | halted (opcodes : List UInt16) (cause : Halt) (pc : UInt16) (picture : Option Frame)
      (few : opcodes.length < size) :
      Form size (frameOf opcodes (.halted cause pc) picture) 1 opcodes.length .halted
  /-- A frame is complete, and more may follow. -/
  | complete (opcodes : List UInt16) (picture : Option Frame) (rest : List Happening)
      (frames executed : Nat) (ending : RunEnd) (full : opcodes.length = size)
      (later : Form size rest frames executed ending) :
      Form size (frameOf opcodes .complete picture ++ rest) (frames + 1)
        (opcodes.length + executed) ending

/-- A frame polls once, and the user does not leave; it executes its opcodes and tells of
the end of the program where it comes to that. -/
theorem countP_frameOf (opcodes : List UInt16) (ending : BatchEnd) (picture : Option Frame) :
    let happenings := frameOf opcodes ending picture
    happenings.countP Happening.isPoll = 1 ∧ happenings.countP Happening.isQuit = 0 ∧
      happenings.countP Happening.isExecuted = opcodes.length ∧
      happenings.countP Happening.isHalt =
        (ending.outcome?.toList.map Happening.stepped).countP Happening.isHalt := by
  cases ending <;> cases picture <;>
    simp [frameOf, taken, BatchEnd.outcome?, List.countP_cons, List.countP_append, List.countP_map,
      Function.comp_def, Happening.isPoll, Happening.isExecuted, Happening.isQuit, Happening.isHalt]

namespace Form

variable {size frames executed : Nat} {happenings : List Happening} {ending : RunEnd}

/-! What is counted in a form. -/

/-- Every frame polls once, and the user who leaves does so at one more poll. -/
theorem countP_isPoll (form : Form size happenings frames executed ending) :
    happenings.countP Happening.isPoll = frames + if ending = .quit then 1 else 0 := by
  induction form with
  | limit => rfl
  | quit => rfl
  | halted opcodes cause pc picture few => exact (countP_frameOf opcodes _ picture).1
  | complete opcodes picture rest frames executed ending full later inductionHypothesis =>
    rw [List.countP_append, (countP_frameOf opcodes _ picture).1, inductionHypothesis,
      Nat.add_comm 1, Nat.add_right_comm]

/-- The user leaves once, if at all. -/
theorem countP_isQuit (form : Form size happenings frames executed ending) :
    happenings.countP Happening.isQuit = if ending = .quit then 1 else 0 := by
  induction form with
  | limit => rfl
  | quit => rfl
  | halted opcodes cause pc picture few => exact (countP_frameOf opcodes _ picture).2.1
  | complete opcodes picture rest frames executed ending full later inductionHypothesis =>
    rw [List.countP_append, (countP_frameOf opcodes _ picture).2.1, inductionHypothesis,
      Nat.zero_add]

/-- The executed instructions are counted. -/
theorem countP_isExecuted (form : Form size happenings frames executed ending) :
    happenings.countP Happening.isExecuted = executed := by
  induction form with
  | limit => rfl
  | quit => rfl
  | halted opcodes cause pc picture few => exact (countP_frameOf opcodes _ picture).2.2.1
  | complete opcodes picture rest frames executed ending full later inductionHypothesis =>
    rw [List.countP_append, (countP_frameOf opcodes _ picture).2.2.1, inductionHypothesis]

/-- A step tells of the end of the program once, if at all. -/
theorem countP_isHalt (form : Form size happenings frames executed ending) :
    happenings.countP Happening.isHalt = if ending = .halted then 1 else 0 := by
  induction form with
  | limit => rfl
  | quit => rfl
  | halted opcodes cause pc picture few => exact (countP_frameOf opcodes _ picture).2.2.2
  | complete opcodes picture rest frames executed ending full later inductionHypothesis =>
    rw [List.countP_append, (countP_frameOf opcodes _ picture).2.2.2, inductionHypothesis]
    exact Nat.zero_add _

/-! How many instructions the frames have. -/

/-- Where the program does not end all batches are complete. -/
theorem executed_eq (form : Form size happenings frames executed ending)
    (going : ending ≠ .halted) : executed = frames * size := by
  induction form with
  | limit | quit => exact (Nat.zero_mul size).symm
  | halted => exact absurd rfl going
  | complete opcodes picture rest frames executed ending full later inductionHypothesis =>
    rw [inductionHypothesis going, full, Nat.add_mul, Nat.one_mul, Nat.add_comm]

/-- Where it ends one batch is not complete, the last one. -/
theorem executed_eq_of_halted (form : Form size happenings frames executed .halted) :
    ∃ complete part, frames = complete + 1 ∧ executed = complete * size + part ∧ part < size := by
  generalize same : RunEnd.halted = ending at form
  induction form with
  | limit | quit => cases same
  | halted opcodes cause pc picture few => exact ⟨0, opcodes.length, rfl, by simp, few⟩
  | complete opcodes picture rest frames executed ending full later inductionHypothesis =>
    obtain ⟨complete, part, counted, instructions, few⟩ := inductionHypothesis same
    refine ⟨complete + 1, part, congrArg (· + 1) counted, ?_, few⟩
    rw [instructions, full, Nat.add_mul, Nat.one_mul, Nat.add_comm (complete * size) size,
      Nat.add_assoc]

/-! What happens last. -/

/-- Nothing happens after the user left, which happens once. -/
theorem eq_append_quit (form : Form size happenings frames executed .quit) :
    ∃ earlier, happenings = earlier ++ [.polled (.ok .quit)] ∧
      earlier.countP Happening.isQuit = 0 := by
  generalize same : RunEnd.quit = ending at form
  induction form with
  | limit | halted => cases same
  | quit => exact ⟨[], rfl, rfl⟩
  | complete opcodes picture rest frames executed ending full later inductionHypothesis =>
    obtain ⟨earlier, rfl, stayed⟩ := inductionHypothesis same
    refine ⟨frameOf opcodes .complete picture ++ earlier, (List.append_assoc _ _ _).symm, ?_⟩
    rw [List.countP_append, (countP_frameOf opcodes _ picture).2.1, stayed]

/-- The step that tells of the end of the program is the last of the run; only a picture
may follow. -/
theorem eq_append_halted (form : Form size happenings frames executed .halted) :
    ∃ earlier cause pc pictures,
      happenings = earlier ++ .stepped (.ok (.halted cause pc)) :: pictures ∧
      ∀ happening ∈ pictures, happening.isPicture = true := by
  generalize same : RunEnd.halted = ending at form
  induction form with
  | limit | quit => cases same
  | halted opcodes cause pc picture few =>
    refine ⟨.polled (.ok .proceed) :: taken opcodes .complete, cause, pc,
      picture.toList.map .presented, ?_, ?_⟩
    · simp [frameOf, taken, BatchEnd.outcome?]
    · simp [Happening.isPicture]
  | complete opcodes picture rest frames executed ending full later inductionHypothesis =>
    obtain ⟨earlier, cause, pc, pictures, rfl, shown⟩ := inductionHypothesis same
    exact ⟨frameOf opcodes .complete picture ++ earlier, cause, pc, pictures,
      (List.append_assoc _ _ _).symm, shown⟩

end Form

/-- At most one picture is shown. -/
theorem Console.pictureIf_eq {ι δ φ : Type} (console : Console ι δ φ) (drew : Bool) :
    ∃ picture : Option Frame, console.pictureIf drew = picture.toList.map .presented := by
  cases drew with
  | false => exact ⟨none, rfl⟩
  | true => exact ⟨some console.machine.frame, rfl⟩

namespace Progress

variable {ι δ φ : Type} [KeySource ι] [Display δ] {limit : Option UInt64}
  {progress last : Progress ι δ φ} {happenings : List Happening} {ending : RunEnd}

/-- A run fails or has a form, with its frames and instructions counted. -/
theorem Trail.form (trail : progress.Trail limit happenings last ending) :
    (∃ failure, ending = .failed failure) ∨
    ∃ frames executed,
      Form progress.console.batchSize happenings frames executed ending ∧
      Counts limit progress last frames ∧
      last.executed = progress.executed + .ofNat executed := by
  induction trail with
  | limit progress reached =>
    exact .inr ⟨0, 0, .limit, .nothing progress, (UInt64.add_zero _).symm⟩
  | last progress after ending allowed ends =>
    obtain ⟨frames, executed, way, framesAdded, executedAdded⟩ := framed_of_frame ends
    have counts : Counts limit progress after frames :=
      .frame allowed way.frames_le_one framesAdded
    generalize progress.console.frameHappenings = happenings at way
    generalize after.console = console at way
    cases way with
    | refused | fault | unseen => exact .inl ⟨_, rfl⟩
    | quit answer => exact .inr ⟨0, 0, .quit, counts, executedAdded⟩
    | halted answer opcodes cause pc system course shown =>
      have few : opcodes.length < progress.console.batchSize := course.length_lt (by simp)
      obtain ⟨picture, same⟩ :=
        (progress.console.polled.withSystem system).pictureIf_eq (drawsSprite opcodes)
      rw [same]
      exact .inr ⟨1, opcodes.length, .halted opcodes cause pc picture few, counts, executedAdded⟩
  | more progress after last rest ending allowed goesOn later inductionHypothesis =>
    obtain ⟨frames, executed, way, framesAdded, executedAdded⟩ := framed_of_frame goesOn
    have size := way.batchSize
    have counts : Counts limit progress after frames :=
      .frame allowed way.frames_le_one framesAdded
    obtain failed | ⟨framesLater, executedLater, form, countsLater, added⟩ := inductionHypothesis
    · exact .inl failed
    rw [size] at form
    generalize progress.console.frameHappenings = happenings at way
    generalize after.console = console at way
    cases way with
    | complete answer opcodes system course shown =>
      obtain ⟨picture, same⟩ :=
        (progress.console.polled.withSystem system).pictureIf_eq (drawsSprite opcodes)
      refine .inr ⟨framesLater + 1, opcodes.length + executedLater, ?_, ?_, ?_⟩
      · rw [same]
        exact .complete opcodes picture rest framesLater executedLater ending course.length_eq form
      · rw [Nat.add_comm]
        exact counts.append countsLater
      · rw [added, executedAdded, count_count]

end Progress

namespace Console

variable {ι δ φ : Type}

/-- A summary has the counts of the frames that were run, and says which of the three ends
without failure it was. -/
theorem result_eq_ok {progress : Progress ι δ φ} {ending : RunEnd} {summary : Summary}
    (told : result progress ending = .ok summary) :
    progress.frames = summary.frames ∧ progress.executed = summary.instructions ∧
      (ending = .limit ∧ summary.halted = false ∨ ending = .quit ∧ summary.halted = false ∨
        ending = .halted ∧ summary.halted = true) := by
  cases ending with
  | failed failure => cases told
  | limit | quit | halted =>
    cases told
    simp

/-- A run that does not fail gives what its frames came to. -/
theorem result_of_close [FlagStore φ] {last : Progress ι δ φ} {ending : RunEnd}
    {summary : Summary} (done : (close last ending).result = .ok summary) :
    result last ending = .ok summary := by
  rw [result_close] at done
  cases saved : (FlagStore.save last.console.store last.console.machine.flags).1 with
  | error failure =>
    rw [saved] at done
    cases done
  | ok _ =>
    rw [saved] at done
    exact done

end Console

namespace Progress.Trail

variable {ι δ φ : Type} [KeySource ι] [Display δ] {limit : Option UInt64}
  {console : Console ι δ φ} {last : Progress ι δ φ} {happenings : List Happening}
  {ending : RunEnd}

/-- A run counts its frames from zero, and no more of them than a limit allows. -/
theorem counts_begin {frames : Nat} (trail : console.begin.Trail limit happenings last ending)
    (counts : Counts limit console.begin last frames) :
    last.frames = .ofNat frames ∧ ∀ most, limit = some most → frames ≤ most.toNat := by
  refine ⟨counts.counted.trans (UInt64.zero_add _), ?_⟩
  rintro most rfl
  have exact : last.frames.toNat = 0 + frames := counts.exact most rfl
  have below := UInt64.le_iff_toNat_le.mp (trail.frames_le UInt64.zero_le)
  omega

/-- A run that does not fail ends at its limit exactly if it has as many frames and did not
come to the end of the program. -/
theorem limit_iff {summary : Summary} (trail : console.begin.Trail limit happenings last ending)
    (told : Console.result last ending = .ok summary) :
    ending = .limit ↔ limit = some summary.frames ∧ summary.halted = false := by
  obtain ⟨counted, _, ⟨rfl, going⟩ | ⟨rfl, going⟩ | ⟨rfl, stopped⟩⟩ := Console.result_eq_ok told
  · obtain ⟨most, rfl, above⟩ := (last.isAllowed_eq_false_iff limit).mp trail.reached
    have reached : last.frames = most :=
      UInt64.le_antisymm (trail.frames_le UInt64.zero_le) above
    simp [← counted, reached, going]
  · have below := (last.isAllowed_iff limit).mp trail.allowed
    refine iff_of_false (by simp) ?_
    rintro ⟨limited, _⟩
    exact UInt64.lt_irrefl _ (counted ▸ below _ limited)
  · simp [stopped]

end Progress.Trail

namespace Console

variable {ι δ φ : Type}

/-- The summary of a run counts what happened in it. Its instructions are the steps that
executed one, and its frames do not exceed the limit. The run ended in one of three ways.
At its limit, or where the user left, all batches were complete; there was one poll for
each frame, and one more where the user left, which is the last that happened. At the end
of the program the last batch was not complete; there was one poll for each frame, and
the one step that told of the end is the last of all steps. Without a limit a run does not
end at one. The counters of the summary have 64 bits. -/
theorem summary_counts [KeySource ι] [Display δ] [FlagStore φ] (console : Console ι δ φ)
    (limit : Option UInt64) (report : Report ι δ φ) (ran : console.run limit = some report)
    (summary : Summary) (done : report.result = .ok summary) :
    ∃ (happenings : List Happening) (frames : Nat),
      console.Trail limit happenings report ∧
      (∃ last, console.Does happenings last ∧
        report.console = { last with store := report.console.store }) ∧
      let executed := happenings.countP Happening.isExecuted
      let polls := happenings.countP Happening.isPoll
      let quits := happenings.countP Happening.isQuit
      let halts := happenings.countP Happening.isHalt
      summary.frames = .ofNat frames ∧ summary.instructions = .ofNat executed ∧
      (∀ most, limit = some most → frames ≤ most.toNat) ∧
      ((summary.halted = false ∧ limit = some summary.frames ∧
          executed = frames * console.batchSize ∧ polls = frames ∧ quits = 0 ∧ halts = 0) ∨
        (summary.halted = false ∧
          executed = frames * console.batchSize ∧ polls = frames + 1 ∧ halts = 0 ∧
          ∃ earlier, happenings = earlier ++ [.polled (.ok .quit)] ∧
            earlier.countP Happening.isQuit = 0) ∨
        (summary.halted = true ∧
          (frames - 1) * console.batchSize ≤ executed ∧
          executed < frames * console.batchSize ∧
          polls = frames ∧ quits = 0 ∧ halts = 1 ∧
          ∃ earlier cause pc pictures,
            happenings = earlier ++ .stepped (.ok (.halted cause pc)) :: pictures ∧
            ∀ happening ∈ pictures, happening.isPicture = true)) := by
  obtain ⟨happenings, last, ending, trail, rfl⟩ := (console.run_eq_some_iff limit report).mp ran
  have told := result_of_close done
  obtain ⟨counted, instructions, ends⟩ := result_eq_ok told
  obtain ⟨failure, rfl⟩ | ⟨frames, executed, form, counts, added⟩ := trail.form
  · cases told
  obtain ⟨total, within⟩ := trail.counts_begin counts
  have executedTold : summary.instructions = .ofNat executed := by
    rw [← instructions, added]
    exact UInt64.zero_add _
  refine ⟨happenings, frames, ⟨last, ending, trail, rfl⟩, ⟨_, trail.does, rfl⟩, ?_⟩
  simp only [form.countP_isExecuted, form.countP_isPoll, form.countP_isQuit, form.countP_isHalt]
  refine ⟨counted.symm.trans total, executedTold, within, ?_⟩
  have limited := trail.limit_iff told
  rcases ends with ⟨rfl, going⟩ | ⟨rfl, going⟩ | ⟨rfl, stopped⟩
  · exact .inl ⟨going, (limited.mp rfl).1, form.executed_eq (by simp), rfl, rfl, rfl⟩
  · exact .inr (.inl ⟨going, form.executed_eq (by simp), rfl, rfl, form.eq_append_quit⟩)
  · obtain ⟨complete, part, allFrames, allExecuted, few⟩ := form.executed_eq_of_halted
    refine .inr (.inr ⟨stopped, ?_, ?_, rfl, rfl, rfl, form.eq_append_halted⟩)
    · rw [allFrames, allExecuted, Nat.add_sub_cancel]
      exact Nat.le_add_right _ _
    · rw [allFrames, allExecuted, Nat.add_mul, Nat.one_mul]
      exact Nat.add_lt_add_left few _

/-- Of five frames with batches of twenty instructions the short program takes one: one
poll, one instruction, and the step that tells of its end. -/
theorem summary_counts_brief :
    ∃ report happenings, (brief 20).run (some 5) = some report ∧
      report.result = .ok ⟨1, 1, true⟩ ∧ (brief 20).Trail (some 5) happenings report ∧
      happenings.countP Happening.isExecuted = 1 ∧ happenings.countP Happening.isPoll = 1 ∧
      happenings.countP Happening.isHalt = 1 := by
  obtain ⟨report, ran, done⟩ := run_brief (some 5) 18 rfl
  obtain ⟨happenings, frames, trail, _, counted, instructions, within,
      ⟨going, _⟩ | ⟨going, _⟩ | ⟨_, _, few, polls, _, halts, _⟩⟩ :=
    summary_counts (brief 20) (some 5) report ran ⟨1, 1, true⟩ done
  · cases going
  · cases going
  have small : frames ≤ 5 := within 5 rfl
  have single : frames = 1 := by
    have told := congrArg UInt64.toNat counted
    rw [UInt64.toNat_ofNat_of_lt' (Nat.lt_of_le_of_lt small (by decide))] at told
    exact told.symm
  subst single
  have fewer : happenings.countP Happening.isExecuted < 20 := few
  have executed := congrArg UInt64.toNat instructions
  rw [UInt64.toNat_ofNat_of_lt' (Nat.lt_trans fewer (by decide))] at executed
  exact ⟨report, happenings, ran, done, trail, executed.symm, polls, halts⟩

end Console

end Chip8
