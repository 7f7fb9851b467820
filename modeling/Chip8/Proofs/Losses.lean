import Chip8.Proofs.Pictures

/-!
# Pictures lost to a failing instruction

An instruction that fails ends a run within a frame, before that frame comes to its
picture. All frames before this one were complete, so the display has their pictures. A
sprite that the failing batch had drawn is not shown any more, where the end of the program
in its place would have it shown.
-/

namespace Chip8

/-! ## Steps that fail -/

/-- No step of a batch fails but the one that ends it. -/
theorem fault_mem_taken (opcodes : List UInt16) (ending : BatchEnd) (fault : Fault) :
    Happening.stepped (.error fault) ∈ taken opcodes ending ↔ ending = .failed fault := by
  cases ending <;> simp [taken, BatchEnd.outcome?, eq_comm]

namespace Console

variable {ι δ φ : Type}

/-- A picture is no step. -/
theorem fault_not_mem_pictureIf (console : Console ι δ φ) (drew : Bool) (fault : Fault) :
    Happening.stepped (.error fault) ∉ console.pictureIf drew := by
  cases drew <;> simp [pictureIf]

/-- A frame in which a step fails is left with that step. -/
theorem Framed.of_fault [KeySource ι] [Display δ] {console after : Console ι δ φ}
    {happenings : List Happening} {frames executed : Nat} {ending : Option RunEnd}
    (way : console.Framed happenings after frames executed ending) {fault : Fault}
    (failed : .stepped (.error fault) ∈ happenings) :
    console.poll.answer = .ok .proceed ∧ ending = some (.failed (.fault fault)) ∧
      ∃ opcodes last,
        console.polled.system.Course console.batchSize opcodes (.failed fault) last ∧
        happenings = .polled (.ok .proceed) :: taken opcodes (.failed fault) ∧
        after = console.polled.withSystem last := by
  cases way with
  | refused | quit => simp at failed
  | fault answer opcodes found last course =>
    simp only [List.mem_cons, reduceCtorEq, fault_mem_taken, false_or] at failed
    obtain rfl : found = fault := BatchEnd.failed.inj failed
    exact ⟨answer, rfl, opcodes, last, course, rfl, rfl⟩
  | unseen answer opcodes ending last course whole =>
    simp only [List.mem_cons, List.mem_append, reduceCtorEq, fault_mem_taken,
      fault_not_mem_pictureIf, false_or, or_false] at failed
    rw [failed] at whole
    cases whole
  | halted | complete =>
    simp [fault_mem_taken, fault_not_mem_pictureIf] at failed

/-- A frame that ends a run with the failure of an instruction has a step that fails, unless
the key source refuses with that failure. -/
theorem Framed.fault_mem [KeySource ι] [Display δ] {console after : Console ι δ φ}
    {happenings : List Happening} {frames executed : Nat} {fault : Fault}
    (way : console.Framed happenings after frames executed (some (.failed (.fault fault))))
    (honest : console.poll.answer ≠ .error (.fault fault)) :
    .stepped (.error fault) ∈ happenings := by
  cases way with
  | refused failure answer => exact absurd answer honest
  | fault answer opcodes found last course =>
    exact List.mem_cons_of_mem _ ((fault_mem_taken opcodes _ fault).mpr rfl)

/-! ## Runs that break off -/

/-- A run has gone through these frames, and in the batch after them an instruction fails. -/
structure Breaks [KeySource ι] {size : Nat} (console : Console ι δ φ)
    (frames : List (PlayedFrame size)) (middle : Console ι δ φ) (batch : PlayedFrame size)
    (fault : Fault) : Prop where
  earlier : console.Unfolds frames .limit middle
  answer : middle.poll.answer = .ok .proceed
  begins : batch.first = middle.polled.system
  fails : batch.ending = .failed fault

/-- Where an instruction of the first batch fails no frame comes before. -/
theorem Breaks.of_course [KeySource ι] {size : Nat} {console middle : Console ι δ φ}
    {frames : List (PlayedFrame size)} {batch : PlayedFrame size} {fault : Fault}
    (breaks : console.Breaks frames middle batch fault) {opcodes : List UInt16} {found : Fault}
    {last : System}
    (course : console.polled.system.Course size opcodes (.failed found) last) :
    frames = [] ∧ batch.first = console.polled.system ∧ batch.opcodes = opcodes := by
  obtain ⟨earlier, _, begins, _⟩ := breaks
  cases earlier with
  | limit => exact ⟨rfl, begins, ((batch.course_of_first begins).unique course).1⟩
  | complete _ _ frame first whole =>
    obtain ⟨_, different, _⟩ := (frame.course_of_first first).unique course
    rw [whole] at different
    cases different

end Console

namespace Progress.Trail

variable {ι δ φ : Type} [KeySource ι] [Display δ] {limit : Option UInt64}
  {progress last : Progress ι δ φ} {happenings : List Happening} {ending : RunEnd}

/-- A run goes through frames whose batches are complete, so no step fails in them, and
after that it is at its limit or ends in one more frame. -/
theorem ends {size : Nat} (trail : progress.Trail limit happenings last ending)
    (same : progress.console.batchSize = size) :
    ∃ (earlier : List Happening) (middle : Progress ι δ φ) (frames : List (PlayedFrame size))
      (finish : Console ι δ φ),
      Shows limit progress middle earlier .limit frames finish ∧
      (∀ fault, .stepped (.error fault) ∉ earlier) ∧
      (ending = .limit ∧ happenings = earlier ∨
        middle.isAllowed limit = true ∧ middle.frame = (last, some ending) ∧
          happenings = earlier ++ middle.console.frameHappenings) := by
  have nowhere (progress : Progress ι δ φ) :
      Shows limit progress progress [] .limit ([] : List (PlayedFrame size)) progress.console :=
    ⟨.limit _, rfl, .nothing progress, rfl⟩
  induction trail with
  | limit progress reached =>
    exact ⟨[], progress, [], _, nowhere progress, fun _ => List.not_mem_nil, .inl ⟨rfl, rfl⟩⟩
  | last progress after ending allowed ends =>
    exact ⟨[], progress, [], _, nowhere progress, fun _ => List.not_mem_nil,
      .inr ⟨allowed, ends, rfl⟩⟩
  | more progress after last rest ending allowed goesOn later inductionHypothesis =>
    obtain ⟨frames, executed, way, _⟩ := framed_of_frame goesOn
    have counts := counts_of_goesOn allowed goesOn
    obtain ⟨earlier, middle, frames, finish, shows, unfailing, whole⟩ :=
      inductionHypothesis (way.batchSize.trans same)
    have faultless (fault : Fault) :
        .stepped (.error fault) ∉ progress.console.frameHappenings ++ earlier := by
      rw [List.mem_append]
      rintro (failed | failed)
      · cases (way.of_fault failed).2.1
      · exact unfailing fault failed
    refine ⟨progress.console.frameHappenings ++ earlier, middle, ?_⟩
    have told : ending = .limit ∧
          progress.console.frameHappenings ++ rest = progress.console.frameHappenings ++ earlier ∨
        middle.isAllowed limit = true ∧ middle.frame = (last, some ending) ∧
          progress.console.frameHappenings ++ rest =
            progress.console.frameHappenings ++ earlier ++ middle.console.frameHappenings := by
      rw [List.append_assoc]
      exact whole.imp (And.imp_right (congrArg _)) (And.imp_right (And.imp_right (congrArg _)))
    generalize progress.console.frameHappenings = happened at way faultless told ⊢
    generalize leads : after.console = console at way
    cases way with
    | complete answer opcodes system course =>
      rw [same] at course
      let frame : PlayedFrame size := ⟨_, opcodes, _, system, course⟩
      exact ⟨frame :: frames, _, shows.cons answer frame rfl rfl
        (leads.trans (progress.console.polled.showIf_played frame)) counts
        (progress.console.polled.filterMap_played frame), faultless, told⟩

/-- A run in which an instruction fails breaks off there, and has shown the pictures of the
frames before, which are fewer than its limit. -/
theorem breaks {size : Nat} (trail : progress.Trail limit happenings last ending)
    (same : progress.console.batchSize = size) (fault : Fault)
    (failed : .stepped (.error fault) ∈ happenings) :
    ∃ (frames : List (PlayedFrame size)) (middle : Console ι δ φ) (batch : PlayedFrame size),
      progress.console.Breaks frames middle batch fault ∧
      (∀ most, limit = some most → progress.frames.toNat + frames.length < most.toNat) ∧
      ending = .failed (.fault fault) ∧
      happenings.filterMap Happening.picture? = picturesOf frames ∧
      last.console = (middle.polled.withSystem batch.last).withDisplay
        (presentAll progress.console.display (picturesOf frames)) := by
  obtain ⟨earlier, reached, frames, middle, shows, unfailing,
    ⟨_, rfl⟩ | ⟨allowed, ends, rfl⟩⟩ := trail.ends same
  · exact absurd failed (unfailing fault)
  obtain ⟨_, _, way, _⟩ := framed_of_frame ends
  obtain ⟨answer, ended, opcodes, system, course, happened, leads⟩ :=
    way.of_fault ((List.mem_append.mp failed).resolve_left (unfailing fault))
  rw [shows.display] at answer course leads
  have small : middle.batchSize = size := shows.unfolds.batchSize.trans same
  let batch : PlayedFrame size := ⟨middle.polled.system, opcodes, _, system, small ▸ course⟩
  refine ⟨frames, middle, batch, ⟨shows.unfolds, answer, rfl, rfl⟩, ?_, Option.some.inj ended,
    ?_, leads⟩
  · intro most limited
    have below := (reached.isAllowed_iff limit).mp allowed most limited
    rw [← shows.counts.exact most limited]
    exact UInt64.lt_iff_toNat_lt.mp below
  · rw [List.filterMap_append, shows.pictures, happened, List.filterMap_cons_none rfl,
      filterMap_taken, List.append_nil]

end Progress.Trail

namespace Console

variable {ι δ φ : Type} [KeySource ι] [Display δ] [FlagStore φ]

/-- A run whose first batch comes to an instruction that fails ends with that, and a poll
and the steps of this batch are all that happens in it. -/
theorem trail_of_failed (console : Console ι δ φ) (limit : Option UInt64)
    (allowed : console.begin.isAllowed limit = true)
    (answer : console.poll.answer = .ok .proceed) {opcodes : List UInt16} {fault : Fault}
    {last : System}
    (course : console.polled.system.Course console.batchSize opcodes (.failed fault) last) :
    ∃ left, left.console = console.polled.withSystem last ∧
      console.Trail limit (.polled (.ok .proceed) :: taken opcodes (.failed fault))
        (close left (.failed (.fault fault))) := by
  have advanced :=
    (console.begin_frame answer).trans (console.begin.polled.advance_failed course)
  have happened : console.begin.console.frameHappenings =
      .polled (.ok .proceed) :: taken opcodes (.failed fault) := by
    rw [frameHappenings, show console.begin.console = console from rfl, answer,
      console.polled.batchHappenings_eq course, BatchEnd.isFault, Bool.not_true, Bool.and_false,
      pictureIf, if_neg Bool.false_ne_true, List.append_nil]
  have trail := Progress.Trail.last console.begin _ _ allowed advanced
  rw [happened] at trail
  exact ⟨_, rfl, _, _, trail, rfl⟩

/-- Where the flag registers can be saved, and the key source does not refuse with failures
of instructions, a run gives such a failure exactly if an instruction failed in it. -/
theorem result_fault_iff (console : Console ι δ φ) (limit : Option UInt64)
    (happenings : List Happening) (report : Report ι δ φ)
    (trail : console.Trail limit happenings report) (fault : Fault)
    (saved : (FlagStore.save console.store report.console.machine.flags).1 = .ok ())
    (honest : ∀ polling : Console ι δ φ, polling.poll.answer ≠ .error (.fault fault)) :
    report.result = .error (.fault fault) ↔ .stepped (.error fault) ∈ happenings := by
  obtain ⟨last, ending, trail, rfl⟩ := trail
  have told : (close last ending).result = result last ending := by
    have kept : last.console.store = console.store := trail.store
    have answered : (FlagStore.save last.console.store last.console.machine.flags).1 = .ok () := by
      rw [kept]
      exact saved
    rw [result_close, answered]
    rfl
  rw [told]
  constructor
  · intro given
    have failed : ending = .failed (.fault fault) := by
      cases ending <;> cases given
      rfl
    subst failed
    obtain ⟨earlier, middle, _, _, _, _, ⟨impossible, _⟩ | ⟨_, ends, rfl⟩⟩ := trail.ends rfl
    · cases impossible
    obtain ⟨_, _, way, _⟩ := Progress.framed_of_frame ends
    exact List.mem_append_right _ (way.fault_mem (honest _))
  · intro failed
    obtain ⟨_, _, _, _, _, rfl, _⟩ := trail.breaks rfl fault failed
    rfl

/-- A run in which an instruction fails gives this failure, unless the flag registers cannot
be saved. It went through frames with complete batches, fewer than it was allowed, and
through the beginning of a batch in which the instruction failed. Its display was handed
the pictures of the frames that drew a sprite, and not that of the last batch, whether it
drew a sprite or not. So what was drawn is shown exactly if the last batch drew none; its
picture is left to the machine. -/
theorem pictures_shown_of_fault (console : Console ι δ φ) (limit : Option UInt64)
    (happenings : List Happening) (report : Report ι δ φ)
    (trail : console.Trail limit happenings report) (fault : Fault)
    (failed : .stepped (.error fault) ∈ happenings) :
    let pictures := happenings.filterMap Happening.picture?
    ∃ (frames : List (PlayedFrame console.batchSize)) (middle : Console ι δ φ)
      (batch : PlayedFrame console.batchSize),
      console.Breaks frames middle batch fault ∧
      (∀ most, limit = some most → frames.length < most.toNat) ∧
      console.run limit = some report ∧
      report.result = (FlagStore.save console.store report.console.machine.flags).1.bind
        (fun _ => .error (.fault fault)) ∧
      report.console = { middle.polled.withSystem batch.last with
        display := presentAll console.display pictures
        store := report.console.store } ∧
      report.console.machine.frame = batch.picture ∧
      pictures = picturesOf frames ∧
      (pictures = picturesOf (frames ++ [batch]) ↔ batch.draws = false) := by
  intro pictures
  have ran := (console.run_eq_some_iff limit report).mpr ⟨happenings, trail⟩
  obtain ⟨last, ending, trail, rfl⟩ := trail
  have size : console.begin.console.batchSize = console.batchSize := rfl
  obtain ⟨frames, middle, batch, breaks, fewer, rfl, shown, leads⟩ :=
    trail.breaks size fault failed
  have pictures_eq : pictures = picturesOf frames := shown
  have left : (close last (.failed (.fault fault))).console =
      { middle.polled.withSystem batch.last with
        display := presentAll console.display pictures
        store := (close last (.failed (.fault fault))).console.store } := by
    rw [console_close, leads, pictures_eq]
    rfl
  refine ⟨frames, middle, batch, breaks, ?_, ran, ?_, left, ?_, pictures_eq, ?_⟩
  · intro most limited
    have below := fewer most limited
    rwa [show console.begin.frames.toNat = 0 from rfl, Nat.zero_add] at below
  · have kept : last.console.store = console.store := trail.store
    rw [result_close, kept]
    rfl
  · rw [left]
    exact batch.picture_eq
  · rw [pictures_eq, picturesOf_append, List.self_eq_append_right, picturesOf_one]
    cases batch.draws <;> simp

/-- A console whose program draws one sprite and then comes to an opcode that means nothing. -/
def smudging : Console Script Recording TextStore :=
  { sketching with machine := (System.drawing [0xFF, 0xFF]).machine }

/-- Its batch executes the instruction that draws, and fails at the next one. -/
theorem course_smudging : ∃ last,
    smudging.polled.system.Course 20 [0xD005] (.failed (.invalidOpcode 0xFFFF)) last := by
  have copied : [0xD0, 0x05, 0xFF, 0xFF].length < programLimit := by decide
  obtain ⟨counter, loaded, same⟩ := System.drawing_next [0xFF, 0xFF] copied
  have kept : (System.drawing [0xFF, 0xFF]).next.machine.memory.word 0x202 =
      (System.drawing [0xFF, 0xFF]).machine.memory.word 0x202 := by
    rw [Memory.word, Memory.word, same _ (by decide), same _ (by decide)]
  have stands : (System.drawing [0xFF, 0xFF]).next.machine.opcode = 0xFFFF := by
    rw [Machine.opcode, counter]
    exact kept.trans ((Machine.word_load_initial _ copied 2 0xFF 0xFF rfl rfl).trans (by decide))
  have inside : (System.drawing [0xFF, 0xFF]).next.machine.InProgram :=
    ⟨4, loaded, by rw [counter]; decide⟩
  have proceeds : (System.drawing [0xFF, 0xFF]).next.machine.Proceeds :=
    .of_opcode inside (by rw [stands]; decide)
  have failed := Machine.step_of_unknown _ (System.drawing [0xFF, 0xFF]).next.generator proceeds
    (by rw [stands]; rfl)
  rw [stands] at failed
  refine ⟨(System.drawing [0xFF, 0xFF]).next.next, .executed _ _ _ _ _ _ ?_ (.stopped _ _ _ ?_)⟩
  · exact congrArg Stepped.outcome (System.drawing_stepped [0xFF, 0xFF] copied)
  · exact congrArg (fun later : Stepped => some later.outcome) failed.symm

/-- It draws a sprite and fails, and its display is handed nothing. -/
theorem picture_lost_smudging :
    ∃ report, smudging.run (some 5) = some report ∧
      report.result = .error (.fault (.invalidOpcode 0xFFFF)) ∧
      smudging.Trail (some 5) [.polled (.ok .proceed), .stepped (.ok (.executed 0xD005)),
        .stepped (.error (.invalidOpcode 0xFFFF))] report ∧
      (Outcome.executed 0xD005).drew = true ∧ report.console.display.frames = #[] := by
  obtain ⟨system, course⟩ := course_smudging
  obtain ⟨left, leads, trail⟩ := smudging.trail_of_failed (some 5) rfl rfl course
  refine ⟨_, (smudging.run_eq_some_iff _ _).mpr ⟨_, trail⟩, rfl, trail, rfl, ?_⟩
  rw [console_close, leads]
  rfl

/-- The picture of its one batch is left to its machine and was not shown. -/
theorem pictures_shown_of_fault_smudging :
    ∃ happenings report, smudging.Trail (some 5) happenings report ∧
      .stepped (.error (.invalidOpcode 0xFFFF)) ∈ happenings ∧
      ∃ batch : PlayedFrame 20, batch.first = smudging.polled.system ∧
        batch.opcodes = [0xD005] ∧ report.console.machine.frame = batch.picture ∧
        happenings.filterMap Happening.picture? ≠ picturesOf [batch] := by
  obtain ⟨system, course⟩ := course_smudging
  obtain ⟨left, _, trail⟩ := smudging.trail_of_failed (some 5) rfl rfl course
  have failed : .stepped (.error (.invalidOpcode 0xFFFF)) ∈
      .polled (.ok .proceed) :: taken [0xD005] (.failed (.invalidOpcode 0xFFFF)) :=
    List.mem_cons_of_mem _ ((fault_mem_taken _ _ _).mpr rfl)
  obtain ⟨frames, middle, batch, breaks, _, _, _, _, picture, _, exact_iff⟩ :=
    pictures_shown_of_fault smudging (some 5) _ _ trail (.invalidOpcode 0xFFFF) failed
  obtain ⟨rfl, begins, executed⟩ := breaks.of_course course
  have drew : batch.draws = true := by
    rw [← batch.draws_eq, executed]
    rfl
  refine ⟨_, _, trail, failed, batch, begins, executed, picture, fun shown => ?_⟩
  have blank : batch.draws = false := exact_iff.mp shown
  rw [drew] at blank
  cases blank

end Console

end Chip8
