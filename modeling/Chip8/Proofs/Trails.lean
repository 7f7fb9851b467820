import Chip8.Flags.Store
import Chip8.Keys.Script
import Chip8.Proofs.Happenings

/-!
# Runs as trails of frames

A run that comes to its end has a trail: the frames it goes through one after the other,
each allowed by the limit, with what happens in them. Runs and trails are the same thing,
and a run that goes on forever has neither a result nor a trail. Where there is a limit,
every frame that a run goes on from brings the count of frames closer to it, so there is
always a trail, and the count never starts over.
-/

namespace Chip8

/-- Counting a number of things after another one counts both. -/
theorem count_count (count : UInt64) (first second : Nat) :
    count + .ofNat first + .ofNat second = count + .ofNat (first + second) := by
  rw [UInt64.add_assoc, UInt64.ofNat_add]

namespace Progress

variable {ι δ φ : Type}

/-! ## Limits -/

/-- A limit allows one more frame as long as it is higher than the count of frames. -/
theorem isAllowed_iff (progress : Progress ι δ φ) (limit : Option UInt64) :
    progress.isAllowed limit = true ↔ ∀ most, limit = some most → progress.frames < most := by
  simp [isAllowed, Option.all_eq_true]

/-- Where no more frame is allowed there is a limit, and the count has reached it. -/
theorem isAllowed_eq_false_iff (progress : Progress ι δ φ) (limit : Option UInt64) :
    progress.isAllowed limit = false ↔ ∃ most, limit = some most ∧ most ≤ progress.frames := by
  cases limit <;> simp [isAllowed]

/-- So many frames lie between two points of a run. The count says so up to where it starts
over, which a limit keeps it from. -/
structure Counts (limit : Option UInt64) (progress last : Progress ι δ φ) (frames : Nat) :
    Prop where
  counted : last.frames = progress.frames + .ofNat frames
  exact : ∀ most, limit = some most → last.frames.toNat = progress.frames.toNat + frames

namespace Counts

variable {limit : Option UInt64} {progress middle last : Progress ι δ φ} {first second : Nat}

/-- Nothing was counted yet. -/
theorem nothing (progress : Progress ι δ φ) : Counts limit progress progress 0 :=
  ⟨(UInt64.add_zero _).symm, fun _ _ => rfl⟩

/-- An allowed frame counts once or not at all. -/
theorem frame (allowed : progress.isAllowed limit = true) (small : first ≤ 1)
    (counted : last.frames = progress.frames + .ofNat first) :
    Counts limit progress last first := by
  refine ⟨counted, fun most limited => ?_⟩
  have below := UInt64.lt_iff_toNat_lt.mp ((progress.isAllowed_iff limit).mp allowed most limited)
  have bound := most.toNat_lt
  have same : (UInt64.ofNat first).toNat = first :=
    UInt64.toNat_ofNat_of_lt' (Nat.lt_of_le_of_lt small (by decide))
  rw [counted, UInt64.toNat_add, same]
  exact Nat.mod_eq_of_lt (by omega)

/-- Frames before a point and after it are counted together. -/
theorem append (before : Counts limit progress middle first)
    (after : Counts limit middle last second) : Counts limit progress last (first + second) where
  counted := by rw [after.counted, before.counted, count_count]
  exact most limited := by
    rw [after.exact most limited, before.exact most limited, Nat.add_assoc]

end Counts

/-! ## Trails -/

section Trail

variable [KeySource ι] [Display δ] {limit : Option UInt64}
  {progress after last : Progress ι δ φ} {happenings : List Happening} {ending : RunEnd}

/-- A frame goes one of the ways of frames to what comes of it. -/
theorem framed_of_frame {ended : Option RunEnd} (played : progress.frame = (after, ended)) :
    ∃ frames executed,
      progress.console.Framed progress.console.frameHappenings after.console frames executed
        ended ∧
      after.frames = progress.frames + .ofNat frames ∧
      after.executed = progress.executed + .ofNat executed := by
  have way := progress.frame_framed
  rwa [played] at way

/-- The frames of a run that comes to its end: what happens in them, where they lead, and
how the run ends there. -/
inductive Trail (limit : Option UInt64) :
    Progress ι δ φ → List Happening → Progress ι δ φ → RunEnd → Prop where
  /-- No more frames are allowed. -/
  | limit (progress : Progress ι δ φ) (reached : progress.isAllowed limit = false) :
      Trail limit progress [] progress .limit
  /-- The run ends in a frame. -/
  | last (progress after : Progress ι δ φ) (ending : RunEnd)
      (allowed : progress.isAllowed limit = true)
      (ends : progress.frame = (after, some ending)) :
      Trail limit progress progress.console.frameHappenings after ending
  /-- The run goes on from a frame. -/
  | more (progress after last : Progress ι δ φ) (rest : List Happening) (ending : RunEnd)
      (allowed : progress.isAllowed limit = true) (goesOn : progress.frame = (after, none))
      (later : Trail limit after rest last ending) :
      Trail limit progress (progress.console.frameHappenings ++ rest) last ending

/-- A run with a trail comes to the end of its trail. -/
theorem Trail.run_eq (trail : progress.Trail limit happenings last ending) :
    progress.run limit = some (last, ending) := by
  induction trail with
  | limit progress reached =>
    rw [run, if_neg]
    simp [reached]
  | last progress after ending allowed ends => rw [run, if_pos allowed, ends]
  | more progress after last rest ending allowed goesOn later inductionHypothesis =>
    rw [run, if_pos allowed, goesOn]
    exact inductionHypothesis

/-- A run with a result has a trail there.

The induction is on the calls of the loop that give the result: one of them gives it at
once, and the others have a frame more than the one they call. -/
theorem exists_trail_of_run (ran : progress.run limit = some (last, ending)) :
    ∃ happenings, progress.Trail limit happenings last ending := by
  refine run.partial_correctness limit
    (fun progress ended => ∃ happenings, progress.Trail limit happenings ended.1 ended.2)
    ?_ progress (last, ending) ran
  intro later inductionHypothesis progress ended gave
  cases allowed : progress.isAllowed limit with
  | false =>
    rw [allowed, if_neg Bool.false_ne_true] at gave
    obtain rfl := Option.some.inj gave
    exact ⟨[], .limit progress allowed⟩
  | true =>
    rw [allowed, if_pos rfl] at gave
    rcases played : progress.frame with ⟨after, _ | ending⟩
    · rw [played] at gave
      obtain ⟨rest, trail⟩ := inductionHypothesis after ended gave
      exact ⟨_, .more progress after ended.1 rest ended.2 allowed played trail⟩
    · rw [played] at gave
      obtain rfl := Option.some.inj gave
      exact ⟨_, .last progress after ending allowed played⟩

/-- Runs and trails are the same thing. -/
theorem run_eq_some_iff :
    progress.run limit = some (last, ending) ↔
      ∃ happenings, progress.Trail limit happenings last ending :=
  ⟨exists_trail_of_run, fun ⟨_, trail⟩ => trail.run_eq⟩

/-- A run goes on from a frame that counts. -/
theorem counts_of_goesOn (allowed : progress.isAllowed limit = true)
    (goesOn : progress.frame = (after, none)) : Counts limit progress after 1 := by
  obtain ⟨frames, executed, way, counted, _⟩ := framed_of_frame goesOn
  obtain rfl : frames = 1 := way.frames_eq_one
  exact .frame allowed (Nat.le_refl 1) counted

/-- An allowed frame leads to the limit at most. -/
theorem frames_le_of_frame {most : UInt64} {ended : Option RunEnd}
    (allowed : progress.isAllowed (some most) = true) (played : progress.frame = (after, ended)) :
    after.frames ≤ most := by
  obtain ⟨frames, _, way, counted, _⟩ := framed_of_frame played
  have below := UInt64.lt_iff_toNat_lt.mp ((progress.isAllowed_iff _).mp allowed most rfl)
  have small := way.frames_le_one
  have total := (Counts.frame allowed small counted).exact most rfl
  rw [UInt64.le_iff_toNat_le]
  omega

/-- With a limit every run comes to an end.

The induction is on the frames that are left up to the limit. -/
theorem exists_trail (most : UInt64) (progress : Progress ι δ φ) :
    ∃ happenings last ending, progress.Trail (some most) happenings last ending := by
  generalize left : most.toNat - progress.frames.toNat = room
  induction room using Nat.strongRecOn generalizing progress with
  | ind room inductionHypothesis =>
    cases allowed : progress.isAllowed (some most) with
    | false => exact ⟨[], progress, .limit, .limit progress allowed⟩
    | true =>
      rcases played : progress.frame with ⟨after, _ | ending⟩
      · have below := UInt64.lt_iff_toNat_lt.mp
          ((progress.isAllowed_iff _).mp allowed most rfl)
        have counted := (counts_of_goesOn allowed played).exact most rfl
        obtain ⟨rest, last, ending, trail⟩ :=
          inductionHypothesis _ (by omega) after rfl
        exact ⟨_, last, ending, .more progress after last rest ending allowed played trail⟩
      · exact ⟨_, after, ending, .last progress after ending allowed played⟩

namespace Trail

/-- The happenings of a trail lead to its end. -/
theorem does (trail : progress.Trail limit happenings last ending) :
    progress.console.Does happenings last.console := by
  induction trail with
  | limit progress reached => exact .nothing _
  | last progress after ending allowed ends =>
    obtain ⟨_, _, way, _⟩ := framed_of_frame ends
    exact way.does
  | more progress after last rest ending allowed goesOn later inductionHypothesis =>
    obtain ⟨_, _, way, _⟩ := framed_of_frame goesOn
    exact way.does.append inductionHypothesis

/-- No frame of it looks into the store. -/
theorem store (trail : progress.Trail limit happenings last ending) :
    last.console.store = progress.console.store := by
  induction trail with
  | limit progress reached => rfl
  | last progress after ending allowed ends =>
    obtain ⟨_, _, way, _⟩ := framed_of_frame ends
    exact way.store
  | more progress after last rest ending allowed goesOn later inductionHypothesis =>
    obtain ⟨_, _, way, _⟩ := framed_of_frame goesOn
    exact inductionHypothesis.trans way.store

/-- A trail up to the limit ends where no more frames are allowed. -/
theorem reached (trail : progress.Trail limit happenings last .limit) :
    last.isAllowed limit = false := by
  generalize same : RunEnd.limit = ending at trail
  induction trail with
  | limit progress reached => exact reached
  | last progress after ending allowed ends =>
    obtain ⟨_, _, way, _⟩ := framed_of_frame ends
    exact absurd (congrArg some same).symm way.ne_limit
  | more progress after last rest ending allowed goesOn later inductionHypothesis =>
    exact inductionHypothesis same

/-- A trail that the user ends does so where one more frame is allowed. -/
theorem allowed (trail : progress.Trail limit happenings last .quit) :
    last.isAllowed limit = true := by
  generalize same : RunEnd.quit = ending at trail
  induction trail with
  | limit progress reached => cases same
  | last progress after ending allowed ends =>
    subst same
    obtain ⟨frames, _, way, counted, _⟩ := framed_of_frame ends
    obtain rfl : frames = 0 := way.frames_eq_zero
    have still : after.frames = progress.frames := counted.trans (UInt64.add_zero _)
    rwa [isAllowed, still]
  | more progress after last rest ending allowed goesOn later inductionHypothesis =>
    exact inductionHypothesis same

/-- A trail does not go past the limit. -/
theorem frames_le {most : UInt64} (trail : progress.Trail (some most) happenings last ending)
    (within : progress.frames ≤ most) : last.frames ≤ most := by
  induction trail with
  | limit progress reached => exact within
  | last progress after ending allowed ends => exact frames_le_of_frame allowed ends
  | more progress after last rest ending allowed goesOn later inductionHypothesis =>
    exact inductionHypothesis (frames_le_of_frame allowed goesOn)

end Trail

end Trail

end Progress

namespace Console

variable {ι δ φ : Type}

/-- The first frame of a run executes a batch if the poll lets it. -/
theorem begin_frame [KeySource ι] [Display δ] (console : Console ι δ φ)
    (answer : console.poll.answer = .ok .proceed) :
    console.begin.frame = console.begin.polled.advance := by
  rw [Progress.frame_eq, show console.begin.console = console from rfl, answer]

variable [FlagStore φ]

/-- A run gives what its frames came to, unless the flag registers cannot be saved. -/
theorem result_close (last : Progress ι δ φ) (ending : RunEnd) :
    (close last ending).result =
      (FlagStore.save last.console.store last.console.machine.flags).1.bind
        fun _ => result last ending := rfl

/-- A run leaves the console where its frames left it, with the flag registers saved. -/
theorem console_close (last : Progress ι δ φ) (ending : RunEnd) :
    (close last ending).console = { last.console with
      store := (FlagStore.save last.console.store last.console.machine.flags).2 } := rfl

/-- What happens in a run of the loaded program that leaves this report. -/
def Trail [KeySource ι] [Display δ] (console : Console ι δ φ) (limit : Option UInt64)
    (happenings : List Happening) (report : Report ι δ φ) : Prop :=
  ∃ last ending, console.begin.Trail limit happenings last ending ∧ close last ending = report

/-- A run leaves a report where it has a trail. -/
theorem run_eq_some_iff [KeySource ι] [Display δ] (console : Console ι δ φ) (limit : Option UInt64)
    (report : Report ι δ φ) :
    console.run limit = some report ↔ ∃ happenings, console.Trail limit happenings report := by
  rw [run, Option.map_eq_some_iff]
  constructor
  · rintro ⟨⟨last, ending⟩, ran, closed⟩
    obtain ⟨happenings, trail⟩ := Progress.run_eq_some_iff.mp ran
    exact ⟨happenings, last, ending, trail, closed⟩
  · rintro ⟨happenings, last, ending, trail, closed⟩
    exact ⟨(last, ending), Progress.run_eq_some_iff.mpr ⟨happenings, trail⟩, closed⟩

end Console

/-! ## Short runs -/

namespace Console

variable {ι δ : Type} [KeySource ι] [Display δ] (console : Console ι δ TextStore)
  (limit : Option UInt64) {opcodes : List UInt16} {last : System}

/-- A run whose first batch comes to the end of the program takes one frame, if its picture
can be shown. -/
theorem run_of_halted (allowed : console.begin.isAllowed limit = true)
    (answer : console.poll.answer = .ok .proceed) {cause : Halt} {pc : UInt16}
    (course : console.polled.system.Course console.batchSize opcodes (.halted cause pc) last)
    (shown : ((console.polled.withSystem last).showIf (drawsSprite opcodes)).1 = .ok ()) :
    ∃ report, console.run limit = some report ∧
      report.result = .ok ⟨1, .ofNat opcodes.length, true⟩ ∧
      report.console.machine = last.machine := by
  obtain ⟨notices, advanced⟩ := console.begin.polled.advance_halted course
  have here : console.begin.polled.console = console.polled := rfl
  rw [← console.begin_frame answer, here, shown] at advanced
  refine ⟨_, (console.run_eq_some_iff limit _).mpr
    ⟨_, _, _, .last console.begin _ .halted allowed advanced, rfl⟩, ?_,
    machine_showIf (console.polled.withSystem last) _⟩
  show Except.ok (⟨0 + 1, 0 + .ofNat opcodes.length, true⟩ : Summary) = _
  rw [UInt64.zero_add, UInt64.zero_add]

/-- It ends there as well if its picture cannot be shown. -/
theorem run_of_unseen (allowed : console.begin.isAllowed limit = true)
    (answer : console.poll.answer = .ok .proceed) {cause : Halt} {pc : UInt16}
    (course : console.polled.system.Course console.batchSize opcodes (.halted cause pc) last)
    (error : DeviceError)
    (shown : ((console.polled.withSystem last).showIf (drawsSprite opcodes)).1 = .error error) :
    ∃ report, console.run limit = some report ∧ report.result = .error (.device error) ∧
      report.console.machine = last.machine := by
  obtain ⟨notices, advanced⟩ := console.begin.polled.advance_halted course
  have here : console.begin.polled.console = console.polled := rfl
  rw [← console.begin_frame answer, here, shown] at advanced
  exact ⟨_, (console.run_eq_some_iff limit _).mpr
    ⟨_, _, _, .last console.begin _ _ allowed advanced, rfl⟩, rfl,
    machine_showIf (console.polled.withSystem last) _⟩

/-- A run whose first batch comes to an instruction that fails ends with that. -/
theorem run_of_failed (allowed : console.begin.isAllowed limit = true)
    (answer : console.poll.answer = .ok .proceed) {fault : Fault}
    (course : console.polled.system.Course console.batchSize opcodes (.failed fault) last) :
    ∃ report, console.run limit = some report ∧ report.result = .error (.fault fault) ∧
      report.console.machine = last.machine := by
  have advanced :=
    (console.begin_frame answer).trans (console.begin.polled.advance_failed course)
  exact ⟨_, (console.run_eq_some_iff limit _).mpr
    ⟨_, _, _, .last console.begin _ _ allowed advanced, rfl⟩, rfl, rfl⟩

/-- A run of one frame ends there if its batch is complete and its picture can be shown. -/
theorem run_of_complete (answer : console.poll.answer = .ok .proceed)
    (course : console.polled.system.Course console.batchSize opcodes .complete last)
    (shown : ((console.polled.withSystem last).showIf (drawsSprite opcodes)).1 = .ok ()) :
    ∃ report, console.run (some 1) = some report ∧
      report.result = .ok ⟨1, .ofNat opcodes.length, false⟩ ∧
      report.console.machine = last.machine := by
  have advanced := console.begin.polled.advance_complete course
  have here : console.begin.polled.console = console.polled := rfl
  simp only [← console.begin_frame answer, here, shown] at advanced
  refine ⟨_, (console.run_eq_some_iff (some 1) _).mpr
    ⟨_, _, _, .more console.begin _ _ _ _ rfl advanced (.limit _ rfl), rfl⟩, ?_,
    machine_showIf (console.polled.withSystem last) _⟩
  show Except.ok (⟨0 + 1, 0 + .ofNat opcodes.length, false⟩ : Summary) = _
  rw [UInt64.zero_add, UInt64.zero_add]

/-- The short program on a console with batches of this size, and nobody at the keys. -/
def brief (size : Nat) : Console Script Recording TextStore where
  machine := (System.brief 0 0).machine
  generator := (System.brief 0 0).generator
  keymap := .conventional
  batchSize := size
  keys := .start [] none
  display := .empty
  store := ⟨none⟩

/-- In batches with room for more than its instruction the program ends in the first frame. -/
theorem run_brief (room : Nat) (allowed : (brief (room + 2)).begin.isAllowed limit = true) :
    ∃ report, (brief (room + 2)).run limit = some report ∧ report.result = .ok ⟨1, 1, true⟩ := by
  obtain ⟨report, ran, done, _⟩ :=
    (brief (room + 2)).run_of_halted limit allowed rfl (System.course_brief room) rfl
  exact ⟨report, ran, done⟩

/-- A batch of one instruction is complete, and the program goes on. -/
theorem run_brief_one :
    ∃ report, (brief 1).run (some 1) = some report ∧ report.result = .ok ⟨1, 1, false⟩ := by
  obtain ⟨report, ran, done, _⟩ := (brief 1).run_of_complete rfl System.course_brief_one rfl
  exact ⟨report, ran, done⟩

end Console

end Chip8
