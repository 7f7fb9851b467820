import Chip8.Proofs.Summaries

/-!
# Which pictures a run shows

A run that does not fail goes through frames, each with a poll and a batch, and its
display is handed one picture for every frame whose batch drew a sprite, in their order.
It is the picture as the last instruction of the batch left it: nothing comes between
that instruction and the display but the step that finds the end of the program, which
leaves the picture alone. The frames of a run are told here without its display, which
has no part in what the machine does; `presentAll` says what it is handed beside them.
-/

namespace Chip8

/-! ## Frames without their display -/

/-- The batch of a frame, with at most so many instructions: where it begins, the opcodes
that it executes, how that ends, and where it leads. -/
structure PlayedFrame (size : Nat) where
  first : System
  opcodes : List UInt16
  ending : BatchEnd
  last : System
  course : first.Course size opcodes ending last

namespace PlayedFrame

variable {size : Nat}

/-- One of the executed instructions draws a sprite. -/
def draws (frame : PlayedFrame size) : Bool :=
  frame.opcodes.any fun opcode => (Instruction.decode? opcode).any Instruction.isDraw

/-- The machine after the last executed instruction. -/
def drawn (frame : PlayedFrame size) : Machine := (frame.first.after frame.opcodes.length).machine

/-- The picture after the last executed instruction. -/
def picture (frame : PlayedFrame size) : Frame := frame.drawn.frame

/-- The course of the batch, from the system that it is known to begin with. -/
theorem course_of_first (frame : PlayedFrame size) {system : System}
    (begins : frame.first = system) :
    system.Course size frame.opcodes frame.ending frame.last := by
  rw [← begins]
  exact frame.course

/-- What a batch notes of its opcodes is whether one of them draws. -/
theorem draws_eq (frame : PlayedFrame size) : drawsSprite frame.opcodes = frame.draws := by
  simp only [draws, drawsSprite, Instruction.any_isDraw]
  rfl

/-- The picture is still there when the batch is over. -/
theorem picture_eq (frame : PlayedFrame size) : frame.last.machine.frame = frame.picture := by
  rw [picture, drawn, Machine.frame, Machine.frame, frame.course.memory_eq]

/-- A screen beside memory has one byte less than one in memory. -/
theorem size_picture (frame : PlayedFrame size) :
    frame.picture.size = if frame.drawn.memory.isDetached then 255 else 256 := by
  rw [picture, Machine.frame]
  cases place : frame.drawn.memory.isDetached with
  | false => exact Memory.frame_size_mapped _ place
  | true => exact Memory.frame_size_detached _ place

end PlayedFrame

/-- The pictures of the frames that drew a sprite. -/
def picturesOf {size : Nat} (frames : List (PlayedFrame size)) : List Frame :=
  (frames.filter PlayedFrame.draws).map PlayedFrame.picture

/-- A frame has at most one picture. -/
theorem picturesOf_one {size : Nat} (frame : PlayedFrame size) :
    picturesOf [frame] = if frame.draws then [frame.picture] else [] := by
  cases drew : frame.draws <;> simp [picturesOf, drew]

/-- Later frames have later pictures. -/
theorem picturesOf_append {size : Nat} (first second : List (PlayedFrame size)) :
    picturesOf (first ++ second) = picturesOf first ++ picturesOf second := by
  rw [picturesOf, List.filter_append, List.map_append]
  rfl

/-- The pictures come in the order of their frames. -/
theorem picturesOf_cons {size : Nat} (frame : PlayedFrame size) (frames : List (PlayedFrame size)) :
    picturesOf (frame :: frames) = picturesOf [frame] ++ picturesOf frames :=
  picturesOf_append [frame] frames

/-- The display after it was handed these pictures. -/
def presentAll {δ : Type} [Display δ] (display : δ) (pictures : List Frame) : δ :=
  pictures.foldl (fun display picture => (Display.present display picture).2) display

/-- Pictures can be handed over in two parts. -/
theorem presentAll_append {δ : Type} [Display δ] (display : δ) (first second : List Frame) :
    presentAll display (first ++ second) = presentAll (presentAll display first) second :=
  List.foldl_append

/-- A recording has the pictures it was handed behind those that it had. -/
theorem presentAll_recording (recording : Recording) (pictures : List Frame) :
    (presentAll recording pictures).frames = recording.frames ++ pictures.toArray := by
  induction pictures generalizing recording with
  | nil => simp [presentAll]
  | cons picture rest inductionHypothesis =>
    have added : (recording.add picture).frames = recording.frames.push picture := rfl
    have first : presentAll recording (picture :: rest) =
      presentAll (recording.add picture) rest := rfl
    rw [first, inductionHypothesis, added]
    simp

/-- The picture that was handed to the display. -/
def Happening.picture? : Happening → Option Frame
  | presented frame => some frame
  | _ => none

/-- The steps of a batch show no picture. -/
theorem filterMap_taken (opcodes : List UInt16) (ending : BatchEnd) :
    (taken opcodes ending).filterMap Happening.picture? = [] := by
  rw [List.filterMap_eq_nil_iff]
  intro happening member
  simp only [taken, List.mem_append, List.mem_map] at member
  rcases member with ⟨opcode, _, rfl⟩ | ⟨outcome, _, rfl⟩
  · rfl
  · rfl

namespace Console

variable {ι δ φ : Type}

/-- The console with another display. -/
def withDisplay (console : Console ι δ φ) (display : δ) : Console ι δ φ :=
  { console with display := display }

/-- The frames of a run that does not fail, as they go on without a look at the display:
how the run ends, and where it leads. -/
inductive Unfolds [KeySource ι] {size : Nat} :
    Console ι δ φ → List (PlayedFrame size) → RunEnd → Console ι δ φ → Prop where
  /-- No more frames are allowed. -/
  | limit (console : Console ι δ φ) : Unfolds console [] .limit console
  /-- The user leaves. -/
  | quit (console : Console ι δ φ) (answer : console.poll.answer = .ok .quit) :
      Unfolds console [] .quit console.polled
  /-- The program ends within a batch. -/
  | halted (console : Console ι δ φ) (answer : console.poll.answer = .ok .proceed)
      (frame : PlayedFrame size) (begins : frame.first = console.polled.system)
      (cause : Halt) (pc : UInt16) (ends : frame.ending = .halted cause pc) :
      Unfolds console [frame] .halted (console.polled.withSystem frame.last)
  /-- A batch is complete, and more frames may follow. -/
  | complete (console : Console ι δ φ) (answer : console.poll.answer = .ok .proceed)
      (frame : PlayedFrame size) (begins : frame.first = console.polled.system)
      (ends : frame.ending = .complete) (frames : List (PlayedFrame size)) (ending : RunEnd)
      (last : Console ι δ φ)
      (later : Unfolds (console.polled.withSystem frame.last) frames ending last) :
      Unfolds console (frame :: frames) ending last

/-- Where the first batch comes to the end of the program there is its frame alone, unless
there is none. -/
theorem Unfolds.of_course [KeySource ι] {size : Nat} {console last : Console ι δ φ}
    {frames : List (PlayedFrame size)} {ending : RunEnd}
    (unfolds : console.Unfolds frames ending last) (played : frames ≠ []) {opcodes : List UInt16}
    {cause : Halt} {pc : UInt16} {system : System}
    (course : console.polled.system.Course size opcodes (.halted cause pc) system) :
    ∃ frame : PlayedFrame size, frames = [frame] ∧ frame.first = console.polled.system ∧
      frame.opcodes = opcodes := by
  cases unfolds with
  | limit | quit => exact absurd rfl played
  | halted _ _ frame begins cause pc ends =>
    exact ⟨frame, rfl, begins, ((frame.course_of_first begins).unique course).1⟩
  | complete _ _ frame begins whole =>
    obtain ⟨_, different, _⟩ := (frame.course_of_first begins).unique course
    rw [whole] at different
    cases different

/-- The frames do not depend on the display. -/
theorem Unfolds.withDisplay [KeySource ι] {size : Nat} {console last : Console ι δ φ}
    {frames : List (PlayedFrame size)} {ending : RunEnd}
    (unfolds : console.Unfolds frames ending last) (display : δ) :
    (console.withDisplay display).Unfolds frames ending (last.withDisplay display) := by
  induction unfolds with
  | limit console => exact .limit _
  | quit console answer => exact .quit _ answer
  | halted console answer frame begins cause pc ends =>
    exact .halted (console.withDisplay display) answer frame begins cause pc ends
  | complete console answer frame begins ends frames ending last later inductionHypothesis =>
    exact .complete (console.withDisplay display) answer frame begins ends frames ending _
      inductionHypothesis

/-- Frames leave the size of batches. -/
theorem Unfolds.batchSize [KeySource ι] {size : Nat} {console last : Console ι δ φ}
    {frames : List (PlayedFrame size)} {ending : RunEnd}
    (unfolds : console.Unfolds frames ending last) : last.batchSize = console.batchSize := by
  induction unfolds with
  | limit | quit | halted => rfl
  | complete _ _ _ _ _ _ _ _ _ inductionHypothesis => exact inductionHypothesis

/-- Showing the picture or not changes the display alone. -/
theorem showIf_eq [Display δ] (console : Console ι δ φ) (drew : Bool) :
    (console.showIf drew).2 = console.withDisplay
      (presentAll console.display (if drew then [console.machine.frame] else [])) := by
  cases drew <;> rfl

/-- A frame shows its picture if it drew a sprite. -/
theorem showIf_played [Display δ] (console : Console ι δ φ) {size : Nat}
    (frame : PlayedFrame size) :
    ((console.withSystem frame.last).showIf (drawsSprite frame.opcodes)).2 =
      (console.withSystem frame.last).withDisplay
        (presentAll console.display (picturesOf [frame])) := by
  rw [showIf_eq, frame.draws_eq, picturesOf_one, ← frame.picture_eq]
  cases frame.draws <;> rfl

/-- And this is the one picture among its happenings. -/
theorem filterMap_played (console : Console ι δ φ) {size : Nat} (frame : PlayedFrame size) :
    (Happening.polled (.ok .proceed) :: (taken frame.opcodes frame.ending ++
      (console.withSystem frame.last).pictureIf (drawsSprite frame.opcodes))).filterMap
        Happening.picture? = picturesOf [frame] := by
  rw [frame.draws_eq, picturesOf_one, ← frame.picture_eq, List.filterMap_cons_none rfl,
    List.filterMap_append, filterMap_taken]
  cases frame.draws <;> rfl

end Console

namespace Progress

variable {ι δ φ : Type} [KeySource ι] [Display δ] {limit : Option UInt64}
  {progress after last : Progress ι δ φ} {happenings : List Happening} {ending : RunEnd}

/-- From the one point of a run to the other it goes through these frames to that console,
but for the display, which was handed their pictures. -/
structure Shows {size : Nat} (limit : Option UInt64) (progress last : Progress ι δ φ)
    (happenings : List Happening) (ending : RunEnd) (frames : List (PlayedFrame size))
    (finish : Console ι δ φ) : Prop where
  unfolds : progress.console.Unfolds frames ending finish
  display : last.console =
    finish.withDisplay (presentAll progress.console.display (picturesOf frames))
  counts : Counts limit progress last frames.length
  pictures : happenings.filterMap Happening.picture? = picturesOf frames

/-- After a frame whose batch is complete the run shows the pictures of the later ones. -/
theorem Shows.cons {size : Nat} {frames : List (PlayedFrame size)} {finish : Console ι δ φ}
    {first : List Happening} (later : Shows limit after last happenings ending frames finish)
    (answer : progress.console.poll.answer = .ok .proceed) (frame : PlayedFrame size)
    (begins : frame.first = progress.console.polled.system) (ends : frame.ending = .complete)
    (leads : after.console = (progress.console.polled.withSystem frame.last).withDisplay
      (presentAll progress.console.display (picturesOf [frame])))
    (counts : Counts limit progress after 1)
    (told : first.filterMap Happening.picture? = picturesOf [frame]) :
    Shows limit progress last (first ++ happenings) ending (frame :: frames)
      (finish.withDisplay progress.console.display) where
  unfolds := by
    -- The later frames were told of a display that has a picture more already.
    have unseen := later.unfolds.withDisplay progress.console.display
    rw [leads] at unseen
    exact .complete _ answer frame begins ends frames _ _ unseen
  display := by
    rw [later.display, leads, picturesOf_cons frame frames, presentAll_append]
    rfl
  counts := by
    rw [List.length_cons, Nat.add_comm]
    exact counts.append later.counts
  pictures := by rw [List.filterMap_append, told, later.pictures, ← picturesOf_cons]

/-- A run fails or shows the pictures of its frames. -/
theorem Trail.shows {size : Nat} (trail : progress.Trail limit happenings last ending)
    (same : progress.console.batchSize = size) :
    (∃ failure, ending = .failed failure) ∨
      ∃ (frames : List (PlayedFrame size)) (finish : Console ι δ φ),
        Shows limit progress last happenings ending frames finish := by
  induction trail with
  | limit progress reached =>
    exact .inr ⟨[], progress.console, .limit _, rfl, .nothing progress, rfl⟩
  | last progress after ending allowed ends =>
    obtain ⟨frames, executed, way, added, _⟩ := framed_of_frame ends
    have counts : Counts limit progress after frames := .frame allowed way.frames_le_one added
    generalize progress.console.frameHappenings = happened at way
    generalize leads : after.console = console at way
    cases way with
    | refused | fault | unseen => exact .inl ⟨_, rfl⟩
    | quit answer =>
      exact .inr ⟨[], progress.console.polled, .quit _ answer, leads, counts, rfl⟩
    | halted answer opcodes cause pc system course =>
      rw [same] at course
      let frame : PlayedFrame size := ⟨_, opcodes, _, system, course⟩
      exact .inr ⟨[frame], progress.console.polled.withSystem system,
        .halted _ answer frame rfl cause pc rfl,
        leads.trans (progress.console.polled.showIf_played frame), counts,
        progress.console.polled.filterMap_played frame⟩
  | more progress after last rest ending allowed goesOn later inductionHypothesis =>
    obtain ⟨frames, executed, way, _⟩ := framed_of_frame goesOn
    have counts := counts_of_goesOn allowed goesOn
    obtain failed | ⟨frames, finish, shows⟩ := inductionHypothesis (way.batchSize.trans same)
    · exact .inl failed
    generalize progress.console.frameHappenings = happened at way
    generalize leads : after.console = console at way
    cases way with
    | complete answer opcodes system course =>
      rw [same] at course
      let frame : PlayedFrame size := ⟨_, opcodes, _, system, course⟩
      exact .inr ⟨frame :: frames, _, shows.cons answer frame rfl rfl
        (leads.trans (progress.console.polled.showIf_played frame)) counts
        (progress.console.polled.filterMap_played frame)⟩

end Progress

namespace System

/-- A machine about to draw a sprite, which is what its program begins with. -/
def drawing (rest : List UInt8) : System := starting (0xD0 :: 0x05 :: rest) (.ofSeed 0)

/-- It draws the sprite in its next step. -/
theorem drawing_stepped (rest : List UInt8)
    (copied : (0xD0 :: 0x05 :: rest).length < programLimit) :
    (drawing rest).stepped = ⟨.ok (.executed 0xD005),
      ((drawing rest).machine.fetched.draw 0 0 5).tick, .ofSeed 0⟩ := by
  have word : (drawing rest).machine.memory.word 0x200 = 0xD005 :=
    (Machine.word_load_initial _ copied 0 0xD0 0x05 rfl rfl).trans (by decide)
  have counter : (drawing rest).machine.pc = 0x200 := rfl
  have inside : (drawing rest).machine.InProgram := by
    refine ⟨_, rfl, ?_⟩
    rw [counter]
    simp
  exact (drawing rest).machine.step_of_opcode (.ofSeed 0) 0xD005 inside word (by decide)
    (.draw 0 0 5) rfl _ _ rfl

/-- After that it stands behind the instruction, and the program is as it was. -/
theorem drawing_next (rest : List UInt8)
    (copied : (0xD0 :: 0x05 :: rest).length < programLimit) :
    (drawing rest).next.machine.pc = 0x202 ∧
      (drawing rest).next.machine.programSize = some (rest.length + 2) ∧
      ∀ address < screenStart, (drawing rest).next.machine.memory.read address =
        (drawing rest).machine.memory.read address := by
  have moved : (drawing rest).next =
      ⟨((drawing rest).machine.fetched.draw 0 0 5).tick, .ofSeed 0⟩ := by
    rw [next, drawing_stepped rest copied]
  rw [moved, Machine.tick_eq]
  refine ⟨rfl, rfl, fun address before => ?_⟩
  exact (Memory.painted_drawSprite _ _ _ _ _).read address (.inr before)

end System

namespace Console

variable {ι δ φ : Type} [KeySource ι] [Display δ] [FlagStore φ]

/-- A run that does not fail goes through as many frames as its summary says, no more than
its limit, and through the end of the program in the last of them if the summary says so.
Its display was handed the pictures of the frames that drew a sprite, in their order and
nothing else, each as it was after the last instruction of its frame, with one byte less
where the screen lies beside memory. -/
theorem pictures_shown (console : Console ι δ φ) (limit : Option UInt64) (report : Report ι δ φ)
    (ran : console.run limit = some report) (summary : Summary)
    (done : report.result = .ok summary) :
    ∃ (happenings : List Happening) (frames : List (PlayedFrame console.batchSize))
      (ending : RunEnd) (last : Console ι δ φ),
      console.Trail limit happenings report ∧ console.Unfolds frames ending last ∧
      summary.frames = .ofNat frames.length ∧
      (∀ most, limit = some most → frames.length ≤ most.toNat) ∧
      (ending = .limit ↔ limit = some summary.frames ∧ summary.halted = false) ∧
      (ending = .halted ↔ summary.halted = true) ∧
      happenings.filterMap Happening.picture? = picturesOf frames ∧
      report.console = { last with
        display := presentAll console.display (picturesOf frames)
        store := report.console.store } ∧
      ∀ frame ∈ frames,
        frame.picture.size = if frame.drawn.memory.isDetached then 255 else 256 := by
  obtain ⟨happenings, last, ending, trail, rfl⟩ := (console.run_eq_some_iff limit report).mp ran
  have told := result_of_close done
  obtain ⟨counted, _, ends⟩ := result_eq_ok told
  obtain ⟨failure, rfl⟩ | ⟨frames, finish, shows⟩ := trail.shows rfl
  · cases told
  obtain ⟨total, within⟩ := trail.counts_begin shows.counts
  refine ⟨happenings, frames, ending, finish, ⟨last, ending, trail, rfl⟩, shows.unfolds,
    counted.symm.trans total, within, trail.limit_iff told, ?_, shows.pictures, ?_,
    fun frame _ => frame.size_picture⟩
  · rcases ends with ⟨rfl, going⟩ | ⟨rfl, going⟩ | ⟨rfl, stopped⟩
    · simp [going]
    · simp [going]
    · simp [stopped]
  · rw [console_close, shows.display]
    rfl

/-- A console that draws one sprite, which is all that its program does, while nobody is at
the keys. -/
def sketching : Console Script Recording TextStore where
  machine := Machine.initial.load [0xD0, 0x05]
  generator := .ofSeed 0
  keymap := .conventional
  batchSize := 20
  keys := .start [] none
  display := .empty
  store := ⟨none⟩

/-- Its batch executes that instruction and then finds the end of the program. -/
theorem course_sketching : ∃ last,
    sketching.polled.system.Course 20 [0xD005] (.halted .outside 0x202) last := by
  have copied : [0xD0, 0x05].length < programLimit := by decide
  obtain ⟨beyond, loaded, _⟩ := System.drawing_next [] copied
  have halted := (System.drawing []).next.machine.step_of_past (System.drawing []).next.generator 2
    loaded (by rw [beyond]; decide)
  rw [beyond] at halted
  refine ⟨(System.drawing []).next.next, .executed _ _ _ _ _ _ ?_ (.stopped _ _ _ ?_)⟩
  · exact congrArg Stepped.outcome (System.drawing_stepped [] copied)
  · exact congrArg (fun later : Stepped => some later.outcome) halted.symm

/-- So the program ends in the first frame. -/
theorem run_sketching :
    ∃ report, sketching.run (some 5) = some report ∧ report.result = .ok ⟨1, 1, true⟩ := by
  obtain ⟨last, course⟩ := course_sketching
  obtain ⟨report, ran, done, _⟩ := sketching.run_of_halted (some 5) rfl rfl course rfl
  exact ⟨report, ran, done⟩

/-- Its display is handed one picture, of a screen in memory, and no second one at the end
of the program. -/
theorem pictures_shown_sketching :
    ∃ report, sketching.run (some 5) = some report ∧ report.result = .ok ⟨1, 1, true⟩ ∧
      ∃ picture, report.console.display.frames = #[picture] ∧ picture.size = 256 := by
  obtain ⟨report, ran, done⟩ := run_sketching
  obtain ⟨_, frames, ending, last, _, unfolds, counted, _, _, _, _, console, _⟩ :=
    pictures_shown sketching (some 5) report ran ⟨1, 1, true⟩ done
  obtain ⟨system, course⟩ := course_sketching
  have shown : frames ≠ [] := by
    rintro rfl
    cases counted
  obtain ⟨frame, rfl, begins, executed⟩ := Unfolds.of_course unfolds shown course
  have drew : frame.draws = true := by
    rw [← frame.draws_eq, executed]
    rfl
  have mapped : frame.drawn.memory.isDetached = false := by
    rw [PlayedFrame.drawn, System.after, System.isDetached_play, begins]
    exact Memory.isDetached_writeList _ _ _
  have size : frame.picture.size = 256 := by
    rw [frame.size_picture, mapped]
    rfl
  refine ⟨report, ran, done, frame.picture, ?_, size⟩
  rw [console, picturesOf_one, drew]
  exact presentAll_recording .empty [frame.picture]

end Console

end Chip8
