import Chip8.Proofs.Batches

/-!
# What happens in a run

In a run a console polls its keys, steps its machine and shows its picture. The
happenings of a frame are these in their order, each with what came of it. They are read
off the same batch that the frame goes through; `Does` checks them, for it lets each of
them happen to the console and compares what came of it, and it leads where the frame
leads. `Framed` lists the ways a frame can go, with its happenings, what it adds to the
counts of frames and instructions, and how the run ends if it ends there.
-/

namespace Chip8

/-- Something that happens in a run. -/
inductive Happening where
  /-- The keys were polled. -/
  | polled (answer : Except Failure Control)
  /-- The machine took a step. -/
  | stepped (outcome : Except Fault Outcome)
  /-- A picture was handed to the display. -/
  | presented (frame : Frame)

namespace Happening

/-- The keys were polled. -/
def isPoll : Happening → Bool
  | polled _ => true
  | _ => false

/-- The user left. -/
def isQuit : Happening → Bool
  | polled (.ok .quit) => true
  | _ => false

/-- An instruction was executed. -/
def isExecuted : Happening → Bool
  | stepped (.ok (.executed _)) => true
  | _ => false

/-- A step told of the end of the program. -/
def isHalt : Happening → Bool
  | stepped (.ok (.halted _ _)) => true
  | _ => false

/-- A picture was shown. -/
def isPicture : Happening → Bool
  | presented _ => true
  | _ => false

end Happening

/-- An instruction failed. -/
def BatchEnd.isFault : BatchEnd → Bool
  | complete | halted _ _ => false
  | failed _ => true

/-- The steps of a batch that executes these opcodes and ends like this. -/
def taken (opcodes : List UInt16) (ending : BatchEnd) : List Happening :=
  opcodes.map (fun opcode => .stepped (.ok (.executed opcode))) ++
    ending.outcome?.toList.map .stepped

namespace Console

variable {ι δ φ : Type}

/-- The machine with its generator. -/
def system (console : Console ι δ φ) : System := ⟨console.machine, console.generator⟩

/-- The console with its machine and generator as they are there. -/
def withSystem (console : Console ι δ φ) (system : System) : Console ι δ φ :=
  { console with machine := system.machine, generator := system.generator }

/-- So does a frame put the console together after its batch. -/
theorem withSystem_mk (console : Console ι δ φ) (system : System) :
    { console with machine := system.machine, generator := system.generator } =
      console.withSystem system := rfl

/-- What polling the keys gives. -/
def poll [KeySource ι] (console : Console ι δ φ) : Polled ι :=
  KeySource.poll console.keys console.keymap console.machine

/-- The console after its keys were polled. -/
def polled [KeySource ι] (console : Console ι δ φ) : Console ι δ φ :=
  { console with machine := console.poll.machine, keys := console.poll.keys }

/-- What the display answers to the picture. -/
def presentation [Display δ] (console : Console ι δ φ) : Except DeviceError Unit × δ :=
  Display.present console.display console.machine.frame

/-- The console after its picture was handed to the display. -/
def presented [Display δ] (console : Console ι δ φ) : Console ι δ φ :=
  { console with display := console.presentation.2 }

/-- Show the picture if it may have changed. -/
def showIf [Display δ] (console : Console ι δ φ) (drew : Bool) :
    Except DeviceError Unit × Console ι δ φ :=
  if drew then (console.presentation.1, console.presented) else (.ok (), console)

/-- The picture if it may have changed. -/
def pictureIf (console : Console ι δ φ) (drew : Bool) : List Happening :=
  if drew then [.presented console.machine.frame] else []

/-- Showing the picture leaves the size of batches. -/
theorem batchSize_showIf [Display δ] (console : Console ι δ φ) (drew : Bool) :
    (console.showIf drew).2.batchSize = console.batchSize := by
  cases drew <;> rfl

/-- It leaves the machine. -/
theorem machine_showIf [Display δ] (console : Console ι δ φ) (drew : Bool) :
    (console.showIf drew).2.machine = console.machine := by
  cases drew <;> rfl

/-- It does not look into the store. -/
theorem store_showIf [Display δ] (console : Console ι δ φ) (drew : Bool) :
    (console.showIf drew).2.store = console.store := by
  cases drew <;> rfl

section Does

variable [KeySource ι] [Display δ]

/-- From one console to the other these things happen, one after the other. -/
inductive Does : Console ι δ φ → List Happening → Console ι δ φ → Prop where
  | nothing (console : Console ι δ φ) : Does console [] console
  | poll (console last : Console ι δ φ) (rest : List Happening)
      (later : Does console.polled rest last) :
      Does console (.polled console.poll.answer :: rest) last
  | step (console last : Console ι δ φ) (rest : List Happening)
      (later : Does (console.withSystem console.system.next) rest last) :
      Does console (.stepped console.system.stepped.outcome :: rest) last
  | present (console last : Console ι δ φ) (rest : List Happening)
      (later : Does console.presented rest last) :
      Does console (.presented console.machine.frame :: rest) last

/-- What happens later happens after what happens first. -/
theorem Does.append {console middle last : Console ι δ φ} {first second : List Happening}
    (before : console.Does first middle) (after : middle.Does second last) :
    console.Does (first ++ second) last := by
  induction before with
  | nothing => exact after
  | poll console middle rest later inductionHypothesis =>
    exact .poll console last _ (inductionHypothesis after)
  | step console middle rest later inductionHypothesis =>
    exact .step console last _ (inductionHypothesis after)
  | present console middle rest later inductionHypothesis =>
    exact .present console last _ (inductionHypothesis after)

/-- The steps of a batch happen. -/
theorem does_taken (console : Console ι δ φ) {system last : System} {size : Nat}
    {opcodes : List UInt16} {ending : BatchEnd} (here : console.system = system)
    (course : system.Course size opcodes ending last) :
    console.Does (taken opcodes ending) (console.withSystem last) := by
  induction course generalizing console with
  | complete system =>
    rw [← here]
    exact .nothing console
  | stopped system room ending told =>
    rw [taken, told, ← here]
    exact .step console _ [] (.nothing _)
  | executed system room opcode opcodes ending last told rest inductionHypothesis =>
    have happens : Does console
        (.stepped console.system.stepped.outcome :: taken opcodes ending)
        (console.withSystem last) :=
      .step console _ _ (inductionHypothesis (console.withSystem console.system.next) (by rw [here]; rfl))
    rw [here, told] at happens
    exact happens

/-- The picture is shown, if it is. -/
theorem does_pictureIf (console : Console ι δ φ) (drew : Bool) :
    console.Does (console.pictureIf drew) (console.showIf drew).2 := by
  cases drew with
  | false => exact .nothing console
  | true => exact .present console _ [] (.nothing _)

/-- The ways a frame can go: its happenings, the console after it, the frames and the
instructions that it adds to their counts, and how the run ends if it ends there. -/
inductive Framed (console : Console ι δ φ) :
    List Happening → Console ι δ φ → Nat → Nat → Option RunEnd → Prop where
  /-- The keys cannot be polled. -/
  | refused (failure : Failure) (answer : console.poll.answer = .error failure) :
      Framed console [.polled (.error failure)] console.polled 0 0 (some (.failed failure))
  /-- The user leaves. -/
  | quit (answer : console.poll.answer = .ok .quit) :
      Framed console [.polled (.ok .quit)] console.polled 0 0 (some .quit)
  /-- An instruction fails. -/
  | fault (answer : console.poll.answer = .ok .proceed) (opcodes : List UInt16) (fault : Fault)
      (last : System)
      (course : console.polled.system.Course console.batchSize opcodes (.failed fault) last) :
      Framed console (.polled (.ok .proceed) :: taken opcodes (.failed fault))
        (console.polled.withSystem last) 0 opcodes.length (some (.failed (.fault fault)))
  /-- The picture cannot be shown, whether the program ended or not. -/
  | unseen (answer : console.poll.answer = .ok .proceed) (opcodes : List UInt16)
      (ending : BatchEnd) (last : System)
      (course : console.polled.system.Course console.batchSize opcodes ending last)
      (faultless : ending.isFault = false) (error : DeviceError)
      (shown : ((console.polled.withSystem last).showIf (drawsSprite opcodes)).1 = .error error) :
      Framed console (.polled (.ok .proceed) :: (taken opcodes ending ++
          (console.polled.withSystem last).pictureIf (drawsSprite opcodes)))
        ((console.polled.withSystem last).showIf (drawsSprite opcodes)).2 1 opcodes.length
        (some (.failed (.device error)))
  /-- The program ends. -/
  | halted (answer : console.poll.answer = .ok .proceed) (opcodes : List UInt16)
      (cause : Halt) (pc : UInt16) (last : System)
      (course : console.polled.system.Course console.batchSize opcodes (.halted cause pc) last)
      (shown : ((console.polled.withSystem last).showIf (drawsSprite opcodes)).1 = .ok ()) :
      Framed console (.polled (.ok .proceed) :: (taken opcodes (.halted cause pc) ++
          (console.polled.withSystem last).pictureIf (drawsSprite opcodes)))
        ((console.polled.withSystem last).showIf (drawsSprite opcodes)).2 1 opcodes.length
        (some .halted)
  /-- The batch is complete, and the run goes on. -/
  | complete (answer : console.poll.answer = .ok .proceed) (opcodes : List UInt16)
      (last : System)
      (course : console.polled.system.Course console.batchSize opcodes .complete last)
      (shown : ((console.polled.withSystem last).showIf (drawsSprite opcodes)).1 = .ok ()) :
      Framed console (.polled (.ok .proceed) :: (taken opcodes .complete ++
          (console.polled.withSystem last).pictureIf (drawsSprite opcodes)))
        ((console.polled.withSystem last).showIf (drawsSprite opcodes)).2 1 opcodes.length none

/-- What a frame tells of happens. -/
theorem Framed.does {console after : Console ι δ φ} {happenings : List Happening}
    {frames executed : Nat} {ending : Option RunEnd}
    (way : console.Framed happenings after frames executed ending) :
    console.Does happenings after := by
  -- Every frame begins with a poll; a batch and its picture follow only where that lets it.
  have begins (rest : List Happening) (later : console.polled.Does rest after) :
      console.Does (.polled console.poll.answer :: rest) after := .poll console after rest later
  cases way with
  | refused failure answer =>
    rw [answer] at begins
    exact begins [] (.nothing _)
  | quit answer =>
    rw [answer] at begins
    exact begins [] (.nothing _)
  | fault answer opcodes fault last course =>
    rw [answer] at begins
    exact begins _ (does_taken _ rfl course)
  | unseen answer opcodes ending last course =>
    rw [answer] at begins
    exact begins _ ((does_taken _ rfl course).append (does_pictureIf _ _))
  | halted answer opcodes cause pc last course =>
    rw [answer] at begins
    exact begins _ ((does_taken _ rfl course).append (does_pictureIf _ _))
  | complete answer opcodes last course =>
    rw [answer] at begins
    exact begins _ ((does_taken _ rfl course).append (does_pictureIf _ _))

/-- A frame leaves the size of batches. -/
theorem Framed.batchSize {console after : Console ι δ φ} {happenings : List Happening}
    {frames executed : Nat} {ending : Option RunEnd}
    (way : console.Framed happenings after frames executed ending) :
    after.batchSize = console.batchSize := by
  cases way with
  | refused | quit | fault => rfl
  | unseen | halted | complete => exact batchSize_showIf _ _

/-- Nor does it look into the store. -/
theorem Framed.store {console after : Console ι δ φ} {happenings : List Happening}
    {frames executed : Nat} {ending : Option RunEnd}
    (way : console.Framed happenings after frames executed ending) :
    after.store = console.store := by
  cases way with
  | refused | quit | fault => rfl
  | unseen | halted | complete => exact store_showIf _ _

/-- A frame counts once or not at all. -/
theorem Framed.frames_le_one {console after : Console ι δ φ} {happenings : List Happening}
    {frames executed : Nat} {ending : Option RunEnd}
    (way : console.Framed happenings after frames executed ending) : frames ≤ 1 := by
  cases way with
  | refused | quit | fault => exact Nat.zero_le 1
  | unseen | halted | complete => exact Nat.le_refl 1

/-- A frame that the run goes on from counts. -/
theorem Framed.frames_eq_one {console after : Console ι δ φ} {happenings : List Happening}
    {frames executed : Nat} (way : console.Framed happenings after frames executed none) :
    frames = 1 := by
  cases way
  rfl

/-- A frame that the user ends does not count. -/
theorem Framed.frames_eq_zero {console after : Console ι δ φ} {happenings : List Happening}
    {frames executed : Nat}
    (way : console.Framed happenings after frames executed (some .quit)) : frames = 0 := by
  cases way
  rfl

/-- No frame reaches the limit of a run. -/
theorem Framed.ne_limit {console after : Console ι δ φ} {happenings : List Happening}
    {frames executed : Nat} {ending : Option RunEnd}
    (way : console.Framed happenings after frames executed ending) : ending ≠ some .limit := by
  cases way <;> simp

end Does

/-- What happens in the batch of a frame and after it. -/
def batchHappenings (console : Console ι δ φ) : List Happening :=
  let (batch, ending) :=
    Batch.run console.batchSize ⟨console.machine, console.generator, 0, false⟩
  (console.system.batchOutcomes console.batchSize).map .stepped ++
    (console.withSystem ⟨batch.machine, batch.generator⟩).pictureIf
      (batch.drew && !ending.isFault)

/-- What happens in a frame. -/
def frameHappenings [KeySource ι] (console : Console ι δ φ) : List Happening :=
  .polled console.poll.answer :: match console.poll.answer with
    | .ok .proceed => console.polled.batchHappenings
    | _ => []

/-- What happens in the batch is told by its course. -/
theorem batchHappenings_eq (console : Console ι δ φ) {opcodes : List UInt16}
    {ending : BatchEnd} {last : System}
    (course : console.system.Course console.batchSize opcodes ending last) :
    console.batchHappenings = taken opcodes ending ++
      (console.withSystem last).pictureIf (drawsSprite opcodes && !ending.isFault) := by
  have ran : Batch.run console.batchSize ⟨console.machine, console.generator, 0, false⟩ = (_, _) :=
    Batch.run_eq course 0 false
  simp only [batchHappenings, ran, course.batchOutcomes_eq, taken, List.map_append, List.map_map,
    Bool.false_or]
  rfl

end Console

namespace Progress

variable {ι δ φ : Type}

/-- A frame that counts shows the picture if it may have changed. -/
theorem finish_eq [Display δ] (progress : Progress ι δ φ) (drew : Bool) :
    progress.finish drew = ((progress.console.showIf drew).1,
      { progress with console := (progress.console.showIf drew).2, frames := progress.frames + 1 }) := by
  cases drew <;> rfl

section Advance

variable [Display δ] (progress : Progress ι δ φ) {opcodes : List UInt16} {last : System}

/-- After an instruction failed the frame is left. -/
theorem advance_failed {fault : Fault}
    (course : progress.console.system.Course progress.console.batchSize opcodes
      (.failed fault) last) :
    progress.advance = (⟨progress.console.withSystem last, progress.frames,
      progress.executed + .ofNat opcodes.length, progress.notices⟩, some (.failed (.fault fault))) := by
  have ran : progress.batch = (_, _) := Batch.run_eq course progress.executed false
  simp only [advance, ran]
  rfl

/-- At the end of the program the frame counts, and the picture is shown. -/
theorem advance_halted {cause : Halt} {pc : UInt16}
    (course : progress.console.system.Course progress.console.batchSize opcodes
      (.halted cause pc) last) :
    let shown := (progress.console.withSystem last).showIf (drawsSprite opcodes)
    ∃ notices, progress.advance =
      (⟨shown.2, progress.frames + 1, progress.executed + .ofNat opcodes.length, notices⟩,
        match shown.1 with
        | .error error => some (.failed (.device error))
        | .ok () => some .halted) := by
  have ran : progress.batch = (_, _) := Batch.run_eq course progress.executed false
  simp only [advance, ran, finish_eq, Bool.false_or, report, Console.withSystem_mk]
  generalize (progress.console.withSystem last).showIf (drawsSprite opcodes) = shown
  obtain ⟨error | done, console⟩ := shown
  · exact ⟨_, rfl⟩
  · exact ⟨_, rfl⟩

/-- After a complete batch the frame counts, the picture is shown, and the run goes on. -/
theorem advance_complete
    (course : progress.console.system.Course progress.console.batchSize opcodes .complete last) :
    let shown := (progress.console.withSystem last).showIf (drawsSprite opcodes)
    progress.advance =
      (⟨shown.2, progress.frames + 1, progress.executed + .ofNat opcodes.length, progress.notices⟩,
        match shown.1 with
        | .error error => some (.failed (.device error))
        | .ok () => none) := by
  have ran : progress.batch = (_, _) := Batch.run_eq course progress.executed false
  simp only [advance, ran, finish_eq, Bool.false_or, Console.withSystem_mk]
  generalize (progress.console.withSystem last).showIf (drawsSprite opcodes) = shown
  obtain ⟨error | done, console⟩ := shown
  · rfl
  · rfl

end Advance

/-- A frame whose keys were polled goes one of the ways of frames. -/
theorem advance_framed [KeySource ι] [Display δ] (console : Console ι δ φ)
    (answer : console.poll.answer = .ok .proceed) (progress : Progress ι δ φ)
    (here : progress.console = console.polled) :
    ∃ frames executed,
      console.Framed (.polled (.ok .proceed) :: console.polled.batchHappenings)
        progress.advance.1.console frames executed progress.advance.2 ∧
      progress.advance.1.frames = progress.frames + .ofNat frames ∧
      progress.advance.1.executed = progress.executed + .ofNat executed := by
  obtain ⟨opcodes, ending, last, course⟩ :=
    console.polled.system.exists_course console.polled.batchSize
  obtain ⟨played, before, instructions, notices⟩ := progress
  subst here
  rw [console.polled.batchHappenings_eq course]
  cases ending with
  | failed fault =>
    rw [advance_failed _ course, BatchEnd.isFault, Bool.not_true, Bool.and_false,
      Console.pictureIf, if_neg Bool.false_ne_true, List.append_nil]
    exact ⟨0, opcodes.length, .fault answer opcodes fault last course,
      (UInt64.add_zero before).symm, rfl⟩
  | halted cause pc =>
    obtain ⟨notices, advanced⟩ := advance_halted ⟨console.polled, before, instructions, notices⟩ course
    rw [advanced, BatchEnd.isFault, Bool.not_false, Bool.and_true]
    refine ⟨1, opcodes.length, ?_, rfl, rfl⟩
    cases shown : ((console.polled.withSystem last).showIf (drawsSprite opcodes)).1 with
    | error error => exact .unseen answer opcodes _ last course rfl error shown
    | ok done => exact .halted answer opcodes cause pc last course shown
  | complete =>
    rw [advance_complete _ course, BatchEnd.isFault, Bool.not_false, Bool.and_true]
    refine ⟨1, opcodes.length, ?_, rfl, rfl⟩
    cases shown : ((console.polled.withSystem last).showIf (drawsSprite opcodes)).1 with
    | error error => exact .unseen answer opcodes _ last course rfl error shown
    | ok done => exact .complete answer opcodes last course shown

/-- A run whose keys were polled. -/
def polled [KeySource ι] (progress : Progress ι δ φ) : Progress ι δ φ :=
  { progress with
    console := progress.console.polled
    notices := progress.notices ++ progress.console.poll.notices }

/-- A frame begins with a poll, and its batch follows only where that lets it. -/
theorem frame_eq [KeySource ι] [Display δ] (progress : Progress ι δ φ) :
    progress.frame = match progress.console.poll.answer with
      | .error failure => (progress.polled, some (.failed failure))
      | .ok .quit => (progress.polled.report [.quitRequested progress.frames], some .quit)
      | .ok .proceed => progress.polled.advance := rfl

/-- Every frame goes one of the ways of frames. -/
theorem frame_framed [KeySource ι] [Display δ] (progress : Progress ι δ φ) :
    ∃ frames executed,
      progress.console.Framed progress.console.frameHappenings progress.frame.1.console
        frames executed progress.frame.2 ∧
      progress.frame.1.frames = progress.frames + .ofNat frames ∧
      progress.frame.1.executed = progress.executed + .ofNat executed := by
  have frames : progress.frames = progress.frames + .ofNat 0 := (UInt64.add_zero _).symm
  have executed : progress.executed = progress.executed + .ofNat 0 := (UInt64.add_zero _).symm
  rw [frame_eq, Console.frameHappenings]
  cases answer : progress.console.poll.answer with
  | error failure => exact ⟨0, 0, .refused failure answer, frames, executed⟩
  | ok control =>
    cases control with
    | quit => exact ⟨0, 0, .quit answer, frames, executed⟩
    | proceed => exact advance_framed progress.console answer progress.polled rfl

end Progress

end Chip8
