import Chip8.Console.Run
import Chip8.Proofs.Loading

/-!
# The course of a batch

A batch executes as many instructions as it is given, or fewer, where the program ends or
an instruction fails. A course says this without the batch's own bookkeeping: which
opcodes are executed one after the other, how that ends, and what it leads to. A system
has one course for each number of instructions. Courses can be joined, and one that ends
early stays the same when more instructions are allowed, so neither the number of
batches nor their size matters to a system, only how many instructions they allow in all.
-/

namespace Chip8

/-- What is told by the step that ends a batch early. -/
def BatchEnd.outcome? : BatchEnd → Option (Except Fault Outcome)
  | .complete => none
  | .halted cause pc => some (.ok (.halted cause pc))
  | .failed fault => some (.error fault)

/-- Ends of batches that come from the same step are the same. -/
theorem BatchEnd.outcome?_inj {ending other : BatchEnd} {outcome : Except Fault Outcome}
    (told : ending.outcome? = some outcome) (toldOther : other.outcome? = some outcome) :
    ending = other := by
  cases ending <;> cases other <;> cases told <;> cases toldOther <;> rfl

/-- What ends a batch early is not an executed instruction. -/
theorem BatchEnd.outcome?_ne_executed (ending : BatchEnd) (opcode : UInt16) :
    ending.outcome? ≠ some (.ok (.executed opcode)) := by
  cases ending <;> simp [BatchEnd.outcome?]

namespace System

/-- From a system on, at most so many instructions are executed. -/
inductive Course : System → Nat → List UInt16 → BatchEnd → System → Prop where
  /-- No more instructions are allowed. -/
  | complete (system : System) : Course system 0 [] .complete system
  /-- A step executes nothing, and none is taken after it. -/
  | stopped (system : System) (room : Nat) (ending : BatchEnd)
      (told : ending.outcome? = some system.stepped.outcome) :
      Course system (room + 1) [] ending system.next
  /-- A step executes an instruction, and more may follow. -/
  | executed (system : System) (room : Nat) (opcode : UInt16) (opcodes : List UInt16)
      (ending : BatchEnd) (last : System)
      (told : system.stepped.outcome = .ok (.executed opcode))
      (rest : Course system.next room opcodes ending last) :
      Course system (room + 1) (opcode :: opcodes) ending last

variable {system middle last : System} {size : Nat} {opcodes : List UInt16} {ending : BatchEnd}

/-- A course goes on from an executed instruction. -/
theorem Course.of_step {machine after : Machine} {generator later : Generator} {opcode : UInt16}
    (step : machine.step generator = ⟨.ok (.executed opcode), after, later⟩)
    (rest : Course ⟨after, later⟩ size opcodes ending last) :
    Course ⟨machine, generator⟩ (size + 1) (opcode :: opcodes) ending last := by
  refine .executed ⟨machine, generator⟩ size opcode opcodes ending last ?_ ?_
  · rw [stepped, step]
  · rw [next, stepped, step]
    exact rest

/-- A course ends with a step that executes nothing. -/
theorem Course.of_end {machine after : Machine} {generator later : Generator}
    {outcome : Except Fault Outcome}
    (step : machine.step generator = ⟨outcome, after, later⟩)
    (told : ending.outcome? = some outcome) :
    Course ⟨machine, generator⟩ (size + 1) [] ending ⟨after, later⟩ := by
  have next : next ⟨machine, generator⟩ = ⟨after, later⟩ := by rw [next, stepped, step]
  rw [← next]
  refine .stopped ⟨machine, generator⟩ size ending ?_
  rw [told, stepped, step]

/-- A complete batch executes as many instructions as it may. -/
theorem Course.length_eq (course : system.Course size opcodes .complete last) :
    opcodes.length = size := by
  generalize whole : BatchEnd.complete = ending at course
  induction course with
  | complete => rfl
  | stopped system room ending told =>
    subst whole
    cases told
  | executed system room opcode opcodes ending last told rest inductionHypothesis =>
    rw [List.length_cons, inductionHypothesis whole]

/-- A batch that ends early executes fewer. -/
theorem Course.length_lt (course : system.Course size opcodes ending last)
    (early : ending ≠ .complete) : opcodes.length < size := by
  induction course with
  | complete => exact absurd rfl early
  | stopped => exact Nat.succ_pos _
  | executed system room opcode opcodes ending last told rest inductionHypothesis =>
    exact Nat.succ_lt_succ (inductionHypothesis early)

/-- There is one course only. -/
theorem Course.unique {others : List UInt16} {otherEnding : BatchEnd} {otherLast : System}
    (course : system.Course size opcodes ending last)
    (other : system.Course size others otherEnding otherLast) :
    opcodes = others ∧ ending = otherEnding ∧ last = otherLast := by
  induction course generalizing others with
  | complete =>
    cases other
    exact ⟨rfl, rfl, rfl⟩
  | stopped system room ending told =>
    cases other with
    | stopped _ _ _ toldOther => exact ⟨rfl, BatchEnd.outcome?_inj told toldOther, rfl⟩
    | executed _ _ opcode _ _ _ toldOther _ =>
      rw [toldOther] at told
      exact absurd told (ending.outcome?_ne_executed opcode)
  | executed system room opcode opcodes ending last told rest inductionHypothesis =>
    cases other with
    | stopped _ _ _ toldOther =>
      rw [told] at toldOther
      exact absurd toldOther (otherEnding.outcome?_ne_executed opcode)
    | executed _ _ otherOpcode others _ _ toldOther restOther =>
      obtain ⟨opcodesSame, endingSame, lastSame⟩ := inductionHypothesis restOther
      have opcodeSame : opcode = otherOpcode :=
        Outcome.executed.inj (Except.ok.inj (told.symm.trans toldOther))
      rw [opcodeSame, opcodesSame]
      exact ⟨rfl, endingSame, lastSame⟩

/-- After a complete batch the next one goes on. -/
theorem Course.append {more : Nat} {others : List UInt16}
    (course : system.Course size opcodes .complete middle)
    (later : middle.Course more others ending last) :
    system.Course (size + more) (opcodes ++ others) ending last := by
  generalize whole : BatchEnd.complete = first at course
  induction course with
  | complete =>
    rw [Nat.zero_add]
    exact later
  | stopped system room ending told =>
    subst whole
    cases told
  | executed system room opcode opcodes first middle told rest inductionHypothesis =>
    rw [Nat.add_right_comm]
    exact .executed system _ opcode _ ending last told (inductionHypothesis later whole)

/-- After a batch that ended early nothing follows. -/
theorem Course.extend (course : system.Course size opcodes ending last)
    (early : ending ≠ .complete) (more : Nat) :
    system.Course (size + more) opcodes ending last := by
  induction course with
  | complete => exact absurd rfl early
  | stopped system room ending told =>
    rw [Nat.add_right_comm]
    exact .stopped system _ ending told
  | executed system room opcode opcodes ending last told rest inductionHypothesis =>
    rw [Nat.add_right_comm]
    exact .executed system _ opcode opcodes ending last told (inductionHypothesis early)

/-- There always is one. -/
theorem exists_course (system : System) (size : Nat) :
    ∃ opcodes ending last, system.Course size opcodes ending last := by
  induction size generalizing system with
  | zero => exact ⟨[], .complete, system, .complete system⟩
  | succ room inductionHypothesis =>
    cases told : system.stepped.outcome with
    | error fault =>
      exact ⟨[], .failed fault, system.next, .stopped system room _ (congrArg some told.symm)⟩
    | ok outcome =>
      cases outcome with
      | halted cause pc =>
        exact ⟨[], .halted cause pc, system.next,
          .stopped system room _ (congrArg some told.symm)⟩
      | executed opcode =>
        obtain ⟨opcodes, ending, last, rest⟩ := inductionHypothesis system.next
        exact ⟨opcode :: opcodes, ending, last,
          .executed system room opcode opcodes ending last told rest⟩

/-- The short program executes its instruction and ends, in every batch that has room for
both. -/
theorem course_brief (room : Nat) :
    (brief 0 0).Course (room + 2) [0x6005] (.halted .outside 0x202) (brief 0 0).next.next :=
  .executed _ _ _ _ _ _ (by rw [brief_stepped])
    (.stopped _ _ _ (by rw [brief_next_stepped]; rfl))

/-- A batch of one instruction is complete before it ends. -/
theorem course_brief_one : (brief 0 0).Course 1 [0x6005] .complete (brief 0 0).next :=
  .executed _ _ _ _ _ _ (by rw [brief_stepped]) (.complete _)

/-- A step moves no key. -/
theorem next_keys (system : System) : system.next.machine.keys = system.machine.keys := by
  cases executes : system.executes? with
  | none =>
    obtain ⟨pc, same⟩ := system.next_of_idle executes
    rw [same]
  | some instruction => exact (system.next_confined instruction executes).keys

/-- Neither does a batch. -/
theorem Course.keys (course : system.Course size opcodes ending last) :
    last.machine.keys = system.machine.keys := by
  induction course with
  | complete => rfl
  | stopped system room ending told => exact system.next_keys
  | executed system room opcode opcodes ending last told rest inductionHypothesis =>
    exact inductionHypothesis.trans system.next_keys

/-- A step that ends a batch early executes nothing. -/
theorem executes?_of_told (told : ending.outcome? = some system.stepped.outcome) :
    system.executes? = none := by
  rw [executes?]
  generalize system.stepped.outcome = outcome at told
  cases ending <;> cases told <;> rfl

/-- The system after so many steps. -/
def after (system : System) (steps : Nat) : System := system.play (.replicate steps .step)

/-- Steps move no key. -/
theorem keys_after (system : System) (steps : Nat) :
    (system.after steps).machine.keys = system.machine.keys := by
  induction steps generalizing system with
  | zero => rfl
  | succ steps inductionHypothesis => exact (inductionHypothesis system.next).trans system.next_keys

/-- The last executed instruction of a batch leaves memory as it is after the batch. -/
theorem Course.memory_eq (course : system.Course size opcodes ending last) :
    last.machine.memory = (system.after opcodes.length).machine.memory := by
  induction course with
  | complete system => rfl
  | stopped system room ending told =>
    obtain ⟨pc, same⟩ := system.next_of_idle (executes?_of_told told)
    rw [same]
    rfl
  | executed system room opcode opcodes ending last told rest inductionHypothesis =>
    exact inductionHypothesis

/-- What the steps of a batch tell, up to one that executes nothing. -/
def batchOutcomes : Nat → System → List (Except Fault Outcome)
  | 0, _ => []
  | room + 1, system => system.stepped.outcome :: match system.stepped.outcome with
    | .ok (.executed _) => system.next.batchOutcomes room
    | _ => []

/-- The steps of a batch tell of its opcodes, and the last one of an early end. -/
theorem Course.batchOutcomes_eq (course : system.Course size opcodes ending last) :
    system.batchOutcomes size =
      opcodes.map (fun opcode => .ok (.executed opcode)) ++ ending.outcome?.toList := by
  induction course with
  | complete => rfl
  | stopped system room ending told =>
    rw [batchOutcomes]
    generalize system.stepped.outcome = outcome at told
    cases ending <;> cases told <;> rfl
  | executed system room opcode opcodes ending last told rest inductionHypothesis =>
    rw [batchOutcomes, told]
    simp only [inductionHypothesis, List.map_cons, List.cons_append]

end System

/-- One of the executed opcodes draws a sprite. -/
def drawsSprite (opcodes : List UInt16) : Bool :=
  opcodes.any fun opcode => (Outcome.executed opcode).drew

namespace Batch

/-- What a batch leaves is told by its course. -/
theorem run_eq {size : Nat} {system last : System} {opcodes : List UInt16} {ending : BatchEnd}
    (course : system.Course size opcodes ending last) (executed : UInt64) (drew : Bool) :
    Batch.run size ⟨system.machine, system.generator, executed, drew⟩ =
      (⟨last.machine, last.generator, executed + .ofNat opcodes.length, drew || drawsSprite opcodes⟩,
        ending) := by
  induction course generalizing executed drew with
  | complete => simp [Batch.run, drawsSprite]
  | stopped system room ending told =>
    rw [Batch.run]
    rcases same : system.machine.step system.generator with ⟨outcome, after, later⟩
    have stepped : system.stepped = ⟨outcome, after, later⟩ := same
    have next : system.next = ⟨after, later⟩ := by rw [System.next, stepped]
    rw [stepped] at told
    cases ending <;> cases told <;> simp [next, drawsSprite]
  | executed system room opcode opcodes ending last told rest inductionHypothesis =>
    rw [Batch.run]
    rcases same : system.machine.step system.generator with ⟨outcome, after, later⟩
    have stepped : system.stepped = ⟨outcome, after, later⟩ := same
    have next : system.next = ⟨after, later⟩ := by rw [System.next, stepped]
    rw [stepped] at told
    subst told
    rw [next] at inductionHypothesis
    have counted : executed + 1 + .ofNat opcodes.length = executed + .ofNat (opcodes.length + 1) := by
      rw [UInt64.add_assoc, Nat.add_comm, UInt64.ofNat_add]
      rfl
    simp only [inductionHypothesis, drawsSprite, List.length_cons, List.any_cons, Bool.or_assoc,
      counted]

end Batch

end Chip8
