import Chip8.Proofs.Splitting
import Chip8.Proofs.Writing
import Mathlib.Data.List.Induction

/-!
# Sessions that share a store

A session sets up a new console, loads a program on it and runs it. The consoles of
different sessions have nothing in common but the store of the flag registers, and their
keys and displays may be of different kinds. Whichever way a run ends, its flag registers
are written to the store, and what is written can be read. So the store holds the flag
registers of the session before at the beginning of every session, and loading a program
brings them back.
-/

namespace Chip8

/-- A session that is to be played: the kinds of its keys and its display, the devices
themselves, the settings, the program and the limit of frames. -/
structure Session where
  Keys : Type
  Screen : Type
  [keySource : KeySource Keys]
  [display : Display Screen]
  keys : Keys
  screen : Screen
  settings : Settings
  /-- The generator for settings that name no seed. -/
  spare : Generator
  program : List UInt8
  limit : Option UInt64

attribute [instance] Session.keySource Session.display

/-- What a session finds: the store, and the flag registers that the session before left
on its machine. -/
structure Handover where
  store : TextStore
  flags : Registers

namespace Session

/-- The new console of a session. -/
def console (session : Session) (store : TextStore) :
    Console session.Keys session.Screen TextStore :=
  .ofSettings session.settings session.spare session.keys session.screen store

/-- Loading the program. -/
def loading (session : Session) (store : TextStore) :
    Loaded session.Keys session.Screen TextStore :=
  (session.console store).load session.program

/-- Running the loaded program, if that comes to an end. -/
def report (session : Session) (store : TextStore) :
    Option (Report session.Keys session.Screen TextStore) :=
  (session.loading store).console.run session.limit

/-- What the next session finds. -/
def handOver (before : Handover) (session : Session) : Option Handover :=
  (session.report before.store).map fun report =>
    ⟨report.console.store, report.console.machine.flags⟩

end Session

/-- What is found after sessions that were played one after the other, if all of them came
to an end. -/
def Handover.after (start : Handover) (sessions : List Session) : Option Handover :=
  sessions.foldlM Session.handOver start

/-- A store holds registers: its text is read as these, or there is no text and all of
them are zero. -/
def TextStore.Holds (store : TextStore) (flags : Registers) : Prop :=
  (store.saved = none ∧ flags = .replicate 16 0) ∨
    ∃ text, store.saved = some text ∧ Listing.decode text = .ok flags

/-- A text is loaded as the registers that are read from it, and it stays. -/
theorem TextStore.load_of_read (text : String) (flags : Registers)
    (read : Listing.decode text = .ok flags) :
    FlagStore.load (⟨some text⟩ : TextStore) = (.ok (some flags), ⟨some text⟩) := by
  simp [FlagStore.load, TextStore.load, read]

/-- A new console takes its program and the flag registers that its store holds, and stands
at the start of the program. -/
theorem Console.load_of_holds {ι δ : Type} (console : Console ι δ TextStore)
    (program : List UInt8) (flags : Registers) (fresh : console.machine = .initial)
    (held : console.store.Holds flags) :
    console.load program = ⟨.ok (), { console with
      machine := { Machine.initial.load program with pc := 0x200, flags := flags } },
      [.ofLoad program]⟩ := by
  obtain ⟨machine, generator, keymap, batchSize, keys, display, ⟨saved⟩⟩ := console
  subst fresh
  rcases held with ⟨empty, rfl⟩ | ⟨text, stored, read⟩
  · obtain rfl : saved = none := empty
    rfl
  · obtain rfl : saved = some text := stored
    simp [Console.load, TextStore.load_of_read text flags read, programStart]

/-- However a run ends, its flag registers are written to the store. -/
theorem Console.saved_run {ι δ : Type} [KeySource ι] [Display δ]
    (console : Console ι δ TextStore) (limit : Option UInt64) (report : Report ι δ TextStore)
    (ran : console.run limit = some report) :
    report.console.store.saved = some (Listing.encode report.console.machine.flags) := by
  obtain ⟨_, last, ending, _, rfl⟩ := (console.run_eq_some_iff limit report).mp ran
  rw [console_close]
  rfl

/-- So the store then holds them. -/
theorem Session.holds_handOver (before after : Handover) (session : Session)
    (played : session.handOver before = some after) : after.store.Holds after.flags := by
  obtain ⟨report, ran, rfl⟩ := Option.map_eq_some_iff.mp played
  exact .inr ⟨_, Console.saved_run _ _ report ran, Listing.decode_encode _⟩

/-- After any number of sessions the store holds the registers of the last one. -/
theorem Handover.holds_after (start before : Handover) (sessions : List Session)
    (held : start.store.Holds start.flags) (played : start.after sessions = some before) :
    before.store.Holds before.flags := by
  induction sessions generalizing start with
  | nil =>
    obtain rfl : start = before := Option.some.inj played
    exact held
  | cons session rest inductionHypothesis =>
    rw [after, List.foldlM_cons] at played
    obtain ⟨middle, first, later⟩ := Option.bind_eq_some_iff.mp played
    exact inductionHypothesis middle (session.holds_handOver start middle first) later

/-- Take sessions that share a store, which is empty at first or has a text that can be
read, and any one after them. It loads its program without failing, and then stands at the
start of the program with the flag registers that the machine of the session before had at
its end, or those that the store held at first. After its run, however that ended, the text
in the store is what is written of its machine's flag registers. -/
theorem flags_survive_sessions (start : Handover) (held : start.store.Holds start.flags)
    (earlier : List Session) (before : Handover) (played : start.after earlier = some before)
    (session : Session) :
    let loading := session.loading before.store
    loading.answer = .ok () ∧ loading.console.machine.flags = before.flags ∧
      loading.console.machine.pc = 0x200 ∧
      ∀ report, session.report before.store = some report →
        report.console.store.saved = some (Listing.encode report.console.machine.flags) := by
  intro loading
  have loaded : loading = _ := (session.console before.store).load_of_holds
    session.program before.flags rfl (start.holds_after before earlier held played)
  refine ⟨?_, ?_, ?_, fun report ran => Console.saved_run _ _ report ran⟩
  · rw [loaded]
  · rw [loaded]
  · rw [loaded]

/-! ## Sessions that count -/

namespace Machine

/-- The machine has this program as its first one, and it stands so many bytes behind the
start of it. -/
structure At (program : List UInt8) (machine : Machine) (offset : Nat) : Prop where
  memory : machine.memory = (initial.load program).memory
  size : machine.programSize = some program.length
  counter : machine.pc.toNat = programStart + offset

namespace At

variable {program : List UInt8} {machine : Machine} {offset : Nat}

/-- Before the last byte it is within its program. -/
theorem inProgram (here : machine.At program offset) (within : offset < program.length) :
    machine.InProgram := by
  refine ⟨program.length, here.size, ?_⟩
  rw [here.counter]
  omega

/-- The next opcode is made of two bytes of the program. -/
theorem opcode_eq (here : machine.At program offset) (copied : program.length < programLimit)
    (high low : UInt8) (first : program[offset]? = some high)
    (second : program[offset + 1]? = some low) :
    machine.opcode = .ofNat (256 * high.toNat + low.toNat) := by
  rw [opcode, here.memory, here.counter]
  exact word_load_initial program copied offset high low first second

/-- After an instruction that is not a jump and leaves memory alone it stands behind that. -/
theorem step (here : machine.At program offset) (generator : Generator)
    (copied : program.length < programLimit) (instruction : Instruction)
    (moves : instruction.family ≠ 0x1) (high low : UInt8)
    (first : program[offset]? = some high) (second : program[offset + 1]? = some low)
    (spells : .ofNat (256 * high.toNat + low.toNat) = instruction.encode) (after : Machine)
    (done : machine.fetched.execute generator instruction = (.ok (), after, generator))
    (memory : after.memory = machine.memory) (size : after.programSize = machine.programSize)
    (counter : after.pc = machine.fetched.pc) :
    machine.step generator = ⟨.ok (.executed instruction.encode), after.tick, generator⟩ ∧
      after.tick.At program (offset + 2) := by
  have within : offset < program.length := (List.getElem?_eq_some_iff.mp first).1
  have stands := (here.opcode_eq copied high low first second).trans spells
  refine ⟨machine.step_of_instruction generator instruction (here.inProgram within) stands moves
    after generator done, ⟨?_, ?_, ?_⟩⟩
  · rw [tick_memory, memory, here.memory]
  · rw [tick_programSize, size, here.size]
  · have behind : machine.fetched.pc.toNat = (machine.pc.toNat + 2) % 65536 :=
      UInt16.toNat_add machine.pc 2
    rw [tick_pc, counter, behind, here.counter]
    simp only [programLimit, screenStart, programStart] at copied ⊢
    omega

end At

/-- A program that restores two flag registers, counts the second one up and saves both, and
then goes on as it is told to. -/
def counting (rest : List UInt8) : List UInt8 :=
  0xF1 :: 0x85 :: 0x71 :: 0x01 :: 0xF1 :: 0x75 :: rest

/-- The flag registers with the second one counted up. -/
def raised (flags : Registers) : Registers :=
  .ofFn fun r => if r = 1 then flags.get r + 1 else flags.get r

/-- Three instructions count the flag register up, and any batch goes on from there. -/
theorem course_counting (rest : List UInt8) (copied : (counting rest).length < programLimit)
    (machine : Machine) (generator : Generator) (here : machine.At (counting rest) 0) :
    ∃ last : Machine, last.At (counting rest) 6 ∧ last.flags = raised machine.flags ∧
      ∀ room opcodes ending final,
        System.Course ⟨last, generator⟩ room opcodes ending final →
        System.Course ⟨machine, generator⟩ (room + 3)
          (0xF185 :: 0x7101 :: 0xF175 :: opcodes) ending final := by
  obtain ⟨second, restores, secondHere, values, kept⟩ : ∃ second : Machine,
      machine.step generator = ⟨.ok (.executed 0xF185), second, generator⟩ ∧
      second.At (counting rest) 2 ∧
      second.v = (replaceThrough machine.v 1 fun r => machine.flags.get r) ∧
      second.flags = machine.flags := by
    obtain ⟨stepped, behind⟩ := here.step generator copied (.restoreFlags 1)
      (show 0xF ≠ 0x1 by decide) 0xF1 0x85 rfl rfl rfl _ rfl rfl rfl rfl
    exact ⟨_, stepped, behind, tick_v _, tick_flags _⟩
  obtain ⟨third, adds, thirdHere, sum, keptThen⟩ : ∃ third : Machine,
      second.step generator = ⟨.ok (.executed 0x7101), third, generator⟩ ∧
      third.At (counting rest) 4 ∧
      third.v = (second.fetched.setRegister 1 (second.v.get 1 + 1)).v ∧
      third.flags = second.flags := by
    obtain ⟨stepped, behind⟩ := secondHere.step generator copied (.addByte 1 1)
      (show 0x7 ≠ 0x1 by decide) 0x71 0x01 rfl rfl rfl _ rfl rfl rfl rfl
    exact ⟨_, stepped, behind, tick_v _, tick_flags _⟩
  obtain ⟨last, saves, lastHere, saved⟩ : ∃ last : Machine,
      third.step generator = ⟨.ok (.executed 0xF175), last, generator⟩ ∧
      last.At (counting rest) 6 ∧
      last.flags = replaceThrough third.flags 1 fun r => third.v.get r := by
    obtain ⟨stepped, behind⟩ := thirdHere.step generator copied (.saveFlags 1)
      (show 0xF ≠ 0x1 by decide) 0xF1 0x75 rfl rfl rfl _ rfl rfl rfl rfl
    exact ⟨_, stepped, behind, tick_flags _⟩
  refine ⟨last, lastHere, ?_, ?_⟩
  · have entry (r : Register) : last.flags.get r =
        if r = 1 then machine.flags.get r + 1 else machine.flags.get r := by
      rw [saved]
      by_cases within : r ≤ 1
      · rw [replaceThrough_within _ 1 r _ within, sum]
        by_cases own : r = 1
        · subst own
          rw [setRegister_same, values, replaceThrough_within _ 1 1 _ within, if_pos rfl]
        · have other : (second.fetched.setRegister 1 (second.v.get 1 + 1)).v.get r =
              second.v.get r := setRegister_other _ _ _ _ own
          rw [other, values, replaceThrough_within _ 1 r _ within, if_neg own]
      · rw [replaceThrough_behind _ 1 r _ within, keptThen, kept, if_neg]
        rintro rfl
        exact within (Fin.le_refl 1)
    refine Vector.ext fun place inside => ?_
    rw [raised, Vector.getElem_ofFn]
    exact entry ⟨place, inside⟩
  · intro room opcodes ending final onward
    exact .of_step restores (.of_step adds (.of_step saves onward))

/-- Behind the three instructions the program may be at its end. -/
theorem course_halting (room : Nat) (machine : Machine) (generator : Generator)
    (here : machine.At (counting []) 0) :
    ∃ last cause pc, last.machine.flags = raised machine.flags ∧
      System.Course ⟨machine, generator⟩ (room + 4) [0xF185, 0x7101, 0xF175]
        (.halted cause pc) last := by
  obtain ⟨last, behind, flags, onward⟩ := course_counting [] (by decide) machine generator here
  have ended := last.step_of_past generator 6 behind.size (Nat.le_of_eq behind.counter.symm)
  exact ⟨⟨last, generator⟩, _, _, flags, onward (room + 1) [] _ _ (.of_end ended rfl)⟩

/-- A batch may have no room for more. -/
theorem course_limited (machine : Machine) (generator : Generator)
    (here : machine.At (counting []) 0) :
    ∃ last : System, last.machine.flags = raised machine.flags ∧
      System.Course ⟨machine, generator⟩ 3 [0xF185, 0x7101, 0xF175] .complete last := by
  obtain ⟨last, _, flags, onward⟩ := course_counting [] (by decide) machine generator here
  exact ⟨⟨last, generator⟩, flags, onward 0 [] .complete _ (.complete _)⟩

/-- An opcode without a meaning may follow. -/
theorem course_failing (room : Nat) (machine : Machine) (generator : Generator)
    (here : machine.At (counting [0xFF, 0xFF]) 0) :
    ∃ last, last.machine.flags = raised machine.flags ∧
      System.Course ⟨machine, generator⟩ (room + 4) [0xF185, 0x7101, 0xF175]
        (.failed (.invalidOpcode 0xFFFF)) last := by
  have copied : (counting [0xFF, 0xFF]).length < programLimit := by decide
  obtain ⟨last, behind, flags, onward⟩ := course_counting [0xFF, 0xFF] copied machine generator here
  have stands : last.opcode = 0xFFFF := behind.opcode_eq copied 0xFF 0xFF rfl rfl
  have proceeds : last.Proceeds :=
    .of_opcode (behind.inProgram (by decide)) (by rw [stands]; decide)
  have failed := last.step_of_unknown generator proceeds (by rw [stands]; rfl)
  rw [stands] at failed
  exact ⟨⟨last.fetched, generator⟩, flags, onward (room + 1) [] _ _ (.of_end failed rfl)⟩

/-- A sprite may be drawn before the program is at its end. -/
theorem course_drawing (room : Nat) (machine : Machine) (generator : Generator)
    (here : machine.At (counting [0xD0, 0x05]) 0) :
    ∃ last cause pc, last.machine.flags = raised machine.flags ∧
      System.Course ⟨machine, generator⟩ (room + 5) [0xF185, 0x7101, 0xF175, 0xD005]
        (.halted cause pc) last := by
  have copied : (counting [0xD0, 0x05]).length < programLimit := by decide
  obtain ⟨last, behind, flags, onward⟩ := course_counting [0xD0, 0x05] copied machine generator here
  have stands : last.opcode = 0xD005 := behind.opcode_eq copied 0xD0 0x05 rfl rfl
  have draws := last.step_of_instruction generator (.draw 0 0 5) (behind.inProgram (by decide))
    stands (show 0xD ≠ 0x1 by decide) _ _ rfl
  obtain ⟨drawn, known⟩ : ∃ drawn, drawn = (last.fetched.draw 0 0 5).tick := ⟨_, rfl⟩
  rw [← known] at draws
  have size : drawn.programSize = some 8 := by
    rw [known, tick_programSize]
    exact behind.size
  have counter : drawn.pc.toNat = 0x208 := by
    have moved : drawn.pc = last.pc + 2 := by
      rw [known, tick_pc]
      rfl
    rw [moved, UInt16.toNat_add, behind.counter]
    rfl
  have kept : drawn.flags = last.flags := by
    rw [known, tick_flags]
    rfl
  have ended := drawn.step_of_past generator 8 size (Nat.le_of_eq counter.symm)
  exact ⟨⟨drawn, generator⟩, _, _, kept.trans flags,
    onward (room + 2) _ _ _ (.of_step draws (.of_end ended rfl))⟩

end Machine

/-- A display that is dark and shows no picture. -/
structure Dark where

instance : Display Dark where
  present dark _ := (.error (.broken "dark"), dark)

namespace Session

/-- A session with the program that counts, on a dark display with nobody at the keys. -/
def counting (size : Nat) (limit : Option UInt64) (rest : List UInt8) : Session where
  Keys := Script
  Screen := Dark
  keys := .start [] none
  screen := {}
  settings := ⟨"", 60, size, none, .conventional, 6, none⟩
  spare := .ofSeed 0
  program := Machine.counting rest
  limit := limit

/-- A session counts up the flag registers that its store holds, and its run ends with this
result. -/
def Raises (session : Session) (result : Except Failure Summary) : Prop :=
  ∀ before : Handover, before.store.Holds before.flags →
    ∃ report, session.report before.store = some report ∧ report.result = result ∧
      report.console.machine.flags = Machine.raised before.flags

/-- The console of such a session with this machine on it. -/
def seat (machine : Machine) (size : Nat) (store : TextStore) : Console Script Dark TextStore where
  machine := machine
  generator := .ofSeed 0
  keymap := .conventional
  batchSize := size
  keys := .start [] none
  display := {}
  store := store

/-- A session counts up what its store holds if a run from the start of the program counts up
what its machine has. -/
theorem raises_of_run (size : Nat) (limit : Option UInt64) (rest : List UInt8)
    (result : Except Failure Summary)
    (runs : ∀ machine : Machine, machine.At (Machine.counting rest) 0 → ∀ store,
      ∃ report, (seat machine size store).run limit = some report ∧ report.result = result ∧
        report.console.machine.flags = Machine.raised machine.flags) :
    (counting size limit rest).Raises result := by
  intro before held
  have loaded := ((counting size limit rest).console before.store).load_of_holds
    (Machine.counting rest) before.flags rfl held
  obtain ⟨report, ran, done, raised⟩ :=
    runs { Machine.initial.load (Machine.counting rest) with pc := 0x200, flags := before.flags }
      ⟨rfl, rfl, rfl⟩ before.store
  exact ⟨report, (congrArg (fun loaded => loaded.console.run limit) loaded).trans ran, done, raised⟩

/-- It may come to the end of its program. -/
theorem raises_halting : (counting 20 (some 5) []).Raises (.ok ⟨1, 3, true⟩) := by
  apply raises_of_run
  intro machine here store
  obtain ⟨last, cause, pc, raised, course⟩ := machine.course_halting 16 (.ofSeed 0) here
  obtain ⟨report, ran, done, left⟩ :=
    (seat machine 20 store).run_of_halted (some 5) rfl rfl course rfl
  exact ⟨report, ran, done, (congrArg Machine.flags left).trans raised⟩

/-- It may come to its limit. -/
theorem raises_limited : (counting 3 (some 1) []).Raises (.ok ⟨1, 3, false⟩) := by
  apply raises_of_run
  intro machine here store
  obtain ⟨last, raised, course⟩ := machine.course_limited (.ofSeed 0) here
  obtain ⟨report, ran, done, left⟩ := (seat machine 3 store).run_of_complete rfl course rfl
  exact ⟨report, ran, done, (congrArg Machine.flags left).trans raised⟩

/-- An instruction may fail in it. -/
theorem raises_failing :
    (counting 20 none [0xFF, 0xFF]).Raises (.error (.fault (.invalidOpcode 0xFFFF))) := by
  apply raises_of_run
  intro machine here store
  obtain ⟨last, raised, course⟩ := machine.course_failing 16 (.ofSeed 0) here
  obtain ⟨report, ran, done, left⟩ := (seat machine 20 store).run_of_failed none rfl rfl course
  exact ⟨report, ran, done, (congrArg Machine.flags left).trans raised⟩

/-- Its display may fail. -/
theorem raises_drawing :
    (counting 20 (some 5) [0xD0, 0x05]).Raises (.error (.device (.broken "dark"))) := by
  apply raises_of_run
  intro machine here store
  obtain ⟨last, cause, pc, raised, course⟩ := machine.course_drawing 15 (.ofSeed 0) here
  obtain ⟨report, ran, done, left⟩ :=
    (seat machine 20 store).run_of_unseen (some 5) rfl rfl course _ rfl
  exact ⟨report, ran, done, (congrArg Machine.flags left).trans raised⟩

end Session

/-- After sessions that count, the flag registers were counted up as often. -/
theorem Handover.after_raising (start : Handover) (held : start.store.Holds start.flags)
    (sessions : List Session) (raise : ∀ session ∈ sessions, ∃ result, session.Raises result) :
    ∃ before, start.after sessions = some before ∧
      before.flags = Nat.repeat Machine.raised sessions.length start.flags := by
  induction sessions using List.reverseRecOn with
  | nil => exact ⟨start, rfl, rfl⟩
  | append_singleton sessions session inductionHypothesis =>
    obtain ⟨before, played, flags⟩ :=
      inductionHypothesis fun earlier member => raise earlier (List.mem_append_left _ member)
    obtain ⟨result, raises⟩ := raise session (List.mem_append_right _ (List.mem_singleton_self _))
    obtain ⟨report, ran, _, left⟩ := raises before (start.holds_after before sessions held played)
    refine ⟨⟨report.console.store, report.console.machine.flags⟩, ?_, ?_⟩
    · rw [after, List.foldlM_append]
      exact Option.bind_eq_some_iff.mpr ⟨before, played, by
        simp only [List.foldlM_cons, List.foldlM_nil, Session.handOver, ran]
        rfl⟩
    · rw [left, flags, List.length_append]
      rfl

/-- Three sessions count up a flag register that the store held at first: one to the end of
its program, one to its limit and one without a limit to an instruction that fails. A fourth
one, whose display fails, finds their count, counts once more and writes that. -/
theorem flags_survive_sessions_counting :
    let earlier : List Session :=
      [.counting 20 (some 5) [], .counting 3 (some 1) [], .counting 20 none [0xFF, 0xFF]]
    let session : Session := .counting 20 (some 5) [0xD0, 0x05]
    ∃ start before : Handover, start.store.saved = some "[5, 6]" ∧
      start.store.Holds start.flags ∧ start.after earlier = some before ∧
      (session.loading before.store).answer = .ok () ∧
      (session.loading before.store).console.machine.flags = Listing.fill [5, 9] ∧
      ∃ report, session.report before.store = some report ∧
        report.result = .error (.device (.broken "dark")) ∧
        report.console.store.saved = some "[5,10,0,0,0,0,0,0,0,0,0,0,0,0,0,0]" := by
  intro earlier session
  obtain ⟨start, text, known⟩ : ∃ start : Handover,
      start.store.saved = some "[5, 6]" ∧ start.flags = Listing.fill [5, 6] :=
    ⟨⟨⟨some "[5, 6]"⟩, Listing.fill [5, 6]⟩, rfl, rfl⟩
  have held : start.store.Holds start.flags := .inr ⟨"[5, 6]", text, by rw [known]; rfl⟩
  obtain ⟨before, played, counted⟩ := start.after_raising held earlier (by
    simp only [earlier, List.mem_cons, List.not_mem_nil, or_false]
    rintro session (rfl | rfl | rfl)
    · exact ⟨_, Session.raises_halting⟩
    · exact ⟨_, Session.raises_limited⟩
    · exact ⟨_, Session.raises_failing⟩)
  have found : before.flags = Listing.fill [5, 9] := by
    rw [counted, known]
    decide
  obtain ⟨loads, flags, _, saved⟩ := flags_survive_sessions start held earlier before played session
  obtain ⟨report, ran, ended, left⟩ :=
    Session.raises_drawing before (start.holds_after before earlier held played)
  have written : Listing.encode (Machine.raised (Listing.fill [5, 9])) =
      "[5,10,0,0,0,0,0,0,0,0,0,0,0,0,0,0]" := by rfl
  refine ⟨start, before, text, held, played, loads, flags.trans found, report, ran, ended, ?_⟩
  rw [saved report ran, left, found, written]

end Chip8
