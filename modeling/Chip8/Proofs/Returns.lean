import Chip8.Proofs.Runs

/-!
# Calls and their returns

A call puts its return address into the first free slot of the stack, and a return
takes the address from the last slot in use. Between the two the program may do
almost anything: call deeper, draw, clear the screen, change itself. It must not give
the slot back and must not store into it. Then the return finds the address that the
call left.
-/

namespace Chip8.System

/-- The stack slot is in use, and the next step stores nothing in it. -/
def SparesSlot (slot : Nat) (system : System) : Prop :=
  slot + 1 ≤ system.machine.sp ∧
    system.storesAt (Memory.slotAddress slot) = false ∧
    system.storesAt (Memory.slotAddress slot + 1) = false

/-- While a slot is spared, nothing writes its two bytes: calls use slots above it,
and painting stays behind the stack. -/
theorem writesAt_of_sparesSlot (system : System) (slot : Nat) (inside : slot < stackSlots)
    (spared : system.SparesSlot slot) :
    system.writesAt (Memory.slotAddress slot) = false ∧
      system.writesAt (Memory.slotAddress slot + 1) = false := by
  obtain ⟨used, low, high⟩ := spared
  have unpainted : Memory.slotAddress slot + 1 < screenStart :=
    Memory.slotAddress_lt_screenStart slot inside
  have unfree : Memory.slotAddress slot + 1 < Memory.slotAddress system.machine.sp := by
    simp only [Memory.slotAddress]
    omega
  constructor
  · rw [system.writesAt_eq_storesAt _ (Nat.lt_of_succ_lt unfree) (Nat.lt_of_succ_lt unpainted)]
    exact low
  · rw [system.writesAt_eq_storesAt _ unfree unpainted]
    exact high

/-- A slot that is spared throughout a run keeps its return address. -/
theorem slot_play (system : System) (turns : List Turn) (slot : Nat) (inside : slot < stackSlots)
    (spared : system.Throughout (SparesSlot slot) turns) :
    (system.play turns).machine.memory.slot slot = system.machine.memory.slot slot := by
  apply Memory.slot_congr
  · refine system.read_play turns _ (Throughout.mono ?_ system turns spared)
    exact fun running spares => (running.writesAt_of_sparesSlot slot inside spares).1
  · refine system.read_play turns _ (Throughout.mono ?_ system turns spared)
    exact fun running spares => (running.writesAt_of_sparesSlot slot inside spares).2

/-- A call finds a free slot and leaves there the address behind itself. -/
theorem next_of_call (system : System) (target : Address)
    (called : system.executes? = some (.call target)) :
    system.machine.sp < stackSlots ∧
      system.next.machine.memory.slot system.machine.sp = system.machine.pc + 2 := by
  obtain ⟨after, later, done, same⟩ := system.next_of_executes _ called
  obtain ⟨free, _, rfl⟩ := Machine.execute_call_ok _ _ _ _ _ done
  refine ⟨free, ?_⟩
  rw [same, Machine.tick_eq]
  exact Memory.slot_setSlot system.machine.memory _ _ free

/-- A return takes the program to the address in the last slot in use and frees it. -/
theorem next_of_ret (system : System) (returned : system.executes? = some .ret) (slot : Nat)
    (level : system.machine.sp = slot + 1) :
    system.next.machine.pc = system.machine.memory.slot slot ∧ system.next.machine.sp = slot := by
  obtain ⟨after, later, done, same⟩ := system.next_of_executes _ returned
  obtain ⟨below, depth, _, rfl⟩ := Machine.execute_ret_ok _ _ _ _ done
  obtain rfl : below = slot := Nat.succ.inj (depth.symm.trans level)
  rw [same, Machine.tick_eq]
  exact ⟨rfl, rfl⟩

/-- A return resumes the program behind the call it belongs to, whatever was
executed between them, provided that the call's slot stayed in use and no executed
store reached it.

The call puts the address behind itself into its slot, nothing in between writes the
slot's two bytes, and at its own level the return takes the address from there. -/
theorem return_resumes_after_call (system : System) (target : Address) (turns : List Turn)
    (called : system.executes? = some (.call target))
    (nested : system.next.Throughout (SparesSlot system.machine.sp) turns)
    (level : (system.next.play turns).machine.sp = system.machine.sp + 1)
    (returned : (system.next.play turns).executes? = some .ret) :
    (system.next.play turns).next.machine.pc = system.machine.pc + 2 ∧
      (system.next.play turns).next.machine.sp = system.machine.sp := by
  obtain ⟨inside, saved⟩ := system.next_of_call target called
  have kept := system.next.slot_play turns system.machine.sp inside nested
  obtain ⟨resumed, freed⟩ := next_of_ret _ returned system.machine.sp level
  exact ⟨resumed.trans (kept.trans saved), freed⟩

/-! ## Two nested calls

A program of three instructions: a call at `0x200` of the next one, a call there of
the last one, and a return that serves both. While it runs a key goes down.
-/

/-- The program in memory. -/
def twoCalls : Memory := Memory.initial.loadProgram [0x22, 0x02, 0x22, 0x04, 0x00, 0xEE]

/-- The program's opcodes. -/
theorem word_twoCalls : twoCalls.word 0x200 = 0x2202 ∧
    twoCalls.word 0x202 = 0x2204 ∧ twoCalls.word 0x204 = 0x00EE := by
  simp [twoCalls, Memory.loadProgram, Memory.word, Memory.read_writeList, programStart,
    memorySize]

/-- The return is not overwritten by the return addresses. -/
theorem word_returning :
    ((twoCalls.setSlot 0 0x202).setSlot 1 0x204).word 0x204 = 0x00EE := by
  have second := Memory.word_setSlot (twoCalls.setSlot 0 0x202) 1 0x204 0x204 (by decide)
  have first := Memory.word_setSlot twoCalls 0 0x204 0x202 (by decide)
  exact second.trans (first.trans word_twoCalls.2.2)

/-- Before the first call. -/
def callingOnce : System where
  machine := { Machine.initial with memory := twoCalls, programSize := some 6 }
  generator := ⟨.replicate 8 0, 0⟩

/-- Before the second call, the key down. -/
def callingTwice : System where
  machine := { callingOnce.machine with
    memory := twoCalls.setSlot 0 0x202
    pc := 0x202
    sp := 1
    ticks := 1
    keys := callingOnce.machine.keys.setIfInBounds 5 true }
  generator := callingOnce.generator

/-- Before the return of the second call. -/
def returningOnce : System where
  machine := { callingTwice.machine with
    memory := (twoCalls.setSlot 0 0x202).setSlot 1 0x204
    pc := 0x204
    sp := 2
    ticks := 2 }
  generator := callingOnce.generator

/-- Before the return of the first call. -/
def returningTwice : System where
  machine := { returningOnce.machine with sp := 1, ticks := 3 }
  generator := callingOnce.generator

/-- The first call, and the key. -/
theorem callingOnce_next : callingOnce.executes? = some (.call 0x202) ∧
    callingOnce.next.turn (.key 5 true) = callingTwice := by
  have opcode : callingOnce.machine.opcode = 0x2202 := word_twoCalls.1
  have proceeds : callingOnce.machine.Proceeds :=
    .of_opcode ⟨6, rfl, by decide⟩ (by rw [opcode]; decide)
  obtain ⟨executes, next⟩ :=
    callingOnce.next_of_execute proceeds (.call 0x202) (by rw [opcode]; rfl) _ _
      (Machine.execute_call _ _ _ (by decide))
  rw [next, Machine.tick_between _ (by decide)]
  exact ⟨executes, rfl⟩

/-- The second call. -/
theorem callingTwice_next :
    callingTwice.executes? = some (.call 0x204) ∧ callingTwice.next = returningOnce := by
  have opcode : callingTwice.machine.opcode = 0x2204 :=
    (Memory.word_setSlot twoCalls 0 0x202 0x202 (by decide)).trans word_twoCalls.2.1
  have proceeds : callingTwice.machine.Proceeds :=
    .of_opcode ⟨6, rfl, by decide⟩ (by rw [opcode]; decide)
  obtain ⟨executes, next⟩ :=
    callingTwice.next_of_execute proceeds (.call 0x204) (by rw [opcode]; rfl) _ _
      (Machine.execute_call _ _ _ (by decide))
  rw [next, Machine.tick_between _ (by decide)]
  exact ⟨executes, rfl⟩

/-- The return of the second call. -/
theorem returningOnce_next :
    returningOnce.executes? = some .ret ∧ returningOnce.next = returningTwice := by
  have opcode : returningOnce.machine.opcode = 0x00EE := word_returning
  have proceeds : returningOnce.machine.Proceeds :=
    .of_opcode ⟨6, rfl, by decide⟩ (by rw [opcode]; decide)
  have saved : returningOnce.machine.memory.slot 1 = 0x204 :=
    Memory.slot_setSlot _ 1 _ (by decide)
  obtain ⟨executes, next⟩ := returningOnce.next_of_execute proceeds .ret
    (by rw [opcode]; rfl) _ _ (Machine.execute_ret _ _ 1 rfl)
  have resumed : returningOnce.machine.fetched.memory.slot 1 = 0x204 := saved
  rw [next, resumed, Machine.tick_between _ (by decide)]
  exact ⟨executes, rfl⟩

/-- The return of the first call. -/
theorem returningTwice_executes : returningTwice.executes? = some .ret := by
  have opcode : returningTwice.machine.opcode = 0x00EE := word_returning
  have proceeds : returningTwice.machine.Proceeds :=
    .of_opcode ⟨6, rfl, by decide⟩ (by rw [opcode]; decide)
  exact (returningTwice.next_of_execute proceeds .ret
    (by rw [opcode]; rfl) _ _ (Machine.execute_ret _ _ 0 rfl)).1

/-- The first call returns behind itself, with the second call and its return in
between. -/
theorem return_resumes_after_call_nested :
    (callingOnce.next.play [.key 5 true, .step, .step]).next.machine.pc = 0x202 ∧
      (callingOnce.next.play [.key 5 true, .step, .step]).next.machine.sp = 0 := by
  have run : callingOnce.next.play [.key 5 true, .step, .step] = returningTwice := by
    rw [play, callingOnce_next.2, play, turn, callingTwice_next.2, play, turn,
      returningOnce_next.2, play]
  have outer : callingTwice.SparesSlot 0 := by
    rw [SparesSlot, storesAt, storesAt, callingTwice_next.1]
    exact ⟨by decide, rfl, rfl⟩
  have inner : returningOnce.SparesSlot 0 := by
    rw [SparesSlot, storesAt, storesAt, returningOnce_next.1]
    exact ⟨by decide, rfl, rfl⟩
  have spares : callingOnce.next.Throughout (SparesSlot 0) [.key 5 true, .step, .step] := by
    rw [Throughout, callingOnce_next.2, Throughout, turn, callingTwice_next.2]
    refine ⟨fun pressing => ?_, fun _ => outer, fun _ => inner, trivial⟩
    cases pressing
  have level : (callingOnce.next.play [.key 5 true, .step, .step]).machine.sp = 1 := by
    rw [run]
    rfl
  have returned :
      (callingOnce.next.play [.key 5 true, .step, .step]).executes? = some .ret := by
    rw [run]
    exact returningTwice_executes
  exact return_resumes_after_call callingOnce 0x202 _ callingOnce_next.1 spares level returned

end Chip8.System
