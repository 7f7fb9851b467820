import Chip8.Proofs.Opcodes
import Chip8.Proofs.Loading

/-!
# Where random bytes come from

A generator is not part of a machine. It serves step after step, and between two of them
the host may do with the machine what it likes, load another program or take up another
machine. A random instruction that is executed takes the next word of the generator's
sequence, and nothing else takes one. So the words are dealt to the random instructions
in the order in which these are executed, and what happens between them does not matter.
-/

namespace Chip8

/-- What happens next in a generator's service. -/
inductive Errand where
  /-- The machine at hand takes a step. -/
  | step
  /-- The host changes the machine at hand in some way: it moves a key, loads a program, or
  puts another machine in its place. -/
  | host (change : Machine → Machine)

/-- A random instruction that was executed: its register and its mask, and what the
register held afterwards. -/
structure Draw where
  x : Register
  mask : UInt8
  stored : UInt8

namespace System

/-- The system after an errand. -/
def errand (system : System) : Errand → System
  | .step => system.next
  | .host change => { system with machine := change system.machine }

/-- The system after errands, one after the other. -/
def serve (system : System) (errands : List Errand) : System := errands.foldl errand system

/-- The random instruction that the next step executes, if it executes one: an opcode with
first digit `C`, a register and a mask. -/
def draw? (system : System) : Option Draw :=
  match system.stepped.outcome with
  | .ok (.executed opcode) =>
    if opcode.toNat / 4096 = 0xC then
      let x := Fin.ofNat 16 (opcode.toNat / 256)
      some ⟨x, .ofNat opcode.toNat, system.next.machine.v.get x⟩
    else none
  | _ => none

/-- The random instruction that is executed on an errand. -/
def drawOf? (system : System) : Errand → Option Draw
  | .step => system.draw?
  | .host _ => none

/-- The random instructions that are executed on errands, in their order. -/
def draws (system : System) : List Errand → List Draw
  | [] => []
  | errand :: rest => (system.drawOf? errand).toList ++ (system.errand errand).draws rest

/-! ## Single steps -/

/-- A random instruction that is told of was executed. -/
theorem executes_of_draw (system : System) (draw : Draw) (drew : system.draw? = some draw) :
    system.executes? = some (.random draw.x draw.mask) ∧
      draw.stored = system.next.machine.v.get draw.x := by
  unfold draw? at drew
  split at drew
  · rename_i opcode told
    split at drew
    · rename_i digit
      obtain rfl := Option.some.inj drew
      refine ⟨?_, rfl⟩
      simp only [executes?, told, Instruction.decode?_of_random opcode digit]
    · cases drew
  · cases drew

/-- A random instruction that is executed is told of. -/
theorem draw_of_executes (system : System) (x : Register) (mask : UInt8)
    (executes : system.executes? = some (.random x mask)) :
    system.draw? = some ⟨x, mask, system.next.machine.v.get x⟩ := by
  obtain ⟨opcode, told, means⟩ := system.outcome_of_executes _ executes
  have digit : opcode.toNat / 4096 = 0xC := (Instruction.family_of_decode? opcode _ means).symm
  have parts := means.symm.trans (Instruction.decode?_of_random opcode digit)
  obtain ⟨rfl, rfl⟩ := Instruction.random.inj (Option.some.inj parts)
  simp only [draw?, told, digit, if_true]

/-- A random instruction takes the next word. -/
theorem next_of_draw (system : System) (draw : Draw) (drew : system.draw? = some draw) :
    draw.stored = system.generator.next.1 &&& draw.mask ∧
      system.next.generator = system.generator.next.2 := by
  obtain ⟨executes, stored⟩ := system.executes_of_draw draw drew
  obtain ⟨after, later, done, same⟩ := system.next_of_executes _ executes
  obtain ⟨rfl, rfl⟩ := Prod.mk.inj (Prod.mk.inj done).2
  rw [stored, same, Machine.tick_eq]
  exact ⟨Machine.setRegister_same _ _ _, rfl⟩

/-- Nothing else takes a word: no other instruction, and no step that executes none. -/
theorem next_of_no_draw (system : System) (other : system.draw? = none) :
    system.next.generator = system.generator := by
  cases executes : system.executes? with
  | none =>
    obtain ⟨pc, same⟩ := system.next_of_idle executes
    rw [same]
  | some instruction =>
    apply system.next_generator instruction executes
    cases instruction with
    | random x mask =>
      have drew := system.draw_of_executes x mask executes
      rw [other] at drew
      cases drew
    | _ => rfl

/-- An errand moves the generator on by as many words as random instructions are executed
on it, which is one or none, and that one stores the next word's byte. -/
theorem errand_of_draw (system : System) (errand : Errand) :
    (system.errand errand).generator = ⟨system.generator.key,
      system.generator.position + (system.drawOf? errand).toList.length⟩ ∧
    ∀ draw ∈ system.drawOf? errand,
      draw.stored = system.generator.next.1 &&& draw.mask := by
  cases errand with
  | host change => exact ⟨rfl, nofun⟩
  | step =>
    simp only [System.errand, drawOf?]
    cases drew : system.draw? with
    | none =>
      rw [system.next_of_no_draw drew]
      exact ⟨rfl, nofun⟩
    | some draw =>
      obtain ⟨stored, moved⟩ := system.next_of_draw draw drew
      rw [moved]
      refine ⟨rfl, fun other same => ?_⟩
      obtain rfl := Option.some.inj same
      exact stored

/-! ## Runs -/

/-- On errands the generator deals its words to the random instructions, one to each and in
their order, from its position on.

The induction is on the errands, for whatever system does the first of them. -/
theorem serve_deals (system : System) (errands : List Errand) :
    (system.serve errands).generator = ⟨system.generator.key,
      system.generator.position + (system.draws errands).length⟩ ∧
    ∀ (k : Nat) (draw : Draw), (system.draws errands)[k]? = some draw →
      draw.stored = (Random.word system.generator.key
        (system.generator.position + k)).toUInt8 &&& draw.mask := by
  induction errands generalizing system with
  | nil => exact ⟨rfl, fun k draw found => by cases found⟩
  | cons errand rest inductionHypothesis =>
    obtain ⟨moved, dealt⟩ := system.errand_of_draw errand
    obtain ⟨movedLater, dealtLater⟩ := inductionHypothesis (system.errand errand)
    rw [moved] at movedLater dealtLater
    constructor
    · rw [serve, List.foldl_cons]
      refine movedLater.trans ?_
      rw [draws, List.length_append, Nat.add_assoc]
    · intro k draw found
      rw [draws] at found
      cases first : system.drawOf? errand with
      | none =>
        rw [first] at found dealtLater
        exact dealtLater k draw found
      | some drawn =>
        rw [first] at found dealtLater
        cases k with
        | zero =>
          obtain rfl := Option.some.inj found
          exact dealt drawn first
        | succ k =>
          have place : system.generator.position + (some drawn).toList.length + k =
              system.generator.position + (k + 1) := by
            rw [Option.toList_some, List.length_singleton, Nat.add_assoc, Nat.add_comm 1]
          rw [dealtLater k draw found, place]

/-- A new generator deals the words of its seed's sequence from the first one on. -/
theorem serve_deals_of_seed (seed : UInt64) (machine : Machine) (errands : List Errand) :
    (serve ⟨machine, .ofSeed seed⟩ errands).generator =
      ⟨Random.keyOfSeed seed, (draws ⟨machine, .ofSeed seed⟩ errands).length⟩ ∧
    ∀ (k : Nat) (draw : Draw), (draws ⟨machine, .ofSeed seed⟩ errands)[k]? = some draw →
      draw.stored = (Random.word (Random.keyOfSeed seed) k).toUInt8 &&& draw.mask := by
  have dealt := serve_deals ⟨machine, .ofSeed seed⟩ errands
  simpa only [Generator.ofSeed, Nat.zero_add] using dealt

/-- The generator of a seed deals the words of the seed's sequence, one to each random
instruction that is executed, in the order of these, and none to anything else, whatever
machines it serves and whatever their host does with them. So two generators of one seed
draw the same byte for the random instructions with the same number, however different
their services are. -/
theorem words_dealt_in_order (seed : UInt64) (machine : Machine) (errands : List Errand) :
    let system : System := ⟨machine, .ofSeed seed⟩
    let drawn := system.draws errands
    (system.serve errands).generator = ⟨Random.keyOfSeed seed, drawn.length⟩ ∧
    (∀ k : Fin drawn.length, (drawn.get k).stored =
      (Random.word (Random.keyOfSeed seed) k.val).toUInt8 &&& (drawn.get k).mask) ∧
    ∀ (other : Machine) (others : List Errand) (k : Nat) (draw otherDraw : Draw),
      drawn[k]? = some draw → (draws ⟨other, .ofSeed seed⟩ others)[k]? = some otherDraw →
      ∃ byte, draw.stored = byte &&& draw.mask ∧ otherDraw.stored = byte &&& otherDraw.mask := by
  intro system drawn
  obtain ⟨moved, dealt⟩ := serve_deals_of_seed seed machine errands
  refine ⟨moved, fun k => dealt k.val _ (List.getElem?_eq_getElem k.isLt), ?_⟩
  intro other others k draw otherDraw found otherFound
  obtain ⟨_, otherDealt⟩ := serve_deals_of_seed seed other others
  exact ⟨_, dealt k draw found, otherDealt k otherDraw otherFound⟩

/-! ## Two random instructions -/

/-- A new machine whose program draws a byte without keeping any of its bits, and then a
second one. -/
def rolling : System := starting [0xC0, 0x00, 0xC1, 0xFF] (.ofSeed 0)

/-- It does the first in its next step. -/
theorem rolling_next : rolling.executes? = some (.random 0 0x00) ∧
    rolling.next = ⟨(rolling.machine.fetched.setRegister 0 (rolling.generator.next.1 &&& 0)).tick,
      rolling.generator.next.2⟩ := by
  have copied : [0xC0, 0x00, 0xC1, 0xFF].length < programLimit := by decide
  have word : (Machine.initial.load [0xC0, 0x00, 0xC1, 0xFF]).memory.word 0x200 = 0xC000 :=
    (Machine.word_load_initial _ copied 0 0xC0 0x00 rfl rfl).trans (by decide)
  have counter : rolling.machine.pc = 0x200 := rfl
  have inside : rolling.machine.InProgram := ⟨4, rfl, by rw [counter]; decide⟩
  exact rolling.next_of_opcode 0xC000 inside word (by decide) (.random 0 0x00) rfl _ _ rfl

/-- It does the second in the step after that. -/
theorem rolling_next_executes : rolling.next.executes? = some (.random 1 0xFF) := by
  have copied : [0xC0, 0x00, 0xC1, 0xFF].length < programLimit := by decide
  have counter : rolling.next.machine.pc = 0x202 := by
    rw [rolling_next.2, Machine.tick_eq]
    rfl
  have loaded : rolling.next.machine.programSize = some 4 := by
    rw [rolling_next.2, Machine.tick_eq]
    rfl
  have same : rolling.next.machine.memory = rolling.machine.memory := by
    rw [rolling_next.2, Machine.tick_eq]
    rfl
  have word : rolling.next.machine.opcode = 0xC1FF := by
    rw [Machine.opcode, counter, same]
    exact (Machine.word_load_initial _ copied 2 0xC1 0xFF rfl rfl).trans (by decide)
  have inside : rolling.next.machine.InProgram := ⟨4, loaded, by rw [counter]; decide⟩
  exact (rolling.next.next_of_opcode 0xC1FF inside word (by decide) (.random 1 0xFF) rfl _ _ rfl).1

/-- Both are told of. -/
theorem draws_rolling : rolling.draws [.step, .step] =
    [⟨0, 0x00, rolling.next.machine.v.get 0⟩, ⟨1, 0xFF, rolling.next.next.machine.v.get 1⟩] := by
  show rolling.draw?.toList ++ (rolling.next.draw?.toList ++ []) = _
  rw [rolling.draw_of_executes 0 0x00 rolling_next.1,
    rolling.next.draw_of_executes 1 0xFF rolling_next_executes]
  rfl

/-- The first of them takes a word, too, so the second one stores the byte of the second. -/
theorem words_dealt_in_order_rolling :
    rolling.executes? = some (.random 0 0x00) ∧ rolling.next.executes? = some (.random 1 0xFF) ∧
      rolling.next.next.machine.v.get 1 = 0xB2 ∧
      (rolling.serve [.step, .step]).generator.position = 2 := by
  have whole : (⟨rolling.machine, .ofSeed 0⟩ : System) = rolling := rfl
  obtain ⟨moved, stored, _⟩ := words_dealt_in_order 0 rolling.machine [.step, .step]
  rw [whole] at moved stored
  have count : (rolling.draws [.step, .step]).length = 2 := by
    rw [draws_rolling]
    rfl
  have second := stored ⟨1, by rw [count]; decide⟩
  rw [List.get_eq_getElem, List.getElem_of_eq draws_rolling] at second
  have word : (Random.word (Random.keyOfSeed 0) 1).toUInt8 &&& 0xFF = 0xB2 := by decide +kernel
  exact ⟨rolling_next.1, rolling_next_executes, second.trans word, by rw [moved, count]⟩

end System

end Chip8
