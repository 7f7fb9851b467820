import Chip8.Machine.CallStack
import Chip8.Proofs.Storage

/-!
# The call stack as a list

The return addresses in use, the lowest first, are a list of words. Each of them lies in
two bytes of memory, its low byte first, and the stack pointer says how many there are.
Pushing and popping do to this list what they do to a list with room for 48 words: the
next word goes to its end, and the word at its end comes off. What lies in the slots above
the stack pointer is not in the list, so a pop need not clear its slot.
-/

namespace Chip8

/-- What can be asked of the call stack. -/
inductive StackRequest where
  | push (address : UInt16)
  | pop

/-- What comes of a request: a fault, or a word if it was to take one off. -/
abbrev StackAnswer := Except Fault (Option UInt16)

namespace StackRequest

/-- A list of words as a stack with room for as many as there are slots. -/
def ofList (words : List UInt16) : StackRequest → StackAnswer × List UInt16
  | push address =>
    if words.length = stackSlots then (.error .stackOverflow, words)
    else (.ok none, words ++ [address])
  | pop => match words.getLast? with
    | none => (.error .stackUnderflow, words)
    | some address => (.ok (some address), words.dropLast)

/-- Serve requests one after the other and collect the answers. -/
def serveAll {σ : Type} (serve : σ → StackRequest → StackAnswer × σ) (state : σ) :
    List StackRequest → List StackAnswer × σ
  | [] => ([], state)
  | request :: rest =>
    let served := serve state request
    let later := serveAll serve served.2 rest
    (served.1 :: later.1, later.2)

end StackRequest

namespace Machine

/-- The return addresses in use, the lowest first. -/
def stack (machine : Machine) : List UInt16 := (List.range machine.sp).map machine.memory.slot

/-- Serve a request. -/
def serve (machine : Machine) : StackRequest → StackAnswer × Machine
  | .push address =>
    let pushed := machine.push address
    (pushed.1.map fun () => none, pushed.2)
  | .pop =>
    let popped := machine.pop
    (popped.1.map some, popped.2)

/-- There are as many return addresses as the stack pointer says. -/
theorem length_stack (machine : Machine) : machine.stack.length = machine.sp := by
  simp [stack]

/-- Setting the first free slot and counting it adds a word at the end: the slots in use
stay as they are, and the word reads back as it was written. -/
theorem stack_pushed (machine : Machine) (address : UInt16) (free : machine.sp < stackSlots) :
    stack { machine with memory := machine.memory.setSlot machine.sp address, sp := machine.sp + 1 } =
      machine.stack ++ [address] := by
  have kept : ∀ below ∈ List.range machine.sp,
      (machine.memory.setSlot machine.sp address).slot below = machine.memory.slot below := by
    intro below member
    exact Memory.slot_setSlot_below _ _ _ _ (List.mem_range.mp member)
  simp only [stack, List.range_succ, List.map_append, List.map_cons, List.map_nil]
  rw [List.map_congr_left kept, Memory.slot_setSlot _ _ _ free]

/-- The last slot in use holds the word at the end, and counting it off takes that away. -/
theorem stack_popped (machine : Machine) (below : Nat) (depth : machine.sp = below + 1) :
    machine.stack = stack { machine with sp := below } ++ [machine.memory.slot below] := by
  simp only [stack, depth, List.range_succ, List.map_append, List.map_cons, List.map_nil]

/-- The ways a request can go on a machine whose stack is within its slots. -/
inductive Served (machine : Machine) : StackRequest → StackAnswer × Machine → Prop where
  | overflow (address : UInt16) (full : machine.sp = stackSlots) :
      Served machine (.push address) (.error .stackOverflow, machine)
  | pushed (address : UInt16) (free : machine.sp < stackSlots) :
      Served machine (.push address) (.ok none, { machine with
        memory := machine.memory.setSlot machine.sp address, sp := machine.sp + 1 })
  | underflow (empty : machine.sp = 0) :
      Served machine .pop (.error .stackUnderflow, machine)
  | popped (below : Nat) (depth : machine.sp = below + 1) :
      Served machine .pop (.ok (some (machine.memory.slot below)), { machine with sp := below })

/-- Every request goes one of these ways. -/
theorem served (machine : Machine) (within : machine.sp ≤ stackSlots) (request : StackRequest) :
    Served machine request (machine.serve request) := by
  cases request with
  | push address =>
    by_cases full : stackSlots ≤ machine.sp
    · simp only [serve, machine.push_of_full address full]
      exact .overflow address (Nat.le_antisymm within full)
    · have free : machine.sp < stackSlots := Nat.lt_of_not_le full
      simp only [serve, machine.push_of_free address free]
      exact .pushed address free
  | pop =>
    cases depth : machine.sp with
    | zero =>
      simp only [serve, machine.pop_of_empty depth]
      exact .underflow depth
    | succ below =>
      simp only [serve, machine.pop_of_depth below depth]
      exact .popped below depth

/-- A request has the answer and the effect that it has on the list, and leaves the stack
within its slots. -/
theorem serve_ofList (machine : Machine) (within : machine.sp ≤ stackSlots)
    (request : StackRequest) :
    (machine.serve request).1 = (request.ofList machine.stack).1 ∧
      (machine.serve request).2.stack = (request.ofList machine.stack).2 ∧
      (machine.serve request).2.sp ≤ stackSlots := by
  have way := machine.served within request
  generalize machine.serve request = after at way
  cases way with
  | overflow address full =>
    have whole : machine.stack.length = stackSlots := machine.length_stack.trans full
    have listed : StackRequest.ofList machine.stack (.push address) =
        (.error .stackOverflow, machine.stack) := if_pos whole
    rw [listed]
    exact ⟨rfl, rfl, within⟩
  | pushed address free =>
    have room : machine.stack.length ≠ stackSlots := by
      rw [machine.length_stack]
      exact Nat.ne_of_lt free
    have listed : StackRequest.ofList machine.stack (.push address) =
        (.ok none, machine.stack ++ [address]) := if_neg room
    rw [listed]
    exact ⟨rfl, machine.stack_pushed address free, free⟩
  | underflow empty =>
    have none : machine.stack = [] := List.eq_nil_of_length_eq_zero (machine.length_stack.trans empty)
    have listed : StackRequest.ofList machine.stack .pop = (.error .stackUnderflow, machine.stack) := by
      rw [none]
      rfl
    rw [listed]
    exact ⟨rfl, rfl, within⟩
  | popped below depth =>
    have listed : StackRequest.ofList machine.stack .pop =
        (.ok (some (machine.memory.slot below)), stack { machine with sp := below }) := by
      rw [machine.stack_popped below depth]
      simp [StackRequest.ofList]
    rw [listed]
    exact ⟨rfl, rfl, by show below ≤ stackSlots; omega⟩

/-- Requests one after the other have the answers and the effect that they have on the
list. -/
theorem serveAll_ofList (machine : Machine) (within : machine.sp ≤ stackSlots)
    (requests : List StackRequest) :
    (StackRequest.serveAll serve machine requests).1 =
        (StackRequest.serveAll StackRequest.ofList machine.stack requests).1 ∧
      (StackRequest.serveAll serve machine requests).2.stack =
        (StackRequest.serveAll StackRequest.ofList machine.stack requests).2 ∧
      (StackRequest.serveAll serve machine requests).2.sp ≤ stackSlots := by
  induction requests generalizing machine with
  | nil => exact ⟨rfl, rfl, within⟩
  | cons request rest inductionHypothesis =>
    obtain ⟨answer, words, bound⟩ := machine.serve_ofList within request
    obtain ⟨answers, last, lastBound⟩ := inductionHypothesis (machine.serve request).2 bound
    simp only [StackRequest.serveAll]
    rw [answer, answers, words]
    rw [words] at last
    exact ⟨rfl, last, lastBound⟩

/-- A request that is refused changes nothing. -/
theorem serve_refused (machine : Machine) (request : StackRequest) (fault : Fault)
    (refused : (machine.serve request).1 = .error fault) :
    (machine.serve request).2 = machine := by
  cases request with
  | push address =>
    cases answer : (machine.push address).1 with
    | error failure => exact machine.push_failed address failure answer
    | ok done =>
      simp only [serve, answer] at refused
      cases refused
  | pop =>
    cases answer : machine.pop.1 with
    | error failure => exact machine.pop_failed failure answer
    | ok address =>
      simp only [serve, answer] at refused
      cases refused

/-- Taking a word off changes the stack pointer alone. -/
theorem serve_pop (machine : Machine) (within : machine.sp ≤ stackSlots) :
    (machine.serve .pop).2 = { machine with sp := (machine.serve .pop).2.sp } := by
  have way := machine.served within .pop
  generalize machine.serve .pop = next at way
  cases way with
  | underflow _ => rfl
  | popped _ _ => rfl

/-- Adding a word changes beside the stack pointer no byte but the two of the slot it
fills, which lie between the start of the stack and the picture. -/
theorem serve_push (machine : Machine) (within : machine.sp ≤ stackSlots) (address : UInt16) :
    let after := (machine.serve (.push address)).2
    after = { machine with memory := after.memory, sp := after.sp } ∧
      after.memory.screen = machine.memory.screen ∧
      ∀ place, after.memory.read place ≠ machine.memory.read place →
        (place = Memory.slotAddress machine.sp ∨ place = Memory.slotAddress machine.sp + 1) ∧
        stackStart ≤ place ∧ place < screenStart := by
  have way := machine.served within (.push address)
  generalize machine.serve (.push address) = next at way
  cases way with
  | overflow _ full => exact ⟨rfl, rfl, fun _ changed => absurd rfl changed⟩
  | pushed _ free =>
    refine ⟨rfl, Memory.screen_writeList _ _ _, fun place changed => ?_⟩
    have filled : place = Memory.slotAddress machine.sp ∨
        place = Memory.slotAddress machine.sp + 1 := by
      apply Decidable.byContradiction
      intro elsewhere
      obtain ⟨low, high⟩ := not_or.mp elsewhere
      exact changed (Memory.read_setSlot_outside _ _ _ _ low high)
    have start : stackStart ≤ Memory.slotAddress machine.sp := Nat.le_add_right _ _
    have stop := Memory.slotAddress_lt_screenStart machine.sp free
    exact ⟨filled, by omega, by omega⟩

/-- The call stack is a list with room for 48 words. However many return addresses are
pushed and popped, and in whatever order, the answers are those of the list, faults
included, and the return addresses in use are its words. A further request then changes no
more than it must: nothing if it is refused, the stack pointer if it takes a word off, and
beside it the two bytes of a slot of the stack if it adds one. -/
theorem stack_refines_list (machine : Machine) (within : machine.sp ≤ stackSlots)
    (requests : List StackRequest) :
    let served := StackRequest.serveAll serve machine requests
    let listed := StackRequest.serveAll StackRequest.ofList machine.stack requests
    let before := served.2
    served.1 = listed.1 ∧ before.stack = listed.2 ∧
      ∀ request,
        let after := (before.serve request).2
        (∀ fault, (before.serve request).1 = .error fault → after = before) ∧
        (request = .pop → after = { before with sp := after.sp }) ∧
        (∀ address, request = .push address →
          after = { before with memory := after.memory, sp := after.sp } ∧
          after.memory.screen = before.memory.screen ∧
          ∀ place, after.memory.read place ≠ before.memory.read place →
            (place = Memory.slotAddress before.sp ∨ place = Memory.slotAddress before.sp + 1) ∧
            stackStart ≤ place ∧ place < screenStart) := by
  intro served listed before
  obtain ⟨answers, words, bound⟩ := machine.serveAll_ofList within requests
  refine ⟨answers, words, fun request => ⟨before.serve_refused request, ?_, ?_⟩⟩
  · rintro rfl
    exact before.serve_pop bound
  · rintro address rfl
    exact before.serve_push bound address

/-- One push too many, and then a pop. -/
def flooding : List StackRequest := .replicate 49 (.push 0x0ABC) ++ [.pop]

/-- A new machine takes 48 words and refuses the next one, and the pop finds the last word
that was taken. -/
theorem stack_refines_list_flooding :
    initial.sp ≤ stackSlots ∧
      (StackRequest.serveAll serve initial flooding).1 =
        .replicate 48 (.ok none) ++ [.error .stackOverflow, .ok (some 0x0ABC)] ∧
      (StackRequest.serveAll serve initial flooding).2.stack = .replicate 47 0x0ABC := by
  have within : initial.sp ≤ stackSlots := Nat.zero_le _
  obtain ⟨answers, words, _⟩ := stack_refines_list initial within flooding
  exact ⟨within, answers, words⟩

end Machine

end Chip8
