import Chip8.Proofs.Flips

/-!
# One memory behind its views

Bytes, programs, the call stack and the picture are written and read in ways of their own, but
there is one row of bytes behind them all, and beside it, while the screen is detached, one
buffer. A `History` notes for a sequence of writers which bytes were put where, and forgets
which writer put them. What any view shows afterwards is the byte that was put at the place
last, or what was there in the beginning.
-/

namespace Chip8

/-! ## Writers and what they put -/

/-- A use of memory that may change it. -/
inductive Access where
  | write (address : Nat) (value : UInt8)
  | writeList (address : Nat) (values : List UInt8)
  | loadProgram (program : List UInt8)
  | setSlot (index : Nat) (value : UInt16)
  | clearStack
  /-- Set bytes of the picture. -/
  | paint (index : Nat) (values : List UInt8)
  | detachScreen
  | attachScreen
deriving DecidableEq, Repr

/-- The memory after an access. -/
def Memory.serve (memory : Memory) : Access → Memory
  | .write address value => memory.write address value
  | .writeList address values => memory.writeList address values
  | .loadProgram program => memory.loadProgram program
  | .setSlot index value => memory.setSlot index value
  | .clearStack => memory.clearStack
  | .paint index values => memory.writeScreenList index values
  | .detachScreen => memory.detachScreen
  | .attachScreen => memory.attachScreen

/-- The memory after accesses in their order. -/
def Memory.serveAll (memory : Memory) (accesses : List Access) : Memory :=
  accesses.foldl Memory.serve memory

namespace Access

/-- The screen is detached after an access, if it was or was not before. -/
def leavesDetached (detached : Bool) : Access → Bool
  | detachScreen => true
  | attachScreen => false
  | _ => detached

/-- The bytes that an access puts into memory, each with its address. Bytes of the picture are
put there while the screen is in memory, and a detached screen that comes back is dark. -/
def bytes (detached : Bool) : Access → List (UInt8 × Nat)
  | write address value => [(value, address)]
  | writeList address values => values.zipIdx address
  | loadProgram program => program.zipIdx 0x200
  | setSlot index value =>
    [(.ofNat value.toNat, 0xEA0 + 2 * index), (.ofNat (value.toNat / 256), 0xEA0 + 2 * index + 1)]
  | clearStack => (List.replicate 0x60 0).zipIdx 0xEA0
  | paint index values => if detached then [] else values.zipIdx (0xF00 + index)
  | detachScreen => []
  | attachScreen => if detached then (List.replicate 0x100 0).zipIdx 0xF00 else []

/-- The bytes that an access puts into the buffer of a detached screen, each with its index. A
screen that is detached is dark. -/
def dots (detached : Bool) : Access → List (UInt8 × Nat)
  | paint index values => if detached then values.zipIdx index else []
  | detachScreen => (List.replicate 0xFF 0).zipIdx 0
  | _ => []

end Access

/-- What accesses came to: whether the screen is detached, and the bytes that were put into
memory and into the buffer, in their order. -/
structure History where
  detached : Bool
  bytes : List (UInt8 × Nat)
  dots : List (UInt8 × Nat)

namespace History

/-- Nothing was put anywhere yet. -/
def start (detached : Bool) : History := ⟨detached, [], []⟩

/-- Note one more access. -/
def record (history : History) (access : Access) : History where
  detached := access.leavesDetached history.detached
  bytes := history.bytes ++ access.bytes history.detached
  dots := history.dots ++ access.dots history.detached

/-- The history of accesses to a memory whose screen is detached or not. -/
def ofAccesses (detached : Bool) (accesses : List Access) : History :=
  accesses.foldl record (start detached)

end History

/-- The byte that was put at a place last, if any was. -/
def latest? (puts : List (UInt8 × Nat)) (place : Nat) : Option UInt8 :=
  (puts.filter fun put => put.2 == place).getLast?.map Prod.fst

/-- What is put later counts before what was put earlier. -/
theorem latest?_append (earlier later : List (UInt8 × Nat)) (place : Nat) :
    latest? (earlier ++ later) place = (latest? later place).or (latest? earlier place) := by
  rw [latest?, List.filter_append, List.getLast?_append, Option.map_or]
  rfl

/-- What is put first counts where nothing is put later. -/
theorem latest?_cons (value : UInt8) (here : Nat) (later : List (UInt8 × Nat)) (place : Nat) :
    latest? ((value, here) :: later) place =
      (latest? later place).or (if here = place then some value else none) := by
  have first : (value, here) :: later = [(value, here)] ++ later := rfl
  rw [first, latest?_append]
  by_cases same : here = place
  · simp [latest?, same]
  · simp [latest?, same]

/-- Consecutive bytes are put at consecutive places. -/
theorem latest?_zipIdx (values : List UInt8) (first place : Nat) :
    latest? (values.zipIdx first) place =
      if first ≤ place then values[place - first]? else none := by
  induction values generalizing first with
  | nil => simp [latest?]
  | cons value rest inductionHypothesis =>
    rw [List.zipIdx_cons, latest?_cons, inductionHypothesis]
    rcases Nat.lt_trichotomy first place with before | rfl | behind
    · have shifted : place - first = place - (first + 1) + 1 := by omega
      rw [if_pos (Nat.succ_le_of_lt before), if_pos (Nat.le_of_lt before), shifted,
        List.getElem?_cons_succ, if_neg (Nat.ne_of_lt before), Option.or_none]
    · rw [if_neg (Nat.not_succ_le_self first), if_pos (Nat.le_refl first)]
      simp
    · rw [if_neg (by omega), if_neg (Nat.ne_of_gt behind), if_neg (Nat.not_le_of_lt behind),
        Option.or_none]

/-- So zeros are put where they reach. -/
theorem latest?_zeros (count first place : Nat) :
    latest? ((List.replicate count (0 : UInt8)).zipIdx first) place =
      if first ≤ place ∧ place < first + count then some 0 else none := by
  rw [latest?_zipIdx]
  by_cases reached : first ≤ place
  · rw [if_pos reached, List.getElem?_replicate]
    by_cases inside : place < first + count
    · rw [if_pos (by omega), if_pos ⟨reached, inside⟩]
    · rw [if_neg (by omega), if_neg (fun both => inside both.2)]
  · rw [if_neg reached, if_neg (fun both => reached both.1)]

namespace Memory

/-! ## Views of memory -/

variable (memory : Memory)

/-- A word has its high byte first. -/
theorem toNat_word (address : Nat) : (memory.word address).toNat =
    256 * (memory.read address).toNat + (memory.read (address + 1)).toNat := by
  have high := (memory.read address).toNat_lt
  have low := (memory.read (address + 1)).toNat_lt
  rw [word, UInt16.toNat_ofNat_of_lt' (by simp only [UInt16.size]; omega)]

/-- A stack slot has its low byte first. -/
theorem toNat_slot (index : Nat) : (memory.slot index).toNat =
    (memory.read (0xEA0 + 2 * index)).toNat +
      256 * (memory.read (0xEA0 + 2 * index + 1)).toNat := by
  have low := (memory.read (slotAddress index)).toNat_lt
  have high := (memory.read (slotAddress index + 1)).toNat_lt
  rw [slot, UInt16.toNat_ofNat_of_lt' (by simp only [UInt16.size]; omega)]
  rfl

/-- A slice has the bytes that are read one by one, as far as memory goes. -/
theorem toList_slice (address count : Nat) : (memory.slice address count).toList =
    (List.range' address (min (address + count) memorySize - address)).map memory.read := by
  apply List.ext_getElem
  · simp [slice]
    omega
  · intro place inside other
    rw [List.length_map, List.length_range'] at other
    have start : min address memorySize = address := by omega
    have inMemory : address + place < memorySize := by omega
    simp [slice, read, start, inMemory]

/-- A mapped screen shows the last bytes of memory. -/
theorem toList_frame_mapped (mapped : memory.isDetached = false) :
    memory.frame.toList = (List.range' 0xF00 0x100).map memory.read := by
  rw [frame, (isDetached_eq_false_iff memory).mp mapped]
  exact memory.toList_slice screenStart screenSize

/-- A detached screen shows the bytes of its buffer. -/
theorem toList_frame_detached (detached : memory.isDetached = true) :
    memory.frame.toList = (List.range 0xFF).map memory.readScreen := by
  apply List.ext_getElem
  · rw [Array.length_toList, memory.frame_size_detached detached, List.length_map,
      List.length_range]
  · intro place inside other
    have inFrame : place < memory.frame.size := inside
    simp [readScreen_eq, inFrame]

/-! ## One access -/

/-- Putting consecutive bytes into memory is writing them. -/
theorem read_writeList_eq_latest? (address query : Nat) (values : List UInt8) :
    (memory.writeList address values).read query =
      if query < memorySize then
        (latest? (values.zipIdx address) query).getD (memory.read query)
      else 0 := by
  rw [read_writeList, latest?_zipIdx]
  by_cases inMemory : query < memorySize
  · rw [if_pos inMemory]
    by_cases reached : address ≤ query
    · rw [if_pos ⟨reached, inMemory⟩, if_pos reached]
    · rw [if_neg (fun both => reached both.1), if_neg reached, Option.getD_none]
  · rw [if_neg inMemory, if_neg (fun both => inMemory both.2)]
    exact memory.read_eq_zero query (Nat.le_of_not_lt inMemory)

/-- Nothing that is put nowhere shows. -/
theorem read_eq_latest?_nil (query : Nat) :
    memory.read query =
      if query < memorySize then (latest? [] query).getD (memory.read query) else 0 :=
  memory.read_writeList_eq_latest? 0 query []

/-- An access shows in memory through the bytes that it puts there. -/
theorem read_serve (access : Access) (query : Nat) :
    (memory.serve access).read query =
      if query < memorySize then
        (latest? (access.bytes memory.isDetached) query).getD (memory.read query)
      else 0 := by
  cases access with
  | write address value => exact memory.read_writeList_eq_latest? address query [value]
  | writeList address values => exact memory.read_writeList_eq_latest? address query values
  | loadProgram program => exact memory.read_writeList_eq_latest? programStart query program
  | setSlot index value => exact memory.read_writeList_eq_latest? (slotAddress index) query _
  | clearStack => exact memory.read_writeList_eq_latest? stackStart query _
  | paint index values =>
    cases place : memory.isDetached with
    | true =>
      have kept := (painted_writeScreenList memory index values).read query (.inl place)
      exact kept.trans (memory.read_eq_latest?_nil query)
    | false =>
      have mapped := (isDetached_eq_false_iff memory).mp place
      rw [serve, writeScreenList_mapped memory index values mapped]
      exact memory.read_writeList_eq_latest? (screenStart + index) query values
  | detachScreen => exact memory.read_eq_latest?_nil query
  | attachScreen =>
    cases place : memory.isDetached with
    | true =>
      have size : 0xF00 + 0x100 = memorySize := rfl
      have past := memory.read_eq_zero query
      rw [serve, read_attachScreen, place, Access.bytes, if_pos rfl, latest?_zeros, size]
      grind
    | false =>
      rw [serve, read_attachScreen, place]
      exact memory.read_eq_latest?_nil query

/-- Consecutive bytes of the picture show where they were put, as far as it goes. -/
theorem readScreen_writeScreenList (index query : Nat) (values : List UInt8)
    (inside : query < memory.frame.size) :
    (memory.writeScreenList index values).readScreen query =
      (latest? (values.zipIdx index) query).getD (memory.readScreen query) := by
  induction values generalizing memory index with
  | nil => rfl
  | cons value rest inductionHypothesis =>
    have size := (painted_writeScreen memory index value).size_frame
    rw [writeScreenList, inductionHypothesis _ _ (size ▸ inside), readScreen_writeScreen,
      List.zipIdx_cons, latest?_cons]
    cases latest? (rest.zipIdx (index + 1)) query with
    | some later => rfl
    | none =>
      by_cases same : index = query
      · rw [if_pos ⟨same, inside⟩, if_pos same]
        rfl
      · rw [if_neg (fun both => same both.1), if_neg same]
        rfl

/-- An access moves the screen or leaves it where it is. -/
theorem isDetached_serve (access : Access) :
    (memory.serve access).isDetached = access.leavesDetached memory.isDetached := by
  cases access with
  | writeList address values => exact isDetached_writeList memory address values
  | loadProgram program => exact isDetached_writeList memory programStart program
  | setSlot index value => exact isDetached_writeList memory (slotAddress index) _
  | clearStack => exact isDetached_writeList memory stackStart _
  | paint index values => exact (painted_writeScreenList memory index values).place
  | attachScreen => exact isDetached_attachScreen memory
  | write address value => rfl
  | detachScreen => rfl

/-- Writing bytes does not show on a detached screen. -/
theorem readScreen_writeList (address index : Nat) (values : List UInt8)
    (detached : memory.isDetached = true) :
    (memory.writeList address values).readScreen index = memory.readScreen index := by
  have same := screen_writeList memory address values
  cases screen : memory.screen with
  | mapped => simp [isDetached, screen] at detached
  | detached buffer => simp only [readScreen, same, screen]

/-- A screen that was just detached is dark. -/
theorem readScreen_detachScreen (index : Nat) : memory.detachScreen.readScreen index = 0 := by
  simp only [detachScreen, readScreen]
  by_cases inside : index < detachedSize
  · rw [Vector.getElem?_eq_getElem inside, Vector.getElem_replicate]
    rfl
  · rw [Vector.getElem?_eq_none (Nat.le_of_not_lt inside)]
    rfl

/-- An access shows on a screen that was and stays detached through the bytes that it puts
there. -/
theorem readScreen_serve (access : Access) (index : Nat) (inside : index < detachedSize)
    (detached : memory.isDetached = true) (stays : (memory.serve access).isDetached = true) :
    (memory.serve access).readScreen index =
      (latest? (access.dots true) index).getD (memory.readScreen index) := by
  cases access with
  | write address value => exact memory.readScreen_writeList address index [value] detached
  | writeList address values => exact memory.readScreen_writeList address index values detached
  | loadProgram program => exact memory.readScreen_writeList programStart index program detached
  | setSlot slot value => exact memory.readScreen_writeList (slotAddress slot) index _ detached
  | clearStack => exact memory.readScreen_writeList stackStart index _ detached
  | paint first values =>
    have size := memory.frame_size_detached detached
    exact memory.readScreen_writeScreenList first index values (size ▸ inside)
  | detachScreen =>
    rw [serve, readScreen_detachScreen, Access.dots, latest?_zeros,
      if_pos ⟨Nat.zero_le index, by simpa using inside⟩]
    rfl
  | attachScreen =>
    rw [serve, isDetached_attachScreen] at stays
    cases stays

end Memory

/-! ## Many accesses -/

/-- A memory is what another one became by accesses with this history. -/
structure Records (history : History) (before after : Memory) : Prop where
  detached : after.isDetached = history.detached
  read : ∀ address, after.read address =
    if address < memorySize then (latest? history.bytes address).getD (before.read address) else 0
  readScreen : history.detached = true → ∀ index < detachedSize,
    after.readScreen index = (latest? history.dots index).getD (before.readScreen index)

/-- A screen is detached by nothing but detaching it. -/
theorem Access.eq_detachScreen (access : Access) (leaves : access.leavesDetached false = true) :
    access = .detachScreen := by
  cases access <;> first | rfl | cases leaves

namespace Records

variable {history : History} {before after : Memory}

/-- Without accesses a memory stays as it is. -/
theorem start (memory : Memory) : Records (.start memory.isDetached) memory memory where
  detached := rfl
  read := memory.read_eq_latest?_nil
  readScreen _ _ _ := rfl

/-- One more access is recorded. -/
theorem serve (records : Records history before after) (access : Access) :
    Records (history.record access) before (after.serve access) where
  detached := by
    rw [after.isDetached_serve, records.detached]
    rfl
  read address := by
    rw [after.read_serve, records.detached, records.read]
    simp only [History.record, latest?_append]
    by_cases inMemory : address < memorySize
    · simp only [if_pos inMemory]
      cases latest? (access.bytes history.detached) address with
      | none => rfl
      | some value => rfl
    · rw [if_neg inMemory, if_neg inMemory]
  readScreen stays index inside := by
    have leaves : (after.serve access).isDetached = true := by
      rw [after.isDetached_serve, records.detached]
      exact stays
    simp only [History.record, latest?_append] at stays ⊢
    cases was : history.detached with
    | true =>
      rw [after.readScreen_serve access index inside (records.detached.trans was) leaves,
        records.readScreen was index inside]
      cases latest? (access.dots true) index with
      | none => rfl
      | some value => rfl
    | false =>
      -- The screen is detached by this access, and what was put beside memory before is gone.
      obtain rfl := access.eq_detachScreen (was ▸ stays)
      rw [Memory.serve, after.readScreen_detachScreen, Access.dots, latest?_zeros,
        if_pos ⟨Nat.zero_le index, by simpa using inside⟩]
      rfl

/-- So are any number of accesses. -/
theorem serveAll (records : Records history before after) (accesses : List Access) :
    Records (accesses.foldl History.record history) before (after.serveAll accesses) := by
  induction accesses generalizing history after with
  | nil => exact records
  | cons access rest inductionHypothesis => exact inductionHypothesis (records.serve access)

end Records

namespace Memory

/-- Whatever is written to a memory through its operations, in whatever order and however the
screen is moved meanwhile, its views are views of the same bytes. A byte of memory is the
one that was put at its address last by any of the operations, or what it was before; there
are none past the end, and what is put there changes nothing else. Words have their high
byte first and stack slots their low byte, slices end where memory does, and a mapped screen
shows the last bytes of memory. A detached screen shows what was put on it last, and nothing
else does. Detaching it changes no byte and leaves it dark. Attaching it zeroes its place in
memory and no other byte; a mapped screen cannot be attached. -/
theorem views_cohere (memory : Memory) (accesses : List Access) :
    let after := memory.serveAll accesses
    let history := History.ofAccesses memory.isDetached accesses
    after.isDetached = history.detached ∧
    (∀ address, after.read address =
      if address < memorySize then
        (latest? history.bytes address).getD (memory.read address) else 0) ∧
    (∀ address, (after.word address).toNat =
      256 * (after.read address).toNat + (after.read (address + 1)).toNat) ∧
    (∀ index, (after.slot index).toNat = (after.read (0xEA0 + 2 * index)).toNat +
      256 * (after.read (0xEA0 + 2 * index + 1)).toNat) ∧
    (∀ address count, (after.slice address count).toList =
      (List.range' address (min (address + count) memorySize - address)).map after.read) ∧
    (after.isDetached = false →
      after.frame.toList = (List.range' 0xF00 0x100).map after.read) ∧
    (after.isDetached = true → after.frame.toList = (List.range 0xFF).map fun index =>
      (latest? history.dots index).getD (memory.readScreen index)) ∧
    (after.detachScreen.isDetached = true ∧
      after.detachScreen.frame.toList = .replicate 0xFF 0 ∧
      ∀ address, after.detachScreen.read address = after.read address) ∧
    (after.isDetached = true → after.attachScreen.isDetached = false ∧
      ∀ address, after.attachScreen.read address =
        if 0xF00 ≤ address ∧ address < 0x1000 then 0 else after.read address) ∧
    (after.isDetached = false → after.attachScreen = after) := by
  intro after history
  have records : Records history memory after := (Records.start memory).serveAll accesses
  refine ⟨records.detached, records.read, after.toNat_word, after.toNat_slot, after.toList_slice,
    fun mapped => ?_, fun detached => ?_, ⟨rfl, ?_, fun _ => rfl⟩, fun detached => ⟨?_, ?_⟩,
    fun mapped => ?_⟩
  · exact after.toList_frame_mapped mapped
  · rw [after.toList_frame_detached detached]
    apply List.map_congr_left
    intro index within
    exact records.readScreen (records.detached ▸ detached) index (List.mem_range.mp within)
  · show (Vector.replicate detachedSize (0 : UInt8)).toArray.toList = _
    rw [Vector.toArray_replicate, Array.toList_replicate]
  · exact after.isDetached_attachScreen
  · intro address
    rw [read_attachScreen, detached]
    simp only [true_and]
  · rw [attachScreen, (isDetached_eq_false_iff after).mp mapped]

/-- Bytes on both sides of the end of memory, a return address in the last slot before the
picture, and bytes on both sides of the end of a screen that was detached meanwhile. -/
def crossing : List Access :=
  [.writeList 0xFFF [1, 2], .setSlot 47 0x1234, .detachScreen, .paint 0xFE [7, 9]]

/-- What goes past an end shows nowhere, and all else where it was put. -/
theorem views_cohere_crossing :
    let after := initial.serveAll crossing
    after.isDetached = true ∧ after.read 0xFFF = 1 ∧ after.read 0x1000 = 0 ∧
      after.read 0xEFF = 0x12 ∧ (after.slot 47).toNat = 0x1234 ∧
      after.frame.toList[0xFE]? = some 7 ∧ after.attachScreen.read 0xFFF = 0 := by
  intro after
  obtain ⟨place, read, _, slot, _, _, frame, _, attached, _⟩ := views_cohere initial crossing
  have mapped : initial.isDetached = false := isDetached_writeList _ fontStart font
  rw [mapped] at place read frame
  have detached : after.isDetached = true := place
  have low : after.read 0xEFE = 0x34 := read 0xEFE
  have high : after.read 0xEFF = 0x12 := read 0xEFF
  refine ⟨detached, read 0xFFF, read 0x1000, high, ?_, ?_, (attached detached).2 0xFFF⟩
  · have value := slot 47
    rw [low, high] at value
    exact value
  · have dots : latest? (History.ofAccesses false crossing).dots 0xFE = some 7 := by
      rw [History.ofAccesses, crossing]
      simp only [List.foldl_cons, List.foldl_nil, History.record, latest?_append]
      rfl
    rw [frame detached, List.getElem?_map, List.getElem?_range (by decide), Option.map_some, dots]
    rfl

end Memory

end Chip8
