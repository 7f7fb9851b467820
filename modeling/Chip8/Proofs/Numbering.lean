import Chip8.Keys.Held

/-!
# Keys as plain numbers

A keymap binds names to keys, of which there are sixteen. A host keeps the number of a key in
a byte, which has room for more, and uses it to find the key's count among the held keys
without asking whether there is one. Here names are bound to bytes. No byte of a layout is out
of range because only sixteen characters are numbered, and none becomes so by an alias, which
copies the byte of a name that is bound already, whether to a character or as an alias itself.
So every byte that is looked up is the number of a key, and the count that is asked for with
it exists.
-/

namespace Chip8

/-- Names bound to bytes, the latest binding first. -/
abbrev Numbering := List (String × UInt8)

namespace Numbering

/-- The first sixteen characters of a layout, with their places. -/
def ofCharacters (layout : List Char) : Numbering :=
  ((layout.take 16).zipIdx.map fun placed =>
    (String.singleton placed.1, UInt8.ofNat placed.2)).reverse

/-- Bind a name to the byte of another name, if that is bound. -/
def addAlias (numbering : Numbering) (name target : String) : Numbering :=
  match numbering.lookup target with
  | none => numbering
  | some number => (name, number) :: numbering

/-- A layout's characters, then its aliases one by one. -/
def ofLayout (layout : String) (aliases : List (String × String)) : Numbering :=
  aliases.foldl (fun numbering pair => numbering.addAlias pair.1 pair.2)
    (ofCharacters layout.toList)

/-- Press or release the key that a name is bound to. -/
def setNamedKey (numbering : Numbering) (machine : Machine) (name : String) (down : Bool) :
    Machine :=
  match numbering.lookup name with
  | none => machine
  | some number => machine.setKey number.toNat down

/-- Handle one key press; nothing comes of it where a key has no count. -/
def press (numbering : Numbering) (held : HeldKeys) (machine : Machine) (event : KeyPress) :
    Option HeldKeys.Pressed :=
  if event.quits then some ⟨.quit, held, machine, []⟩
  else match event.code.name? with
    | none => some ⟨.proceed, held, machine, [.unknownKey event.code]⟩
    | some name => match numbering.lookup name with
      | none => some ⟨.proceed, held, machine, [.unboundKey name]⟩
      | some number =>
        if counted : number.toNat < 16 then
          some ⟨.proceed,
            { held with remaining := held.remaining.set number.toNat (max held.hold 1) counted },
            numbering.setNamedKey machine name true, []⟩
        else none

/-! ## Bytes in range -/

/-- All bytes are numbers of keys. -/
def InRange (numbering : Numbering) : Prop := ∀ binding ∈ numbering, binding.2.toNat < 16

variable {numbering : Numbering}

/-- A byte that is looked up belongs to a binding. -/
theorem mem_of_lookup (name : String) (number : UInt8)
    (found : numbering.lookup name = some number) : (name, number) ∈ numbering := by
  obtain ⟨earlier, later, parts, _⟩ := List.lookup_eq_some_iff.mp found
  rw [parts]
  exact List.mem_append_right earlier List.mem_cons_self

/-- So it is in range if all are. -/
theorem InRange.lookup (inRange : numbering.InRange) (name : String) (number : UInt8)
    (found : numbering.lookup name = some number) : number.toNat < 16 :=
  inRange _ (mem_of_lookup name number found)

/-- Places in a layout are numbered up to fifteen. -/
theorem inRange_ofCharacters (layout : List Char) : (ofCharacters layout).InRange := by
  intro binding member
  obtain ⟨⟨character, place⟩, placed, rfl⟩ := List.mem_map.mp (List.mem_reverse.mp member)
  have inLayout : place < (layout.take 16).length := List.snd_lt_of_mem_zipIdx placed
  rw [List.length_take] at inLayout
  have small : place < 16 := Nat.lt_of_lt_of_le inLayout (Nat.min_le_left 16 layout.length)
  show (UInt8.ofNat place).toNat < 16
  rwa [UInt8.toNat_ofNat_of_lt' (Nat.lt_trans small (by decide))]

/-- An alias copies a byte. -/
theorem InRange.addAlias (inRange : numbering.InRange) (name target : String) :
    (numbering.addAlias name target).InRange := by
  cases found : numbering.lookup target with
  | none =>
    simp only [Numbering.addAlias, found]
    exact inRange
  | some number =>
    simp only [Numbering.addAlias, found]
    exact List.forall_mem_cons.mpr ⟨inRange.lookup target number found, inRange⟩

/-- So do any number of them, in whatever order they build on each other. -/
theorem InRange.addAliases (inRange : numbering.InRange) (aliases : List (String × String)) :
    (aliases.foldl (fun numbering pair => numbering.addAlias pair.1 pair.2)
      numbering).InRange := by
  induction aliases generalizing numbering with
  | nil => exact inRange
  | cons pair rest inductionHypothesis =>
    exact inductionHypothesis (inRange.addAlias pair.1 pair.2)

/-- Every name of a layout with aliases has the number of a key. -/
theorem inRange_ofLayout (layout : String) (aliases : List (String × String)) :
    (ofLayout layout aliases).InRange :=
  (inRange_ofCharacters layout.toList).addAliases aliases

/-! ## Bytes and keys -/

/-- The number of a key. -/
def ofKey (key : Fin 16) : UInt8 := .ofNat key.val

/-- A key has its own number. -/
theorem toNat_ofKey (key : Fin 16) : (ofKey key).toNat = key.val :=
  UInt8.toNat_ofNat_of_lt' (Nat.lt_trans key.isLt (by decide))

/-- A keymap with the numbers of its keys. -/
def ofKeymap (keymap : Keymap) : Numbering :=
  keymap.bindings.map fun binding => (binding.1, ofKey binding.2)

/-- The number that is looked up is that of the key. -/
theorem lookup_ofKeymap (keymap : Keymap) (name : String) :
    (ofKeymap keymap).lookup name = (keymap.resolve name).map ofKey := by
  rw [ofKeymap, Keymap.resolve]
  induction keymap.bindings with
  | nil => rfl
  | cons binding rest inductionHypothesis =>
    rw [List.map_cons, List.lookup_cons, List.lookup_cons, inductionHypothesis]
    cases name == binding.1 with
    | true => rfl
    | false => rfl

/-- Characters are numbered as their keys. -/
theorem ofKeymap_ofCharacters (layout : List Char) :
    ofKeymap (.ofCharacters layout) = ofCharacters layout := by
  rw [ofKeymap, Keymap.ofCharacters, ofCharacters, List.map_reverse]
  congr 1
  apply List.ext_getElem
  · simp [Nat.min_comm]
  · intro place inside other
    simp [ofKey]

/-- Aliases get the number of their key. -/
theorem ofKeymap_addAlias (keymap : Keymap) (name target : String) :
    ofKeymap (keymap.addAlias name target) = (ofKeymap keymap).addAlias name target := by
  rw [addAlias, lookup_ofKeymap, Keymap.addAlias]
  cases keymap.resolve target with
  | none => rfl
  | some key => rfl

/-- A layout with aliases binds the same names to bytes and to keys. -/
theorem ofKeymap_ofLayout (layout : String) (aliases : List (String × String)) :
    ofKeymap (.ofLayout layout aliases) = ofLayout layout aliases := by
  rw [Keymap.ofLayout, ofLayout, ← ofKeymap_ofCharacters]
  -- Each alias is added to what the earlier ones made of the layout.
  generalize Keymap.ofCharacters layout.toList = keymap
  induction aliases generalizing keymap with
  | nil => rfl
  | cons pair rest inductionHypothesis =>
    rw [List.foldl_cons, List.foldl_cons, ← ofKeymap_addAlias]
    exact inductionHypothesis _

/-! ## What the bytes are used for -/

/-- A byte in range moves the one key whose number it is, and nothing else. -/
theorem setKey_number (machine : Machine) (number : UInt8) (down : Bool)
    (key : number.toNat < 16) :
    let after := machine.setKey number.toNat down
    after = { machine with keys := after.keys } ∧ after.keys[number.toNat]? = some down ∧
      ∀ other, other ≠ number.toNat → after.keys[other]? = machine.keys[other]? := by
  refine ⟨rfl, ?_, fun other apart => ?_⟩
  · exact Vector.getElem?_setIfInBounds_self_of_lt key
  · exact Vector.getElem?_setIfInBounds_ne apart.symm

/-- Named keys are moved as by the keymap with the same names. -/
theorem setNamedKey_eq (keymap : Keymap) (machine : Machine) (name : String) (down : Bool)
    (same : numbering.lookup name = (keymap.resolve name).map ofKey) :
    numbering.setNamedKey machine name down = machine.setNamedKey keymap name down := by
  rw [setNamedKey, same, Machine.setNamedKey]
  cases keymap.resolve name with
  | none => rfl
  | some key =>
    show machine.setKey (ofKey key).toNat down = machine.setKey key.val down
    rw [toNat_ofKey]

/-- A count that exists is set without asking as it is with asking. -/
theorem set_number (counts : Vector Nat 16) (number value : Nat) (counted : number < 16) :
    counts.set number value counted = counts.setIfInBounds number value := by
  apply Vector.ext
  intro other within
  rw [Vector.getElem_set, Vector.getElem_setIfInBounds]

/-- Presses are handled as with the keymap with the same names, and every count that is asked
for exists. -/
theorem InRange.press (inRange : numbering.InRange) (keymap : Keymap)
    (same : ∀ name, numbering.lookup name = (keymap.resolve name).map ofKey) (held : HeldKeys)
    (machine : Machine) (event : KeyPress) :
    numbering.press held machine event = some (held.press keymap machine event) := by
  rw [Numbering.press, HeldKeys.press]
  by_cases quits : event.quits = true
  · rw [if_pos quits, if_pos quits]
  rw [if_neg quits, if_neg quits]
  cases event.code.name? with
  | none => rfl
  | some name =>
    have number := same name
    cases found : keymap.resolve name with
    | none =>
      rw [found, Option.map_none] at number
      simp only [number, found]
    | some key =>
      rw [found, Option.map_some] at number
      have counted := inRange.lookup name (ofKey key) number
      have moved : numbering.setNamedKey machine name true = machine.setKey key.val true := by
        rw [setNamedKey_eq keymap machine name true (same name), Machine.setNamedKey, found]
      simp only [number, found, dif_pos counted, moved]
      rw [set_number, toNat_ofKey]

/-- A layout may have any characters and any number of them, and aliases may build on each
other, on themselves or on nothing, and hide characters. Every byte that a name is then looked
up to is the number of one of the sixteen keys, the one that the keymap gives. So a name
that is looked up moves the key with its number and nothing else, one that is not moves
nothing, and a key press always finds the count that it sets: it is handled as with the
keymap, whatever keys are held and whatever the machine's state. -/
theorem looked_up_keys_exist (layout : String) (aliases : List (String × String)) :
    (∀ name number, (ofLayout layout aliases).lookup name = some number → number.toNat < 16) ∧
    (∀ name, (ofLayout layout aliases).lookup name =
      ((Keymap.ofLayout layout aliases).resolve name).map ofKey) ∧
    (∀ (machine : Machine) (name : String) (down : Bool),
      let after := machine.setNamedKey (.ofLayout layout aliases) name down
      ((ofLayout layout aliases).lookup name = none → after = machine) ∧
      ∀ number, (ofLayout layout aliases).lookup name = some number →
        after = { machine with keys := after.keys } ∧ after.keys[number.toNat]? = some down ∧
          ∀ other, other ≠ number.toNat → after.keys[other]? = machine.keys[other]?) ∧
    ∀ (held : HeldKeys) (machine : Machine) (event : KeyPress),
      (ofLayout layout aliases).press held machine event =
        some (held.press (.ofLayout layout aliases) machine event) := by
  have inRange := inRange_ofLayout layout aliases
  have same (name : String) : (ofLayout layout aliases).lookup name =
      ((Keymap.ofLayout layout aliases).resolve name).map ofKey := by
    rw [← ofKeymap_ofLayout, lookup_ofKeymap]
  refine ⟨inRange.lookup, same, fun machine name down => ?_,
    inRange.press (.ofLayout layout aliases) same⟩
  have moved := setNamedKey_eq (.ofLayout layout aliases) machine name down (same name)
  intro after
  constructor
  · intro missing
    rw [setNamedKey, missing] at moved
    exact moved.symm
  · intro number found
    rw [setNamedKey, found] at moved
    simp only [after, ← moved]
    exact setKey_number machine number down (inRange.lookup name number found)

/-- Names that are given to each other in a chain, to themselves and to a character. -/
def chained : List (String × String) :=
  [("Space", "f"), ("Enter", "Space"), ("Tab", "Tab"), ("0", "Enter")]

/-- The last name of a chain from the layout's sixteenth character has the last key, though
the layout has a seventeenth character, which has none, and though the name is itself a
character of the layout. -/
theorem looked_up_keys_exist_chained :
    (ofLayout "0123456789abcdefg" chained).lookup "0" = some 15 ∧
      (15 : UInt8).toNat < 16 ∧
      (Machine.initial.setNamedKey (.ofLayout "0123456789abcdefg" chained) "0" true).keys[15]? =
        some true ∧
      (ofLayout "0123456789abcdefg" chained).lookup "g" = none ∧
      Machine.initial.setNamedKey (.ofLayout "0123456789abcdefg" chained) "g" true =
        .initial := by
  have found : (ofLayout "0123456789abcdefg" chained).lookup "0" = some 15 := by decide
  have missing : (ofLayout "0123456789abcdefg" chained).lookup "g" = none := by decide
  obtain ⟨bounded, _, moves, _⟩ := looked_up_keys_exist "0123456789abcdefg" chained
  exact ⟨found, bounded "0" 15 found, ((moves .initial "0" true).2 15 found).2.1, missing,
    (moves .initial "g" true).1 missing⟩

end Numbering

end Chip8
