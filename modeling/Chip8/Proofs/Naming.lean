import Chip8.Keys.Layout
import Mathlib.Data.List.Induction

/-!
# Which key a name stands for

A layout gives names to keys, and aliases give further ones. An alias is meant to point at
a character of the layout, but it is looked up among all names there are when its turn
comes, other aliases included. So a chain of aliases is followed from its end to the
layout, and an alias named like a character hides it from the aliases behind it. Said of
the aliases with their targets followed in this way, the rule is the one that was meant:
the last alias of a name decides, and a name without one is a character of the layout.
-/

namespace Chip8.Keymap

/-- The key of a name on the layout: the last of the first sixteen places at which its
character stands. -/
def place (layout : List Char) (name : String) : Option (Fin 16) :=
  ((List.finRange 16).filter fun key =>
    layout[key.val]?.map String.singleton == some name).getLast?

/-- What a name is meant to stand for: the target of its last alias that points at the
layout, or itself if there is none. -/
def meant (layout : List Char) (aliases : List (String × String)) (name : String) : String :=
  ((aliases.filter fun pair =>
    pair.1 == name && (place layout pair.2).isSome).getLast?.map Prod.snd).getD name

/-- The key that a name is meant to have. -/
def aimed (layout : List Char) (aliases : List (String × String)) (name : String) :
    Option (Fin 16) :=
  place layout (meant layout aliases name)

/-- The aliases with their targets followed: one after the other is pointed at what its
target stands for by the aliases before it. -/
def followed (layout : List Char) (aliases : List (String × String)) : List (String × String) :=
  aliases.foldl (fun done pair => done ++ [(pair.1, meant layout done pair.2)]) []

/-- After other aliases, an alias gets the key at which it points on the layout, or it
points at nothing there and its name keeps its key. -/
def Straight (layout : List Char) (before : List (String × String)) (pair : String × String) :
    Prop :=
  aimed layout before pair.2 = place layout pair.2 ∨
    (place layout pair.2 = none ∧ aimed layout before pair.2 = aimed layout before pair.1)

/-! ## Layouts -/

/-- Of names that are bound in order the last binding counts. -/
theorem resolve_reverse (bindings : List (String × Fin 16)) (name : String) :
    resolve ⟨bindings.reverse⟩ name =
      (bindings.filterMap fun binding =>
        if name == binding.1 then some binding.2 else none).getLast? := by
  rw [List.getLast?_filterMap, resolve, List.lookup_eq_findSome?]

/-- Of keys that are paired with their names those remain whose name is asked for. -/
theorem filterMap_zip (names : List String) (keys : List (Fin 16))
    (label : Fin 16 → Option String) (name : String)
    (labels : ∀ i (inside : i < keys.length), label keys[i] = names[i]?) :
    (names.zip keys).filterMap (fun binding =>
        if name == binding.1 then some binding.2 else none) =
      keys.filter fun key => label key == some name := by
  induction keys generalizing names with
  | nil => rw [List.zip_nil_right, List.filterMap_nil, List.filter_nil]
  | cons key rest inductionHypothesis =>
    have first : label key = names[0]? := labels 0 (Nat.zero_lt_succ _)
    have others (i : Nat) (inside : i < rest.length) : label rest[i] = names[i + 1]? :=
      labels (i + 1) (Nat.succ_lt_succ inside)
    cases names with
    | nil =>
      have unnamed : ∀ other ∈ key :: rest, ¬ (label other == some name) = true := by
        intro other member
        obtain ⟨i, inside, found⟩ := List.getElem_of_mem member
        simp [← found, labels i inside]
      rw [List.zip_nil_left, List.filterMap_nil, List.filter_eq_nil_iff.mpr unnamed]
    | cons own later =>
      have rest := inductionHypothesis later others
      simp only [List.zip_cons_cons, List.filterMap_cons, List.filter_cons, first,
        List.getElem?_cons_zero, rest]
      by_cases same : name = own
      · simp [same]
      · simp [same, Ne.symm same]

/-- The characters of a layout stand for their places. -/
theorem resolve_ofCharacters (layout : List Char) (name : String) :
    (ofCharacters layout).resolve name = place layout name := by
  rw [ofCharacters, resolve_reverse, place]
  congr 1
  apply filterMap_zip
  intro i inside
  simp

/-! ## Aliases -/

variable (layout : List Char) (aliases : List (String × String))

/-- One more alias gives its name the key that its target has at that moment, if it has
one. -/
theorem resolve_addAlias (keymap : Keymap) (own target name : String) :
    (keymap.addAlias own target).resolve name =
      if name = own then (keymap.resolve target).or (keymap.resolve name)
      else keymap.resolve name := by
  cases found : keymap.resolve target with
  | none =>
    rw [addAlias, found, Option.none_or, ite_self]
  | some key =>
    rw [addAlias, found, resolve, List.lookup_cons]
    by_cases same : name = own
    · simp [same]
    · have other : (name == own) = false := beq_eq_false_iff_ne.mpr same
      simp [same, other, resolve]

/-- A layout with one more alias. -/
theorem resolve_ofLayout_concat (text : String) (own target name : String) :
    (ofLayout text (aliases ++ [(own, target)])).resolve name =
      if name = own then
        ((ofLayout text aliases).resolve target).or ((ofLayout text aliases).resolve name)
      else (ofLayout text aliases).resolve name := by
  rw [ofLayout, List.foldl_append]
  exact resolve_addAlias (ofLayout text aliases) own target name

/-- One more alias is meant to give its name the place of its target, if it has one. -/
theorem aimed_concat (own target name : String) :
    aimed layout (aliases ++ [(own, target)]) name =
      if name = own then (place layout target).or (aimed layout aliases name)
      else aimed layout aliases name := by
  simp only [aimed, meant, List.filter_append, List.getLast?_append]
  by_cases same : name = own
  · cases placed : place layout target with
    | none => simp [same, placed]
    | some key => simp [same, placed]
  · simp [same, Ne.symm same]

/-- One more alias is followed to what its target stands for. -/
theorem followed_concat (own target : String) :
    followed layout (aliases ++ [(own, target)]) =
      followed layout aliases ++ [(own, meant layout (followed layout aliases) target)] := by
  rw [followed, List.foldl_append]
  rfl

/-- Names get the keys that are meant by the aliases with their targets followed.

The induction takes the aliases from the last one back, as each of them is looked up among
those before it. -/
theorem resolve_followed (text : String) (name : String) :
    (ofLayout text aliases).resolve name =
      aimed text.toList (followed text.toList aliases) name := by
  induction aliases using List.reverseRecOn generalizing name with
  | nil => exact resolve_ofCharacters text.toList name
  | append_singleton earlier pair inductionHypothesis =>
    obtain ⟨own, target⟩ := pair
    rw [resolve_ofLayout_concat, followed_concat, aimed_concat, inductionHypothesis name,
      inductionHypothesis target]
    rfl

/-- A character of the layout keeps a key, though aliases may give it another one. -/
theorem aimed_of_place (name : String) (key : Fin 16) (placed : place layout name = some key) :
    ∃ other, aimed layout aliases name = some other := by
  induction aliases using List.reverseRecOn with
  | nil => exact ⟨key, placed⟩
  | append_singleton earlier pair inductionHypothesis =>
    obtain ⟨other, kept⟩ := inductionHypothesis
    rw [aimed_concat, kept]
    by_cases same : name = pair.1
    · cases aims : place layout pair.2 with
      | none => exact ⟨other, by simp [same]⟩
      | some later => exact ⟨later, by simp [same]⟩
    · exact ⟨other, if_neg same⟩

/-- An alias that is straight does to a keymap what it is meant to do. -/
theorem straight_iff (text : String) (own target : String)
    (names : ∀ name, (ofLayout text aliases).resolve name = aimed text.toList aliases name) :
    (∀ name, (ofLayout text (aliases ++ [(own, target)])).resolve name =
        aimed text.toList (aliases ++ [(own, target)]) name) ↔
      Straight text.toList aliases (own, target) := by
  have onlyOwn : (∀ name, (ofLayout text (aliases ++ [(own, target)])).resolve name =
        aimed text.toList (aliases ++ [(own, target)]) name) ↔
      (aimed text.toList aliases target).or (aimed text.toList aliases own) =
        (place text.toList target).or (aimed text.toList aliases own) := by
    simp only [resolve_ofLayout_concat, aimed_concat, names]
    constructor
    · intro everywhere
      simpa using everywhere own
    · intro here name
      by_cases same : name = own
      · simpa [same] using here
      · simp [same]
  rw [onlyOwn, Straight]
  cases placed : place text.toList target with
  | none =>
    cases aimed text.toList aliases target with
    | none => simp
    | some other => simp [eq_comm]
  | some key =>
    obtain ⟨other, kept⟩ := aimed_of_place text.toList aliases target key placed
    simp [kept]

/-- Names get the keys of the layout that their aliases point at, if targets are followed
to the layout when an alias is added. Without that they do so exactly as long as every
alias is straight when its turn comes. -/
theorem resolve_follows_targets (text : String) (aliases : List (String × String)) :
    (∀ name, (ofLayout text aliases).resolve name =
      aimed text.toList (followed text.toList aliases) name) ∧
    ((∀ before, before <+: aliases → ∀ name,
        (ofLayout text before).resolve name = aimed text.toList before name) ↔
      ∀ before pair after, aliases = before ++ pair :: after →
        Straight text.toList before pair) := by
  refine ⟨resolve_followed aliases text, ?_, ?_⟩
  · intro names before pair after parts
    have earlier : before <+: aliases := ⟨pair :: after, parts.symm⟩
    have oneMore : before ++ [pair] <+: aliases := ⟨after, by rw [parts, List.append_assoc]; rfl⟩
    exact (straight_iff before text pair.1 pair.2 (names before earlier)).mp (names _ oneMore)
  · intro straight before earlier
    induction before using List.reverseRecOn with
    | nil => exact resolve_ofCharacters text.toList
    | append_singleton before pair inductionHypothesis =>
      obtain ⟨after, parts⟩ := earlier
      have pairThen : aliases = before ++ pair :: after := by rw [← parts, List.append_assoc]; rfl
      have names := inductionHypothesis ⟨pair :: after, pairThen.symm⟩
      exact (straight_iff before text pair.1 pair.2 names).mpr (straight before pair after pairThen)

/-- A layout of four keys with a name for the first one, a name that points at this name, a
character that is pointed at the key of another one, and a name for that character. -/
def entangled : List (String × String) :=
  [("Space", "0"), ("Enter", "Space"), ("1", "2"), ("Tab", "1")]

/-- The name that points at another name gets a key though its target is on no place of the
layout. The name of the character that was pointed elsewhere does not get the key of the
character's own place. -/
theorem resolve_entangled :
    (ofLayout "0123" entangled).resolve "Enter" = some 0 ∧
      aimed "0123".toList entangled "Enter" = none ∧
      (ofLayout "0123" entangled).resolve "Tab" = some 2 ∧
      aimed "0123".toList entangled "Tab" = some 1 := by
  decide

end Chip8.Keymap
