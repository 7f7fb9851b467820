import Chip8.Failure

/-!
# Which texts are lists of bytes

The reader walks through a text with a finite memory. The grammar says without any walk
which texts it must accept: two brackets, and between them nothing or numerals with
single commas, every part with blanks around it as it pleases. A numeral is made of
digits, has no zero in front of others, and its value is that of a byte.

That the reader finds every text of the grammar follows part by part, since each part
leads from one place to the next. That it finds nothing else is an induction on the text:
`Rest` says for every place what the remaining text looks like when the walk comes to its
end, and each character extends that by itself.
-/

namespace Chip8.Listing

/-! ## The grammar -/

/-- Nothing but spaces, tabs, line feeds and carriage returns. -/
def Blank (characters : List Char) : Prop :=
  ∀ character ∈ characters,
    character = ' ' ∨ character = '\t' ∨ character = '\n' ∨ character = '\r'

/-- The decimal numeral of a byte: one or more digits, the first of them no zero unless
it is the only one. -/
structure Numeral (digits : List Char) (value : UInt8) : Prop where
  nonempty : digits ≠ []
  decimal : ∀ digit ∈ digits, digit.isDigit = true
  plain : digits.head? = some '0' → digits = ['0']
  value : Nat.ofDigitChars 10 digits 0 = value.toNat

/-- A numeral with blanks around it. -/
inductive Element : List Char → UInt8 → Prop where
  | padded {before digits after : List Char} {value : UInt8} (front : Blank before)
      (numeral : Numeral digits value) (back : Blank after) :
      Element (before ++ (digits ++ after)) value

/-- One or more numerals, with a comma between each and the next. -/
inductive Elements : List Char → List UInt8 → Prop where
  | single {element : List Char} {value : UInt8} (here : Element element value) :
      Elements element [value]
  | cons {element rest : List Char} {value : UInt8} {values : List UInt8}
      (here : Element element value) (later : Elements rest values) :
      Elements (element ++ ',' :: rest) (value :: values)

/-- What stands between the brackets. -/
inductive Body : List Char → List UInt8 → Prop where
  | empty {blanks : List Char} (blank : Blank blanks) : Body blanks []
  | filled {elements : List Char} {values : List UInt8} (listed : Elements elements values) :
      Body elements values

/-- A list of bytes with these values, and nothing but blanks around it. -/
inductive Listed : List Char → List UInt8 → Prop where
  | bracketed {before body after : List Char} {values : List UInt8} (front : Blank before)
      (inside : Body body values) (back : Blank after) :
      Listed (before ++ '[' :: (body ++ ']' :: after)) values

/-! ## Kinds of characters -/

/-- Blanks are the characters that may stand between the parts of a list. -/
theorem isSpace_eq_true_iff (character : Char) : isSpace character = true ↔
    character = ' ' ∨ character = '\t' ∨ character = '\n' ∨ character = '\r' := by
  simp [isSpace, or_assoc]

/-- Nothing at all is blank. -/
theorem blank_nil : Blank [] := by simp [Blank]

/-- A blank in front of blanks. -/
theorem blank_cons (character : Char) (rest : List Char) :
    Blank (character :: rest) ↔ isSpace character = true ∧ Blank rest := by
  simp only [Blank, List.forall_mem_cons, isSpace_eq_true_iff]

/-- A digit is known by its value. -/
theorem digit?_eq_some_iff (character : Char) (digit : Nat) :
    Text.digit? character = some digit ↔
      character.isDigit = true ∧ digit = character.toNat - '0'.toNat := by
  have range : ('0' ≤ character ∧ character ≤ '9') ↔ character.isDigit = true := by
    simp [Char.isDigit, Char.le_def]
  simp only [Text.digit?, range]
  by_cases decimal : character.isDigit = true
  · simp [decimal, eq_comm]
  · simp [decimal]

/-- A digit's value is less than ten. -/
theorem digit?_lt {character : Char} {digit : Nat} (known : Text.digit? character = some digit) :
    digit < 256 := by
  obtain ⟨decimal, rfl⟩ := (digit?_eq_some_iff character digit).mp known
  simp only [Char.isDigit, Bool.and_eq_true, decide_eq_true_eq] at decimal
  have most : character.toNat ≤ '9'.toNat := decimal.2
  simp at most ⊢
  omega

/-- What is a digit is no other part of a list. -/
theorem parts_of_digit (character : Char) (decimal : character.isDigit = true) :
    isSpace character = false ∧ character ≠ ',' ∧ character ≠ ']' := by
  refine ⟨?_, ?_, ?_⟩
  · rw [Bool.eq_false_iff]
    intro blank
    rcases (isSpace_eq_true_iff character).mp blank with rfl | rfl | rfl | rfl <;>
      simp at decimal
  · rintro rfl
    simp at decimal
  · rintro rfl
    simp at decimal

/-- Only one digit has the value zero. -/
theorem eq_zero_of_digit (character : Char) (decimal : character.isDigit = true)
    (zero : character.toNat - '0'.toNat = 0) : character = '0' := by
  have least : '0'.toNat ≤ character.toNat := by
    simp only [Char.isDigit, Bool.and_eq_true, decide_eq_true_eq] at decimal
    exact decimal.1
  exact Char.toNat_inj.mp (Nat.le_antisymm (Nat.le_of_sub_eq_zero zero) least)

/-! ## The walk without its collection -/

/-- The numbers that a walk finds from a place on. -/
def found (place : Place) (characters : List Char) : Option (List UInt8) :=
  walk place #[] characters

/-- What was collected before stands in front of what is found later. -/
theorem walk_eq (place : Place) (values : Array UInt8) (characters : List Char) :
    walk place values characters = (found place characters).map (values.toList ++ ·) := by
  induction characters generalizing place values with
  | nil => by_cases ended : place = .closed <;> simp [found, walk, ended]
  | cons character rest inductionHypothesis =>
    rw [found, walk, walk]
    cases place.next? character with
    | none => rfl
    | some next =>
      dsimp only
      cases place.completed? next with
      | none => simp [inductionHypothesis next values, inductionHypothesis next #[]]
      | some value =>
        simp [inductionHypothesis next (values.push value), inductionHypothesis next #[value],
          Function.comp_def]

/-- One character leads to the next place, and perhaps completes a number. -/
theorem found_cons {place next : Place} {character : Char} (rest : List Char)
    (goes : place.next? character = some next) :
    found place (character :: rest) =
      (found next rest).map ((place.completed? next).toList ++ ·) := by
  rw [found, walk, goes]
  dsimp only
  cases place.completed? next with
  | none => simp [found]
  | some value => simp [walk_eq]

/-- A character that may not come ends the walk. -/
theorem found_cons_none {place : Place} {character : Char} (rest : List Char)
    (stuck : place.next? character = none) : found place (character :: rest) = none := by
  rw [found, walk, stuck]

/-! ## Every list is found -/

/-- The marks that end an element, each with the place behind it. -/
inductive Mark : Char → Place → Prop where
  | comma : Mark ',' .due
  | bracket : Mark ']' .closed

/-- Outside of numbers a blank leads nowhere. -/
theorem next?_of_space (place : Place) (character : Char) (blank : isSpace character = true)
    (outside : ∀ value, place ≠ .number value) :
    place.next? character = some place ∧ place.completed? place = none := by
  cases place with
  | number value => exact absurd rfl (outside value)
  | _ => simp [Place.next?, Place.completed?, blank]

/-- So do any number of them. -/
theorem found_blank (place : Place) (blanks rest : List Char) (blank : Blank blanks)
    (outside : ∀ value, place ≠ .number value) :
    found place (blanks ++ rest) = found place rest := by
  induction blanks with
  | nil => rfl
  | cons character blanks inductionHypothesis =>
    obtain ⟨space, blank⟩ := (blank_cons character blanks).mp blank
    obtain ⟨stays, nothing⟩ := next?_of_space place character space outside
    rw [List.cons_append, found_cons _ stays, nothing, inductionHypothesis blank]
    simp

/-- A number is never less than the one it is made from by a digit. -/
theorem le_ofDigitChars (digits : List Char) (value : Nat) :
    value ≤ Nat.ofDigitChars 10 digits value := by
  induction digits generalizing value with
  | nil => simp
  | cons digit rest inductionHypothesis =>
    rw [Nat.ofDigitChars_cons]
    have later := inductionHypothesis (10 * value + (digit.toNat - '0'.toNat))
    omega

/-- A number that is not zero goes on with digits as long as it is that of a byte. -/
theorem found_digits (digits rest : List Char) (value : Nat)
    (decimal : ∀ digit ∈ digits, digit.isDigit = true) (plain : value = 0 → digits = [])
    (small : Nat.ofDigitChars 10 digits value < 256) :
    found (.number value) (digits ++ rest) =
      found (.number (Nat.ofDigitChars 10 digits value)) rest := by
  induction digits generalizing value with
  | nil => simp
  | cons digit digits inductionHypothesis =>
    obtain ⟨here, later⟩ := List.forall_mem_cons.mp decimal
    obtain ⟨space, comma, bracket⟩ := parts_of_digit digit here
    have positive : value ≠ 0 := fun zero => List.cons_ne_nil _ _ (plain zero)
    rw [Nat.ofDigitChars_cons] at small ⊢
    have bound := le_ofDigitChars digits (10 * value + (digit.toNat - '0'.toNat))
    have known := (digit?_eq_some_iff digit _).mpr ⟨here, rfl⟩
    have extended : Place.next? (.number value) digit =
        some (.number (10 * value + (digit.toNat - '0'.toNat))) := by
      rw [Place.next?, space, known, if_neg Bool.false_ne_true, if_neg comma, if_neg bracket,
        Option.bind_some, extend?, if_pos ⟨positive, by omega⟩]
    rw [List.cons_append, found_cons _ extended,
      inductionHypothesis _ later (by omega) small]
    simp [Place.completed?]

/-- Where a number may begin the first digit begins it. -/
theorem next?_of_digit (place : Place) (character : Char) (digit : Nat)
    (starts : place = .opened ∨ place = .due) (known : Text.digit? character = some digit) :
    place.next? character = some (.number digit) ∧ place.completed? (.number digit) = none := by
  obtain ⟨decimal, _⟩ := (digit?_eq_some_iff character digit).mp known
  obtain ⟨space, _, bracket⟩ := parts_of_digit character decimal
  rcases starts with rfl | rfl <;> simp [Place.next?, Place.completed?, space, bracket, known]

/-- So a numeral leads to its value. -/
theorem found_numeral (place : Place) (digits rest : List Char) (value : UInt8)
    (starts : place = .opened ∨ place = .due) (numeral : Numeral digits value) :
    found place (digits ++ rest) = found (.number value.toNat) rest := by
  cases digits with
  | nil => exact absurd rfl numeral.nonempty
  | cons first digits =>
    obtain ⟨here, later⟩ := List.forall_mem_cons.mp numeral.decimal
    have known := (digit?_eq_some_iff first _).mpr ⟨here, rfl⟩
    obtain ⟨goes, nothing⟩ := next?_of_digit place first _ starts known
    have value := numeral.value
    rw [Nat.ofDigitChars_cons, Nat.mul_zero, Nat.zero_add] at value
    have plain (zero : first.toNat - '0'.toNat = 0) : digits = [] := by
      have alone := numeral.plain (congrArg some (eq_zero_of_digit first here zero))
      exact (List.cons.inj alone).2
    rw [List.cons_append, found_cons _ goes, nothing, found_digits digits rest _ later plain
      (value ▸ UInt8.toNat_lt _), value]
    simp

/-- After a number and blanks a mark ends the element. -/
theorem found_mark {mark : Char} {place : Place} (value : UInt8) (blanks rest : List Char)
    (blank : Blank blanks) (marks : Mark mark place) :
    found (.number value.toNat) (blanks ++ mark :: rest) =
      (found place rest).map (value :: ·) := by
  have known : UInt8.ofNat value.toNat = value := UInt8.ofNat_toNat
  cases blanks with
  | nil =>
    have goes : Place.next? (.number value.toNat) mark = some place := by
      cases marks <;> rfl
    rw [List.nil_append, found_cons _ goes]
    cases marks <;> simp [Place.completed?, known]
  | cons character blanks =>
    obtain ⟨space, blank⟩ := (blank_cons character blanks).mp blank
    have leaves : Place.next? (.number value.toNat) character = some .after := by
      simp [Place.next?, space]
    have goes : Place.next? .after mark = some place := by
      cases marks <;> rfl
    rw [List.cons_append, found_cons _ leaves, found_blank _ _ _ blank (by simp),
      found_cons _ goes]
    cases marks <;> simp [Place.completed?, known]

/-- An element gives its number. -/
theorem found_element {place next : Place} {mark : Char} {element : List Char} {value : UInt8}
    (rest : List Char) (starts : place = .opened ∨ place = .due)
    (here : Element element value) (marks : Mark mark next) :
    found place (element ++ mark :: rest) = (found next rest).map (value :: ·) := by
  cases here with
  | padded front numeral back =>
    rw [List.append_assoc, List.append_assoc, found_blank _ _ _ front,
      found_numeral _ _ _ _ starts numeral, found_mark _ _ _ back marks]
    rcases starts with rfl | rfl <;> simp

/-- Elements give theirs. -/
theorem found_elements {place : Place} {elements : List Char} {values : List UInt8}
    (rest : List Char) (starts : place = .opened ∨ place = .due)
    (listed : Elements elements values) :
    found place (elements ++ ']' :: rest) = (found .closed rest).map (values ++ ·) := by
  induction listed generalizing place with
  | single here => exact found_element rest starts here .bracket
  | cons here later inductionHypothesis =>
    rw [List.append_assoc, List.cons_append, found_element _ starts here .comma,
      inductionHypothesis (.inr rfl)]
    simp [Function.comp_def]

/-- So does everything between brackets. -/
theorem found_body {body : List Char} {values : List UInt8} (rest : List Char)
    (inside : Body body values) :
    found .opened (body ++ ']' :: rest) = (found .closed rest).map (values ++ ·) := by
  cases inside with
  | empty blank =>
    have closes : Place.next? .opened ']' = some .closed := rfl
    rw [found_blank _ _ _ blank (by simp), found_cons _ closes]
    rfl
  | filled listed => exact found_elements rest (.inl rfl) listed

/-- The reader finds every list. -/
theorem read?_of_listed {characters : List Char} {values : List UInt8}
    (listed : Listed characters values) : read? characters = some values := by
  cases listed with
  | @bracketed before body after _ front inside back =>
    have opens : Place.next? .start '[' = some .opened := rfl
    have ends : found .closed after = some [] := by
      have trailing := found_blank .closed after [] back (by simp)
      rw [List.append_nil] at trailing
      exact trailing
    show found .start (before ++ '[' :: (body ++ ']' :: after)) = some values
    rw [found_blank _ _ _ front (by simp), found_cons _ opens, found_body _ inside, ends]
    simp [Place.completed?]

/-! ## Nothing else is found -/

/-- A text with something inside that the next closing bracket ends. -/
def Ended (Inside : List Char → List UInt8 → Prop) (characters : List Char)
    (values : List UInt8) : Prop :=
  ∃ body after, characters = body ++ ']' :: after ∧ Inside body values ∧ Blank after

/-- What may follow a number: the end of the list, or more elements. -/
inductive Follows : List Char → List UInt8 → Prop where
  | closed {blanks after : List Char} (blank : Blank blanks) (back : Blank after) :
      Follows (blanks ++ ']' :: after) []
  | more {blanks rest : List Char} {values : List UInt8} (blank : Blank blanks)
      (later : Ended Elements rest values) : Follows (blanks ++ ',' :: rest) values

/-- What may follow a part of a number: its other digits, and what may follow it then. -/
inductive Completes (part : Nat) : List Char → List UInt8 → Prop where
  | digits {digits rest : List Char} {value : UInt8} {values : List UInt8}
      (decimal : ∀ digit ∈ digits, digit.isDigit = true) (plain : part = 0 → digits = [])
      (known : Nat.ofDigitChars 10 digits part = value.toNat) (later : Follows rest values) :
      Completes part (digits ++ rest) (value :: values)

/-- What the rest of a text looks like if the walk from a place finds these numbers in it. -/
def Place.Rest : Place → List Char → List UInt8 → Prop
  | start, characters, values => Listed characters values
  | opened, characters, values => Ended Body characters values
  | due, characters, values => Ended Elements characters values
  | number part, characters, values => part < 256 → Completes part characters values
  | after, characters, values => Follows characters values
  | closed, characters, values => Blank characters ∧ values = []

section Front

variable {character : Char} {characters : List Char} {values : List UInt8}

/-! One more blank in front changes nothing. -/

/-- It may stand in front of elements. -/
theorem Elements.front (listed : Elements characters values)
    (space : isSpace character = true) : Elements (character :: characters) values := by
  cases listed with
  | single here =>
    cases here with
    | padded front numeral back =>
      exact .single (.padded ((blank_cons _ _).mpr ⟨space, front⟩) numeral back)
  | cons here later =>
    cases here with
    | padded front numeral back =>
      exact .cons (.padded ((blank_cons _ _).mpr ⟨space, front⟩) numeral back) later

/-- It may stand in front of what is between brackets. -/
theorem Body.front (inside : Body characters values) (space : isSpace character = true) :
    Body (character :: characters) values := by
  cases inside with
  | empty blank => exact .empty ((blank_cons _ _).mpr ⟨space, blank⟩)
  | filled listed => exact .filled (listed.front space)

/-- It may stand in front of a list. -/
theorem Listed.front (listed : Listed characters values) (space : isSpace character = true) :
    Listed (character :: characters) values := by
  cases listed with
  | bracketed front inside back =>
    exact .bracketed ((blank_cons _ _).mpr ⟨space, front⟩) inside back

/-- It may stand behind a number. -/
theorem Follows.front (follows : Follows characters values) (space : isSpace character = true) :
    Follows (character :: characters) values := by
  cases follows with
  | closed blank back => exact .closed ((blank_cons _ _).mpr ⟨space, blank⟩) back
  | more blank later => exact .more ((blank_cons _ _).mpr ⟨space, blank⟩) later

/-- What may stand in front inside may stand in front of it all. -/
theorem Ended.front {Inside : List Char → List UInt8 → Prop}
    (ended : Ended Inside characters values)
    (front : ∀ body, Inside body values → Inside (character :: body) values) :
    Ended Inside (character :: characters) values := by
  obtain ⟨body, after, rfl, inside, back⟩ := ended
  exact ⟨character :: body, after, rfl, front body inside, back⟩

/-- A numeral and what may follow it are elements. -/
theorem Follows.ended {digits : List Char} {value : UInt8} (follows : Follows characters values)
    (numeral : Numeral digits value) : Ended Elements (digits ++ characters) (value :: values) := by
  cases follows with
  | @closed blanks after blank back =>
    exact ⟨digits ++ blanks, after, by simp, .single (.padded blank_nil numeral blank), back⟩
  | @more blanks rest _ blank later =>
    obtain ⟨body, after, rfl, listed, back⟩ := later
    exact ⟨digits ++ blanks ++ ',' :: body, after, by simp,
      .cons (.padded blank_nil numeral blank) listed, back⟩

/-- A first digit and what completes it are elements. -/
theorem Completes.ended {digit : Nat} (completes : Completes digit characters values)
    (known : Text.digit? character = some digit) :
    Ended Elements (character :: characters) values := by
  obtain ⟨decimal, rfl⟩ := (digit?_eq_some_iff character digit).mp known
  cases completes with
  | @digits digits rest value values later plain total follows =>
    have numeral : Numeral (character :: digits) value := by
      refine ⟨List.cons_ne_nil _ _, List.forall_mem_cons.mpr ⟨decimal, later⟩, ?_, ?_⟩
      · intro zero
        obtain rfl : character = '0' := Option.some.inj zero
        rw [plain rfl]
      · rw [Nat.ofDigitChars_cons, Nat.mul_zero, Nat.zero_add, total]
    exact follows.ended numeral

/-- A further digit and what completes the number then complete it now. -/
theorem Completes.front {part digit : Nat}
    (completes : Completes (10 * part + digit) characters values)
    (known : Text.digit? character = some digit) (positive : part ≠ 0) :
    Completes part (character :: characters) values := by
  obtain ⟨decimal, rfl⟩ := (digit?_eq_some_iff character digit).mp known
  cases completes with
  | @digits digits rest value values later plain total follows =>
    have complete : Nat.ofDigitChars 10 (character :: digits) part = value.toNat := by
      rw [Nat.ofDigitChars_cons, total]
    show Completes part ((character :: digits) ++ rest) (value :: values)
    refine .digits (List.forall_mem_cons.mpr ⟨decimal, later⟩) ?_ complete follows
    intro zero
    exact absurd zero positive

/-- A number may be complete as it is. -/
theorem Follows.completes {part : Nat} (follows : Follows characters values) (small : part < 256) :
    Completes part characters (.ofNat part :: values) := by
  have known : Nat.ofDigitChars 10 [] part = (UInt8.ofNat part).toNat := by
    rw [Nat.ofDigitChars_nil, UInt8.toNat_ofNat_of_lt' small]
  show Completes part ([] ++ characters) (.ofNat part :: values)
  exact .digits (by simp) (fun _ => rfl) known follows

end Front

section Steps

variable {next : Place} {character : Char} {characters : List Char} {values : List UInt8}

/-! What is left behind a character, with the character in front, is what is left before it. -/

/-- Before the list. -/
theorem rest_start (goes : Place.next? .start character = some next)
    (later : next.Rest characters values) :
    Place.start.Rest (character :: characters)
      ((Place.completed? .start next).toList ++ values) := by
  by_cases space : isSpace character = true
  · obtain rfl : .start = next := by simpa [Place.next?, space] using goes
    exact Listed.front later space
  by_cases bracket : character = '['
  · subst bracket
    obtain rfl : .opened = next := Option.some.inj goes
    obtain ⟨body, after, rfl, inside, back⟩ := later
    exact Listed.bracketed blank_nil inside back
  · simp [Place.next?, space, bracket] at goes

/-- Where an element must begin. -/
theorem rest_due (goes : Place.next? .due character = some next)
    (later : next.Rest characters values) :
    Place.due.Rest (character :: characters) ((Place.completed? .due next).toList ++ values) := by
  by_cases space : isSpace character = true
  · obtain rfl : .due = next := by simpa [Place.next?, space] using goes
    exact Ended.front later fun _ listed => listed.front space
  · obtain ⟨digit, known, rfl⟩ : ∃ digit, Text.digit? character = some digit ∧
        Place.number digit = next := by
      simpa [Place.next?, space] using goes
    exact (later (digit?_lt known)).ended known

/-- After the opening bracket. -/
theorem rest_opened (goes : Place.next? .opened character = some next)
    (later : next.Rest characters values) :
    Place.opened.Rest (character :: characters)
      ((Place.completed? .opened next).toList ++ values) := by
  by_cases space : isSpace character = true
  · obtain rfl : .opened = next := by simpa [Place.next?, space] using goes
    exact Ended.front later fun _ inside => inside.front space
  by_cases bracket : character = ']'
  · subst bracket
    obtain rfl : .closed = next := Option.some.inj goes
    obtain ⟨back, rfl⟩ := later
    exact ⟨[], characters, rfl, .empty blank_nil, back⟩
  · obtain ⟨digit, known, rfl⟩ : ∃ digit, Text.digit? character = some digit ∧
        Place.number digit = next := by
      simpa [Place.next?, space, bracket] using goes
    obtain ⟨body, after, same, listed, back⟩ := (later (digit?_lt known)).ended known
    exact ⟨body, after, same, .filled listed, back⟩

/-- After a number. -/
theorem rest_after (goes : Place.next? .after character = some next)
    (later : next.Rest characters values) : Follows (character :: characters) values := by
  by_cases space : isSpace character = true
  · obtain rfl : .after = next := by simpa [Place.next?, space] using goes
    exact Follows.front later space
  by_cases comma : character = ','
  · subst comma
    obtain rfl : .due = next := Option.some.inj goes
    exact .more blank_nil later
  by_cases bracket : character = ']'
  · subst bracket
    obtain rfl : .closed = next := Option.some.inj goes
    obtain ⟨back, rfl⟩ := later
    exact .closed blank_nil back
  · simp [Place.next?, space, comma, bracket] at goes

/-- Within a number. -/
theorem rest_number {part : Nat} (small : part < 256)
    (goes : Place.next? (.number part) character = some next)
    (later : next.Rest characters values) :
    Completes part (character :: characters)
      ((Place.completed? (.number part) next).toList ++ values) := by
  -- What ends a number goes on as it does after the number, and the number is complete.
  have leaves (ends : Place.next? .after character = some next)
      (complete : Place.completed? (.number part) next = some (.ofNat part)) :
      Completes part (character :: characters)
        ((Place.completed? (.number part) next).toList ++ values) := by
    rw [complete]
    exact (rest_after ends later).completes small
  by_cases space : isSpace character = true
  · obtain rfl : .after = next := by simpa [Place.next?, space] using goes
    exact leaves (by simp [Place.next?, space]) rfl
  by_cases comma : character = ','
  · subst comma
    obtain rfl : .due = next := Option.some.inj goes
    exact leaves rfl rfl
  by_cases bracket : character = ']'
  · subst bracket
    obtain rfl : .closed = next := Option.some.inj goes
    exact leaves rfl rfl
  · obtain ⟨digit, known, extended⟩ : ∃ digit, Text.digit? character = some digit ∧
        extend? part digit = some next := by
      simpa [Place.next?, space, comma, bracket, Option.bind_eq_some_iff] using goes
    by_cases fits : part ≠ 0 ∧ 10 * part + digit < 256
    · obtain rfl : .number (10 * part + digit) = next := by
        simpa [extend?, fits] using extended
      exact (later fits.2).front known fits.1
    · simp [extend?, fits] at extended

/-- After the list. -/
theorem rest_closed (goes : Place.next? .closed character = some next)
    (later : next.Rest characters values) :
    Place.closed.Rest (character :: characters)
      ((Place.completed? .closed next).toList ++ values) := by
  by_cases space : isSpace character = true
  · obtain rfl : .closed = next := by simpa [Place.next?, space] using goes
    obtain ⟨back, rfl⟩ := later
    exact ⟨(blank_cons _ _).mpr ⟨space, back⟩, rfl⟩
  · simp [Place.next?, space] at goes

/-- Wherever the character is read. -/
theorem rest_cons {place : Place} (goes : place.next? character = some next)
    (later : next.Rest characters values) :
    place.Rest (character :: characters) ((place.completed? next).toList ++ values) := by
  cases place with
  | start => exact rest_start goes later
  | opened => exact rest_opened goes later
  | due => exact rest_due goes later
  | number part =>
    intro small
    exact rest_number small goes later
  | after => exact rest_after goes later
  | closed => exact rest_closed goes later

end Steps

/-- What a walk finds from a place on is what is left there. -/
theorem rest_of_found {place : Place} {characters : List Char} {values : List UInt8}
    (finds : found place characters = some values) : place.Rest characters values := by
  induction characters generalizing place values with
  | nil =>
    by_cases ended : place = .closed
    · obtain rfl : [] = values := by simpa [found, walk, ended] using finds
      subst ended
      exact ⟨blank_nil, rfl⟩
    · simp [found, walk, ended] at finds
  | cons character rest inductionHypothesis =>
    cases goes : place.next? character with
    | none => simp [found_cons_none rest goes] at finds
    | some next =>
      rw [found_cons rest goes] at finds
      obtain ⟨later, found, rfl⟩ := Option.map_eq_some_iff.mp finds
      exact rest_cons goes (inductionHypothesis found)

/-- The reader finds exactly the lists. -/
theorem read?_eq_some_iff (characters : List Char) (values : List UInt8) :
    read? characters = some values ↔ Listed characters values := by
  constructor
  · intro finds
    have rest : Place.start.Rest characters values := rest_of_found finds
    exact rest
  · exact read?_of_listed

example : read? "[ 0 ,15]\n".toList = some [0, 15] ∧ read? "[0,]".toList = none := by decide

/-- So no text is a list in two ways. -/
theorem Listed.unique {characters : List Char} {values others : List UInt8}
    (listed : Listed characters values) (other : Listed characters others) : values = others :=
  Option.some.inj ((read?_of_listed listed).symm.trans (read?_of_listed other))

/-! ## What is read -/

/-- The registers are filled from the front, and the others are zero. -/
theorem eq_fill_iff (flags : Registers) (values : List UInt8) :
    flags = fill values ↔ ∀ r : Register, flags.get r = values[r.val]?.getD 0 := by
  have filled (r : Register) : (fill values).get r = values[r.val]?.getD 0 :=
    Vector.getElem_ofFn r.isLt
  constructor
  · rintro rfl r
    exact filled r
  · intro same
    apply Vector.ext
    intro index inside
    exact (same ⟨index, inside⟩).trans (filled ⟨index, inside⟩).symm

/-- A list is read as registers unless it is too long, and what is no list is malformed. -/
theorem decode_eq_iff (text : String) (answer : Except ListingError Registers) :
    decode text = answer ↔
      (∃ values, Listed text.toList values ∧
        ((values.length ≤ 16 ∧ answer = .ok (fill values)) ∨
          (16 < values.length ∧ answer = .error (.tooMany values.length)))) ∨
      ((∀ values, ¬ Listed text.toList values) ∧ answer = .error .malformed) := by
  cases read : read? text.toList with
  | none =>
    have unlisted (values : List UInt8) : ¬ Listed text.toList values := by
      intro listed
      rw [read?_of_listed listed] at read
      cases read
    simp [decode, read, unlisted, eq_comm]
  | some values =>
    have listed : Listed text.toList values := (read?_eq_some_iff _ _).mp read
    have only (others : List UInt8) : Listed text.toList others ↔ others = values :=
      ⟨fun other => other.unique listed, fun same => same ▸ listed⟩
    by_cases few : values.length ≤ 16
    · simp [decode, read, only, few, Nat.not_lt.mpr few, eq_comm]
    · simp [decode, read, only, few, Nat.lt_of_not_le few, eq_comm]

/-- A text is read as registers exactly where it is a list of at most sixteen bytes. The
first registers have the listed values in their order, and the others are zero. It is
refused with a count exactly where it is a list of so many bytes and these are too many;
the message names the count. It is refused as malformed exactly where it is no list of
bytes. -/
theorem decode_reads_lists (text : String) :
    (∀ flags, decode text = .ok flags ↔ ∃ values, Listed text.toList values ∧
      values.length ≤ 16 ∧ ∀ r : Register, flags.get r = values[r.val]?.getD 0) ∧
    (∀ count, decode text = .error (.tooMany count) ↔ ∃ values, Listed text.toList values ∧
      16 < values.length ∧ count = values.length) ∧
    (∀ count, (ListingError.tooMany count).message =
      "malformed flag registers: " ++ count.repr ++ " values, at most 16 flag registers") ∧
    (decode text = .error .malformed ↔ ∀ values, ¬ Listed text.toList values) := by
  refine ⟨fun flags => ?_, fun count => ?_, fun count => rfl, ?_⟩
  · simp only [decode_eq_iff, ← eq_fill_iff]
    simp
  · simp [decode_eq_iff]
  · simp [decode_eq_iff]

end Chip8.Listing
