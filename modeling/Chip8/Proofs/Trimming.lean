import Chip8.Flags.Store
import Chip8.Proofs.Writing

/-!
# Saved flag registers with white space around them

A file's text is trimmed before it is read, a text in memory is read as it is. What is
trimmed is white space of every kind, while a list may have only four kinds of it outside its
brackets. A list begins and ends with a bracket apart from its blanks, so trimming stops at
these brackets: it takes away the white space in front of the list together with the blanks
that belong to the list, and leaves the list without them. From this follows what a file may
hold around a list, and that the two stores differ exactly on lists with white space of
another kind around them.
-/

namespace Chip8

/-! ## What trimming takes away -/

namespace Text

/-- Nothing but white space. -/
def White (characters : List Char) : Prop := ∀ character ∈ characters, isBlank character = true

instance (characters : List Char) : Decidable (White characters) :=
  List.decidableBAll (fun character => isBlank character = true) characters

/-- The white space in front of a text; all of it if there is nothing else. -/
def leading (characters : List Char) : List Char := characters.takeWhile isBlank

/-- The white space behind a text that has other characters. -/
def trailing (characters : List Char) : List Char :=
  ((characters.dropWhile isBlank).reverse.takeWhile isBlank).reverse

/-- What is taken while it is white space is white space. -/
theorem white_takeWhile (characters : List Char) : White (characters.takeWhile isBlank) :=
  List.all_eq_true.mp List.all_takeWhile

/-- In front of a text stands white space only. -/
theorem white_leading (characters : List Char) : White (leading characters) :=
  white_takeWhile characters

/-- And behind it. -/
theorem white_trailing (characters : List Char) : White (trailing characters) := by
  intro character member
  exact white_takeWhile _ character (List.mem_reverse.mp member)

/-- A text is what trimming leaves of it, between what it takes away. -/
theorem leading_trim_trailing (characters : List Char) :
    leading characters ++ (trim characters ++ trailing characters) = characters := by
  rw [leading, trim, trailing, ← List.reverse_append, List.takeWhile_append_dropWhile,
    List.reverse_reverse, List.takeWhile_append_dropWhile]

/-- White space ends where another character stands. -/
theorem takeWhile_white (front rest : List Char) (stop : Char) (white : White front)
    (solid : isBlank stop = false) :
    (front ++ stop :: rest).takeWhile isBlank = front ∧
      (front ++ stop :: rest).dropWhile isBlank = stop :: rest := by
  constructor
  · rw [List.takeWhile_append_of_pos white, List.takeWhile_cons, solid, if_neg Bool.false_ne_true,
      List.append_nil]
  · rw [List.dropWhile_append_of_pos white, List.dropWhile_cons, solid,
      if_neg Bool.false_ne_true]

/-- Trimming takes away the white space up to the first and from the last of the other
characters. -/
theorem trim_framed (front inner back : List Char) (first last : Char) (before : White front)
    (after : White back) (opens : isBlank first = false) (closes : isBlank last = false) :
    let text := front ++ first :: (inner ++ last :: back)
    leading text = front ∧ trim text = first :: (inner ++ [last]) ∧ trailing text = back := by
  intro text
  obtain ⟨taken, left⟩ := takeWhile_white front (inner ++ last :: back) first before opens
  have reversed : (first :: (inner ++ last :: back)).reverse =
      back.reverse ++ last :: (inner.reverse ++ [first]) := by simp
  have white : White back.reverse := fun character member =>
    after character (List.mem_reverse.mp member)
  obtain ⟨takenBehind, leftBehind⟩ :=
    takeWhile_white back.reverse (inner.reverse ++ [first]) last white closes
  refine ⟨taken, ?_, ?_⟩
  · rw [trim, left, reversed, leftBehind]
    simp
  · rw [trailing, left, reversed, takenBehind, List.reverse_reverse]

end Text

/-! ## Lists with white space around them -/

namespace Listing

open Text (White leading trim trailing)

/-- What may stand between the parts of a list is white space. -/
theorem isBlank_of_isSpace (character : Char) (space : isSpace character = true) :
    Text.isBlank character = true := by
  rcases (isSpace_eq_true_iff character).mp space with rfl | rfl | rfl | rfl <;> decide

/-- Blanks are white space. -/
theorem Blank.white {characters : List Char} (blank : Blank characters) : White characters :=
  fun character member =>
    isBlank_of_isSpace character ((isSpace_eq_true_iff character).mpr (blank character member))

/-- What stands around a list comes to stand around its brackets. -/
theorem append_bracketed (front opening body closing back : List Char) :
    front ++ ((opening ++ '[' :: (body ++ ']' :: closing)) ++ back) =
      (front ++ opening) ++ '[' :: (body ++ ']' :: (closing ++ back)) := by
  simp

/-- Trimming a list with white space around it leaves the same list, and takes away no more
than the white space and blanks of the list. -/
theorem Listed.trim {front list back : List Char} {values : List UInt8}
    (listed : Listed list values) (before : White front) (after : White back) :
    Listed (trim (front ++ (list ++ back))) values ∧
      ∃ opening closing, Blank opening ∧ Blank closing ∧
        leading (front ++ (list ++ back)) = front ++ opening ∧
        trailing (front ++ (list ++ back)) = closing ++ back := by
  cases listed with
  | @bracketed opening body closing _ opens inside closes =>
    have whiteBefore : White (front ++ opening) :=
      List.forall_mem_append.mpr ⟨before, opens.white⟩
    have whiteAfter : White (closing ++ back) := List.forall_mem_append.mpr ⟨closes.white, after⟩
    obtain ⟨taken, left, takenBehind⟩ :=
      Text.trim_framed _ body _ '[' ']' whiteBefore whiteAfter (by decide) (by decide)
    rw [append_bracketed, left]
    refine ⟨?_, opening, closing, opens, closes, taken, takenBehind⟩
    show Listed ([] ++ '[' :: (body ++ ']' :: [])) values
    exact .bracketed blank_nil inside blank_nil

/-- Blanks around a list belong to it. -/
theorem Listed.padded {front list back : List Char} {values : List UInt8}
    (listed : Listed list values) (before : Blank front) (after : Blank back) :
    Listed (front ++ (list ++ back)) values := by
  cases listed with
  | @bracketed opening body closing _ opens inside closes =>
    rw [append_bracketed]
    exact .bracketed (List.forall_mem_append.mpr ⟨before, opens⟩) inside
      (List.forall_mem_append.mpr ⟨closes, after⟩)

/-- A text is a list if trimming leaves a list and takes away nothing but blanks. -/
theorem listed_iff_trim (characters : List Char) (values : List UInt8) :
    Listed characters values ↔ Listed (trim characters) values ∧
      Blank (leading characters ++ trailing characters) := by
  constructor
  · intro listed
    have bare : [] ++ (characters ++ []) = characters := by simp
    have nothing : White [] := by simp [White]
    obtain ⟨trimmed, opening, closing, opens, closes, front, back⟩ :=
      listed.trim nothing nothing
    rw [bare] at trimmed front back
    rw [front, back, List.nil_append, List.append_nil]
    exact ⟨trimmed, List.forall_mem_append.mpr ⟨opens, closes⟩⟩
  · rintro ⟨trimmed, blank⟩
    obtain ⟨before, after⟩ := List.forall_mem_append.mp blank
    rw [← Text.leading_trim_trailing characters]
    exact trimmed.padded before after

/-- Registers are read of a trimmed text exactly where they are read of a part of it that
has nothing but white space around it. -/
theorem decode_trim_iff (text : String) (flags : Registers) :
    decode (.ofList (trim text.toList)) = .ok flags ↔
      ∃ front list back : String, text = front ++ list ++ back ∧ White front.toList ∧
        White back.toList ∧ decode list = .ok flags := by
  constructor
  · intro read
    refine ⟨.ofList (leading text.toList), .ofList (trim text.toList),
      .ofList (trailing text.toList), ?_, ?_, ?_, read⟩
    · rw [← String.toList_inj, String.toList_append, String.toList_append, String.toList_ofList,
        String.toList_ofList, String.toList_ofList, List.append_assoc,
        Text.leading_trim_trailing]
    · rw [String.toList_ofList]
      exact Text.white_leading _
    · rw [String.toList_ofList]
      exact Text.white_trailing _
  · rintro ⟨front, list, back, rfl, before, after, read⟩
    obtain ⟨values, listed, few, filled⟩ := (decode_reads_lists list).1 flags |>.mp read
    refine ((decode_reads_lists _).1 flags).mpr ⟨values, ?_, few, filled⟩
    rw [String.toList_ofList, String.toList_append, String.toList_append, List.append_assoc]
    exact (listed.trim before after).1

/-- Registers are read of a text exactly where they are read of the trimmed text and trimming
takes away nothing but blanks. -/
theorem decode_eq_ok_iff_trim (text : String) (flags : Registers) :
    decode text = .ok flags ↔ decode (.ofList (trim text.toList)) = .ok flags ∧
      Blank (leading text.toList ++ trailing text.toList) := by
  have reads := (decode_reads_lists text).1 flags
  have readsTrimmed := (decode_reads_lists (.ofList (trim text.toList))).1 flags
  rw [String.toList_ofList] at readsTrimmed
  rw [reads, readsTrimmed]
  constructor
  · rintro ⟨values, listed, few, filled⟩
    obtain ⟨trimmed, blank⟩ := (listed_iff_trim _ values).mp listed
    exact ⟨⟨values, trimmed, few, filled⟩, blank⟩
  · rintro ⟨⟨values, trimmed, few, filled⟩, blank⟩
    exact ⟨values, (listed_iff_trim _ values).mpr ⟨trimmed, blank⟩, few, filled⟩

end Listing

/-! ## The two stores -/

namespace TextStore

/-- A text in memory gives registers where it is read as these. -/
theorem load_eq_ok_iff (text : String) (flags : Registers) :
    TextStore.load ⟨some text⟩ = .ok (some flags) ↔ Listing.decode text = .ok flags := by
  simp only [load]
  cases Listing.decode text with
  | error error => simp
  | ok read => simp

end TextStore

namespace FileStore

open Text (White leading trim trailing)

/-- A file that holds a text is read as a text in memory that was trimmed. -/
theorem load_text (text : String) :
    (file text.toUTF8).load = TextStore.load ⟨some (.ofList (trim text.toList))⟩ := by
  have known : String.fromUTF8? text.toUTF8 = some text := dif_pos text.isValidUTF8
  simp only [load, known, TextStore.load]

/-- A file that holds a text gives the registers of a list in it, if the text has nothing but
white space around that. -/
theorem load_text_eq_ok_iff (text : String) (flags : Registers) :
    (file text.toUTF8).load = .ok (some flags) ↔
      ∃ front list back : String, text = front ++ list ++ back ∧ White front.toList ∧
        White back.toList ∧ Listing.decode list = .ok flags := by
  rw [load_text, TextStore.load_eq_ok_iff, Listing.decode_trim_iff]

/-- What a text in memory gives is what a file with that text gives, if the text has nothing
but blanks around its list. -/
theorem load_memory_eq_ok_iff (text : String) (flags : Registers) :
    TextStore.load ⟨some text⟩ = .ok (some flags) ↔
      (file text.toUTF8).load = .ok (some flags) ∧
        Listing.Blank (leading text.toList ++ trailing text.toList) := by
  rw [load_text, TextStore.load_eq_ok_iff, TextStore.load_eq_ok_iff, Listing.decode_eq_ok_iff_trim]

/-- Registers can be saved where a file is or can be made. -/
theorem save_eq_ok_iff (store : FileStore) (flags : Registers) :
    (store.save flags).1 = .ok () ↔ store ≠ unreachable ∧ store ≠ directory := by
  cases store <;> simp [save]

/-- Saved registers are loaded again. -/
theorem load_save (store : FileStore) (flags : Registers)
    (saved : (store.save flags).1 = .ok ()) : (store.save flags).2.load = .ok (some flags) := by
  obtain ⟨reachable, noDirectory⟩ := (save_eq_ok_iff store flags).mp saved
  have written : (store.save flags).2 = file (Listing.encode flags).toUTF8 := by
    cases store with
    | unreachable => exact absurd rfl reachable
    | directory => exact absurd rfl noDirectory
    | absent => rfl
    | file content => rfl
  rw [written]
  refine ((load_memory_eq_ok_iff _ flags).mp ?_).1
  exact (TextStore.load_eq_ok_iff _ flags).mpr (Listing.decode_encode flags)

/-- A file and a text in memory have the same format. Registers are loaded of a file exactly
where its text is a list of them with nothing but white space in front and behind. What is
loaded of a text in memory is loaded of a file with that text. The other way round this holds
of those texts alone that have no white space around their list but spaces, tabs, line feeds
and carriage returns. What was saved to a file is loaded again, and it is saved unless a
directory stands in its place or there is none to hold it. -/
theorem file_reads_as_memory :
    (∀ text flags, (file text.toUTF8).load = .ok (some flags) ↔
      ∃ front list back : String, text = front ++ list ++ back ∧ White front.toList ∧
        White back.toList ∧ Listing.decode list = .ok flags) ∧
    (∀ text flags, TextStore.load ⟨some text⟩ = .ok (some flags) →
      (file text.toUTF8).load = .ok (some flags)) ∧
    (∀ text flags, (file text.toUTF8).load = .ok (some flags) →
      (TextStore.load ⟨some text⟩ = .ok (some flags) ↔
        Listing.Blank (leading text.toList ++ trailing text.toList))) ∧
    ∀ store flags,
      ((store.save flags).1 = .ok () ↔ store ≠ unreachable ∧ store ≠ directory) ∧
        ((store.save flags).1 = .ok () → (store.save flags).2.load = .ok (some flags)) := by
  refine ⟨load_text_eq_ok_iff, fun text flags read => ?_, fun text flags read => ?_,
    fun store flags => ⟨save_eq_ok_iff store flags, load_save store flags⟩⟩
  · exact ((load_memory_eq_ok_iff text flags).mp read).1
  · rw [load_memory_eq_ok_iff]
    exact and_iff_right read

/-- A list with a space that does not break in front of it. -/
def framed : String := "\u00a0[7 , 80]\n"

/-- A file with this text gives the listed registers, a text in memory does not; saving to a
place where nothing is makes a file that gives what was saved. -/
theorem file_reads_as_memory_framed :
    (file framed.toUTF8).load = .ok (some (Listing.fill [7, 80])) ∧
      TextStore.load ⟨some framed⟩ ≠ .ok (some (Listing.fill [7, 80])) ∧
      TextStore.load ⟨some "[7 , 80]\n"⟩ = .ok (some (Listing.fill [7, 80])) ∧
      (file "[7 , 80]\n".toUTF8).load = .ok (some (Listing.fill [7, 80])) ∧
      (absent.save (Listing.fill [7, 80])).1 = .ok () ∧
      (absent.save (Listing.fill [7, 80])).2.load = .ok (some (Listing.fill [7, 80])) := by
  obtain ⟨loaded, kept, strange, saved⟩ := file_reads_as_memory
  have list : Listing.decode "[7 , 80]" = .ok (Listing.fill [7, 80]) := by rfl
  have before : White "\u00a0".toList := by decide
  have after : White "\n".toList := by decide
  have inMemory : TextStore.load ⟨some "[7 , 80]\n"⟩ = .ok (some (Listing.fill [7, 80])) := by rfl
  have read : (file framed.toUTF8).load = .ok (some (Listing.fill [7, 80])) :=
    (loaded _ _).mpr ⟨"\u00a0", "[7 , 80]", "\n", by decide, before, after, list⟩
  have stored : (absent.save (Listing.fill [7, 80])).1 = .ok () := by rfl
  refine ⟨read, ?_, inMemory, kept _ _ inMemory, stored, (saved _ _).2 stored⟩
  rw [ne_eq, strange _ _ read]
  intro blank
  have unbroken : '\u00a0' ∈ leading framed.toList ++ trailing framed.toList := by decide
  exact absurd (blank _ unbroken) (by decide)

end FileStore

end Chip8
