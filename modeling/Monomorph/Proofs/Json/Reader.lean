import Monomorph.Proofs.Instance.Name
import Monomorph.Proofs.Json.Layout

/-! JSON texts are read back.

Every text of the format is read as the tree that it lays out. The first character tells
the kind of the tree, and what follows a value cannot be taken for a part of it. The readers
go down from a depth, so the proof is by induction on it: with one more, they read one more
layer. A text is always long enough to be read from a depth of its length.
-/

set_option autoImplicit false

namespace Monomorph.Json

theorem skipBlanks_append {blanks : List Char} (blank : Blank blanks) (rest : List Char) :
    skipBlanks (blanks ++ rest) = skipBlanks rest :=
  List.dropWhile_append_of_pos blank

theorem skipBlanks_cons {char : Char} (solid : isBlank char = false) (rest : List Char) :
    skipBlanks (char :: rest) = char :: rest :=
  List.dropWhile_cons_of_neg (by rw [solid]; decide)

theorem skipBlanks_append_cons {blanks : List Char} (blank : Blank blanks) {char : Char}
    (solid : isBlank char = false) (rest : List Char) : skipBlanks (blanks ++ char :: rest) = char :: rest := by
  rw [skipBlanks_append blank, skipBlanks_cons solid]

def Apart (rest : List Char) : Prop :=
  ∀ char ∈ rest.head?, char.isDigit = false ∧ char ≠ '.' ∧ char ≠ 'e' ∧ char ≠ 'E'

theorem apart_cons {char : Char} (rest : List Char)
    (apart : char.isDigit = false ∧ char ≠ '.' ∧ char ≠ 'e' ∧ char ≠ 'E') : Apart (char :: rest) := by
  intro head same
  cases same
  exact apart

theorem apart_of_isBlank {char : Char} (blank : isBlank char = true) :
    char.isDigit = false ∧ char ≠ '.' ∧ char ≠ 'e' ∧ char ≠ 'E' := by
  simp only [isBlank, Bool.or_eq_true, decide_eq_true_eq] at blank
  rcases blank with ((rfl | rfl) | rfl) | rfl <;> decide

theorem apart_append {blanks rest : List Char} (blank : Blank blanks) (apart : Apart rest) : Apart (blanks ++ rest) := by
  cases blanks with
  | nil => exact apart
  | cons char blanks => exact apart_cons _ (apart_of_isBlank (blank char List.mem_cons_self))

theorem apart_comma (rest : List Char) : Apart (',' :: rest) := apart_cons rest (by decide)

section Numbers

variable {rest : List Char}

theorem readFraction_of_apart (apart : Apart rest) : readFraction rest = some ([], rest) := by
  unfold readFraction
  split
  · exact absurd rfl (apart '.' rfl).2.1
  · rfl

theorem readExponent_of_apart (apart : Apart rest) : readExponent rest = some ([], rest) := by
  unfold readExponent
  split
  · rfl
  · rename_i mark rest
    obtain ⟨_, _, small, capital⟩ := apart mark rfl
    rw [if_neg (not_or.mpr ⟨small, capital⟩)]

theorem readInteger_toDigits (number : Nat) (apart : Apart rest) :
    readInteger (Nat.toDigits 10 number ++ rest) = some (Nat.toDigits 10 number, rest) := by
  have ends (char : Char) (head : char ∈ rest.head?) : char.isDigit = false := (apart char head).1
  unfold readInteger
  split
  · rename_i others starts
    rcases Nat.eq_zero_or_pos number with rfl | positive
    · -- zero is the only number that begins with a zero
      rw [Nat.toDigits_zero, List.cons_append, List.nil_append, List.cons.injEq] at starts
      obtain ⟨_, rfl⟩ := starts
      rw [if_neg]
      · rfl
      · intro digit
        obtain ⟨char, head, isDigit⟩ := (Option.any_eq_true _ _).mp digit
        rw [ends char head] at isDigit
        cases isDigit
    · have head := congrArg List.head? starts
      rw [List.head?_append_of_ne_nil _ Nat.toDigits_ne_nil, List.head?_cons] at head
      exact absurd head (InstanceId.head?_toDigits positive)
  · obtain ⟨digits, others⟩ := InstanceId.span_toDigits number ends
    simp only [readDigits, digits, others]
    rw [if_neg (by simp [Nat.toDigits_ne_nil])]

theorem isBlank_of_isDigit {char : Char} (isDigit : char.isDigit = true) : isBlank char = false := by
  apply Bool.eq_false_iff.mpr
  intro blank
  rw [(apart_of_isBlank blank).1] at isDigit
  cases isDigit

theorem readNumber_toDigits (number : Nat) (apart : Apart rest) :
    readNumber (Nat.toDigits 10 number ++ rest) = some (Nat.toDigits 10 number, rest) := by
  unfold readNumber
  split
  · rename_i others starts
    obtain ⟨digit, _, digits, isDigit⟩ := InstanceId.exists_toDigits_eq_cons number
    rw [digits, List.cons_append, List.cons.injEq] at starts
    rw [starts.1] at isDigit
    cases isDigit
  · simp only [readMagnitude, readInteger_toDigits number apart, readFraction_of_apart apart,
      readExponent_of_apart apart, Option.bind_eq_bind, Option.bind_some, List.append_nil]
    rfl

end Numbers

theorem Layout.exists_eq_cons {json : Json} {text : List Char} (layout : json.Layout text) :
    ∃ char rest, text = char :: rest ∧ isBlank char = false ∧ char ≠ ']' := by
  cases layout with
  | number value =>
    obtain ⟨digit, others, digits, isDigit⟩ := InstanceId.exists_toDigits_eq_cons value
    refine ⟨digit, others, digits, isBlank_of_isDigit isDigit, ?_⟩
    rintro rfl
    cases isDigit
  | null | boolTrue | boolFalse | emptyArray _ | array _ | emptyObject _ | object _ =>
    exact ⟨_, _, rfl, by decide, by decide⟩
  | string _ => exact ⟨_, _, rfl, by decide, by decide⟩

theorem ElementLayouts.exists_skipBlanks_eq {elements : List Json} {inner : List Char}
    (layouts : ElementLayouts elements inner) (rest : List Char) :
    ∃ char others, skipBlanks (inner ++ rest) = char :: others ∧ char ≠ ']' := by
  cases layouts with
  | last before layout _ =>
    obtain ⟨char, others, rfl, solid, opens⟩ := layout.exists_eq_cons
    rw [List.append_assoc, skipBlanks_append before, List.cons_append, List.cons_append, skipBlanks_cons solid]
    exact ⟨char, _, rfl, opens⟩
  | more before layout _ _ =>
    obtain ⟨char, others, rfl, solid, opens⟩ := layout.exists_eq_cons
    rw [List.append_assoc, skipBlanks_append before, List.cons_append, List.cons_append, skipBlanks_cons solid]
    exact ⟨char, _, rfl, opens⟩

theorem FieldLayouts.exists_skipBlanks_eq {fields : List (List Char × Json)} {inner : List Char}
    (layouts : FieldLayouts fields inner) (rest : List Char) :
    ∃ others, skipBlanks (inner ++ rest) = '"' :: others := by
  cases layouts with
  | last before _ _ _ _ _ =>
    rw [List.append_assoc, skipBlanks_append before]
    exact ⟨_, skipBlanks_cons rfl _⟩
  | more before _ _ _ _ _ _ =>
    rw [List.append_assoc, skipBlanks_append before]
    exact ⟨_, skipBlanks_cons rfl _⟩

theorem skipBlanks_skipBlanks (text : List Char) : skipBlanks (skipBlanks text) = skipBlanks text :=
  List.dropWhile_idempotent isBlank text

theorem readValue_skipBlanks (depth : Nat) (text : List Char) : readValue depth (skipBlanks text) = readValue depth text := by
  cases depth with
  | zero => rfl
  | succ depth => rw [readValue, readValue, skipBlanks_skipBlanks]

theorem readElements_skipBlanks (depth : Nat) (text : List Char) :
    readElements depth (skipBlanks text) = readElements depth text := by
  cases depth with
  | zero => rfl
  | succ depth => rw [readElements, readElements, readValue_skipBlanks]

theorem readFields_skipBlanks (depth : Nat) (text : List Char) :
    readFields depth (skipBlanks text) = readFields depth text := by
  cases depth with
  | zero => rfl
  | succ depth => rw [readFields, readFields, readKey, readKey, skipBlanks_skipBlanks]

/-- The readers with this depth read what is laid out: a value with whatever follows it, and the elements of an
array and the fields of an object up to the bracket that closes them. -/
structure ReadsBack (depth : Nat) : Prop where
  value : ∀ {json : Json} {text blanks rest : List Char}, json.Layout text → Blank blanks → Apart rest →
    text.length ≤ depth → readValue depth (blanks ++ (text ++ rest)) = some (json, rest)
  elements : ∀ {elements : List Json} {inner : List Char} (rest : List Char), ElementLayouts elements inner →
    inner.length < depth → readElements depth (inner ++ ']' :: rest) = some (elements, rest)
  fields : ∀ {fields : List (List Char × Json)} {inner : List Char} (rest : List Char), FieldLayouts fields inner →
    inner.length < depth → readFields depth (inner ++ '}' :: rest) = some (fields, rest)

section Step

variable {depth : Nat} {blanks rest : List Char}

theorem readValue_number (depth value : Nat) (blank : Blank blanks) (apart : Apart rest) :
    readValue (depth + 1) (blanks ++ (Nat.toDigits 10 value ++ rest))
      = some (.number (Nat.toDigits 10 value), rest) := by
  have read := readNumber_toDigits value apart
  obtain ⟨digit, others, digits, isDigit⟩ := InstanceId.exists_toDigits_eq_cons value
  rw [digits, List.cons_append] at read ⊢
  rw [readValue, skipBlanks_append_cons blank (isBlank_of_isDigit isDigit)]
  split
  case h_7 =>
    rw [read]
    rfl
  -- the other trees do not begin with a digit
  all_goals
    rename_i starts
    rw [(List.cons.inj starts).1] at isDigit
    cases isDigit

theorem readValue_string (depth : Nat) {text token : List Char} (written : Token text token) (blank : Blank blanks)
    (rest : List Char) : readValue (depth + 1) (blanks ++ (quoted token ++ rest)) = some (.string token, rest) := by
  have read := written.readString_eq rest
  simp only [quoted, List.cons_append, List.append_assoc, List.nil_append]
  rw [readValue, skipBlanks_append_cons blank rfl]
  simp only [read, Option.bind_eq_bind, Option.bind_some]
  rfl

theorem readKey_quoted {name key between : List Char} (blank : Blank blanks) (written : Token name key)
    (apart : Blank between) (rest : List Char) :
    readKey (blanks ++ (quoted key ++ (between ++ ':' :: rest))) = some (key, rest) := by
  have read := written.readString_eq (between ++ ':' :: rest)
  simp only [quoted, List.cons_append, List.append_assoc, List.nil_append]
  rw [readKey, skipBlanks_append_cons blank rfl]
  simp only [read, skipBlanks_append_cons apart (show isBlank ':' = false from rfl), Option.bind_eq_bind, Option.bind_some]

theorem readValue_array {elements : List Json} {inner : List Char} (back : ReadsBack depth)
    (layouts : ElementLayouts elements inner) (blank : Blank blanks) (enough : inner.length < depth)
    (rest : List Char) :
    readValue (depth + 1) (blanks ++ '[' :: (inner ++ ']' :: rest)) = some (.array elements, rest) := by
  obtain ⟨char, others, starts, opens⟩ := layouts.exists_skipBlanks_eq (']' :: rest)
  have read := back.elements rest layouts enough
  rw [← readElements_skipBlanks, starts] at read
  rw [readValue, skipBlanks_append_cons blank rfl]
  simp only [starts]
  -- the reader does not take the first element for the end of the array
  split
  · rename_i same
    exact absurd (List.cons.inj same).1 opens
  · rw [read]
    rfl

theorem readValue_object {fields : List (List Char × Json)} {inner : List Char} (back : ReadsBack depth)
    (layouts : FieldLayouts fields inner) (blank : Blank blanks) (enough : inner.length < depth) (rest : List Char) :
    readValue (depth + 1) (blanks ++ '{' :: (inner ++ '}' :: rest)) = some (.object fields, rest) := by
  obtain ⟨others, starts⟩ := layouts.exists_skipBlanks_eq ('}' :: rest)
  have read := back.fields rest layouts enough
  rw [← readFields_skipBlanks, starts] at read
  rw [readValue, skipBlanks_append_cons blank rfl]
  simp only [starts]
  split
  · rename_i same
    cases (List.cons.inj same).1
  · rw [read]
    rfl

theorem readValue_succ (back : ReadsBack depth) {json : Json} {text : List Char} (layout : json.Layout text)
    (blank : Blank blanks) (apart : Apart rest) (enough : text.length ≤ depth + 1) :
    readValue (depth + 1) (blanks ++ (text ++ rest)) = some (json, rest) := by
  cases layout with
  | null | boolTrue | boolFalse =>
    simp only [List.cons_append, List.nil_append]
    rw [readValue, skipBlanks_append_cons blank rfl]
    rfl
  | number value => exact readValue_number depth value blank apart
  | string written => exact readValue_string depth written blank rest
  | emptyArray inside =>
    simp only [List.cons_append, List.append_assoc, List.nil_append]
    rw [readValue, skipBlanks_append_cons blank rfl]
    simp only [skipBlanks_append_cons inside (show isBlank ']' = false from rfl)]
  | emptyObject inside =>
    simp only [List.cons_append, List.append_assoc, List.nil_append]
    rw [readValue, skipBlanks_append_cons blank rfl]
    simp only [skipBlanks_append_cons inside (show isBlank '}' = false from rfl)]
  | array layouts =>
    simp only [List.length_cons, List.length_append, List.length_nil] at enough
    simp only [List.cons_append, List.append_assoc, List.nil_append]
    exact readValue_array back layouts blank (by omega) rest
  | object layouts =>
    simp only [List.length_cons, List.length_append, List.length_nil] at enough
    simp only [List.cons_append, List.append_assoc, List.nil_append]
    exact readValue_object back layouts blank (by omega) rest

theorem readElements_succ (back : ReadsBack depth) {elements : List Json} {inner : List Char} (rest : List Char)
    (layouts : ElementLayouts elements inner) (enough : inner.length < depth + 1) :
    readElements (depth + 1) (inner ++ ']' :: rest) = some (elements, rest) := by
  cases layouts with
  | last before layout after =>
    simp only [List.length_append] at enough
    have closes := apart_append after (apart_cons rest (show _ ∧ ']' ≠ '.' ∧ ']' ≠ 'e' ∧ ']' ≠ 'E' by decide))
    rw [readElements]
    simp only [List.append_assoc, back.value layout before closes (by omega), Option.bind_eq_bind, Option.bind_some,
      skipBlanks_append_cons after (show isBlank ']' = false from rfl)]
  | more before layout after layouts =>
    simp only [List.length_append, List.length_cons] at enough
    have read := back.elements rest layouts (by omega)
    have value (text : List Char) := back.value layout before (apart_append after (apart_comma text)) (by omega)
    rw [readElements]
    simp only [List.append_assoc, List.cons_append, value, Option.bind_eq_bind, Option.bind_some,
      skipBlanks_append_cons after (show isBlank ',' = false from rfl), read]
    rfl

theorem readFields_succ (back : ReadsBack depth) {fields : List (List Char × Json)} {inner : List Char}
    (rest : List Char) (layouts : FieldLayouts fields inner) (enough : inner.length < depth + 1) :
    readFields (depth + 1) (inner ++ '}' :: rest) = some (fields, rest) := by
  cases layouts with
  | last before written between gap layout after =>
    simp only [List.length_append, List.length_cons] at enough
    have closes := apart_append after (apart_cons rest (show _ ∧ '}' ≠ '.' ∧ '}' ≠ 'e' ∧ '}' ≠ 'E' by decide))
    rw [readFields]
    simp only [List.append_assoc, List.cons_append, readKey_quoted before written between,
      back.value layout gap closes (by omega), Option.bind_eq_bind, Option.bind_some,
      skipBlanks_append_cons after (show isBlank '}' = false from rfl)]
  | more before written between gap layout after layouts =>
    simp only [List.length_append, List.length_cons] at enough
    have read := back.fields rest layouts (by omega)
    have value (text : List Char) := back.value layout gap (apart_append after (apart_comma text)) (by omega)
    rw [readFields]
    simp only [List.append_assoc, List.cons_append, readKey_quoted before written between, value,
      Option.bind_eq_bind, Option.bind_some, skipBlanks_append_cons after (show isBlank ',' = false from rfl), read]
    rfl

end Step

theorem readsBack (depth : Nat) : ReadsBack depth := by
  induction depth with
  | zero =>
    refine ⟨?_, ?_, ?_⟩
    · -- no value has an empty text
      intro json text blanks rest layout _ _ enough
      obtain ⟨char, others, rfl, _⟩ := layout.exists_eq_cons
      cases enough
    · intros
      omega
    · intros
      omega
  | succ depth back => exact ⟨readValue_succ back, readElements_succ back, readFields_succ back⟩

/-- A text of the format is read as the tree that it is a text of. -/
theorem Document.parse?_eq {json : Json} {text : List Char} (document : json.Document text) :
    parse? text = some json := by
  obtain ⟨before, body, after, blank, layout, trailing, rfl⟩ := document
  have apart : Apart after := by
    have closed := apart_append trailing (show Apart [] from fun _ head => by cases head)
    rwa [List.append_nil] at closed
  have blanks : skipBlanks after = [] := by
    have skipped := skipBlanks_append trailing []
    rwa [List.append_nil] at skipped
  have enough : body.length ≤ 2 * (before ++ (body ++ after)).length + 2 := by
    simp only [List.length_append]
    omega
  rw [parse?, (readsBack _).value layout blank apart enough]
  simp only [Option.bind_eq_bind, Option.bind_some, blanks, List.isEmpty_nil, if_true]

end Monomorph.Json
