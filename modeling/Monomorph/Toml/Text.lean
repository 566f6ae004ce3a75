import Monomorph.Text.Hexadecimal
import Monomorph.Toml.Tree

/-! Blanks, comments, strings and keys of TOML texts.

Readers take the text that is left and give back what follows the part they have
read. A line ends with a line feed, which a carriage return may precede.
-/

set_option autoImplicit false

namespace Monomorph.Toml

def isBlank (char : Char) : Bool := char = ' ' || char = '\t'

/-- Characters that may stand in comments: all but control characters, tabs excepted. -/
def isPrintable (char : Char) : Bool :=
  char = '\t' || (0x20 ≤ char.toNat && char.toNat != 0x7F)

def skipBlanks (text : List Char) : List Char := text.dropWhile isBlank

def skipComment : List Char → List Char
  | '#' :: rest => rest.dropWhile isPrintable
  | text => text

def readLineEnd : List Char → Option (List Char)
  | [] => some []
  | '\n' :: rest => some rest
  | '\r' :: '\n' :: rest => some rest
  | _ => none

def readLineRest (text : List Char) : Option (List Char) := readLineEnd (skipComment (skipBlanks text))

def skipLines : List Char → List Char
  | ' ' :: rest => skipLines rest
  | '\t' :: rest => skipLines rest
  | '\n' :: rest => skipLines rest
  | '\r' :: '\n' :: rest => skipLines rest
  | text => text

def skipFiller (inComment : Bool) : List Char → List Char
  | [] => []
  | '\n' :: rest => skipFiller false rest
  | '\r' :: '\n' :: rest => skipFiller false rest
  | char :: rest =>
    if inComment && isPrintable char then skipFiller true rest
    else if !inComment && isBlank char then skipFiller false rest
    else if !inComment && char = '#' then skipFiller true rest
    else char :: rest

def unescapeChar? : Char → Option Char
  | '"' => some '"'
  | '\\' => some '\\'
  | 'b' => some '\x08'
  | 'f' => some '\x0c'
  | 'n' => some '\n'
  | 'r' => some '\r'
  | 't' => some '\t'
  | _ => none

/-- The character of a code point, which no surrogate is. -/
def scalar? (code : Nat) : Option Char := if code.isValidChar then some (Char.ofNat code) else none

def readEscape : List Char → Option (Char × List Char)
  | 'u' :: a :: b :: c :: d :: rest => do return (← scalar? (← hexUnit? a b c d), rest)
  | 'U' :: a :: b :: c :: d :: e :: f :: g :: h :: rest => do
    return (← scalar? ((← hexUnit? a b c d) * 0x10000 + (← hexUnit? e f g h)), rest)
  | letter :: rest => do return (← unescapeChar? letter, rest)
  | [] => none

theorem readEscape_length {text rest : List Char} {char : Char}
    (read : readEscape text = some (char, rest)) : rest.length < text.length := by
  unfold readEscape at read
  split at read <;> simp [Option.bind_eq_some_iff] at read
  · obtain ⟨_, _, _, _, _, rfl⟩ := read; simp; omega
  · obtain ⟨_, _, _, _, _, _, _, rfl⟩ := read; simp; omega
  · obtain ⟨_, _, _, rfl⟩ := read; simp

def readBasic (text : List Char) : Option (List Char × List Char) :=
  match text with
  | [] => none
  | '"' :: rest => some ([], rest)
  | '\\' :: rest =>
    match _read : readEscape rest with
    | none => none
    | some (char, rest) => do
      let (content, rest) ← readBasic rest
      return (char :: content, rest)
  | char :: rest => do
    if !isPrintable char then none
    let (content, rest) ← readBasic rest
    return (char :: content, rest)
termination_by text.length
decreasing_by
  · have := readEscape_length _read
    simp only [List.length_cons]
    omega
  · simp only [List.length_cons]
    omega

def readVerbatim : List Char → Option (List Char × List Char)
  | [] => none
  | '\x27' :: rest => some ([], rest)
  | char :: rest => do
    if !isPrintable char then none
    let (content, rest) ← readVerbatim rest
    return (char :: content, rest)

theorem skipLines_length (text : List Char) : (skipLines text).length ≤ text.length := by
  fun_induction skipLines text <;> simp <;> omega

/-- A backslash at the end of a line takes the blanks and lines after it with it. -/
def readContinuation (text : List Char) : Option (List Char) :=
  match skipBlanks text with
  | '\n' :: rest => some (skipLines rest)
  | '\r' :: '\n' :: rest => some (skipLines rest)
  | _ => none

theorem readContinuation_length {text rest : List Char} (read : readContinuation text = some rest) :
    rest.length ≤ text.length := by
  have shorter : (skipBlanks text).length ≤ text.length := (List.dropWhile_sublist _).length_le
  unfold readContinuation at read
  split at read
  · next rest' same =>
    have := skipLines_length rest'
    rw [same] at shorter
    cases read; simp at shorter; omega
  · next rest' same =>
    have := skipLines_length rest'
    rw [same] at shorter
    cases read; simp at shorter; omega
  · simp at read

/-- The rest of a string of several lines with escapes. One or two quotes may stand
before the closing ones. -/
def readBasicLines (text : List Char) : Option (List Char × List Char) :=
  match text with
  | [] => none
  | '"' :: '"' :: '"' :: '"' :: '"' :: rest => some (['"', '"'], rest)
  | '"' :: '"' :: '"' :: '"' :: rest => some (['"'], rest)
  | '"' :: '"' :: '"' :: rest => some ([], rest)
  | '\r' :: '\n' :: rest => do
    let (content, rest) ← readBasicLines rest
    return ('\n' :: content, rest)
  | '\\' :: rest =>
    match _continued : readContinuation rest with
    | some rest => readBasicLines rest
    | none =>
      match _read : readEscape rest with
      | none => none
      | some (char, rest) => do
        let (content, rest) ← readBasicLines rest
        return (char :: content, rest)
  | char :: rest => do
    if !isPrintable char && char != '\n' then none
    let (content, rest) ← readBasicLines rest
    return (char :: content, rest)
termination_by text.length
decreasing_by
  · simp only [List.length_cons]
    omega
  · have := readContinuation_length _continued
    simp only [List.length_cons]
    omega
  · have := readEscape_length _read
    simp only [List.length_cons]
    omega
  · simp only [List.length_cons]
    omega

def readVerbatimLines : List Char → Option (List Char × List Char)
  | [] => none
  | '\x27' :: '\x27' :: '\x27' :: '\x27' :: '\x27' :: rest => some (['\x27', '\x27'], rest)
  | '\x27' :: '\x27' :: '\x27' :: '\x27' :: rest => some (['\x27'], rest)
  | '\x27' :: '\x27' :: '\x27' :: rest => some ([], rest)
  | '\r' :: '\n' :: rest => do
    let (content, rest) ← readVerbatimLines rest
    return ('\n' :: content, rest)
  | char :: rest => do
    if !isPrintable char && char != '\n' then none
    let (content, rest) ← readVerbatimLines rest
    return (char :: content, rest)

def dropLineEnd : List Char → List Char
  | '\n' :: rest => rest
  | '\r' :: '\n' :: rest => rest
  | text => text

def readString : List Char → Option (List Char × List Char)
  | '"' :: '"' :: '"' :: rest => readBasicLines (dropLineEnd rest)
  | '"' :: rest => readBasic rest
  | '\x27' :: '\x27' :: '\x27' :: rest => readVerbatimLines (dropLineEnd rest)
  | '\x27' :: rest => readVerbatim rest
  | _ => none

def isBareKey (char : Char) : Bool := char.isAlphanum || char = '_' || char = '-'

def readKeyPart : List Char → Option (List Char × List Char)
  | '"' :: rest => readBasic rest
  | '\x27' :: rest => readVerbatim rest
  | text =>
    let part := text.takeWhile isBareKey
    if part.isEmpty then none else some (part, text.dropWhile isBareKey)

def nestingLimit : Nat := 79

def readKeyParts : Nat → List Char → Option (List String × List Char)
  | 0, _ => none
  | parts + 1, text => do
    let (part, rest) ← readKeyPart (skipBlanks text)
    match skipBlanks rest with
    | '.' :: rest => do
      let (path, rest) ← readKeyParts parts rest
      return (String.ofList part :: path, rest)
    | rest => return ([String.ofList part], rest)

def KeyPath.ofParts? (parts : List String) : Option KeyPath := do
  return ⟨parts.dropLast, ← parts.getLast?⟩

def readKey (text : List Char) : Option (KeyPath × List Char) := do
  let (parts, rest) ← readKeyParts nestingLimit text
  return (← KeyPath.ofParts? parts, rest)

end Monomorph.Toml
