import Monomorph.Toml.Number

/-! Values and lines of TOML documents.

Arrays and inline tables nest up to the limit. The lines of a document are cut
into blocks at its headers, and the blocks are put together one after another.
-/

set_option autoImplicit false

namespace Monomorph.Toml

abbrev ValueReader := List Char → Option (Item × List Char)

/-- At most so many elements up to the closing bracket. A comma may follow the last one. -/
def readElements (readValue : ValueReader) : Nat → List Char → Option (List Item × List Char)
  | 0, _ => none
  | count + 1, text =>
    match skipFiller false text with
    | ']' :: rest => some ([], rest)
    | text => do
      let (first, text) ← readValue text
      match skipFiller false text with
      | ']' :: text => some ([first], text)
      | ',' :: text => do
        let (rest, text) ← readElements readValue count text
        return (first :: rest, text)
      | _ => none

def readEntry (readValue : ValueReader) (text : List Char) : Option ((KeyPath × Item) × List Char) := do
  let (path, text) ← readKey text
  match text with
  | '=' :: text => do
    let (value, text) ← readValue (skipBlanks text)
    return ((path, value), text)
  | _ => none

def readInline (readValue : ValueReader) : Nat → List Char → Option (List (KeyPath × Item) × List Char)
  | 0, _ => none
  | count + 1, text => do
    let (first, text) ← readEntry readValue text
    match skipBlanks text with
    | '}' :: text => some ([first], text)
    | ',' :: text => do
      let (rest, text) ← readInline readValue count text
      return (first :: rest, text)
    | _ => none

def readScalar : ValueReader
  | 't' :: 'r' :: 'u' :: 'e' :: rest => some (.boolean true, rest)
  | 'f' :: 'a' :: 'l' :: 's' :: 'e' :: rest => some (.boolean false, rest)
  | text =>
    match readString text with
    | some (content, rest) => some (.string (String.ofList content), rest)
    | none => readNumberOrDate text

def readValue : Nat → ValueReader
  | 0, text => readScalar text
  | depth + 1, text =>
    match text with
    | '[' :: rest => do
      let (elements, rest) ← readElements (readValue depth) rest.length rest
      return (.array elements, rest)
    | '{' :: rest =>
      match skipBlanks rest with
      | '}' :: rest => some (.table .inline [], rest)
      | _ => do
        let (values, rest) ← readInline (readValue depth) rest.length rest
        return (.table .inline (← Entries.insertAll [] values), rest)
    | text => readScalar text

inductive Line where
  | header (header : Header)
  | entry (path : KeyPath) (value : Item)

def readLine (text : List Char) : Option (Option Line × List Char) :=
  match skipBlanks text with
  | '[' :: '[' :: text => do
    let (path, text) ← readKey text
    match text with
    | ']' :: ']' :: text => do return (some (.header (.element path)), ← readLineRest text)
    | _ => none
  | '[' :: text => do
    let (path, text) ← readKey text
    match text with
    | ']' :: text => do return (some (.header (.table path)), ← readLineRest text)
    | _ => none
  | text =>
    match readLineRest text with
    | some text => some (none, text)
    | none => do
      let ((path, value), text) ← readEntry (readValue nestingLimit) text
      return (some (.entry path value), ← readLineRest text)

def readLines : Nat → List Char → Option (List Line)
  | _, [] => some []
  | 0, _ :: _ => none
  | count + 1, text => do
    let (line, text) ← readLine text
    return line.toList ++ (← readLines count text)

/-- The block at the start of the lines, and the blocks that follow it. -/
def blocks (header : Header) : List Line → Block × List Block
  | [] => (⟨header, []⟩, [])
  | .header next :: lines =>
    let (block, rest) := blocks next lines
    (⟨header, []⟩, block :: rest)
  | .entry path value :: lines =>
    let (block, rest) := blocks header lines
    ({ block with values := (path, value) :: block.values }, rest)

def dropMark : List Char → List Char
  | '\uFEFF' :: text => text
  | text => text

def parse? (text : List Char) : Option Entries := do
  let text := dropMark text
  let lines ← readLines text.length text
  let (first, rest) := blocks .start lines
  (first :: rest).foldlM (fun root block => block.addTo root) []

end Monomorph.Toml
