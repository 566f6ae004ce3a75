/-! TOML documents as trees, and how they are put together.

A table can be opened by its own header, come about because a longer header or a
dotted key passes through it, or be written inline. Which of these it was decides
what may still be added to it: every table is defined in one way, and only once.
-/

set_option autoImplicit false

namespace Monomorph.Toml

inductive TableKind where
  /-- Written in braces; it is complete. -/
  | inline
  /-- Opened by its own header. -/
  | header
  /-- Passed through by a longer header. -/
  | implicit
  /-- Made by a dotted key. -/
  | dotted
  deriving DecidableEq, Repr

/-- Floats and dates are recognised, but their values are not kept. -/
inductive Item where
  | string (text : String)
  | integer (value : Int)
  | float
  | boolean (value : Bool)
  | datetime
  | array (elements : List Item)
  | table (kind : TableKind) (entries : List (String × Item))
  /-- An array of tables, made by headers in double brackets. -/
  | tables (elements : List (List (String × Item)))
  deriving Repr

abbrev Entries := List (String × Item)

structure KeyPath where
  parents : List String
  key : String
  deriving DecidableEq, Repr

namespace Entries

def set (entries : Entries) (key : String) (item : Item) : Entries :=
  match entries with
  | [] => [(key, item)]
  | (other, old) :: rest =>
    if other = key then (key, item) :: rest else (other, old) :: set rest key item

def setLast (change : Entries → Option Entries) : List Entries → Option (List Entries)
  | [] => none
  | [last] => do return [← change last]
  | first :: rest => do return first :: (← setLast change rest)

/-- Add a value under a dotted key. The tables on the way must not have been opened by
a header, and the table that gets the value must have been made by a dotted key. -/
def insert (value : Item) (key : String) : List String → Entries → Option Entries
  | [], entries => if entries.any (·.1 = key) then none else some (entries ++ [(key, value)])
  | next :: path, entries =>
    match entries.lookup next with
    | none => do
      let inner ← insert value key path []
      return entries.set next (.table .dotted inner)
    | some (.table .dotted inner) => do
      let inner ← insert value key path inner
      return entries.set next (.table .dotted inner)
    | some (.table .implicit inner) => do
      -- it may lead on to a dotted table, but takes no value itself
      if path.isEmpty then none
      let inner ← insert value key path inner
      return entries.set next (.table .implicit inner)
    | some (.tables elements) => do
      if path.isEmpty then none
      let elements ← setLast (insert value key path) elements
      return entries.set next (.tables elements)
    | some _ => none

def insertAll (entries : Entries) (values : List (KeyPath × Item)) : Option Entries :=
  values.foldlM (fun entries (path, value) => entries.insert value path.key path.parents) entries

/-- Go down to where a header leads and make its table from what is there. -/
def place (make : Option Item → Option Item) (key : String) : List String → Entries → Option Entries
  | [], entries => do
    let item ← make (entries.lookup key)
    return entries.set key item
  | next :: path, entries =>
    match entries.lookup next with
    | none => do
      let inner ← place make key path []
      return entries.set next (.table .implicit inner)
    | some (.table .inline _) => none
    | some (.table kind inner) => do
      let inner ← place make key path inner
      return entries.set next (.table kind inner)
    | some (.tables elements) => do
      let elements ← setLast (place make key path) elements
      return entries.set next (.tables elements)
    | some _ => none

end Entries

inductive Header where
  | start
  | table (path : KeyPath)
  | element (path : KeyPath)
  deriving DecidableEq, Repr

structure Block where
  header : Header
  values : List (KeyPath × Item)

namespace Block

/-- The table of a header in single brackets. It may have been passed through before. -/
def openTable (block : Block) : Option Item → Option Item
  | none => do return .table .header (← Entries.insertAll [] block.values)
  | some (.table .implicit inner) => do return .table .header (← Entries.insertAll inner block.values)
  | some _ => none

def addElement (block : Block) : Option Item → Option Item
  | none => do return .tables [← Entries.insertAll [] block.values]
  | some (.tables elements) => do return .tables (elements ++ [← Entries.insertAll [] block.values])
  | some _ => none

def addTo (block : Block) (root : Entries) : Option Entries :=
  match block.header with
  | .start => Entries.insertAll root block.values
  | .table path => Entries.place block.openTable path.key path.parents root
  | .element path => Entries.place block.addElement path.key path.parents root

end Block
end Monomorph.Toml
