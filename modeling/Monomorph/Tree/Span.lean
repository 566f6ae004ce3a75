/-! Positions in source files.

A position is printed as it was given. Two positions are the same place when
their files have the same path components, so `a//b` and `a/./b` name one file.
-/

set_option autoImplicit false

namespace Monomorph

/-- A line and column of a source file. Line zero marks an unknown position. -/
structure Span where
  file : Option String
  line : Nat
  column : Nat
  deriving DecidableEq, Repr

namespace Span

def unknown : Span := ⟨none, 0, 0⟩

def isKnown (span : Span) : Bool := span.line != 0

def text (span : Span) : String :=
  span.file.getD "<unknown>" ++ ":" ++ toString span.line ++ ":" ++ toString span.column

end Span

inductive PathComponent where
  | root
  | here
  | name (text : String)
  deriving DecidableEq, Repr

namespace PathComponent

/-- The steps of a path. Repeated and trailing separators are ignored, and so is
a `.` that does not open a relative path. -/
def ofPath (path : String) : List PathComponent :=
  let pieces := path.splitOn "/"
  let start := match pieces with
    | "" :: _ :: _ => [root]
    | "." :: _ => [here]
    | _ => []
  start ++ (pieces.filter fun piece => piece != "" && piece != ".").map name

end PathComponent

namespace Span

def samePlace (first second : Span) : Bool :=
  first.file.map PathComponent.ofPath == second.file.map PathComponent.ofPath
    && first.line == second.line && first.column == second.column

end Span
end Monomorph
