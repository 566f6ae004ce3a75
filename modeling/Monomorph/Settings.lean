import Monomorph.Constant.IntValue

/-! Settings of the pass. -/

set_option autoImplicit false

namespace Monomorph

structure Settings where
  /-- The width of integer literals that are written without one. -/
  defaultIntegerWidth : Nat := Monomorph.defaultIntegerWidth
  /-- How deep instances may nest that are first asked for by other instances. -/
  maxInstantiationDepth : Nat := 64
  deriving DecidableEq, Repr

inductive SettingsError where
  | unreadable
  | malformed
  | widthOutOfRange (width : Nat)
  | depthZero
  deriving DecidableEq, Repr

namespace SettingsError

/-- The text for a setting out of range; the other errors have none of their own. -/
def message? : SettingsError → Option String
  | unreadable | malformed => none
  | widthOutOfRange width =>
    some ("Invalid generics setting: default_integer_width must be between 1 and "
      ++ toString maxWidth ++ ", got " ++ toString width)
  | depthZero => some "Invalid generics setting: max_instantiation_depth must be at least 1"

end SettingsError

/-- Every setting is in its range; the width is looked at first. -/
def Settings.validate (settings : Settings) : Except SettingsError Settings :=
  if settings.defaultIntegerWidth = 0 ∨ maxWidth < settings.defaultIntegerWidth then
    .error (.widthOutOfRange settings.defaultIntegerWidth)
  else if settings.maxInstantiationDepth = 0 then .error .depthZero
  else .ok settings

end Monomorph
