import Monomorph.Settings
import Monomorph.Toml.Document

/-! Settings from the manifest of a project.

Only the table `generics` is read, and it may hold nothing but the two settings. An
array in its place gives the settings in their order.
-/

set_option autoImplicit false

namespace Monomorph.Settings

def natural? (bound : Nat) : Toml.Item → Option Nat
  | .integer value => if 0 ≤ value ∧ value < bound then some value.toNat else none
  | _ => none

def setWidth? (settings : Settings) (item : Toml.Item) : Option Settings := do
  return { settings with defaultIntegerWidth := ← natural? UInt32.size item }

def setDepth? (settings : Settings) (item : Toml.Item) : Option Settings := do
  return { settings with maxInstantiationDepth := ← natural? UInt64.size item }

def setEntry? (settings : Settings) : String × Toml.Item → Option Settings
  | ("default_integer_width", item) => settings.setWidth? item
  | ("max_instantiation_depth", item) => settings.setDepth? item
  | _ => none

/-- What is not set keeps its default. Elements after the second are not looked at. -/
def ofItem? : Toml.Item → Option Settings
  | .table _ entries => entries.foldlM setEntry? {}
  | .array [] => some {}
  | .array [width] => setWidth? {} width
  | .array (width :: depth :: _) => do setDepth? (← setWidth? {} width) depth
  | _ => none

def ofManifest (text : String) : Except SettingsError Settings :=
  match Toml.parse? text.toList with
  | none => .error .malformed
  | some root =>
    match root.lookup "generics" with
    | none => validate {}
    | some item =>
      match ofItem? item with
      | none => .error .malformed
      | some settings => settings.validate

def ofFile (contents : Option ByteArray) : Except SettingsError Settings :=
  match contents.bind String.fromUTF8? with
  | none => .error .unreadable
  | some text => ofManifest text

end Monomorph.Settings
