import Monomorph.Json.Reader
import Monomorph.Pass.Outcome

/-! The report of the instances of a unit, written and read as JSON.

Fields may come in any order and unknown ones are skipped; each known field stands
there once. A record may also be an array of its fields in their order.
-/

set_option autoImplicit false

namespace Monomorph

structure InstanceRecord where
  name : String
  base : String
  id : UInt32
  arguments : List String
  deriving DecidableEq, Repr

structure Report where
  unit : String
  instances : List InstanceRecord
  deriving DecidableEq, Repr

namespace Json

def ofString (text : String) : Json := string (escape text.toList)

def toString? : Json → Option String
  | string token => do return String.ofList (← unescape? token)
  | _ => none

def ofId (id : UInt32) : Json := number (Nat.toDigits 10 id.toNat)

def toId? : Json → Option UInt32
  | number token =>
    if token.all Char.isDigit then
      let value := Nat.ofDigitChars 10 token 0
      if value < UInt32.size then some (UInt32.ofNat value) else none
    else none
  | _ => none

def toList? {α : Type} (decode : Json → Option α) : Json → Option (List α)
  | array elements => elements.mapM decode
  | _ => none

def decodeFields (fields : List (List Char × Json)) : Option (List (String × Json)) :=
  fields.mapM fun (key, value) => do return (String.ofList (← unescape? key), value)

def single? (fields : List (String × Json)) (name : String) : Option Json :=
  match fields.filter (·.1 = name) with
  | [(_, value)] => some value
  | _ => none

/-- The fields of a record, in the order of the names. -/
def toRecord? (names : List String) : Json → Option (List Json)
  | object fields => do
    let fields ← decodeFields fields
    names.mapM (single? fields)
  | array elements => if elements.length = names.length then some elements else none
  | _ => none

end Json

namespace InstanceRecord

def fieldNames : List String := ["name", "base", "id", "arguments"]

def toJson (record : InstanceRecord) : Json :=
  .object ((fieldNames.map (Json.escape ·.toList)).zip
    [.ofString record.name, .ofString record.base, .ofId record.id,
      .array (record.arguments.map .ofString)])

def ofJson? (json : Json) : Option InstanceRecord := do
  match ← json.toRecord? fieldNames with
  | [name, base, id, arguments] =>
    return ⟨← name.toString?, ← base.toString?, ← id.toId?, ← arguments.toList? Json.toString?⟩
  | _ => none

end InstanceRecord

namespace Report

def ofUnit (unit : InstantiatedUnit) : Report :=
  ⟨unit.name, unit.registry.toList.map fun (target, arguments) =>
    ⟨target.name, target.base, UInt32.ofNat target.id.number, arguments.map Value.text⟩⟩

def find? (report : Report) (name : String) : Option InstanceRecord :=
  report.instances.find? (·.name = name)

def fieldNames : List String := ["unit", "instances"]

def toJson (report : Report) : Json :=
  .object ((fieldNames.map (Json.escape ·.toList)).zip
    [.ofString report.unit, .array (report.instances.map InstanceRecord.toJson)])

def ofJson? (json : Json) : Option Report := do
  match ← json.toRecord? fieldNames with
  | [unit, instances] => return ⟨← unit.toString?, ← instances.toList? InstanceRecord.ofJson?⟩
  | _ => none

def text (report : Report) : String := String.ofList (report.toJson.render 0)

def parse? (text : String) : Option Report := do ofJson? (← Json.parse? text.toList)

end Report
end Monomorph
