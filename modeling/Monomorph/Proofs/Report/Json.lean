import Monomorph.Proofs.Json.Reader
import Monomorph.Proofs.Result.Completion

/-! Reports as JSON texts.

A record is described by an object with its fields under their names, and a report by one with
its records. Nothing else is asked of a printer than that it writes some text of such a
tree, in whatever layout and with whatever escapes, and nothing else of a parser than that
it reads each of these texts. Then reports are read back as they were. The printer and the
parser of this library keep to the format.
-/

set_option autoImplicit false

namespace Monomorph

theorem mapM_eq_some {α β : Type} {each : α → Option β} {items : List α} {results : List β}
    (found : List.Forall₂ (fun item result => each item = some result) items results) :
    items.mapM each = some results := by
  induction found with
  | nil => rfl
  | cons here _ ih => simp [List.mapM_cons, here, ih]

namespace Json

inductive IsString (text : String) : Json → Prop where
  | intro {token : List Char} : Token text.toList token → IsString text (.string token)

/-- The objects with these fields, in this order. -/
inductive IsRecord (names : List String) (values : List Json) : Json → Prop where
  | intro {keys : List (List Char)} : List.Forall₂ (fun name key => Token name.toList key) names keys →
      names.length = values.length → IsRecord names values (.object (keys.zip values))

theorem isString_ofString (text : String) : IsString text (ofString text) := ⟨token_escape text.toList⟩

theorem IsString.toString?_eq {text : String} {json : Json} (isString : IsString text json) :
    json.toString? = some text := by
  obtain ⟨token⟩ := isString
  simp [toString?, token.unescape?_eq]

theorem toId?_ofId (id : UInt32) : (ofId id).toId? = some id := by
  have digits : (Nat.toDigits 10 id.toNat).all Char.isDigit = true := by
    rw [List.all_eq_true]
    intro digit member
    exact Nat.isDigit_of_mem_toDigits (by decide) (by decide) member
  have bound : id.toNat < UInt32.size := id.toNat_lt_size
  rw [ofId, toId?, if_pos digits]
  simp only [Nat.ofDigitChars_ten_toDigits, if_pos bound, UInt32.ofNat_toNat]

theorem toList?_eq {α : Type} {describes : α → Json → Prop} {decode : Json → Option α} {items : List α}
    {elements : List Json} (described : List.Forall₂ describes items elements)
    (decodes : ∀ item json, describes item json → decode json = some item) :
    toList? decode (.array elements) = some items :=
  mapM_eq_some (described.flip.imp fun json item describes => decodes item json describes)

theorem isRecord_zip {names : List String} {values : List Json} (complete : names.length = values.length) :
    IsRecord names values (.object ((names.map (escape ·.toList)).zip values)) := by
  refine ⟨?_, complete⟩
  rw [List.forall₂_map_right_iff, List.forall₂_same]
  exact fun name _ => token_escape name.toList

theorem single?_of_mem {fields : List (String × Json)} {name : String} {value : Json}
    (nodup : (fields.map Prod.fst).Nodup) (member : (name, value) ∈ fields) : single? fields name = some value := by
  rw [single?, filter_eq_singleton nodup member]

theorem decodeFields_zip {names : List String} {keys : List (List Char)}
    (named : List.Forall₂ (fun name key => Token name.toList key) names keys) (values : List Json) :
    decodeFields (keys.zip values) = some (names.zip values) := by
  apply mapM_eq_some
  induction named generalizing values with
  | nil => exact .nil
  | cons token _ ih =>
    cases values with
    | nil => exact .nil
    | cons value values => exact .cons (by simp [token.unescape?_eq]) (ih values)

theorem IsRecord.toRecord?_eq {names : List String} {values : List Json} {json : Json} (nodup : names.Nodup)
    (isRecord : IsRecord names values json) : json.toRecord? names = some values := by
  obtain ⟨named, complete⟩ := isRecord
  have distinct : ((names.zip values).map Prod.fst).Nodup := by
    rwa [List.map_fst_zip (Nat.le_of_eq complete)]
  have found : List.Forall₂ (fun name value => single? (names.zip values) name = some value) names values :=
    List.forall₂_iff_zip.mpr ⟨complete, fun member => single?_of_mem distinct member⟩
  rw [toRecord?, decodeFields_zip named]
  exact mapM_eq_some found

theorem IsString.written {text : String} {json : Json} (isString : IsString text json) : json.Written := by
  obtain ⟨token⟩ := isString
  exact .string token

theorem written_array {α : Type} {describes : α → Json → Prop} {items : List α} {elements : List Json}
    (described : List.Forall₂ describes items elements) (written : ∀ item json, describes item json → json.Written) :
    (array elements).Written := by
  apply Written.array
  intro element member
  obtain ⟨item, _, describes⟩ := exists_left_of_forall₂ described member
  exact written item element describes

theorem IsRecord.written {names : List String} {values : List Json} {json : Json} (isRecord : IsRecord names values json)
    (written : ∀ value ∈ values, value.Written) : json.Written := by
  obtain ⟨named, _⟩ := isRecord
  apply Written.object
  · rintro ⟨key, value⟩ member
    obtain ⟨name, _, token⟩ := exists_left_of_forall₂ named (List.of_mem_zip member).1
    exact ⟨name.toList, token⟩
  · rintro ⟨key, value⟩ member
    exact written value (List.of_mem_zip member).2

end Json

namespace InstanceRecord

/-- The trees of a record. -/
inductive Describes (record : InstanceRecord) : Json → Prop where
  | intro {json name base : Json} {arguments : List Json} : Json.IsString record.name name →
      Json.IsString record.base base → List.Forall₂ Json.IsString record.arguments arguments →
      Json.IsRecord fieldNames [name, base, .number (Nat.toDigits 10 record.id.toNat), .array arguments] json →
      Describes record json

theorem describes_toJson (record : InstanceRecord) : record.Describes record.toJson := by
  refine .intro (Json.isString_ofString _) (Json.isString_ofString _) ?_ (Json.isRecord_zip rfl)
  rw [List.forall₂_map_right_iff, List.forall₂_same]
  exact fun argument _ => Json.isString_ofString argument

variable {record : InstanceRecord} {json : Json}

theorem Describes.written (describes : record.Describes json) : json.Written := by
  obtain ⟨name, base, arguments, isRecord⟩ := describes
  apply isRecord.written
  simp [name.written, base.written, Json.Written.number, Json.written_array arguments fun _ _ => Json.IsString.written]

theorem Describes.ofJson?_eq (describes : record.Describes json) : ofJson? json = some record := by
  obtain ⟨name, base, arguments, isRecord⟩ := describes
  have fields := isRecord.toRecord?_eq (by decide)
  have id := Json.toId?_ofId record.id
  rw [Json.ofId] at id
  simp [ofJson?, fields, name.toString?_eq, base.toString?_eq, id,
    Json.toList?_eq arguments fun _ _ => Json.IsString.toString?_eq]

end InstanceRecord

namespace Report

inductive Describes (report : Report) : Json → Prop where
  | intro {json unit : Json} {instances : List Json} : Json.IsString report.unit unit →
      List.Forall₂ InstanceRecord.Describes report.instances instances →
      Json.IsRecord fieldNames [unit, .array instances] json → Describes report json

theorem describes_toJson (report : Report) : report.Describes report.toJson := by
  refine .intro (Json.isString_ofString _) ?_ (Json.isRecord_zip rfl)
  rw [List.forall₂_map_right_iff, List.forall₂_same]
  exact fun record _ => record.describes_toJson

variable {report : Report} {json : Json}

theorem Describes.written (describes : report.Describes json) : json.Written := by
  obtain ⟨unit, instances, isRecord⟩ := describes
  apply isRecord.written
  simp [unit.written, Json.written_array instances fun _ _ => InstanceRecord.Describes.written]

theorem Describes.ofJson?_eq (describes : report.Describes json) : ofJson? json = some report := by
  obtain ⟨unit, instances, isRecord⟩ := describes
  have fields := isRecord.toRecord?_eq (by decide)
  simp [ofJson?, fields, unit.toString?_eq, Json.toList?_eq instances fun _ _ => InstanceRecord.Describes.ofJson?_eq]

/-- A printer that writes a text of the format for each report. -/
def Writes (print : Report → String) : Prop :=
  ∀ report, ∃ json, Describes report json ∧ json.Document (print report).toList

/-- A parser that reads each text of the format as the report that it is a text of. -/
def Reads (parse : String → Option Report) : Prop :=
  ∀ report json text, Describes report json → json.Document text.toList → parse text = some report

theorem writes_text : Writes text := by
  intro report
  have describes := report.describes_toJson
  refine ⟨report.toJson, describes, ?_⟩
  rw [text, String.toList_ofList]
  exact (describes.written.layout_render 0).document

theorem reads_parse? : Reads parse? := by
  intro report json text describes document
  rw [parse?, document.parse?_eq]
  exact describes.ofJson?_eq

theorem parse_of_writes {print : Report → String} {parse : String → Option Report} (writes : Writes print)
    (reads : Reads parse) (report : Report) : parse (print report) = some report := by
  obtain ⟨json, describes, document⟩ := writes report
  exact reads report json (print report) describes document

theorem parse?_text (report : Report) : parse? report.text = some report :=
  parse_of_writes writes_text reads_parse? report

/-- Whatever printer and parser keep to the format, as those of this library do, every report is read back
from what is printed for it. -/
theorem parse_print : (∀ (print : Report → String) (parse : String → Option Report), Writes print → Reads parse →
    ∀ report, parse (print report) = some report) ∧ Writes text ∧ Reads parse? :=
  ⟨fun _ _ writes reads => parse_of_writes writes reads, writes_text, reads_parse?⟩

end Report
end Monomorph
