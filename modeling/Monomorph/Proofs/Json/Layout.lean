import Monomorph.Proofs.Json.Text

/-! The JSON format, and the indented form as one of its texts.

A text lays out a tree: values are separated by commas in brackets, and there may be blanks
between any two of its parts. Numbers are those without a sign, a fraction or an exponent.
The format is stated on its own, without a printer or a reader, so that both can be
compared with it.
-/

set_option autoImplicit false

namespace Monomorph.Json

def Blank (text : List Char) : Prop := ∀ char ∈ text, isBlank char = true

theorem blank_nil : Blank [] := fun _ member => absurd member List.not_mem_nil

theorem blank_line (level : Nat) : Blank ('\n' :: indentation level) := by
  intro char member
  rcases List.mem_cons.mp member with rfl | later
  · rfl
  · rw [List.eq_of_mem_replicate later]
    rfl

theorem blank_space : Blank [' '] := by
  intro char member
  rw [List.mem_singleton.mp member]
  rfl

mutual

/-- A text lays out a tree. -/
inductive Layout : Json → List Char → Prop where
  | null : Layout .null ['n', 'u', 'l', 'l']
  | boolTrue : Layout (.bool true) ['t', 'r', 'u', 'e']
  | boolFalse : Layout (.bool false) ['f', 'a', 'l', 's', 'e']
  | number (value : Nat) : Layout (.number (Nat.toDigits 10 value)) (Nat.toDigits 10 value)
  | string {text token : List Char} : Token text token → Layout (.string token) (quoted token)
  | emptyArray {blanks : List Char} : Blank blanks → Layout (.array []) ('[' :: (blanks ++ [']']))
  | array {elements : List Json} {inner : List Char} : ElementLayouts elements inner →
      Layout (.array elements) ('[' :: (inner ++ [']']))
  | emptyObject {blanks : List Char} : Blank blanks → Layout (.object []) ('{' :: (blanks ++ ['}']))
  | object {fields : List (List Char × Json)} {inner : List Char} : FieldLayouts fields inner →
      Layout (.object fields) ('{' :: (inner ++ ['}']))

/-- One element or more, between the brackets of an array. -/
inductive ElementLayouts : List Json → List Char → Prop where
  | last {element : Json} {before text after : List Char} : Blank before → Layout element text → Blank after →
      ElementLayouts [element] (before ++ (text ++ after))
  | more {element : Json} {rest : List Json} {before text after inner : List Char} : Blank before →
      Layout element text → Blank after → ElementLayouts rest inner →
      ElementLayouts (element :: rest) (before ++ (text ++ (after ++ ',' :: inner)))

inductive FieldLayouts : List (List Char × Json) → List Char → Prop where
  | last {name key : List Char} {value : Json} {before between gap text after : List Char} : Blank before →
      Token name key → Blank between → Blank gap → Layout value text → Blank after →
      FieldLayouts [(key, value)] (before ++ (quoted key ++ (between ++ ':' :: (gap ++ (text ++ after)))))
  | more {name key : List Char} {value : Json} {rest : List (List Char × Json)}
      {before between gap text after inner : List Char} : Blank before → Token name key → Blank between →
      Blank gap → Layout value text → Blank after → FieldLayouts rest inner →
      FieldLayouts ((key, value) :: rest)
        (before ++ (quoted key ++ (between ++ ':' :: (gap ++ (text ++ (after ++ ',' :: inner))))))

end

/-- A whole text of a tree, which may have blanks around it. -/
def Document (json : Json) (text : List Char) : Prop :=
  ∃ before body after, Blank before ∧ json.Layout body ∧ Blank after ∧ text = before ++ (body ++ after)

theorem Layout.document {json : Json} {text : List Char} (layout : json.Layout text) : json.Document text :=
  ⟨[], text, [], blank_nil, layout, blank_nil, by rw [List.nil_append, List.append_nil]⟩

/-- Trees whose tokens are those of texts and of natural numbers. -/
inductive Written : Json → Prop where
  | null : Written .null
  | bool (value : Bool) : Written (.bool value)
  | number (value : Nat) : Written (.number (Nat.toDigits 10 value))
  | string {text token : List Char} : Token text token → Written (.string token)
  | array {elements : List Json} : (∀ element ∈ elements, Written element) → Written (.array elements)
  | object {fields : List (List Char × Json)} :
      (∀ field ∈ fields, ∃ name, Token name field.1) → (∀ field ∈ fields, Written field.2) →
      Written (.object fields)

theorem elementLayouts_render (level outer : Nat) {first : Json} {others : List Json}
    (laidOut : ∀ element ∈ first :: others, element.Layout (element.render level)) :
    ElementLayouts (first :: others) ('\n' :: indentation level ++ (first.render level ++
      (renderElements level others ++ '\n' :: indentation outer))) := by
  induction others generalizing first with
  | nil =>
    rw [renderElements, List.nil_append]
    exact .last (blank_line level) (laidOut first List.mem_cons_self) (blank_line outer)
  | cons second others ih =>
    obtain ⟨here, later⟩ := List.forall_mem_cons.mp laidOut
    have layouts := ElementLayouts.more (blank_line level) here blank_nil (ih later)
    simpa only [renderElements, List.cons_append, List.append_assoc, List.nil_append] using layouts

theorem fieldLayouts_render (level outer : Nat) {key : List Char} {value : Json} {others : List (List Char × Json)}
    (named : ∀ field ∈ (key, value) :: others, ∃ name, Token name field.1)
    (laidOut : ∀ field ∈ (key, value) :: others, field.2.Layout (field.2.render level)) :
    FieldLayouts ((key, value) :: others) ('\n' :: indentation level ++ (quoted key ++ ':' :: ' ' ::
      (value.render level ++ (renderFields level others ++ '\n' :: indentation outer)))) := by
  induction others generalizing key value with
  | nil =>
    obtain ⟨name, token⟩ := named (key, value) List.mem_cons_self
    rw [renderFields, List.nil_append]
    exact .last (blank_line level) token blank_nil blank_space (laidOut (key, value) List.mem_cons_self)
      (blank_line outer)
  | cons second others ih =>
    obtain ⟨⟨name, token⟩, named⟩ := List.forall_mem_cons.mp named
    obtain ⟨here, later⟩ := List.forall_mem_cons.mp laidOut
    have layouts := FieldLayouts.more (blank_line level) token blank_nil blank_space here blank_nil (ih named later)
    simpa only [renderFields, List.cons_append, List.append_assoc, List.nil_append] using layouts

/-- The indented form of a tree lays it out. -/
theorem Written.layout_render {json : Json} (written : json.Written) (level : Nat) : json.Layout (json.render level) := by
  induction written generalizing level with
  | null => exact .null
  | bool value =>
    cases value
    · exact .boolFalse
    · exact .boolTrue
  | number value =>
    rw [render]
    exact .number value
  | string token =>
    rw [render]
    exact .string token
  | @array elements _ ih =>
    cases elements with
    | nil => exact .emptyArray blank_nil
    | cons first others =>
      have layout := Layout.array (elementLayouts_render (level + 1) level fun element member =>
        ih element member (level + 1))
      simpa only [render, List.cons_append, List.append_assoc] using layout
  | @object fields named _ ih =>
    cases fields with
    | nil => exact .emptyObject blank_nil
    | cons first others =>
      obtain ⟨key, value⟩ := first
      have layout := Layout.object (fieldLayouts_render (level + 1) level named fun field member =>
        ih field member (level + 1))
      simpa only [render, List.cons_append, List.append_assoc, List.nil_append] using layout

end Monomorph.Json
