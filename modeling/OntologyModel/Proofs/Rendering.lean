/-
The JSON text of a model says everything about it.

Each record is read back from its document, field by field, and the document of a model is
read back from its text.  So the text determines the model, whatever its strings hold.
-/
import OntologyModel.Proofs.Json.Rereading
import OntologyModel.Render.Document

namespace OntologyModel

open Json (Value)
open Json.Value (Plain)

/-! ## Reading documents -/

namespace Json.Value

def text? : Value → Option String
  | .text s => some s
  | _ => none

def optionalText? : Value → Option (Option String)
  | .null => some none
  | .text s => some (some s)
  | _ => none

def optionalCount? : Value → Option (Option UInt64)
  | .null => some none
  | .number (.whole (.ofNat n)) => some (some (UInt64.ofNat n))
  | _ => none

end Json.Value

def EnumValue.ofDocument? : Value → Option EnumValue
  | .object [("id", .text id), ("name", .text name), ("comment", .text comment)] =>
    some ⟨id, name, comment⟩
  | _ => none

def Enum.ofDocument? : Value → Option Enum
  | .object [("id", .text id), ("class_name", .text className), ("values", .array values),
      ("comment", .text comment)] => do
    return ⟨id, className, ← values.mapM EnumValue.ofDocument?, comment⟩
  | _ => none

def Range.ofDocument? : Value → Option Range
  | .object [("kind", .text "enum_ref"), ("enum_id", .text id)] => some (.enumeration id)
  | .object [("kind", .text "class_ref"), ("class_id", .text id)] => some (.structural id)
  | .object [("kind", .text "datatype"), ("datatype", .text iri), ("pattern", pattern)] => do
    return .datatype iri (← pattern.optionalText?)
  | _ => none

def Property.ofDocument? : Value → Option Property
  | .object [("path", .text path), ("name", .text name), ("comment", .text comment),
      ("min_count", minCount), ("max_count", maxCount), ("range", range)] => do
    return ⟨path, name, comment, ← minCount.optionalCount?, ← maxCount.optionalCount?,
      ← Range.ofDocument? range⟩
  | _ => none

def Class.ofDocument? : Value → Option Class
  | .object [("id", .text id), ("class_name", .text className), ("parent_ids", .array parentIds),
      ("derived_ids", .array derivedIds), ("properties", .array properties),
      ("comment", .text comment), ("id_property", idProperty), ("refable", .text refable)] => do
    return ⟨id, className, ← parentIds.mapM Value.text?, ← derivedIds.mapM Value.text?,
      ← properties.mapM Property.ofDocument?, comment, ← idProperty.optionalText?,
      ← Refable.ofWord? refable⟩
  | _ => none

def Model.ofDocument? : Value → Option Model
  | .object [("enums", .array enums), ("classes", .array classes)] => do
    return ⟨← enums.mapM Enum.ofDocument?, ← classes.mapM Class.ofDocument?⟩
  | _ => none

def Model.ofJson? (s : String) : Option Model := (Value.parse? s).bind ofDocument?

/-! ## Records -/

theorem mapM_map_eq_some {α β : Type} {f : α → β} {g : β → Option α} (h : ∀ a, g (f a) = some a)
    (l : List α) : (l.map f).mapM g = some l := by
  have hpure : g ∘ f = fun a => pure a := funext h
  rw [List.mapM_map, hpure, List.mapM_pure, List.map_id']
  rfl

theorem optionalText?_optionalText (s : Option String) :
    (optionalText s).optionalText? = some s := by
  cases s <;> rfl

theorem optionalCount?_optionalCount (n : Option UInt64) :
    (optionalCount n).optionalCount? = some n := by
  cases n with
  | none => rfl
  | some n => exact congrArg (fun n => some (some n)) UInt64.ofNat_toNat

theorem EnumValue.ofDocument?_document (v : EnumValue) : ofDocument? v.document = some v := rfl

theorem Enum.ofDocument?_document (e : Enum) : ofDocument? e.document = some e := by
  have hvalues := mapM_map_eq_some EnumValue.ofDocument?_document e.values
  simp only [document, ofDocument?, hvalues]
  rfl

theorem Range.ofDocument?_document (r : Range) : ofDocument? r.document = some r := by
  cases r with
  | enumeration id => rfl
  | structural id => rfl
  | datatype iri pattern =>
    simp only [document, ofDocument?, optionalText?_optionalText]
    rfl

theorem Property.ofDocument?_document (p : Property) : ofDocument? p.document = some p := by
  simp only [document, ofDocument?, optionalCount?_optionalCount, Range.ofDocument?_document]
  rfl

theorem Class.ofDocument?_document (c : Class) : ofDocument? c.document = some c := by
  have htexts (l : List String) : (l.map Value.text).mapM Value.text? = some l :=
    mapM_map_eq_some (f := Value.text) (fun _ => rfl) l
  have hproperties := mapM_map_eq_some Property.ofDocument?_document c.properties
  simp only [document, ofDocument?, htexts, hproperties, optionalText?_optionalText,
    Refable.ofWord?_word]
  rfl

theorem Model.ofDocument?_document (m : Model) : ofDocument? m.document = some m := by
  have henums := mapM_map_eq_some Enum.ofDocument?_document m.enums
  have hclasses := mapM_map_eq_some Class.ofDocument?_document m.classes
  simp only [document, ofDocument?, henums, hclasses]
  rfl

/-! ## Texts -/

section

variable {depth : Nat}

theorem plain_optionalText (s : Option String) : Plain depth (optionalText s) := by
  cases s with
  | none => exact .null
  | some s => exact .text s

theorem plain_optionalCount (n : Option UInt64) : Plain depth (optionalCount n) := by
  cases n with
  | none => exact .null
  | some n => exact .count n.toNat_lt_size

theorem plain_map {α : Type} {f : α → Value} (h : ∀ a, Plain depth (f a)) (l : List α) :
    Plain (depth + 1) (.array (l.map f)) := by
  refine .array fun v hv => ?_
  obtain ⟨a, -, rfl⟩ := List.mem_map.1 hv
  exact h a

theorem EnumValue.plain_document (v : EnumValue) : Plain (depth + 1) v.document :=
  .object (by simp [Plain.text])

theorem Enum.plain_document (e : Enum) : Plain (depth + 3) e.document :=
  .object (by simp [Plain.text, plain_map EnumValue.plain_document])

theorem Range.plain_document (r : Range) : Plain (depth + 1) r.document := by
  cases r with
  | enumeration id => exact .object (by simp [Plain.text])
  | structural id => exact .object (by simp [Plain.text])
  | datatype iri pattern => exact .object (by simp [Plain.text, plain_optionalText])

theorem Property.plain_document (p : Property) : Plain (depth + 2) p.document :=
  .object (by simp [Plain.text, plain_optionalCount, Range.plain_document])

theorem Class.plain_document (c : Class) : Plain (depth + 4) c.document :=
  .object (by simp [Plain.text, plain_optionalText, plain_map Plain.text,
    plain_map Property.plain_document])

theorem Model.plain_document (m : Model) : Plain (depth + 6) m.document :=
  .object (by simp [plain_map Enum.plain_document, plain_map Class.plain_document])

end

namespace Model

theorem ofJson?_render (m : Model) : ofJson? (m.render .json) = some m := by
  rw [ofJson?, render, Value.parse?_pretty m.plain_document, Option.bind_some,
    ofDocument?_document]

/-- A model is read back from its JSON text, so that different models have different
texts. -/
theorem json_lossless :
    (∀ m : Model, ofJson? (m.render .json) = some m) ∧
      Function.Injective fun m : Model => m.render .json := by
  refine ⟨ofJson?_render, fun m m' h => ?_⟩
  have htext : m.render .json = m'.render .json := h
  have hread := ofJson?_render m'
  rw [← htext, ofJson?_render] at hread
  exact Option.some.inj hread

/-- A model with characters that are escaped, the greatest count, and a pattern. -/
def escapes (pattern : Option String) : Model where
  enums := [⟨"\"", "\\", [⟨"", "\u0001\x08\x0c", "\n\r\t"⟩], "\x7f"⟩]
  classes :=
    [⟨"a", "a", ["b", "c"], [], [⟨"p", "p", "", none, some 18446744073709551615,
        .datatype "d" pattern⟩], "", some "", .always⟩]

/-- The pattern `null` is not taken for no pattern. -/
theorem json_lossless_escapes :
    ofJson? ((escapes none).render .json) = some (escapes none) ∧
      (escapes (some "null")).render .json ≠ (escapes none).render .json :=
  ⟨json_lossless.1 (escapes none), fun h => absurd (json_lossless.2 h) (by decide)⟩

end Model
end OntologyModel
