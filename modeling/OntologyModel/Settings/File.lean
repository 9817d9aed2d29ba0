/-
Settings files.

A settings file is a JSON or YAML document with up to six fields, each at most
once; a list of six values in their order is as good.  Fields may be null, except
that the prefixes are a table.  In a table the last of several values of a name
counts, in the place of the first.
-/
import OntologyModel.Json.Reader
import OntologyModel.Render.Document
import OntologyModel.Settings.Error
import OntologyModel.Yaml.Reader

namespace OntologyModel

structure FileSettings where
  input : Option String
  prefixes : List Binding
  vocabulary : Option String
  metadataNamespace : Option String
  context : Option String
  format : Option Format
deriving DecidableEq, Repr

/-- A kind of values that can hold settings: what a value stands for as an optional
text, as a table, or as an optional format. -/
class SettingValue (ν : Type) where
  optionalText? : ν → Option (Option String)
  table? : ν → Option (List (String × String))
  optionalFormat? : ν → Option (Option Format)

namespace FileSettings

def empty : FileSettings := ⟨none, [], none, none, none, none⟩

/-- Puts a binding in the place of the one of that name, or at the end. -/
def putBinding (bs : List Binding) (name iri : String) : List Binding :=
  if (bs.map Binding.name).contains name then
    bs.map fun b => if b.name = name then ⟨name, iri⟩ else b
  else bs ++ [⟨name, iri⟩]

def bindings (table : List (String × String)) : List Binding :=
  table.foldl (fun bs e => putBinding bs e.1 e.2) []

def fieldNames : List String :=
  ["input", "prefixes", "vocab", "metadata_namespace", "context", "format"]

variable {ν : Type} [SettingValue ν]

def setField (s : FileSettings) (name : String) (v : ν) : Option FileSettings :=
  match name with
  | "input" => (SettingValue.optionalText? v).map fun input => { s with input }
  | "prefixes" => (SettingValue.table? v).map fun t => { s with prefixes := bindings t }
  | "vocab" => (SettingValue.optionalText? v).map fun vocabulary => { s with vocabulary }
  | "metadata_namespace" =>
    (SettingValue.optionalText? v).map fun metadataNamespace => { s with metadataNamespace }
  | "context" => (SettingValue.optionalText? v).map fun context => { s with context }
  | "format" => (SettingValue.optionalFormat? v).map fun format => { s with format }
  | _ => none

def setFields (s : FileSettings) : List (String × ν) → Option FileSettings
  | [] => some s
  | (name, v) :: rest => (s.setField name v).bind fun s' => setFields s' rest

def ofFields? (fields : List (String × ν)) : Option FileSettings :=
  if (fields.map Prod.fst).Nodup then empty.setFields fields else none

def ofItems? (items : List ν) : Option FileSettings :=
  if items.length = fieldNames.length then empty.setFields (fieldNames.zip items) else none

end FileSettings

/-! ## JSON -/

namespace Json.Value

def textMembers? : List (String × Value) → Option (List (String × String))
  | [] => some []
  | (name, .text s) :: rest => (textMembers? rest).map ((name, s) :: ·)
  | _ => none

instance : SettingValue Value where
  optionalText?
    | .null => some none
    | .text s => some (some s)
    | _ => none
  table?
    | .object members => textMembers? members
    | _ => none
  optionalFormat?
    | .null => some none
    | .text s => (Format.ofWord? s).map some
    | .object [(name, .null)] => (Format.ofWord? name).map some
    | _ => none

def settings? : Value → Option FileSettings
  | .object members => FileSettings.ofFields? members
  | .array items => FileSettings.ofItems? items
  | _ => none

end Json.Value

/-! ## YAML -/

namespace Yaml.Node

def textEntries? : List (Node × Node) → Option (List (String × String))
  | [] => some []
  | (.scalar _ _ name, .scalar _ _ s) :: rest => (textEntries? rest).map ((name, s) :: ·)
  | _ => none

def namedEntries? : List (Node × Node) → Option (List (String × Node))
  | [] => some []
  | (.scalar _ _ name, v) :: rest => (namedEntries? rest).map ((name, v) :: ·)
  | _ => none

/-- What a node stands for where a value may be missing; a tag of null asks for a
word for it. -/
def present? : Node → Option (Option Node)
  | .scalar true none s =>
    some (if s = "" || isNullWord s then none else some (.scalar true none s))
  | .scalar true (some tag) s =>
    if tag = nullTag then (if isNullWord s then some none else none)
    else some (some (.scalar true (some tag) s))
  | n => some (some n)

/-- The format that a node names, by its text or by its tag. -/
def format? : Node → Option Format
  | .scalar _ none s => Format.ofWord? s
  | .scalar plain (some tag) s =>
    if plain && (s = "" || isNullWord s) then
      Format.ofWord? (match tag.toList with
        | '!' :: name => String.ofList name
        | _ => tag)
    else none
  | _ => none

instance : SettingValue Node where
  optionalText? n :=
    match n.present? with
    | some (some n) => n.text?.map some
    | some none => some none
    | none => none
  table? n :=
    match n with
    | .mapping entries => textEntries? entries
    | n => if n.isEmpty then some [] else none
  optionalFormat? n :=
    match n.present? with
    | some (some n) => n.format?.map some
    | some none => some none
    | none => none

def settings? : Node → Option FileSettings
  | .mapping entries => (namedEntries? entries).bind FileSettings.ofFields?
  | .sequence items => FileSettings.ofItems? items
  | n => if n.isEmpty then some .empty else none

end Yaml.Node

namespace FileSettings

def ofJson? (text : String) : Option FileSettings :=
  (Json.Value.parse? text).bind Json.Value.settings?

/-- The settings of a YAML text, which may hold no document. -/
def ofYaml? (text : String) : Option FileSettings :=
  match Yaml.document? text with
  | some (some n) => n.settings?
  | some none => some empty
  | none => none

def ofText (path text : String) : Except SettingsError FileSettings :=
  let extension := Text.lower ((Path.extension? path).getD "")
  if extension = "yaml" || extension = "yml" then
    match ofYaml? text with
    | some s => .ok s
    | none => .error (.malformedFile path "YAML")
  else if extension = "json" then
    match ofJson? text with
    | some s => .ok s
    | none => .error (.malformedFile path "JSON")
  else .error (.unsupportedExtension extension)

def load (files : Files) (path : String) : Except SettingsError FileSettings :=
  if files.hasEntry path then
    match files.read path with
    | .ok text => ofText path text
    | .error cause => .error (.unreadableFile path cause)
  else .error (.missingFile path)

end FileSettings
end OntologyModel
