/-
The settings of a run.

A value on the command line beats one of the settings file, and that a default.
Only the value that wins is looked at.  The output stands only on the command
line, prefixes and vocabulary only in the file.
-/
import OntologyModel.Context.Document
import OntologyModel.Settings.Choices
import OntologyModel.Settings.File

namespace OntologyModel

structure Settings where
  input : String
  output : Option String
  format : Format
  metadataNamespace : String
  context : Option String
  prefixes : List Binding
  vocabulary : Option String
deriving DecidableEq, Repr

namespace Settings

/-- Whether a namespace ends in a separator. -/
def isClosed (iri : String) : Bool :=
  iri.toList.getLast? = some '#' || iri.toList.getLast? = some '/'

def tableFault? : List Binding → Option SettingsError
  | [] => none
  | b :: rest =>
    if b.name = "" then some (.emptyName b.iri)
    else if b.iri = "" then some (.emptyIri b.name)
    else tableFault? rest

def inputFault? (files : Files) (path : String) : Option SettingsError :=
  if !files.hasEntry path then some (.missingInput path)
  else if !files.hasFile path then some (.inputNoFile path)
  else none

def contextFault? (files : Files) (path : String) : Option SettingsError :=
  if files.hasFile path then none else some (.contextNoFile path)

/-- The settings that choices and a settings file amount to, if nothing is wrong
with them. -/
def resolve (files : Files) (c : Choices) (f : FileSettings) : Except SettingsError Settings :=
  match c.input.or f.input with
  | none => .error .noInput
  | some input =>
    let metadataNamespace :=
      (c.metadataNamespace.or f.metadataNamespace).getD Vocabulary.defaultMetadataNamespace
    let context := c.context.or f.context
    match inputFault? files input with
    | some e => .error e
    | none =>
      if !isClosed metadataNamespace then .error (.openNamespace metadataNamespace)
      else
        match context.bind (contextFault? files) with
        | some e => .error e
        | none =>
          match tableFault? f.prefixes with
          | some e => .error e
          | none =>
            .ok ⟨input, c.output, (c.format.or f.format).getD .json, metadataNamespace, context,
              f.prefixes, f.vocabulary⟩

def ofChoices (files : Files) (c : Choices) : Except SettingsError Settings :=
  match c.settingsFile with
  | none => resolve files c .empty
  | some path =>
    match FileSettings.load files path with
    | .ok f => resolve files c f
    | .error e => .error e

/-! ## The context of a run -/

def withDocument (ns : Namespaces) (path : String) (document : Json.Value) :
    Except SettingsError Namespaces :=
  match Namespaces.ofDocument document with
  | .error cause => .error (.invalidContext path cause)
  | .ok other =>
    match (ns.merge other).toExcept with
    | .error cause => .error (.conflictingContext path cause)
    | .ok ns' => .ok ns'

def withPrefixes (ns : Namespaces) : List Binding → Except SettingsError Namespaces
  | [] => .ok ns
  | b :: rest =>
    match ns.register b.name b.iri with
    | .error cause => .error (.conflictingName b.name cause)
    | .ok ns' => withPrefixes ns' rest

/-- The context of the common prefixes, then those of a document, if there is one,
then configured ones.  A configured vocabulary takes the place of that of the
document. -/
def layered (document : Option (String × Json.Value)) (prefixes : List Binding)
    (vocabulary : Option String) : Except SettingsError Namespaces := do
  let ns ← match document with
    | some (path, v) => withDocument Namespaces.common path v
    | none => .ok Namespaces.common
  let ns ← withPrefixes ns prefixes
  match vocabulary with
  | some v => return ns.setVocabulary v
  | none => return ns

def document (files : Files) (path : String) : Except SettingsError Json.Value :=
  match files.read path with
  | .error cause => .error (.unreadableContext path cause)
  | .ok text =>
    match Json.Value.parse? text with
    | some v => .ok v
    | none => .error (.malformedContext path)

def namespaces (files : Files) (s : Settings) : Except SettingsError Namespaces :=
  match s.context with
  | none => layered none s.prefixes s.vocabulary
  | some path =>
    match document files path with
    | .error e => .error e
    | .ok v => layered (some (path, v)) s.prefixes s.vocabulary

end Settings
end OntologyModel
