/-
The command line and its environment.

An option is given by its word or letter, with its value attached or in the next
argument, and at most once.  A value that stands in an argument of its own is
looked at when the next option has been recognised, so that an unknown argument
is complained about first.  An option that is not given may be set by a variable.
-/
import OntologyModel.Render.Document

namespace OntologyModel

inductive Parameter where
  | settingsFile
  | input
  | context
  | metadataNamespace
  | format
  | output
deriving DecidableEq, Repr

namespace Parameter

def all : List Parameter :=
  [.settingsFile, .input, .context, .metadataNamespace, .format, .output]

def word : Parameter → String
  | .settingsFile => "config"
  | .input => "input"
  | .context => "context"
  | .metadataNamespace => "metadata-namespace"
  | .format => "format"
  | .output => "output"

def letter? : Parameter → Option Char
  | .input => some 'i'
  | .output => some 'o'
  | _ => none

def envName? : Parameter → Option String
  | .settingsFile => none
  | .input => some "ONTOLOGY_IR_INPUT"
  | .context => some "ONTOLOGY_IR_CONTEXT"
  | .metadataNamespace => some "ONTOLOGY_IR_METADATA_NAMESPACE"
  | .format => some "ONTOLOGY_IR_FORMAT"
  | .output => some "ONTOLOGY_IR_OUTPUT"

/-- Whether an option takes a value: a format has to be known, and a path is not
empty. -/
def admits : Parameter → String → Bool
  | .metadataNamespace, _ => true
  | .format, value => (Format.ofWord? value).isSome
  | _, value => value != ""

end Parameter

inductive UsageError where
  | unknownArgument
  | missingValue
  | invalidValue
  /-- An option is given twice. -/
  | repeatedOption
  /-- An option that takes no value is given one. -/
  | unexpectedValue
  | helpRequested
  | versionRequested
deriving DecidableEq, Repr

structure Choices where
  settingsFile : Option String
  input : Option String
  context : Option String
  metadataNamespace : Option String
  format : Option Format
  output : Option String
deriving DecidableEq, Repr

abbrev Given := List (Parameter × String)

namespace Given

def value? (g : Given) (p : Parameter) : Option String := g.lookup p

def give (g : Given) (p : Parameter) (value : String) : Except UsageError Given :=
  if (g.value? p).isSome then .error .repeatedOption
  else if p.admits value then .ok ((p, value) :: g)
  else .error .invalidValue

def fill (g : Given) (env : String → Option String) :
    List Parameter → Except UsageError Given
  | [] => .ok g
  | p :: rest =>
    match (if (g.value? p).isSome then none else p.envName?.bind env) with
    | none => fill g env rest
    | some value =>
      match g.give p value with
      | .ok g' => fill g' env rest
      | .error e => .error e

def choices (g : Given) : Choices :=
  ⟨g.value? .settingsFile, g.value? .input, g.value? .context, g.value? .metadataNamespace,
    (g.value? .format).bind Format.ofWord?, g.value? .output⟩

end Given

namespace CommandLine

inductive Argument where
  /-- Two dashes, after which no option follows. -/
  | divider
  | long (word : List Char) (value : Option (List Char))
  | short (letter : Char) (more : List Char)
  | plain (text : String)
deriving DecidableEq, Repr

namespace Argument

/-- Cuts a text at its first equals sign. -/
def cut : List Char → List Char × Option (List Char)
  | [] => ([], none)
  | '=' :: rest => ([], some rest)
  | c :: rest =>
    let (word, value) := cut rest
    (c :: word, value)

/-- The form of an argument.  A single dash is a value. -/
def ofText (s : String) : Argument :=
  match s.toList with
  | ['-', '-'] => .divider
  | '-' :: '-' :: rest =>
    let (word, value) := cut rest
    .long word value
  | ['-'] => .plain s
  | '-' :: letter :: more => .short letter more
  | _ => .plain s

end Argument

/-- What has been read of a command line: the options with their values, and the
option that waits for its value, or has it, but was not looked at yet. -/
structure Reading where
  given : Given
  pending : Option (Parameter × Option String)

namespace Reading

def settle (r : Reading) : Except UsageError Given :=
  match r.pending with
  | none => .ok r.given
  | some (_, none) => .error .missingValue
  | some (p, some value) => r.given.give p value

def option (r : Reading) (p : Parameter) (value : Option (List Char)) :
    Except UsageError Reading := do
  let given ← r.settle
  match value with
  | some v => return ⟨← given.give p (String.ofList v), none⟩
  | none => return ⟨given, some (p, none)⟩

/-- Ends the reading with what was asked for, once the options before are settled. -/
def stop (r : Reading) (e : UsageError) : Except UsageError Reading := do
  let _ ← r.settle
  .error e

def long (r : Reading) (word : List Char) (value : Option (List Char)) :
    Except UsageError Reading :=
  let name := String.ofList word
  match Parameter.all.find? fun p => p.word = name with
  | some p => r.option p value
  | none =>
    if name = "help" || name = "version" then
      if value.isSome then .error .unexpectedValue
      else r.stop (if name = "help" then .helpRequested else .versionRequested)
    else .error .unknownArgument

/-- Reads an argument with one dash.  What follows the letter of an option is its
value, perhaps after an equals sign. -/
def short (r : Reading) (letter : Char) (more : List Char) : Except UsageError Reading :=
  match Parameter.all.find? fun p => p.letter? = some letter with
  | some p =>
    match more with
    | [] => r.option p none
    | '=' :: value => r.option p (some value)
    | value => r.option p (some value)
  | none =>
    if letter = 'h' then r.stop .helpRequested
    else if letter = 'V' then r.stop .versionRequested
    else .error .unknownArgument

def plain (r : Reading) (text : String) : Except UsageError Reading :=
  match r.pending with
  | some (p, none) => .ok ⟨r.given, some (p, some text)⟩
  | _ => .error .unknownArgument

/-- Reads arguments one after the other.  Nothing may follow a divider. -/
def arguments (r : Reading) : List String → Except UsageError Given
  | [] => r.settle
  | s :: rest =>
    match Argument.ofText s with
    | .divider => if rest.isEmpty then r.settle else .error .unknownArgument
    | .long word value =>
      match r.long word value with
      | .ok r' => arguments r' rest
      | .error e => .error e
    | .short letter more =>
      match r.short letter more with
      | .ok r' => arguments r' rest
      | .error e => .error e
    | .plain text =>
      match r.plain text with
      | .ok r' => arguments r' rest
      | .error e => .error e

end Reading

def read (env : String → Option String) (arguments : List String) :
    Except UsageError Choices := do
  let given ← (Reading.mk [] none).arguments arguments
  return (← given.fill env Parameter.all).choices

end CommandLine
end OntologyModel
