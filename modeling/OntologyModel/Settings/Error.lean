/-
Why the settings of a run cannot be used.

An error is told as a chain of messages, the cause behind what it prevented.
-/
import OntologyModel.Context.Namespaces
import OntologyModel.Files.Tree
import OntologyModel.Text.Quoted

namespace OntologyModel

inductive SettingsError where
  | missingFile (path : String)
  | unreadableFile (path : String) (cause : FileError)
  /-- A settings file that is not what its extension says. -/
  | malformedFile (path : String) (language : String)
  | unsupportedExtension (extension : String)
  | noInput
  | missingInput (path : String)
  | inputNoFile (path : String)
  /-- A metadata namespace that ends in no separator. -/
  | openNamespace (iri : String)
  | contextNoFile (path : String)
  | emptyName (iri : String)
  | emptyIri (name : String)
  | unreadableContext (path : String) (cause : FileError)
  | malformedContext (path : String)
  | invalidContext (path : String) (cause : ContextError)
  | conflictingContext (path : String) (cause : ContextError)
  | conflictingName (name : String) (cause : ContextError)
deriving DecidableEq, Repr

namespace SettingsError

open Text (quoted)

/-- The messages, the outermost first.  What is wrong with a malformed text is
not told. -/
def messages : SettingsError → List String
  | .missingFile path => ["config file " ++ quoted path ++ " does not exist"]
  | .unreadableFile path cause =>
    ["failed to read config file " ++ quoted path, cause.message]
  | .malformedFile path language => ["failed to parse " ++ language ++ " config " ++ quoted path]
  | .unsupportedExtension extension => ["unsupported config extension: " ++ extension]
  | .noInput =>
    ["no input ontology given (use --input or `input` in the config file)"]
  | .missingInput path => ["input ontology " ++ quoted path ++ " does not exist"]
  | .inputNoFile path => ["input ontology " ++ quoted path ++ " is not a file"]
  | .openNamespace iri => ["metadata namespace " ++ quoted iri ++ " must end with '#' or '/'"]
  | .contextNoFile path => ["context document " ++ quoted path ++ " is not a file"]
  | .emptyName iri => ["empty prefix mapped to " ++ quoted iri]
  | .emptyIri name => ["prefix " ++ quoted name ++ " maps to an empty IRI"]
  | .unreadableContext path cause =>
    ["failed to read context document " ++ quoted path, cause.message]
  | .malformedContext path => ["failed to parse context document " ++ quoted path]
  | .invalidContext path cause => ["invalid context document " ++ quoted path, cause.message]
  | .conflictingContext path cause =>
    ["context document " ++ quoted path ++ " conflicts", cause.message]
  | .conflictingName name cause =>
    ["configured prefix " ++ quoted name ++ " conflicts", cause.message]

def isMalformed : SettingsError → Bool
  | .malformedFile .. | .malformedContext _ => true
  | _ => false

end SettingsError
end OntologyModel
