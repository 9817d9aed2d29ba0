/-
Namespaces and the short forms of identifiers.

A context binds prefixes to namespaces, in the order of their registration, and
may have a default vocabulary.  An identifier is shortened by the longest
non-empty namespace that it starts with; of several prefixes for one namespace
the one registered last is used.  Only if no namespace fits, the vocabulary is
taken off, provided that something remains.
-/
import OntologyModel.Graph.Vocabulary

namespace OntologyModel

inductive ContextError where
  | prefixCollision (name existing requested : String)
  /-- The text of a value that stands where a context should. -/
  | invalidDocument (found : String)
deriving DecidableEq, Repr

namespace ContextError

def message : ContextError → String
  | .prefixCollision name existing requested =>
    "prefix '" ++ name ++ "' is already bound to <" ++ existing ++ ">, cannot rebind to <" ++
      requested ++ ">"
  | .invalidDocument found =>
    "invalid JSON-LD context: expected an object or array, found " ++ found

end ContextError

structure Binding where
  name : String
  iri : String
deriving DecidableEq, Repr

/-- Bindings in the order of registration, each prefix bound once, and the
default vocabulary. -/
structure Namespaces where
  bindings : List Binding
  vocabulary : Option String
  nodup : (bindings.map Binding.name).Nodup
deriving DecidableEq

namespace Namespaces

def empty : Namespaces := ⟨[], none, List.nodup_nil⟩

def get? (ns : Namespaces) (name : String) : Option String :=
  (ns.bindings.find? fun b => b.name = name).map Binding.iri

/-- A prefix that is not bound can be added. -/
theorem nodup_append_binding {bs : List Binding} {name iri : String}
    (h : (bs.find? fun b => b.name = name) = none) (hd : (bs.map Binding.name).Nodup) :
    ((bs ++ [(⟨name, iri⟩ : Binding)]).map Binding.name).Nodup := by
  rw [List.map_append, List.nodup_append]
  refine ⟨hd, by simp, ?_⟩
  intro a ha b hb
  have hb' : b = name := by simpa using hb
  obtain ⟨x, hx, rfl⟩ := List.mem_map.1 ha
  intro e
  have := List.find?_eq_none.1 h x hx
  exact this (by simp [← hb', e])

/-- Binds a prefix.  A prefix that is bound already keeps its namespace and its
place, and binding it to another namespace fails. -/
def register (ns : Namespaces) (name iri : String) : Except ContextError Namespaces :=
  match h : ns.bindings.find? fun b => b.name = name with
  | some b => if b.iri = iri then .ok ns else .error (.prefixCollision name b.iri iri)
  | none =>
    .ok ⟨ns.bindings ++ [⟨name, iri⟩], ns.vocabulary, nodup_append_binding h ns.nodup⟩

def setVocabulary (ns : Namespaces) (iri : String) : Namespaces :=
  { ns with vocabulary := some iri }

/-- What a run of registrations leaves behind: the context it reached, and the
error that stopped it, if one did. -/
structure Extension where
  context : Namespaces
  error : Option ContextError

/-- Registers bindings one after the other, up to the first that fails. -/
def registerAll (ns : Namespaces) : List Binding → Extension
  | [] => ⟨ns, none⟩
  | b :: bs =>
    match ns.register b.name b.iri with
    | .ok ns' => registerAll ns' bs
    | .error e => ⟨ns, some e⟩

/-- Takes over the bindings of another context in their order, and then its
vocabulary if it has one.  A binding that fails leaves what was taken over
before it, and the vocabulary as it was. -/
def merge (ns other : Namespaces) : Extension :=
  match ns.registerAll other.bindings with
  | ⟨ns', some e⟩ => ⟨ns', some e⟩
  | ⟨ns', none⟩ =>
    match other.vocabulary with
    | some v => ⟨ns'.setVocabulary v, none⟩
    | none => ⟨ns', none⟩

def Extension.toExcept (e : Extension) : Except ContextError Namespaces :=
  match e.error with
  | some err => .error err
  | none => .ok e.context

/-- The prefixes that every context for a generated model starts with. -/
def commonBindings : List Binding :=
  [⟨"rdf", Vocabulary.rdfNamespace⟩, ⟨"rdfs", Vocabulary.rdfsNamespace⟩,
    ⟨"owl", Vocabulary.owlNamespace⟩, ⟨"sh", Vocabulary.shaclNamespace⟩,
    ⟨"xsd", Vocabulary.xsdNamespace⟩]

def common : Namespaces := ⟨commonBindings, none, by decide⟩

def dropStart? : List Char → List Char → Option (List Char)
  | [], s => some s
  | _ :: _, [] => none
  | a :: start, b :: s => if a = b then dropStart? start s else none

/-- The rest of an identifier after a namespace, if the namespace is not empty
and the identifier starts with it. -/
def restAfter? (space iri : String) : Option String :=
  if space = "" then none else (dropStart? space.toList iri.toList).map String.ofList

/-- The binding with the longest namespace among those that fit an identifier.
Length is counted in UTF-8 bytes, and of equally long ones the later wins. -/
def longest? (iri : String) (bs : List Binding) : Option Binding :=
  bs.foldl (fun best b =>
    if (restAfter? b.iri iri).isSome then
      match best with
      | some b' => if b.iri.utf8ByteSize < b'.iri.utf8ByteSize then some b' else some b
      | none => some b
    else best) none

def compactByVocabulary (vocabulary : Option String) (iri : String) : String :=
  match vocabulary with
  | none => iri
  | some v =>
    match restAfter? v iri with
    | some rest => if rest = "" then iri else rest
    | none => iri

def compact (ns : Namespaces) (iri : String) : String :=
  match longest? iri ns.bindings with
  | some b => b.name ++ ":" ++ (restAfter? b.iri iri).getD ""
  | none => compactByVocabulary ns.vocabulary iri

end Namespaces
end OntologyModel
