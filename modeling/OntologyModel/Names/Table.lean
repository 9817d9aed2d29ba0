/-
Short names and the table that remembers them.

A context is any function from identifiers to short forms.  The table asks it
once for each identifier and answers later requests itself; since it keeps the
context's own answer, it also knows how many identifiers were asked for.
-/
import OntologyModel.Context.Namespaces

namespace OntologyModel

/-- Short forms that were looked up already, the first one first. -/
structure NameTable where
  context : String → String
  known : List (String × String)

namespace NameTable

def ofContext (context : String → String) : NameTable := ⟨context, []⟩

def size (t : NameTable) : Nat := t.known.length

def lookup (t : NameTable) (id : String) : String × NameTable :=
  match t.known.lookup id with
  | some short => (short, t)
  | none => (t.context id, { t with known := t.known ++ [(id, t.context id)] })

end NameTable

abbrev Naming := StateM NameTable

namespace Naming

def compact (id : String) : Naming String := fun t => t.lookup id

/-- The short form of an identifier, or another name if the context has no short
form for it. -/
def compactOr (id fallback : String) : Naming String := do
  let short ← compact id
  return if short = id then fallback else short

def withoutColons (s : String) : String :=
  String.ofList (s.toList.map fun c => if c = ':' then '_' else c)

def className (id : String) : Naming String := do
  return withoutColons (← compact id)

end Naming
end OntologyModel
