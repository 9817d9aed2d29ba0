/-
The terms that are read from a graph.

Besides the terms of RDF, RDFS, OWL and SHACL there are two predicates of
metadata about classes, whose namespace is an option.
-/
namespace OntologyModel
namespace Vocabulary

def rdfNamespace : String := "http://www.w3.org/1999/02/22-rdf-syntax-ns#"
def rdfsNamespace : String := "http://www.w3.org/2000/01/rdf-schema#"
def owlNamespace : String := "http://www.w3.org/2002/07/owl#"
def shaclNamespace : String := "http://www.w3.org/ns/shacl#"
def xsdNamespace : String := "http://www.w3.org/2001/XMLSchema#"

def rdfType : String := "http://www.w3.org/1999/02/22-rdf-syntax-ns#type"
def rdfFirst : String := "http://www.w3.org/1999/02/22-rdf-syntax-ns#first"
def rdfRest : String := "http://www.w3.org/1999/02/22-rdf-syntax-ns#rest"
def rdfNil : String := "http://www.w3.org/1999/02/22-rdf-syntax-ns#nil"

def rdfsLabel : String := "http://www.w3.org/2000/01/rdf-schema#label"
def rdfsComment : String := "http://www.w3.org/2000/01/rdf-schema#comment"
def rdfsSubClassOf : String := "http://www.w3.org/2000/01/rdf-schema#subClassOf"
def rdfsRange : String := "http://www.w3.org/2000/01/rdf-schema#range"

def owlClass : String := "http://www.w3.org/2002/07/owl#Class"
def owlNamedIndividual : String := "http://www.w3.org/2002/07/owl#NamedIndividual"

def shProperty : String := "http://www.w3.org/ns/shacl#property"
def shPath : String := "http://www.w3.org/ns/shacl#path"
def shName : String := "http://www.w3.org/ns/shacl#name"
def shClass : String := "http://www.w3.org/ns/shacl#class"
def shDatatype : String := "http://www.w3.org/ns/shacl#datatype"
def shPattern : String := "http://www.w3.org/ns/shacl#pattern"
def shMinCount : String := "http://www.w3.org/ns/shacl#minCount"
def shMaxCount : String := "http://www.w3.org/ns/shacl#maxCount"

def defaultMetadataNamespace : String := "https://rdf.spdx.org/ns/schema#"

end Vocabulary

structure Metadata where
  referenceable : String
  idPropertyName : String
deriving DecidableEq, Repr

namespace Metadata

def ofNamespace (ns : String) : Metadata :=
  ⟨ns ++ "referenceable", ns ++ "idPropertyName"⟩

end Metadata
end OntologyModel
