/-!
# Vocabulary

The identifiers of usage policies, and of the lists and types of the graphs that hold them.
-/

namespace UsagePolicy.Vocabulary

def namespaceIri : String := "http://www.w3.org/ns/odrl/2/"

def permission : String := "http://www.w3.org/ns/odrl/2/permission"
def prohibition : String := "http://www.w3.org/ns/odrl/2/prohibition"
def obligation : String := "http://www.w3.org/ns/odrl/2/obligation"
def duty : String := "http://www.w3.org/ns/odrl/2/duty"
def remedy : String := "http://www.w3.org/ns/odrl/2/remedy"
def consequence : String := "http://www.w3.org/ns/odrl/2/consequence"

def action : String := "http://www.w3.org/ns/odrl/2/action"
def target : String := "http://www.w3.org/ns/odrl/2/target"
def assignee : String := "http://www.w3.org/ns/odrl/2/assignee"

def constraint : String := "http://www.w3.org/ns/odrl/2/constraint"
def refinement : String := "http://www.w3.org/ns/odrl/2/refinement"

def or : String := "http://www.w3.org/ns/odrl/2/or"
def and : String := "http://www.w3.org/ns/odrl/2/and"
def xone : String := "http://www.w3.org/ns/odrl/2/xone"
def andSequence : String := "http://www.w3.org/ns/odrl/2/andSequence"

def permissionClass : String := "http://www.w3.org/ns/odrl/2/Permission"
def prohibitionClass : String := "http://www.w3.org/ns/odrl/2/Prohibition"
def dutyClass : String := "http://www.w3.org/ns/odrl/2/Duty"

def type : String := "http://www.w3.org/1999/02/22-rdf-syntax-ns#type"
def first : String := "http://www.w3.org/1999/02/22-rdf-syntax-ns#first"
def rest : String := "http://www.w3.org/1999/02/22-rdf-syntax-ns#rest"
def nil : String := "http://www.w3.org/1999/02/22-rdf-syntax-ns#nil"

/-- An identifier of the policy namespace with the namespace written as `odrl:`. -/
def compact (iri : String) : String :=
  if namespaceIri.toList.isPrefixOf iri.toList then
    "odrl:" ++ String.ofList (iri.toList.drop namespaceIri.toList.length)
  else iri

example : compact refinement = "odrl:refinement" := by decide

end UsagePolicy.Vocabulary
