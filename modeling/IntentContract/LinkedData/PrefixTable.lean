import IntentContract.Keyed

/-!
# Prefixes of linked data

A prefix table binds short names to namespaces. A compact identifier `prefix:local` whose prefix
is bound stands for the namespace followed by the local part; an identifier with `//` behind its
first colon is never compact, whatever is bound.
-/

namespace IntentContract

/-- **A prefix table**: its bindings in the order of the prefixes. -/
structure PrefixTable where
  entries : List (String × String)
  deriving DecidableEq

namespace PrefixTable

/-- The namespace bound to a prefix. -/
def get? (t : PrefixTable) (name : String) : Option String :=
  Keyed.get? name t.entries

/-- Binds a prefix, in place of an earlier binding of it. -/
def insert (t : PrefixTable) (name iri : String) : PrefixTable :=
  ⟨Keyed.insert name iri t.entries⟩

/-- A table with more bindings, each of which replaces an earlier one. -/
def insertAll (t : PrefixTable) (bindings : List (String × String)) : PrefixTable :=
  ⟨Keyed.insertAll bindings t.entries⟩

/-- The prefixes of the vocabulary that contracts are described in. -/
def coreBindings : List (String × String) :=
  [("rdfs", "http://www.w3.org/2000/01/rdf-schema#"),
    ("owl", "http://www.w3.org/2002/07/owl#"),
    ("agent", "https://agentidl.dev/ns/agent#")]

/-- The prefixes bound where nothing else is said, besides the core ones. -/
def usualBindings : List (String × String) :=
  [("rdf", "http://www.w3.org/1999/02/22-rdf-syntax-ns#"),
    ("xsd", "http://www.w3.org/2001/XMLSchema#"),
    ("proof", "https://agentidl.dev/ns/proof#")]

/-- The table with exactly the given bindings. -/
def ofBindings (bindings : List (String × String)) : PrefixTable :=
  ⟨Keyed.ofList bindings⟩

/-- **The usual table.** -/
def usual : PrefixTable :=
  ofBindings (usualBindings ++ coreBindings)

/-- The usual table with more bindings over it. -/
def withOverrides (bindings : List (String × String)) : PrefixTable :=
  usual.insertAll bindings

/-- A table with the core prefixes that it lacks; bindings it has are kept. -/
def completed (t : PrefixTable) : PrefixTable :=
  coreBindings.foldl (fun t b => if (t.get? b.1).isNone then t.insert b.1 b.2 else t) t

/-- Splits a text at its first colon. -/
def splitColon? : List Char → Option (List Char × List Char)
  | [] => none
  | c :: rest =>
    if c = ':' then some ([], rest)
    else (splitColon? rest).map fun (front, back) => (c :: front, back)

/-- The namespace and the local part of a compact identifier whose prefix is bound. -/
def split? (t : PrefixTable) (identifier : String) : Option (String × String) :=
  match splitColon? identifier.toList with
  | none => none
  | some (_, '/' :: '/' :: _) => none
  | some (front, back) => (t.get? (String.ofList front)).map (·, String.ofList back)

/-- **The full form of an identifier**; one that is not compact stands for itself. -/
def expand (t : PrefixTable) (identifier : String) : String :=
  match t.split? identifier with
  | some (iri, back) => iri ++ back
  | none => identifier

end PrefixTable

end IntentContract
