import ImageLoader.Json.Basic

/-!
# Laying one JSON value over another

Objects are merged member by member, however deep; any other value replaces what it is laid over.

* `Json.merge` — a value with another laid over it.
* `Json.settled` — a value in which no key of an object repeats: the last member of a key counts.
-/

namespace ImageLoader.Json

/-- The members with the one under `key` made from the one before, or added at the end. -/
def upsert (key : String) (f : Option Json → Json) : List (String × Json) → List (String × Json)
  | [] => [(key, f none)]
  | (k, old) :: rest => if k = key then (k, f (some old)) :: rest else (k, old) :: upsert key f rest

mutual

/-- The first value with the second laid over it. -/
def merge (base patch : Json) : Json :=
  match base, patch with
  | object members, object changes => object (mergeMembers members changes)
  | _, patch => patch

def mergeMembers (members : List (String × Json)) : List (String × Json) → List (String × Json)
  | [] => members
  | (key, j) :: rest =>
    let change : Option Json → Json
      | some old => merge old j
      | none => j
    mergeMembers (upsert key change members) rest

end

mutual

/-- The value without members that a later one of the same key replaces. -/
def settled : Json → Json
  | array items => array (settledItems items)
  | object members => object (settledMembers [] members)
  | j => j

def settledItems : List Json → List Json
  | [] => []
  | j :: rest => settled j :: settledItems rest

/-- The members, each put where the first of its key stood. -/
def settledMembers (done : List (String × Json)) : List (String × Json) → List (String × Json)
  | [] => done
  | (key, j) :: rest =>
    let j := settled j
    settledMembers (upsert key (fun _ => j) done) rest

end

end ImageLoader.Json
