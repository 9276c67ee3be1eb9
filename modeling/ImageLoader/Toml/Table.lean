import ImageLoader.Json.Basic

/-!
# The tables of a TOML document

A document defines its tables in pieces: by headers, on the way to a header, and by keys with dots.  Each
table remembers how it came to be, because that decides what may still be added to it.

* `Toml.Members.define` — a table with one more key.
* `Toml.Members.open?`, `Toml.Members.append?` — what a header does, of a table and of an item of a list of tables.
* `Toml.Node.toJson` — the finished document as a JSON value.
-/

namespace ImageLoader.Toml

inductive Origin where
  /-- By a header of its own. -/
  | header
  /-- On the way to another header. -/
  | implied
  /-- By a key with dots. -/
  | dotted
deriving DecidableEq

inductive Node where
  | value (j : Json)
  | table (origin : Origin) (members : List (String × Node))
  /-- A list of tables, the last one first. -/
  | tables (items : List (List (String × Node)))

abbrev Members := List (String × Node)

namespace Members

/-- The members with a key put in place of the one of its name, or at the end. -/
def put (m : Members) (key : String) (n : Node) : Members :=
  match m with
  | [] => [(key, n)]
  | (k, old) :: rest => if k = key then (k, n) :: rest else (k, old) :: put rest key n

/-- Adds a value under a key with dots.  Tables on the way may not have a header, and the table that takes the
value must have come to be by such a key itself, unless it is the one that the key starts from. -/
def define (takes : Bool) (m : Members) : List String → Json → Option Members
  | [], _ => none
  | [key], j => if takes ∧ (m.lookup key).isNone then some (m.put key (.value j)) else none
  | key :: path, j =>
    match m.lookup key with
    | none => (define true [] path j).map fun inner => m.put key (.table .dotted inner)
    | some (.table .header _) => none
    | some (.table origin inner) =>
      (define (origin = .dotted) inner path j).map fun inner => m.put key (.table origin inner)
    | some (.tables (last :: before)) =>
      (define false last path j).map fun last => m.put key (.tables (last :: before))
    | some _ => none

/-- Changes the table at the end of a path of headers; tables that are not there yet are made. -/
def within (f : Members → Option Members) (m : Members) : List String → Option Members
  | [] => f m
  | key :: path =>
    match m.lookup key with
    | none => (within f [] path).map fun inner => m.put key (.table .implied inner)
    | some (.table origin inner) =>
      (within f inner path).map fun inner => m.put key (.table origin inner)
    | some (.tables (last :: before)) =>
      (within f last path).map fun last => m.put key (.tables (last :: before))
    | some _ => none

/-- Begins the table of this name, which may have been implied but not defined. -/
def openHere? (key : String) (m : Members) : Option Members :=
  match m.lookup key with
  | none => some (m.put key (.table .header []))
  | some (.table .implied inner) => some (m.put key (.table .header inner))
  | some _ => none

def appendHere? (key : String) (m : Members) : Option Members :=
  match m.lookup key with
  | none => some (m.put key (.tables [[]]))
  | some (.tables items) => some (m.put key (.tables ([] :: items)))
  | some _ => none

def open? (m : Members) (path : List String) : Option Members := do
  m.within (openHere? (← path.getLast?)) path.dropLast

def append? (m : Members) (path : List String) : Option Members := do
  m.within (appendHere? (← path.getLast?)) path.dropLast

end Members

mutual

def Node.toJson : Node → Json
  | .value j => j
  | .table _ members => .object (membersJson members)
  | .tables items => .array (itemsJson items).reverse

def membersJson : List (String × Node) → List (String × Json)
  | [] => []
  | (key, n) :: rest => (key, n.toJson) :: membersJson rest

def itemsJson : List (List (String × Node)) → List Json
  | [] => []
  | m :: rest => .object (membersJson m) :: itemsJson rest

end

end ImageLoader.Toml
