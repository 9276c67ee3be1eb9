import Mathlib.Data.List.Nodup
import ImageLoader.Json.Record
import ImageLoader.Proofs.Json.Written

/-!
# Fields of records

A record is read from an object by the names of its fields, or from an array by their numbers.  What is said of a field
is the same in both cases: it has a value, and another value can be put in its place, which leaves all other fields as
they were.

* `Json.fields?_object`: **an object with the names of a record has its fields.**
* `Json.Field`: a field of a record; `get?` takes its value, and `put` replaces it.
* `Json.Field.fields?_put`: **a replaced field has the new value, and all others keep theirs.**
-/

namespace ImageLoader.Json

variable {α β : Type}

theorem mapM_eq_some_iff {f : α → Option β} {l : List α} {r : List β} : l.mapM f = some r ↔ l.map f = r.map some := by
  induction l generalizing r with
  | nil => cases r <;> simp
  | cons a l ih =>
    cases r with
    | nil => simp [List.mapM_cons, Option.bind_eq_some_iff]
    | cons b r => simp [List.mapM_cons, Option.bind_eq_some_iff, ih]

theorem mem_iff_of_mapM {f : α → Option β} {l : List α} {r : List β} (h : l.mapM f = some r) {b : β} :
    b ∈ r ↔ ∃ a ∈ l, f a = some b := by
  have hmem : some b ∈ r.map some ↔ some b ∈ l.map f := by rw [mapM_eq_some_iff.mp h]
  simpa using hmem

/-- Reading item by item succeeds just if it succeeds for every item. -/
theorem exists_mapM_iff {f : α → Option β} {l : List α} : (∃ r, l.mapM f = some r) ↔ ∀ a ∈ l, ∃ b, f a = some b := by
  constructor
  · rintro ⟨r, h⟩ a ha
    have hmem : f a ∈ r.map some := mapM_eq_some_iff.mp h ▸ List.mem_map_of_mem ha
    obtain ⟨b, -, hb⟩ := List.mem_map.mp hmem
    exact ⟨b, hb.symm⟩
  · intro h
    induction l with
    | nil => exact ⟨[], rfl⟩
    | cons a l ih =>
      obtain ⟨b, hb⟩ := h a List.mem_cons_self
      obtain ⟨r, hr⟩ := ih fun a ha => h a (List.mem_cons_of_mem _ ha)
      exact ⟨b :: r, by rw [mapM_eq_some_iff, List.map_cons, List.map_cons, hb, mapM_eq_some_iff.mp hr]⟩

variable {names : List String} {name : String} {j v : Json} {members : List (String × Json)}

/-! ## Objects -/

/-- A key that does not repeat has one value. -/
theorem filter_eq_of_mem (hnodup : (members.map Prod.fst).Nodup) (hmem : (name, j) ∈ members) :
    (members.filter fun m => m.1 == name) = [(name, j)] := by
  induction members with
  | nil => cases hmem
  | cons m rest ih =>
    obtain ⟨hm, hrest⟩ := List.nodup_cons.mp hnodup
    rcases List.mem_cons.mp hmem with rfl | hmem
    · have hnone : rest.filter (fun m => m.1 == name) = [] := by
        rw [List.filter_eq_nil_iff]
        intro p hp hkey
        exact hm (List.mem_map.mpr ⟨p, hp, eq_of_beq hkey⟩)
      rw [List.filter_cons, if_pos (beq_self_eq_true name), hnone]
    · have hkey : ¬ (m.1 == name) = true := fun hkey =>
        hm (List.mem_map.mpr ⟨_, hmem, (eq_of_beq hkey).symm⟩)
      rw [List.filter_cons, if_neg hkey, ih hrest hmem]

/-- **An object with the names of a record has its fields.** -/
theorem fields?_object (hnames : members.map Prod.fst = names) (hnodup : names.Nodup) :
    fields? names (.object members) = some (members.map fun m => some m.2) := by
  subst hnames
  rw [fields?, mapM_eq_some_iff, List.map_map, List.map_map]
  refine List.map_congr_left fun m hm => ?_
  show field? members m.1 = some (some m.2)
  rw [field?, filter_eq_of_mem hnodup hm]

/-! ## What is written in a field -/

theorem asUInt8?_nat (n : UInt8) : asUInt8? (.nat n.toNat) = some n := by
  rw [asUInt8?, nat, asNat?, if_pos n.toNat_lt, Option.map_some, UInt8.ofNat_toNat]

theorem asUInt32?_nat (n : UInt32) : asUInt32? (.nat n.toNat) = some n := by
  rw [asUInt32?, nat, asNat?, if_pos n.toNat_lt, Option.map_some, UInt32.ofNat_toNat]

theorem asUInt64?_nat (n : UInt64) : asUInt64? (.nat n.toNat) = some n := by
  rw [asUInt64?, nat, asNat?, if_pos n.toNat_lt, Option.map_some, UInt64.ofNat_toNat]

theorem required_eq_some_iff {f : Json → Option α} {o : Option Json} {a : α} :
    required f o = some a ↔ ∃ j, o = some j ∧ f j = some a := by
  cases o <;> simp [required]

/-- A field that may be missing is read as it was written, since `null` is not the form of a value. -/
theorem optional_option {toJson : α → Json} {ofJson? : Json → Option α} (h : ∀ a, ofJson? (toJson a) = some a)
    (hnull : ofJson? .null = none) (o : Option α) : optional ofJson? (some (.option toJson o)) = some o := by
  cases o with
  | none => rfl
  | some a =>
    rw [optional, option, asOption?, h, Option.map_some]
    intro ha
    rw [← ha, h] at hnull
    cases hnull

/-! ## Fields -/

/-- The member with another value, if this is its key. -/
def exchange (name : String) (v : Json) (m : String × Json) : String × Json := if m.1 = name then (m.1, v) else m

theorem exchange_fst (name : String) (v : Json) (m : String × Json) : (exchange name v m).1 = m.1 := by
  rw [exchange]
  split <;> rfl

theorem exchange_of_ne {m : String × Json} (h : m.1 ≠ name) : exchange name v m = m := if_neg h

theorem keys_filter (members : List (String × Json)) (name : String) :
    ∀ m ∈ members.filter fun m => m.1 == name, m.1 = name :=
  fun _ hm => eq_of_beq (List.mem_filter.mp hm).2

theorem field?_eq_some_iff : field? members name = some (some j) ↔
    (members.filter fun m => m.1 == name) = [(name, j)] := by
  have hkey := keys_filter members name
  rw [field?]
  generalize (members.filter fun m => m.1 == name) = l at hkey ⊢
  rcases l with _ | ⟨⟨key, k⟩, _ | _⟩
  · simp
  · have hname : key = name := hkey (key, k) List.mem_cons_self
    simp [hname]
  · simp

/-- **An exchanged member is read as its new value**, and all others as before. -/
theorem field?_exchange (members : List (String × Json)) (name : String) (v : Json) (key : String) :
    field? (members.map (exchange name v)) key =
      if key = name then (field? members key).map (Option.map fun _ => v) else field? members key := by
  have hfilter : ((members.map (exchange name v)).filter fun m => m.1 == key) =
      (members.filter fun m => m.1 == key).map (exchange name v) := by
    rw [List.filter_map]
    congr 2
    funext m
    rw [Function.comp_apply, exchange_fst]
  have hkey := keys_filter members key
  rw [field?, field?, hfilter]
  generalize (members.filter fun m => m.1 == key) = l at hkey ⊢
  rcases l with _ | ⟨m, _ | _⟩
  · simp
  · obtain rfl := hkey m List.mem_cons_self
    by_cases hname : m.1 = name
    · simp [exchange, hname]
    · simp [exchange, hname]
  · simp

/-- A field of a record: the names of all its fields, and the number of this one. -/
structure Field where
  names : List String
  number : Fin names.length
  nodup : names.Nodup

namespace Field

def key (f : Field) : String := f.names[f.number]

def get? (f : Field) (j : Json) : Option Json := (j.fields? f.names).bind fun l => l[f.number]?.join

def put (f : Field) (v : Json) : Json → Json
  | object members => object (members.map (exchange f.key v))
  | array items => array (items.set f.number v)
  | j => j

variable {f : Field} {l : List (Option Json)}

theorem get?_eq_some_iff : f.get? j = some v ↔ ∃ l, j.fields? f.names = some l ∧ l[f.number]? = some (some v) := by
  simp only [get?, Option.bind_eq_some_iff, Option.join_eq_some_iff]

theorem field?_of_get? (h : f.get? (.object members) = some v) : field? members f.key = some (some v) := by
  obtain ⟨l, hl, hv⟩ := get?_eq_some_iff.mp h
  rw [fields?, mapM_eq_some_iff] at hl
  have hvalue := congrArg (·[(f.number : Nat)]?) hl
  rw [Fin.getElem?_fin] at hv
  show field? members f.names[(f.number : Nat)] = some (some v)
  simpa [hv] using hvalue

theorem getElem?_of_get? {items : List Json} (h : f.get? (.array items) = some v) : items[f.number]? = some v := by
  obtain ⟨l, hl, hv⟩ := get?_eq_some_iff.mp h
  rw [fields?] at hl
  split at hl
  · cases hl
    simpa using hv
  · cases hl

/-- **A replaced field has the new value, and all others keep theirs.** -/
theorem fields?_put (h : j.fields? f.names = some l) (hsome : l[f.number]? = some (some v)) (w : Json) :
    (f.put w j).fields? f.names = some (l.set f.number (some w)) := by
  cases j with
  | object members =>
    rw [fields?, mapM_eq_some_iff] at h
    rw [put, fields?, mapM_eq_some_iff]
    have hlength : f.names.length = l.length := by
      have hlengths := congrArg List.length h
      rwa [List.length_map, List.length_map] at hlengths
    have hvalues : ∀ i (hi : i < f.names.length) (hl : i < l.length), field? members f.names[i] = some l[i] := by
      intro i hi hl
      have hvalue := congrArg (·[i]?) h
      simpa [hi, hl] using hvalue
    refine List.ext_getElem (by simpa using hlength) fun i hi hl => ?_
    rw [List.length_map] at hi
    rw [List.length_map, List.length_set] at hl
    rw [List.getElem_map, List.getElem_map, List.getElem_set, field?_exchange, hvalues i hi hl]
    by_cases hnumber : f.number = i
    · subst hnumber
      have hkey : f.names[(f.number : Nat)] = f.key := rfl
      have hvalue : l[(f.number : Nat)] = some v := (List.getElem?_eq_some_iff.mp hsome).2
      rw [if_pos hkey, if_pos rfl, hvalue]
      rfl
    · have hkey : f.names[i] ≠ f.key := fun hkey => hnumber (f.nodup.getElem_inj_iff.mp hkey).symm
      rw [if_neg hkey, if_neg hnumber]
  | array items =>
    rw [fields?] at h
    split at h
    · rename_i hlength
      cases h
      rw [put, fields?, if_pos (by rwa [List.length_set]), List.map_set]
    · cases h
  | _ => cases h

end Field
end ImageLoader.Json
