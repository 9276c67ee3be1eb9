import ImageLoader.Proofs.Json.Record

/-!
# Places in texts

A part of a value has its own part of the text.  One who exchanges this for a text of something else, by hand or by a
program that knows nothing of the value, gets a text of the value with another part.

* `Json.ItemsOf.exists_part`, `Json.MembersOf.exists_part`: the part of a text that an item, or a member, has.
* `Json.at?`, `Json.putAt`: a part of a value at the end of a path through records, and the value with another part.
* `Json.Place`: the text around a part.
* `Json.exists_place`: **every part has a place.**
-/

namespace ImageLoader.Json

variable {s t : List Char} {j k v : Json} {name : String} {l : List Json} {m : List (String × Json)}

/-- **An item of an array has a part of the text to itself.** -/
theorem ItemsOf.exists_part (h : ItemsOf s l) {i : Nat} (hi : l[i]? = some k) :
    ∃ before t after, s = before ++ t ++ after ∧ Spaced t k ∧
      ∀ u v, Spaced u v → ItemsOf (before ++ u ++ after) (l.set i v) := by
  induction l generalizing s i with
  | nil => cases hi
  | cons j rest ih =>
    cases h with
    | last ht =>
      cases i with
      | zero =>
        cases hi
        refine ⟨[], s, [], by simp, ht, fun u v hu => ?_⟩
        rw [List.nil_append, List.append_nil]
        exact .last hu
      | succ i => cases hi
    | @more t u _ _ ht hu =>
      cases i with
      | zero =>
        cases hi
        refine ⟨[], t, ',' :: u, by simp, ht, fun t' v ht' => ?_⟩
        rw [List.nil_append]
        exact .more ht' hu
      | succ i =>
        obtain ⟨before, t', after, rfl, ht', hplace⟩ := ih hu hi
        refine ⟨t ++ ',' :: before, t', after, by simp, ht', fun u v hu => ?_⟩
        have hmore := ItemsOf.more ht (hplace u v hu)
        simpa using hmore

/-- **A member of an object whose key does not repeat has a part of the text to itself.** -/
theorem MembersOf.exists_part (h : MembersOf s (keyed m)) (hm : (m.filter fun p => p.1 == name) = [(name, k)]) :
    ∃ before t after, s = before ++ t ++ after ∧ Spaced t k ∧
      ∀ u v, Spaced u v → MembersOf (before ++ u ++ after) (keyed (m.map (exchange name v))) := by
  induction m generalizing s with
  | nil => cases hm
  | cons p rest ih =>
    rw [List.filter_cons] at hm
    rw [keyed_cons] at h
    generalize hrest' : keyed rest = others at h
    by_cases hkey : p.1 = name
    · -- the other members keep their values, because the key does not repeat
      rw [if_pos (beq_iff_eq.mpr hkey)] at hm
      obtain ⟨rfl, hrest⟩ := List.cons.inj hm
      have hothers : ∀ v, rest.map (exchange name v) = rest := fun v => by
        refine (List.map_congr_left fun q hq => exchange_of_ne fun hname => ?_).trans (List.map_id rest)
        exact List.filter_eq_nil_iff.mp hrest q hq (beq_iff_eq.mpr hname)
      cases h with
      | @last key t _ _ hk ht =>
        obtain rfl := List.map_eq_nil_iff.mp hrest'
        refine ⟨key ++ [':'], t, [], by simp, ht, fun u v hu => ?_⟩
        have hlast := MembersOf.last hk hu
        simpa [exchange] using hlast
      | @more key t u _ _ _ hk ht hu =>
        subst hrest'
        refine ⟨key ++ [':'], t, ',' :: u, by simp, ht, fun t' v ht' => ?_⟩
        have hmore := MembersOf.more hk ht' hu
        rw [List.map_cons, hothers]
        simpa [exchange] using hmore
    · rw [if_neg (mt beq_iff_eq.mp hkey)] at hm
      cases h with
      | last =>
        obtain rfl := List.map_eq_nil_iff.mp hrest'
        cases hm
      | @more key t u _ _ _ hk ht hu =>
        subst hrest'
        obtain ⟨before, t', after, rfl, ht', hplace⟩ := ih hu hm
        refine ⟨key ++ ':' :: t ++ ',' :: before, t', after, by simp, ht', fun u v hu => ?_⟩
        have hmore := MembersOf.more hk ht (hplace u v hu)
        rw [List.map_cons, exchange_of_ne hkey]
        simpa using hmore

/-- **A field of a record has a part of the text to itself.** -/
theorem Field.exists_part {f : Field} (h : Spaced s j) (hget : f.get? j = some k) :
    ∃ before t after, s = before ++ t ++ after ∧ Spaced t k ∧
      ∀ u v, Spaced u v → Spaced (before ++ u ++ after) (f.put v j) := by
  cases h with
  | @intro b _ a _ hb ht ha =>
    cases ht with
    | object hm =>
      obtain ⟨before, t, after, rfl, ht, hplace⟩ := hm.exists_part (field?_eq_some_iff.mp (field?_of_get? hget))
      refine ⟨b ++ '{' :: before, t, after ++ '}' :: a, by simp, ht, fun u v hu => ?_⟩
      have hobject := Spaced.intro hb (.object (hplace u v hu)) ha
      simpa [put] using hobject
    | array hl =>
      obtain ⟨before, t, after, rfl, ht, hplace⟩ := hl.exists_part (getElem?_of_get? hget)
      refine ⟨b ++ '[' :: before, t, after ++ ']' :: a, by simp, ht, fun u v hu => ?_⟩
      have harray := Spaced.intro hb (.array (hplace u v hu)) ha
      simpa [put] using harray
    | noMembers => cases field?_eq_some_iff.mp (field?_of_get? hget)
    | noItems => cases getElem?_of_get? hget
    | _ => cases hget

/-! ## Paths -/

/-- The part of a value at the end of a path through records. -/
def at? : List Field → Json → Option Json
  | [], j => some j
  | f :: path, j => (f.get? j).bind (at? path)

theorem at?_single (f : Field) (j : Json) : at? [f] j = f.get? j := by
  rw [at?]
  cases f.get? j <;> rfl

/-- The value with another part at the end of the path. -/
def putAt (v : Json) : List Field → Json → Json
  | [], _ => v
  | f :: path, j =>
    match f.get? j with
    | some k => f.put (putAt v path k) j
    | none => j

/-- The text around a part of a value: with any text between, it is a text of the value with that part exchanged. -/
def Place (path : List Field) (j : Json) (before after : List Char) : Prop :=
  ∀ t v, parse? t = some v → parse? (before ++ t ++ after) = some (putAt v path j)

/-- **Every part has a place.** -/
theorem exists_place {path : List Field} (h : parse? s = some j) (hat : at? path j = some k) :
    ∃ before t after, s = before ++ t ++ after ∧ parse? t = some k ∧ Place path j before after := by
  induction path generalizing s j with
  | nil =>
    cases hat
    refine ⟨[], s, [], by simp, h, fun t v ht => ?_⟩
    rwa [List.nil_append, List.append_nil]
  | cons f path ih =>
    obtain ⟨i, hget, hat⟩ := Option.bind_eq_some_iff.mp hat
    obtain ⟨before, t, after, rfl, ht, hfield⟩ := Field.exists_part (parse?_eq_some_iff.mp h) hget
    obtain ⟨before', t', after', rfl, ht', hplace⟩ := ih (parse?_eq_some_iff.mpr ht) hat
    refine ⟨before ++ before', t', after' ++ after, by simp, ht', fun u v hu => ?_⟩
    have hvalue := hfield _ _ (parse?_eq_some_iff.mp (hplace u v hu))
    rw [putAt, hget, parse?_eq_some_iff]
    simpa using hvalue

/-! ## Parts that are read by themselves -/

variable {α β γ : Type}

/-- The path leads to a part that is read by itself, and of which `get` and `set` say what it is to the whole. -/
structure Leads (path : List Field) (whole? : Json → Option α) (part? : Json → Option β) (get : α → β)
    (set : β → α → α) : Prop where
  exists_at : ∀ {j a}, whole? j = some a → ∃ k, at? path j = some k ∧ part? k = some (get a)
  putAt : ∀ {j a v b}, whole? j = some a → part? v = some b → whole? (putAt v path j) = some (set b a)

namespace Leads

variable {f : Field} {path : List Field} {whole? : Json → Option α} {middle? : Json → Option β}
  {part? : Json → Option γ}

/-- A field leads to its value, if the whole follows when the value is replaced. -/
theorem single {get : α → β} {set : β → α → α} (h : ∀ {j a}, whole? j = some a → ∃ l k, j.fields? f.names = some l ∧
    l[f.number]? = some (some k) ∧ middle? k = some (get a) ∧ ∀ {v b}, middle? v = some b →
    (f.put v j).fields? f.names = some (l.set f.number (some v)) → whole? (f.put v j) = some (set b a)) :
    Leads [f] whole? middle? get set where
  exists_at hread := by
    obtain ⟨l, k, hl, hk, hmiddle, -⟩ := h hread
    refine ⟨k, ?_, hmiddle⟩
    rw [at?_single, Field.get?_eq_some_iff]
    exact ⟨l, hl, hk⟩
  putAt hread hv := by
    obtain ⟨l, k, hl, hk, -, hput⟩ := h hread
    rw [Json.putAt, Field.get?_eq_some_iff.mpr ⟨l, hl, hk⟩]
    exact hput hv (Field.fields?_put hl hk _)

/-- **A path through a field goes on with a path through its value.** -/
theorem cons {get : α → β} {set : β → α → α} {get' : β → γ} {set' : γ → β → β}
    (hf : Leads [f] whole? middle? get set) (hpath : Leads path middle? part? get' set') :
    Leads (f :: path) whole? part? (get' ∘ get) (fun c a => set (set' c (get a)) a) where
  exists_at hread := by
    obtain ⟨k, hk, hmiddle⟩ := hf.exists_at hread
    obtain ⟨i, hi, hpart⟩ := hpath.exists_at hmiddle
    rw [at?_single] at hk
    exact ⟨i, by rw [at?, hk, Option.bind_some, hi], hpart⟩
  putAt hread hv := by
    obtain ⟨k, hk, hmiddle⟩ := hf.exists_at hread
    have hput := hf.putAt hread (hpath.putAt hmiddle hv)
    rw [at?_single] at hk
    rw [Json.putAt, hk] at hput ⊢
    exact hput

end Leads

end ImageLoader.Json
