import ImageLoader.Proofs.Json.Tokens

/-!
# The grammar of JSON

Which texts a value has.  The grammar says nothing of characters that are left over, of recursion or of a bound on it;
the reader has all three.  They agree: a text is read as a value just if it is one of the texts of the value.  So what
is known of texts, such as that a part of one may be exchanged for another, carries over to the reader.

* `Json.TextOf`, `Json.Spaced`: the texts of a value, without and with blanks around them.
* `Json.parse?_eq_some_iff`: **the reader accepts the texts of the grammar**, and no others.
-/

namespace ImageLoader.Json

def Blanks (b : List Char) : Prop := ∀ c ∈ b, isBlank c = true

/-- A text of a key, with blanks around it; a key with half of a surrogate pair is not a text itself. -/
inductive KeyOf : List Char → Option String → Prop
  | intro {b t a : List Char} {p : List Piece} : Blanks b → StringText t p → Blanks a →
      KeyOf (b ++ '"' :: t ++ a) (text? p)

/-- Members whose keys are all texts. -/
def keyed (m : List (String × Json)) : List (Option String × Json) := m.map fun p => (some p.1, p.2)

mutual

inductive TextOf : List Char → Json → Prop
  | null : TextOf ('n' :: "ull".toList) .null
  | yes : TextOf ('t' :: "rue".toList) (.bool true)
  | no : TextOf ('f' :: "alse".toList) (.bool false)
  | number {t : List Char} {n : JsonNumber} : NumberText t n → TextOf t (.number n)
  | string {t : List Char} {p : List Piece} {s : String} : StringText t p → text? p = some s →
      TextOf ('"' :: t) (.string s)
  | brokenString {t : List Char} {p : List Piece} : StringText t p → text? p = none → TextOf ('"' :: t) .brokenString
  | noItems {b : List Char} : Blanks b → TextOf ('[' :: (b ++ [']'])) (.array [])
  | array {t : List Char} {l : List Json} : ItemsOf t l → TextOf ('[' :: (t ++ [']'])) (.array l)
  | noMembers {b : List Char} : Blanks b → TextOf ('{' :: (b ++ ['}'])) (.object [])
  | object {t : List Char} {m : List (String × Json)} : MembersOf t (keyed m) → TextOf ('{' :: (t ++ ['}'])) (.object m)
  | brokenObject {t : List Char} {m : List (Option String × Json)} {j : Json} : MembersOf t m → (none, j) ∈ m →
      TextOf ('{' :: (t ++ ['}'])) .brokenObject

/-- A text of a value, with blanks around it. -/
inductive Spaced : List Char → Json → Prop
  | intro {b t a : List Char} {j : Json} : Blanks b → TextOf t j → Blanks a → Spaced (b ++ t ++ a) j

/-- A text of the items of an array, with a comma between two of them. -/
inductive ItemsOf : List Char → List Json → Prop
  | last {t : List Char} {j : Json} : Spaced t j → ItemsOf t [j]
  | more {t u : List Char} {j : Json} {l : List Json} : Spaced t j → ItemsOf u l → ItemsOf (t ++ ',' :: u) (j :: l)

/-- A text of the members of an object, with a comma between two of them. -/
inductive MembersOf : List Char → List (Option String × Json) → Prop
  | last {k t : List Char} {key : Option String} {j : Json} : KeyOf k key → Spaced t j →
      MembersOf (k ++ ':' :: t) [(key, j)]
  | more {k t u : List Char} {key : Option String} {j : Json} {m : List (Option String × Json)} : KeyOf k key →
      Spaced t j → MembersOf u m → MembersOf (k ++ ':' :: t ++ ',' :: u) ((key, j) :: m)

end

variable {s t r a b : List Char} {c : Char} {j : Json} {l : List Json} {m : List (Option String × Json)}
  {key : Option String}

/-! ## Keys -/

@[simp] theorem keyed_nil : keyed [] = [] := rfl

@[simp] theorem keyed_cons (p : String × Json) (m : List (String × Json)) :
    keyed (p :: m) = (some p.1, p.2) :: keyed m := rfl

theorem keyed?_keyed (m : List (String × Json)) : keyed? (keyed m) = some m := by
  induction m with
  | nil => rfl
  | cons p m ih =>
    rw [keyed_cons, keyed?, ih]
    rfl

theorem keyed?_cases (m : List (Option String × Json)) :
    (∃ m', m = keyed m') ∨ (∃ j, (none, j) ∈ m) ∧ keyed? m = none := by
  induction m with
  | nil => exact .inl ⟨[], rfl⟩
  | cons p m ih =>
    rcases p with ⟨_ | key, j⟩
    · exact .inr ⟨⟨j, List.mem_cons_self⟩, rfl⟩
    · rcases ih with ⟨m', rfl⟩ | ⟨⟨i, hi⟩, hnone⟩
      · exact .inl ⟨(key, j) :: m', rfl⟩
      · refine .inr ⟨⟨i, List.mem_cons_of_mem _ hi⟩, ?_⟩
        rw [keyed?, hnone]
        rfl

theorem none_notMem_keyed (m : List (String × Json)) (j : Json) : (none, j) ∉ keyed m := by
  intro h
  obtain ⟨p, -, hp⟩ := List.mem_map.mp h
  cases hp

theorem objectOf_keyed (m : List (String × Json)) : objectOf (keyed m) = .object m := by
  rw [objectOf, keyed?_keyed]

theorem objectOf_of_mem (h : (none, j) ∈ m) : objectOf m = .brokenObject := by
  rcases keyed?_cases m with ⟨m', rfl⟩ | ⟨-, hnone⟩
  · exact absurd h (none_notMem_keyed m' j)
  · rw [objectOf, hnone]

/-- Members make an object, whatever their keys are. -/
theorem MembersOf.textOf (h : MembersOf t m) : TextOf ('{' :: (t ++ ['}'])) (objectOf m) := by
  rcases keyed?_cases m with ⟨m', rfl⟩ | ⟨⟨j, hj⟩, -⟩
  · rw [objectOf_keyed]
    exact .object h
  · rw [objectOf_of_mem hj]
    exact .brokenObject h hj

/-! ## Blanks -/

theorem exists_skipBlanks (s : List Char) : ∃ b, s = b ++ skipBlanks s ∧ Blanks b :=
  ⟨s.takeWhile isBlank, List.takeWhile_append_dropWhile.symm, fun _ => List.mem_takeWhile_imp⟩

theorem skipBlanks_append (hb : Blanks b) (s : List Char) : skipBlanks (b ++ s) = skipBlanks s :=
  List.dropWhile_append_of_pos hb

theorem skipBlanks_cons (hc : isBlank c = false) (s : List Char) : skipBlanks (c :: s) = c :: s :=
  List.dropWhile_cons_of_neg (Bool.eq_false_iff.mp hc)

theorem Blanks.nil : Blanks [] := List.forall_mem_nil _

theorem Blanks.append (ha : Blanks a) (hb : Blanks b) : Blanks (a ++ b) := by
  intro c hc
  rcases List.mem_append.mp hc with hc | hc
  · exact ha c hc
  · exact hb c hc

theorem skipBlanks_eq_nil_iff : skipBlanks s = [] ↔ Blanks s := List.dropWhile_eq_nil_iff

theorem KeyOf.pad (h : KeyOf t key) (hb : Blanks b) : KeyOf (b ++ t) key := by
  cases h with
  | intro hb' ht ha =>
    have hpad := KeyOf.intro (hb.append hb') ht ha
    simpa only [List.append_assoc] using hpad

theorem Spaced.pad (h : Spaced t j) (hb : Blanks b) (ha : Blanks a) : Spaced (b ++ t ++ a) j := by
  cases h with
  | intro hb' ht ha' =>
    have hpad := Spaced.intro (hb.append hb') ht (ha'.append ha)
    simpa only [List.append_assoc] using hpad

theorem TextOf.spaced (h : TextOf t j) : Spaced t j := by
  have hspaced := Spaced.intro .nil h .nil
  rwa [List.nil_append, List.append_nil] at hspaced

theorem ItemsOf.pad (h : ItemsOf t l) (hb : Blanks b) : ItemsOf (b ++ t) l := by
  cases h with
  | last ht =>
    have hpad := ItemsOf.last (ht.pad hb .nil)
    rwa [List.append_nil] at hpad
  | more ht hu =>
    have hpad := ItemsOf.more (ht.pad hb .nil) hu
    rwa [List.append_nil, List.append_assoc] at hpad

theorem MembersOf.pad (h : MembersOf t m) (hb : Blanks b) : MembersOf (b ++ t) m := by
  cases h with
  | last hk ht =>
    have hpad := MembersOf.last (hk.pad hb) ht
    rwa [List.append_assoc] at hpad
  | more hk ht hu =>
    have hpad := MembersOf.more (hk.pad hb) ht hu
    simpa only [List.append_assoc] using hpad

/-! ## What is read is a text -/

theorem word?_eq_some_iff {w : List Char} : word? w s = some r ↔ s = w ++ r := by
  unfold word?
  constructor
  · intro h
    split at h
    · rename_i hprefix
      cases h
      exact (List.prefix_iff_eq_append.mp (List.isPrefixOf_iff_prefix.mp hprefix)).symm
    · cases h
  · rintro rfl
    rw [if_pos (List.isPrefixOf_iff_prefix.mpr (List.prefix_append w r)), List.drop_left]

theorem word?_append (w r : List Char) : word? w (w ++ r) = some r := word?_eq_some_iff.mpr rfl

theorem eq_of_word? {w : List Char} {i : Json} (h : (word? w s).map (fun r => (i, r)) = some (j, r)) :
    j = i ∧ s = w ++ r := by
  obtain ⟨r', hr, hvalue⟩ := Option.map_eq_some_iff.mp h
  cases hvalue
  exact ⟨rfl, word?_eq_some_iff.mp hr⟩

/-- The reader takes texts only, with this bound on its recursion. -/
structure Takes (fuel : Nat) : Prop where
  value : ∀ {s j r}, value? fuel s = some (j, r) → ∃ b t, s = b ++ t ++ r ∧ Blanks b ∧ TextOf t j
  items : ∀ {s l r}, items? fuel s = some (l, r) → ∃ t, s = t ++ ']' :: r ∧ ItemsOf t l
  members : ∀ {s m r}, members? fuel s = some (m, r) → ∃ t, s = t ++ '}' :: r ∧ MembersOf t m

namespace Takes

variable {fuel : Nat}

theorem value_succ (ih : Takes fuel) (h : value? (fuel + 1) s = some (j, r)) :
    ∃ t, skipBlanks s = t ++ r ∧ TextOf t j := by
  rw [value?] at h
  split at h
  · rename_i rest hs
    obtain ⟨b, hrest, hb⟩ := exists_skipBlanks rest
    rw [hs, hrest]
    split at h
    · rename_i hclose
      cases h
      exact ⟨'{' :: (b ++ ['}']), by simp [hclose], .noMembers hb⟩
    · obtain ⟨⟨m, r'⟩, hm, hvalue⟩ := Option.map_eq_some_iff.mp h
      cases hvalue
      obtain ⟨t, ht, hmembers⟩ := ih.members hm
      exact ⟨'{' :: (b ++ t ++ ['}']), by simp [ht], (hmembers.pad hb).textOf⟩
  · rename_i rest hs
    obtain ⟨b, hrest, hb⟩ := exists_skipBlanks rest
    rw [hs, hrest]
    split at h
    · rename_i hclose
      cases h
      exact ⟨'[' :: (b ++ [']']), by simp [hclose], .noItems hb⟩
    · obtain ⟨⟨l, r'⟩, hl, hvalue⟩ := Option.map_eq_some_iff.mp h
      cases hvalue
      obtain ⟨t, ht, hitems⟩ := ih.items hl
      exact ⟨'[' :: (b ++ t ++ [']']), by simp [ht], .array (hitems.pad hb)⟩
  · rename_i rest hs
    obtain ⟨⟨p, r'⟩, hp, hvalue⟩ := Option.map_eq_some_iff.mp h
    obtain ⟨t, rfl, ht⟩ := exists_of_pieces? hp
    rw [hs]
    rcases htext : text? p with _ | text
    · simp only [htext] at hvalue
      cases hvalue
      exact ⟨'"' :: t, rfl, .brokenString ht htext⟩
    · simp only [htext] at hvalue
      cases hvalue
      exact ⟨'"' :: t, rfl, .string ht htext⟩
  · rename_i hs
    obtain ⟨rfl, rfl⟩ := eq_of_word? h
    rw [hs]
    exact ⟨_, rfl, .yes⟩
  · rename_i hs
    obtain ⟨rfl, rfl⟩ := eq_of_word? h
    rw [hs]
    exact ⟨_, rfl, .no⟩
  · rename_i hs
    obtain ⟨rfl, rfl⟩ := eq_of_word? h
    rw [hs]
    exact ⟨_, rfl, .null⟩
  · obtain ⟨⟨n, r'⟩, hn, hvalue⟩ := Option.map_eq_some_iff.mp h
    cases hvalue
    obtain ⟨t, ht, hnumber⟩ := exists_of_number? hn
    exact ⟨t, ht, .number hnumber⟩

theorem exists_spaced (ih : Takes fuel) (h : value? fuel s = some (j, r)) :
    ∃ t, s = t ++ skipBlanks r ∧ Spaced t j := by
  obtain ⟨b, t, rfl, hb, ht⟩ := ih.value h
  obtain ⟨a, hr, ha⟩ := exists_skipBlanks r
  refine ⟨b ++ t ++ a, ?_, .intro hb ht ha⟩
  rw [List.append_assoc (b ++ t), ← hr]

theorem items_succ (ih : Takes fuel) (h : items? (fuel + 1) s = some (l, r)) :
    ∃ t, s = t ++ ']' :: r ∧ ItemsOf t l := by
  simp only [items?, Option.bind_eq_bind, Option.bind_eq_some_iff] at h
  obtain ⟨⟨j, s'⟩, hj, h⟩ := h
  obtain ⟨t, rfl, ht⟩ := ih.exists_spaced hj
  split at h
  · rename_i rest hcomma
    obtain ⟨⟨l', r'⟩, hl, hvalue⟩ := Option.bind_eq_some_iff.mp h
    cases hvalue
    obtain ⟨u, rfl, hu⟩ := ih.items hl
    exact ⟨t ++ ',' :: u, by simp [hcomma], .more ht hu⟩
  · rename_i rest hclose
    cases h
    exact ⟨t, by rw [hclose], .last ht⟩
  · cases h

theorem exists_keyOf {rest : List Char} {p : List Piece} (hquote : skipBlanks s = '"' :: rest)
    (hp : pieces? rest = some (p, r)) : ∃ k, s = k ++ skipBlanks r ∧ KeyOf k (text? p) := by
  obtain ⟨t, rfl, ht⟩ := exists_of_pieces? hp
  obtain ⟨b, hs, hb⟩ := exists_skipBlanks s
  obtain ⟨a, hr, ha⟩ := exists_skipBlanks r
  refine ⟨b ++ '"' :: t ++ a, ?_, .intro hb ht ha⟩
  rw [hs, hquote, List.append_assoc (b ++ '"' :: t), ← hr]
  simp only [List.cons_append, List.append_assoc]

theorem members_succ (ih : Takes fuel) (h : members? (fuel + 1) s = some (m, r)) :
    ∃ t, s = t ++ '}' :: r ∧ MembersOf t m := by
  rw [members?] at h
  split at h
  · rename_i rest hquote
    simp only [Option.bind_eq_bind, Option.bind_eq_some_iff] at h
    obtain ⟨⟨p, s₁⟩, hp, h⟩ := h
    obtain ⟨k, rfl, hk⟩ := exists_keyOf hquote hp
    split at h
    · rename_i rest hcolon
      obtain ⟨⟨j, s₂⟩, hj, hnext⟩ := Option.bind_eq_some_iff.mp h
      obtain ⟨t, rfl, ht⟩ := ih.exists_spaced hj
      rw [hcolon]
      split at hnext
      · rename_i rest hcomma
        obtain ⟨⟨m', r'⟩, hm, hvalue⟩ := Option.bind_eq_some_iff.mp hnext
        cases hvalue
        obtain ⟨u, rfl, hu⟩ := ih.members hm
        exact ⟨k ++ ':' :: t ++ ',' :: u, by simp [hcomma], .more hk ht hu⟩
      · rename_i rest hclose
        cases hnext
        exact ⟨k ++ ':' :: t, by simp [hclose], .last hk ht⟩
      · cases hnext
    · cases h
  · cases h

end Takes

theorem takes (fuel : Nat) : Takes fuel := by
  induction fuel with
  | zero => exact ⟨nofun, nofun, nofun⟩
  | succ fuel ih =>
    refine ⟨fun {s j r} h => ?_, ih.items_succ, ih.members_succ⟩
    obtain ⟨b, hs, hb⟩ := exists_skipBlanks s
    obtain ⟨t, ht, htext⟩ := ih.value_succ h
    exact ⟨b, t, by rw [List.append_assoc, ← ht, ← hs], hb, htext⟩

/-! ## Texts are read -/

theorem skipBlanks_skipBlanks (s : List Char) : skipBlanks (skipBlanks s) = skipBlanks s :=
  List.dropWhile_idempotent isBlank s

theorem value?_skipBlanks (fuel : Nat) (s : List Char) : value? fuel (skipBlanks s) = value? fuel s := by
  cases fuel with
  | zero => rfl
  | succ fuel => rw [value?, value?, skipBlanks_skipBlanks]

theorem items?_skipBlanks (fuel : Nat) (s : List Char) : items? fuel (skipBlanks s) = items? fuel s := by
  cases fuel with
  | zero => rfl
  | succ fuel => rw [items?, items?, value?_skipBlanks]

theorem members?_skipBlanks (fuel : Nat) (s : List Char) : members? fuel (skipBlanks s) = members? fuel s := by
  cases fuel with
  | zero => rfl
  | succ fuel => rw [members?, members?, skipBlanks_skipBlanks]

theorem isBlank_of_isDigit (hc : isDigit c = true) : isBlank c = false := by
  rw [isDigit_eq] at hc
  rw [Bool.eq_false_iff]
  intro hblank
  simp only [isBlank, Bool.or_eq_true, decide_eq_true_eq] at hblank
  rcases hblank with ((rfl | rfl) | rfl) | rfl <;> exact absurd hc (by decide)

theorem stops_append (ha : Blanks a) (hr : Stops r) : Stops (a ++ r) := by
  cases a with
  | nil => exact hr
  | cons c a =>
    have hc := ha c List.mem_cons_self
    simp only [isBlank, Bool.or_eq_true, decide_eq_true_eq] at hc
    rintro _ ⟨⟩
    rcases hc with ((rfl | rfl) | rfl) | rfl <;> decide

/-- A text of a value begins with neither a blank nor a bracket that closes. -/
theorem TextOf.exists_cons (h : TextOf t j) : ∃ c u, t = c :: u ∧ isBlank c = false ∧ c ≠ ']' := by
  cases h with
  | number hn =>
    obtain ⟨c, u, rfl, hc⟩ := hn.exists_cons
    refine ⟨c, u, rfl, ?_, ?_⟩
    · rcases hc with rfl | hc
      · rfl
      · exact isBlank_of_isDigit hc
    · rintro rfl
      exact absurd hc (by decide)
  | _ => exact ⟨_, _, rfl, rfl, by decide⟩

theorem ItemsOf.exists_skipBlanks (h : ItemsOf t l) (r : List Char) :
    ∃ c u, skipBlanks (t ++ r) = c :: u ∧ c ≠ ']' := by
  have hspaced : ∀ {t j}, Spaced t j → ∀ r, ∃ c u, skipBlanks (t ++ r) = c :: u ∧ c ≠ ']' := by
    rintro _ _ ⟨hb, ht, -⟩ r
    obtain ⟨c, u, rfl, hc, hne⟩ := ht.exists_cons
    rw [List.append_assoc, List.append_assoc, skipBlanks_append hb, List.cons_append, skipBlanks_cons hc]
    exact ⟨c, _, rfl, hne⟩
  cases h with
  | last ht => exact hspaced ht r
  | more ht _ =>
    rw [List.append_assoc]
    exact hspaced ht _

/-- A key is read, and the blanks around it do not matter. -/
theorem KeyOf.exists_pieces (h : KeyOf t key) (r : List Char) : ∃ u p r', skipBlanks (t ++ r) = '"' :: u ∧
    pieces? u = some (p, r') ∧ text? p = key ∧ skipBlanks r' = skipBlanks r := by
  cases h with
  | @intro b t a p hb ht ha =>
    refine ⟨t ++ (a ++ r), p, a ++ r, ?_, pieces?_append ht _, rfl, skipBlanks_append ha r⟩
    rw [List.append_assoc, List.append_assoc, skipBlanks_append hb, List.cons_append, skipBlanks_cons rfl]

theorem MembersOf.exists_skipBlanks (h : MembersOf t m) (r : List Char) : ∃ u, skipBlanks (t ++ r) = '"' :: u := by
  cases h with
  | last hk _ =>
    rw [List.append_assoc]
    obtain ⟨u, -, -, hu, -⟩ := hk.exists_pieces _
    exact ⟨u, hu⟩
  | more hk _ _ =>
    rw [List.append_assoc, List.append_assoc]
    obtain ⟨u, -, -, hu, -⟩ := hk.exists_pieces _
    exact ⟨u, hu⟩

/-- The reader reads all texts that are short enough for this bound on its recursion. -/
structure Reads (fuel : Nat) : Prop where
  value : ∀ {b t j r}, Blanks b → TextOf t j → Stops r → 2 * t.length ≤ fuel →
    value? fuel (b ++ t ++ r) = some (j, r)
  items : ∀ {t l r}, ItemsOf t l → 2 * t.length < fuel → items? fuel (t ++ ']' :: r) = some (l, r)
  members : ∀ {t m r}, MembersOf t m → 2 * t.length < fuel → members? fuel (t ++ '}' :: r) = some (m, r)

namespace Reads

variable {fuel : Nat}

/-- Members begin with a quote, so they are not taken for the end of the object. -/
theorem exists_members (ih : Reads fuel) (hm : MembersOf t m) (hfuel : 2 * t.length < fuel) (r : List Char) :
    ∃ u, skipBlanks (t ++ ['}'] ++ r) = '"' :: u ∧ members? fuel ('"' :: u) = some (m, r) := by
  obtain ⟨u, hu⟩ := hm.exists_skipBlanks (['}'] ++ r)
  rw [← List.append_assoc] at hu
  refine ⟨u, hu, ?_⟩
  rw [← hu, members?_skipBlanks, List.append_assoc]
  exact ih.members hm hfuel

theorem value_succ (ih : Reads fuel) (hb : Blanks b) (ht : TextOf t j) (hr : Stops r)
    (hfuel : 2 * t.length ≤ fuel + 1) : value? (fuel + 1) (b ++ t ++ r) = some (j, r) := by
  have hskip : skipBlanks (b ++ t ++ r) = t ++ r := by
    obtain ⟨c, u, rfl, hc, -⟩ := ht.exists_cons
    rw [List.append_assoc, skipBlanks_append hb, List.cons_append, skipBlanks_cons hc]
  rw [value?, hskip]
  cases ht with
  | null | yes | no => simp only [List.cons_append, word?_append, Option.map_some]
  | number hn =>
    obtain ⟨c, u, rfl, hc⟩ := hn.exists_cons
    have hnumber := number?_append hn hr
    rw [List.cons_append] at hnumber ⊢
    -- neither a digit nor the sign begins a value of another kind
    split
    case h_7 => rw [hnumber, Option.map_some]
    all_goals
      rename_i heq
      obtain ⟨rfl, -⟩ := List.cons.inj heq
      exact absurd hc (by decide)
  | string ht htext => simp only [List.cons_append, pieces?_append ht, Option.map_some, htext]
  | brokenString ht htext => simp only [List.cons_append, pieces?_append ht, Option.map_some, htext]
  | @noItems b hb =>
    have hclose : skipBlanks (b ++ [']'] ++ r) = ']' :: r := by
      rw [List.append_assoc, skipBlanks_append hb]
      exact skipBlanks_cons rfl r
    simp only [List.cons_append, hclose]
  | @array t l hl =>
    have hitems : items? fuel (t ++ [']'] ++ r) = some (l, r) := by
      rw [List.append_assoc]
      exact ih.items hl (by simp at hfuel; omega)
    obtain ⟨c, u, hu, hc⟩ := hl.exists_skipBlanks ([']'] ++ r)
    rw [← List.append_assoc] at hu
    rw [← items?_skipBlanks, hu] at hitems
    simp only [List.cons_append, hu]
    split
    · rename_i heq
      exact absurd (List.cons.inj heq).1 hc
    · rw [hitems, Option.map_some]
  | @noMembers b hb =>
    have hclose : skipBlanks (b ++ ['}'] ++ r) = '}' :: r := by
      rw [List.append_assoc, skipBlanks_append hb]
      exact skipBlanks_cons rfl r
    simp only [List.cons_append, hclose]
  | @object t m hm =>
    obtain ⟨u, hu, hmembers⟩ := ih.exists_members hm (by simp at hfuel; omega) r
    simp only [List.cons_append, hu]
    show (members? fuel ('"' :: u)).map _ = _
    rw [hmembers, Option.map_some, objectOf_keyed]
  | @brokenObject t m _ hm hj =>
    obtain ⟨u, hu, hmembers⟩ := ih.exists_members hm (by simp at hfuel; omega) r
    simp only [List.cons_append, hu]
    show (members? fuel ('"' :: u)).map _ = _
    rw [hmembers, Option.map_some, objectOf_of_mem hj]

theorem exists_value (ih : Reads fuel) (ht : Spaced t j) (hc : c = ',' ∨ c = ']' ∨ c = '}')
    (hfuel : 2 * t.length ≤ fuel) (r : List Char) :
    ∃ r', value? fuel (t ++ c :: r) = some (j, r') ∧ skipBlanks r' = c :: r := by
  cases ht with
  | @intro b t a _ hb ht ha =>
    have hstops : Stops (a ++ c :: r) := stops_append ha (by rintro _ ⟨⟩; rcases hc with rfl | rfl | rfl <;> decide)
    have hblank : isBlank c = false := by rcases hc with rfl | rfl | rfl <;> rfl
    have hlength : 2 * t.length ≤ fuel := by simp at hfuel; omega
    refine ⟨a ++ c :: r, ?_, ?_⟩
    · rw [List.append_assoc]
      exact ih.value hb ht hstops hlength
    · rw [skipBlanks_append ha, skipBlanks_cons hblank]

theorem items_succ (ih : Reads fuel) (hl : ItemsOf t l) (hfuel : 2 * t.length < fuel + 1) (r : List Char) :
    items? (fuel + 1) (t ++ ']' :: r) = some (l, r) := by
  cases hl with
  | last ht =>
    obtain ⟨r', hvalue, hr'⟩ := ih.exists_value ht (.inr (.inl rfl)) (by omega) r
    simp [items?, hvalue, hr']
  | @more t u j l ht hu =>
    have hlength : 2 * t.length ≤ fuel ∧ 2 * u.length < fuel := by simp at hfuel; omega
    obtain ⟨r', hvalue, hr'⟩ := ih.exists_value ht (.inl rfl) hlength.1 (u ++ ']' :: r)
    rw [List.append_assoc, List.cons_append]
    simp [items?, hvalue, hr', ih.items hu hlength.2]

theorem members_succ (ih : Reads fuel) (hm : MembersOf t m) (hfuel : 2 * t.length < fuel + 1) (r : List Char) :
    members? (fuel + 1) (t ++ '}' :: r) = some (m, r) := by
  cases hm with
  | @last k t key j hk ht =>
    obtain ⟨v, p, s, hquote, hp, hkey, hcolon⟩ := hk.exists_pieces (':' :: (t ++ '}' :: r))
    obtain ⟨r', hvalue, hr'⟩ := ih.exists_value ht (.inr (.inr rfl)) (by simp at hfuel; omega) r
    rw [skipBlanks_cons rfl] at hcolon
    rw [List.append_assoc, List.cons_append]
    simp [members?, hquote, hp, hkey, hcolon, hvalue, hr']
  | @more k t u key j m hk ht hu =>
    have hlength : 2 * t.length ≤ fuel ∧ 2 * u.length < fuel := by simp at hfuel; omega
    have hsplit : k ++ ':' :: t ++ ',' :: u ++ '}' :: r = k ++ ':' :: (t ++ ',' :: (u ++ '}' :: r)) := by simp
    obtain ⟨v, p, s, hquote, hp, hkey, hcolon⟩ := hk.exists_pieces (':' :: (t ++ ',' :: (u ++ '}' :: r)))
    obtain ⟨r', hvalue, hr'⟩ := ih.exists_value ht (.inl rfl) hlength.1 (u ++ '}' :: r)
    rw [skipBlanks_cons rfl] at hcolon
    rw [hsplit]
    simp [members?, hquote, hp, hkey, hcolon, hvalue, hr', ih.members hu hlength.2]

end Reads

theorem reads (fuel : Nat) : Reads fuel := by
  induction fuel with
  | zero =>
    refine ⟨fun _ ht _ hfuel => ?_, fun _ hfuel => absurd hfuel (Nat.not_lt_zero _),
      fun _ hfuel => absurd hfuel (Nat.not_lt_zero _)⟩
    obtain ⟨c, u, rfl, -⟩ := ht.exists_cons
    simp at hfuel
  | succ fuel ih =>
    exact ⟨ih.value_succ, fun hl hfuel => ih.items_succ hl hfuel _, fun hm hfuel => ih.members_succ hm hfuel _⟩

/-- **The reader accepts the texts of the grammar**, and no others. -/
theorem parse?_eq_some_iff : parse? s = some j ↔ Spaced s j := by
  unfold parse?
  constructor
  · intro h
    split at h
    · rename_i j' rest hvalue
      split at h
      · rename_i hempty
        cases h
        obtain ⟨t, rfl, ht⟩ := (takes _).exists_spaced hvalue
        rwa [List.isEmpty_iff.mp hempty, List.append_nil]
      · cases h
    · cases h
  · intro h
    cases h with
    | @intro b t a _ hb ht ha =>
      have hstops : Stops a := by
        have hnil := stops_append ha (r := []) nofun
        rwa [List.append_nil] at hnil
      rw [(reads _).value hb ht hstops (by simp; omega)]
      simp [skipBlanks_eq_nil_iff.mpr ha]

end ImageLoader.Json
