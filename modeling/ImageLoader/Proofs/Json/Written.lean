import ImageLoader.Proofs.Json.Grammar

/-!
# What is written can be read

A value is written on one line, or spread over lines.  Either way it comes out as one of its texts, so the reader makes
the same value of it again.  Strings may hold any characters; numbers may be of any size.

* `Json.isWritable`: the values that can be written.
* `Json.textOf_compact`, `Json.textOf_prettyAt`: both written forms are texts of the value.
* `Json.parse?_compact`, `Json.parse?_pretty`: **what is written is read as what it was.**
-/

namespace ImageLoader.Json

mutual

/-- Can the value be written?  Half of a surrogate pair cannot, and zero is no negative integer. -/
def isWritable : Json → Bool
  | number n => n != .negative 0
  | brokenString | brokenObject => false
  | array items => areWritable items
  | object members => membersWritable members
  | _ => true

def areWritable : List Json → Bool
  | [] => true
  | j :: rest => isWritable j && areWritable rest

def membersWritable : List (String × Json) → Bool
  | [] => true
  | (_, j) :: rest => isWritable j && membersWritable rest

end

attribute [simp] isWritable areWritable membersWritable

variable {j : Json}

theorem areWritable_iff {l : List Json} : areWritable l = true ↔ ∀ j ∈ l, j.isWritable = true := by
  induction l with
  | nil => simp
  | cons j l ih => simp [ih]

@[simp] theorem isWritable_nat (n : Nat) : (nat n).isWritable = true := rfl

@[simp] theorem isWritable_option {α : Type} (toJson : α → Json) (o : Option α) :
    (option toJson o).isWritable = o.all fun a => (toJson a).isWritable := by
  cases o <;> rfl

/-! ## Strings -/

theorem toList_quote (s : String) : (quote s).toList = '"' :: (s.toList.flatMap escape ++ ['"']) := by
  rw [quote, String.toList_ofList]
  rfl

theorem exists_text? (s : String) : ∃ p, StringText (s.toList.flatMap escape ++ ['"']) p ∧ text? p = some s := by
  obtain ⟨p, hp, hspell⟩ := exists_stringText s.toList
  exact ⟨p, hp, by rw [text?, hspell, Option.map_some, String.ofList_toList]⟩

theorem textOf_quote (s : String) : TextOf (quote s).toList (.string s) := by
  obtain ⟨p, hp, htext⟩ := exists_text? s
  rw [toList_quote]
  exact .string hp htext

theorem keyOf_quote (s : String) : KeyOf (quote s).toList (some s) := by
  obtain ⟨p, hp, htext⟩ := exists_text? s
  have hkey := KeyOf.intro .nil hp .nil
  rw [List.nil_append, List.append_nil, htext] at hkey
  rwa [toList_quote]

/-! ## On one line -/

mutual

theorem textOf_compact : ∀ {j : Json}, j.isWritable = true → TextOf j.compact.toList j
  | .null, _ => .null
  | .bool true, _ => .yes
  | .bool false, _ => .no
  | .number _, h => .number (numberText_render (bne_iff_ne.mp h))
  | .string s, _ => textOf_quote s
  | .array [], _ => .noItems .nil
  | .array (j :: rest), h => by
    obtain ⟨hj, hrest⟩ := Bool.and_eq_true_iff.mp h
    have hitems := TextOf.array (itemsOf_compact hrest (textOf_compact hj).spaced)
    simpa [compact, String.toList_append] using hitems
  | .object [], _ => .noMembers .nil
  | .object ((key, j) :: rest), h => by
    obtain ⟨hj, hrest⟩ := Bool.and_eq_true_iff.mp h
    have hmembers := TextOf.object (m := (key, j) :: rest)
      (membersOf_compact hrest (keyOf_quote key) (textOf_compact hj).spaced)
    simpa [compact, String.toList_append] using hmembers

theorem itemsOf_compact : ∀ {l : List Json}, areWritable l = true → ∀ {t : List Char} {j : Json}, Spaced t j →
    ItemsOf (t ++ (compactItems l).toList) (j :: l)
  | [], _, _, _, ht => by
    have hlast := ItemsOf.last ht
    simpa [compactItems] using hlast
  | k :: rest, h, _, _, ht => by
    obtain ⟨hk, hrest⟩ := Bool.and_eq_true_iff.mp h
    have hmore := ItemsOf.more ht (itemsOf_compact hrest (textOf_compact hk).spaced)
    simpa [compactItems, String.toList_append] using hmore

theorem membersOf_compact : ∀ {m : List (String × Json)}, membersWritable m = true →
    ∀ {k t : List Char} {key : Option String} {j : Json}, KeyOf k key → Spaced t j →
    MembersOf (k ++ ':' :: t ++ (compactMembers m).toList) ((key, j) :: keyed m)
  | [], _, _, _, _, _, hk, ht => by
    have hlast := MembersOf.last hk ht
    simpa [compactMembers] using hlast
  | (key, j) :: rest, h, _, _, _, _, hk, ht => by
    obtain ⟨hj, hrest⟩ := Bool.and_eq_true_iff.mp h
    have hmore := MembersOf.more hk ht (membersOf_compact hrest (keyOf_quote key) (textOf_compact hj).spaced)
    simpa [compactMembers, String.toList_append] using hmore

end

/-- **A value that is written on one line can be read.** -/
theorem parse?_compact (h : j.isWritable = true) : parse? j.compact.toList = some j :=
  parse?_eq_some_iff.mpr (textOf_compact h).spaced

/-! ## Spread over lines -/

theorem blanks_newLine (n : Nat) : Blanks (newLine n).toList := by
  have hlist : (newLine n).toList = '\n' :: List.replicate (2 * n) ' ' := by
    simp [newLine, String.toList_append, String.toList_ofList]
  rw [hlist]
  intro c hc
  rcases List.mem_cons.mp hc with rfl | hc
  · rfl
  · rw [List.eq_of_mem_replicate hc]
    rfl

theorem blanks_space : Blanks [' '] := List.forall_mem_singleton.mpr rfl

mutual

theorem textOf_prettyAt : ∀ (n : Nat) {j : Json}, j.isWritable = true → TextOf (j.prettyAt n).toList j
  | _, .null, _ => by
    rw [prettyAt]
    exact .null
  | _, .bool true, _ => by
    rw [prettyAt]
    exact .yes
  | _, .bool false, _ => by
    rw [prettyAt]
    exact .no
  | _, .number _, h => by
    rw [prettyAt]
    exact .number (numberText_render (bne_iff_ne.mp h))
  | _, .string s, _ => by
    rw [prettyAt]
    exact textOf_quote s
  | _, .array [], _ => by
    rw [prettyAt]
    exact .noItems .nil
  | n, .array (j :: rest), h => by
    obtain ⟨hj, hrest⟩ := Bool.and_eq_true_iff.mp h
    have hfirst := (textOf_prettyAt (n + 1) hj).spaced.pad (blanks_newLine (n + 1)) .nil
    have hitems := TextOf.array (itemsOf_prettyItems n hrest hfirst)
    simpa [prettyAt, String.toList_append] using hitems
  | _, .object [], _ => by
    rw [prettyAt]
    exact .noMembers .nil
  | n, .object ((key, j) :: rest), h => by
    obtain ⟨hj, hrest⟩ := Bool.and_eq_true_iff.mp h
    have hkey := (keyOf_quote key).pad (blanks_newLine (n + 1))
    have hfirst := (textOf_prettyAt (n + 1) hj).spaced.pad blanks_space .nil
    have hmembers := TextOf.object (m := (key, j) :: rest) (membersOf_prettyMembers n hrest hkey hfirst)
    simpa [prettyAt, String.toList_append] using hmembers

theorem itemsOf_prettyItems : ∀ (n : Nat) {l : List Json}, areWritable l = true →
    ∀ {t : List Char} {j : Json}, Spaced t j →
    ItemsOf (t ++ (prettyItems n l).toList ++ (newLine n).toList) (j :: l)
  | n, [], _, _, _, ht => by
    have hlast := ItemsOf.last (ht.pad .nil (blanks_newLine n))
    simpa [prettyItems] using hlast
  | n, k :: rest, h, _, _, ht => by
    obtain ⟨hk, hrest⟩ := Bool.and_eq_true_iff.mp h
    have hnext := (textOf_prettyAt (n + 1) hk).spaced.pad (blanks_newLine (n + 1)) .nil
    have hmore := ItemsOf.more ht (itemsOf_prettyItems n hrest hnext)
    simpa [prettyItems, String.toList_append] using hmore

theorem membersOf_prettyMembers : ∀ (n : Nat) {m : List (String × Json)}, membersWritable m = true →
    ∀ {k t : List Char} {key : Option String} {j : Json}, KeyOf k key → Spaced t j →
    MembersOf (k ++ ':' :: t ++ (prettyMembers n m).toList ++ (newLine n).toList) ((key, j) :: keyed m)
  | n, [], _, _, _, _, _, hk, ht => by
    have hlast := MembersOf.last hk (ht.pad .nil (blanks_newLine n))
    simpa [prettyMembers] using hlast
  | n, (key, j) :: rest, h, _, _, _, _, hk, ht => by
    obtain ⟨hj, hrest⟩ := Bool.and_eq_true_iff.mp h
    have hkey := (keyOf_quote key).pad (blanks_newLine (n + 1))
    have hnext := (textOf_prettyAt (n + 1) hj).spaced.pad blanks_space .nil
    have hmore := MembersOf.more hk ht (membersOf_prettyMembers n hrest hkey hnext)
    simpa [prettyMembers, String.toList_append] using hmore

end

/-- **A value that is written over lines can be read.** -/
theorem parse?_pretty (h : j.isWritable = true) : parse? j.pretty.toList = some j :=
  parse?_eq_some_iff.mpr (textOf_prettyAt 0 h).spaced

end ImageLoader.Json
