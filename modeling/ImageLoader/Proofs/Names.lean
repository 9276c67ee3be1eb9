import Mathlib.Data.List.DropRight
import Mathlib.Data.List.Forall2
import ImageLoader.Frame.Json

/-!
# Names of formats and selectors

Formats and selectors are named by texts that people write.  A text names a value if its nick is what is left of the
text without the blanks around it, with capitals read as small letters, and the one of dash and underscore that nicks
do not have read as the other.  Formats and selectors follow one rule, with the two characters exchanged.

* `Text.Spells`: a text names a nick, character by character.
* `Text.foldName_eq_iff`: the spelling that is compared is the nick just if the text names it.
* `Text.Varied`: a text becomes another by changes that do not matter; `Varied.foldName_eq`: **they do not.**
* `ReadsNames`: what is promised of the names of a type.
* `readsNames`: **the names of formats and of selectors are read as promised.**
-/

namespace ImageLoader

namespace Text

variable {old new c d : Char} {s t name : List Char}

/-! ## Characters -/

/-- Of a dash and an underscore, one is read as the other. -/
def Exchanged (old new : Char) : Prop := old = '-' ∧ new = '_' ∨ old = '_' ∧ new = '-'

/-- A character `c` of a text stands for the character `d` of a name. -/
inductive ReadAs (old new : Char) : Char → Char → Prop
  | exchanged : ReadAs old new old new
  | capital {c : Char} : 'A' ≤ c → c ≤ 'Z' → ReadAs old new c c.toLower
  | same {c : Char} : c ≠ old → ¬ ('A' ≤ c ∧ c ≤ 'Z') → ReadAs old new c c

def reading (old new c : Char) : Char := if c = old then new else c.toLower

theorem toLower_of_not_capital (h : ¬ ('A' ≤ c ∧ c ≤ 'Z')) : c.toLower = c :=
  dif_neg h

theorem toNat_toLower (c : Char) :
    c.toLower.toNat = if 65 ≤ c.toNat ∧ c.toNat ≤ 90 then c.toNat + 32 else c.toNat := by
  by_cases hcapital : 65 ≤ c.toNat ∧ c.toNat ≤ 90
  · have hlower : c.toLower = ⟨c.val + 32, _⟩ := dif_pos hcapital
    have hadd : (c.val + 32).toNat = (c.val.toNat + 32) % 2 ^ 32 := UInt32.toNat_add c.val 32
    have hsmall : c.val.toNat ≤ 90 := hcapital.2
    rw [hlower, if_pos hcapital]
    show (c.val + 32).toNat = c.val.toNat + 32
    omega
  · rw [toLower_of_not_capital hcapital, if_neg hcapital]

theorem isBlank_toLower (c : Char) : isBlank c.toLower = isBlank c := by
  have hnat := toNat_toLower c
  split at hnat
  · rw [Bool.eq_iff_iff]
    simp only [isBlank, hnat, Bool.or_eq_true, Bool.and_eq_true, decide_eq_true_eq, beq_iff_eq]
    omega
  · rw [Char.toNat_inj.mp hnat]

theorem isBlank_reading (h : Exchanged old new) (c : Char) : isBlank (reading old new c) = isBlank c := by
  by_cases hold : c = old
  · rw [reading, if_pos hold, hold]
    rcases h with ⟨rfl, rfl⟩ | ⟨rfl, rfl⟩ <;> rfl
  · rw [reading, if_neg hold, isBlank_toLower]

theorem readAs_iff (h : Exchanged old new) : ReadAs old new c d ↔ reading old new c = d := by
  have hold : ¬ ('A' ≤ old ∧ old ≤ 'Z') := by
    rcases h with ⟨rfl, rfl⟩ | ⟨rfl, rfl⟩ <;> decide
  constructor
  · intro hread
    cases hread with
    | exchanged => exact if_pos rfl
    | capital hle hge =>
      have hne : c ≠ old := fun heq => hold ⟨heq ▸ hle, heq ▸ hge⟩
      rw [reading, if_neg hne]
    | same hne hsmall => rw [reading, if_neg hne, toLower_of_not_capital hsmall]
  · rintro rfl
    by_cases hne : c = old
    · subst hne
      rw [reading, if_pos rfl]
      exact .exchanged
    · rw [reading, if_neg hne]
      by_cases hcapital : 'A' ≤ c ∧ c ≤ 'Z'
      · exact .capital hcapital.1 hcapital.2
      · rw [toLower_of_not_capital hcapital]
        exact .same hne hcapital

/-! ## Blanks -/

theorem trim_map {f : Char → Char} (hf : ∀ c, isBlank (f c) = isBlank c) (s : List Char) :
    trim (s.map f) = (trim s).map f := by
  have hblank : isBlank ∘ f = isBlank := funext hf
  rw [trim, trim, trimEnd, trimEnd, List.dropWhile_map, hblank, ← List.map_reverse, List.dropWhile_map, hblank,
    List.map_reverse]

theorem trim_cons (hc : isBlank c = true) (s : List Char) : trim (c :: s) = trim s := by
  rw [trim, List.dropWhile_cons_of_pos hc, trim]

theorem trim_concat (hc : isBlank c = true) (s : List Char) : trim (s ++ [c]) = trim s := by
  rw [trim, trim, List.dropWhile_append]
  split
  · rename_i hnil
    rw [List.isEmpty_iff.mp hnil, List.dropWhile_cons_of_pos hc]
    rfl
  · exact List.rdropWhile_concat_pos isBlank _ c hc

/-- A text is what trimming leaves, between blanks. -/
theorem exists_trim (s : List Char) : ∃ before after, s = before ++ trim s ++ after ∧
    (∀ c ∈ before, isBlank c = true) ∧ ∀ c ∈ after, isBlank c = true := by
  refine ⟨s.takeWhile isBlank, (s.dropWhile isBlank).rtakeWhile isBlank, ?_, fun c => List.mem_takeWhile_imp,
    fun c => List.mem_rtakeWhile_imp⟩
  have hend : trim s ++ (s.dropWhile isBlank).rtakeWhile isBlank = s.dropWhile isBlank :=
    List.rdropWhile_append_rtakeWhile
  rw [List.append_assoc, hend, List.takeWhile_append_dropWhile]

/-! ## Texts that differ in what does not matter -/

/-- A text becomes another one by changes of the case of letters of ASCII, of dashes and underscores, and of the blanks
around it. -/
inductive Varied : List Char → List Char → Prop
  | case (s t : List Char) {c d : Char} : c.toLower = d.toLower → Varied (s ++ c :: t) (s ++ d :: t)
  | dash (s t : List Char) : Varied (s ++ '-' :: t) (s ++ '_' :: t)
  | before (s : List Char) {c : Char} : isBlank c = true → Varied (c :: s) s
  | after (s : List Char) {c : Char} : isBlank c = true → Varied (s ++ [c]) s
  | refl (s : List Char) : Varied s s
  | symm {s t : List Char} : Varied s t → Varied t s
  | trans {s t u : List Char} : Varied s t → Varied t u → Varied s u

theorem foldName_eq_trim (h : Exchanged old new) (s : List Char) :
    foldName old new s = trim (s.map (reading old new)) :=
  (trim_map (isBlank_reading h) s).symm

theorem reading_eq_of_toLower_eq (h : Exchanged old new) (heq : c.toLower = d.toLower) :
    reading old new c = reading old new d := by
  have hold : ∀ c : Char, c.toLower = old ↔ c = old := by
    intro c
    have hnat := toNat_toLower c
    rcases h with ⟨rfl, -⟩ | ⟨rfl, -⟩
    all_goals
      rw [← Char.toNat_inj, ← Char.toNat_inj, hnat]
      simp only [Char.reduceToNat]
      split <;> omega
  have hsame : c = old ↔ d = old := by
    rw [← hold c, ← hold d, heq]
  rw [reading, reading, heq]
  exact if_congr hsame rfl rfl

theorem reading_dash (h : Exchanged old new) : reading old new '-' = reading old new '_' := by
  rcases h with ⟨rfl, rfl⟩ | ⟨rfl, rfl⟩ <;> rfl

/-- **Texts that differ in what does not matter are compared as the same.** -/
theorem Varied.foldName_eq (h : Exchanged old new) (hst : Varied s t) :
    foldName old new s = foldName old new t := by
  induction hst with
  | case s t heq =>
    rw [foldName_eq_trim h, foldName_eq_trim h, List.map_append, List.map_append, List.map_cons, List.map_cons,
      reading_eq_of_toLower_eq h heq]
  | dash s t =>
    rw [foldName_eq_trim h, foldName_eq_trim h, List.map_append, List.map_append, List.map_cons, List.map_cons,
      reading_dash h]
  | before s hc => rw [foldName, trim_cons hc, foldName]
  | after s hc => rw [foldName, trim_concat hc, foldName]
  | refl s => rfl
  | symm _ ih => exact ih.symm
  | trans _ _ ih ih' => exact ih.trans ih'

/-- Blanks around a text do not matter, however many there are. -/
theorem Varied.pad {before after : List Char} (hbefore : ∀ c ∈ before, isBlank c = true)
    (hafter : ∀ c ∈ after, isBlank c = true) (s : List Char) : Varied (before ++ s ++ after) s := by
  have hend : Varied (s ++ after) s := by
    clear hbefore
    induction after generalizing s with
    | nil =>
      rw [List.append_nil]
      exact .refl s
    | cons c after ih =>
      have hrest : Varied (s ++ [c] ++ after) (s ++ [c]) := ih (fun d hd => hafter d (.tail c hd)) (s ++ [c])
      rw [List.append_assoc] at hrest
      exact hrest.trans (.after s (hafter c List.mem_cons_self))
  rw [List.append_assoc]
  induction before with
  | nil => exact hend
  | cons c before ih =>
    have hrest := ih fun d hd => hbefore d (.tail c hd)
    exact (Varied.before _ (hbefore c List.mem_cons_self)).trans hrest

/-! ## Texts that name something -/

/-- A text names something: between blanks, its characters stand for those of the name. -/
def Spells (old new : Char) (s name : List Char) : Prop :=
  ∃ before word after, s = before ++ word ++ after ∧ (∀ c ∈ before, isBlank c = true) ∧
    (∀ c ∈ after, isBlank c = true) ∧ List.Forall₂ (ReadAs old new) word name

theorem forall₂_readAs_iff (h : Exchanged old new) :
    List.Forall₂ (ReadAs old new) s name ↔ s.map (reading old new) = name := by
  rw [← List.forall₂_eq_eq_eq, List.forall₂_map_left_iff]
  constructor
  · exact List.Forall₂.imp fun c d => (readAs_iff h).mp
  · exact List.Forall₂.imp fun c d => (readAs_iff h).mpr

/-- **A text is compared as a name that has no blanks around it if it names it.** -/
theorem foldName_eq_iff (h : Exchanged old new) (hname : trim name = name) :
    foldName old new s = name ↔ Spells old new s name := by
  constructor
  · intro hs
    obtain ⟨before, after, hsplit, hbefore, hafter⟩ := exists_trim s
    exact ⟨before, trim s, after, hsplit, hbefore, hafter, (forall₂_readAs_iff h).mpr hs⟩
  · rintro ⟨before, word, after, rfl, hbefore, hafter, hword⟩
    rw [(Varied.pad hbefore hafter word).foldName_eq h, foldName_eq_trim h, (forall₂_readAs_iff h).mp hword, hname]

end Text

open Text

/-! ## The names of a type -/

/-- How the names of a type are read. -/
structure ReadsNames {α : Type} (old new : Char) (typeName : String) (nick : α → String) (ofJson? : Json → Option α)
    (parse : String → Except FrameError α) : Prop where
  /-- A text that names a value is read as the value, and no other text is. -/
  ok_iff : ∀ s v, parse s = .ok v ↔ Spells old new s.toList (nick v).toList
  /-- No text names two values. -/
  unique : ∀ s v w, Spells old new s (nick v).toList → Spells old new s (nick w).toList → v = w
  /-- A text that names none is returned as it is. -/
  error : ∀ s, (∀ v, ¬ Spells old new s.toList (nick v).toList) → parse s = .error (.unknownValue typeName s)
  /-- A value that is written can be read. -/
  parse_nick : ∀ v, parse (nick v) = .ok v
  /-- What is read in a document is read in a text. -/
  ofJson? : ∀ j v, ofJson? j = some v → ∃ s, j.asWord? = some s ∧ parse s = .ok v
  /-- What does not matter does not. -/
  varied : ∀ s t, Varied s.toList t.toList → ∀ v, parse s = .ok v ↔ parse t = .ok v

section

variable {α : Type} {all : List α} {nick : α → String} {old new : Char} {typeName s : String} {v : α}

/-- The value whose nick is the spelling that a text is compared by. -/
def named? (all : List α) (nick : α → String) (old new : Char) (s : String) : Option α :=
  all.find? fun v => (nick v).toList == foldName old new s.toList

/-- The values that are to have names: all of them, with nicks that are compared as they are. -/
structure Named (all : List α) (nick : α → String) (old new : Char) : Prop where
  exchanged : Exchanged old new
  mem_all : ∀ v, v ∈ all
  nick_injective : ∀ v w, nick v = nick w → v = w
  trim_nick : ∀ v ∈ all, trim (nick v).toList = (nick v).toList
  foldName_nick : ∀ v ∈ all, foldName old new (nick v).toList = (nick v).toList

theorem Named.eq_of_toList_eq (h : Named all nick old new) {v w : α} (heq : (nick v).toList = (nick w).toList) :
    v = w :=
  h.nick_injective v w (String.toList_inj.mp heq)

theorem Named.named?_eq_some_iff (h : Named all nick old new) :
    named? all nick old new s = some v ↔ Spells old new s.toList (nick v).toList := by
  rw [← foldName_eq_iff h.exchanged (h.trim_nick v (h.mem_all v)), named?]
  constructor
  · intro hfound
    have hv := List.find?_some hfound
    exact (beq_iff_eq.mp hv).symm
  · intro hs
    cases hfound : all.find? fun v => (nick v).toList == foldName old new s.toList with
    | none => exact absurd (beq_iff_eq.mpr hs.symm) (List.find?_eq_none.mp hfound v (h.mem_all v))
    | some w =>
      have hw := List.find?_some hfound
      exact congrArg some (h.eq_of_toList_eq ((beq_iff_eq.mp hw).trans hs))

/-- **Reading is as promised if it looks for the spelling that a text is compared by.** -/
theorem Named.reads (h : Named all nick old new) {ofJson? : Json → Option α}
    {parse : String → Except FrameError α}
    (hparse : ∀ s, parse s = ((named? all nick old new s).elim (.error (.unknownValue typeName s)) .ok))
    (hjson : ∀ j, ofJson? j = j.asWord?.bind fun s => all.find? fun v => nick v == s) :
    ReadsNames old new typeName nick ofJson? parse := by
  have hok : ∀ s v, parse s = .ok v ↔ named? all nick old new s = some v := by
    intro s v
    rw [hparse]
    cases named? all nick old new s <;> simp
  have hnick : ∀ v, parse (nick v) = .ok v := by
    intro v
    rw [hok, h.named?_eq_some_iff, ← foldName_eq_iff h.exchanged (h.trim_nick v (h.mem_all v))]
    exact h.foldName_nick v (h.mem_all v)
  refine ⟨fun s v => ?_, fun s v w hv hw => ?_, fun s hnone => ?_, hnick, fun j v hread => ?_, fun s t hst v => ?_⟩
  · rw [hok, h.named?_eq_some_iff]
  · rw [← foldName_eq_iff h.exchanged (h.trim_nick _ (h.mem_all _))] at hv hw
    exact h.eq_of_toList_eq (hv.symm.trans hw)
  · cases hfound : named? all nick old new s with
    | none => rw [hparse, hfound]; rfl
    | some v => exact absurd (h.named?_eq_some_iff.mp hfound) (hnone v)
  · rw [hjson] at hread
    obtain ⟨s, hs, hfound⟩ := Option.bind_eq_some_iff.mp hread
    have hv := List.find?_some hfound
    obtain rfl : nick v = s := beq_iff_eq.mp hv
    exact ⟨nick v, hs, hnick v⟩
  · rw [hok, hok, named?, named?, hst.foldName_eq h.exchanged]

end

/-! ## Formats and selectors -/

theorem MemoryFormat.named : Named all nick '-' '_' where
  exchanged := .inl ⟨rfl, rfl⟩
  mem_all := mem_all
  nick_injective := nick_injective
  trim_nick := by decide
  foldName_nick := by decide

theorem SandboxSelector.named : Named all nick '_' '-' where
  exchanged := .inr ⟨rfl, rfl⟩
  mem_all v := by cases v <;> decide
  nick_injective v w := by cases v <;> cases w <;> decide
  trim_nick := by decide
  foldName_nick := by decide

/-- **The names of formats and of selectors are read as promised**, formats with dashes read as underscores, and
selectors with underscores read as dashes. -/
theorem readsNames :
    ReadsNames '-' '_' "MemoryFormat" MemoryFormat.nick MemoryFormat.ofJson? MemoryFormat.parse ∧
      ReadsNames '_' '-' "SandboxSelector" SandboxSelector.nick SandboxSelector.ofJson? SandboxSelector.parse := by
  constructor
  · refine MemoryFormat.named.reads (fun s => ?_) fun j => rfl
    show MemoryFormat.parse s = (MemoryFormat.ofName? s).elim _ _
    rw [MemoryFormat.parse]
    cases MemoryFormat.ofName? s <;> rfl
  · refine SandboxSelector.named.reads (fun s => ?_) fun j => rfl
    show _ = (SandboxSelector.all.find? fun m => m.nick.toList == foldName '_' '-' s.toList).elim _ _
    rw [SandboxSelector.parse]
    cases SandboxSelector.all.find? fun m => m.nick.toList == foldName '_' '-' s.toList <;> rfl

end ImageLoader
