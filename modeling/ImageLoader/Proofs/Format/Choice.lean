import ImageLoader.Format.Selection

/-!
# The choice of a format

* `contains_of_best?`: **the format that is chosen from a set is a member of it.**
* `best?_eq_none_iff`: **and one is chosen wherever there is a member.**
-/

namespace ImageLoader.FormatSet

variable {s : FormatSet} {source f : MemoryFormat}

theorem contains_of_mem_toList (h : f ∈ s.toList) : s.contains f = true :=
  (List.mem_filter.mp h).2

theorem cheapest_mem (source best : MemoryFormat) (l : List MemoryFormat) :
    cheapest source best l ∈ best :: l := by
  induction l generalizing best with
  | nil => exact List.mem_cons_self
  | cons f rest ih =>
    unfold cheapest
    by_cases h : (ConversionCost.of source f).lower (ConversionCost.of source best) = true
    · rw [if_pos h]
      exact List.mem_cons_of_mem best (ih f)
    · rw [if_neg h]
      rcases List.mem_cons.mp (ih best) with hb | hr
      · rw [hb]
        exact List.mem_cons_self
      · exact List.mem_cons_of_mem best (List.mem_cons_of_mem f hr)

/-- **What is chosen is a member.** -/
theorem contains_of_best? (h : s.best? source = some f) : s.contains f = true := by
  unfold best? at h
  by_cases hs : s.contains source = true
  · rw [if_pos hs] at h
    cases h
    exact hs
  · rw [if_neg hs] at h
    split at h
    next hl => cases h
    next g rest hl =>
      cases h
      have hmem := cheapest_mem source g rest
      rw [← hl] at hmem
      exact contains_of_mem_toList hmem

/-- **Something is chosen from every set that has a member.** -/
theorem best?_eq_none_iff : s.best? source = none ↔ s.toList = [] := by
  unfold best?
  by_cases hs : s.contains source = true
  · have hmem : source ∈ s.toList := List.mem_filter.mpr ⟨MemoryFormat.mem_all source, hs⟩
    rw [if_pos hs]
    refine ⟨(nomatch ·), fun h => ?_⟩
    rw [h] at hmem
    cases hmem
  · rw [if_neg hs]
    cases hl : s.toList with
    | nil => exact ⟨fun _ => rfl, fun _ => rfl⟩
    | cons f rest => exact ⟨(nomatch ·), (nomatch ·)⟩

end ImageLoader.FormatSet
