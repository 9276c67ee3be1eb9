import ImageLoader.Error
import ImageLoader.Frame.Edit

/-!
# The shape of an edited frame

Each edit of a frame rewrites some of its size, stride and format, and leaves the rest.  `PackedAs` says what a
frame has become of another: one of a given size and format, with no gap between its rows, that still says the
same of itself.

* `removePadding_packedAs`, `clip_packedAs`: an edit that goes well packs the frame.
* `convertTo_packedAs`: a conversion keeps a packed frame packed.
-/

namespace ImageLoader

theorem Outcome.ofExcept_eq_ok_iff {ε α : Type} {r : Except ε α} {a : α} :
    (ofExcept r : Outcome ε α) = .ok a ↔ r = .ok a := by
  cases r <;> simp [fail]

theorem Outcome.loading_eq_ok_iff {α : Type} {o : Outcome FrameError α} {a : α} :
    o.loading = .ok a ↔ o = .ok a := by
  rcases o with (e | p) | b <;> simp [loading, mapError, fail, panicked]

theorem Edited.toOutcome_eq_ok_iff {e : Edited} {g : RawFrame} :
    e.toOutcome = .ok g ↔ e.verdict = .ok () ∧ e.frame = g := by
  unfold toOutcome
  cases e.verdict <;> simp [Except.map]

namespace RawFrame

/-- What `f` has become: a packed frame of this size and format, with the delay and the details of `f`. -/
structure PackedAs (f g : RawFrame) (width height : UInt32) (format : MemoryFormat) : Prop where
  width_eq : g.width = width
  height_eq : g.height = height
  format_eq : g.format = format
  packed : g.stride.toNat = width.toNat * format.nBytes
  delay_eq : g.delay = f.delay
  details_eq : g.details = f.details

variable {f g h : RawFrame} {width height : UInt32} {format : MemoryFormat}

theorem PackedAs.trans {width' height' : UInt32} {format' : MemoryFormat}
    (hg : PackedAs f g width height format) (hh : PackedAs g h width' height' format') :
    PackedAs f h width' height' format' where
  width_eq := hh.width_eq
  height_eq := hh.height_eq
  format_eq := hh.format_eq
  packed := hh.packed
  delay_eq := hh.delay_eq.trans hg.delay_eq
  details_eq := hh.details_eq.trans hg.details_eq

theorem toNat_of_field {n : Nat} {v : UInt32} (h : field n = .ok v) : v.toNat = n := by
  unfold field at h
  by_cases hn : n < UInt32.size
  · rw [if_pos hn] at h
    cases h
    exact UInt32.toNat_ofNat_of_lt hn
  · rw [if_neg hn] at h
    cases h

theorem withStride_eq_ok {n : Nat} (h : (f.withStride n).toOutcome = .ok g) :
    ∃ stride : UInt32, stride.toNat = n ∧ g = { f with stride } := by
  obtain ⟨hv, hf⟩ := Edited.toOutcome_eq_ok_iff.mp h
  unfold withStride at hv hf
  rcases hs : field n with e | stride
  · rw [hs] at hv
    cases hv
  · rw [hs] at hf
    exact ⟨stride, toNat_of_field hs, hf.symm⟩

/-- **Removing the padding packs a frame** and keeps everything else. -/
theorem removePadding_packedAs (h : f.removePadding.toOutcome = .ok g) :
    PackedAs f g f.width f.height f.format := by
  obtain ⟨hv, hf⟩ := Edited.toOutcome_eq_ok_iff.mp h
  unfold removePadding at hv hf
  by_cases hs : f.stride.toNat = f.rowBytes
  · rw [if_pos hs] at hf
    subst hf
    exact ⟨rfl, rfl, rfl, hs, rfl, rfl⟩
  · rw [if_neg hs] at hv hf
    rcases hm : moveRows f.rowBytes f.stride.toNat (f.height.toNat - 1) 1 f.buf with p | buf
    · rw [hm] at hv
      cases hv
    · rw [hm] at hv hf
      rcases hr : field f.rowBytes with e | stride
      · rw [hr] at hv
        cases hv
      · rw [hr] at hf
        subst hf
        exact ⟨rfl, rfl, rfl, toNat_of_field hr, rfl, rfl⟩

/-- **Cutting out a region packs a frame** of the size of the region. -/
theorem clip_packedAs {r : ClipRegion} (h : (f.clip r).toOutcome = .ok g) :
    PackedAs f g r.width r.height f.format := by
  obtain ⟨hv, hf⟩ := Edited.toOutcome_eq_ok_iff.mp h
  unfold clip at hv hf h
  by_cases hfit : r.fits f.width f.height = true
  · rw [if_pos hfit] at hv hf h
    by_cases hcap : allocationLimit < r.width.toNat * f.format.nBytes * r.height.toNat
    · simp only [hcap, if_true] at hv
      cases hv
    · simp only [hcap, if_false] at hv h
      split at h
      next stop hg =>
        rw [hg] at hv
        cases hv
      next buf hg =>
        obtain ⟨stride, hstride, rfl⟩ := withStride_eq_ok h
        exact ⟨rfl, rfl, rfl, hstride, rfl, rfl⟩
  · rw [if_neg hfit] at hv
    cases hv

theorem convertTo_of_ok {image : Bytes} {c : MemoryFormat} (hne : c ≠ f.format)
    (h : convertBuffer f.format f.buf f.width.toNat f.height.toNat f.stride.toNat c = .ok image) :
    f.convertTo c = withStride { f with buf := image, format := c } (f.width.toNat * c.nBytes) := by
  unfold convertTo
  rw [if_neg hne, h]

theorem convertTo_of_error {stop : Stop FrameError} {c : MemoryFormat} (hne : c ≠ f.format)
    (h : convertBuffer f.format f.buf f.width.toNat f.height.toNat f.stride.toNat c = .error stop) :
    f.convertTo c = ⟨f, .error stop⟩ := by
  unfold convertTo
  rw [if_neg hne, h]

/-- A conversion to another format packs a frame. -/
theorem convertTo_packedAs_of_ne {target : MemoryFormat} (hne : target ≠ f.format)
    (h : (f.convertTo target).toOutcome = .ok g) : PackedAs f g f.width f.height target := by
  unfold convertTo at h
  rw [if_neg hne] at h
  split at h
  next stop hc =>
    cases (Edited.toOutcome_eq_ok_iff.mp h).1
  next buf hc =>
    obtain ⟨stride, hstride, rfl⟩ := withStride_eq_ok h
    exact ⟨rfl, rfl, rfl, hstride, rfl, rfl⟩

theorem convertTo_self (h : (f.convertTo f.format).toOutcome = .ok g) : g = f := by
  unfold convertTo at h
  rw [if_pos rfl] at h
  exact (Edited.toOutcome_eq_ok_iff.mp h).2.symm

/-- **A conversion keeps a packed frame packed**, with its size. -/
theorem convertTo_packedAs {target : MemoryFormat} (hf : PackedAs f g width height format)
    (h' : (g.convertTo target).toOutcome = .ok h) : PackedAs f h width height target := by
  by_cases hne : target = g.format
  · subst hne
    obtain rfl := convertTo_self h'
    rw [hf.format_eq]
    exact hf
  · have hc := hf.trans (convertTo_packedAs_of_ne hne h')
    rw [hf.width_eq, hf.height_eq] at hc
    exact hc

end RawFrame

end ImageLoader
