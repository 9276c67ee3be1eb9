import ImageLoader.Proofs.Loader.Agreement

/-!
# Sources that deliver the same

A file, a stream and bytes at hand may deliver the same bytes, a stream in chunks of any size and with reads in
between that are interrupted.  A loader sees nothing of its source but what it delivers, so with sources that
deliver the same it gives the same image, and the same frames after it.  A stream whose reads fail before its end
delivers nothing at all.

* `StreamRead.collect_eq_ok_iff`, `StreamRead.collect_eq_error_iff`: reading gives what a stream delivers, or the
  failure that breaks it.
* `Loader.loadBy_ready`, `Loader.loadBy_eq_ok`: an image comes from reading and probing its source, whatever
  happens in between.
* `Loader.load_of_source`: **sources that deliver the same are loaded alike, and a broken stream gives no image.**
-/

namespace ImageLoader

/-! ## What a stream delivers -/

namespace StreamRead

/-- The stream delivers these bytes: its chunks up to its end, or up to an empty chunk, joined. -/
inductive Delivers : List StreamRead → Bytes → Prop
  | done : Delivers [] ByteArray.empty
  | empty (rest : List StreamRead) : Delivers (.data ByteArray.empty :: rest) ByteArray.empty
  | interrupted {reads : List StreamRead} {b : Bytes} :
      Delivers reads b → Delivers (.interrupted :: reads) b
  | chunk {c : Bytes} {reads : List StreamRead} {b : Bytes} (hc : c ≠ ByteArray.empty) :
      Delivers reads b → Delivers (.data c :: reads) (c ++ b)

/-- A read of the stream fails with this text, before the stream has ended. -/
inductive Breaks : List StreamRead → String → Prop
  | failed (text : String) (rest : List StreamRead) : Breaks (.failed text :: rest) text
  | interrupted {reads : List StreamRead} {text : String} :
      Breaks reads text → Breaks (.interrupted :: reads) text
  | chunk {c : Bytes} {reads : List StreamRead} {text : String} (hc : c ≠ ByteArray.empty) :
      Breaks reads text → Breaks (.data c :: reads) text

theorem collect_empty (rest : List StreamRead) (done : Bytes) :
    collect (.data ByteArray.empty :: rest) done = .ok done := if_pos rfl

theorem collect_chunk {c : Bytes} (hc : c ≠ ByteArray.empty) (reads : List StreamRead) (done : Bytes) :
    collect (.data c :: reads) done = collect reads (done ++ c) := by
  refine if_neg fun h => hc ?_
  exact ByteArray.size_eq_zero_iff.mp (beq_iff_eq.mp h)

/-- **Reading a stream gives what it delivers**, behind what was read before. -/
theorem collect_eq_ok_iff {reads : List StreamRead} {done b : Bytes} :
    collect reads done = .ok b ↔ ∃ c, Delivers reads c ∧ b = done ++ c := by
  constructor
  · intro h
    induction reads generalizing done with
    | nil =>
      cases h
      exact ⟨ByteArray.empty, .done, by rw [ByteArray.append_empty]⟩
    | cons r reads ih =>
      cases r with
      | data c =>
        by_cases hc : c = ByteArray.empty
        · subst hc
          rw [collect_empty] at h
          cases h
          exact ⟨ByteArray.empty, .empty reads, by rw [ByteArray.append_empty]⟩
        · rw [collect_chunk hc] at h
          obtain ⟨d, hd, rfl⟩ := ih h
          exact ⟨c ++ d, .chunk hc hd, ByteArray.append_assoc ..⟩
      | interrupted =>
        obtain ⟨c, hc, hb⟩ := ih h
        exact ⟨c, .interrupted hc, hb⟩
      | failed text => cases h
  · rintro ⟨c, hc, rfl⟩
    induction hc generalizing done with
    | done => rw [ByteArray.append_empty]; rfl
    | empty rest => rw [ByteArray.append_empty, collect_empty]
    | interrupted _ ih => exact ih
    | chunk hc _ ih => rw [collect_chunk hc, ih, ByteArray.append_assoc]

/-- **Reading a stream fails as the stream breaks**, whatever was read before. -/
theorem collect_eq_error_iff {reads : List StreamRead} {done : Bytes} {text : String} :
    collect reads done = .error text ↔ Breaks reads text := by
  constructor
  · intro h
    induction reads generalizing done with
    | nil => cases h
    | cons r reads ih =>
      cases r with
      | data c =>
        by_cases hc : c = ByteArray.empty
        · subst hc
          rw [collect_empty] at h
          cases h
        · rw [collect_chunk hc] at h
          exact .chunk hc (ih h)
      | interrupted => exact .interrupted (ih h)
      | failed text => cases h; exact .failed _ reads
  · intro h
    induction h generalizing done with
    | failed text rest => rfl
    | interrupted _ ih => exact ih
    | chunk hc _ ih => rw [collect_chunk hc, ih]

end StreamRead

/-- The source delivers these bytes. -/
def Source.Delivers (read : FileReader) : Source → Bytes → Prop
  | .file path, b => read path = .ok b
  | .stream reads, b => StreamRead.Delivers reads b
  | .bytes c, b => c = b

theorem Source.readAll_of_delivers {read : FileReader} {s : Source} {b : Bytes}
    (h : s.Delivers read b) : s.readAll read = .ok b := by
  cases s with
  | file path =>
    have hp : read path = .ok b := h
    simp only [readAll, hp]
  | stream reads =>
    have hr : StreamRead.collect reads ByteArray.empty = .ok b :=
      StreamRead.collect_eq_ok_iff.mpr ⟨b, h, by rw [ByteArray.empty_append]⟩
    simp only [readAll, hr]
  | bytes c =>
    cases h
    rfl

theorem Source.readAll_of_breaks (read : FileReader) {reads : List StreamRead} {text : String}
    (h : StreamRead.Breaks reads text) :
    (Source.stream reads).readAll read = .error (.sourceUnreadable s!"stream: {text}") := by
  simp only [readAll, StreamRead.collect_eq_error_iff.mpr h]

theorem Poll.drive_congr {F α ω : Type} {poll poll' : F → ω → Poll F (Except LoadError α) × ω}
    {rank : F → Nat × Nat}
    {lower : ∀ f w next w', poll f w = (.pending next, w') →
      Prod.Lex (· < ·) (· < ·) (rank next) (rank f)}
    {lower' : ∀ f w next w', poll' f w = (.pending next, w') →
      Prod.Lex (· < ·) (· < ·) (rank next) (rank f)}
    (h : poll = poll') (f : F) (w : ω) : drive poll rank lower f w = drive poll' rank lower' f w := by
  subst h
  rfl

/-- A poll under a guard that ends the work ends it as canceled, or as the work itself ends. -/
theorem Guarded.poll_ready {F α ω : Type} [HasCancellation ω]
    {inner : F → ω → Poll F (Except LoadError α) × ω} {g : Guarded F} {w w' : ω}
    {r : Except LoadError α} (hp : g.poll inner w = (.ready r, w')) :
    r = .error .canceled ∨ ∃ v, inner g.op v = (.ready r, w') := by
  have underway : ∀ t h op v, pollUnderway inner t h op v = (.ready r, w') →
      r = .error .canceled ∨ inner op v = (.ready r, w') := by
    intro t h op v hv
    unfold pollUnderway at hv
    split at hv
    · cases hv; exact .inl rfl
    · split at hv
      next next u hu => split at hv <;> cases hv; exact .inl rfl
      next s u hu =>
        split at hv
        · cases hv; exact .inl rfl
        · cases hv; exact .inr hu
      next p u hu => cases hv
  cases g with
  | bare op =>
    simp only [Guarded.poll] at hp
    rcases hi : inner op w with ⟨q, v⟩
    rw [hi] at hp
    cases q with
    | pending n => cases hp
    | ready s => cases hp; exact .inr ⟨w, hi⟩
    | panicked p => cases hp
  | waiting t op =>
    simp only [Guarded.poll] at hp
    split at hp
    · cases hp; exact .inl rfl
    · exact (underway t _ op _ hp).imp_right fun h => ⟨_, h⟩
  | underway t h op => exact (underway t h op w hp).imp_right fun h => ⟨w, h⟩

theorem Outcome.ofExcept_injective {ε α : Type} {r r' : Except ε α}
    (h : (ofExcept r : Outcome ε α) = .ofExcept r') : r = r' := by
  cases r <;> cases r' <;> cases h <;> rfl

namespace Loader

variable {σ : Type} {S : Services σ} {l l' : Loader}

/-! ## Where an image comes from -/

/-- What reading and probing gave, for an image. -/
def ReadFor (S : Services σ) (l : Loader) (img : Image) : Prop :=
  ∃ u v r, (l.readJob S (l.options S u).1 v).1 = .ok r ∧ img = l.image (l.options S u).1 r

theorem Reads.readFor {hd : Handling} {img : Image} {u : World σ}
    (h : l.Reads S (l.options S u).1 hd (.ok img)) : l.ReadFor S img := by
  obtain ⟨o, ho, himg⟩ := h
  cases o with
  | error stop => cases himg
  | ok r =>
    obtain ⟨v, hv⟩ := ho.exists_ok
    cases himg
    exact ⟨u, v, r, hv, rfl⟩

/-- A load that was waited for ends as canceled, or as reading and probing may end, whatever became of tokens and
tasks meanwhile. -/
theorem awaitLoad_ready {t : Option Token} {w : World σ} {r : Except LoadError Image}
    (h : (l.awaitLoad S t w).1 = .ofExcept r) :
    r = .error .canceled ∨ ∃ u, l.Reads S (l.options S u).1 (.pooled S .load) (.ofExcept r) := by
  suffices hall : ∀ r, (l.awaitLoad S t w).1 = .ofExcept r →
      r = .error .canceled ∨ ∃ u, l.Reads S (l.options S u).1 (.pooled S .load) (.ofExcept r) from hall r h
  refine Poll.drive_of_invariant
    (fun (g : Guarded LoadStage) (_ : World σ) => ∃ u, g.op.Fits S l (l.options S u).1)
    (fun o _ => ∀ r, o = .ofExcept r →
      r = .error .canceled ∨ ∃ u, l.Reads S (l.options S u).1 (.pooled S .load) (.ofExcept r))
    ?_ ?_ ?_ (Guarded.of t .idle) w ?_
  · rintro g v next v' ⟨u, hfit⟩ hp
    obtain ⟨v₁, hv₁⟩ := Guarded.poll_pending hp
    obtain ⟨u', hprogress⟩ := pollBare_progress hfit v₁
    rw [hv₁] at hprogress
    exact ⟨u', hprogress⟩
  · rintro g v r v' ⟨u, hfit⟩ hp r' hr
    obtain rfl := Outcome.ofExcept_injective hr
    refine (Guarded.poll_ready hp).imp_right fun ⟨v₁, hv₁⟩ => ?_
    obtain ⟨u', hprogress⟩ := pollBare_progress hfit v₁
    rw [hv₁] at hprogress
    exact ⟨u', hprogress⟩
  · intro g v p v' _ _ r hr
    cases r <;> cases hr
  · refine ⟨w, ?_⟩
    cases t <;> trivial

/-- So does a load, whichever way it is made. -/
theorem loadBy_ready {way : Way} {w : World σ} {r : Except LoadError Image}
    (h : (l.loadBy S way w).1 = .ofExcept r) :
    r = .error .canceled ∨ ∃ u hd, l.Reads S (l.options S u).1 hd (.ofExcept r) := by
  cases way with
  | onSpot =>
    have hr := DecodePolicy.ends_run (l.options S w).1.policy (l.readJob S (l.options S w).1)
      (l.options S w).2
    have hreads : l.Reads S (l.options S w).1 (.onSpot (l.options S w).1.policy) (l.load S w).1 :=
      ⟨_, hr, rfl⟩
    rw [show (l.load S w).1 = .ofExcept r from h] at hreads
    exact .inr ⟨w, _, hreads⟩
  | awaited t => exact (awaitLoad_ready h).imp_right fun ⟨u, hreads⟩ => ⟨u, _, hreads⟩

/-- **An image was read and probed**, whichever way it was loaded. -/
theorem loadBy_eq_ok {way : Way} {w : World σ} {img : Image} (h : (l.loadBy S way w).1 = .ok img) :
    l.ReadFor S img := by
  rcases loadBy_ready (r := .ok img) h with hr | ⟨u, hd, hreads⟩
  · cases hr
  · exact hreads.readFor

/-! ## Other sources -/

def reading (l : Loader) (s : Source) : Loader := { l with source := s }

theorem readJob_of_delivers {s : Source} {b : Bytes} (h : s.Delivers S.files b) (l : Loader) :
    (l.reading s).readJob S = (l.reading (.bytes b)).readJob S := by
  funext options w
  have hs : (l.reading s).source.readAll S.files = .ok b := Source.readAll_of_delivers h
  simp only [readJob, hs]
  rfl

theorem readJob_of_breaks {reads : List StreamRead} {text : String}
    (h : StreamRead.Breaks reads text) (l : Loader) (options : DecodeOptions) (w : World σ) :
    (l.reading (.stream reads)).readJob S options w =
      (.error (.error (.sourceUnreadable s!"stream: {text}")), w) := by
  have hs : (l.reading (.stream reads)).source.readAll S.files =
      .error (.sourceUnreadable s!"stream: {text}") := Source.readAll_of_breaks S.files h
  simp only [readJob, hs]

/-- What two loaders do is the same: each load, each poll of a load, and each session after it.  Where the two
ways of asking agree for one of them, they agree across both. -/
structure Alike (S : Services σ) (l l' : Loader) : Prop where
  load : ∀ way w, l.loadBy S way w = l'.loadBy S way w
  poll : ∀ g w, l.pollLoad S g w = l'.pollLoad S g w
  session : ∀ way asked w, l.session S way asked w = l'.session S way asked w
  ways : S.Deterministic → S.Completes true → ∀ options : DecodeOptions,
    (∀ v, (l.options S v).1 = options) → options.policy.mechanism.isSandboxed = true →
    ∀ (way way' : Way) (asked asked' : Asked) (w w' : World σ),
      asked.map Prod.fst = asked'.map Prod.fst →
      (∀ y ∈ way :: asked.map Prod.snd, Undisturbed S y w) →
      (∀ y ∈ way' :: asked'.map Prod.snd, Undisturbed S y w') →
        l.session S way asked w = l'.session S way' asked' w'

/-- Loaders that read alike, and differ in nothing but the source, are alike. -/
theorem alike_of_readJob_eq {s s' : Source}
    (h : (l.reading s).readJob S = (l.reading s').readJob S) :
    Alike S (l.reading s) (l.reading s') := by
  have hread : ∀ options task w, (l.reading s).pollReading S options task w =
      (l.reading s').pollReading S options task w := by
    intro options task w
    simp only [pollReading, h]
    rfl
  have hbare : (l.reading s).pollBare S = (l.reading s').pollBare S := by
    funext stage w
    cases stage with
    | idle =>
      simp only [pollBare, hread, h]
      rfl
    | reading options task => exact hread options task w
  have hpoll : (l.reading s).pollLoad S = (l.reading s').pollLoad S := by
    funext g w
    simp only [pollLoad, hbare]
  have hload : ∀ way w, (l.reading s).loadBy S way w = (l.reading s').loadBy S way w := by
    intro way w
    cases way with
    | onSpot =>
      simp only [loadBy, Loader.load, h]
      rfl
    | awaited t => exact Poll.drive_congr hpoll (Guarded.of t .idle) w
  have hsession : ∀ way asked w,
      (l.reading s).session S way asked w = (l.reading s').session S way asked w := by
    intro way asked w
    simp only [Loader.session, hload]
  refine ⟨hload, fun g w => by rw [hpoll], hsession, ?_⟩
  intro det pool options resolved sandboxed way way' asked asked' w w' same quiet quiet'
  rw [← hsession way' asked' w']
  exact (session_agree det pool (l.reading s) options resolved sandboxed way way' same quiet quiet').1

/-- A broken stream is refused by whoever reads it to the end of the job. -/
theorem Reads.of_breaks {reads : List StreamRead} {text : String} (h : StreamRead.Breaks reads text)
    {hd : Handling} (hf : ∀ e, ¬hd.fails e) {options : DecodeOptions} {o : Loaded Image}
    (hr : (l.reading (.stream reads)).Reads S options hd o) :
    o = .error (.error (.sourceUnreadable s!"stream: {text}")) := by
  have hjob := readJob_of_breaks (S := S) h l options
  obtain ⟨r, he, rfl⟩ := hr
  cases he with
  | @result v r hv =>
    rw [hjob v] at hv
    rw [← hv]
    rfl
  | @caught v p _ hv =>
    rw [hjob v] at hv
    cases hv
  | @escaped v p _ hv =>
    rw [hjob v] at hv
    cases hv
  | failed he => exact absurd he (hf _)

/-- **A loader sees of its source what it delivers.**  With sources that deliver the same bytes loads, and the
sessions after them, are the same.  With a stream that breaks there is no image, whatever the way and whatever
becomes of tokens and tasks, and a load that is not canceled or given up by the pool says so. -/
theorem load_of_source (S : Services σ) (l : Loader) :
    (∀ s s' b, s.Delivers S.files b → s'.Delivers S.files b →
      Alike S (l.reading s) (l.reading s')) ∧
    ∀ reads text, StreamRead.Breaks reads text → ∀ way w,
      (∀ img, ((l.reading (.stream reads)).loadBy S way w).1 ≠ .ok img) ∧
      (Undisturbed S way w → (way ≠ .onSpot → ∀ v, (S.plan .load v).1.failure = none) →
        ((l.reading (.stream reads)).loadBy S way w).1 =
          .error (.error (.sourceUnreadable s!"stream: {text}"))) := by
  refine ⟨fun s s' b hs hs' => ?_, fun reads text h way w => ⟨fun img himg => ?_, fun quiet hpool => ?_⟩⟩
  · exact alike_of_readJob_eq ((readJob_of_delivers hs l).trans (readJob_of_delivers hs' l).symm)
  · obtain ⟨u, v, r, hr, -⟩ := loadBy_eq_ok himg
    rw [readJob_of_breaks h] at hr
    cases hr
  · cases way with
    | onSpot =>
      simp only [loadBy, Loader.load, readJob_of_breaks h]
      rfl
    | awaited t =>
      obtain ⟨hs, hc⟩ := quiet
      simp only [Way.token?] at hs hc
      obtain ⟨u, hreads⟩ := awaitLoad_reads (l := l.reading (.stream reads)) hs hc
      refine Reads.of_breaks h (fun e he => ?_) hreads
      obtain ⟨v, hv⟩ := he
      rw [hpool (fun hway => Way.noConfusion hway) v] at hv
      cases hv

/-- Three bytes at hand, and from a stream that is interrupted between its chunks; and the stream that fails where
its last chunk was to come. -/
theorem load_of_source_chunks :
    let S := Services.whitePixel fun _ => { polls := 1, inBackground := true }
    let l := Loader.ofSource S.settings (.bytes (Bytes.ofList [1, 2, 3]))
    let first : List StreamRead := [.interrupted, .data (Bytes.ofList [1, 2]), .interrupted]
    (Source.stream (first ++ [.data (Bytes.ofList [3])])).Delivers S.files (Bytes.ofList [1, 2, 3]) ∧
      StreamRead.Breaks (first ++ [.failed "gone"]) "gone" ∧
      Alike S (l.reading (.stream (first ++ [.data (Bytes.ofList [3])])))
        (l.reading (.bytes (Bytes.ofList [1, 2, 3]))) ∧
      ((l.reading (.stream (first ++ [.failed "gone"]))).loadBy S (.awaited none) { state := () }).1 =
        .error (.error (.sourceUnreadable "stream: gone")) := by
  intro S l first
  have hd : (Source.stream (first ++ [.data (Bytes.ofList [3])])).Delivers S.files
      (Bytes.ofList [1, 2, 3]) :=
    .interrupted (.chunk (by decide) (.interrupted (.chunk (by decide) .done)))
  have hb : StreamRead.Breaks (first ++ [.failed "gone"]) "gone" :=
    .interrupted (.chunk (by decide) (.interrupted (.failed "gone" [])))
  have quiet : Undisturbed S (.awaited none) { state := () } := ⟨nofun, nofun⟩
  refine ⟨hd, hb, (load_of_source S l).1 _ _ _ hd rfl, ?_⟩
  exact ((load_of_source S l).2 _ _ hb _ _).2 quiet fun _ _ => rfl

end Loader

end ImageLoader
