import ImageLoader.Config.Basic
import ImageLoader.Loader.Info
import ImageLoader.Proofs.Format.Members
import ImageLoader.Proofs.Json.Place

/-!
# Written forms

What is written for a configuration, a request, a region, or the details of a frame or an image, is read as what it was;
only what is left out of the form on purpose is missing afterwards.  The formats that a configuration accepts are
written as a list, although they are a set: the list may come in any order and with repetitions, and is put in order
when the configuration is written again.

* `Json.ReadsBack`: both texts of a value are read as it.
* `Json.ListIn`: where the list of formats stands in a text.
* `Json.Rearranges`: what may be done to this list, and what becomes of it.
* `Json.soundForms`: **written forms are read back, and lists of formats are read as sets.**
-/

namespace ImageLoader

open Json (fields?_object required required_eq_some_iff asUInt8?_nat asUInt32?_nat asUInt64?_nat optional_option)

/-! ## Values and their forms -/

theorem ClipRegion.ofJson?_toJson (r : ClipRegion) : ofJson? r.toJson = some r := by
  rw [toJson, ofJson?, fields?_object (by rfl) (by decide)]
  simp [required, asUInt32?_nat]

theorem FrameRequest.ofJson?_toJson (r : FrameRequest) : ofJson? r.toJson = some r := by
  have hscale : ∀ s : UInt32 × UInt32,
      Json.asPair? Json.asUInt32? (.array [.nat s.1.toNat, .nat s.2.toNat]) = some s := fun s => by
    simp [Json.asPair?, asUInt32?_nat]
  rw [toJson, ofJson?, fields?_object (by rfl) (by decide)]
  simp [optional_option ClipRegion.ofJson?_toJson rfl, optional_option hscale rfl]

/-- The colour profile is not part of the form. -/
theorem FrameDetails.ofJson?_toJson (d : FrameDetails) : ofJson? d.toJson = some { d with colorProfile := none } := by
  have hbool : ∀ b, Json.asBool? (.bool b) = some b := fun _ => rfl
  rw [toJson, ofJson?, fields?_object (by rfl) (by decide)]
  simp [optional_option asUInt8?_nat rfl, optional_option asUInt64?_nat rfl, optional_option hbool rfl]

/-- The metadata block is not part of the form. -/
theorem ImageInfo.ofJson?_toJson (i : ImageInfo) : ofJson? i.toJson = some { i with exif := none } := by
  have hstring : ∀ s, Json.asString? (.string s) = some s := fun _ => rfl
  rw [toJson, ofJson?, fields?_object (by rfl) (by decide)]
  simp [required, asUInt32?_nat, optional_option hstring rfl, Json.asBool?]

theorem SandboxSelector.ofJson?_toJson (s : SandboxSelector) : ofJson? s.toJson = some s := by
  cases s <;> rfl

theorem LogFormat.ofJson?_toJson (f : LogFormat) : ofJson? f.toJson = some f := by
  cases f <;> rfl

theorem FormatSet.Known.ofJson?_toJson {s : FormatSet} (hs : s.Known) : FormatSet.ofJson? s.toJson = some s := by
  rw [toJson, ofJson?_array, hs.ofList_toList]

theorem DecodeLimits.ofJson?_toJson (l : DecodeLimits) : ofJson? l.toJson = some l := by
  rw [toJson, ofJson?, fields?_object (by rfl) (by decide)]
  simp [optional_option asUInt32?_nat rfl, optional_option asUInt64?_nat rfl]

theorem LoaderConfig.ofJson?_toJson {c : LoaderConfig} (hc : c.acceptedFormats.Known) : ofJson? c.toJson = some c := by
  rw [toJson, ofJson?, fields?_object (by rfl) (by decide)]
  simp [required, hc.ofJson?_toJson, SandboxSelector.ofJson?_toJson, Json.asBool?, asUInt64?_nat,
    DecodeLimits.ofJson?_toJson]

theorem LoggingConfig.ofJson?_toJson (c : LoggingConfig) : ofJson? c.toJson = some c := by
  rw [toJson, ofJson?, fields?_object (by rfl) (by decide)]
  simp [required, LogFormat.ofJson?_toJson, Json.asBool?, Json.asString?]

theorem EnvironmentConfig.ofJson?_toJson (c : EnvironmentConfig) : ofJson? c.toJson = some c := by
  rw [toJson, ofJson?, fields?_object (by rfl) (by decide)]
  simp [required, Json.asString?]

theorem Config.ofJson?_toJson {c : Config} (hc : c.loader.acceptedFormats.Known) : ofJson? c.toJson = some c := by
  rw [toJson, ofJson?, fields?_object (by rfl) (by decide)]
  simp [required, LoaderConfig.ofJson?_toJson hc, LoggingConfig.ofJson?_toJson, EnvironmentConfig.ofJson?_toJson]

/-! ## Forms and their texts -/

theorem ClipRegion.isWritable_toJson (r : ClipRegion) : r.toJson.isWritable = true := by simp [toJson]

theorem FrameRequest.isWritable_toJson (r : FrameRequest) : r.toJson.isWritable = true := by
  simp [toJson, ClipRegion.isWritable_toJson]

theorem FrameDetails.isWritable_toJson (d : FrameDetails) : d.toJson.isWritable = true := by simp [toJson]

theorem ImageInfo.isWritable_toJson (i : ImageInfo) : i.toJson.isWritable = true := by simp [toJson]

theorem FormatSet.isWritable_toJson (s : FormatSet) : s.toJson.isWritable = true := by
  simp [toJson, Json.areWritable_iff, MemoryFormat.toJson]

theorem LoaderConfig.isWritable_toJson (c : LoaderConfig) : c.toJson.isWritable = true := by
  simp [toJson, FormatSet.isWritable_toJson, SandboxSelector.toJson, DecodeLimits.toJson]

theorem Config.isWritable_toJson (c : Config) : c.toJson.isWritable = true := by
  simp [toJson, LoaderConfig.isWritable_toJson, LoggingConfig.toJson, LogFormat.toJson, EnvironmentConfig.toJson]

namespace Json

variable {α : Type}

def read? (ofJson? : Json → Option α) (s : List Char) : Option α := (parse? s).bind ofJson?

/-- Both texts of a written value are read as `a`. -/
structure ReadsBack (ofJson? : Json → Option α) (j : Json) (a : α) : Prop where
  compact : read? ofJson? j.compact.toList = some a
  pretty : read? ofJson? j.pretty.toList = some a

theorem readsBack {ofJson? : Json → Option α} {j : Json} {a : α} (hwritable : j.isWritable = true)
    (hread : ofJson? j = some a) : ReadsBack ofJson? j a where
  compact := by rw [read?, parse?_compact hwritable, Option.bind_some, hread]
  pretty := by rw [read?, parse?_pretty hwritable, Option.bind_some, hread]

end Json

/-! ## Lists of formats -/

def LoaderConfig.formatsField : Json.Field where
  names := ["sandbox_selector", "accepted_memory_formats", "apply_transformations", "decode_timeout_secs",
    "max_texture_size", "limits"]
  number := 1
  nodup := by decide

def Config.loaderField : Json.Field where
  names := ["loader", "logging", "environment"]
  number := 0
  nodup := by decide

theorem LoaderConfig.ofJson?_eq_some_iff {j : Json} {c : LoaderConfig} : ofJson? j = some c ↔
    ∃ selector formats applied timeout texture limits,
      j.fields? formatsField.names =
        some [some selector, some formats, some applied, some timeout, some texture, some limits] ∧
      SandboxSelector.ofJson? selector = some c.sandboxSelector ∧
      FormatSet.ofJson? formats = some c.acceptedFormats ∧
      applied.asBool? = some c.applyTransformations ∧
      timeout.asUInt64? = some c.decodeTimeoutSeconds ∧
      texture.asUInt64? = some c.maxTextureSize ∧
      DecodeLimits.ofJson? limits = some c.limits := by
  constructor
  · intro h
    obtain ⟨l, hl, h⟩ := Option.bind_eq_some_iff.mp h
    split at h
    · simp only [Option.bind_eq_bind, Option.bind_eq_some_iff, required_eq_some_iff] at h
      obtain ⟨_, ⟨selector, rfl, hselector⟩, _, ⟨formats, rfl, hformats⟩, _, ⟨applied, rfl, happlied⟩,
        _, ⟨timeout, rfl, htimeout⟩, _, ⟨texture, rfl, htexture⟩, _, ⟨limits, rfl, hlimits⟩, hc⟩ := h
      cases hc
      exact ⟨_, _, _, _, _, _, hl, hselector, hformats, happlied, htimeout, htexture, hlimits⟩
    · cases h
  · rintro ⟨selector, formats, applied, timeout, texture, limits, hl, hselector, hformats, happlied, htimeout, htexture,
      hlimits⟩
    refine Option.bind_eq_some_iff.mpr ⟨_, hl, ?_⟩
    simp [required, hselector, hformats, happlied, htimeout, htexture, hlimits]

theorem Config.ofJson?_eq_some_iff {j : Json} {c : Config} : ofJson? j = some c ↔
    ∃ loader logging environment,
      j.fields? loaderField.names = some [some loader, some logging, some environment] ∧
      LoaderConfig.ofJson? loader = some c.loader ∧
      LoggingConfig.ofJson? logging = some c.logging ∧
      EnvironmentConfig.ofJson? environment = some c.environment := by
  constructor
  · intro h
    obtain ⟨l, hl, h⟩ := Option.bind_eq_some_iff.mp h
    split at h
    · simp only [Option.bind_eq_bind, Option.bind_eq_some_iff, required_eq_some_iff] at h
      obtain ⟨_, ⟨loader, rfl, hloader⟩, _, ⟨logging, rfl, hlogging⟩, _, ⟨environment, rfl, henvironment⟩, hc⟩ := h
      cases hc
      exact ⟨_, _, _, hl, hloader, hlogging, henvironment⟩
    · cases h
  · rintro ⟨loader, logging, environment, hl, hloader, hlogging, henvironment⟩
    refine Option.bind_eq_some_iff.mpr ⟨_, hl, ?_⟩
    simp [required, hloader, hlogging, henvironment]

theorem LoaderConfig.leads_formats : Json.Leads [formatsField] ofJson? FormatSet.ofJson? acceptedFormats
    (fun s c => { c with acceptedFormats := s }) := by
  refine .single fun {j c} h => ?_
  obtain ⟨selector, formats, applied, timeout, texture, limits, hl, hselector, hformats, hrest⟩ :=
    ofJson?_eq_some_iff.mp h
  refine ⟨_, formats, hl, rfl, hformats, fun hv hput => ?_⟩
  exact ofJson?_eq_some_iff.mpr ⟨selector, _, applied, timeout, texture, limits, hput, hselector, hv, hrest⟩

theorem Config.leads_loader : Json.Leads [loaderField] ofJson? LoaderConfig.ofJson? loader
    (fun l c => { c with loader := l }) := by
  refine .single fun {j c} h => ?_
  obtain ⟨loader, logging, environment, hl, hloader, hrest⟩ := ofJson?_eq_some_iff.mp h
  refine ⟨_, loader, hl, rfl, hloader, fun hv hput => ?_⟩
  exact ofJson?_eq_some_iff.mpr ⟨_, logging, environment, hput, hv, hrest⟩

theorem Config.leads_formats : Json.Leads [loaderField, LoaderConfig.formatsField] ofJson? FormatSet.ofJson?
    (fun c => c.loader.acceptedFormats)
    (fun s c => { c with loader := { c.loader with acceptedFormats := s } }) :=
  leads_loader.cons LoaderConfig.leads_formats

theorem LoaderConfig.at?_toJson (c : LoaderConfig) : c.toJson.at? [formatsField] = some c.acceptedFormats.toJson := by
  rw [Json.at?_single, Json.Field.get?_eq_some_iff]
  exact ⟨_, fields?_object (by rfl) formatsField.nodup, rfl⟩

theorem Config.at?_toJson (c : Config) :
    Json.at? [loaderField, LoaderConfig.formatsField] c.toJson = some c.loader.acceptedFormats.toJson := by
  have hloader : loaderField.get? c.toJson = some c.loader.toJson :=
    Json.Field.get?_eq_some_iff.mpr ⟨_, fields?_object (by rfl) loaderField.nodup, rfl⟩
  rw [Json.at?, hloader]
  exact c.loader.at?_toJson

theorem FormatSet.ofJson?_eq_some_iff {j : Json} {s : FormatSet} : ofJson? j = some s ↔
    ∃ items formats, j = .array items ∧ items.mapM MemoryFormat.ofJson? = some formats ∧ ofList formats = s := by
  cases j <;> simp [ofJson?, Json.asList?]

/-- **The order of a list of formats, and its repetitions, do not matter.** -/
theorem FormatSet.ofJson?_rearranged {items items' : List Json} {s : FormatSet} (h : ∀ j, j ∈ items' ↔ j ∈ items)
    (hread : ofJson? (.array items) = some s) : ofJson? (.array items') = some s := by
  obtain ⟨_, formats, ⟨⟩, hformats, rfl⟩ := ofJson?_eq_some_iff.mp hread
  have hall := Json.exists_mapM_iff.mp ⟨formats, hformats⟩
  obtain ⟨formats', hformats'⟩ := Json.exists_mapM_iff.mpr fun j hj => hall j ((h j).mp hj)
  refine ofJson?_eq_some_iff.mpr ⟨items', formats', rfl, hformats', ?_⟩
  refine (known_ofList formats').ext (known_ofList formats) fun f => ?_
  rw [contains_ofList_iff, contains_ofList_iff, Json.mem_iff_of_mapM hformats', Json.mem_iff_of_mapM hformats]
  simp only [h]

theorem MemoryFormat.isWritable_of_ofJson? {j : Json} {f : MemoryFormat} (h : ofJson? j = some f) :
    j.isWritable = true := by
  obtain ⟨word, hword, -⟩ := Option.bind_eq_some_iff.mp h
  unfold Json.asWord? at hword
  split at hword
  · simp
  · simp
  · cases hword

namespace Json

variable {α : Type} {path : List Field} {ofJson? : Json → Option α} {toJson : α → Json} {s : List Char} {a : α}

/-- In the text `before ++ list ++ after`, the items of the list at the end of the path stand in `list`. -/
structure ListIn (path : List Field) (s before list after : List Char) (items : List Json) : Prop where
  split : s = before ++ list ++ after
  list : parse? list = some (.array items)
  place : ∃ j, parse? s = some j ∧ at? path j = some (.array items) ∧ Place path j before after

/-- What is promised of a list of formats in a text that is read as `a`: all its rearrangements have texts, of which
each may stand in its place, and it is put in order when `a` is written. -/
structure Rearranges (path : List Field) (ofJson? : Json → Option α) (toJson : α → Json) (a : α)
    (s before list after : List Char) (items : List Json) : Prop where
  listIn : ListIn path s before list after items
  /-- The same items can be listed in any order, each any number of times. -/
  exists_list : ∀ {items'}, (∀ j, j ∈ items' ↔ j ∈ items) → ∃ list', parse? list' = some (.array items')
  /-- However they are listed, the text is read as the same value. -/
  read : ∀ {items' list'}, (∀ j, j ∈ items' ↔ j ∈ items) → parse? list' = some (.array items') →
    read? ofJson? (before ++ list' ++ after) = some a
  /-- Both texts of the value list the formats in the order of their numbers, each once. -/
  written : ∃ formats : List MemoryFormat, formats.Pairwise MemoryFormat.Precedes ∧
    (∀ f, f ∈ formats ↔ ∃ j ∈ items, MemoryFormat.ofJson? j = some f) ∧
    ∀ t, t = (toJson a).compact.toList ∨ t = (toJson a).pretty.toList →
      ∃ before list after, ListIn path t before list after (formats.map MemoryFormat.toJson)

theorem exists_listIn {j : Json} {items : List Json} (h : parse? s = some j) (hat : at? path j = some (.array items)) :
    ∃ before list after, ListIn path s before list after items := by
  obtain ⟨before, list, after, hs, hlist, hplace⟩ := exists_place h hat
  exact ⟨before, list, after, hs, hlist, j, h, hat, hplace⟩

theorem exists_rearranges {get : α → FormatSet} {set : FormatSet → α → α}
    (hpath : Leads path ofJson? FormatSet.ofJson? get set) (hset : ∀ a, set (get a) a = a)
    (hwritable : (toJson a).isWritable = true) (hat : at? path (toJson a) = some (get a).toJson)
    (h : read? ofJson? s = some a) :
    ∃ before list after items, Rearranges path ofJson? toJson a s before list after items := by
  obtain ⟨j, hj, hread⟩ := Option.bind_eq_some_iff.mp h
  obtain ⟨k, hk, hformats⟩ := hpath.exists_at hread
  obtain ⟨items, formats, rfl, hitems, hset'⟩ := FormatSet.ofJson?_eq_some_iff.mp hformats
  obtain ⟨before, list, after, hlist⟩ := exists_listIn hj hk
  refine ⟨before, list, after, items, hlist, fun {items'} hsame => ?_, fun {items' list'} hsame hlist' => ?_,
    (get a).toList, FormatSet.pairwise_toList _, fun f => ?_, fun t ht => ?_⟩
  · have hwritable' : (array items').isWritable = true := areWritable_iff.mpr fun i hi => by
      obtain ⟨f, hf⟩ := exists_mapM_iff.mp ⟨formats, hitems⟩ i ((hsame i).mp hi)
      exact MemoryFormat.isWritable_of_ofJson? hf
    exact ⟨_, parse?_compact hwritable'⟩
  · obtain ⟨j', hj', -, hplace⟩ := hlist.place
    cases hj.symm.trans hj'
    have hput := hpath.putAt hread (FormatSet.ofJson?_rearranged hsame hformats)
    rw [read?, hplace _ _ hlist', Option.bind_some, hput, hset]
  · rw [← hset', FormatSet.mem_toList, FormatSet.contains_ofList_iff, mem_iff_of_mapM hitems]
  · have htext : parse? t = some (toJson a) := by
      rcases ht with rfl | rfl
      · exact parse?_compact hwritable
      · exact parse?_pretty hwritable
    exact exists_listIn htext hat

/-! ## All forms -/

/-- What is promised of written forms. -/
structure SoundForms : Prop where
  clipRegion : ∀ r : ClipRegion, ReadsBack ClipRegion.ofJson? r.toJson r
  frameRequest : ∀ r : FrameRequest, ReadsBack FrameRequest.ofJson? r.toJson r
  /-- The colour profile is missing afterwards. -/
  frameDetails : ∀ d : FrameDetails, ReadsBack FrameDetails.ofJson? d.toJson { d with colorProfile := none }
  /-- The metadata block is missing afterwards. -/
  imageInfo : ∀ i : ImageInfo, ReadsBack ImageInfo.ofJson? i.toJson { i with exif := none }
  loaderConfig : ∀ c : LoaderConfig, c.acceptedFormats.Known → ReadsBack LoaderConfig.ofJson? c.toJson c
  config : ∀ c : Config, c.loader.acceptedFormats.Known → ReadsBack Config.ofJson? c.toJson c
  /-- In every text of a configuration the list of formats may be rearranged. -/
  loaderFormats : ∀ {s c}, read? LoaderConfig.ofJson? s = some c → ∃ before list after items,
    Rearranges [LoaderConfig.formatsField] LoaderConfig.ofJson? LoaderConfig.toJson c s before list after items
  configFormats : ∀ {s c}, read? Config.ofJson? s = some c → ∃ before list after items,
    Rearranges [Config.loaderField, LoaderConfig.formatsField] Config.ofJson? Config.toJson c s before list after items

/-- **Written forms are read back, and lists of formats are read as sets.** -/
theorem soundForms : SoundForms where
  clipRegion r := readsBack r.isWritable_toJson r.ofJson?_toJson
  frameRequest r := readsBack r.isWritable_toJson r.ofJson?_toJson
  frameDetails d := readsBack d.isWritable_toJson d.ofJson?_toJson
  imageInfo i := readsBack i.isWritable_toJson i.ofJson?_toJson
  loaderConfig c hc := readsBack c.isWritable_toJson (LoaderConfig.ofJson?_toJson hc)
  config c hc := readsBack c.isWritable_toJson (Config.ofJson?_toJson hc)
  loaderFormats h := exists_rearranges LoaderConfig.leads_formats (fun _ => rfl) (LoaderConfig.isWritable_toJson _)
    (LoaderConfig.at?_toJson _) h
  configFormats h := exists_rearranges Config.leads_formats (fun _ => rfl) (Config.isWritable_toJson _)
    (Config.at?_toJson _) h

/-- The promises for the default configuration: its text is read back, and its list of formats may be rearranged. -/
theorem soundForms_default : Config.default.loader.acceptedFormats.Known ∧
    read? Config.ofJson? Config.default.toJson.compact.toList = some Config.default ∧
    ∃ before list after items, Rearranges [Config.loaderField, LoaderConfig.formatsField] Config.ofJson? Config.toJson
      Config.default Config.default.toJson.compact.toList before list after items := by
  have hknown : Config.default.loader.acceptedFormats.Known := FormatSet.known_all
  have hread := (soundForms.config Config.default hknown).compact
  exact ⟨hknown, hread, soundForms.configFormats hread⟩

end Json

end ImageLoader
