import DayNight.Config.Loading

namespace DayNight.Config

namespace Format

variable {σ : Type}

-- A record with that value under the name.
def Holds (f : Format σ) (value : σ) (name : String) (child : σ) : Prop :=
  ∃ entries : String → Option σ,
    (∀ names, f.fields names value = some (names.map entries)) ∧ entries name = some child

-- The field of that name in the section of that name.
def HoldsField (f : Format σ) (root : σ) (part key : String) (value : σ) : Prop :=
  ∃ fields, f.Holds root part fields ∧ f.Holds fields key value

-- What is read of the value is what is read of `given`. A table that was merged with others may
-- have more keys than the last that was given, but then it can be read as no scalar.
structure ReadsAs (f : Format σ) (value given : σ) : Prop where
  device       : ∀ a, f.device value = some a → f.device given = some a
  naturalBelow : ∀ bound n, f.naturalBelow bound value = some n →
    f.naturalBelow bound given = some n
  float        : ∀ x, f.float value = some x → f.float given = some x
  flag         : ∀ b, f.flag value = some b → f.flag given = some b
  text         : ∀ s, f.text value = some s → f.text given = some s
  choice       : ∀ names s, f.choice names value = some s → f.choice names given = some s

theorem ReadsAs.refl {f : Format σ} (value : σ) : f.ReadsAs value value where
  device _ := id
  naturalBelow _ _ := id
  float _ := id
  flag _ := id
  text _ := id
  choice _ _ := id

end Format

structure Field where
  part  : String
  key   : String
  Value : Type
  get   : Config → Value
  read  : {σ : Type} → Format σ → σ → Option Value

namespace Field

open Format (word32 word64 pixelFormat camera mode storage)

def framesPerSecond : Field :=
  ⟨"capture", "fps", UInt32, (·.capture.framesPerSecond), word32⟩

def capture : List Field :=
  [⟨"capture", "day_device", Device, (·.capture.devices.day), Format.device⟩,
   ⟨"capture", "night_device", Device, (·.capture.devices.night), Format.device⟩,
   ⟨"capture", "width", UInt32, (·.capture.width), word32⟩,
   ⟨"capture", "height", UInt32, (·.capture.height), word32⟩,
   framesPerSecond,
   ⟨"capture", "format", PixelFormat, (·.capture.format), pixelFormat⟩,
   ⟨"capture", "buffer_count", UInt32, (·.capture.bufferCount), word32⟩,
   ⟨"capture", "open_timeout_ms", UInt64, (·.capture.openTimeoutMillis), word64⟩,
   ⟨"capture", "read_timeout_ms", UInt64, (·.capture.readTimeoutMillis), word64⟩,
   ⟨"capture", "max_failed_reads", UInt32, (·.capture.maxFailedReads), word32⟩,
   ⟨"capture", "active_sample_stride", UInt64, (·.capture.activeSampleStride), word64⟩]

def switcher : List Field :=
  [⟨"switcher", "day_to_night_threshold", Float, (·.switcher.dayToNightThreshold), Format.float⟩,
   ⟨"switcher", "night_to_day_threshold", Float, (·.switcher.nightToDayThreshold), Format.float⟩,
   ⟨"switcher", "day_to_night_hold_ms", UInt64, (·.switcher.dayToNightHoldMillis), word64⟩,
   ⟨"switcher", "night_to_day_hold_ms", UInt64, (·.switcher.nightToDayHoldMillis), word64⟩,
   ⟨"switcher", "probe_interval_ms", UInt64, (·.switcher.probeIntervalMillis), word64⟩,
   ⟨"switcher", "probe_timeout_ms", UInt64, (·.switcher.probeTimeoutMillis), word64⟩,
   ⟨"switcher", "warmup_frames", UInt32, (·.switcher.warmupFrames), word32⟩,
   ⟨"switcher", "initial_camera", Camera, (·.switcher.initialCamera), camera⟩,
   ⟨"switcher", "initial_mode", ControlMode, (·.switcher.initialMode), mode⟩]

def pacing : List Field :=
  [⟨"pipeline", "detection_interval_ms", UInt64, (·.pacing.detectionIntervalMillis), word64⟩,
   ⟨"pipeline", "shutdown_timeout_ms", UInt64, (·.pacing.shutdownTimeoutMillis), word64⟩]

def channels : List Field :=
  [⟨"channels", "backend", Storage, (·.channels.storage), storage⟩,
   ⟨"channels", "shm_dir", String, (·.channels.directory), Format.text⟩,
   ⟨"channels", "frame_capacity", UInt64, (·.channels.frameCapacity), word64⟩,
   ⟨"channels", "max_detections", UInt64, (·.channels.maxDetections), word64⟩]

def logging : List Field :=
  [⟨"logging", "filter", String, (·.logging.filter), Format.text⟩,
   ⟨"logging", "uptime_timer", Bool, (·.logging.uptimeTimer), Format.flag⟩]

def all : List Field := capture ++ switcher ++ pacing ++ channels ++ logging

theorem part_mem : ∀ field ∈ all, field.part ∈ sectionNames := by decide

theorem capture_part : ∀ field ∈ capture, field.part = "capture" := by decide

theorem switcher_part : ∀ field ∈ switcher, field.part = "switcher" := by decide

theorem pacing_part : ∀ field ∈ pacing, field.part = "pipeline" := by decide

theorem channels_part : ∀ field ∈ channels, field.part = "channels" := by decide

theorem logging_part : ∀ field ∈ logging, field.part = "logging" := by decide

variable {σ : Type} {f : Format σ} {fields : String → Option σ} {config : Config}

theorem read_of_readsAs {value given : σ} (h : f.ReadsAs value given) :
    ∀ field ∈ all, ∀ a, field.read f value = some a → field.read f given = some a := by
  have hword (bound : Nat) {Word : Type} (ofNat : Nat → Word) (a : Word)
      (ha : (f.naturalBelow bound value).map ofNat = some a) :
      (f.naturalBelow bound given).map ofNat = some a := by
    obtain ⟨n, hn, he⟩ := Option.map_eq_some_iff.mp ha
    exact Option.map_eq_some_iff.mpr ⟨n, h.naturalBelow bound n hn, he⟩
  have honeOf {Name : Type} (names : List Name) (name : Name → String) (a : Name)
      (ha : f.oneOf names name value = some a) : f.oneOf names name given = some a := by
    obtain ⟨s, hs, he⟩ := Option.bind_eq_some_iff.mp ha
    exact Option.bind_eq_some_iff.mpr ⟨s, h.choice _ s hs, he⟩
  simp only [all, capture, switcher, pacing, channels, logging, List.cons_append, List.nil_append,
    List.forall_mem_cons]
  and_intros
  all_goals first
    | exact hword _ _
    | exact honeOf _ _
    | exact h.device
    | exact h.float
    | exact h.text
    | exact h.flag
    | exact nofun

-- The field is read from the fields of its section, and has its default if it is missing.
def ReadFrom (field : Field) (f : Format σ) (fields : String → Option σ) (config : Config) : Prop :=
  Format.field (field.read f) (field.get {}) (fields field.key) = some (field.get config)

section Reading

variable {value : σ} (hs : ∀ names, f.fields names value = some (names.map fields))
include hs

theorem capture_read (h : Capture.read f value = some config.capture) :
    ∀ field ∈ capture, field.ReadFrom f fields config := by
  simp only [Capture.read, hs, Capture.fieldNames, List.map_cons, List.map_nil,
    Option.bind_eq_bind, Option.bind_some, Option.bind_eq_some_iff, Option.pure_def,
    Option.some.injEq] at h
  obtain ⟨day, hday, night, hnight, width, hwidth, height, hheight, fps, hfps, image, himage,
    buffers, hbuffers, openMillis, hopen, readMillis, hread, failed, hfailed, stride, hstride,
    he⟩ := h
  simp only [capture, framesPerSecond, List.forall_mem_cons, ReadFrom, ← he]
  exact ⟨hday, hnight, hwidth, hheight, hfps, himage, hbuffers, hopen, hread, hfailed, hstride,
    nofun⟩

theorem switcher_read (h : Switcher.read f value = some config.switcher) :
    ∀ field ∈ switcher, field.ReadFrom f fields config := by
  simp only [Switcher.read, hs, Switcher.fieldNames, List.map_cons, List.map_nil,
    Option.bind_eq_bind, Option.bind_some, Option.bind_eq_some_iff, Option.pure_def,
    Option.some.injEq] at h
  obtain ⟨down, hdown, up, hup, downHold, hdownHold, upHold, hupHold, interval, hinterval, timeout,
    htimeout, warmup, hwarmup, camera, hcamera, mode, hmode, he⟩ := h
  simp only [switcher, List.forall_mem_cons, ReadFrom, ← he]
  exact ⟨hdown, hup, hdownHold, hupHold, hinterval, htimeout, hwarmup, hcamera, hmode, nofun⟩

theorem pacing_read (h : Pacing.read f value = some config.pacing) :
    ∀ field ∈ pacing, field.ReadFrom f fields config := by
  simp only [Pacing.read, hs, Pacing.fieldNames, List.map_cons, List.map_nil,
    Option.bind_eq_bind, Option.bind_some, Option.bind_eq_some_iff, Option.pure_def,
    Option.some.injEq] at h
  obtain ⟨interval, hinterval, timeout, htimeout, he⟩ := h
  simp only [pacing, List.forall_mem_cons, ReadFrom, ← he]
  exact ⟨hinterval, htimeout, nofun⟩

theorem channels_read (h : Channels.read f value = some config.channels) :
    ∀ field ∈ channels, field.ReadFrom f fields config := by
  simp only [Channels.read, hs, Channels.fieldNames, List.map_cons, List.map_nil,
    Option.bind_eq_bind, Option.bind_some, Option.bind_eq_some_iff, Option.pure_def,
    Option.some.injEq] at h
  obtain ⟨storage, hstorage, directory, hdirectory, capacity, hcapacity, detections, hdetections,
    he⟩ := h
  simp only [channels, List.forall_mem_cons, ReadFrom, ← he]
  exact ⟨hstorage, hdirectory, hcapacity, hdetections, nofun⟩

theorem logging_read (h : Logging.read f value = some config.logging) :
    ∀ field ∈ logging, field.ReadFrom f fields config := by
  simp only [Logging.read, hs, Logging.fieldNames, List.map_cons, List.map_nil,
    Option.bind_eq_bind, Option.bind_some, Option.bind_eq_some_iff, Option.pure_def,
    Option.some.injEq] at h
  obtain ⟨filter, hfilter, timer, htimer, he⟩ := h
  simp only [logging, List.forall_mem_cons, ReadFrom, ← he]
  exact ⟨hfilter, htimer, nofun⟩

end Reading

-- What is read of a field is what it is in the whole.
theorem read_of_holds {field : Field} {root value : σ} (h : Config.read f root = some config)
    (hf : field ∈ all) (hv : f.HoldsField root field.part field.key value) :
    field.read f value = some (field.get config) := by
  obtain ⟨part, ⟨sections, hroot, hs⟩, ⟨fields, hpart, hl⟩⟩ := hv
  simp only [Config.read, hroot, sectionNames, List.map_cons, List.map_nil,
    Option.bind_eq_bind, Option.bind_some, Option.bind_eq_some_iff, Option.pure_def,
    Option.some.injEq] at h
  obtain ⟨c, hc, s, hsw, p, hp, ch, hch, l, hlog, rfl⟩ := h
  have hfrom : field.ReadFrom f fields ⟨c, s, p, ch, l⟩ := by
    simp only [all, List.mem_append] at hf
    obtain (((hm | hm) | hm) | hm) | hm := hf
    · rw [capture_part field hm] at hs
      rw [hs] at hc
      refine capture_read hpart ?_ field hm
      exact hc
    · rw [switcher_part field hm] at hs
      rw [hs] at hsw
      refine switcher_read hpart ?_ field hm
      exact hsw
    · rw [pacing_part field hm] at hs
      rw [hs] at hp
      refine pacing_read hpart ?_ field hm
      exact hp
    · rw [channels_part field hm] at hs
      rw [hs] at hch
      refine channels_read hpart ?_ field hm
      exact hch
    · rw [logging_part field hm] at hs
      rw [hs] at hlog
      refine logging_read hpart ?_ field hm
      exact hlog
  rw [ReadFrom, hl] at hfrom
  exact hfrom

end Field

end DayNight.Config
