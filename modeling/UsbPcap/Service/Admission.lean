import UsbPcap.Service.Monitoring

/-!
# Admission of captures

What `handle` does with a request before a capture starts: `sanitizeRequest`, `normalizeRequest`
and, for each of the four actions that can start a capture, the checks up to `newTask`. Three of the
actions pass on the request that they have validated; `handleProfileDevice` makes a new one.
`Admissions.admitted_iff` says for which requests the captures obey the limits all the same.
-/

namespace UsbPcap.Service

open Server (trimSpace)
open Transition

/-! ## Data -/

/-- The fields of `ipc.Request` that starting a capture reads. -/
structure IpcRequest where
  action : String
  interface : String := ""
  autoInterface : Bool := false
  vendorID : String := ""
  productID : String := ""
  durationSeconds : UInt32 := 0
  captureNewDevices : Bool := false
  appFilter : Bool := false
  endpoint : String := ""
  transferType : String := ""
  storeMode : String := ""
  outputFileName : String := ""
  idleTimeoutSeconds : UInt32 := 0
  maxFileSizeBytes : ℤ := 0
deriving DecidableEq, Repr

/-- The part of a request that the capture machinery reads. -/
def IpcRequest.toRequest (req : IpcRequest) : Request where
  interface := req.interface
  storeMode := req.storeMode
  durationSeconds := req.durationSeconds
  idleTimeoutSeconds := req.idleTimeoutSeconds
  maxFileSizeBytes := req.maxFileSizeBytes

/-- `Config`, with the limits that requests inherit. -/
structure ServiceConfig extends Config where
  idleTimeoutSeconds : UInt32
  maxFileSizeBytes : ℤ

/-- The fields of an error response. -/
structure Refusal where
  status : String := ""
  error : String
  errorCode : String
  message : String
  hint : String
deriving DecidableEq, Repr

/-- `errorResponse` -/
def errorResponse (error errorCode message hint : String) : Refusal where
  error := error
  errorCode := errorCode
  message := message
  hint := hint

/-- The fields of `ipc.DeviceInfo` that `probeDevices` reads. -/
structure DeviceInfo where
  address : UInt16
  vendorID : String
  productID : String
deriving DecidableEq, Repr

/-- What a request meets outside of the service: the two listings of the command runner, and from
Go's library `strings.EqualFold` and `filepath.Base`; `defaultOutputPath` also depends on the clock
and the capture directory. -/
structure Surroundings where
  listInterfaces : Except String (List String)
  listDevices : String → Except String (List DeviceInfo)
  equalFold : String → String → Bool
  base : String → String
  defaultOutputPath : String → String

/-! ## Defaults and normal forms -/

/-- `defaultCaptureDurationSeconds` -/
def defaultCaptureDurationSeconds : UInt32 := 10

/-- `sanitizeRequest` -/
def sanitizeRequest (req : IpcRequest) (cfg : ServiceConfig) : IpcRequest :=
  { req with
    durationSeconds :=
      if req.durationSeconds = 0 then defaultCaptureDurationSeconds else req.durationSeconds
    idleTimeoutSeconds :=
      if req.idleTimeoutSeconds = 0 then cfg.idleTimeoutSeconds else req.idleTimeoutSeconds
    maxFileSizeBytes :=
      if req.maxFileSizeBytes = 0 then cfg.maxFileSizeBytes else req.maxFileSizeBytes }

/-- `strings.TrimPrefix` -/
def trimPrefix (s pre : List Char) : List Char :=
  if pre.isPrefixOf s then s.drop pre.length else s

/-- The value of a hexadecimal digit. -/
def hexDigit (c : Char) : Option ℕ :=
  if '0' ≤ c ∧ c ≤ '9' then some (c.toNat - '0'.toNat)
  else if 'a' ≤ c ∧ c ≤ 'f' then some (c.toNat - 'a'.toNat + 10)
  else if 'A' ≤ c ∧ c ≤ 'F' then some (c.toNat - 'A'.toNat + 10)
  else none

/-- The digits that `strconv.ParseUint` has read so far, continued. -/
def parseHexDigits (n : ℕ) : List Char → Option ℕ
  | [] => some n
  | c :: cs =>
    match hexDigit c with
    | none => none
    | some d => parseHexDigits (16 * n + d) cs

/-- `strconv.ParseUint(raw, 16, 16)`, `none` for any error. -/
def parseUint16 (raw : List Char) : Option ℕ :=
  if raw = [] then none
  else
    match parseHexDigits 0 raw with
    | none => none
    | some n => if n < 65536 then some n else none

/-- `normalizeHex` -/
def normalizeHex (s : String) : String :=
  let s := trimSpace s
  if s = "" then s
  else
    let raw := trimPrefix s.toList ['0', 'x']
    let raw := trimPrefix raw ['0', 'X']
    match parseUint16 raw with
    | none => s
    | some _ => .ofList ('0' :: 'x' :: raw.map Char.toLower)

/-- `normalizeInterface` -/
def normalizeInterface (s : String) : String :=
  let s := trimSpace s
  if s = "" then s
  else if ['\\', '\\', '.', '\\'].isPrefixOf s.toList then s
  else if "USBPcap".toList.isPrefixOf s.toList || "usbpcap".toList.isPrefixOf s.toList then
    .ofList (['\\', '\\', '.', '\\'] ++ s.toList)
  else s

/-- `normalizeRequest` -/
def normalizeRequest (req : IpcRequest) : IpcRequest :=
  { req with
    vendorID := if req.vendorID ≠ "" then normalizeHex req.vendorID else req.vendorID
    productID := if req.productID ≠ "" then normalizeHex req.productID else req.productID
    endpoint := if req.endpoint ≠ "" then normalizeHex req.endpoint else req.endpoint
    interface := if req.interface ≠ "" then normalizeInterface req.interface else req.interface
    appFilter :=
      if ((if req.endpoint ≠ "" then normalizeHex req.endpoint else req.endpoint) ≠ "" ∨
          req.transferType ≠ "") ∧ req.appFilter = false then true
      else req.appFilter }

/-! ## Checks -/

/-- `validateCaptureRequest`; `none` when the request is valid. -/
def validateCaptureRequest (req : IpcRequest) : Option Refusal :=
  if trimSpace req.interface = "" ∧ req.autoInterface = false then
    some (errorResponse "invalid_request" "CAPTURE_TARGET_REQUIRED"
      "capture requires interface or autoInterface=true"
      "Pass an explicit interface or set autoInterface=true with vendorId/productId filters.")
  else if req.autoInterface ∧ trimSpace req.vendorID = "" ∧ trimSpace req.productID = "" then
    some (errorResponse "invalid_request" "AUTO_INTERFACE_FILTER_REQUIRED"
      "autoInterface requires vendorId or productId"
      "Provide vendorId, optionally with productId.")
  else if req.storeMode ≠ "" ∧ req.storeMode ≠ "immediate" ∧ req.storeMode ≠ "on-match" then
    some (errorResponse "invalid_request" "INVALID_STORE_MODE"
      "storeMode must be 'immediate' or 'on-match'"
      "Use storeMode='on-match' for trigger-based storage.")
  else if 24 * 60 * 60 < req.durationSeconds then
    some (errorResponse "invalid_request" "DURATION_TOO_LARGE" "durationSeconds must be <= 86400"
      "Use at most 24 hours per capture request.")
  else if 24 * 60 * 60 < req.idleTimeoutSeconds then
    some (errorResponse "invalid_request" "IDLE_TIMEOUT_TOO_LARGE"
      "idleTimeoutSeconds must be <= 86400" "Use at most 24 hours for idle timeout.")
  else if req.maxFileSizeBytes < 0 then
    some (errorResponse "invalid_request" "INVALID_MAX_FILE_SIZE" "maxFileSizeBytes must be >= 0"
      "Use 0 to inherit service config or a positive byte limit.")
  else if trimSpace req.endpoint ≠ "" ∧ req.appFilter = false then
    some (errorResponse "invalid_request" "APP_FILTER_REQUIRED"
      "endpoint filtering requires appFilter=true"
      "Set appFilter=true when using endpoint or transferType.")
  else if trimSpace req.transferType ≠ "" ∧ req.appFilter = false then
    some (errorResponse "invalid_request" "APP_FILTER_REQUIRED"
      "transferType filtering requires appFilter=true"
      "Set appFilter=true when using endpoint or transferType.")
  else none

/-- The devices of one interface that match. -/
def matchingDevices (equalFold : String → String → Bool) (vendorID productID interface : String)
    (devs : List DeviceInfo) : List MatchedDevice :=
  (devs.filter fun dev =>
      (vendorID = "" || equalFold dev.vendorID vendorID) &&
        (productID = "" || equalFold dev.productID productID)).map fun dev =>
    { interface := interface
      address := dev.address
      vendorID := dev.vendorID
      productID := dev.productID }

/-- `probeDevices`; an interface whose devices cannot be listed is left out. -/
def probeDevices (env : Surroundings) (vendorID productID : String) :
    Except String (List MatchedDevice) :=
  match env.listInterfaces with
  | .error err => .error ("list interfaces: " ++ err)
  | .ok ifs => .ok (ifs.flatMap fun iface =>
    match env.listDevices iface with
    | .error _ => []
    | .ok devs => matchingDevices env.equalFold vendorID productID iface devs)

/-! ## The actions that start captures -/

/-- `handle` for `captureOnce` and `startCapture`, up to `newTask`. -/
def admitCapture (req : IpcRequest) : Except Refusal IpcRequest :=
  match validateCaptureRequest req with
  | some refusal => .error refusal
  | none => .ok req

/-- The interface that `handleSmartCapture` goes on with. -/
def smartInterface (env : Surroundings) (req : IpcRequest) : Except Refusal String :=
  if trimSpace req.interface = "" ∧ req.autoInterface = false then
    if trimSpace req.vendorID = "" ∧ trimSpace req.productID = "" then
      .error
        { status := "target_required"
          error := "invalid_request"
          errorCode := "CAPTURE_TARGET_REQUIRED"
          message := "smart_capture requires interface, vendorId, or productId"
          hint := "Pass an interface or vendorId/productId for auto-detection." }
    else
      match probeDevices env req.vendorID req.productID with
      | .error err =>
        .error (errorResponse "probe_failed" "PROBE_FAILED" err
          "Verify USBPcapCap.exe path and USBPcap installation.")
      | .ok [] =>
        .error
          { status := "no_device"
            error := "no_match"
            errorCode := "NO_MATCHED_DEVICE"
            message := "No device found matching the requested VID/PID."
            hint := "Check device connection and try again." }
      | .ok [m] => .ok m.interface
      | .ok matched =>
        .error
          { status := "ambiguous_device"
            error := "multiple_matches"
            errorCode := "AMBIGUOUS_DEVICE"
            message := "Found " ++ toString matched.length ++
              " matching devices. Specify an interface."
            hint := "Use one of the returned interfaces explicitly." }
  else .ok req.interface

/-- `handleSmartCapture`, up to `newTask`. -/
def admitSmartCapture (env : Surroundings) (req : IpcRequest) : Except Refusal IpcRequest :=
  match smartInterface env req with
  | .error refusal => .error refusal
  | .ok interface => admitCapture { req with interface := interface, autoInterface := false }

/-- The request that `handleProfileDevice` makes for the device it has found. -/
def profileRequest (req : IpcRequest) (m : MatchedDevice) : IpcRequest where
  action := ""
  interface := m.interface
  vendorID := req.vendorID
  productID := req.productID
  durationSeconds := if req.durationSeconds = 0 then 10 else req.durationSeconds
  storeMode := "immediate"

/-- `handleProfileDevice`, up to `newTask`: the request and the name of the output file. -/
def admitProfileDevice (env : Surroundings) (req : IpcRequest) :
    Except Refusal (IpcRequest × String) :=
  if trimSpace req.vendorID = "" ∧ trimSpace req.productID = "" then
    .error
      { status := "filter_required"
        error := "invalid_request"
        errorCode := "PROFILE_FILTER_REQUIRED"
        message := "profile_device requires vendorId or productId"
        hint := "Provide vendorId to identify the device to profile." }
  else
    match probeDevices env req.vendorID req.productID with
    | .error err =>
      .error (errorResponse "probe_failed" "PROBE_FAILED" err
        "Verify USBPcapCap.exe path and USBPcap installation.")
    | .ok [] =>
      .error
        { status := "no_device"
          error := "no_match"
          errorCode := "NO_MATCHED_DEVICE"
          message := "No device found for profiling."
          hint := "Check device connection and try again." }
    | .ok [m] => .ok (profileRequest req m, "profile-" ++ env.base m.interface ++ ".pcap")
    | .ok matched =>
      .error
        { status := "ambiguous_device"
          error := "multiple_matches"
          errorCode := "AMBIGUOUS_DEVICE"
          message := "Found " ++ toString matched.length ++
            " matching devices. Specify an interface."
          hint := "" }

/-- `handle` up to `newTask`: the request of the task and its output path. `none` is for the actions
that start no capture. -/
def admission (cfg : ServiceConfig) (env : Surroundings) (req : IpcRequest) :
    Option (Except Refusal (IpcRequest × String)) :=
  let req := normalizeRequest (sanitizeRequest req cfg)
  let named (r : IpcRequest) := (r, env.defaultOutputPath r.outputFileName)
  if req.action = "captureOnce" ∨ req.action = "startCapture" then
    some ((admitCapture req).map named)
  else if req.action = "smartCapture" then some ((admitSmartCapture env req).map named)
  else if req.action = "profileDevice" then
    some ((admitProfileDevice env req).map fun r => (r.1, env.defaultOutputPath r.2))
  else none

/-! ## What is admitted -/

/-- The limits of `validateCaptureRequest`, and the requested or inherited limits of the monitor. -/
structure ObeysLimits (cfg : ServiceConfig) (req : IpcRequest) (r : Request) : Prop where
  duration_ge : 1 ≤ r.durationSeconds.toNat
  duration_le : r.durationSeconds.toNat ≤ 86400
  idle_le : r.idleTimeoutSeconds.toNat ≤ 86400
  maxFileSize_nonneg : 0 ≤ r.maxFileSizeBytes
  idle_eq : r.idleTimeoutSeconds =
    if req.idleTimeoutSeconds ≠ 0 then req.idleTimeoutSeconds else cfg.idleTimeoutSeconds
  maxFileSize_eq : r.maxFileSizeBytes =
    if req.maxFileSizeBytes ≠ 0 then req.maxFileSizeBytes else cfg.maxFileSizeBytes

/-- The request does not profile a device, or it profiles one for at most a day and neither it nor
the configuration sets a limit for the monitor. -/
def PassesLimits (cfg : ServiceConfig) (req : IpcRequest) : Prop :=
  req.action ≠ "profileDevice" ∨
    (req.durationSeconds.toNat ≤ 86400 ∧
      (req.idleTimeoutSeconds = 0 ∧ cfg.idleTimeoutSeconds = 0) ∧
      req.maxFileSizeBytes = 0 ∧ cfg.maxFileSizeBytes = 0)

/-- What validation checks of the limits. -/
theorem limits_of_validate {req : IpcRequest} (h : validateCaptureRequest req = none) :
    req.durationSeconds.toNat ≤ 86400 ∧ req.idleTimeoutSeconds.toNat ≤ 86400 ∧
      0 ≤ req.maxFileSizeBytes := by
  unfold validateCaptureRequest at h
  repeat
    split at h
    · cases h
  rename_i hduration hidle hmax _ _
  rw [UInt32.lt_iff_toNat_lt] at hduration hidle
  exact ⟨Nat.le_of_not_lt hduration, Nat.le_of_not_lt hidle, not_lt.mp hmax⟩

/-- A sanitised request always has a duration. -/
theorem sanitize_duration (req : IpcRequest) (cfg : ServiceConfig) :
    1 ≤ (sanitizeRequest req cfg).durationSeconds.toNat := by
  simp only [sanitizeRequest]
  split
  · decide
  · rename_i hne
    refine Nat.pos_of_ne_zero fun hzero => hne ?_
    rw [← UInt32.toNat_inj, hzero]
    rfl

/-- A validated request that has the sanitised limits obeys them. -/
theorem obeysLimits_of_validate {cfg : ServiceConfig} {req r : IpcRequest}
    (hvalid : validateCaptureRequest r = none)
    (hduration : r.durationSeconds = (sanitizeRequest req cfg).durationSeconds)
    (hidle : r.idleTimeoutSeconds = (sanitizeRequest req cfg).idleTimeoutSeconds)
    (hmax : r.maxFileSizeBytes = (sanitizeRequest req cfg).maxFileSizeBytes) :
    ObeysLimits cfg req r.toRequest := by
  obtain ⟨hd, hi, hm⟩ := limits_of_validate hvalid
  refine ⟨?_, hd, hi, hm, ?_, ?_⟩
  · simp only [IpcRequest.toRequest, hduration]
    exact sanitize_duration req cfg
  · simp only [IpcRequest.toRequest, hidle, sanitizeRequest, ite_not]
  · simp only [IpcRequest.toRequest, hmax, sanitizeRequest, ite_not]

/-- An admitted capture request is the one that was validated. -/
theorem admitCapture_ok {req r : IpcRequest} (h : admitCapture req = .ok r) :
    validateCaptureRequest req = none ∧ r = req := by
  unfold admitCapture at h
  split at h
  · cases h
  · rename_i hnone
    exact ⟨hnone, (Except.ok.inj h).symm⟩

/-- `handleSmartCapture` changes only the target of the request that it validates. -/
theorem admitSmartCapture_ok {env : Surroundings} {req r : IpcRequest}
    (h : admitSmartCapture env req = .ok r) : validateCaptureRequest r = none ∧
      ∃ interface, r = { req with interface := interface, autoInterface := false } := by
  unfold admitSmartCapture at h
  split at h
  · cases h
  · rename_i interface _
    obtain ⟨hvalid, rfl⟩ := admitCapture_ok h
    exact ⟨hvalid, interface, rfl⟩

/-- A profile request starts the capture of one matched device. -/
theorem admitProfileDevice_ok {env : Surroundings} {req : IpcRequest} {r : IpcRequest × String}
    (h : admitProfileDevice env req = .ok r) : ∃ m, r.1 = profileRequest req m := by
  unfold admitProfileDevice at h
  split at h
  · cases h
  · split at h
    · cases h
    · cases h
    · rename_i m _
      exact ⟨m, by rw [← Except.ok.inj h]⟩
    · cases h

/-- A profile takes its duration over from the client's request. -/
theorem profile_duration (cfg : ServiceConfig) (req : IpcRequest) (m : MatchedDevice) :
    (profileRequest (normalizeRequest (sanitizeRequest req cfg)) m).durationSeconds =
      (sanitizeRequest req cfg).durationSeconds := by
  have hpos := sanitize_duration req cfg
  refine if_neg fun hzero => ?_
  rw [show (sanitizeRequest req cfg).durationSeconds = 0 from hzero] at hpos
  exact absurd hpos (by decide)

/-- Sanitising cuts no duration. -/
theorem sanitize_duration_le (cfg : ServiceConfig) (req : IpcRequest) :
    (sanitizeRequest req cfg).durationSeconds.toNat ≤ 86400 ↔
      req.durationSeconds.toNat ≤ 86400 := by
  simp only [sanitizeRequest]
  split
  · rename_i hzero
    rw [hzero]
    decide
  · rfl

/-- The request of a profile has the requested duration and no limits for the monitor. -/
theorem profile_obeysLimits_iff (cfg : ServiceConfig) (req : IpcRequest) (m : MatchedDevice) :
    ObeysLimits cfg req (profileRequest (normalizeRequest (sanitizeRequest req cfg)) m).toRequest ↔
      req.durationSeconds.toNat ≤ 86400 ∧
        (req.idleTimeoutSeconds = 0 ∧ cfg.idleTimeoutSeconds = 0) ∧
        req.maxFileSizeBytes = 0 ∧ cfg.maxFileSizeBytes = 0 := by
  have hduration := profile_duration cfg req m
  have hzero : ∀ {α : Type} [DecidableEq α] [Zero α] (x y : α),
      (0 = if x ≠ 0 then x else y) ↔ x = 0 ∧ y = 0 := by
    intro α _ _ x y
    by_cases hx : x = 0
    · simp [hx, eq_comm]
    · simp [hx, eq_comm]
  constructor
  · intro h
    have hle := h.duration_le
    rw [IpcRequest.toRequest, hduration] at hle
    exact ⟨(sanitize_duration_le cfg req).mp hle, (hzero _ _).mp h.idle_eq,
      (hzero _ _).mp h.maxFileSize_eq⟩
  · rintro ⟨hle, hidle, hmax⟩
    refine ⟨?_, ?_, Nat.zero_le _, le_refl 0, (hzero _ _).mpr hidle, (hzero _ _).mpr hmax⟩
    · rw [IpcRequest.toRequest, hduration]
      exact sanitize_duration req cfg
    · rw [IpcRequest.toRequest, hduration]
      exact (sanitize_duration_le cfg req).mpr hle

/-- **The limits of one request.** What an action that starts a capture passes to `newTask` obeys
the limits exactly when the action is not `profileDevice`, or the limits ask for nothing that a
profile leaves out. -/
theorem admission_obeysLimits_iff {cfg : ServiceConfig} {env : Surroundings} {req : IpcRequest}
    {r : IpcRequest × String} (h : admission cfg env req = some (.ok r)) :
    ObeysLimits cfg req r.1.toRequest ↔ PassesLimits cfg req := by
  have haction : (normalizeRequest (sanitizeRequest req cfg)).action = req.action := rfl
  have hmap : ∀ {α β : Type} {x : Except Refusal α} {g : α → β} {y : β},
      x.map g = .ok y → ∃ a, x = .ok a ∧ g a = y := by
    intro α β x g y hx
    cases x with
    | error e => cases hx
    | ok a => exact ⟨a, rfl, Except.ok.inj hx⟩
  simp only [admission, haction] at h
  split at h
  · rename_i hplain
    obtain ⟨a, ha, rfl⟩ := hmap (Option.some.inj h)
    obtain ⟨hvalid, rfl⟩ := admitCapture_ok ha
    refine iff_of_true (obeysLimits_of_validate hvalid rfl rfl rfl) (Or.inl ?_)
    rintro hprofile
    rw [hprofile] at hplain
    exact absurd hplain (by decide)
  · split at h
    · rename_i hsmart
      obtain ⟨a, ha, rfl⟩ := hmap (Option.some.inj h)
      obtain ⟨hvalid, interface, rfl⟩ := admitSmartCapture_ok ha
      refine iff_of_true (obeysLimits_of_validate hvalid rfl rfl rfl) (Or.inl ?_)
      rw [hsmart]
      decide
    · split at h
      · rename_i hprofile
        obtain ⟨a, ha, rfl⟩ := hmap (Option.some.inj h)
        obtain ⟨m, hm⟩ := admitProfileDevice_ok ha
        simp only [hm]
        rw [profile_obeysLimits_iff, PassesLimits, or_iff_right (not_not.mpr hprofile)]
      · cases h

/-! ## Runs -/

/-- The task's `beginCapture` has succeeded. -/
def Phase.hasBegun : Phase → Prop
  | .begun | .capturing | .returned _ | .finalised | .ended | .closed => True
  | _ => False

instance : DecidablePred Phase.hasBegun
  | .begun | .capturing | .returned _ | .finalised | .ended | .closed => isTrue trivial
  | .absent | .created | .registered | .rejected | .dropped => isFalse id

/-- The service, with the request that each of its tasks was made for. -/
structure Admissions where
  system : System
  source : TaskID → Option IpcRequest

namespace Admissions

/-- A request arrives, or a goroutine goes on with one of its other sections. -/
inductive Act where
  | request (req : IpcRequest) (env : Surroundings)
  | proceed (a : Service.Act)

/-- The service before its first request. -/
def init : Admissions where
  system := System.init
  source := fun _ => none

/-- One step. A request that is refused, or whose action starts no capture, makes no task. -/
def step (cfg : ServiceConfig) (s : Admissions) : Act → Option Admissions
  | .request req env =>
    match admission cfg env req with
    | some (.ok r) =>
      (System.step cfg.toConfig s.system (.newTask r.1.toRequest r.2)).map fun t =>
        ⟨t, Function.update s.source (s.system.server.nextTaskID + 1) (some req)⟩
    | _ => some s
  | .proceed (.newTask _ _) => none
  | .proceed a => (System.step cfg.toConfig s.system a).map fun t => { s with system := t }

/-- Every capture that has started obeys the limits. -/
def StartedObey (cfg : ServiceConfig) (s : Admissions) : Prop :=
  ∀ id, (s.system.phase id).hasBegun →
    ∃ req, s.source id = some req ∧ ObeysLimits cfg req (s.system.server.object id).req

/-- If the step starts a capture, then that of a request that passes the limits. -/
def StartsPassing (cfg : ServiceConfig) (s : Admissions) (a : Act) : Prop :=
  ∀ id now, a = .proceed (.beginCapture id now) → s.system.server.active = none →
    ∃ req, s.source id = some req ∧ PassesLimits cfg req

/-- The invariant: each task has a request that it was made for, and holds what was admitted. -/
structure Sourced (cfg : ServiceConfig) (s : Admissions) : Prop where
  slots : s.system.Slots
  source : ∀ id, s.system.phase id ≠ .absent → ∃ req, s.source id = some req ∧
    (ObeysLimits cfg req (s.system.server.object id).req ↔ PassesLimits cfg req)

/-- What a step can do. -/
theorem step_cases {cfg : ServiceConfig} {s t : Admissions} {a : Act}
    (h : step cfg s a = some t) :
    (∃ req env, a = .request req env ∧ t = s) ∨
      (∃ req env r, a = .request req env ∧ admission cfg env req = some (.ok r) ∧
        System.Step cfg.toConfig s.system (.newTask r.1.toRequest r.2) t.system ∧
        t.source = Function.update s.source (s.system.server.nextTaskID + 1) (some req)) ∨
      ∃ b, a = .proceed b ∧ (∀ req path, b ≠ .newTask req path) ∧
        System.Step cfg.toConfig s.system b t.system ∧ t.source = s.source := by
  unfold step at h
  split at h
  · rename_i req env
    split at h
    · rename_i r hr
      obtain ⟨u, hu, rfl⟩ := Option.map_eq_some_iff.mp h
      exact Or.inr (Or.inl ⟨req, env, r, rfl, hr, System.step_cases hu, rfl⟩)
    · exact Or.inl ⟨req, env, rfl, (Option.some.inj h).symm⟩
  · cases h
  · rename_i b hb
    obtain ⟨u, hu, rfl⟩ := Option.map_eq_some_iff.mp h
    refine Or.inr (Or.inr ⟨b, rfl, fun req path hnew => ?_, System.step_cases hu, rfl⟩)
    exact hb req path hnew

/-- What a request does to the service. -/
theorem newTask_step {cfg : Config} {s t : System} {req : Request} {path : String}
    (h : System.Step cfg s (.newTask req path) t) :
    t = s.advance (s.server.nextTaskID + 1) .created (s.server.newTask req path).2 := by
  cases h
  rfl

/-- Only `newTask` makes a task. -/
theorem present_of_step {cfg : Config} {s t : System} {a : Service.Act} (h : s.Slots)
    (hst : System.Step cfg s a t) (hnew : ∀ req path, a ≠ .newTask req path) {id : TaskID}
    (ht : t.phase id ≠ .absent) : s.phase id ≠ .absent := by
  intro hs
  rcases System.phase_step h hst id with heq | hmove
  · exact ht (heq.trans hs)
  · rw [hs] at hmove
    generalize t.phase id = p at hmove
    cases hmove
    exact hnew _ _ rfl

/-- A step admits at most the request that it handles. -/
theorem Sourced.step {cfg : ServiceConfig} {s t : Admissions} {a : Act} (h : Sourced cfg s)
    (hst : step cfg s a = some t) : Sourced cfg t := by
  rcases step_cases hst with ⟨req, env, rfl, rfl⟩ | ⟨req, env, r, rfl, hr, hsys, hsource⟩ |
    ⟨b, rfl, hnew, hsys, hsource⟩
  · exact h
  · refine ⟨h.slots.step hsys, fun id hid => ?_⟩
    rw [hsource]
    by_cases hself : id = s.system.server.nextTaskID + 1
    · subst hself
      refine ⟨req, Function.update_self .., ?_⟩
      have hreq : (t.system.server.object (s.system.server.nextTaskID + 1)).req =
          r.1.toRequest := by
        rw [newTask_step hsys]
        simp [System.advance, Server.newTask]
      rw [hreq]
      exact admission_obeysLimits_iff hr
    · -- an older task keeps its request
      have hold : s.system.phase id ≠ .absent := by
        intro habs
        rw [newTask_step hsys, System.advance_phase_ne _ hself] at hid
        exact hid habs
      rw [Function.update_of_ne hself, System.req_step h.slots hsys hold]
      exact h.source id hold
  · refine ⟨h.slots.step hsys, fun id hid => ?_⟩
    have hold := present_of_step h.slots hsys hnew hid
    rw [hsource, System.req_step h.slots hsys hold]
    exact h.source id hold

/-- Nothing has been started before the first request. -/
theorem Sourced.init (cfg : ServiceConfig) : Sourced cfg init :=
  ⟨System.Slots.init, fun _ h => absurd rfl h⟩

/-- In every reachable state each task comes from an admitted request. -/
theorem sourced_of_reachable {cfg : ServiceConfig} {s : Admissions}
    (h : Reachable (step cfg) Admissions.init s) : Sourced cfg s :=
  h.invariant (Sourced.init cfg) fun _ _ _ _ hs hst => hs.step hst

/-- A capture that has started by a step had started before it, or starts in it. -/
theorem hasBegun_step {cfg : Config} {s t : System} {a : Service.Act} (h : s.Slots)
    (hst : System.Step cfg s a t) {id : TaskID} (ht : (t.phase id).hasBegun) :
    (s.phase id).hasBegun ∨ ∃ now, a = .beginCapture id now ∧ s.server.active = none := by
  rcases System.phase_step h hst id with heq | hmove
  · exact Or.inl (heq ▸ ht)
  · generalize hp : s.phase id = p, hq : t.phase id = q at hmove ht
    cases hmove with
    | begun =>
      refine Or.inr ⟨_, rfl, ?_⟩
      cases hst with
      | beginCapture _ hfree _ => exact hfree
      | beginRejected _ _ _ =>
        rw [System.advance_phase_self] at hq
        cases hq
    | created => exact ht.elim
    | registered => exact ht.elim
    | rejected => exact ht.elim
    | dropped => exact ht.elim
    | _ => exact Or.inl trivial

/-- A capture that a step starts obeys the limits exactly when its request passes them. -/
theorem startedObey_step {cfg : ServiceConfig} {s t : Admissions} {a : Act}
    (hinv : Sourced cfg s) (hs : StartedObey cfg s) (hst : step cfg s a = some t) :
    StartedObey cfg t ↔ StartsPassing cfg s a := by
  have hinv' := hinv.step hst
  have hpresent : ∀ {p : Phase}, p.hasBegun → p ≠ .absent := by
    rintro p hp rfl
    exact hp
  constructor
  · -- the task that begins is one of those that obey now
    rintro ht id now rfl hfree
    rcases step_cases hst with ⟨_, _, ha, -⟩ | ⟨_, _, _, ha, -⟩ | ⟨b, ha, -, hsys, hsource⟩
    · cases ha
    · cases ha
    obtain rfl := Act.proceed.inj ha
    have hbegun : (t.system.phase id).hasBegun := by
      generalize t.system = u at hsys
      cases hsys with
      | beginCapture _ _ _ =>
        rw [System.advance_phase_self]
        trivial
      | beginRejected _ hbusy _ => exact absurd hfree hbusy
    obtain ⟨req, hreq, hobeys⟩ := ht id hbegun
    obtain ⟨req', hreq', hiff⟩ := hinv'.source id (hpresent hbegun)
    obtain rfl := Option.some.inj (hreq.symm.trans hreq')
    exact ⟨req, hsource ▸ hreq, hiff.mp hobeys⟩
  · intro hpass id hid
    obtain ⟨req, hreq, hiff⟩ := hinv'.source id (hpresent hid)
    refine ⟨req, hreq, ?_⟩
    rcases step_cases hst with ⟨_, _, -, rfl⟩ | ⟨_, _, r, -, -, hsys, hsource⟩ |
      ⟨b, rfl, hnew, hsys, hsource⟩
    · -- a refused request starts nothing
      obtain ⟨req', hreq', hobeys⟩ := hs id hid
      obtain rfl := Option.some.inj (hreq.symm.trans hreq')
      exact hobeys
    · rcases hasBegun_step hinv.slots hsys hid with hold | ⟨now, hbegin, -⟩
      · obtain ⟨req', hreq', hobeys⟩ := hs id hold
        rw [hsource, Function.update_of_ne ?fresh] at hreq
        case fresh =>
          rintro rfl
          exact hpresent hold (hinv.slots.fresh _ (Nat.lt_succ_self _))
        obtain rfl := Option.some.inj (hreq.symm.trans hreq')
        rw [System.req_step hinv.slots hsys (hpresent hold)]
        exact hobeys
      · cases hbegin
    · rw [hsource] at hreq
      rcases hasBegun_step hinv.slots hsys hid with hold | ⟨now, rfl, hfree⟩
      · obtain ⟨req', hreq', hobeys⟩ := hs id hold
        obtain rfl := Option.some.inj (hreq.symm.trans hreq')
        rw [System.req_step hinv.slots hsys (hpresent hold)]
        exact hobeys
      · -- the capture that starts here
        obtain ⟨req', hreq', hpasses⟩ := hpass id now rfl hfree
        obtain rfl := Option.some.inj (hreq.symm.trans hreq')
        exact hiff.mpr hpasses

/-- **Captures obey the limits that their requests pass.** In a run, every started capture obeys
the limits exactly when every capture is started for a request that passes them. -/
theorem admitted_iff (cfg : ServiceConfig) (as : List Act) {u : Admissions}
    (h : run (step cfg) init as = some u) :
    Always (step cfg) (StartedObey cfg) init as ↔ Along (step cfg) (StartsPassing cfg) init as := by
  refine always_iff_along (fun id hid => hid.elim) (fun s a t hr hs hst => ?_) h
  exact startedObey_step (sourced_of_reachable hr) hs hst

/-! ## A profile without limits -/

/-- The configuration that the service comes with. -/
def shippedConfig : ServiceConfig where
  toConfig := defaultConfig
  idleTimeoutSeconds := 30
  maxFileSizeBytes := 104857600

/-- A host with one USBPcap interface and one device. -/
def oneDevice : Surroundings where
  listInterfaces := .ok ["USBPcap1"]
  listDevices := fun _ => .ok [⟨5, "0x1234", "0x5678"⟩]
  equalFold := fun s t => s == t
  base := id
  defaultOutputPath := fun name => "captures/" ++ name

/-- Profile the device. -/
def profileOne : IpcRequest where
  action := "profileDevice"
  vendorID := "0x1234"

/-- The profile starts. -/
def profileRun : List Act :=
  [.request profileOne oneDevice, .proceed (.registerTask 1), .proceed (.beginCapture 1 0)]

/-- The capture runs without an idle timeout. -/
theorem profileRun_outcome :
    ((run (step shippedConfig) init profileRun).map fun s =>
      (decide (s.system.phase 1).hasBegun, s.source 1,
        (s.system.server.object 1).req.idleTimeoutSeconds)) =
      some (true, some profileOne, 0) := by
  decide +kernel

/-- The profile's capture runs past the limits. -/
theorem profile_starts_without_limits :
    ¬ Always (step shippedConfig) (StartedObey shippedConfig) init profileRun := by
  intro hobey
  obtain ⟨s, hs, hout⟩ := Option.map_eq_some_iff.mp profileRun_outcome
  rw [Prod.mk.injEq, Prod.mk.injEq] at hout
  obtain ⟨hbegun, hsource, hidle⟩ := hout
  obtain ⟨req, hreq, hlimits⟩ :=
    hobey profileRun s (List.prefix_refl _) hs 1 (of_decide_eq_true hbegun)
  obtain rfl := Option.some.inj (hsource.symm.trans hreq)
  -- the configuration's thirty seconds are missing
  have hthirty := hlimits.idle_eq
  rw [hidle] at hthirty
  exact absurd hthirty (by decide)

/-- The same run does not meet the condition. -/
theorem admitted_iff_profileRun :
    Always (step shippedConfig) (StartedObey shippedConfig) init profileRun ↔
      Along (step shippedConfig) (StartsPassing shippedConfig) init profileRun := by
  obtain ⟨s, hs, -⟩ := Option.map_eq_some_iff.mp profileRun_outcome
  exact admitted_iff shippedConfig profileRun hs

end Admissions

end UsbPcap.Service
