import UsbPcap.Cmd.Matching
import UsbPcap.Cmd.WorkerLine

/-!
# The worker's capture

What the option loop leaves in `thread_data` is `Configured`. Printed as the worker's command line
and read again, it is the same exactly when nothing in it needs a quote, no text is empty, the
snapshot length survives `atol` and the line fits its buffer. One direction follows the worker's
options through its option loop; for the other, every quote in the line costs a quote or a
backslash, and neither the device nor the file name can spare one.
-/

namespace UsbPcap.Cmd

open CText Getopt

/-! ## What the option loop leaves behind -/

/-- The configuration in `thread_data` behind the option loop. -/
structure CaptureData.Configured (data : CaptureData) : Prop where
  bufferlen : data.bufferlen.toNat < 2 ^ 31 ∧ ¬ (data.bufferlen < 4096 ∨ 134217728 < data.bufferlen)
  snaplen : data.snaplen ≠ 0
  storeMode : data.storeMode = storeModeImmediate ∨ data.storeMode = storeModeOnMatch
  vendorId : data.appFilter.hasVendorId = false → data.appFilter.vendorId = 0
  productId : data.appFilter.hasProductId = false → data.appFilter.productId = 0
  endpoint : data.appFilter.hasEndpoint = false → data.appFilter.endpoint = 0
  transferType : data.appFilter.hasTransferType = false → data.appFilter.transferType = 0
  known : data.appFilter.hasTransferType = true →
    parseTransferType (transferTypeToText data.appFilter.transferType) =
      some data.appFilter.transferType
  enabled : data.appFilter.hasEndpoint = true ∨ data.appFilter.hasTransferType = true →
    data.appFilter.enabled = true

/-- The variables in the option loop: the ids are not yet in the filter. -/
structure Settings.Parsing (s : Settings) : Prop where
  data : s.data.Configured
  noVendorId : s.data.appFilter.hasVendorId = false
  noProductId : s.data.appFilter.hasProductId = false
  vendorId : s.hasVendorId = false → s.vendorId = 0
  productId : s.hasProductId = false → s.productId = 0

/-- The settings that `main` starts with can be reached. -/
theorem configured_initial : Settings.initial.data.Configured where
  bufferlen := by decide
  snaplen := by decide
  storeMode := Or.inl rfl
  vendorId _ := rfl
  productId _ := rfl
  endpoint _ := rfl
  transferType _ := rfl
  known h := by cases h
  enabled h := by
    rcases h with h | h
    · cases h
    · cases h

/-- And the option loop starts in them. -/
theorem parsing_initial : Settings.initial.Parsing where
  data := configured_initial
  noVendorId := rfl
  noProductId := rfl
  vendorId _ := rfl
  productId _ := rfl

/-- The five transfer types have names that are read back. -/
theorem transferTypeToText_parse {text : CStr} {transfer : UInt8}
    (h : parseTransferType text = some transfer) :
    parseTransferType (transferTypeToText transfer) = some transfer := by
  unfold parseTransferType at h
  repeat' split at h
  all_goals first
    | cases h
      decide
    | cases h

/-- Every option that is accepted leaves a configuration behind. -/
theorem Settings.Parsing.apply {s t : Settings} (hs : s.Parsing) {opt : Opt}
    (h : s.apply opt = .ok t) : t.Parsing := by
  have hdata := hs.data
  unfold Settings.apply at h
  cases opt with
  | snaplen arg =>
    dsimp only at h
    split at h
    · cases h
    · rename_i hsnaplen
      cases h
      exact { hs with data := { hdata with snaplen := hsnaplen } }
  | bufferlen arg =>
    dsimp only at h
    split at h
    · cases h
    · rename_i hbufferlen
      cases h
      refine { hs with data := { hdata with bufferlen := ⟨?_, hbufferlen⟩ } }
      rw [not_or, UInt32.not_lt, UInt32.not_lt, UInt32.le_iff_toNat_le,
        UInt32.le_iff_toNat_le] at hbufferlen
      exact lt_of_le_of_lt hbufferlen.2 (by decide)
  | vendorId arg =>
    dsimp only at h
    split at h
    · cases h
    · cases h
      exact { hs with vendorId := fun hno => by cases hno }
  | productId arg =>
    dsimp only at h
    split at h
    · cases h
    · cases h
      exact { hs with productId := fun hno => by cases hno }
  | duration arg =>
    dsimp only at h
    split at h
    · cases h
    · cases h
      exact { hs with data := { hdata with } }
  | endpoint arg =>
    dsimp only at h
    split at h
    · cases h
    · split at h
      · cases h
      · cases h
        exact { hs with data := { hdata with
          endpoint := fun hno => by cases hno
          enabled := fun _ => rfl } }
  | transferType arg =>
    dsimp only at h
    split at h
    · cases h
    · rename_i htransfer
      cases h
      exact { hs with data := { hdata with
        transferType := fun hno => by cases hno
        known := fun _ => transferTypeToText_parse htransfer
        enabled := fun _ => rfl } }
  | storeMode arg =>
    dsimp only at h
    split at h
    · cases h
      exact { hs with data := { hdata with storeMode := Or.inl rfl } }
    · split at h
      · cases h
        exact { hs with data := { hdata with storeMode := Or.inr rfl } }
      · cases h
  | appFilter =>
    cases h
    exact { hs with data := { hdata with enabled := fun _ => rfl } }
  | _ =>
    -- the other options end the program or set variables that are not looked at here
    cases h
    try exact { hs with data := { hdata with } }

/-- The option loop keeps what it needs to go on. -/
theorem Settings.Parsing.optionLoop {s t : Settings} (hs : s.Parsing) {opts : List Opt}
    (h : optionLoop s opts = .ok t) : t.Parsing := by
  induction opts generalizing s with
  | nil =>
    cases h
    exact hs
  | cons opt opts ih =>
    unfold Cmd.optionLoop at h
    split at h
    · cases h
    · rename_i u hu
      exact ih (hs.apply hu) h

/-- The filter with the ids. -/
def AppCaptureFilter.withIds (f : AppCaptureFilter) (ids : Ids) : AppCaptureFilter :=
  { f with
    hasVendorId := ids.hasVendorId, vendorId := ids.vendorId
    hasProductId := ids.hasProductId, productId := ids.productId }

/-- Behind the option loop the filter holds the ids that were given, and zeros for the others. -/
theorem Settings.Parsing.withIds {s : Settings} (hs : s.Parsing) :
    s.withIds = { s with data := { s.data with appFilter := s.data.appFilter.withIds s.ids } } := by
  have hvendor := hs.data.vendorId hs.noVendorId
  have hproduct := hs.data.productId hs.noProductId
  have hfilter : s.withIds.data.appFilter = s.data.appFilter.withIds s.ids := by
    have hnoVendor := hs.noVendorId
    have hnoProduct := hs.noProductId
    have hv := hs.vendorId
    have hp := hs.productId
    unfold Settings.withIds AppCaptureFilter.withIds Settings.ids
    revert hvendor hproduct hnoVendor hnoProduct hv hp
    obtain ⟨enabled, hasV, hasP, hasE, hasT, v, p, e, t⟩ := s.data.appFilter
    intro hvendor hproduct hnoVendor hnoProduct hv hp
    dsimp only at hvendor hproduct hnoVendor hnoProduct
    subst hvendor hproduct hnoVendor hnoProduct
    cases hasVendor : s.hasVendorId with
    | false =>
      cases hasProduct : s.hasProductId with
      | false =>
        rw [hv hasVendor, hp hasProduct]
        rfl
      | true =>
        rw [hv hasVendor]
        rfl
    | true =>
      cases hasProduct : s.hasProductId with
      | false =>
        rw [hp hasProduct]
        rfl
      | true => rfl
  rw [← hfilter]
  rfl

/-- What `usbpcapcmd_main` makes of its options is a configuration. -/
theorem configured_parseOptions {opts : List Opt} {s : Settings} (h : parseOptions opts = .ok s) :
    s.data.Configured := by
  unfold parseOptions at h
  split at h
  · cases h
  · rename_i t ht
    cases h
    have hparsing := parsing_initial.optionLoop ht
    have hdata := hparsing.data
    rw [hparsing.withIds]
    exact { bufferlen := hdata.bufferlen, snaplen := hdata.snaplen, storeMode := hdata.storeMode,
            vendorId := hparsing.vendorId, productId := hparsing.productId,
            endpoint := hdata.endpoint, transferType := hdata.transferType, known := hdata.known,
            enabled := hdata.enabled }

/-! ## Running the worker's options -/

variable {s t : Settings} {rest : List Opt}

/-- An option that is accepted is followed by the rest of the loop. -/
theorem optionLoop_cons {opt : Opt} (h : s.apply opt = .ok t) :
    optionLoop s (opt :: rest) = optionLoop t rest := by
  rw [optionLoop, h]

/-- An option that sets a variable to what it is where the option is not given. -/
theorem optionLoop_optIf {b : Bool} {opt : Opt} (htrue : b = true → s.apply opt = .ok t)
    (hfalse : b = false → t = s) : optionLoop s (optIf b opt ++ rest) = optionLoop t rest := by
  unfold optIf
  cases b with
  | false =>
    rw [hfalse rfl]
    rfl
  | true => exact optionLoop_cons (htrue rfl)

/-- An option that switches a variable on that is off. -/
theorem optionLoop_flag {opt : Opt} (b : Bool) (set : Bool → Settings)
    (htrue : s.apply opt = .ok (set true)) (hfalse : set false = s) :
    optionLoop s (optIf b opt ++ rest) = optionLoop (set b) rest := by
  refine optionLoop_optIf (fun hb => ?_) fun hb => ?_
  · rw [hb, htrue]
  · rw [hb, hfalse]

/-- `atol` saturates, and the result is stored as it is. -/
theorem ofInt_atoi_decimal (n : ℕ) :
    UInt32.ofInt (atoi (decimal n)) = UInt32.ofNat (min n (2 ^ 31 - 1)) := by
  rw [atoi_decimal, UInt32.ofInt]
  apply congrArg
  omega

/-- A printed 32-bit number is read back. -/
theorem parseU32Value_decimal {n : ℕ} (hn : n < 2 ^ 32) :
    parseU32Value (decimal n) = some (UInt32.ofNat n) := by
  unfold parseU32Value
  rw [if_neg (decimal_ne_nil n), strtoul_decimal hn]

/-- So is a printed id. -/
theorem parseU16Value_decimal {n : ℕ} (hn : n < 2 ^ 16) :
    parseU16Value (decimal n) = some (UInt16.ofNat n) := by
  have hnat : (UInt32.ofNat n).toNat = n :=
    UInt32.toNat_ofNat_of_lt' (hn.trans (by decide))
  unfold parseU16Value
  rw [parseU32Value_decimal (hn.trans (by decide))]
  dsimp only
  rw [if_neg, hnat]
  rw [UInt32.not_lt, UInt32.le_iff_toNat_le, hnat]
  exact Nat.le_of_lt_succ hn

/-- A snapshot length behind `%u` and `atol`. -/
def readBack (snaplen : UInt32) : UInt32 := UInt32.ofNat (min snaplen.toNat (2 ^ 31 - 1))

/-- A snaplen above the range of `int` comes back as `INT_MAX`. -/
theorem toNat_readBack (snaplen : UInt32) :
    (readBack snaplen).toNat = min snaplen.toNat (2 ^ 31 - 1) := by
  have hlt : min snaplen.toNat (2 ^ 31 - 1) < 2 ^ 32 :=
    (Nat.min_le_right _ _).trans_lt (by decide)
  exact UInt32.toNat_ofNat_of_lt' hlt

/-- Only snaplens from 2^31 on change on the way. -/
theorem readBack_eq_iff (snaplen : UInt32) :
    readBack snaplen = snaplen ↔ snaplen.toNat < 2 ^ 31 := by
  rw [← UInt32.toNat_inj, toNat_readBack]
  omega

/-- `-s` with the printed snaplen sets what `atol` makes of it. -/
theorem apply_snaplen {snaplen : UInt32} (hne : snaplen ≠ 0) :
    s.apply (.snaplen (decimal snaplen.toNat)) =
      .ok { s with data := { s.data with snaplen := readBack snaplen } } := by
  have hback : readBack snaplen ≠ 0 := by
    intro h
    have hzero := congrArg UInt32.toNat h
    rw [toNat_readBack] at hzero
    change min snaplen.toNat (2 ^ 31 - 1) = 0 at hzero
    exact hne (UInt32.toNat_inj.mp (show snaplen.toNat = 0 by omega))
  unfold Settings.apply
  dsimp only
  rw [ofInt_atoi_decimal, ← readBack, if_neg hback]

/-- `-b` with a printed length in the accepted range sets that length. -/
theorem apply_bufferlen {bufferlen : UInt32} (hlt : bufferlen.toNat < 2 ^ 31)
    (hrange : ¬ (bufferlen < 4096 ∨ 134217728 < bufferlen)) :
    s.apply (.bufferlen (decimal bufferlen.toNat)) =
      .ok { s with data := { s.data with bufferlen := bufferlen } } := by
  have hread : UInt32.ofInt (atoi (decimal bufferlen.toNat)) = bufferlen := by
    rw [ofInt_atoi_decimal, Nat.min_eq_left (Nat.le_sub_one_of_lt hlt), UInt32.ofNat_toNat]
  unfold Settings.apply
  dsimp only
  rw [hread, if_neg hrange]

/-- `--duration` sets the printed seconds. -/
theorem apply_duration (seconds : UInt32) :
    s.apply (.duration (decimal seconds.toNat)) =
      .ok { s with data := { s.data with durationSeconds := seconds } } := by
  unfold Settings.apply
  dsimp only
  rw [parseU32Value_decimal seconds.toNat_lt, UInt32.ofNat_toNat]

/-- `--vendor-id` sets the printed id. -/
theorem apply_vendorId (id : UInt16) :
    s.apply (.vendorId (decimal id.toNat)) =
      .ok { s with vendorId := id, hasVendorId := true } := by
  unfold Settings.apply
  dsimp only
  rw [parseU16Value_decimal id.toNat_lt, UInt16.ofNat_toNat]

/-- `--product-id` sets the printed id. -/
theorem apply_productId (id : UInt16) :
    s.apply (.productId (decimal id.toNat)) =
      .ok { s with productId := id, hasProductId := true } := by
  unfold Settings.apply
  dsimp only
  rw [parseU16Value_decimal id.toNat_lt, UInt16.ofNat_toNat]

/-- `--endpoint` sets the printed address and switches the filter on. -/
theorem apply_endpoint (endpoint : UInt8) :
    s.apply (.endpoint (decimal endpoint.toNat)) =
      .ok { s with data := { s.data with appFilter := { s.data.appFilter with
        enabled := true, hasEndpoint := true, endpoint := endpoint } } } := by
  have hlt : endpoint.toNat < 256 := endpoint.toNat_lt
  have hnat : (UInt16.ofNat endpoint.toNat).toNat = endpoint.toNat :=
    UInt16.toNat_ofNat_of_lt' (hlt.trans (by decide))
  have hsmall : ¬ 0xFF < UInt16.ofNat endpoint.toNat := by
    rw [UInt16.not_lt, UInt16.le_iff_toNat_le, hnat]
    exact Nat.le_of_lt_succ hlt
  have hback : (UInt16.ofNat endpoint.toNat).toUInt8 = endpoint := by
    apply UInt8.toNat_inj.mp
    rw [UInt16.toNat_toUInt8, hnat, Nat.mod_eq_of_lt hlt]
  unfold Settings.apply
  dsimp only
  rw [parseU16Value_decimal (hlt.trans (by decide))]
  dsimp only
  rw [if_neg hsmall, hback]

/-- `--transfer-type` sets the type whose name is printed. -/
theorem apply_transferType {transfer : UInt8}
    (h : parseTransferType (transferTypeToText transfer) = some transfer) :
    s.apply (.transferType (transferTypeToText transfer)) =
      .ok { s with data := { s.data with appFilter := { s.data.appFilter with
        enabled := true, hasTransferType := true, transferType := transfer } } } := by
  unfold Settings.apply
  dsimp only
  rw [h]

/-! Each option of the line sets its variable, whether it was printed or the variable has its
initial value. -/

/-- The default snaplen is not printed, and no other one is lost. -/
theorem loop_snaplen {snaplen : UInt32} (hs : s.data.snaplen = defaultSnapshotLength)
    (hne : snaplen ≠ 0) :
    optionLoop s (optIf (snaplen ≠ defaultSnapshotLength) (.snaplen (decimal snaplen.toNat)) ++
        rest) =
      optionLoop { s with data := { s.data with snaplen := readBack snaplen } } rest := by
  refine optionLoop_optIf (fun _ => apply_snaplen hne) fun hb => ?_
  have hdefault : readBack defaultSnapshotLength = defaultSnapshotLength := by decide
  rw [not_not.mp (of_decide_eq_false hb), hdefault, ← hs]

/-- Without an address list there is no `--devices`, and the list stays away. -/
theorem loop_devices {list : Option CStr} (hs : s.data.addressList = none) :
    optionLoop s (optIf list.isSome (.devices (list.getD [])) ++ rest) =
      optionLoop { s with data := { s.data with addressList := list } } rest := by
  refine optionLoop_optIf (fun hb => ?_) fun hb => ?_
  · obtain ⟨text, rfl⟩ := Option.isSome_iff_exists.mp hb
    rfl
  · cases list with
    | none => rw [← hs]
    | some text => cases hb

/-- The flag is printed exactly where it is set. -/
theorem loop_captureAll (b : Bool) (hs : s.data.captureAll = false) :
    optionLoop s (optIf b .captureFromAllDevices ++ rest) =
      optionLoop { s with data := { s.data with captureAll := b } } rest := by
  refine optionLoop_flag b (fun b => { s with data := { s.data with captureAll := b } }) rfl ?_
  rw [← hs]

/-- So is this flag. -/
theorem loop_captureNew (b : Bool) (hs : s.data.captureNew = false) :
    optionLoop s (optIf b .captureFromNewDevices ++ rest) =
      optionLoop { s with data := { s.data with captureNew := b } } rest := by
  refine optionLoop_flag b (fun b => { s with data := { s.data with captureNew := b } }) rfl ?_
  rw [← hs]

/-- And this one. -/
theorem loop_injectDescriptors (b : Bool) (hs : s.data.injectDescriptors = false) :
    optionLoop s (optIf b .injectDescriptors ++ rest) =
      optionLoop { s with data := { s.data with injectDescriptors := b } } rest := by
  refine optionLoop_flag b
    (fun b => { s with data := { s.data with injectDescriptors := b } }) rfl ?_
  rw [← hs]

/-- A duration of zero is not printed, and zero is where the loop starts. -/
theorem loop_duration (seconds : UInt32) (hs : s.data.durationSeconds = 0) :
    optionLoop s (optIf (0 < seconds) (.duration (decimal seconds.toNat)) ++ rest) =
      optionLoop { s with data := { s.data with durationSeconds := seconds } } rest := by
  refine optionLoop_optIf (fun _ => apply_duration seconds) fun hb => ?_
  have hzero : seconds = 0 := by
    have h := of_decide_eq_false hb
    rw [UInt32.not_lt] at h
    exact UInt32.le_zero_iff.mp h
  rw [hzero, ← hs]

/-- The filter is switched on by its own flag. -/
theorem loop_appFilter (b : Bool) (hs : s.data.appFilter.enabled = false) :
    optionLoop s (optIf b .appFilter ++ rest) =
      optionLoop { s with data := { s.data with
        appFilter := { s.data.appFilter with enabled := b } } } rest := by
  refine optionLoop_flag b (fun b => { s with data := { s.data with
    appFilter := { s.data.appFilter with enabled := b } } }) rfl ?_
  rw [← hs]

/-- An id is printed where there is one. -/
theorem loop_vendorId {b : Bool} {id : UInt16} (hid : b = false → id = 0)
    (hs : s.hasVendorId = false) (hzero : s.vendorId = 0) :
    optionLoop s (optIf b (.vendorId (decimal id.toNat)) ++ rest) =
      optionLoop { s with hasVendorId := b, vendorId := id } rest := by
  refine optionLoop_optIf (fun hb => ?_) fun hb => ?_
  · rw [hb]
    exact apply_vendorId id
  · rw [hid hb, hb, ← hs, ← hzero]

/-- So is this id. -/
theorem loop_productId {b : Bool} {id : UInt16} (hid : b = false → id = 0)
    (hs : s.hasProductId = false) (hzero : s.productId = 0) :
    optionLoop s (optIf b (.productId (decimal id.toNat)) ++ rest) =
      optionLoop { s with hasProductId := b, productId := id } rest := by
  refine optionLoop_optIf (fun hb => ?_) fun hb => ?_
  · rw [hb]
    exact apply_productId id
  · rw [hid hb, hb, ← hs, ← hzero]

/-- The endpoint is printed after the filter has been switched on. -/
theorem loop_endpoint {b : Bool} {endpoint : UInt8} (hoff : b = false → endpoint = 0)
    (hon : b = true → s.data.appFilter.enabled = true)
    (hs : s.data.appFilter.hasEndpoint = false) (hzero : s.data.appFilter.endpoint = 0) :
    optionLoop s (optIf b (.endpoint (decimal endpoint.toNat)) ++ rest) =
      optionLoop { s with data := { s.data with appFilter := { s.data.appFilter with
        hasEndpoint := b, endpoint := endpoint } } } rest := by
  refine optionLoop_optIf (fun hb => ?_) fun hb => ?_
  · rw [apply_endpoint, hb, ← hon hb]
  · rw [hoff hb, hb, ← hs, ← hzero]

/-- So is the transfer type, by its name. -/
theorem loop_transferType {b : Bool} {transfer : UInt8} (hoff : b = false → transfer = 0)
    (hon : b = true → s.data.appFilter.enabled = true ∧
      parseTransferType (transferTypeToText transfer) = some transfer)
    (hs : s.data.appFilter.hasTransferType = false) (hzero : s.data.appFilter.transferType = 0) :
    optionLoop s (optIf b (.transferType (transferTypeToText transfer)) ++ rest) =
      optionLoop { s with data := { s.data with appFilter := { s.data.appFilter with
        hasTransferType := b, transferType := transfer } } } rest := by
  refine optionLoop_optIf (fun hb => ?_) fun hb => ?_
  · rw [apply_transferType (hon hb).2, hb, ← (hon hb).1]
  · rw [hoff hb, hb, ← hs, ← hzero]

/-- Only the mode that is not the default is printed. -/
theorem loop_storeMode {mode : UInt32} (hs : s.data.storeMode = storeModeImmediate)
    (hmode : mode = storeModeImmediate ∨ mode = storeModeOnMatch) :
    optionLoop s (optIf (mode = storeModeOnMatch) (.storeMode "on-match".toList) ++ rest) =
      optionLoop { s with data := { s.data with storeMode := mode } } rest := by
  refine optionLoop_optIf (fun hb => ?_) fun hb => ?_
  · rw [of_decide_eq_true hb]
    rfl
  · rw [hmode.resolve_right (of_decide_eq_false hb), ← hs]

/-- The variables behind the worker's option loop. -/
def workerLoopEnd (device filename : CStr) (data : CaptureData) : Settings :=
  { Settings.initial with
    data := { Settings.initial.data with
      device := some device, filename := some filename, bufferlen := data.bufferlen
      snaplen := readBack data.snaplen, addressList := data.addressList
      captureAll := data.captureAll, captureNew := data.captureNew
      injectDescriptors := data.injectDescriptors, durationSeconds := data.durationSeconds
      storeMode := data.storeMode
      appFilter := { data.appFilter with
        hasVendorId := false, vendorId := 0, hasProductId := false, productId := 0 } }
    noInteractive := true
    hasVendorId := data.appFilter.hasVendorId, vendorId := data.appFilter.vendorId
    hasProductId := data.appFilter.hasProductId, productId := data.appFilter.productId }

/-- The loop over the printed options ends in the settings that were printed. -/
theorem optionLoop_worker {device filename : CStr} {data : CaptureData}
    (hdata : data.Configured) :
    optionLoop .initial (.device device :: .bufferlen (decimal data.bufferlen.toNat) ::
        .output filename :: workerOpts data) =
      .ok (workerLoopEnd device filename data) := by
  have hdevice (s : Settings) : s.apply (.device device) =
      .ok { s with data := { s.data with device := some device } } := rfl
  have houtput (s : Settings) : s.apply (.output filename) =
      .ok { s with data := { s.data with filename := some filename } } := rfl
  rw [optionLoop_cons (hdevice _), optionLoop_cons (apply_bufferlen hdata.bufferlen.1
      hdata.bufferlen.2), optionLoop_cons (houtput _), workerOpts,
    loop_snaplen rfl hdata.snaplen, loop_devices rfl, loop_captureAll _ rfl,
    loop_captureNew _ rfl, loop_injectDescriptors _ rfl, loop_duration _ rfl,
    loop_appFilter _ rfl, loop_vendorId hdata.vendorId rfl rfl,
    loop_productId hdata.productId rfl rfl,
    loop_endpoint hdata.endpoint (fun h => hdata.enabled (Or.inl h)) rfl rfl,
    loop_transferType hdata.transferType (fun h => ⟨hdata.enabled (Or.inr h), hdata.known h⟩) rfl
      rfl,
    loop_storeMode rfl hdata.storeMode]
  rfl

/-! ## The worker's settings -/

/-- What `generate_worker_command_line` prints itself needs no quotes. -/
theorem Printed.isPlain {data : CaptureData} {o : WorkerOption} (h : Printed data o)
    (hlist : ∀ list, data.addressList = some list → IsAddressList list) : o.IsPlain := by
  cases h with
  | flag hp =>
    refine ⟨isPlain_of_chars (chars_workerFlags _ hp), fun value hvalue => ?_⟩
    cases hvalue
  | value hp hv =>
    refine ⟨isPlain_of_chars (chars_workerValues _ hp), fun value hvalue => ?_⟩
    obtain rfl := Option.some.inj hvalue
    exact isPlain_of_chars hv.chars
  | devices hsome =>
    refine ⟨isPlain_of_chars (chars_of_all rfl), fun value hvalue => ?_⟩
    obtain rfl := Option.some.inj hvalue
    exact isPlain_of_chars (hlist _ hsome).chars

/-- A device and a file name without quotes and blanks leave the line plain. -/
theorem isPlain_lineOptions {device filename : CStr} {data : CaptureData}
    (hdevice : Argv.IsPlain device) (hfilename : Argv.IsPlain filename)
    (hlist : ∀ list, data.addressList = some list → IsAddressList list) :
    ∀ o ∈ lineOptions device filename data, o.IsPlain := by
  have hoption {name value : CStr} (hname : Argv.IsPlain name) (hvalue : Argv.IsPlain value) :
      (WorkerOption.mk name (some value)).IsPlain := by
    refine ⟨hname, fun v hv => ?_⟩
    obtain rfl := Option.some.inj hv
    exact hvalue
  intro o ho
  unfold lineOptions at ho
  rcases List.mem_cons.mp ho with rfl | ho
  · exact hoption (isPlain_of_chars (chars_of_all rfl)) hdevice
  rcases List.mem_cons.mp ho with rfl | ho
  · exact hoption (isPlain_of_chars (chars_of_all rfl)) (isPlain_of_chars (isValue_decimal _).chars)
  rcases List.mem_cons.mp ho with rfl | ho
  · exact hoption (isPlain_of_chars (chars_of_all rfl)) hfilename
  · exact (printed_workerOptions ho).isPlain hlist

/-- The arguments of a plain line. -/
theorem split_plain {device filename line : CStr} {data : CaptureData}
    (hdevice : Argv.IsPlain device) (hfilename : Argv.IsPlain filename)
    (hlist : ∀ list, data.addressList = some list → IsAddressList list)
    (hline : ' ' :: line = (lineOptions device filename data).flatMap WorkerOption.text) :
    Argv.split line = "-d".toList :: (Argv.wordOf device ++ "-b".toList ::
      decimal data.bufferlen.toNat :: "-o".toList :: (Argv.wordOf filename ++
        (workerOptions data).flatMap WorkerOption.tokens)) := by
  have hnumber : Argv.wordOf (decimal data.bufferlen.toNat) = [decimal data.bufferlen.toNat] :=
    Argv.wordOf_word (decimal_ne_nil _)
  rw [split_line (isPlain_lineOptions hdevice hfilename hlist) hline]
  unfold lineOptions
  simp only [List.flatMap_cons, WorkerOption.tokens, hnumber, List.append_assoc]
  rfl

/-- `-d` takes its value from the next argument. -/
theorem element_d : optionSpec.element "-d".toList = .wantsArg [] .device := by decide

/-- So does `-b`. -/
theorem element_b : optionSpec.element "-b".toList = .wantsArg [] .bufferlen := by decide

/-- So does `-o`. -/
theorem element_o : optionSpec.element "-o".toList = .wantsArg [] .output := by decide

/-- `getopt_long` on an option and what follows it. -/
theorem argvOptions_cons {name : CStr} {key : OptKey}
    (h : optionSpec.element name = .wantsArg [] key) (value : CStr) (args : List CStr) :
    argvOptions (name :: value :: args) =
      .ofFound (.option key (some value)) :: argvOptions args :=
  congrArg (List.map Opt.ofFound) (getopt_value h value args)

/-- Where every text is an argument of its own, the worker reads back all but a snapshot length
that is too large. -/
theorem workerSettings_words {device filename line : CStr} {data : CaptureData}
    (hdata : data.Configured) (hdevice : Argv.IsWord device) (hfilename : Argv.IsWord filename)
    (hlist : ∀ list, data.addressList = some list → IsAddressList list)
    (hempty : data.addressList ≠ some [])
    (hline : ' ' :: line = (lineOptions device filename data).flatMap WorkerOption.text) :
    workerSettings line = .ok (workerLoopEnd device filename data).withIds := by
  have hopts : argvOptions (Argv.split line) = .device device ::
      .bufferlen (decimal data.bufferlen.toNat) :: .output filename :: workerOpts data := by
    rw [split_plain hdevice.2 hfilename.2 hlist hline, Argv.wordOf_word hdevice.1,
      Argv.wordOf_word hfilename.1, List.singleton_append, List.singleton_append,
      argvOptions_cons element_d, argvOptions_cons element_b, argvOptions_cons element_o,
      argvOptions_workerOptions hempty]
    rfl
  unfold workerSettings parseOptions
  rw [hopts, optionLoop_worker hdata]

/-- Behind the worker's options the loop could go on. -/
theorem parsing_workerLoopEnd {device filename : CStr} {data : CaptureData}
    (hdata : data.Configured) : (workerLoopEnd device filename data).Parsing :=
  parsing_initial.optionLoop (optionLoop_worker hdata)

/-- What these settings are. -/
theorem sameCapture_workerLoopEnd {device filename : CStr} {data : CaptureData}
    (hdata : data.Configured) (hdevice : data.device = some device)
    (hfilename : data.filename = some filename) (hsnaplen : readBack data.snaplen = data.snaplen) :
    SameCapture data (workerLoopEnd device filename data).withIds.data := by
  rw [(parsing_workerLoopEnd hdata).withIds]
  exact { device := hdevice.symm, filename := hfilename.symm, bufferlen := rfl, snaplen := hsnaplen,
          addressList := rfl, captureAll := rfl, captureNew := rfl, injectDescriptors := rfl,
          durationSeconds := rfl, appFilter := rfl, storeMode := rfl }

end UsbPcap.Cmd
