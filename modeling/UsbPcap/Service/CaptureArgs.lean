import UsbPcap.Cmd.Acceptance
import UsbPcap.Service.Admission

/-!
# The arguments of a capture

`BuildCaptureArgs` hands an admitted request to the capture tool as a command line.
`normalizeHex` has turned what it reads as a hexadecimal number into a text that the tool's
`strtoul` reads as the same number. It leaves every other text as it is, and neither it nor
`validateCaptureRequest` refuses one.
-/

namespace UsbPcap.Service

open Cmd CText
open Server (trimSpace)

/-! ## `BuildCaptureArgs` -/

/-- The arguments for the ids. -/
def idArgs (req : IpcRequest) : List String :=
  (if req.vendorID ≠ "" then ["--vendor-id", req.vendorID] else []) ++
    (if req.productID ≠ "" then ["--product-id", req.productID] else [])

/-- `BuildCaptureArgs` -/
def buildCaptureArgs (req : IpcRequest) (outputPath : String) : List String :=
  ["--json", "--no-interactive", "--output", outputPath] ++
    (if req.interface ≠ "" then ["--device", req.interface] else []) ++
    (if req.autoInterface then ["--auto-interface"] else []) ++
    idArgs req ++
    (if 0 < req.durationSeconds then
      ["--duration", .ofList (decimal req.durationSeconds.toNat)] else []) ++
    (if req.captureNewDevices then ["--capture-from-new-devices"] else []) ++
    (if req.captureNewDevices = false ∧ req.vendorID = "" ∧ req.productID = "" then ["-A"]
      else []) ++
    (if req.appFilter then ["--app-filter"] else []) ++
    (if req.endpoint ≠ "" then ["--endpoint", req.endpoint] else []) ++
    (if req.transferType ≠ "" then ["--transfer-type", req.transferType] else []) ++
    (if req.storeMode ≠ "" then ["--store-mode", req.storeMode] else [])

/-! ## The options in them -/

/-- What `getopt_long` finds in the arguments that the tool is started with. -/
def toolOptions (args : List String) : List Opt := argvOptions (args.map String.toList)

/-- The options without an argument that `BuildCaptureArgs` uses. -/
def captureFlags : List (String × OptKey) :=
  [("--json", .json), ("--no-interactive", .noInteractive), ("--auto-interface", .autoInterface),
    ("--capture-from-new-devices", .captureFromNewDevices), ("-A", .captureFromAllDevices),
    ("--app-filter", .appFilter)]

/-- The options with an argument that it uses. -/
def captureValues : List (String × OptKey) :=
  [("--output", .output), ("--device", .device), ("--vendor-id", .vendorId),
    ("--product-id", .productId), ("--duration", .duration), ("--endpoint", .endpoint),
    ("--transfer-type", .transferType), ("--store-mode", .storeMode)]

/-- The tool's option table knows the flags that the service passes. -/
theorem element_captureFlags : ∀ p ∈ captureFlags,
    optionSpec.element p.1.toList = .options [.option p.2 none] := by decide +kernel

/-- It knows the options with a value too. -/
theorem element_captureValues : ∀ p ∈ captureValues,
    optionSpec.element p.1.toList = .wantsArg [] p.2 := by decide +kernel

/-- The tool reads a flag as its option. -/
theorem toolOptions_flag {name : String} {key : OptKey} (h : (name, key) ∈ captureFlags)
    (args : List String) :
    toolOptions (name :: args) = .ofFound (.option key none) :: toolOptions args :=
  congrArg (List.map Opt.ofFound)
    (Getopt.getopt_flag (element_captureFlags _ h) (args.map String.toList))

/-- And an option with its value. -/
theorem toolOptions_value {name : String} {key : OptKey} (h : (name, key) ∈ captureValues)
    (value : String) (args : List String) :
    toolOptions (name :: value :: args) =
      .ofFound (.option key (some value.toList)) :: toolOptions args :=
  argvOptions_cons (element_captureValues _ h) value.toList (args.map String.toList)

/-- A flag under a condition is an option under that condition. -/
theorem toolOptions_flag_if {name : String} {key : OptKey} (h : (name, key) ∈ captureFlags)
    (p : Prop) [Decidable p] (args : List String) :
    toolOptions ((if p then [name] else []) ++ args) =
      (if p then [Opt.ofFound (.option key none)] else []) ++ toolOptions args := by
  split
  · exact toolOptions_flag h args
  · rfl

/-- So is an option with a value. -/
theorem toolOptions_value_if {name : String} {key : OptKey} (h : (name, key) ∈ captureValues)
    (p : Prop) [Decidable p] (value : String) (args : List String) :
    toolOptions ((if p then [name, value] else []) ++ args) =
      (if p then [Opt.ofFound (.option key (some value.toList))] else []) ++ toolOptions args := by
  split
  · exact toolOptions_value h value args
  · rfl

/-- The options for the ids. -/
def idOptions (req : IpcRequest) : List Opt :=
  (if req.vendorID ≠ "" then [Opt.vendorId req.vendorID.toList] else []) ++
    (if req.productID ≠ "" then [Opt.productId req.productID.toList] else [])

/-- The ids are read as the options that stand for them. -/
theorem toolOptions_idArgs (req : IpcRequest) (args : List String) :
    toolOptions (idArgs req ++ args) = idOptions req ++ toolOptions args := by
  unfold idArgs idOptions
  rw [List.append_assoc,
    toolOptions_value_if (show ("--vendor-id", .vendorId) ∈ captureValues by decide),
    toolOptions_value_if (show ("--product-id", .productId) ∈ captureValues by decide),
    List.append_assoc]
  rfl

/-- The options of a capture. -/
def captureOptions (req : IpcRequest) (outputPath : String) : List Opt :=
  [Opt.json, .noInteractive, .output outputPath.toList] ++
    ((if req.interface ≠ "" then [Opt.device req.interface.toList] else []) ++
    ((if req.autoInterface then [Opt.autoInterface] else []) ++
    (idOptions req ++
    ((if 0 < req.durationSeconds then [Opt.duration (decimal req.durationSeconds.toNat)] else []) ++
    ((if req.captureNewDevices then [Opt.captureFromNewDevices] else []) ++
    ((if req.captureNewDevices = false ∧ req.vendorID = "" ∧ req.productID = "" then
      [Opt.captureFromAllDevices] else []) ++
    ((if req.appFilter then [Opt.appFilter] else []) ++
    ((if req.endpoint ≠ "" then [Opt.endpoint req.endpoint.toList] else []) ++
    ((if req.transferType ≠ "" then [Opt.transferType req.transferType.toList] else []) ++
    (if req.storeMode ≠ "" then [Opt.storeMode req.storeMode.toList] else []))))))))))

/-- The whole command line is read as the options of the request. -/
theorem toolOptions_buildCaptureArgs (req : IpcRequest) (outputPath : String) :
    toolOptions (buildCaptureArgs req outputPath) = captureOptions req outputPath := by
  -- the last group, with nothing behind it
  have hmode : toolOptions (if req.storeMode ≠ "" then ["--store-mode", req.storeMode] else []) =
      if req.storeMode ≠ "" then [.storeMode req.storeMode.toList] else [] := by
    have h := toolOptions_value_if (show ("--store-mode", .storeMode) ∈ captureValues by decide)
      (req.storeMode ≠ "") req.storeMode []
    rw [List.append_nil] at h
    rw [h]
    exact List.append_nil _
  unfold buildCaptureArgs captureOptions
  simp only [List.append_assoc, List.cons_append, List.nil_append]
  rw [toolOptions_flag (show ("--json", .json) ∈ captureFlags by decide),
    toolOptions_flag (show ("--no-interactive", .noInteractive) ∈ captureFlags by decide),
    toolOptions_value (show ("--output", .output) ∈ captureValues by decide),
    toolOptions_value_if (show ("--device", .device) ∈ captureValues by decide),
    toolOptions_flag_if (show ("--auto-interface", .autoInterface) ∈ captureFlags by decide),
    toolOptions_idArgs,
    toolOptions_value_if (show ("--duration", .duration) ∈ captureValues by decide),
    toolOptions_flag_if
      (show ("--capture-from-new-devices", .captureFromNewDevices) ∈ captureFlags by decide),
    toolOptions_flag_if (show ("-A", .captureFromAllDevices) ∈ captureFlags by decide),
    toolOptions_flag_if (show ("--app-filter", .appFilter) ∈ captureFlags by decide),
    toolOptions_value_if (show ("--endpoint", .endpoint) ∈ captureValues by decide),
    toolOptions_value_if (show ("--transfer-type", .transferType) ∈ captureValues by decide),
    hmode, String.toList_ofList]
  rfl

/-! ## What the options mean -/

/-- What is under a condition matters only when it holds. -/
theorem forall_mem_if {p : Prop} [Decidable p] {opt : Opt} {q : Opt → Prop} :
    (∀ o ∈ (if p then [opt] else []), q o) ↔ (p → q opt) := by
  split
  · rename_i hp
    simp [hp]
  · rename_i hp
    simp [hp]

/-- Such an option is read or not. -/
theorem foldl_if {p : Prop} [Decidable p] {opt : Opt} (m : Meaning) :
    (if p then [opt] else []).foldl Meaning.read m = if p then m.read opt else m := by
  split
  · rfl
  · rfl

/-- Any duration that the service prints is accepted. -/
theorem accepted_duration (seconds : UInt32) :
    (Opt.duration (decimal seconds.toNat)).Accepted := by
  rw [Opt.Accepted, parseU32Value_decimal seconds.toNat_lt]
  rfl

/-- The options whose arguments come from the request decide. -/
theorem accepted_captureOptions (req : IpcRequest) (outputPath : String) :
    (∀ opt ∈ captureOptions req outputPath, opt.Accepted) ↔
      (req.vendorID ≠ "" → (Opt.vendorId req.vendorID.toList).Accepted) ∧
      (req.productID ≠ "" → (Opt.productId req.productID.toList).Accepted) ∧
      (req.endpoint ≠ "" → (Opt.endpoint req.endpoint.toList).Accepted) ∧
      (req.transferType ≠ "" → (Opt.transferType req.transferType.toList).Accepted) ∧
      (req.storeMode ≠ "" → (Opt.storeMode req.storeMode.toList).Accepted) := by
  have hfront : ∀ opt ∈ [.json, .noInteractive, .output outputPath.toList], Opt.Accepted opt := by
    simp [Opt.Accepted]
  have hdevice : (Opt.device req.interface.toList).Accepted := trivial
  have hauto : Opt.autoInterface.Accepted := trivial
  have hnew : Opt.captureFromNewDevices.Accepted := trivial
  have hall : Opt.captureFromAllDevices.Accepted := trivial
  have hfilter : Opt.appFilter.Accepted := trivial
  have hduration := accepted_duration req.durationSeconds
  unfold captureOptions idOptions
  simp only [List.forall_mem_append, forall_mem_if, hdevice, hauto, hnew, hall, hfilter, hduration,
    implies_true, true_and, and_assoc]
  exact and_iff_right hfront

/-- What the options mean as far as they are accepted. -/
def optionsMeaning (req : IpcRequest) : Meaning where
  vendorId := if req.vendorID ≠ "" then parseU16Value req.vendorID.toList else none
  productId := if req.productID ≠ "" then parseU16Value req.productID.toList else none
  endpoint :=
    if req.endpoint ≠ "" then (parseU16Value req.endpoint.toList).map UInt16.toUInt8 else none
  transferType := if req.transferType ≠ "" then parseTransferType req.transferType.toList else none
  storeMode :=
    if req.storeMode ≠ "" then
      if stricmp req.storeMode.toList "immediate".toList then storeModeImmediate
      else storeModeOnMatch
    else storeModeImmediate
  duration := req.durationSeconds

/-- A duration of zero is left out, and means the same. -/
theorem read_duration_if (m : Meaning) (seconds : UInt32) :
    (if 0 < seconds then m.read (.duration (decimal seconds.toNat)) else m) =
      { m with duration := if 0 < seconds then seconds else m.duration } := by
  split
  · rw [Meaning.read, parseU32Value_decimal seconds.toNat_lt, UInt32.ofNat_toNat]
    rfl
  · rfl

/-- The ids are read from their options alone. -/
theorem foldl_idOptions (req : IpcRequest) (m : Meaning) :
    (idOptions req).foldl Meaning.read m =
      { m with
        vendorId :=
          if req.vendorID ≠ "" then parseU16Value req.vendorID.toList else m.vendorId
        productId :=
          if req.productID ≠ "" then parseU16Value req.productID.toList else m.productId } := by
  have hvendor (m : Meaning) (p : Prop) [Decidable p] (arg : CStr) :
      (if p then m.read (.vendorId arg) else m) =
        { m with vendorId := if p then parseU16Value arg else m.vendorId } :=
    (apply_ite (fun x => { m with vendorId := x }) p _ _).symm
  have hproduct (m : Meaning) (p : Prop) [Decidable p] (arg : CStr) :
      (if p then m.read (.productId arg) else m) =
        { m with productId := if p then parseU16Value arg else m.productId } :=
    (apply_ite (fun x => { m with productId := x }) p _ _).symm
  unfold idOptions
  rw [List.foldl_append, foldl_if, foldl_if, hvendor, hproduct]

/-- Each field is what its option says where the option is given. -/
theorem foldl_captureOptions (req : IpcRequest) (outputPath : String) :
    (captureOptions req outputPath).foldl Meaning.read .initial = optionsMeaning req := by
  have hendpoint (m : Meaning) (p : Prop) [Decidable p] (arg : CStr) :
      (if p then m.read (.endpoint arg) else m) =
        { m with
          endpoint := if p then (parseU16Value arg).map UInt16.toUInt8 else m.endpoint } :=
    (apply_ite (fun x => { m with endpoint := x }) p _ _).symm
  have htransfer (m : Meaning) (p : Prop) [Decidable p] (arg : CStr) :
      (if p then m.read (.transferType arg) else m) =
        { m with transferType := if p then parseTransferType arg else m.transferType } :=
    (apply_ite (fun x => { m with transferType := x }) p _ _).symm
  have hmode (m : Meaning) (p : Prop) [Decidable p] (arg : CStr) :
      (if p then m.read (.storeMode arg) else m) =
        { m with
          storeMode :=
            if p then
              if stricmp arg "immediate".toList then storeModeImmediate else storeModeOnMatch
            else m.storeMode } :=
    (apply_ite (fun x => { m with storeMode := x }) p _ _).symm
  have hduration : (if 0 < req.durationSeconds then req.durationSeconds else 0) =
      req.durationSeconds := by
    split
    · rfl
    · rename_i hzero
      rw [UInt32.not_lt, UInt32.le_iff_toNat_le] at hzero
      exact (UInt32.toNat_inj.mp (Nat.le_zero.mp hzero)).symm
  unfold captureOptions optionsMeaning
  simp only [List.foldl_append, foldl_if, foldl_idOptions, hendpoint, htransfer, hmode,
    read_duration_if]
  simp only [Meaning.read, ite_self, List.foldl_cons, List.foldl_nil]
  have hinitial : Meaning.initial = ⟨none, none, none, none, storeModeImmediate, 0⟩ := rfl
  rw [hinitial]
  dsimp only
  rw [hduration]

/-! ## What `normalizeHex` reads -/

/-- The digits that `normalizeHex` looks at. -/
def hexText (s : String) : List Char :=
  trimPrefix (trimPrefix (trimSpace s).toList ['0', 'x']) ['0', 'X']

/-- The number that `normalizeHex` reads. -/
def readHex (s : String) : Option ℕ := parseUint16 (hexText s)

/-- Hexadecimal digits are in ASCII. -/
theorem lt_of_hexDigit {c : Char} {d : ℕ} (h : hexDigit c = some d) : c.toNat < 128 := by
  have hle {b : Char} (hb : b.toNat < 128) (hc : c ≤ b) : c.toNat < 128 :=
    Nat.lt_of_le_of_lt (UInt32.le_iff_toNat_le.mp (Char.le_def.mp hc)) hb
  unfold hexDigit at h
  split at h
  · rename_i hdigit
    exact hle (by decide) hdigit.2
  · split at h
    · rename_i hlower
      exact hle (by decide) hlower.2
    · split at h
      · rename_i hupper
        exact hle (by decide) hupper.2
      · cases h

/-- In lower case a digit keeps its value. -/
theorem hexDigit_toLower {c : Char} {d : ℕ} (h : hexDigit c = some d) :
    IsLowerHex c.toLower ∧ (digitValue c.toLower).getD 0 = d := by
  have hall : ∀ n < 128, hexDigit (Char.ofNat n) ≠ none →
      IsLowerHex (Char.ofNat n).toLower ∧
        hexDigit (Char.ofNat n) = some ((digitValue (Char.ofNat n).toLower).getD 0) := by
    decide
  have hc := hall c.toNat (lt_of_hexDigit h)
  rw [Char.ofNat_toNat, h] at hc
  obtain ⟨hlower, hvalue⟩ := hc (Option.some_ne_none d)
  exact ⟨hlower, (Option.some.inj hvalue).symm⟩

/-- What Go reads as hexadecimal digits, `strtoul` reads as the same number. -/
theorem parseHexDigits_some {raw : List Char} {m n : ℕ} (h : parseHexDigits m raw = some n) :
    (∀ c ∈ raw.map Char.toLower, IsLowerHex c) ∧
      (raw.map Char.toLower).foldl (fun n c => 16 * n + (digitValue c).getD 0) m = n := by
  induction raw generalizing m with
  | nil => exact ⟨fun _ hc => absurd hc List.not_mem_nil, Option.some.inj h⟩
  | cons c raw ih =>
    unfold parseHexDigits at h
    split at h
    · cases h
    · rename_i d hd
      obtain ⟨hlower, hvalue⟩ := hexDigit_toLower hd
      obtain ⟨hdigits, hfold⟩ := ih h
      rw [List.map_cons]
      refine ⟨List.forall_mem_cons.mpr ⟨hlower, hdigits⟩, ?_⟩
      rw [List.foldl_cons, hvalue]
      exact hfold

/-- The digits of a text that is read. -/
structure IsHexOf (ds : List Char) (n : ℕ) : Prop where
  ne_nil : ds ≠ []
  digits : ∀ c ∈ ds, IsLowerHex c
  value : ofDigits 16 ds = n
  lt : n < 65536

/-- A text that Go reads has digits for a 16-bit number. -/
theorem parse_of_readHex {s : String} {n : ℕ} (h : readHex s = some n) :
    hexText s ≠ [] ∧ parseHexDigits 0 (hexText s) = some n ∧ n < 65536 := by
  rw [readHex, parseUint16] at h
  split at h
  · cases h
  · rename_i hne
    split at h
    · cases h
    · rename_i m hm
      obtain ⟨hlt, hn⟩ := Option.ite_none_right_eq_some.mp h
      obtain rfl := Option.some.inj hn
      exact ⟨hne, hm, hlt⟩

/-- In lower case they are the digits that the tool reads. -/
theorem isHexOf_of_readHex {s : String} {n : ℕ} (h : readHex s = some n) :
    IsHexOf ((hexText s).map Char.toLower) n := by
  obtain ⟨hne, hparse, hlt⟩ := parse_of_readHex h
  obtain ⟨hdigits, hvalue⟩ := parseHexDigits_some hparse
  exact ⟨mt List.map_eq_nil_iff.mp hne, hdigits, hvalue, hlt⟩

/-- A blank text stands for no id. -/
theorem readHex_blank {s : String} (h : trimSpace s = "") : readHex s = none := by
  unfold readHex hexText
  rw [h]
  rfl

/-- So a text that stands for one is not blank. -/
theorem trimSpace_ne_of_readHex {s : String} {n : ℕ} (h : readHex s = some n) :
    trimSpace s ≠ "" := by
  intro hblank
  rw [readHex_blank hblank] at h
  cases h

/-- And not empty. -/
theorem ne_of_readHex {s : String} {n : ℕ} (h : readHex s = some n) : s ≠ "" := by
  rintro rfl
  cases h

/-- A blank text is normalised to the empty one. -/
theorem normalizeHex_blank {s : String} (h : trimSpace s = "") : normalizeHex s = "" := by
  unfold normalizeHex
  dsimp only
  rw [if_pos h, h]

/-- No other text is. -/
theorem normalizeHex_ne {s : String} (h : trimSpace s ≠ "") : normalizeHex s ≠ "" := by
  unfold normalizeHex
  dsimp only
  rw [if_neg h]
  split
  · exact h
  · intro hempty
    have hlist := congrArg String.toList hempty
    rw [String.toList_ofList] at hlist
    cases hlist

/-- A text that is read becomes its digits in lower case behind `0x`. -/
theorem normalizeHex_read {s : String} {n : ℕ} (h : readHex s = some n) :
    (normalizeHex s).toList = '0' :: 'x' :: (hexText s).map Char.toLower := by
  have hne := trimSpace_ne_of_readHex h
  unfold normalizeHex
  dsimp only
  rw [if_neg hne]
  unfold readHex hexText at h
  rw [h]
  exact String.toList_ofList

/-- Normalising leaves an empty text empty. -/
theorem normalizeHex_if (s : String) : (if s ≠ "" then normalizeHex s else s) = normalizeHex s := by
  split
  · rfl
  · rename_i hempty
    rw [not_not.mp hempty]
    rfl

section

variable (req : IpcRequest)

/-- The vendor id is normalised by `normalizeHex`. -/
theorem vendorID_normalizeRequest :
    (normalizeRequest req).vendorID = normalizeHex req.vendorID :=
  normalizeHex_if req.vendorID

/-- So is the product id. -/
theorem productID_normalizeRequest :
    (normalizeRequest req).productID = normalizeHex req.productID :=
  normalizeHex_if req.productID

/-- And the endpoint. -/
theorem endpoint_normalizeRequest :
    (normalizeRequest req).endpoint = normalizeHex req.endpoint :=
  normalizeHex_if req.endpoint

end

/-- The tool reads the number that `normalizeHex` has read. -/
theorem parseU16Value_normalizeHex {s : String} {n : ℕ} (h : readHex s = some n) :
    parseU16Value (normalizeHex s).toList = some (UInt16.ofNat n) := by
  obtain ⟨hne, hdigits, hvalue, hlt⟩ := isHexOf_of_readHex h
  have hnat : (UInt32.ofNat n).toNat = n := UInt32.toNat_ofNat_of_lt' (hlt.trans (by decide))
  have hread := strtoul_hex hne hdigits (by omega)
  unfold parseU16Value parseU32Value
  rw [normalizeHex_read h, if_neg (List.cons_ne_nil _ _), hread, hvalue]
  dsimp only
  rw [if_neg, hnat]
  rw [UInt32.not_lt, UInt32.le_iff_toNat_le, hnat]
  exact Nat.le_of_lt_succ hlt

end UsbPcap.Service
