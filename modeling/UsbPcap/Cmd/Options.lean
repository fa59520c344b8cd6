import UsbPcap.Cmd.Thread
import UsbPcap.Cmd.AddressFilter

/-!
# The command line

`usbpcapcmd_main` fills its variables from what `getopt_long` returns, one option after the other.
An `Opt` is one such result, with its argument; the command line is the list of them.
-/

namespace UsbPcap.Cmd

open CText

/-- A C string, without the terminating NUL. -/
abbrev CStr := List Char

/-! ## Data -/

/-- What `getopt_long` returns for an option. -/
inductive Opt where
  | help (topic : Option CStr)
  | device (arg : CStr)
  | output (arg : CStr)
  | snaplen (arg : CStr)
  | bufferlen (arg : CStr)
  | initNonStandardHwids
  | devices (arg : CStr)
  | json
  | listInterfaces
  | listDevices
  | vendorId (arg : CStr)
  | productId (arg : CStr)
  | autoInterface
  | duration (arg : CStr)
  | noInteractive
  | appFilter
  | endpoint (arg : CStr)
  | transferType (arg : CStr)
  | storeMode (arg : CStr)
  | captureFromAllDevices
  | captureFromNewDevices
  | injectDescriptors
  | extcapVersion (arg : Option CStr)
  | extcapInterfaces
  | extcapInterface (arg : CStr)
  | extcapDlts
  | extcapConfig
  | capture
  | extcapFifo (arg : CStr)
  | invalid
deriving DecidableEq, Repr

/-- The fields of `thread_data` that configure a capture. -/
structure CaptureData where
  device : Option CStr
  filename : Option CStr
  addressList : Option CStr
  filter : AddressFilter
  captureAll : Bool
  captureNew : Bool
  snaplen : UInt32
  bufferlen : UInt32
  process : Bool
  injectDescriptors : Bool
  durationSeconds : UInt32
  storeMode : UInt32
  appFilter : AppCaptureFilter
  deviceMetadata : Fin 128 → DeviceMetadata

/-- The variables of `usbpcapcmd_main` that the options set. -/
structure Settings where
  data : CaptureData
  jsonOutput : Bool
  listInterfacesFlag : Bool
  listDevicesFlag : Bool
  noInteractive : Bool
  autoInterface : Bool
  hasVendorId : Bool
  hasProductId : Bool
  vendorId : UInt16
  productId : UInt16
  runAsExtcap : Bool
  doExtcapVersion : Bool
  doExtcapInterfaces : Bool
  doExtcapDlts : Bool
  doExtcapConfig : Bool
  doExtcapCapture : Bool
  wiresharkVersion : Option CStr
  extcapInterface : Option CStr
  extcapFifo : Option CStr

/-- `DEFAULT_SNAPSHOT_LENGTH` -/
def defaultSnapshotLength : UInt32 := 65535

/-- `DEFAULT_INTERNAL_KERNEL_BUFFER_SIZE` -/
def defaultInternalKernelBufferSize : UInt32 := 1024 * 1024

/-- An `app_capture_filter` filled with zeros. -/
def AppCaptureFilter.zero : AppCaptureFilter where
  enabled := false
  hasVendorId := false
  hasProductId := false
  hasEndpoint := false
  hasTransferType := false
  vendorId := 0
  productId := 0
  endpoint := 0
  transferType := 0

/-- A `device_metadata` filled with zeros. -/
def DeviceMetadata.zero : DeviceMetadata where
  present := false
  vendorId := 0
  productId := 0

/-- The variables before the option loop. -/
def Settings.initial : Settings where
  data :=
    { device := none, filename := none, addressList := none, filter := .zero false,
      captureAll := false, captureNew := false, snaplen := defaultSnapshotLength,
      bufferlen := defaultInternalKernelBufferSize, process := false, injectDescriptors := false,
      durationSeconds := 0, storeMode := storeModeImmediate, appFilter := .zero,
      deviceMetadata := fun _ => .zero }
  jsonOutput := false
  listInterfacesFlag := false
  listDevicesFlag := false
  noInteractive := false
  autoInterface := false
  hasVendorId := false
  hasProductId := false
  vendorId := 0
  productId := 0
  runAsExtcap := false
  doExtcapVersion := false
  doExtcapInterfaces := false
  doExtcapDlts := false
  doExtcapConfig := false
  doExtcapCapture := false
  wiresharkVersion := none
  extcapInterface := none
  extcapFifo := none

/-- An error as `print_json_error` reports it; without `--json` it is the message alone. -/
structure ErrorReport where
  code : String
  message : String
  hint : String
deriving DecidableEq, Repr

/-- The ways `usbpcapcmd_main` ends before a capture: after `print_help` or
`init_non_standard_roothub_hwid`, or with a text on `stderr`, or with a report. -/
inductive Exit where
  | help (topic : Option CStr)
  | initNonStandardHwids
  | message (text : String) (arg : CStr)
  | report (error : ErrorReport)
  | quit
deriving DecidableEq, Repr

/-! ## Parsing values -/

/-- `parse_u32_value` -/
def parseU32Value (text : CStr) : Option UInt32 :=
  if text = [] then none
  else
    match strtoul text with
    | (parsed, []) => some (UInt32.ofNat parsed)
    | (_, _ :: _) => none

/-- `parse_u16_value` -/
def parseU16Value (text : CStr) : Option UInt16 :=
  match parseU32Value text with
  | none => none
  | some parsed => if 0xFFFF < parsed then none else some (UInt16.ofNat parsed.toNat)

/-- `USBPCAP_TRANSFER_ISOCHRONOUS` -/
def transferIsochronous : UInt8 := 0

/-- `USBPCAP_TRANSFER_INTERRUPT` -/
def transferInterrupt : UInt8 := 1

/-- `USBPCAP_TRANSFER_CONTROL` -/
def transferControl : UInt8 := 2

/-- `USBPCAP_TRANSFER_BULK` -/
def transferBulk : UInt8 := 3

/-- `USBPCAP_TRANSFER_UNKNOWN` -/
def transferUnknown : UInt8 := 0xFF

/-- `parse_transfer_type` -/
def parseTransferType (text : CStr) : Option UInt8 :=
  if stricmp text "control".toList then some transferControl
  else if stricmp text "bulk".toList then some transferBulk
  else if stricmp text "interrupt".toList then some transferInterrupt
  else if stricmp text "isochronous".toList then some transferIsochronous
  else if stricmp text "unknown".toList then some transferUnknown
  else none

/-! ## The option loop -/

/-- One iteration of the option loop. -/
def Settings.apply (s : Settings) : Opt → Except Exit Settings
  | .help topic => .error (.help topic)
  | .device arg => .ok { s with data := { s.data with device := some arg } }
  | .output arg => .ok { s with data := { s.data with filename := some arg } }
  | .snaplen arg =>
    let snaplen := UInt32.ofInt (atoi arg)
    if snaplen = 0 then .error (.message "Invalid snapshot length!" [])
    else .ok { s with data := { s.data with snaplen := snaplen } }
  | .bufferlen arg =>
    let bufferlen := UInt32.ofInt (atoi arg)
    -- minimum 4 KiB, maximum 128 MiB
    if bufferlen < 4096 ∨ 134217728 < bufferlen then
      .error (.message "Invalid buffer length! Valid range <4096,134217728>." [])
    else .ok { s with data := { s.data with bufferlen := bufferlen } }
  | .initNonStandardHwids => .error .initNonStandardHwids
  | .devices arg => .ok { s with data := { s.data with addressList := some arg } }
  | .json => .ok { s with jsonOutput := true }
  | .listInterfaces => .ok { s with listInterfacesFlag := true }
  | .listDevices => .ok { s with listDevicesFlag := true }
  | .vendorId arg =>
    match parseU16Value arg with
    | none => .error (.message "Invalid vendor id: " arg)
    | some id => .ok { s with vendorId := id, hasVendorId := true }
  | .productId arg =>
    match parseU16Value arg with
    | none => .error (.message "Invalid product id: " arg)
    | some id => .ok { s with productId := id, hasProductId := true }
  | .autoInterface => .ok { s with autoInterface := true }
  | .duration arg =>
    match parseU32Value arg with
    | none => .error (.message "Invalid duration: " arg)
    | some seconds => .ok { s with data := { s.data with durationSeconds := seconds } }
  | .noInteractive => .ok { s with noInteractive := true }
  | .appFilter => .ok { s with data := { s.data with
      appFilter := { s.data.appFilter with enabled := true } } }
  | .endpoint arg =>
    match parseU16Value arg with
    | none => .error (.message "Invalid endpoint: " arg)
    | some endpoint =>
      if 0xFF < endpoint then .error (.message "Invalid endpoint: " arg)
      else .ok { s with data := { s.data with
        appFilter := { s.data.appFilter with
          enabled := true, hasEndpoint := true, endpoint := endpoint.toUInt8 } } }
  | .transferType arg =>
    match parseTransferType arg with
    | none => .error (.message "Invalid transfer type: " arg)
    | some transfer => .ok { s with data := { s.data with
        appFilter := { s.data.appFilter with
          enabled := true, hasTransferType := true, transferType := transfer } } }
  | .storeMode arg =>
    if stricmp arg "immediate".toList then
      .ok { s with data := { s.data with storeMode := storeModeImmediate } }
    else if stricmp arg "on-match".toList then
      .ok { s with data := { s.data with storeMode := storeModeOnMatch } }
    else .error (.message "Invalid store mode: " arg)
  | .captureFromAllDevices => .ok { s with data := { s.data with captureAll := true } }
  | .captureFromNewDevices => .ok { s with data := { s.data with captureNew := true } }
  | .injectDescriptors => .ok { s with data := { s.data with injectDescriptors := true } }
  | .extcapVersion arg => .ok { s with doExtcapVersion := true, wiresharkVersion := arg }
  | .extcapInterfaces => .ok { s with doExtcapInterfaces := true }
  | .extcapInterface arg => .ok { s with extcapInterface := some arg }
  | .extcapDlts => .ok { s with doExtcapDlts := true }
  | .extcapConfig => .ok { s with doExtcapConfig := true }
  | .capture => .ok { s with doExtcapCapture := true }
  | .extcapFifo arg => .ok { s with runAsExtcap := true, extcapFifo := some arg }
  | .invalid => .error (.message "Try 'USBPcapCap.exe --help' for more information." [])

/-- The option loop. -/
def optionLoop (s : Settings) : List Opt → Except Exit Settings
  | [] => .ok s
  | opt :: opts =>
    match s.apply opt with
    | .error e => .error e
    | .ok s => optionLoop s opts

/-- The application filter takes over the ids. -/
def Settings.withIds (s : Settings) : Settings :=
  let filter := s.data.appFilter
  let filter :=
    if s.hasVendorId then { filter with hasVendorId := true, vendorId := s.vendorId } else filter
  let filter :=
    if s.hasProductId then { filter with hasProductId := true, productId := s.productId }
    else filter
  { s with data := { s.data with appFilter := filter } }

/-- What `usbpcapcmd_main` makes of its options. -/
def parseOptions (opts : List Opt) : Except Exit Settings :=
  match optionLoop .initial opts with
  | .error e => .error e
  | .ok s => .ok s.withIds

/-! ## What a command line gives -/

/-- Which kinds of options are there: `--device`, `--output`, `--auto-interface`, a vendor or
product id, and those that select devices without an id. -/
structure Given where
  device : Bool
  output : Bool
  autoInterface : Bool
  ids : Bool
  addresses : Bool
deriving DecidableEq, Repr

/-- What an option gives. -/
def Opt.given : Opt → Given
  | .device _ => ⟨true, false, false, false, false⟩
  | .output _ => ⟨false, true, false, false, false⟩
  | .autoInterface => ⟨false, false, true, false, false⟩
  | .vendorId _ | .productId _ => ⟨false, false, false, true, false⟩
  | .devices _ | .captureFromAllDevices | .captureFromNewDevices =>
    ⟨false, false, false, false, true⟩
  | _ => ⟨false, false, false, false, false⟩

/-- What is given here or there. -/
def Given.or (g g' : Given) : Given where
  device := g.device || g'.device
  output := g.output || g'.output
  autoInterface := g.autoInterface || g'.autoInterface
  ids := g.ids || g'.ids
  addresses := g.addresses || g'.addresses

/-- What the options give, on top of `g`. -/
def givenFrom (g : Given) : List Opt → Given
  | [] => g
  | opt :: opts => givenFrom (g.or opt.given) opts

/-- What a command line gives. -/
def given (opts : List Opt) : Given := givenFrom ⟨false, false, false, false, false⟩ opts

/-- What the variables have been given. -/
def Settings.given (s : Settings) : Given where
  device := s.data.device.isSome
  output := s.data.filename.isSome
  autoInterface := s.autoInterface
  ids := s.hasVendorId || s.hasProductId
  addresses := s.data.addressList.isSome || s.data.captureAll || s.data.captureNew

/-- An option that is accepted gives the variables what it is there for. -/
theorem Settings.given_apply {s s' : Settings} {opt : Opt} (h : s.apply opt = .ok s') :
    s'.given = s.given.or opt.given := by
  cases opt <;> unfold Settings.apply at h <;> dsimp only at h <;> (repeat' split at h) <;>
    cases h <;> simp [Settings.given, Given.or, Opt.given]

theorem given_optionLoop {s s' : Settings} {opts : List Opt} (h : optionLoop s opts = .ok s') :
    s'.given = givenFrom s.given opts := by
  induction opts generalizing s with
  | nil =>
    cases h
    rfl
  | cons opt opts ih =>
    unfold optionLoop at h
    split at h
    · cases h
    · rename_i t ht
      rw [givenFrom, ← Settings.given_apply ht]
      exact ih h

/-- The options give the variables what the command line gives. -/
theorem given_parseOptions {opts : List Opt} {s : Settings} (h : parseOptions opts = .ok s) :
    s.given = given opts := by
  unfold parseOptions at h
  split at h
  · cases h
  · rename_i t ht
    cases h
    exact given_optionLoop ht

end UsbPcap.Cmd
