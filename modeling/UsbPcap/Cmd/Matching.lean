import UsbPcap.Cmd.Options

/-!
# Selecting devices by their ids

`usbpcapcmd_main` behind its option loop, up to the address filter that `start_capture` builds. The
interface comes from the command line or is chosen because only there a device matches; the
addresses of the matching devices are printed into a list, which `USBPcapInitAddressFilter` parses
again.

The USB bus, the allocator and the answers in the interactive mode are a `Host`.
-/

namespace UsbPcap.Cmd

open CText

/-! ## Data -/

/-- `USBPCAP_CONNECTED_DEVICE_INFO`, what the selection reads of it. -/
structure ConnectedDevice where
  address : UInt16
  vendorId : UInt16
  productId : UInt16
deriving DecidableEq, Repr

/-- The interfaces in `usbpcapFilters`, what is connected to each, which requests `malloc` grants,
and the interface and file name that a user enters. -/
structure Host where
  interfaces : List CStr
  connected : CStr → List ConnectedDevice
  malloc : ℕ → Bool
  answers : Option (CStr × CStr)

/-- `usbpcap_match_list` -/
structure MatchList where
  items : List ConnectedDevice
  addressList : Option CStr
deriving DecidableEq, Repr

/-- A `usbpcap_match_list` filled with zeros. -/
def MatchList.zero : MatchList where
  items := []
  addressList := none

/-- The ids that are asked for. -/
structure Ids where
  hasVendorId : Bool
  vendorId : UInt16
  hasProductId : Bool
  productId : UInt16
deriving DecidableEq, Repr

/-- `AUTO_INTERFACE_REQUIRES_FILTER` -/
def autoInterfaceRequiresFilter : ErrorReport where
  code := "AUTO_INTERFACE_REQUIRES_FILTER"
  message := "--auto-interface requires --vendor-id or --product-id."
  hint := "Specify --vendor-id first, or pass --device explicitly."

/-- `AUTO_INTERFACE_NOT_UNIQUE` -/
def autoInterfaceNotUnique : ErrorReport where
  code := "AUTO_INTERFACE_NOT_UNIQUE"
  message := "Unable to auto-select a unique USBPcap interface for the requested VID/PID."
  hint := "Run USBPcapCap.exe --list-interfaces --json and " ++
    "USBPcapCap.exe --list-devices --device <name> --json."

/-- `ENUMERATION_FAILED` -/
def enumerationFailed : ErrorReport where
  code := "ENUMERATION_FAILED"
  message := "Failed to enumerate connected USB devices."
  hint := "Verify that the USBPcap driver is installed and the selected interface exists."

/-- `NO_MATCHED_DEVICE` -/
def noMatchedDevice : ErrorReport where
  code := "NO_MATCHED_DEVICE"
  message := "No connected USB device matched the requested VID/PID."
  hint := "Run USBPcapCap.exe --list-devices --device <name> --json to inspect current devices."

/-- `MISSING_REQUIRED_ARGUMENT` -/
def missingRequiredArgument : ErrorReport where
  code := "MISSING_REQUIRED_ARGUMENT"
  message := "Capture mode requires both --device and --output unless discovery mode is used."
  hint := "Use --list-interfaces / --list-devices first, or omit --no-interactive to use " ++
    "interactive mode."

/-! ## Matching -/

/-- `sizeof(usbpcap_match_info)` -/
def sizeofMatchInfo : ℕ := 6

/-- The device has the ids that are asked for. -/
def Ids.accepts (ids : Ids) (device : ConnectedDevice) : Bool :=
  !(ids.hasVendorId && device.vendorId != ids.vendorId) &&
    !(ids.hasProductId && device.productId != ids.productId)

/-- The loop that prints the address list; `i` counts the items, `size` is that of the buffer, and
`sprintf_s` fails when the text and its NUL do not fit. -/
def printAddresses (size : ℕ) : ℕ → CStr → List ConnectedDevice → Option CStr
  | _, text, [] => some text
  | i, text, item :: items =>
    let printed := if i = 0 then decimal item.address.toNat else ',' :: decimal item.address.toNat
    if size - text.length < printed.length + 1 then none
    else printAddresses size (i + 1) (text ++ printed) items

/-- `resolve_filter_matches`; `none` when it returns `FALSE`. -/
def resolveFilterMatches (host : Host) (ids : Ids) (filter : CStr) : Option MatchList :=
  let devices := host.connected filter
  if host.malloc ((if devices.length = 0 then 1 else devices.length) * sizeofMatchInfo) = false then
    none
  else
    let items := devices.filter ids.accepts
    let addressListLen := 5 * items.length
    if 0 < items.length then
      if host.malloc (addressListLen + 1) = false then none
      else
        match printAddresses (addressListLen + 1) 0 [] items with
        | none => none
        | some text => some { items := items, addressList := some text }
    else some { items := items, addressList := none }

/-- The loop of `auto_select_interface` over the interfaces. -/
def autoSelectLoop (host : Host) (ids : Ids) :
    ℕ → Option CStr → MatchList → List CStr → Option (Option CStr × MatchList)
  | foundFilters, device, found, [] => if foundFilters = 1 then some (device, found) else none
  | foundFilters, device, found, filter :: filters =>
    match resolveFilterMatches host ids filter with
    | none => none
    | some current =>
      if 0 < current.items.length then
        if foundFilters + 1 = 1 then
          autoSelectLoop host ids (foundFilters + 1) (some filter) current filters
        else none
      else autoSelectLoop host ids foundFilters device found filters

/-- `auto_select_interface`; `none` when it returns `FALSE`. -/
def autoSelectInterface (host : Host) (ids : Ids) : Option (Option CStr × MatchList) :=
  autoSelectLoop host ids 0 none .zero host.interfaces

/-! ## `usbpcapcmd_main` -/

/-- The ids in the variables. -/
def Settings.ids (s : Settings) : Ids where
  hasVendorId := s.hasVendorId
  vendorId := s.vendorId
  hasProductId := s.hasProductId
  productId := s.productId

/-- With `--auto-interface` and without `--device`, choose the interface. -/
def selectInterface (host : Host) (s : Settings) : Except Exit (Settings × MatchList) :=
  if s.autoInterface ∧ s.data.device = none then
    if s.hasVendorId = false ∧ s.hasProductId = false then
      .error (.report autoInterfaceRequiresFilter)
    else
      match autoSelectInterface host s.ids with
      | none => .error (.report autoInterfaceNotUnique)
      | some (device, found) => .ok ({ s with data := { s.data with device := device } }, found)
  else .ok (s, .zero)

/-- With an interface and ids but no matches yet, look for the matches. -/
def matchGiven (host : Host) (s : Settings) (found : MatchList) :
    Except Exit (Settings × MatchList) :=
  match s.data.device with
  | none => .ok (s, found)
  | some device =>
    if (s.hasVendorId ∨ s.hasProductId) ∧ found.items.length = 0 then
      match resolveFilterMatches host s.ids device with
      | none => .error (.report enumerationFailed)
      | some found =>
        if found.items.length = 0 then .error (.report noMatchedDevice)
        else .ok ({ s with data := { s.data with addressList := found.addressList } }, found)
    else .ok (s, found)

/-- The matching step. -/
def matchDevices (host : Host) (s : Settings) : Except Exit (Settings × MatchList) :=
  match selectInterface host s with
  | .error e => .error e
  | .ok (s, found) => matchGiven host s found

/-- `cmd_interactive`; `none` when the user quits. -/
def cmdInteractive (host : Host) (data : CaptureData) : Option CaptureData :=
  match host.answers with
  | none => none
  | some (device, filename) =>
    some { data with
      device := some device, filename := some filename, captureAll := true,
      injectDescriptors := true }

/-- Without a file name or an interface, ask for both or give up. -/
def completeArguments (host : Host) (s : Settings) : Except Exit Settings :=
  if s.data.filename = none ∨ s.data.device = none then
    if s.noInteractive then .error (.report missingRequiredArgument)
    else
      match cmdInteractive host { s.data with filename := none, device := none } with
      | none => .error .quit
      | some data => .ok { s with data := data }
  else .ok s

/-- `populate_device_metadata` for a filter that is given. -/
def populateDeviceMetadata (host : Host) (data : CaptureData) (filter : CStr) : CaptureData :=
  { data with
    deviceMetadata := fun a =>
      match (host.connected filter).reverse.find? (fun d => d.address.toNat = a.val) with
      | none => .zero
      | some d => { present := true, vendorId := d.vendorId, productId := d.productId } }

/-- `start_capture` up to the address filter; `none` when it rejects the configuration. -/
def startCapture (data : CaptureData) : Option CaptureData :=
  if data.captureAll = false ∧ data.captureNew = false ∧ data.addressList = none then none
  else
    match initAddressFilter data.addressList data.captureAll with
    | none => none
    | some filter => some { data with filter := filter }

/-- What `usbpcapcmd_main` does behind the option loop. -/
inductive Action where
  | extcap
  | listInterfaces
  | listDevices
  | listAllDevices
  | capture
deriving DecidableEq, Repr

/-- The choice between the modes. -/
def Settings.action (s : Settings) : Action :=
  if s.runAsExtcap ∨ s.doExtcapVersion ∨ s.doExtcapInterfaces ∨ s.doExtcapDlts ∨ s.doExtcapConfig ∨
      s.doExtcapCapture then .extcap
  else if s.listInterfacesFlag then .listInterfaces
  else if s.listDevicesFlag then if s.data.device ≠ none then .listDevices else .listAllDevices
  else .capture

/-- How `usbpcapcmd_main` ends: before any capture, in another mode, or with what `start_capture`
makes of the capture's data. -/
inductive MainResult where
  | exit (e : Exit)
  | other (action : Action) (s : Settings)
  | started (data : Option CaptureData)

/-- The data that `start_capture` is called with. -/
def prepare (host : Host) (data : CaptureData) : CaptureData :=
  let data :=
    match data.device with
    | none => { data with deviceMetadata := fun _ => .zero }
    | some device => populateDeviceMetadata host data device
  { data with process := true }

/-- The capture mode of `usbpcapcmd_main` behind the matching step. -/
def captureMatched (host : Host) (s : Settings) : MainResult :=
  match completeArguments host s with
  | .error e => .exit e
  | .ok s => .started (startCapture (prepare host s.data))

/-- The capture mode of `usbpcapcmd_main`. -/
def captureMode (host : Host) (s : Settings) : MainResult :=
  match matchDevices host s with
  | .error e => .exit e
  | .ok (s, _) => captureMatched host s

/-- `usbpcapcmd_main` -/
def usbpcapcmdMain (host : Host) (opts : List Opt) : MainResult :=
  match parseOptions opts with
  | .error e => .exit e
  | .ok s => if s.action = .capture then captureMode host s else .other s.action s

end UsbPcap.Cmd
