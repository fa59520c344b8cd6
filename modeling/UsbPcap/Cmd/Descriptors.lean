import UsbPcap.Cmd.AddressFilter
import UsbPcap.Cmd.HubTree
import UsbPcap.Driver.Analyze
import UsbPcap.Lib.Memory
import UsbPcap.Reader.Truncation

/-!
# Injected descriptors

A capture that starts late misses the requests for the descriptors. `descriptors.c` asks the
connected devices for them again and makes the packets that the capture would have had: a list of
packets first, then one block of records. `descriptorsGeneratePcap_spec` says what the reader of the
service finds in the block.
-/

namespace UsbPcap.Cmd.Descriptors

open Format HubTree Memory

/-! ## The configuration descriptor -/

/-- The setup packet of a `USB_DESCRIPTOR_REQUEST`. -/
structure SetupPacket where
  bmRequest : UInt8
  bRequest : UInt8
  wValue : UInt16
  wIndex : UInt16
  wLength : UInt16
deriving DecidableEq, Repr

/-- `USB_DESCRIPTOR_REQUEST` -/
structure DescriptorRequest where
  setupPacket : SetupPacket
  data : List UInt8
deriving DecidableEq, Repr

/-- `USB_DEVICE_DESCRIPTOR_TYPE` -/
def deviceDescriptorType : UInt16 := 1

/-- `USB_CONFIGURATION_DESCRIPTOR_TYPE` -/
def configurationDescriptorType : UInt16 := 2

/-- `sizeof(USB_DESCRIPTOR_REQUEST)` -/
def sizeofDescriptorRequest : ℕ := 12

/-- `sizeof(USB_CONFIGURATION_DESCRIPTOR)` -/
def sizeofConfigurationDescriptor : ℕ := 9

/-- `wTotalLength` of a configuration descriptor in memory. -/
def wTotalLength (descriptor : List UInt8) : ℕ := field 2 2 descriptor

/-- `bConfigurationValue` of a configuration descriptor in memory. -/
def bConfigurationValue (descriptor : List UInt8) : UInt8 := .ofNat (field 5 1 descriptor)

/-- The setup packet for the configuration descriptor, in a request of `nBytes` bytes. -/
def configSetupPacket (index : UInt8) (nBytes : ℕ) : SetupPacket where
  bmRequest := 0x80
  bRequest := 0x06
  wValue := configurationDescriptorType <<< 8 ||| index.toUInt16
  wIndex := 0
  wLength := .ofNat (nBytes - sizeofDescriptorRequest)

/-- `IOCTL_USB_GET_DESCRIPTOR_FROM_NODE_CONNECTION`: what comes back behind the request when the
device at a port of a hub is sent a setup packet. -/
abbrev GetDescriptor (Handle : Type*) := Handle → UInt32 → SetupPacket → Option (List UInt8)

section Request

variable {Handle : Type*} (getDescriptor : GetDescriptor Handle)

/-- `get_config_descriptor`, when `malloc` gives memory. -/
def getConfigDescriptor (hub : Handle) (port : UInt32) (index : UInt8) :
    Option DescriptorRequest :=
  let nBytes := sizeofDescriptorRequest + sizeofConfigurationDescriptor
  match getDescriptor hub port (configSetupPacket index nBytes) with
  | none => none
  | some data =>
    if nBytes ≠ sizeofDescriptorRequest + data.length then none
    else if wTotalLength data < sizeofConfigurationDescriptor then none
    else
      let nBytes := sizeofDescriptorRequest + wTotalLength data
      let setupPacket := configSetupPacket index nBytes
      match getDescriptor hub port setupPacket with
      | none => none
      | some data =>
        if nBytes ≠ sizeofDescriptorRequest + data.length then none
        else if wTotalLength data ≠ nBytes - sizeofDescriptorRequest then none
        else some { setupPacket := setupPacket, data := data }

end Request

/-! ## The list of packets -/

/-- `list_entry` -/
structure ListEntry where
  data : List UInt8
  length : Int32
deriving DecidableEq

/-- `descriptor_callback_context`; `list` goes from `head` to `tail`. -/
structure CallbackContext where
  roothub : UInt16
  addresses : AddressFilter
  list : List ListEntry

/-- `URB_SELECT_CONFIGURATION` -/
def urbSelectConfiguration : UInt16 := 0x0000

/-- `URB_CONTROL_TRANSFER` -/
def urbControlTransfer : UInt16 := 0x0008

/-- `URB_GET_DESCRIPTOR_FROM_DEVICE` -/
def urbGetDescriptorFromDevice : UInt16 := 0x000b

/-- `sizeof(USBPCAP_BUFFER_CONTROL_HEADER)` -/
def sizeofControlHeader : ℕ := 28

/-- `initialize_control_header`: the image of the header. -/
def initializeControlHeader (bus deviceAddress : UInt16) (dataLength : UInt32) (stage : UInt8)
    (function : UInt16) (fromPdo out : Bool) : List UInt8 :=
  BufferPacketHeader.bytes
    { headerLen := .ofNat sizeofControlHeader
      irpId := 0
      status := 0
      function := function
      info := if fromPdo then 1 else 0
      bus := bus
      device := deviceAddress
      endpoint := if out then 0x00 else 0x80
      transfer := Driver.transferControl
      dataLength := dataLength } ++ [stage]

/-- `add_to_list` -/
def addToList (ctx : CallbackContext) (data : List UInt8) (length : ℕ) : CallbackContext :=
  { ctx with list := ctx.list ++ [{ data := data, length := .ofNat length }] }

/-- `write_setup_packet` -/
def writeSetupPacket (ctx : CallbackContext) (function deviceAddress : UInt16)
    (bmRequestType bRequest : UInt8) (wValue wIndex wLength : UInt16) (out : Bool) :
    CallbackContext :=
  let setup :=
    [bmRequestType, bRequest, Driver.lowByte wValue, Driver.highByte wValue,
      Driver.lowByte wIndex, Driver.highByte wIndex, Driver.lowByte wLength,
      Driver.highByte wLength]
  addToList ctx
    (initializeControlHeader ctx.roothub deviceAddress 8 Driver.controlStageSetup function false
      out ++ setup) (sizeofControlHeader + 8)

/-- `write_complete_packet`; `payload` is what is in memory at the pointer. -/
def writeCompletePacket (ctx : CallbackContext) (function deviceAddress : UInt16)
    (payload : List UInt8) (payloadLength : ℕ) (out : Bool) : CallbackContext :=
  addToList ctx
    (initializeControlHeader ctx.roothub deviceAddress (.ofNat payloadLength)
      Driver.controlStageComplete function true out ++ payload.take payloadLength)
    (sizeofControlHeader + payloadLength)

/-- `write_device_descriptor_complete` -/
def writeDeviceDescriptorComplete (ctx : CallbackContext) (deviceAddress : UInt16)
    (descriptor : DeviceDescriptor) : CallbackContext :=
  let payload :=
    [descriptor.bLength, descriptor.bDescriptorType,
      Driver.lowByte descriptor.bcdUSB, Driver.highByte descriptor.bcdUSB,
      descriptor.bDeviceClass, descriptor.bDeviceSubClass, descriptor.bDeviceProtocol,
      descriptor.bMaxPacketSize0,
      Driver.lowByte descriptor.idVendor, Driver.highByte descriptor.idVendor,
      Driver.lowByte descriptor.idProduct, Driver.highByte descriptor.idProduct,
      Driver.lowByte descriptor.bcdDevice, Driver.highByte descriptor.bcdDevice,
      descriptor.iManufacturer, descriptor.iProduct, descriptor.iSerialNumber,
      descriptor.bNumConfigurations]
  addToList ctx
    (initializeControlHeader ctx.roothub deviceAddress 18 Driver.controlStageComplete
      urbControlTransfer true false ++ payload) (sizeofControlHeader + 18)

section Callback

variable {Handle : Type*} (getDescriptor : GetDescriptor Handle)

/-- `descriptor_callback` -/
def descriptorCallback (hub : Handle) (port : UInt32) (deviceAddress _parentAddress : UInt16)
    (desc : DeviceDescriptor) (ctx : CallbackContext) : CallbackContext :=
  if isDeviceFiltered ctx.addresses deviceAddress.toNat = false then ctx
  else
    let ctx := writeSetupPacket ctx urbGetDescriptorFromDevice deviceAddress 0x80 6
      (deviceDescriptorType <<< 8) 0 18 false
    let ctx := writeDeviceDescriptorComplete ctx deviceAddress desc
    match getConfigDescriptor getDescriptor hub port 0 with
    | none => ctx
    | some request =>
      let ctx := writeSetupPacket ctx urbGetDescriptorFromDevice deviceAddress
        request.setupPacket.bmRequest request.setupPacket.bRequest request.setupPacket.wValue
        request.setupPacket.wIndex request.setupPacket.wLength false
      let ctx := writeCompletePacket ctx urbControlTransfer deviceAddress request.data
        request.setupPacket.wLength.toNat false
      let ctx := writeSetupPacket ctx urbSelectConfiguration deviceAddress 0x00 9
        (bConfigurationValue request.data).toUInt16 0 0 true
      writeCompletePacket ctx urbSelectConfiguration deviceAddress [] 0 true

end Callback

/-! ## The block -/

/-- The first loop of `generate_pcap_packets`. -/
def totalLength (head : List ListEntry) : Int32 :=
  head.foldl (fun total e => total + .ofNat sizeofPcaprecHdr + e.length) 0

/-- The record header for a packet at a time. -/
def recordHeader (timestamp : UInt64) (e : ListEntry) : PcaprecHdr where
  tsSec := (timestamp / 10000000 - 11644473600).toUInt32
  tsUsec := (timestamp % 10000000 / 10).toUInt32
  inclLen := e.length.toUInt32
  origLen := e.length.toUInt32

/-- The second loop of `generate_pcap_packets`, from the packet with number `k` on. -/
def fillPackets (clock : ℕ → UInt64) (k : ℕ) (pcap : List UInt8) (offset : Int32) :
    List ListEntry → List UInt8
  | [] => pcap
  | e :: next =>
    let hdr := recordHeader (clock k) e
    let pcap := copyInto pcap offset.toNatClampNeg hdr.bytes
    let offset := offset + .ofNat sizeofPcaprecHdr
    let pcap := copyInto pcap offset.toNatClampNeg (e.data.take e.length.toNatClampNeg)
    let offset := offset + e.length
    fillPackets clock (k + 1) pcap offset next

/-- `generate_pcap_packets`: the block and `out_len`. The clock is read once for each packet, and
`malloc` gives memory that holds whatever it holds. -/
def generatePcapPackets (clock : ℕ → UInt64) (memory : ℕ → UInt8) (head : List ListEntry) :
    List UInt8 × Int32 :=
  let pcap := (List.range (totalLength head).toNatClampNeg).map memory
  (fillPackets clock 0 pcap 0 head, totalLength head)

/-- The loop that goes back over the digits at the end of the filter's name. -/
def rootHubDigits (filter : Name) : ℕ → ℕ
  | 0 => 0
  | tmp + 1 => if filter[tmp + 1]?.any Char.isDigit then rootHubDigits filter tmp else tmp + 2

/-- The context that `descriptors_generate_pcap` starts with. -/
def CallbackContext.init (filter : Name) (addresses : AddressFilter) : CallbackContext where
  roothub := .ofInt (CText.atoi (filter.drop (rootHubDigits filter (filter.length - 1))))
  addresses := addresses
  list := []

/-- `descriptors_generate_pcap`: the block and `pcap_length`. -/
def descriptorsGeneratePcap {Handle : Type*} (usb : Usb Handle)
    (getDescriptor : GetDescriptor Handle) (clock : ℕ → UInt64) (memory : ℕ → UInt8)
    (filter : Name) (addresses : AddressFilter) (fuel : ℕ) : Option (List UInt8 × Int32) :=
  (enumerateAllConnectedDevices usb filter (descriptorCallback getDescriptor)
    (.init filter addresses) fuel).map fun ctx => generatePcapPackets clock memory ctx.list

/-! ## What is injected -/

/-- A packet of a control transfer. -/
structure Packet where
  stage : UInt8
  function : UInt16
  info : UInt8
  device : UInt16
  endpoint : UInt8
  payload : List UInt8
deriving DecidableEq, Repr

/-- A control transfer: the submission with its setup bytes and the completion with its data. -/
def exchange (submitted completed device : UInt16) (endpoint : UInt8) (setup data : List UInt8) :
    List Packet :=
  [{  stage := Driver.controlStageSetup
      function := submitted
      info := 0
      device := device
      endpoint := endpoint
      payload := setup },
    { stage := Driver.controlStageComplete
      function := completed
      info := Driver.infoPdoToFdo
      device := device
      endpoint := endpoint
      payload := data }]

/-- The packed memory image of a `USB_DEVICE_DESCRIPTOR`. -/
def deviceDescriptorBytes (d : DeviceDescriptor) : List UInt8 :=
  [d.bLength, d.bDescriptorType] ++ LittleEndian.encode 2 d.bcdUSB.toNat ++
    [d.bDeviceClass, d.bDeviceSubClass, d.bDeviceProtocol, d.bMaxPacketSize0] ++
    LittleEndian.encode 2 d.idVendor.toNat ++ LittleEndian.encode 2 d.idProduct.toNat ++
    LittleEndian.encode 2 d.bcdDevice.toNat ++
    [d.iManufacturer, d.iProduct, d.iSerialNumber, d.bNumConfigurations]

/-- A connected device, and its configuration descriptor if there is one. -/
structure Device (Handle : Type*) where
  call : PortCall Handle
  config : Option (List UInt8)

/-- The exchanges of a device: it is asked for its device descriptor and for its configuration
descriptor, and the configuration is set. -/
def Device.packets {Handle : Type*} (d : Device Handle) : List Packet :=
  exchange urbGetDescriptorFromDevice urbControlTransfer d.call.deviceAddress 0x80
      [0x80, 6, 0, 1, 0, 0, 18, 0] (deviceDescriptorBytes d.call.desc) ++
    d.config.elim [] fun data =>
      exchange urbGetDescriptorFromDevice urbControlTransfer d.call.deviceAddress 0x80
          ([0x80, 6, 0, 2, 0, 0] ++ LittleEndian.encode 2 data.length) data ++
        exchange urbSelectConfiguration urbSelectConfiguration d.call.deviceAddress 0x00
          [0x00, 9, bConfigurationValue data, 0, 0, 0, 0, 0] []

/-- The exchanges of the filtered devices, in the order of the list. -/
def injected {Handle : Type*} (addresses : AddressFilter) (devices : List (Device Handle)) :
    List Packet :=
  (devices.filter fun d => isDeviceFiltered addresses d.call.deviceAddress.toNat).flatMap
    Device.packets

/-- The device at a port answers with this configuration descriptor, `wTotalLength` bytes. -/
structure HasConfiguration {Handle : Type*} (getDescriptor : GetDescriptor Handle) (hub : Handle)
    (port : UInt32) (index : UInt8) (data : List UInt8) : Prop where
  head : ∃ head, head.length = sizeofConfigurationDescriptor ∧ wTotalLength head = data.length ∧
    getDescriptor hub port (configSetupPacket index
      (sizeofDescriptorRequest + sizeofConfigurationDescriptor)) = some head
  answer : getDescriptor hub port (configSetupPacket index
    (sizeofDescriptorRequest + data.length)) = some data
  wTotalLength_eq : wTotalLength data = data.length
  length_le : sizeofConfigurationDescriptor ≤ data.length

/-- `config` is what the device has to say. -/
def Device.Answers {Handle : Type*} (d : Device Handle) (getDescriptor : GetDescriptor Handle) :
    Prop :=
  ∀ data, d.config = some data ↔ HasConfiguration getDescriptor d.call.hub d.call.port 0 data

/-! ## The packets of a device -/

/-- A configuration has less than 2^16 bytes. -/
theorem wTotalLength_lt (data : List UInt8) : wTotalLength data < 2 ^ 16 := field_lt 2 2 data

/-- The request is answered with the configuration descriptor of the device. -/
theorem getConfigDescriptor_eq_some_iff {Handle : Type*} {getDescriptor : GetDescriptor Handle}
    {hub : Handle} {port : UInt32} {index : UInt8} {request : DescriptorRequest} :
    getConfigDescriptor getDescriptor hub port index = some request ↔
      HasConfiguration getDescriptor hub port index request.data ∧
        request.setupPacket =
          configSetupPacket index (sizeofDescriptorRequest + request.data.length) := by
  rw [getConfigDescriptor]
  constructor
  · intro h
    -- the first request reads the nine bytes that say how long the descriptor is
    cases hhead : getDescriptor hub port (configSetupPacket index
        (sizeofDescriptorRequest + sizeofConfigurationDescriptor)) with
    | none =>
      rw [hhead] at h
      cases h
    | some head =>
      simp only [hhead, Option.ite_none_left_eq_some] at h
      obtain ⟨hlength, htotal, h⟩ := h
      -- the second request reads all of it
      cases hanswer : getDescriptor hub port (configSetupPacket index
          (sizeofDescriptorRequest + wTotalLength head)) with
      | none =>
        rw [hanswer] at h
        cases h
      | some data =>
        simp only [hanswer, Option.ite_none_left_eq_some] at h
        obtain ⟨hanswered, hsame, h⟩ := h
        obtain rfl := Option.some.inj h
        have heq : wTotalLength head = data.length := by omega
        rw [heq] at hanswer
        exact ⟨⟨⟨head, by omega, heq, hhead⟩, hanswer, by dsimp only; omega, by dsimp only; omega⟩,
          by rw [heq]⟩
  · rintro ⟨⟨⟨head, hlength, htotal, hhead⟩, hanswer, hsame, hle⟩, hsetup⟩
    dsimp only
    rw [hhead]
    dsimp only
    rw [if_neg (by omega), if_neg (by omega), htotal, hanswer]
    dsimp only
    rw [if_neg (by omega), if_neg (by omega), ← hsetup]

/-- The two requests for a configuration descriptor give the whole of it. -/
theorem Device.Answers.getConfigDescriptor_eq {Handle : Type*}
    {getDescriptor : GetDescriptor Handle} {d : Device Handle} (h : d.Answers getDescriptor) :
    getConfigDescriptor getDescriptor d.call.hub d.call.port 0 = d.config.map fun data =>
      ⟨configSetupPacket 0 (sizeofDescriptorRequest + data.length), data⟩ := by
  refine Option.ext fun request => ?_
  rw [getConfigDescriptor_eq_some_iff, Option.map_eq_some_iff]
  constructor
  · rintro ⟨hconfig, hsetup⟩
    exact ⟨request.data, (h _).mpr hconfig, hsetup ▸ rfl⟩
  · rintro ⟨data, hconfig, rfl⟩
    exact ⟨(h data).mp hconfig, rfl⟩

/-- The two bytes of a 16-bit value as the packets have them. -/
theorem lowByte_highByte (x : UInt16) :
    [Driver.lowByte x, Driver.highByte x] = LittleEndian.encode 2 x.toNat := by
  have hlow : (x &&& 0x00FF).toNat = x.toNat % 2 ^ 8 := by
    rw [UInt16.toNat_and]
    exact Nat.and_two_pow_sub_one_eq_mod x.toNat 8
  have hhigh : ((x &&& 0xFF00) >>> 8).toNat = x.toNat / 2 ^ 8 := by
    have hlt : x.toNat / 2 ^ 8 < 2 ^ 8 := Nat.div_lt_of_lt_mul x.toNat_lt
    rw [UInt16.toNat_shiftRight, UInt16.toNat_and]
    change (x.toNat &&& 0xFF00) >>> 8 = _
    rw [Nat.shiftRight_and_distrib, Nat.shiftRight_eq_div_pow]
    exact (Nat.and_two_pow_sub_one_eq_mod _ 8).trans (Nat.mod_eq_of_lt hlt)
  have hmod : UInt8.ofNat (x.toNat % 2 ^ 8) = UInt8.ofNat (x.toNat / 1) := by
    rw [Nat.div_one]
    exact UInt8.ofNat_mod_size
  rw [Driver.lowByte, Driver.highByte, hlow, hhigh, hmod]
  rfl

/-- The packet header of a packet. -/
def Packet.header (bus : UInt16) (p : Packet) : BufferPacketHeader where
  headerLen := 28
  irpId := 0
  status := 0
  function := p.function
  info := p.info
  bus := bus
  device := p.device
  endpoint := p.endpoint
  transfer := Driver.transferControl
  dataLength := .ofNat p.payload.length

/-- The bytes of a packet. -/
def Packet.image (bus : UInt16) (p : Packet) : List UInt8 :=
  (p.header bus).bytes ++ [p.stage] ++ p.payload

/-- The entry of a packet in the list. -/
def Packet.entry (bus : UInt16) (p : Packet) : ListEntry where
  data := p.image bus
  length := .ofNat (28 + p.payload.length)

/-- The context with more packets in its list. -/
def CallbackContext.add (ctx : CallbackContext) (ps : List Packet) : CallbackContext :=
  { ctx with list := ctx.list ++ ps.map (Packet.entry ctx.roothub) }

/-- No packets add nothing. -/
theorem CallbackContext.add_nil (ctx : CallbackContext) : ctx.add [] = ctx := by
  rw [CallbackContext.add, List.map_nil, List.append_nil]

/-- Packets are added in order. -/
theorem CallbackContext.add_add (ctx : CallbackContext) (ps qs : List Packet) :
    (ctx.add ps).add qs = ctx.add (ps ++ qs) := by
  simp only [CallbackContext.add, List.map_append, List.append_assoc]

/-- A device descriptor has 18 bytes. -/
theorem length_deviceDescriptorBytes (d : DeviceDescriptor) :
    (deviceDescriptorBytes d).length = 18 := rfl

/-- The bytes of a setup packet. -/
def SetupPacket.bytes (s : SetupPacket) : List UInt8 :=
  [s.bmRequest, s.bRequest] ++ LittleEndian.encode 2 s.wValue.toNat ++
    LittleEndian.encode 2 s.wIndex.toNat ++ LittleEndian.encode 2 s.wLength.toNat

/-- A setup packet and a completion are one exchange. -/
theorem writeCompletePacket_writeSetupPacket (ctx : CallbackContext)
    (submitted completed device : UInt16) (s : SetupPacket) (data : List UInt8) (out : Bool) :
    writeCompletePacket
        (writeSetupPacket ctx submitted device s.bmRequest s.bRequest s.wValue s.wIndex s.wLength
          out)
        completed device data data.length out =
      ctx.add (exchange submitted completed device (if out then 0x00 else 0x80) s.bytes data) := by
  rw [SetupPacket.bytes, ← lowByte_highByte, ← lowByte_highByte, ← lowByte_highByte,
    writeCompletePacket, addToList, List.take_length, writeSetupPacket, addToList,
    List.append_assoc]
  rfl

/-- The answer to its request is a completed control transfer. -/
theorem writeDeviceDescriptorComplete_eq (ctx : CallbackContext) (device : UInt16)
    (d : DeviceDescriptor) :
    writeDeviceDescriptorComplete ctx device d =
      writeCompletePacket ctx urbControlTransfer device (deviceDescriptorBytes d)
        (deviceDescriptorBytes d).length false := by
  rw [writeCompletePacket, List.take_length, deviceDescriptorBytes, ← lowByte_highByte,
    ← lowByte_highByte, ← lowByte_highByte, ← lowByte_highByte]
  rfl

/-- The two bytes of a zero. -/
theorem encode_zero : LittleEndian.encode 2 (0 : UInt16).toNat = [0, 0] := by decide

/-- The setup packet that sets a configuration. -/
theorem setConfiguration_bytes (b : UInt8) :
    SetupPacket.bytes ⟨0x00, 9, b.toUInt16, 0, 0⟩ = [0x00, 9, b, 0, 0, 0, 0, 0] := by
  have hlow : UInt8.ofNat (b.toNat / 1) = b := by rw [Nat.div_one, UInt8.ofNat_toNat]
  have hhigh : b.toNat / 256 = 0 := Nat.div_eq_of_lt b.toNat_lt
  have hbytes : LittleEndian.encode 2 b.toUInt16.toNat = [b, 0] := by
    change [UInt8.ofNat (b.toNat / 1), UInt8.ofNat (b.toNat / 256)] = [b, 0]
    rw [hlow, hhigh]
    rfl
  rw [SetupPacket.bytes, hbytes, encode_zero]
  rfl

/-- `wLength` of the request for a configuration descriptor. -/
theorem configSetupPacket_wLength {n : ℕ} (h : n < 2 ^ 16) :
    (configSetupPacket 0 (sizeofDescriptorRequest + n)).wLength.toNat = n := by
  rw [configSetupPacket, Nat.add_sub_cancel_left]
  exact UInt16.toNat_ofNat_of_lt' h

/-- The setup packet that asks for a configuration descriptor. -/
theorem configSetupPacket_bytes {n : ℕ} (h : n < 2 ^ 16) :
    (configSetupPacket 0 (sizeofDescriptorRequest + n)).bytes =
      [0x80, 6, 0, 2, 0, 0] ++ LittleEndian.encode 2 n := by
  have hvalue : LittleEndian.encode 2
      (configurationDescriptorType <<< 8 ||| (0 : UInt8).toUInt16).toNat = [0, 2] := by decide
  rw [SetupPacket.bytes, configSetupPacket_wLength h]
  dsimp only [configSetupPacket]
  rw [hvalue, encode_zero]
  rfl

section Fold

variable {Handle : Type*} {getDescriptor : GetDescriptor Handle}

/-- The callback adds the packets of the device, if it is filtered. -/
theorem Device.Answers.descriptorCallback_eq {d : Device Handle} (h : d.Answers getDescriptor)
    (ctx : CallbackContext) :
    PortCall.apply (descriptorCallback getDescriptor) ctx d.call =
      ctx.add (if isDeviceFiltered ctx.addresses d.call.deviceAddress.toNat then d.packets
        else []) := by
  rw [PortCall.apply, descriptorCallback]
  cases hfilter : isDeviceFiltered ctx.addresses d.call.deviceAddress.toNat with
  | false => rw [if_pos rfl, if_neg Bool.false_ne_true, CallbackContext.add_nil]
  | true =>
    have hdevice := writeCompletePacket_writeSetupPacket ctx urbGetDescriptorFromDevice
      urbControlTransfer d.call.deviceAddress ⟨0x80, 6, deviceDescriptorType <<< 8, 0, 18⟩
      (deviceDescriptorBytes d.call.desc) false
    have hbytes : SetupPacket.bytes ⟨0x80, 6, deviceDescriptorType <<< 8, 0, 18⟩ =
        [0x80, 6, 0, 1, 0, 0, 18, 0] := by decide
    rw [hbytes, if_neg Bool.false_ne_true] at hdevice
    dsimp only at hdevice
    rw [if_neg (Ne.symm Bool.false_ne_true), if_pos rfl, h.getConfigDescriptor_eq, Device.packets]
    dsimp only
    rw [writeDeviceDescriptorComplete_eq, hdevice, ← CallbackContext.add_add]
    generalize ctx.add _ = ctx'
    cases hconfig : d.config with
    | none => exact (CallbackContext.add_nil _).symm
    | some data =>
      have hlt : data.length < 2 ^ 16 :=
        ((h data).mp hconfig).wTotalLength_eq ▸ wTotalLength_lt data
      have hset := writeCompletePacket_writeSetupPacket (ctx'.add (exchange
        urbGetDescriptorFromDevice urbControlTransfer d.call.deviceAddress 0x80
        ([0x80, 6, 0, 2, 0, 0] ++ LittleEndian.encode 2 data.length) data)) urbSelectConfiguration
        urbSelectConfiguration d.call.deviceAddress
        ⟨0x00, 9, (bConfigurationValue data).toUInt16, 0, 0⟩ [] true
      rw [setConfiguration_bytes, if_pos rfl] at hset
      dsimp only [Option.map_some, Option.elim_some]
      rw [configSetupPacket_wLength hlt, writeCompletePacket_writeSetupPacket,
        configSetupPacket_bytes hlt, if_neg Bool.false_ne_true, ← CallbackContext.add_add]
      exact hset

/-- A device adds its packets where the filter selects it. -/
theorem injected_cons (addresses : AddressFilter) (d : Device Handle)
    (devices : List (Device Handle)) :
    injected addresses (d :: devices) =
      (if isDeviceFiltered addresses d.call.deviceAddress.toNat then d.packets else []) ++
        injected addresses devices := by
  rw [injected, List.filter_cons]
  split <;> rfl

/-- The list that the enumeration leaves behind. -/
theorem foldl_descriptorCallback {devices : List (Device Handle)}
    (h : ∀ d ∈ devices, d.Answers getDescriptor) (ctx : CallbackContext) :
    (devices.map Device.call).foldl (PortCall.apply (descriptorCallback getDescriptor)) ctx =
      ctx.add (injected ctx.addresses devices) := by
  induction devices generalizing ctx with
  | nil => exact (CallbackContext.add_nil ctx).symm
  | cons d devices ih =>
    rw [List.map_cons, List.foldl_cons, (h d List.mem_cons_self).descriptorCallback_eq,
      ih fun e he => h e (List.mem_cons_of_mem d he), CallbackContext.add_add, injected_cons]
    rfl

end Fold

/-! ## Size and fill agree -/

/-- The length of an entry is that of its data. -/
def ListEntry.Sized (e : ListEntry) : Prop := e.length = .ofNat e.data.length

/-- The bytes of the records for a list. -/
def recordBytes (head : List ListEntry) : ℕ :=
  (head.map fun e => sizeofPcaprecHdr + e.data.length).sum

/-- A packet adds its record to the block. -/
theorem recordBytes_cons (e : ListEntry) (next : List ListEntry) :
    recordBytes (e :: next) = sizeofPcaprecHdr + e.data.length + recordBytes next := by
  rw [recordBytes, List.map_cons, List.sum_cons, recordBytes]

/-- The records for a list, from the packet with number `k` on. -/
def records (clock : ℕ → UInt64) : ℕ → List ListEntry → List (List UInt8)
  | _, [] => []
  | k, e :: next => ((recordHeader (clock k) e).bytes ++ e.data) :: records clock (k + 1) next

/-- The records are as long as the block was computed. -/
theorem length_flatten_records (clock : ℕ → UInt64) (k : ℕ) (head : List ListEntry) :
    (records clock k head).flatten.length = recordBytes head := by
  induction head generalizing k with
  | nil => rfl
  | cons e next ih =>
    rw [records, List.flatten_cons, List.length_append, List.length_append,
      PcaprecHdr.length_bytes, ih, recordBytes_cons, sizeofPcaprecHdr]

/-- The first loop counts the bytes of the records. -/
theorem totalLength_eq {head : List ListEntry} (h : ∀ e ∈ head, e.Sized) :
    totalLength head = .ofNat (recordBytes head) := by
  have hfold : ∀ total : ℕ, head.foldl
      (fun total e => total + .ofNat sizeofPcaprecHdr + e.length) (Int32.ofNat total) =
        .ofNat (total + recordBytes head) := by
    induction head with
    | nil => exact fun total => rfl
    | cons e next ih =>
      intro total
      rw [List.foldl_cons, h e List.mem_cons_self, ← Int32.ofNat_add, ← Int32.ofNat_add,
        ih (fun f hf => h f (List.mem_cons_of_mem e hf)), recordBytes_cons, Nat.add_assoc total,
        Nat.add_assoc total]
  exact (hfold 0).trans (congrArg Int32.ofNat (Nat.zero_add _))

/-- The second loop puts the records behind what is in front of `offset`. -/
theorem fillPackets_eq {clock : ℕ → UInt64} {k n : ℕ} {pcap : List UInt8} {head : List ListEntry}
    (h : ∀ e ∈ head, e.Sized) (hlength : n + recordBytes head = pcap.length)
    (hlt : pcap.length < 2 ^ 31) :
    fillPackets clock k pcap (.ofNat n) head =
      pcap.take n ++ (records clock k head).flatten := by
  induction head generalizing k n pcap with
  | nil =>
    rw [fillPackets, records, List.flatten_nil, List.append_nil]
    exact (List.take_of_length_le hlength.ge).symm
  | cons e next ih =>
    rw [recordBytes_cons, sizeofPcaprecHdr] at hlength
    have hhdr : (recordHeader (clock k) e).bytes.length = 16 := PcaprecHdr.length_bytes _
    -- the record header, and the packet behind it
    have hfirst : (copyInto pcap n (recordHeader (clock k) e).bytes).length = pcap.length :=
      length_copyInto (by omega)
    have hsecond : (copyInto (copyInto pcap n (recordHeader (clock k) e).bytes) (n + 16)
        e.data).length = pcap.length := (length_copyInto (by omega)).trans hfirst
    have htake : (copyInto (copyInto pcap n (recordHeader (clock k) e).bytes) (n + 16)
        e.data).take (n + 16 + e.data.length) =
          pcap.take n ++ (recordHeader (clock k) e).bytes ++ e.data := by
      rw [take_copyInto (by omega)]
      refine congrArg (· ++ e.data) ?_
      rw [← hhdr]
      exact take_copyInto (by omega)
    rw [fillPackets, h e List.mem_cons_self, sizeofPcaprecHdr, ← Int32.ofNat_add,
      ← Int32.ofNat_add, Int32.toNatClampNeg_ofNat_of_lt (by omega),
      Int32.toNatClampNeg_ofNat_of_lt (by omega), Int32.toNatClampNeg_ofNat_of_lt (by omega),
      List.take_length, ih (fun f hf => h f (List.mem_cons_of_mem e hf)) (by omega) (by omega),
      htake, records, List.flatten_cons, List.append_assoc, List.append_assoc, List.append_assoc]

/-- **The block is the records and nothing else**, and its length is the one that is reported. -/
theorem generatePcapPackets_eq (clock : ℕ → UInt64) (memory : ℕ → UInt8) {head : List ListEntry}
    (h : ∀ e ∈ head, e.Sized) (hlt : recordBytes head < 2 ^ 31) :
    generatePcapPackets clock memory head =
      ((records clock 0 head).flatten, .ofNat (recordBytes head)) := by
  rw [generatePcapPackets, totalLength_eq h, Int32.toNatClampNeg_ofNat_of_lt hlt]
  have hlength : ((List.range (recordBytes head)).map memory).length = recordBytes head := by
    rw [List.length_map, List.length_range]
  refine congrArg (·, _) ?_
  exact fillPackets_eq (n := 0) h ((Nat.zero_add _).trans hlength.symm) (hlength.trans_lt hlt)

/-! ## What is read -/

/-- What the reader makes of a packet. -/
structure Packet.ReadAs (p : Packet) (rec : Pcap.Record) : Prop where
  inclLen : rec.inclLen.toNat = 28 + p.payload.length
  origLen : rec.origLen = rec.inclLen
  headerLen : rec.headerLen = 28
  device : rec.device = p.device
  endpoint : rec.endpoint = p.endpoint
  transfer : rec.transfer = Driver.transferControl
  dataLen : rec.dataLen.toNat = p.payload.length
  payload : rec.payload = p.payload
  actualLen : rec.actualLen = rec.dataLen

/-- What the reader leaves out: the stage, the function and the direction, where they stand in the
bytes of the record. -/
structure Packet.StandsIn (p : Packet) (frame : List UInt8) : Prop where
  stage : frame[43]? = some p.stage
  function : field 30 2 frame = p.function.toNat
  info : field 32 1 frame = p.info.toNat

/-- The payload of a packet is no longer than a descriptor can be. -/
def Packet.Fits (p : Packet) : Prop := p.payload.length < 2 ^ 16

/-- A packet has a header of 28 bytes and its payload. -/
theorem Packet.length_image (bus : UInt16) (p : Packet) :
    (p.image bus).length = 28 + p.payload.length := by
  rw [Packet.image, List.length_append, List.length_append, BufferPacketHeader.length_bytes]
  rfl

/-- And its entry knows that length. -/
theorem Packet.sized_entry (bus : UInt16) (p : Packet) : (p.entry bus).Sized :=
  congrArg Int32.ofNat (p.length_image bus).symm

/-- The lengths in the record header of a packet. -/
theorem Packet.inclLen_recordHeader (bus : UInt16) {p : Packet} (h : p.Fits)
    (timestamp : UInt64) :
    (recordHeader timestamp (p.entry bus)).inclLen.toNat = (p.image bus).length := by
  rw [Packet.Fits] at h
  rw [p.length_image]
  exact UInt32.toNat_ofNat_of_lt' (show 28 + p.payload.length < 2 ^ 32 by omega)

/-- Its record is read as the packet. -/
theorem Packet.readAs_recordOf (bus : UInt16) {p : Packet} (h : p.Fits) (timestamp : UInt64) :
    p.ReadAs (Pcap.recordOf (.ofBytes (recordHeader timestamp (p.entry bus)).bytes)
      (p.image bus)) := by
  have hincl := Packet.inclLen_recordHeader bus h timestamp
  have hlength := p.length_image bus
  rw [Packet.Fits] at h
  have hdata : (p.header bus).dataLength.toNat = p.payload.length :=
    UInt32.toNat_ofNat_of_lt' (show p.payload.length < 2 ^ 32 by omega)
  have hdrop : (p.image bus).drop 28 = p.payload :=
    List.drop_left' (by rw [List.length_append, BufferPacketHeader.length_bytes]; rfl)
  obtain ⟨hheaderLen, hdevice, hendpoint, htransfer, hdataLen⟩ :=
    Pcap.packetHeader_fields (p.header bus) ([p.stage] ++ p.payload)
  rw [← List.append_assoc, ← Packet.image] at hheaderLen hdevice hendpoint htransfer hdataLen
  have hstart : (p.header bus).headerLen.toNat = 28 := rfl
  rw [Pcap.recordOf, hheaderLen, hdevice, hendpoint, htransfer, hdataLen,
    Pcap.recordHeader_ofBytes]
  dsimp only
  rw [if_neg (by omega), if_neg (by omega), hstart, hdata, if_neg (by omega), ← hlength,
    List.take_length, hdrop]
  exact ⟨hincl.trans hlength, rfl, rfl, rfl, rfl, rfl, hdata, rfl, rfl⟩

/-- The bytes of a record with a packet. -/
theorem Packet.standsIn_record (bus : UInt16) (p : Packet) (hdr : PcaprecHdr) :
    p.StandsIn (hdr.bytes ++ p.image bus) := by
  have hhdr := hdr.length_bytes
  have hbytes := (p.header bus).length_bytes
  constructor
  · rw [List.getElem?_append_right (by omega), hhdr, Packet.image, List.append_assoc,
      List.getElem?_append_right (by omega), hbytes]
    rfl
  · rw [field_append_right (by omega), hhdr, Packet.image, BufferPacketHeader.bytes]
    simp (disch := omega) only [List.append_assoc, field_skip, Nat.reduceSub, field_encode]
    exact Nat.mod_eq_of_lt p.function.toNat_lt
  · rw [field_append_right (by omega), hhdr, Packet.image, BufferPacketHeader.bytes]
    simp (disch := omega) only [List.append_assoc, field_skip, Nat.reduceSub, field_encode]
    exact Nat.mod_eq_of_lt p.info.toNat_lt

section Records

variable {ps : List Packet} {clock : ℕ → UInt64} {k : ℕ} {bus : UInt16}

/-- Each record is a frame of the stream. -/
theorem isFrame_of_mem_records (h : ∀ p ∈ ps, p.Fits) {f : List UInt8}
    (hf : f ∈ records clock k (ps.map (Packet.entry bus))) : recordFraming.IsFrame f := by
  induction ps generalizing k with
  | nil => exact absurd hf List.not_mem_nil
  | cons p ps ih =>
    rw [List.map_cons, records] at hf
    rcases List.mem_cons.mp hf with rfl | hf
    · exact isFrame_header_append _
        (Packet.inclLen_recordHeader bus (h p List.mem_cons_self) (clock k)).symm
    · exact ih (fun q hq => h q (List.mem_cons_of_mem p hq)) hf

/-- The records stand for the packets, in order. -/
theorem standsIn_records :
    List.Forall₂ Packet.StandsIn ps (records clock k (ps.map (Packet.entry bus))) := by
  induction ps generalizing k with
  | nil => exact .nil
  | cons p ps ih => exact .cons (p.standsIn_record bus _) ih

/-- The block splits into the records. -/
theorem split_records (h : ∀ p ∈ ps, p.Fits) :
    recordFraming.split (records clock k (ps.map (Packet.entry bus))).flatten =
      (records clock k (ps.map (Packet.entry bus)), []) := by
  have hframe : ∀ f ∈ records clock k (ps.map (Packet.entry bus)), recordFraming.IsFrame f :=
    fun f hf => isFrame_of_mem_records h hf
  have hsplit := Framing.split_flatten_append hframe []
  rwa [List.append_nil, Framing.split_of_none recordLen_nil, List.append_nil] at hsplit

/-- The reader reads one record for each packet. -/
theorem readAll_records (h : ∀ p ∈ ps, p.Fits) {r : Pcap.Reader}
    (hr : r.f = (records clock k (ps.map (Packet.entry bus))).flatten) :
    ∃ recs, r.readAll = (recs, .eof) ∧ List.Forall₂ Packet.ReadAs ps recs := by
  induction ps generalizing k r with
  | nil => exact ⟨[], Pcap.Reader.readAll_nil hr, .nil⟩
  | cons p ps ih =>
    have hp := h p List.mem_cons_self
    rw [List.map_cons, records, List.flatten_cons, List.append_assoc] at hr
    have hlength : (p.image bus).length =
        (Pcap.RecordHeader.ofBytes (recordHeader (clock k) (p.entry bus)).bytes).inclLen.toNat := by
      rw [Pcap.recordHeader_ofBytes]
      exact (Packet.inclLen_recordHeader bus hp (clock k)).symm
    have hmax : (p.image bus).length ≤ Pcap.maxRecordSize := by
      rw [Packet.Fits] at hp
      rw [p.length_image, Pcap.maxRecordSize]
      omega
    have hnext := Pcap.Reader.next_record (PcaprecHdr.length_bytes _) hlength hmax hr
    obtain ⟨recs, hrecs, hread⟩ := ih (fun q hq => h q (List.mem_cons_of_mem p hq))
      (r := { r with f := _ }) rfl
    refine ⟨_, ?_, .cons (Packet.readAs_recordOf bus hp (clock k)) hread⟩
    rw [Pcap.Reader.readAll_of_ok hnext, hrecs]

end Records

/-! ## The injected block -/

section Injected

variable {Handle : Type*} {getDescriptor : GetDescriptor Handle}

/-- Setup packets and descriptors fit. -/
theorem Device.Answers.fits {d : Device Handle} (h : d.Answers getDescriptor) {p : Packet}
    (hp : p ∈ d.packets) : p.Fits := by
  have hexchange : ∀ {submitted completed device : UInt16} {endpoint : UInt8}
      {setup data : List UInt8}, setup.length = 8 → data.length < 2 ^ 16 →
        p ∈ exchange submitted completed device endpoint setup data → p.Fits := by
    intro submitted completed device endpoint setup data hsetup hdata hmem
    rcases List.mem_pair.mp hmem with rfl | rfl
    · exact hsetup.trans_lt (by decide)
    · exact hdata
  rw [Device.packets] at hp
  rcases List.mem_append.mp hp with hdevice | hconfig
  · exact hexchange rfl ((length_deviceDescriptorBytes _).trans_lt (by decide)) hdevice
  · cases hdata : d.config with
    | none =>
      rw [hdata] at hconfig
      exact absurd hconfig List.not_mem_nil
    | some data =>
      rw [hdata] at hconfig
      rcases List.mem_append.mp hconfig with hconfig | hset
      · exact hexchange rfl (((h data).mp hdata).wTotalLength_eq ▸ wTotalLength_lt data) hconfig
      · exact hexchange rfl (by decide) hset

/-- Every packet that is injected fits its length fields. -/
theorem fits_of_mem_injected {addresses : AddressFilter} {devices : List (Device Handle)}
    (h : ∀ d ∈ devices, d.Answers getDescriptor) {p : Packet}
    (hp : p ∈ injected addresses devices) : p.Fits := by
  obtain ⟨d, hd, hp⟩ := List.mem_flatMap.mp hp
  exact (h d (List.mem_of_mem_filter hd)).fits hp

/-- The bytes of the records for a list of packets. -/
theorem recordBytes_map_entry (bus : UInt16) (ps : List Packet) :
    recordBytes (ps.map (Packet.entry bus)) =
      (ps.map fun p => 16 + 28 + p.payload.length).sum := by
  rw [recordBytes, List.map_map]
  refine congrArg List.sum (List.map_congr_left fun p _ => ?_)
  exact (congrArg (16 + ·) (p.length_image bus)).trans (Nat.add_assoc 16 28 _).symm

/-- **The injected block is read as the exchanges of the filtered devices.** It has the length that
is reported. Behind a global header the reader finds in it, for each filtered device in the order of
the enumeration and for no other, the request for its device descriptor and, if it has a
configuration descriptor, the request for that and the request that sets the configuration, each
with its setup bytes and with the descriptor that answers it; then the file ends. -/
theorem descriptorsGeneratePcap_spec {usb : Usb Handle} {filter : Name} {fuel : ℕ}
    {devices : List (Device Handle)} (hvisits : Visits usb filter fuel (devices.map Device.call))
    (hanswers : ∀ d ∈ devices, d.Answers getDescriptor) (clock : ℕ → UInt64) (memory : ℕ → UInt8)
    {addresses : AddressFilter}
    (hsize : ((injected addresses devices).map fun p => 16 + 28 + p.payload.length).sum < 2 ^ 31)
    {hdr : List UInt8} (hhdr : Pcap.IsPcapHeader hdr) :
    ∃ block length,
      descriptorsGeneratePcap usb getDescriptor clock memory filter addresses fuel =
        some (block, length) ∧
      length.toInt = block.length ∧
      (∃ frames, recordFraming.split block = (frames, []) ∧
        List.Forall₂ Packet.StandsIn (injected addresses devices) frames) ∧
      ∃ r recs, Pcap.openReader (hdr ++ block) = .ok r ∧ r.readAll = (recs, .eof) ∧
        List.Forall₂ Packet.ReadAs (injected addresses devices) recs := by
  have hfits : ∀ p ∈ injected addresses devices, p.Fits := fun p hp =>
    fits_of_mem_injected hanswers hp
  obtain ⟨bus, hbus⟩ : ∃ bus, (CallbackContext.init filter addresses).roothub = bus := ⟨_, rfl⟩
  have hlist := foldl_descriptorCallback hanswers (.init filter addresses)
  have hsized : ∀ e ∈ (injected addresses devices).map (Packet.entry bus), e.Sized := by
    intro e he
    obtain ⟨p, -, rfl⟩ := List.mem_map.mp he
    exact p.sized_entry bus
  rw [← recordBytes_map_entry bus] at hsize
  obtain ⟨r, hr, hf⟩ := Pcap.openReader_append hhdr
    (records clock 0 ((injected addresses devices).map (Packet.entry bus))).flatten
  obtain ⟨recs, hrecs, hread⟩ := readAll_records hfits hf
  refine ⟨_, .ofNat (recordBytes ((injected addresses devices).map (Packet.entry bus))), ?_, ?_,
    ⟨_, split_records hfits, standsIn_records⟩, r, recs, hr, hrecs, hread⟩
  · rw [descriptorsGeneratePcap, hvisits, hlist, Option.map_some,
      ← generatePcapPackets_eq clock memory hsized hsize, ← hbus]
    rfl
  · rw [length_flatten_records, Int32.toInt_ofNat_of_lt hsize]

end Injected

/-! ## Two of three devices -/

/-- A configuration descriptor without interfaces. -/
def sampleConfig : List UInt8 := [9, 2, 9, 0, 0, 1, 0, 0x80, 50]

/-- The device at port 2 of the root hub has this descriptor, the others answer nothing. -/
def sampleGetDescriptor : GetDescriptor ℕ := fun hub port _ =>
  if hub = 0 ∧ port = 2 then some sampleConfig else none

/-- The devices behind `sampleUsb`. -/
def sampleDevices : List (Device ℕ) :=
  [⟨⟨0, 1, 2, 0, (samplePort .deviceConnected 2).deviceDescriptor⟩, none⟩,
    ⟨⟨1, 1, 5, 2, (samplePort .deviceConnected 5).deviceDescriptor⟩, none⟩,
    ⟨⟨0, 2, 3, 0, (samplePort .deviceConnected 3).deviceDescriptor⟩, some sampleConfig⟩]

/-- The devices 3 and 5 are filtered. -/
def sampleAddresses : AddressFilter where
  addresses range := if range = 0 then 0b101000 else 0
  filterAll := false

/-- The walk over the sample bus visits both devices. -/
theorem visits_sampleUsb : Visits sampleUsb [] 3 (sampleDevices.map Device.call) :=
  fun _ _ => rfl

/-- A device with nothing to say has no configuration descriptor. -/
theorem not_hasConfiguration {hub : ℕ} {port : UInt32} (h : ¬ (hub = 0 ∧ port = 2))
    (data : List UInt8) : ¬ HasConfiguration sampleGetDescriptor hub port 0 data := by
  intro hconfig
  have hanswer := hconfig.answer
  rw [sampleGetDescriptor, if_neg h] at hanswer
  cases hanswer

/-- And both answer. -/
theorem answers_sampleDevices : ∀ d ∈ sampleDevices, d.Answers sampleGetDescriptor := by
  intro d hd data
  rcases List.mem_cons.mp hd with rfl | hd
  · exact ⟨nofun, fun h => absurd h (not_hasConfiguration (by decide) data)⟩
  · rcases List.mem_pair.mp hd with rfl | rfl
    · exact ⟨nofun, fun h => absurd h (not_hasConfiguration (by decide) data)⟩
    · constructor
      · intro h
        obtain rfl := Option.some.inj h
        exact ⟨⟨sampleConfig, rfl, rfl, rfl⟩, rfl, rfl, Nat.le_refl 9⟩
      · exact fun h => h.answer

/-- The block of the sample bus, split and read back. -/
theorem descriptorsGeneratePcap_sampleUsb :
    ∃ block length,
      descriptorsGeneratePcap sampleUsb sampleGetDescriptor (fun _ => 0) (fun _ => 0xCD) []
          sampleAddresses 3 = some (block, length) ∧
      length.toInt = block.length ∧
      (∃ frames, recordFraming.split block = (frames, []) ∧
        List.Forall₂ Packet.StandsIn (injected sampleAddresses sampleDevices) frames) ∧
      ∃ r recs, Pcap.openReader (Pcap.plainHeader ++ block) = .ok r ∧
        r.readAll = (recs, .eof) ∧
        List.Forall₂ Packet.ReadAs (injected sampleAddresses sampleDevices) recs :=
  descriptorsGeneratePcap_spec visits_sampleUsb answers_sampleDevices _ _ (by decide)
    ⟨rfl, Or.inl (by decide), by decide⟩

example : (injected sampleAddresses sampleDevices).map (fun p => (p.device, p.endpoint)) =
    [(5, 0x80), (5, 0x80), (3, 0x80), (3, 0x80), (3, 0x80), (3, 0x80), (3, 0x00), (3, 0x00)] := by
  decide

end UsbPcap.Cmd.Descriptors
