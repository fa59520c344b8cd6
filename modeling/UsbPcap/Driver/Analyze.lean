import UsbPcap.Driver.Urb

/-!
# Analysis of URBs

`USBPcapAnalyzeURB` is called with every URB on its way to the bus driver and once more on its way
back (`post`). It keeps the device data up to date and, when the device is filtered, passes records
to the buffer. Here these are collected in the order in which they are passed on, with addresses in
place of the payload's bytes.
-/

namespace UsbPcap.Driver

open Memory Format

/-! ## What a call meets and does -/

/-- What a call meets outside of the driver: the clock, what the pool allocations of the call
return, the function of the USBD library, and what the stack held where `frameNum` lies. -/
structure Surroundings where
  now : ℤ
  descriptorPool : (n : ℕ) → Option (Block n)
  endpointPool : ℕ → ℕ → Bool
  urbIrpPool : Bool
  isochHeaderPool : Bool
  isochEntriesPool : Bool
  parseConfigurationDescriptorEx : List UInt8 → UInt8 → UInt8 → Option InterfaceDescriptor
  frameNum : UInt32

/-- The address in a payload entry: `NULL`, a place in a buffer that exists, or what an index
operation has made of a `NULL` base. -/
inductive Address where
  | null
  | within (buffer : List UInt8) (offset : ℕ)
  | fromNull (offset : ℕ)
deriving DecidableEq, Repr

/-- A pointer that has not been calculated with. -/
def Address.ofPointer : Option (List UInt8) → Address
  | none => .null
  | some buffer => .within buffer 0

/-- `&buffer[offset]` -/
def Address.index (buffer : Option (List UInt8)) (offset : UInt32) : Address :=
  match buffer with
  | some buffer => .within buffer offset.toNat
  | none => if offset = 0 then .null else .fromNull offset.toNat

/-- `USBPCAP_PAYLOAD_ENTRY` as the analysis makes it. -/
structure AddressEntry where
  size : UInt32
  buffer : Address
deriving DecidableEq, Repr

/-- The arguments of one call of `USBPcapBufferWriteTimestampedPayload`. -/
structure PayloadWrite where
  timestamp : ℤ
  header : PacketHeader
  payload : List AddressEntry
deriving DecidableEq, Repr

/-- `USBPcapBufferWriteTimestampedPacket` -/
def writeTimestampedPacket (timestamp : ℤ) (header : PacketHeader) (buffer : Address) :
    PayloadWrite where
  timestamp := timestamp
  header := header
  payload := [⟨header.header.dataLength, buffer⟩, ⟨0, .null⟩]

/-- The part of `USBPCAP_ROOTHUB_DATA` that the analysis reads. -/
structure RootData where
  busId : UInt16
  filter : AddressFilter

/-- What a call does: the new device data, the destinations of the configuration descriptors that
it copies, and what it passes to the buffer. -/
structure Analysis where
  data : DeviceData
  copies : List (Option (List UInt8))
  writes : List PayloadWrite

/-! ## Packet headers -/

/-- `USBPCAP_TRANSFER_ISOCHRONOUS` -/
def transferIsochronous : UInt8 := 0

/-- `USBPCAP_TRANSFER_INTERRUPT` -/
def transferInterrupt : UInt8 := 1

/-- `USBPCAP_TRANSFER_CONTROL` -/
def transferControl : UInt8 := 2

/-- `USBPCAP_TRANSFER_BULK` -/
def transferBulk : UInt8 := 3

/-- `USBPCAP_TRANSFER_IRP_INFO` -/
def transferIrpInfo : UInt8 := 0xFE

/-- `USBPCAP_TRANSFER_UNKNOWN` -/
def transferUnknown : UInt8 := 0xFF

/-- `USBPCAP_INFO_PDO_TO_FDO` -/
def infoPdoToFdo : UInt8 := 1

/-- The `info` byte of a URB's own records. -/
def urbInfo (post : Bool) : UInt8 := if post then infoPdoToFdo else 0

section

variable (root : RootData) (irp : Pirp) (urb : Urb) (post : Bool) (env : Surroundings)
  (data : DeviceData)

/-- The packet header that each case fills in. -/
def urbHeader (headerLen : UInt16) (device : UInt16) (endpoint transfer : UInt8)
    (dataLength : UInt32) : BufferPacketHeader where
  headerLen := headerLen
  irpId := irp
  status := urb.status
  function := urb.function
  info := urbInfo post
  bus := root.busId
  device := device
  endpoint := endpoint
  transfer := transfer
  dataLength := dataLength

/-- A `USBPCAP_BUFFER_PACKET_HEADER` by itself. -/
def packetHeader (device : UInt16) (endpoint transfer : UInt8) (dataLength : UInt32) :
    PacketHeader where
  header := urbHeader root irp urb post 27 device endpoint transfer dataLength
  ext := []
  covered := Nat.le_refl 27

/-- `USBPCAP_BUFFER_CONTROL_HEADER` -/
def controlHeader (endpoint : UInt8) (dataLength : UInt32) (stage : UInt8) : PacketHeader where
  header := urbHeader root irp urb post 28 data.deviceAddress endpoint transferControl dataLength
  ext := [stage]
  covered := Nat.le_refl 28

/-! ## Control transfers -/

/-- `USBPCAP_CONTROL_STAGE_SETUP` -/
def controlStageSetup : UInt8 := 0

/-- `USBPCAP_CONTROL_STAGE_COMPLETE` -/
def controlStageComplete : UInt8 := 3

/-- The transfer goes from the device to the host. -/
def fromDevice (transferFlags : UInt32) : Bool := transferFlags &&& usbdTransferDirectionIn ≠ 0

/-- The endpoint of a control transfer. -/
def controlEndpoint (transfer : ControlTransfer) : UInt8 :=
  let endpoint :=
    if transfer.transferFlags &&& usbdDefaultPipeTransfer ≠ 0 ∨ transfer.pipeHandle = 0 then 0
    else
      match retrieveEndpointInfo data transfer.pipeHandle with
      | some info => info.endpointAddress
      | none => 0
  if fromDevice transfer.transferFlags then endpoint ||| 0x80 else endpoint

/-- `USBPcapAnalyzeControlTransfer` -/
def analyzeControlTransfer (transfer : ControlTransfer) : PayloadWrite :=
  let transferFromDevice := fromDevice transfer.transferFlags
  let endpoint := controlEndpoint data transfer
  let dataBuffer :=
    if transfer.transferBufferLength ≠ 0 then Address.ofPointer transfer.pointer else .null
  let dataBufferLength :=
    if transfer.transferBufferLength ≠ 0 then transfer.transferBufferLength else 0
  if post = false then
    { timestamp := env.now
      header := controlHeader root irp urb post data endpoint
        (if transferFromDevice = false then 8 + dataBufferLength else 8) controlStageSetup
      payload :=
        [⟨8, .within transfer.setupPacket.1 0⟩,
          if transferFromDevice = false then ⟨dataBufferLength, dataBuffer⟩ else ⟨0, .null⟩,
          ⟨0, .null⟩] }
  else
    { timestamp := env.now
      header := controlHeader root irp urb post data endpoint
        (if transferFromDevice then 0 + dataBufferLength else 0) controlStageComplete
      payload :=
        [if transferFromDevice then ⟨dataBufferLength, dataBuffer⟩ else ⟨0, .null⟩, ⟨0, .null⟩] }

/-- The low byte of a 16-bit setup field. -/
def lowByte (x : UInt16) : UInt8 := .ofNat (x &&& 0x00FF).toNat

/-- The high byte of a 16-bit setup field. -/
def highByte (x : UInt16) : UInt8 := .ofNat ((x &&& 0xFF00) >>> 8).toNat

/-- The low byte of the 32-bit length, in `wLength`. -/
def lengthLow (x : UInt32) : UInt8 := .ofNat (x &&& 0x00FF).toNat

/-- The second byte of the 32-bit length, in `wLength`. -/
def lengthHigh (x : UInt32) : UInt8 := .ofNat ((x &&& 0xFF00) >>> 8).toNat

/-- The `wrapTransfer` of a URB that selects a configuration. -/
def wrapSelectConfiguration (configurationDescriptor : Option ConfigurationDescriptor) :
    ControlTransfer where
  toTransferBuffer := .none
  pipeHandle := 0
  transferFlags := usbdTransferDirectionOut
  setupPacket :=
    ⟨[0x00, 0x09,
      match configurationDescriptor with
      | none => 0
      | some descriptor => descriptor.configurationValue,
      0, 0, 0, 0, 0], rfl⟩

/-- The `wrapTransfer` of a URB that selects an interface. -/
def wrapSelectInterface (intDescriptor : InterfaceDescriptor) : ControlTransfer where
  toTransferBuffer := .none
  pipeHandle := 0
  transferFlags := usbdTransferDirectionOut
  setupPacket :=
    ⟨[0x00, 0x0B, intDescriptor.alternateSetting, 0, intDescriptor.interfaceNumber, 0, 0, 0], rfl⟩

/-- `bmRequestType` of a descriptor request. -/
def DescriptorFunction.requestType : DescriptorFunction → UInt8
  | .getDescriptorFromDevice => 0x80
  | .getDescriptorFromEndpoint => 0x82
  | .getDescriptorFromInterface => 0x81
  | .setDescriptorToDevice => 0x00
  | .setDescriptorToEndpoint => 0x02
  | .setDescriptorToInterface => 0x01

/-- `bRequest` of a descriptor request, `GET_DESCRIPTOR` or `SET_DESCRIPTOR`. -/
def DescriptorFunction.request : DescriptorFunction → UInt8
  | .getDescriptorFromDevice | .getDescriptorFromEndpoint | .getDescriptorFromInterface => 0x06
  | .setDescriptorToDevice | .setDescriptorToEndpoint | .setDescriptorToInterface => 0x07

/-- The direction of a descriptor request. -/
def DescriptorFunction.transferFlags : DescriptorFunction → UInt32
  | .getDescriptorFromDevice | .getDescriptorFromEndpoint | .getDescriptorFromInterface =>
    usbdTransferDirectionIn
  | .setDescriptorToDevice | .setDescriptorToEndpoint | .setDescriptorToInterface =>
    usbdTransferDirectionOut

/-- The `wrapTransfer` of a descriptor request. -/
def wrapDescriptorRequest (function : DescriptorFunction) (request : DescriptorRequest) :
    ControlTransfer where
  toTransferBuffer := request.toTransferBuffer
  pipeHandle := 0
  transferFlags := function.transferFlags
  setupPacket :=
    ⟨[function.requestType, function.request, request.index, request.descriptorType,
      lowByte request.languageId, highByte request.languageId,
      lengthLow request.transferBufferLength, lengthHigh request.transferBufferLength], rfl⟩

/-- `bmRequestType` of a status request. -/
def StatusFunction.requestType : StatusFunction → UInt8
  | .getStatusFromDevice => 0x80
  | .getStatusFromInterface => 0x81
  | .getStatusFromEndpoint => 0x82
  | .getStatusFromOther => 0x83

/-- The `wrapTransfer` of a status request. -/
def wrapGetStatusRequest (function : StatusFunction) (request : GetStatusRequest) :
    ControlTransfer where
  toTransferBuffer := request.toTransferBuffer
  pipeHandle := 0
  transferFlags := usbdTransferDirectionIn
  setupPacket :=
    ⟨[function.requestType, 0x00, 0, 0, lowByte request.index, highByte request.index,
      lengthLow request.transferBufferLength, lengthHigh request.transferBufferLength], rfl⟩

/-- `bmRequestType` of a vendor or class request, without its direction. -/
def VendorOrClassFunction.requestType : VendorOrClassFunction → UInt8
  | .vendorDevice => 0x40
  | .vendorInterface => 0x41
  | .vendorEndpoint => 0x42
  | .vendorOther => 0x43
  | .classDevice => 0x20
  | .classInterface => 0x21
  | .classEndpoint => 0x22
  | .classOther => 0x23

/-- The `wrapTransfer` of a vendor or class request. -/
def wrapVendorOrClassRequest (function : VendorOrClassFunction) (request : VendorOrClassRequest) :
    ControlTransfer where
  toTransferBuffer := request.toTransferBuffer
  pipeHandle := 0
  transferFlags := request.transferFlags
  setupPacket :=
    ⟨[if fromDevice request.transferFlags then function.requestType ||| 0x80
      else function.requestType,
      request.request, lowByte request.value, highByte request.value, lowByte request.index,
      highByte request.index, lengthLow request.transferBufferLength,
      lengthHigh request.transferBufferLength], rfl⟩

/-! ## Other transfers -/

/-- The device, the endpoint and the kind of a bulk or interrupt transfer. -/
def bulkEndpoint (handle : PipeHandle) : UInt16 × UInt8 × UInt8 :=
  match retrieveEndpointInfo data handle with
  | some info =>
    (info.deviceAddress, info.endpointAddress,
      if info.type = .interrupt then transferInterrupt else transferBulk)
  | none => (data.deviceAddress, 0xFF, transferBulk)

/-- The case `URB_FUNCTION_BULK_OR_INTERRUPT_TRANSFER`. -/
def analyzeBulkOrInterruptTransfer (transfer : BulkOrInterruptTransfer) : PayloadWrite :=
  let (device, endpoint, kind) := bulkEndpoint data transfer.pipeHandle
  if (endpoint &&& 0x80 ≠ 0 ∧ post = true) ∨ (endpoint &&& 0x80 = 0 ∧ post = false) then
    writeTimestampedPacket env.now
      (packetHeader root irp urb post device endpoint kind transfer.transferBufferLength)
      (.ofPointer transfer.pointer)
  else
    writeTimestampedPacket env.now (packetHeader root irp urb post device endpoint kind 0) .null

/-- `headerLen` of an isochronous transfer, a sum of two `USHORT`s. -/
def isochHeaderLen (numberOfPackets : UInt32) : UInt16 :=
  51 + .ofNat (12 * (numberOfPackets - 1).toNat)

/-- The memory image of a `USBPCAP_BUFFER_ISO_PACKET`. -/
def IsoPacket.bytes (p : IsoPacket) : List UInt8 :=
  LittleEndian.encode 4 p.offset.toNat ++ LittleEndian.encode 4 p.length.toNat ++
    LittleEndian.encode 4 p.status.toNat

@[simp] theorem IsoPacket.length_bytes (p : IsoPacket) : p.bytes.length = 12 := by
  simp [IsoPacket.bytes]

/-- `USBPCAP_BUFFER_ISOCH_HEADER` behind its packet header. -/
def isochExt (transfer : IsochTransfer) (packets : List IsoPacket) : List UInt8 :=
  LittleEndian.encode 4 transfer.startFrame.toNat ++
    LittleEndian.encode 4 transfer.numberOfPackets.toNat ++
    LittleEndian.encode 4 transfer.errorCount.toNat ++ packets.flatMap IsoPacket.bytes

theorem length_flatMap_bytes (packets : List IsoPacket) :
    (packets.flatMap IsoPacket.bytes).length = 12 * packets.length := by
  induction packets with
  | nil => rfl
  | cons p ps ih =>
    rw [List.flatMap_cons, List.length_append, ih, IsoPacket.length_bytes, List.length_cons]
    omega

theorem length_isochExt (transfer : IsochTransfer) (packets : List IsoPacket) :
    (isochExt transfer packets).length = 12 + 12 * packets.length := by
  simp only [isochExt, List.length_append, LittleEndian.length_encode, length_flatMap_bytes]

/-- Up to 1024 packets, the length of the header does not wrap. -/
theorem isochHeaderLen_toNat {numberOfPackets : UInt32} (h : ¬ 1024 < numberOfPackets) :
    (isochHeaderLen numberOfPackets).toNat = 39 + 12 * numberOfPackets.toNat := by
  rw [UInt32.lt_iff_toNat_lt] at h
  change ¬ 1024 < numberOfPackets.toNat at h
  rw [isochHeaderLen, UInt16.toNat_add, UInt16.toNat_ofNat', UInt32.toNat_sub]
  change (51 + 12 * ((2 ^ 32 - 1 + numberOfPackets.toNat) % 2 ^ 32) % 2 ^ 16) % 2 ^ 16 = _
  -- without packets, the difference wraps and the product wraps back
  by_cases hzero : numberOfPackets.toNat = 0
  · rw [hzero]
  · have hdiff : (2 ^ 32 - 1 + numberOfPackets.toNat) % 2 ^ 32 = numberOfPackets.toNat - 1 := by
      omega
    rw [hdiff]
    omega

/-- The header of an isochronous transfer. -/
def isochHeader (transfer : IsochTransfer) (dataLength : UInt32) (packets : List IsoPacket)
    (few : ¬ 1024 < transfer.numberOfPackets)
    (all : packets.length = transfer.numberOfPackets.toNat) : PacketHeader :=
  let (device, endpoint) :=
    match retrieveEndpointInfo data transfer.pipeHandle with
    | some info => (info.deviceAddress, info.endpointAddress)
    | none => (data.deviceAddress, 0xFF)
  { header := urbHeader root irp urb post (isochHeaderLen transfer.numberOfPackets) device endpoint
      transferIsochronous dataLength
    ext := isochExt transfer packets
    covered := by
      rw [length_isochExt, all]
      change (isochHeaderLen transfer.numberOfPackets).toNat ≤ _
      rw [isochHeaderLen_toNat few, sizeofBufferPacketHeader]
      omega }

/-- The packets of the transfer. -/
def IsochTransfer.packets (transfer : IsochTransfer) : List IsoPacket :=
  (List.range transfer.numberOfPackets.toNat).map transfer.isoPacket

/-- The packets at their offsets in the compacted payload. -/
def compactPackets : UInt32 → List IsoPacket → List IsoPacket
  | _, [] => []
  | compactedOffset, p :: ps =>
    { p with offset := compactedOffset } :: compactPackets (compactedOffset + p.length) ps

@[simp] theorem length_compactPackets (compactedOffset : UInt32) (packets : List IsoPacket) :
    (compactPackets compactedOffset packets).length = packets.length := by
  induction packets generalizing compactedOffset with
  | nil => rfl
  | cons p ps ih => rw [compactPackets, List.length_cons, ih, List.length_cons]

@[simp] theorem IsochTransfer.length_packets (transfer : IsochTransfer) :
    transfer.packets.length = transfer.numberOfPackets.toNat := by
  rw [packets, List.length_map, List.length_range]

/-- `compactedLength`, a 32-bit sum. -/
def compactedLength (packets : List IsoPacket) : UInt32 :=
  packets.foldl (fun length p => length + p.length) 0

/-- `compactedPayloadEntries` -/
def compactedPayloadEntries (transferBuffer : Option (List UInt8)) (packets : List IsoPacket) :
    List AddressEntry :=
  packets.map (fun p => ⟨p.length, .index transferBuffer p.offset⟩) ++ [⟨0, .null⟩]

/-- The case `URB_FUNCTION_ISOCH_TRANSFER`; `none` when it gives up. -/
def analyzeIsochTransfer (transfer : IsochTransfer) : Option PayloadWrite :=
  if few : 1024 < transfer.numberOfPackets then none
  else if env.isochHeaderPool = false then none
  else
    let header (dataLength : UInt32) := isochHeader root irp urb post data transfer dataLength
      transfer.packets few transfer.length_packets
    if transfer.transferBufferLength = 0 then
      some (writeTimestampedPacket env.now (header 0) .null)
    else if transfer.transferFlags &&& usbdTransferDirectionIn = usbdTransferDirectionIn ∧
        post = true then
      if transfer.transferBufferLength < compactedLength transfer.packets then none
      else if env.isochEntriesPool = false then none
      else
        some
          { timestamp := env.now
            header := isochHeader root irp urb post data transfer
              (compactedLength transfer.packets) (compactPackets 0 transfer.packets) few
              ((length_compactPackets _ _).trans transfer.length_packets)
            payload := compactedPayloadEntries transfer.pointer transfer.packets }
    else if transfer.transferFlags &&& usbdTransferDirectionIn = usbdTransferDirectionOut ∧
        post = false then
      some (writeTimestampedPacket env.now (header transfer.transferBufferLength)
        (.ofPointer transfer.pointer))
    else some (writeTimestampedPacket env.now (header 0) .null)

/-- The cases of `_URB_PIPE_REQUEST`. -/
def analyzePipeRequest (pipeHandle : PipeHandle) : PayloadWrite :=
  let header :=
    match retrieveEndpointInfo data pipeHandle with
    | some info =>
      packetHeader root irp urb post info.deviceAddress info.endpointAddress transferIrpInfo 0
    | none => packetHeader root irp urb post data.deviceAddress 0xFF transferUnknown 0
  writeTimestampedPacket env.now header .null

/-- The case `URB_FUNCTION_GET_CURRENT_FRAME_NUMBER`. -/
def analyzeGetCurrentFrameNumber (frameNumber : UInt32) : PayloadWrite :=
  let frameNum := if post then frameNumber else env.frameNum
  writeTimestampedPacket env.now
    (packetHeader root irp urb post data.deviceAddress 0x80 transferIrpInfo (if post then 4 else 0))
    (.within (LittleEndian.encode 4 frameNum.toNat) 0)

/-! ## Unknown functions -/

/-- What the default case saves on the way to the bus driver. -/
def unknownUrbInfo : UrbIrpInfo where
  timestamp := env.now
  status := urb.status
  function := urb.function
  info := 0
  bus := root.busId
  device := data.deviceAddress

/-- The record of what was saved. -/
def submissionWrite (info : UrbIrpInfo) : PayloadWrite :=
  writeTimestampedPacket info.timestamp
    { header :=
        { headerLen := 27
          irpId := irp
          status := info.status
          function := info.function
          info := info.info
          bus := info.bus
          device := info.device
          endpoint := 0
          transfer := transferUnknown
          dataLength := 0 }
      ext := []
      covered := Nat.le_refl 27 } .null

/-- The default case. -/
def analyzeUnknown : DeviceData × List PayloadWrite :=
  if post = false then
    ({ data with
        urbIrpTable := addUrbIrpInfo data.urbIrpTable irp (unknownUrbInfo root urb env data)
          env.urbIrpPool }, [])
  else
    (data, [writeTimestampedPacket env.now
      (packetHeader root irp urb post data.deviceAddress 0 transferUnknown 0) .null])

/-! ## The whole call -/

/-- The first `switch`: what is analysed in any case, with the destinations of copies. -/
def analyzeAlways : DeviceData × List (Option (List UInt8)) :=
  match urb.body with
  | .selectConfiguration configurationDescriptor interface =>
    if post = false then (data, [])
    else
      let data :=
        if offsetofSelectConfigurationInterface < urb.length.toNat then
          parseInterfaceInformation data interface env.endpointPool 0 0
            (urb.length.toNat - offsetofSelectConfigurationInterface)
        else data
      match configurationDescriptor with
      | some descriptor =>
        let block := env.descriptorPool descriptor.totalLength
        ({ data with
            descriptor := block.map fun b =>
              copyInto b.1 0 (descriptor.bytes.take descriptor.totalLength) },
          [block.map Subtype.val])
      | none => ({ data with descriptor := none }, [])
  | .selectInterface interface =>
    if post = false then (data, [])
    else if offsetofSelectInterfaceInterface < urb.length.toNat then
      (parseInterfaceInformation data interface env.endpointPool 0 0
        (urb.length.toNat - offsetofSelectInterfaceInterface), [])
    else (data, [])
  | _ => (data, [])

/-- The case `URB_FUNCTION_SELECT_INTERFACE`; `none` when it gives up. -/
def analyzeSelectInterface (interface : ℕ → InterfaceInformation) : Option PayloadWrite :=
  match data.descriptor with
  | none => none
  | some descriptor =>
    match env.parseConfigurationDescriptorEx descriptor (interface 0).interfaceNumber
        (interface 0).alternateSetting with
    | none => none
    | some intDescriptor =>
      some (analyzeControlTransfer root irp urb post env data (wrapSelectInterface intDescriptor))

/-- The second `switch`: the URB's own records. -/
def analyzeFiltered : DeviceData × List PayloadWrite :=
  match urb.body with
  | .selectConfiguration descriptor _ =>
    (data, [analyzeControlTransfer root irp urb post env data (wrapSelectConfiguration descriptor)])
  | .selectInterface interface =>
    (data, (analyzeSelectInterface root irp urb post env data interface).toList)
  | .controlTransfer transfer | .controlTransferEx transfer =>
    (data, [analyzeControlTransfer root irp urb post env data transfer])
  | .descriptorRequest function request =>
    (data, [analyzeControlTransfer root irp urb post env data
      (wrapDescriptorRequest function request)])
  | .getStatusRequest function request =>
    (data, [analyzeControlTransfer root irp urb post env data
      (wrapGetStatusRequest function request)])
  | .vendorOrClassRequest function request =>
    (data, [analyzeControlTransfer root irp urb post env data
      (wrapVendorOrClassRequest function request)])
  | .bulkOrInterruptTransfer transfer =>
    (data, [analyzeBulkOrInterruptTransfer root irp urb post env data transfer])
  | .isochTransfer transfer =>
    (data, (analyzeIsochTransfer root irp urb post env data transfer).toList)
  | .pipeRequest _ pipeHandle => (data, [analyzePipeRequest root irp urb post env data pipeHandle])
  | .getCurrentFrameNumber frameNumber =>
    (data, [analyzeGetCurrentFrameNumber root irp urb post env data frameNumber])
  | .unknown _ _ => analyzeUnknown root irp urb post env data

/-- `USBPcapAnalyzeURB` -/
def analyzeUrb : Analysis :=
  let (unknownUrbSubmitInfo, data) := if post then obtainUrbIrpInfo data irp else (none, data)
  let (data, copies) := analyzeAlways urb post env data
  if isDeviceFiltered root.filter data.deviceAddress.toNat = false then ⟨data, copies, []⟩
  else
    let (data, writes) := analyzeFiltered root irp urb post env data
    ⟨data, copies, (unknownUrbSubmitInfo.map (submissionWrite irp)).toList ++ writes⟩

/-! ## The records of a call -/

/-- The records of an isochronous transfer: without a payload, with the buffer on its way out, and
with the packets that have come back, if the allocations succeed and the buffer is long enough. -/
inductive IsochWrite (transfer : IsochTransfer) : PayloadWrite → Prop where
  | empty (few : ¬ 1024 < transfer.numberOfPackets) :
    IsochWrite transfer (writeTimestampedPacket env.now
      (isochHeader root irp urb post data transfer 0 transfer.packets few transfer.length_packets)
      .null)
  | outgoing (few : ¬ 1024 < transfer.numberOfPackets) :
    IsochWrite transfer (writeTimestampedPacket env.now
      (isochHeader root irp urb post data transfer transfer.transferBufferLength transfer.packets
        few transfer.length_packets)
      (.ofPointer transfer.pointer))
  | compacted (few : ¬ 1024 < transfer.numberOfPackets) (hpost : post = true)
    (hheader : env.isochHeaderPool = true) (hlength : transfer.transferBufferLength ≠ 0)
    (hin : transfer.transferFlags &&& usbdTransferDirectionIn = usbdTransferDirectionIn)
    (hsum : ¬ transfer.transferBufferLength < compactedLength transfer.packets)
    (hentries : env.isochEntriesPool = true) :
    IsochWrite transfer
      { timestamp := env.now
        header := isochHeader root irp urb post data transfer
          (compactedLength transfer.packets) (compactPackets 0 transfer.packets) few
          ((length_compactPackets _ _).trans transfer.length_packets)
        payload := compactedPayloadEntries transfer.pointer transfer.packets }

theorem analyzeIsochTransfer_cases {transfer : IsochTransfer} {w : PayloadWrite}
    (h : analyzeIsochTransfer root irp urb post env data transfer = some w) :
    IsochWrite root irp urb post env data transfer w := by
  unfold analyzeIsochTransfer at h
  split at h
  · cases h
  rename_i few
  split at h
  · cases h
  rename_i hheader
  dsimp only at h
  split at h
  · obtain rfl := Option.some.inj h
    exact .empty few
  rename_i hlength
  split at h
  · rename_i hin
    split at h
    · cases h
    rename_i hsum
    split at h
    · cases h
    rename_i hentries
    obtain rfl := Option.some.inj h
    rw [Bool.not_eq_false] at hheader hentries
    exact .compacted few hin.2 hheader hlength hin.1 hsum hentries
  · split at h
    · obtain rfl := Option.some.inj h
      exact .outgoing few
    · obtain rfl := Option.some.inj h
      exact .empty few

/-- The records that the second `switch` writes. -/
inductive Logged : PayloadWrite → Prop where
  | control (hknown : ¬ urb.isUnknown) (transfer : ControlTransfer) :
    Logged (analyzeControlTransfer root irp urb post env data transfer)
  | bulkOrInterrupt (hknown : ¬ urb.isUnknown) (transfer : BulkOrInterruptTransfer) :
    Logged (analyzeBulkOrInterruptTransfer root irp urb post env data transfer)
  | isoch (hknown : ¬ urb.isUnknown) {transfer : IsochTransfer} {w : PayloadWrite}
    (hbody : urb.body = .isochTransfer transfer)
    (hw : IsochWrite root irp urb post env data transfer w) : Logged w
  | pipe (hknown : ¬ urb.isUnknown) (pipeHandle : PipeHandle) :
    Logged (analyzePipeRequest root irp urb post env data pipeHandle)
  | currentFrameNumber (hknown : ¬ urb.isUnknown) (frameNumber : UInt32) :
    Logged (analyzeGetCurrentFrameNumber root irp urb post env data frameNumber)
  | unknown (hpost : post = true) :
    Logged (writeTimestampedPacket env.now
      (packetHeader root irp urb post data.deviceAddress 0 transferUnknown 0) .null)

theorem analyzeFiltered_cases {w : PayloadWrite}
    (h : w ∈ (analyzeFiltered root irp urb post env data).2) :
    Logged root irp urb post env data w := by
  have hknown (hbody : ∀ function other, urb.body ≠ .unknown function other) :
      ¬ urb.isUnknown := by
    intro hunknown
    obtain ⟨function, other, heq⟩ := urb.isUnknown_iff.mp hunknown
    exact hbody function other heq
  unfold analyzeFiltered at h
  split at h
  case h_2 interface hbody =>
    rw [Option.mem_toList] at h
    unfold analyzeSelectInterface at h
    split at h
    · cases h
    · split at h
      · cases h
      · obtain rfl := Option.some.inj h
        exact .control (hknown (by simp [hbody])) _
  case h_8 transfer hbody =>
    obtain rfl := List.mem_singleton.mp h
    exact .bulkOrInterrupt (hknown (by simp [hbody])) transfer
  case h_9 transfer hbody =>
    rw [Option.mem_toList] at h
    exact .isoch (hknown (by simp [hbody])) hbody (analyzeIsochTransfer_cases _ _ _ _ _ _ h)
  case h_10 function pipeHandle hbody =>
    obtain rfl := List.mem_singleton.mp h
    exact .pipe (hknown (by simp [hbody])) pipeHandle
  case h_11 frameNumber hbody =>
    obtain rfl := List.mem_singleton.mp h
    exact .currentFrameNumber (hknown (by simp [hbody])) frameNumber
  case h_12 function other hbody =>
    unfold analyzeUnknown at h
    split at h
    · cases h
    · rename_i hpost
      obtain rfl := List.mem_singleton.mp h
      exact .unknown (Bool.eq_true_of_not_eq_false hpost)
  -- the control transfers
  all_goals
    rename_i hbody
    obtain rfl := List.mem_singleton.mp h
    exact .control (hknown (by simp [hbody])) _

/-- What a call writes is the saved record of its IRP or a record of its URB. -/
theorem writes_cases {w : PayloadWrite} (h : w ∈ (analyzeUrb root irp urb post env data).writes) :
    (∃ info, w = submissionWrite irp info) ∨
      ∃ d, w ∈ (analyzeFiltered root irp urb post env d).2 := by
  unfold analyzeUrb at h
  generalize (if post = true then obtainUrbIrpInfo data irp else (none, data)) = r at h
  obtain ⟨info, d⟩ := r
  dsimp only at h
  by_cases hfiltered :
      isDeviceFiltered root.filter (analyzeAlways urb post env d).1.deviceAddress.toNat = false
  · rw [if_pos hfiltered] at h
    cases h
  · rw [if_neg hfiltered] at h
    rcases List.mem_append.mp h with hsaved | hown
    · obtain ⟨i, -, rfl⟩ := Option.map_eq_some_iff.mp (Option.mem_toList.mp hsaved)
      exact Or.inl ⟨i, rfl⟩
    · exact Or.inr ⟨_, hown⟩

/-- The record of what was saved for the IRP of a call, if there is one. -/
def savedWrites : List PayloadWrite :=
  if post then ((data.urbIrpTable irp).map (submissionWrite irp)).toList else []

/-- What the second `switch` writes does not depend on the saved information. -/
theorem analyzeFiltered_writes_congr (table : Pirp → Option UrbIrpInfo) :
    (analyzeFiltered root irp urb post env { data with urbIrpTable := table }).2 =
      (analyzeFiltered root irp urb post env data).2 := by
  unfold analyzeFiltered
  split
  case h_12 =>
    unfold analyzeUnknown
    split <;> rfl
  all_goals rfl

/-- A call with a filtered device and a URB that selects nothing: what was saved for the IRP, and
then the URB's own records. -/
theorem writes_eq (hfiltered : isDeviceFiltered root.filter data.deviceAddress.toNat = true)
    (hselect : ∀ d, analyzeAlways urb post env d = (d, [])) :
    (analyzeUrb root irp urb post env data).writes =
      savedWrites irp post data ++ (analyzeFiltered root irp urb post env data).2 := by
  unfold analyzeUrb savedWrites
  cases post with
  | false => simp [hselect, hfiltered]
  | true => simp [obtainUrbIrpInfo_eq, hselect, hfiltered, analyzeFiltered_writes_congr]

/-- The length that `USBPcapAnalyzeControlTransfer` takes from the transfer. -/
theorem dataBufferLength_eq (length : UInt32) : (if length ≠ 0 then length else 0) = length := by
  split
  · rfl
  · rename_i hzero
    exact (not_not.mp hzero).symm

end

end UsbPcap.Driver
