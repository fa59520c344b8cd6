import UsbPcap.Driver.Stream
import UsbPcap.Driver.Filter

/-!
# URBs and the tables of a device

The URBs that `USBPcapURB.c` looks at, as far as it reads them, and the part of
`USBPCAP_DEVICE_DATA` that it uses, with the two tables of `USBPcapTables.c`. Sizes and offsets are
those of the 64-bit structures.
-/

namespace UsbPcap.Driver

open Memory Format

/-- `PIRP` -/
abbrev Pirp : Type := UInt64

/-- `USBD_PIPE_HANDLE`; `NULL` is 0. -/
abbrev PipeHandle : Type := UInt64

/-- `USBD_PIPE_TYPE` -/
inductive PipeType where
  | control
  | isochronous
  | bulk
  | interrupt
deriving DecidableEq, Repr

/-- `USBD_TRANSFER_DIRECTION_IN` -/
def usbdTransferDirectionIn : UInt32 := 1

/-- `USBD_TRANSFER_DIRECTION_OUT` -/
def usbdTransferDirectionOut : UInt32 := 0

/-- `USBD_DEFAULT_PIPE_TRANSFER` -/
def usbdDefaultPipeTransfer : UInt32 := 8

/-! ## Transfers -/

/-- A buffer in memory that has at least `n` bytes. -/
abbrev Mapped (n : ℕ) : Type := {b : List UInt8 // n ≤ b.length}

/-- How a URB describes its buffer. An MDL is given by what `MmGetSystemAddressForMdlSafe` returns
for it in the call at hand. The buffer can be longer than the length says: on its way back, an
isochronous transfer has the number of bytes received there. -/
structure TransferBuffer where
  transferBufferLength : UInt32
  transferBuffer : Option (Mapped transferBufferLength.toNat)
  transferBufferMDL : Option (Option (Mapped transferBufferLength.toNat))

/-- No data stage. -/
def TransferBuffer.none : TransferBuffer where
  transferBufferLength := 0
  transferBuffer := .none
  transferBufferMDL := .none

/-- `USBPcapURBGetBufferPointer` on the buffer of a URB. -/
def TransferBuffer.pointer (t : TransferBuffer) : Option (List UInt8) :=
  urbGetBufferPointer t.transferBufferLength (t.transferBuffer.map Subtype.val)
    (t.transferBufferMDL.map (Option.map Subtype.val))

/-- What is mapped is as long as the URB says. -/
theorem TransferBuffer.le_length_of_pointer {t : TransferBuffer} {b : List UInt8}
    (h : t.pointer = some b) : t.transferBufferLength.toNat ≤ b.length := by
  unfold TransferBuffer.pointer urbGetBufferPointer at h
  split at h
  · cases h
  · split at h
    · rename_i c hc
      obtain rfl := Option.some.inj h
      obtain ⟨m, -, rfl⟩ := Option.map_eq_some_iff.mp hc
      exact m.2
    · rename_i haddress
      rw [h] at haddress
      obtain ⟨m, -, hm⟩ := Option.map_eq_some_iff.mp haddress
      obtain ⟨m', -, rfl⟩ := Option.map_eq_some_iff.mp hm
      exact m'.2
    · cases h

/-- `_URB_CONTROL_TRANSFER` and `_URB_CONTROL_TRANSFER_EX` -/
structure ControlTransfer extends TransferBuffer where
  pipeHandle : PipeHandle
  transferFlags : UInt32
  setupPacket : Block 8

/-- `_URB_CONTROL_DESCRIPTOR_REQUEST` -/
structure DescriptorRequest extends TransferBuffer where
  index : UInt8
  descriptorType : UInt8
  languageId : UInt16

/-- `_URB_CONTROL_GET_STATUS_REQUEST` -/
structure GetStatusRequest extends TransferBuffer where
  index : UInt16

/-- `_URB_CONTROL_VENDOR_OR_CLASS_REQUEST` -/
structure VendorOrClassRequest extends TransferBuffer where
  transferFlags : UInt32
  request : UInt8
  value : UInt16
  index : UInt16

/-- `_URB_BULK_OR_INTERRUPT_TRANSFER` -/
structure BulkOrInterruptTransfer extends TransferBuffer where
  pipeHandle : PipeHandle

/-- `USBD_ISO_PACKET_DESCRIPTOR`, and `USBPCAP_BUFFER_ISO_PACKET` likewise. -/
structure IsoPacket where
  offset : UInt32
  length : UInt32
  status : UInt32
deriving DecidableEq, Repr

/-- `_URB_ISOCH_TRANSFER` -/
structure IsochTransfer extends TransferBuffer where
  pipeHandle : PipeHandle
  transferFlags : UInt32
  startFrame : UInt32
  numberOfPackets : UInt32
  errorCount : UInt32
  isoPacket : ℕ → IsoPacket

/-! ## Configurations and interfaces -/

/-- `USBD_PIPE_INFORMATION` -/
structure PipeInformation where
  endpointAddress : UInt8
  pipeType : PipeType
  pipeHandle : PipeHandle
deriving DecidableEq, Repr

/-- `USBD_INTERFACE_INFORMATION` -/
structure InterfaceInformation where
  length : UInt16
  interfaceNumber : UInt8
  alternateSetting : UInt8
  numberOfPipes : UInt32
  pipes : ℕ → PipeInformation

/-- `sizeof(USBD_INTERFACE_INFORMATION)` -/
def sizeofInterfaceInformation : ℕ := 48

/-- `sizeof(USBD_PIPE_INFORMATION)` -/
def sizeofPipeInformation : ℕ := 24

/-- `offsetof(struct _URB_SELECT_CONFIGURATION, Interface)` -/
def offsetofSelectConfigurationInterface : ℕ := 40

/-- `offsetof(struct _URB_SELECT_INTERFACE, Interface)` -/
def offsetofSelectInterfaceInterface : ℕ := 32

/-- `USB_CONFIGURATION_DESCRIPTOR`, with all the `wTotalLength` bytes that it stands in front of. -/
structure ConfigurationDescriptor where
  bytes : List UInt8
  covered : field 2 2 bytes ≤ bytes.length

/-- `wTotalLength` -/
def ConfigurationDescriptor.totalLength (d : ConfigurationDescriptor) : ℕ := field 2 2 d.bytes

/-- `bConfigurationValue` -/
def ConfigurationDescriptor.configurationValue (d : ConfigurationDescriptor) : UInt8 :=
  .ofNat (field 5 1 d.bytes)

/-- The fields of `USB_INTERFACE_DESCRIPTOR` that are read. -/
structure InterfaceDescriptor where
  interfaceNumber : UInt8
  alternateSetting : UInt8
deriving DecidableEq, Repr

/-! ## URBs -/

/-- `URB_FUNCTION_GET_DESCRIPTOR_FROM_XXX` and `URB_FUNCTION_SET_DESCRIPTOR_TO_XXX` -/
inductive DescriptorFunction where
  | getDescriptorFromDevice
  | getDescriptorFromEndpoint
  | getDescriptorFromInterface
  | setDescriptorToDevice
  | setDescriptorToEndpoint
  | setDescriptorToInterface
deriving DecidableEq, Repr

/-- The function code. -/
def DescriptorFunction.code : DescriptorFunction → UInt16
  | .getDescriptorFromDevice => 0x000B
  | .getDescriptorFromEndpoint => 0x0024
  | .getDescriptorFromInterface => 0x0028
  | .setDescriptorToDevice => 0x000C
  | .setDescriptorToEndpoint => 0x0025
  | .setDescriptorToInterface => 0x0029

/-- `URB_FUNCTION_GET_STATUS_FROM_XXX` -/
inductive StatusFunction where
  | getStatusFromDevice
  | getStatusFromInterface
  | getStatusFromEndpoint
  | getStatusFromOther
deriving DecidableEq, Repr

/-- The function code. -/
def StatusFunction.code : StatusFunction → UInt16
  | .getStatusFromDevice => 0x0013
  | .getStatusFromInterface => 0x0014
  | .getStatusFromEndpoint => 0x0015
  | .getStatusFromOther => 0x0021

/-- `URB_FUNCTION_VENDOR_XXX` and `URB_FUNCTION_CLASS_XXX` -/
inductive VendorOrClassFunction where
  | vendorDevice
  | vendorInterface
  | vendorEndpoint
  | vendorOther
  | classDevice
  | classInterface
  | classEndpoint
  | classOther
deriving DecidableEq, Repr

/-- The function code. -/
def VendorOrClassFunction.code : VendorOrClassFunction → UInt16
  | .vendorDevice => 0x0017
  | .vendorInterface => 0x0018
  | .vendorEndpoint => 0x0019
  | .vendorOther => 0x0020
  | .classDevice => 0x001A
  | .classInterface => 0x001B
  | .classEndpoint => 0x001C
  | .classOther => 0x001F

/-- The functions of `_URB_PIPE_REQUEST`; `URB_FUNCTION_CLOSE_STATIC_STREAMS` is known from
Windows 8 on. -/
inductive PipeFunction where
  | syncResetPipeAndClearStall
  | syncResetPipe
  | syncClearStall
  | abortPipe
  | closeStaticStreams
deriving DecidableEq, Repr

/-- The function code. -/
def PipeFunction.code : PipeFunction → UInt16
  | .syncResetPipeAndClearStall => 0x001E
  | .syncResetPipe => 0x0030
  | .syncClearStall => 0x0031
  | .abortPipe => 0x0002
  | .closeStaticStreams => 0x0036

/-- The function codes that `USBPcapAnalyzeURB` has a case for. -/
def knownFunctions : List UInt16 :=
  [0x0000, 0x0001, 0x0002, 0x0007, 0x0008, 0x0009, 0x000A, 0x000B, 0x000C, 0x0013, 0x0014, 0x0015,
    0x0017, 0x0018, 0x0019, 0x001A, 0x001B, 0x001C, 0x001E, 0x001F, 0x0020, 0x0021, 0x0024, 0x0025,
    0x0028, 0x0029, 0x0030, 0x0031, 0x0032, 0x0036]

/-- A URB behind its header, by its function. The interface information of a select URB is given by
what stands at each offset from `Interface` on. -/
inductive UrbBody where
  | selectConfiguration (configurationDescriptor : Option ConfigurationDescriptor)
    (interface : ℕ → InterfaceInformation)
  | selectInterface (interface : ℕ → InterfaceInformation)
  | controlTransfer (transfer : ControlTransfer)
  | controlTransferEx (transfer : ControlTransfer)
  | descriptorRequest (function : DescriptorFunction) (request : DescriptorRequest)
  | getStatusRequest (function : StatusFunction) (request : GetStatusRequest)
  | vendorOrClassRequest (function : VendorOrClassFunction) (request : VendorOrClassRequest)
  | bulkOrInterruptTransfer (transfer : BulkOrInterruptTransfer)
  | isochTransfer (transfer : IsochTransfer)
  | pipeRequest (function : PipeFunction) (pipeHandle : PipeHandle)
  | getCurrentFrameNumber (frameNumber : UInt32)
  | unknown (function : UInt16) (other : function ∉ knownFunctions)

/-- `URB`: the fields of its header that are read, and what follows. -/
structure Urb where
  length : UInt16
  status : UInt32
  body : UrbBody

/-- `header->Function` -/
def Urb.function (urb : Urb) : UInt16 :=
  match urb.body with
  | .selectConfiguration _ _ => 0x0000
  | .selectInterface _ => 0x0001
  | .controlTransfer _ => 0x0008
  | .controlTransferEx _ => 0x0032
  | .descriptorRequest function _ => function.code
  | .getStatusRequest function _ => function.code
  | .vendorOrClassRequest function _ => function.code
  | .bulkOrInterruptTransfer _ => 0x0009
  | .isochTransfer _ => 0x000A
  | .pipeRequest function _ => function.code
  | .getCurrentFrameNumber _ => 0x0007
  | .unknown function _ => function

/-- The URB has a function that `USBPcapAnalyzeURB` does not know. -/
def Urb.isUnknown (urb : Urb) : Prop := urb.function ∉ knownFunctions

instance : DecidablePred Urb.isUnknown := fun _ => inferInstanceAs (Decidable (¬ _))

theorem DescriptorFunction.code_mem (f : DescriptorFunction) : f.code ∈ knownFunctions := by
  cases f <;> decide

theorem StatusFunction.code_mem (f : StatusFunction) : f.code ∈ knownFunctions := by
  cases f <;> decide

theorem VendorOrClassFunction.code_mem (f : VendorOrClassFunction) : f.code ∈ knownFunctions := by
  cases f <;> decide

theorem PipeFunction.code_mem (f : PipeFunction) : f.code ∈ knownFunctions := by
  cases f <;> decide

/-- Only the body for unknown functions has one. -/
theorem Urb.isUnknown_iff (urb : Urb) :
    urb.isUnknown ↔ ∃ function other, urb.body = .unknown function other := by
  unfold Urb.isUnknown Urb.function
  constructor
  · intro h
    cases hbody : urb.body with
    | unknown function other => exact ⟨function, other, rfl⟩
    | descriptorRequest f _ => exact absurd f.code_mem (by rwa [hbody] at h)
    | getStatusRequest f _ => exact absurd f.code_mem (by rwa [hbody] at h)
    | vendorOrClassRequest f _ => exact absurd f.code_mem (by rwa [hbody] at h)
    | pipeRequest f _ => exact absurd f.code_mem (by rwa [hbody] at h)
    | _ =>
      rw [hbody] at h
      simp [knownFunctions] at h
  · rintro ⟨function, other, hbody⟩
    rw [hbody]
    exact other

/-! ## The tables -/

/-- `USBPCAP_ENDPOINT_INFO`, under its handle. -/
structure EndpointInfo where
  type : PipeType
  endpointAddress : UInt8
  deviceAddress : UInt16
deriving DecidableEq, Repr

/-- `USBPCAP_URB_IRP_INFO`, under its IRP. -/
structure UrbIrpInfo where
  timestamp : ℤ
  status : UInt32
  function : UInt16
  info : UInt8
  bus : UInt16
  device : UInt16
deriving DecidableEq, Repr

/-- The fields of `USBPCAP_DEVICE_DATA` that the analysis of URBs uses; the tables are there. -/
structure DeviceData where
  deviceAddress : UInt16
  endpointTable : PipeHandle → Option EndpointInfo
  urbIrpTable : Pirp → Option UrbIrpInfo
  descriptor : Option (List UInt8)

/-- `USBPcapAddEndpointInfo`; `allocated` says whether a new element can be allocated. -/
def addEndpointInfo (table : PipeHandle → Option EndpointInfo) (pipeInfo : PipeInformation)
    (deviceAddress : UInt16) (allocated : Bool) : PipeHandle → Option EndpointInfo :=
  let info : EndpointInfo := ⟨pipeInfo.pipeType, pipeInfo.endpointAddress, deviceAddress⟩
  match table pipeInfo.pipeHandle with
  | some _ => Function.update table pipeInfo.pipeHandle (some info)
  | none => if allocated then Function.update table pipeInfo.pipeHandle (some info) else table

/-- `USBPcapRetrieveEndpointInfo` -/
def retrieveEndpointInfo (data : DeviceData) (handle : PipeHandle) : Option EndpointInfo :=
  data.endpointTable handle

/-- `USBPcapAddURBIRPInfo`; an element that is there already stays. -/
def addUrbIrpInfo (table : Pirp → Option UrbIrpInfo) (irp : Pirp) (irpInfo : UrbIrpInfo)
    (allocated : Bool) : Pirp → Option UrbIrpInfo :=
  match table irp with
  | some _ => table
  | none => if allocated then Function.update table irp (some irpInfo) else table

/-- `USBPcapObtainURBIRPInfo`: the information, if there is any, which is removed. -/
def obtainUrbIrpInfo (data : DeviceData) (irp : Pirp) : Option UrbIrpInfo × DeviceData :=
  match data.urbIrpTable irp with
  | none => (none, data)
  | some info => (some info, { data with urbIrpTable := Function.update data.urbIrpTable irp none })

/-! ## Interface information -/

/-- `required_length`, a 32-bit number. -/
def requiredLength (numberOfPipes : UInt32) : UInt32 :=
  .ofNat (sizeofInterfaceInformation + (numberOfPipes - 1).toNat * sizeofPipeInformation)

/-- The loop over the pipes of interface number `i`. -/
def addPipes (data : DeviceData) (interface : InterfaceInformation) (allocated : ℕ → Bool) :
    DeviceData :=
  (List.range interface.numberOfPipes.toNat).foldl (fun data j =>
    { data with
      endpointTable :=
        addEndpointInfo data.endpointTable (interface.pipes j) data.deviceAddress (allocated j) })
    data

/-- `USBPcapParseInterfaceInformation` from interface number `i` on, which stands at `offset`. -/
def parseInterfaceInformation (data : DeviceData) (interface : ℕ → InterfaceInformation)
    (allocated : ℕ → ℕ → Bool) (i offset interfacesLen : ℕ) : DeviceData :=
  let length := (interface offset).length.toNat
  if _h : interfacesLen = 0 ∨ length = 0 then data
  else if interfacesLen < sizeofInterfaceInformation then data
  else if interfacesLen < length then data
  else if 1 < (interface offset).numberOfPipes ∧
      interfacesLen < (requiredLength (interface offset).numberOfPipes).toNat then data
  else
    parseInterfaceInformation (addPipes data (interface offset) (allocated i)) interface allocated
      (i + 1) (offset + length) (interfacesLen - length)
termination_by interfacesLen
decreasing_by omega

/-! ## What the tables keep -/

theorem obtainUrbIrpInfo_eq (data : DeviceData) (irp : Pirp) :
    obtainUrbIrpInfo data irp =
      (data.urbIrpTable irp,
        { data with urbIrpTable := Function.update data.urbIrpTable irp none }) := by
  unfold obtainUrbIrpInfo
  split
  · rename_i h
    rw [h, ← h, Function.update_eq_self]
  · rename_i info h
    rw [h]

theorem obtainUrbIrpInfo_fst (data : DeviceData) (irp : Pirp) :
    (obtainUrbIrpInfo data irp).1 = data.urbIrpTable irp := by
  rw [obtainUrbIrpInfo_eq]

/-- Afterwards the table has no entry for the IRP, and the other ones are as before. -/
theorem obtainUrbIrpInfo_urbIrpTable (data : DeviceData) (irp : Pirp) :
    (obtainUrbIrpInfo data irp).2.urbIrpTable = Function.update data.urbIrpTable irp none := by
  rw [obtainUrbIrpInfo_eq]

theorem addPipes_urbIrpTable (data : DeviceData) (interface : InterfaceInformation)
    (allocated : ℕ → Bool) :
    (addPipes data interface allocated).urbIrpTable = data.urbIrpTable ∧
      (addPipes data interface allocated).deviceAddress = data.deviceAddress := by
  unfold addPipes
  generalize List.range interface.numberOfPipes.toNat = js
  induction js generalizing data with
  | nil => exact ⟨rfl, rfl⟩
  | cons j js ih => exact ih _

/-- Parsing interfaces changes only the endpoint table. -/
theorem parseInterfaceInformation_urbIrpTable (data : DeviceData)
    (interface : ℕ → InterfaceInformation) (allocated : ℕ → ℕ → Bool) (i offset interfacesLen : ℕ) :
    (parseInterfaceInformation data interface allocated i offset interfacesLen).urbIrpTable =
        data.urbIrpTable ∧
      (parseInterfaceInformation data interface allocated i offset interfacesLen).deviceAddress =
        data.deviceAddress := by
  fun_induction parseInterfaceInformation data interface allocated i offset interfacesLen with
  | case1 | case2 | case3 | case4 => exact ⟨rfl, rfl⟩
  | case5 data i offset interfacesLen length _ _ _ _ ih =>
    rw [ih.1, ih.2]
    exact addPipes_urbIrpTable ..

end UsbPcap.Driver
