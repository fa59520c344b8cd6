import UsbPcap.Driver.Isochronous

/-!
# Directions

Every transfer passes `USBPcapAnalyzeURB` twice, and its data is to be in one of the two records:
on the way out when the host sends it, on the way back when the device does. Each family of URBs
takes the direction from somewhere else. `recorded_once` says that they all agree.
-/

namespace UsbPcap.Driver

open Format

/-! ## Transfers by family -/

/-- A URB that transfers data; those of the control family are wrapped. -/
inductive DataTransfer where
  | control (transfer : ControlTransfer)
  | bulkOrInterrupt (transfer : BulkOrInterruptTransfer)
  | isoch (transfer : IsochTransfer)

namespace DataTransfer

/-- The buffer of the transfer. -/
def buffer : DataTransfer → TransferBuffer
  | control transfer => transfer.toTransferBuffer
  | bulkOrInterrupt transfer => transfer.toTransferBuffer
  | isoch transfer => transfer.toTransferBuffer

/-- The pipe handle; requests to the default pipe have none. -/
def pipeHandle : DataTransfer → PipeHandle
  | control transfer => transfer.pipeHandle
  | bulkOrInterrupt transfer => transfer.pipeHandle
  | isoch transfer => transfer.pipeHandle

/-- The flags that a direction is read from. -/
def transferFlags : DataTransfer → UInt32
  | control transfer => transfer.transferFlags
  | bulkOrInterrupt _ => 0
  | isoch transfer => transfer.transferFlags

/-- The direction as the driver derives it, from the flags or from the recorded endpoint. -/
def toHost (data : DeviceData) : DataTransfer → Bool
  | control transfer => fromDevice transfer.transferFlags
  | bulkOrInterrupt transfer => (bulkEndpoint data transfer.pipeHandle).2.1 &&& 0x80 ≠ 0
  | isoch transfer =>
    transfer.transferFlags &&& usbdTransferDirectionIn = usbdTransferDirectionIn

/-- The setup packet, which stands in front of the data on the way out. -/
def setup : DataTransfer → List UInt8
  | control transfer => transfer.setupPacket.1
  | _ => []

/-- The transfer buffer's bytes; those of an isochronous IN transfer are compacted. -/
def bytes (b : List UInt8) : DataTransfer → List UInt8
  | isoch transfer =>
    if transfer.transferFlags &&& usbdTransferDirectionIn = usbdTransferDirectionIn then
      (packetSlices b transfer.packets).flatten
    else b.take transfer.transferBufferLength.toNat
  | control transfer => b.take transfer.transferBufferLength.toNat
  | bulkOrInterrupt transfer => b.take transfer.transferBufferLength.toNat

/-- What the record of a call carries: the setup packet on the way out, and the buffer's bytes if
this is the way that the data goes. -/
def payload (data : DeviceData) (b : List UInt8) (post : Bool) (d : DataTransfer) : List UInt8 :=
  (if post then [] else d.setup) ++ if d.toHost data = post then d.bytes b else []

/-- The transfer has a length that is not zero and a mapped buffer, which starts with `b`. An
isochronous one has at most 1024 packets; on its way back from the device, they lie in the buffer,
and their lengths add up to a number that is not zero and at most the transfer's length. -/
structure Mapped (post : Bool) (b : List UInt8) (d : DataTransfer) : Prop where
  pointer : d.buffer.pointer = some b
  length_ne_zero : d.buffer.transferBufferLength ≠ 0
  few : ∀ transfer, d = isoch transfer → transfer.numberOfPackets ≤ 1024
  sum_ne_zero : ∀ transfer, d = isoch transfer → post = true → exactLength transfer.packets ≠ 0
  sum_le : ∀ transfer, d = isoch transfer → post = true →
    exactLength transfer.packets ≤ transfer.transferBufferLength.toNat
  inside : ∀ transfer, d = isoch transfer → post = true →
    ∀ q ∈ transfer.packets, q.Inside transfer.toTransferBuffer

end DataTransfer

/-! ## The same transfer at both points -/

section

variable (root : RootData) (irp : Pirp) (urb : Urb) (post : Bool) (env : Surroundings)
  (data : DeviceData)

/-- What the second `switch` does with a transfer. -/
def DataTransfer.write : DataTransfer → Option PayloadWrite
  | control transfer => some (analyzeControlTransfer root irp urb post env data transfer)
  | bulkOrInterrupt transfer =>
    some (analyzeBulkOrInterruptTransfer root irp urb post env data transfer)
  | isoch transfer => analyzeIsochTransfer root irp urb post env data transfer

end

/-! ## Both records -/

/-- There is room for the packet with these bytes, and the snaplen does not cut it. -/
structure Packet.Fits (k : Packet) (bytes : List UInt8) (p : RootHubData) : Prop where
  ring : RingOk p
  snaplen : k.header.memory.length + bytes.length ≤ p.snaplen.toNat
  room : 16 + (k.header.memory.length + bytes.length) ≤ getBufferFree p

end UsbPcap.Driver
