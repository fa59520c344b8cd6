import UsbPcap.Lib.Memory
import UsbPcap.Format.Pcap

/-!
# The capture buffer of the driver

The functions of `USBPcapBuffer.c` on the part of `USBPCAP_ROOTHUB_DATA` that `bufferLock` protects.
A pool block is the list of its bytes; `NULL` is `none`. Offsets, sizes and counts are natural
numbers: a buffer has at most 134217728 bytes, so none of the 32-bit sums on them wraps. The one sum
that can, `headerLen + dataLength`, is taken in `UInt32`.
-/

namespace UsbPcap.Driver

open Memory Format

/-- The `NTSTATUS` codes that the modelled functions return. -/
inductive NtStatus where
  | success
  | invalidParameter
  | insufficientResources
  | bufferTooSmall
  | unsuccessful
deriving DecidableEq, Repr

/-- The fields of `USBPCAP_ROOTHUB_DATA` that `bufferLock` protects. -/
structure RootHubData where
  buffer : Option (List UInt8)
  bufferSize : ℕ
  readOffset : ℕ
  writeOffset : ℕ
  snaplen : UInt32
deriving DecidableEq, Repr

/-- A pool block of `n` bytes, with whatever bytes the allocator left in it. -/
abbrev Block (n : ℕ) : Type := {b : List UInt8 // b.length = n}

/-! ## Free and allocated space -/

/-- `USBPcapGetBufferFree` -/
def getBufferFree (p : RootHubData) : ℕ :=
  if p.buffer = none then 0
  else if p.readOffset = p.writeOffset then p.bufferSize - 1
  else if p.writeOffset < p.readOffset then p.readOffset - p.writeOffset - 1
  else p.bufferSize - p.writeOffset + p.readOffset - 1

/-- `USBPcapGetBufferAllocated` -/
def getBufferAllocated (p : RootHubData) : ℕ :=
  if p.readOffset = p.writeOffset then 0
  else if p.writeOffset < p.readOffset then p.bufferSize - p.readOffset + p.writeOffset
  else p.writeOffset - p.readOffset

/-! ## Writing and reading bytes -/

/-- `USBPcapBufferWriteUnsafe`; `data` stands for the `length` bytes at `data`. -/
def bufferWriteUnsafe (p : RootHubData) (data : List UInt8) : RootHubData :=
  let buffer := p.buffer.getD []
  if data.length ≤ p.bufferSize - p.writeOffset then
    { p with
      buffer := some (copyInto buffer p.writeOffset data)
      writeOffset := (p.writeOffset + data.length) % p.bufferSize }
  else
    let tmp := p.bufferSize - p.writeOffset
    { p with
      buffer := some (copyInto (copyInto buffer p.writeOffset (data.take tmp)) 0 (data.drop tmp))
      writeOffset := data.length - tmp }

/-- `USBPcapBufferWrite` -/
def bufferWrite (p : RootHubData) (data : List UInt8) : NtStatus × RootHubData :=
  if data.length = 0 then (.invalidParameter, p)
  else if getBufferFree p < data.length then (.insufficientResources, p)
  else (.success, bufferWriteUnsafe p data)

/-- `USBPcapBufferRead`: the bytes put into the destination buffer and the new state. -/
def bufferRead (p : RootHubData) (destBufferSize : ℕ) : List UInt8 × RootHubData :=
  let srcBuffer := p.buffer.getD []
  let available := getBufferAllocated p
  if available = 0 ∨ destBufferSize = 0 then ([], p)
  else
    let toRead := if destBufferSize < available then destBufferSize else available
    if p.readOffset < p.writeOffset then
      ((srcBuffer.drop p.readOffset).take toRead,
        { p with readOffset := (p.readOffset + toRead) % p.bufferSize })
    else
      let tmp := p.bufferSize - p.readOffset
      if toRead ≤ tmp then
        ((srcBuffer.drop p.readOffset).take toRead,
          { p with readOffset := (p.readOffset + toRead) % p.bufferSize })
      else
        ((srcBuffer.drop p.readOffset).take tmp ++ srcBuffer.take (toRead - tmp),
          { p with readOffset := toRead - tmp })

/-! ## Creating, resizing, resetting and removing the buffer -/

/-- The global header that `USBPcapWriteGlobalHeader` builds. -/
def globalHeader (snaplen : UInt32) : PcapHdr where
  magicNumber := 0xA1B2C3D4
  versionMajor := 2
  versionMinor := 4
  thiszone := 0
  sigfigs := 0
  snaplen := snaplen
  network := dltUsbpcap

/-- `USBPcapWriteGlobalHeader` -/
def writeGlobalHeader (p : RootHubData) : RootHubData :=
  (bufferWrite p (globalHeader p.snaplen).bytes).2

/-- `USBPcapSetUpBuffer`; `pool` is what `ExAllocatePoolWithTag` returns for the request. -/
def setUpBuffer (p : RootHubData) (bytes : UInt32) (pool : Option (Block bytes.toNat)) :
    NtStatus × RootHubData :=
  if bytes < 4096 ∨ 134217728 < bytes then (.invalidParameter, p)
  else
    match pool with
    | none => (.insufficientResources, p)
    | some buffer =>
      if p.buffer = none then
        (.success, writeGlobalHeader
          { p with
            buffer := some buffer
            bufferSize := bytes.toNat
            readOffset := 0
            writeOffset := 0 })
      else
        let allocated := getBufferAllocated p
        if bytes.toNat ≤ allocated then (.bufferTooSmall, p)
        else
          -- the unread data is read straight into the new block, which moves `readOffset`;
          -- both offsets are set afterwards
          let (data, p) := if 0 < allocated then bufferRead p bytes.toNat else ([], p)
          (.success,
            { p with
              buffer := some (copyInto buffer 0 data)
              bufferSize := bytes.toNat
              readOffset := 0
              writeOffset := allocated })

/-- `USBPcapSetSnaplenSize` -/
def setSnaplenSize (p : RootHubData) (bytes : UInt32) : NtStatus × RootHubData :=
  if bytes = 0 then (.invalidParameter, p)
  else if p.buffer ≠ none then (.unsuccessful, p)
  else (.success, { p with snaplen := bytes })

/-- `USBPcapBufferRemoveBuffer` -/
def bufferRemoveBuffer (p : RootHubData) : RootHubData :=
  if p.buffer = none then p
  else { p with readOffset := 0, writeOffset := 0, buffer := none }

/-- `USBPcapBufferInitializeBuffer` -/
def bufferInitializeBuffer (p : RootHubData) : RootHubData :=
  if p.buffer = none then p
  else writeGlobalHeader { p with readOffset := 0, writeOffset := 0 }

/-! ## Storing packets -/

/-- A packet header in memory: the packed structure, then the bytes of the larger header it starts
(control stage, isochronous packet table). The callers allocate at least `headerLen` bytes. -/
structure PacketHeader where
  header : BufferPacketHeader
  ext : List UInt8
  covered : header.headerLen.toNat ≤ sizeofBufferPacketHeader + ext.length
deriving DecidableEq, Repr

/-- The memory behind a `PUSBPCAP_BUFFER_PACKET_HEADER`. -/
def PacketHeader.memory (h : PacketHeader) : List UInt8 := h.header.bytes ++ h.ext

theorem PacketHeader.headerLen_le (h : PacketHeader) :
    h.header.headerLen.toNat ≤ h.memory.length := by
  rw [PacketHeader.memory, List.length_append, BufferPacketHeader.length_bytes]
  exact h.covered

/-- `USBPCAP_PAYLOAD_ENTRY`; a buffer that is not `NULL` has at least `size` bytes. -/
structure PayloadEntry where
  size : UInt32
  buffer : Option (List UInt8)
  covered : ∀ b, buffer = some b → size.toNat ≤ b.length

/-- `USBPcapInitializePcapHeader` -/
def initializePcapHeader (p : RootHubData) (timestamp : ℤ) (bytes : UInt32) : PcaprecHdr where
  tsSec := UInt32.ofNat ((timestamp.tdiv 10000000 - 11644473600) % 2 ^ 32).toNat
  tsUsec := UInt32.ofNat (((timestamp.tmod 10000000).tdiv 10) % 2 ^ 32).toNat
  inclLen := if p.snaplen < bytes then p.snaplen else bytes
  origLen := bytes

/-- The sanity check's loop: what is missing of `bytesMissing` after the entries up to the first
`NULL` buffer. -/
def missingPayload : ℕ → List PayloadEntry → ℕ
  | bytesMissing, [] => bytesMissing
  | bytesMissing, e :: es =>
    if bytesMissing = 0 then 0
    else if e.buffer = none then bytesMissing
    else missingPayload (bytesMissing - min e.size.toNat bytesMissing) es

/-- The write loop over the payload entries, with `bytes` bytes left to write. -/
def writePayloadEntries : RootHubData → ℕ → List PayloadEntry → RootHubData
  | p, _, [] => p
  | p, bytes, e :: es =>
    if bytes = 0 then p
    else
      match e.buffer with
      | none => p
      | some buffer =>
        let tmp := min bytes e.size.toNat
        let p := if 0 < tmp then bufferWriteUnsafe p (buffer.take tmp) else p
        writePayloadEntries p (bytes - tmp) es

/-- `header->headerLen + header->dataLength`, a 32-bit sum. -/
def packetBytes (h : BufferPacketHeader) : UInt32 := h.headerLen.toUInt32 + h.dataLength

/-- The writing part of `USBPcapBufferStorePacket`: record header, packet header, payload. -/
def writeRecord (p : RootHubData) (pcapHeader : PcaprecHdr) (header : PacketHeader)
    (payloadEntries : List PayloadEntry) : RootHubData :=
  let bytes := pcapHeader.inclLen.toNat
  let p := bufferWriteUnsafe p pcapHeader.bytes
  let tmp := min bytes header.header.headerLen.toNat
  let p := if 0 < tmp then bufferWriteUnsafe p (header.memory.take tmp) else p
  writePayloadEntries p (bytes - tmp) payloadEntries

/-- `USBPcapBufferStorePacket` -/
def bufferStorePacket (p : RootHubData) (timestamp : ℤ) (header : PacketHeader)
    (payloadEntries : List PayloadEntry) : NtStatus × RootHubData :=
  let pcapHeader := initializePcapHeader p timestamp (packetBytes header.header)
  let bytes := pcapHeader.inclLen.toNat
  let headerLen := header.header.headerLen.toNat
  if sizeofPcaprecHdr + headerLen < bytes ∧
      0 < missingPayload (bytes - (sizeofPcaprecHdr + headerLen)) payloadEntries then
    (.invalidParameter, p)
  else
    let bytesFree := getBufferFree p
    if p.buffer = none ∨ bytesFree < sizeofPcaprecHdr ∨ bytesFree - sizeofPcaprecHdr < bytes then
      (.insufficientResources, p)
    else (.success, writeRecord p pcapHeader header payloadEntries)

/-- The payload array that `USBPcapBufferWriteTimestampedPacket` builds around one buffer. -/
def packetPayload (header : PacketHeader) (buffer : Option (List UInt8))
    (covered : ∀ b, buffer = some b → header.header.dataLength.toNat ≤ b.length) :
    List PayloadEntry :=
  [⟨header.header.dataLength, buffer, covered⟩, ⟨0, none, by simp⟩]

end UsbPcap.Driver
