import UsbPcap.Format.Pcap
import UsbPcap.Lib.Memory

/-!
# The read thread

`process_data` takes what one read returned and writes the capture output. Without an application
filter and with immediate storage it passes the bytes on and only looks for the global header;
otherwise it collects them in a buffer, cuts them into records, and writes the records that match.

The operating system and the allocator are an `Env`: whether the output file opens, how each write
ends, and what `realloc` returns. C's undefined reads and its endless loops are `Fault`s.
-/

namespace UsbPcap.Cmd

open Format Memory

/-! ## Data -/

/-- `app_capture_filter` -/
structure AppCaptureFilter where
  enabled : Bool
  hasVendorId : Bool
  hasProductId : Bool
  hasEndpoint : Bool
  hasTransferType : Bool
  vendorId : UInt16
  productId : UInt16
  endpoint : UInt8
  transferType : UInt8
deriving DecidableEq, Repr

/-- `device_metadata` -/
structure DeviceMetadata where
  present : Bool
  vendorId : UInt16
  productId : UInt16
deriving DecidableEq, Repr

/-- `inject_descriptors`. The memory behind `descriptors` is a list, and `descriptors_len` its
length. -/
structure InjectDescriptors where
  descriptors : List UInt8
  buf : List UInt8
  bufWritten : ℕ
deriving DecidableEq, Repr

/-- The values of `write_handle`. -/
inductive Handle where
  | invalid
  | stdout
  | file
deriving DecidableEq, Repr

/-- `USBPCAP_STORE_MODE_IMMEDIATE` -/
def storeModeImmediate : UInt32 := 0

/-- `USBPCAP_STORE_MODE_ON_MATCH` -/
def storeModeOnMatch : UInt32 := 1

/-- The fields of `thread_data` that `process_data` and what it calls use. -/
structure ThreadData where
  filename : String
  process : Bool
  writeHandle : Handle
  descriptors : InjectDescriptors
  storeMode : UInt32
  triggered : Bool
  outputCreated : Bool
  droppedPackets : UInt32
  appFilter : AppCaptureFilter
  deviceMetadata : Fin 128 → DeviceMetadata

/-- `packet_parser_context`; `pending` is the allocated block, of which the first `pendingLen`
bytes are in use. -/
structure PacketParserContext where
  pending : List UInt8
  pendingLen : UInt32
  pendingCapacity : UInt32
  havePcapHeader : Bool
  wrotePcapHeader : Bool
  pcapHeader : List UInt8
deriving DecidableEq, Repr

/-- `memset(&parser, 0, sizeof(parser))` -/
def PacketParserContext.zero : PacketParserContext where
  pending := []
  pendingLen := 0
  pendingCapacity := 0
  havePcapHeader := false
  wrotePcapHeader := false
  pcapHeader := List.replicate sizeofPcapHdr 0

/-- The thread's data, its parser, the bytes in the output, and how many writes were made. -/
structure State where
  data : ThreadData
  parser : PacketParserContext
  output : List UInt8
  writes : ℕ

/-- The thread before its first read. -/
def State.start (data : ThreadData) : State where
  data := data
  parser := .zero
  output := []
  writes := 0

/-! ## The environment -/

/-- How a `WriteFile` ends: at once, later with a number of bytes written, later with an error, or
with an error at once. -/
inductive WriteOutcome where
  | done
  | pending (written : ℕ)
  | pendingFailed
  | failed
deriving DecidableEq, Repr

/-- The operating system and the allocator. -/
structure Env where
  stdoutValid : Bool
  createFile : Bool
  writeFile : (index bytes : ℕ) → WriteOutcome
  realloc : List UInt8 → ℕ → Option (List UInt8)
  realloc_spec : ∀ {b n b'}, realloc b n = some b' →
    b'.length = n ∧ b'.take (min b.length n) = b.take n

/-- What the model does not execute. -/
inductive Fault where
  | outOfBounds
  | outOfFuel
deriving DecidableEq, Repr

/-! ## Functions -/

/-- The doubling loop of `ensure_pending_capacity`. -/
def growCapacity : ℕ → UInt32 → UInt32 → Except Fault UInt32
  | 0, _, _ => .error .outOfFuel
  | fuel + 1, capacity, required =>
    if capacity < required then growCapacity fuel (capacity * 2) required else .ok capacity

/-- `ensure_pending_capacity` -/
def ensurePendingCapacity (env : Env) (fuel : ℕ) (ctx : PacketParserContext)
    (additional : UInt32) : Except Fault (Bool × PacketParserContext) :=
  let required := ctx.pendingLen + additional
  if required ≤ ctx.pendingCapacity then .ok (true, ctx)
  else
    let capacity :=
      if ctx.pendingCapacity = 0 then .ok required
      else growCapacity fuel ctx.pendingCapacity required
    match capacity with
    | .error fault => .error fault
    | .ok capacity =>
      let ctx := { ctx with pendingCapacity := capacity }
      match env.realloc ctx.pending capacity.toNat with
      | none => .ok (false, ctx)
      | some tmp => .ok (true, { ctx with pending := tmp })

/-- `write_data` -/
def writeData (env : Env) (s : State) (buffer : List UInt8) : State :=
  let n := s.writes
  let s := { s with writes := n + 1 }
  if s.data.writeHandle = .invalid then { s with data := { s.data with process := false } }
  else
    match env.writeFile n buffer.length with
    | .done => { s with output := s.output ++ buffer }
    | .pending written =>
      let s := { s with output := s.output ++ buffer.take written }
      if written ≠ buffer.length then { s with data := { s.data with process := false } } else s
    | .pendingFailed => s
    | .failed => { s with data := { s.data with process := false } }

/-- `open_output_handle_if_needed` -/
def openOutputHandleIfNeeded (env : Env) (data : ThreadData) : Bool × ThreadData :=
  if data.writeHandle ≠ .invalid then (true, data)
  else if data.filename = "-" then
    if env.stdoutValid then
      (true, { data with writeHandle := .stdout, outputCreated := true })
    else (false, { data with outputCreated := true })
  else if env.createFile then (true, { data with writeHandle := .file, outputCreated := true })
  else (false, data)

/-- The test for which streams the descriptors are injected. -/
def injects (hdr : List UInt8) (descriptors : List UInt8) : Prop :=
  magicNumber hdr = 0xA1B2C3D4 ∧ network hdr = dltUsbpcap.toNat ∧ 0 < descriptors.length

instance (hdr descriptors : List UInt8) : Decidable (injects hdr descriptors) :=
  inferInstanceAs (Decidable (_ ∧ _ ∧ _))

/-- Write the global header and, where they belong, the descriptors. -/
def writeHeader (env : Env) (s : State) (hdr : List UInt8) : State :=
  let s := writeData env s hdr
  if injects hdr s.data.descriptors.descriptors then
    writeData env s s.data.descriptors.descriptors
  else s

/-- `begin_output_stream` -/
def beginOutputStream (env : Env) (s : State) : Bool × State :=
  if s.parser.havePcapHeader = false then (false, s)
  else if s.parser.wrotePcapHeader then (true, s)
  else
    match openOutputHandleIfNeeded env s.data with
    | (false, data) => (false, { s with data := { data with process := false } })
    | (true, data) =>
      let s := writeHeader env { s with data := data } s.parser.pcapHeader
      (true,
        { s with
          parser := { s.parser with wrotePcapHeader := true }
          data := { s.data with triggered := true } })

/-- `app_packet_matches`; `header` is the memory at the packet header. -/
def appPacketMatches (data : ThreadData) (header : List UInt8) (bytes : UInt32) :
    Except Fault Bool :=
  let filter := data.appFilter
  if filter.enabled = false then .ok true
  else if bytes.toNat < sizeofBufferPacketHeader then .ok false
  else if header.length < sizeofBufferPacketHeader then .error .outOfBounds
  else if h : field 19 2 header < 128 then
    let metadata := data.deviceMetadata ⟨field 19 2 header, h⟩
    if filter.hasVendorId ∧ (metadata.present = false ∨ metadata.vendorId ≠ filter.vendorId) then
      .ok false
    else if filter.hasProductId ∧
        (metadata.present = false ∨ metadata.productId ≠ filter.productId) then .ok false
    else if filter.hasEndpoint ∧ field 21 1 header ≠ filter.endpoint.toNat then .ok false
    else if filter.hasTransferType ∧ field 22 1 header ≠ filter.transferType.toNat then .ok false
    else .ok true
  else .ok false

/-- `memcpy` of a read behind the pending bytes. -/
def appendPending (ctx : PacketParserContext) (buffer : List UInt8) : PacketParserContext :=
  { ctx with
    pending := copyInto ctx.pending ctx.pendingLen.toNat buffer
    pendingLen := ctx.pendingLen + UInt32.ofNat buffer.length }

/-- `memmove` of what follows the first `n` pending bytes to the front. -/
def discardPending (ctx : PacketParserContext) (n : UInt32) : PacketParserContext :=
  let rest := (ctx.pending.drop n.toNat).take (ctx.pendingLen - n).toNat
  { ctx with
    pending := copyInto ctx.pending 0 rest
    pendingLen := ctx.pendingLen - n }

/-- Take the global header out of the pending bytes. -/
def takePcapHeader (env : Env) (s : State) : Bool × State :=
  let s := { s with
    parser := { discardPending { s.parser with
        pcapHeader := s.parser.pending.take sizeofPcapHdr } 24 with havePcapHeader := true } }
  if s.data.storeMode = storeModeImmediate then beginOutputStream env s else (true, s)

/-- Write a matching record, unless on-match storage has not been triggered; `false` when the output
cannot be started. -/
def writeRecord (env : Env) (s : State) (totalLength : UInt32) : Bool × State :=
  if s.data.storeMode = storeModeImmediate ∨ s.data.triggered then
    let (go, s) :=
      if s.data.storeMode = storeModeImmediate ∧ s.parser.wrotePcapHeader = false then
        beginOutputStream env s
      else (true, s)
    if go = false then (false, s)
    else (true, writeData env s (s.parser.pending.take totalLength.toNat))
  else (true, s)

/-- What the loop does with a complete record in front of the pending bytes; `false` when it
returns in the middle of it. -/
def processRecord (env : Env) (s : State) (totalLength : UInt32) : Except Fault (Bool × State) :=
  match appPacketMatches s.data (s.parser.pending.drop sizeofPcaprecHdr)
      (UInt32.ofNat (inclLen s.parser.pending)) with
  | .error fault => .error fault
  | .ok false =>
    .ok (true, { s with data := { s.data with droppedPackets := s.data.droppedPackets + 1 } })
  | .ok true =>
    let (go, s) :=
      if s.data.storeMode = storeModeOnMatch ∧ s.data.triggered = false then
        beginOutputStream env s
      else (true, s)
    if go = false then .ok (false, s) else .ok (writeRecord env s totalLength)

/-- The loop of `process_data`. -/
def parseLoop (env : Env) : ℕ → State → Except Fault State
  | 0, _ => .error .outOfFuel
  | fuel + 1, s =>
    if s.data.process = false then .ok s
    else
      let (go, s) :=
        if s.parser.havePcapHeader = false ∧ 24 ≤ s.parser.pendingLen then takePcapHeader env s
        else (true, s)
      if go = false then .ok s
      else if s.parser.havePcapHeader = false then .ok s
      else if s.parser.pendingLen < 16 then .ok s
      else
        let totalLength := 16 + UInt32.ofNat (inclLen s.parser.pending)
        if s.parser.pendingLen < totalLength then .ok s
        else
          match processRecord env s totalLength with
          | .error fault => .error fault
          | .ok (false, s) => .ok s
          | .ok (true, s) =>
            parseLoop env fuel { s with parser := discardPending s.parser totalLength }

/-- No application filter and immediate storage: the bytes are passed on as they are. -/
def ThreadData.passesThrough (data : ThreadData) : Prop :=
  data.appFilter.enabled = false ∧ data.storeMode = storeModeImmediate

instance (data : ThreadData) : Decidable data.passesThrough :=
  inferInstanceAs (Decidable (_ ∧ _))

/-- `memcpy` of `bytes` behind what `buf` holds of the global header. -/
def InjectDescriptors.collect (d : InjectDescriptors) (bytes : List UInt8) : InjectDescriptors :=
  { d with
    buf := copyInto d.buf d.bufWritten bytes
    bufWritten := d.bufWritten + bytes.length }

/-- The branch of `process_data` that passes the bytes through. -/
def passThrough (env : Env) (s : State) (buffer : List UInt8) : State :=
  if s.data.descriptors.bufWritten < sizeofPcapHdr then
    let toWrite := min (sizeofPcapHdr - s.data.descriptors.bufWritten) buffer.length
    let descriptors := s.data.descriptors.collect (buffer.take toWrite)
    let s := { s with data := { s.data with descriptors := descriptors } }
    let s := if descriptors.bufWritten = sizeofPcapHdr then writeHeader env s descriptors.buf else s
    if buffer.length - toWrite = 0 then s else writeData env s (buffer.drop toWrite)
  else writeData env s buffer

/-- `process_data` -/
def processData (env : Env) (fuel : ℕ) (s : State) (buffer : List UInt8) : Except Fault State :=
  if s.data.passesThrough then
    .ok (passThrough env s buffer)
  else
    match ensurePendingCapacity env fuel s.parser (UInt32.ofNat buffer.length) with
    | .error fault => .error fault
    | .ok (false, parser) =>
      .ok { s with parser := parser, data := { s.data with process := false } }
    | .ok (true, parser) =>
      if parser.pending.length < parser.pendingLen.toNat + buffer.length then
        .error .outOfBounds
      else parseLoop env fuel { s with parser := appendPending parser buffer }

/-- The loop of `read_thread` over the buffers that its reads return. -/
def readThread (env : Env) (fuel : ℕ) : State → List (List UInt8) → Except Fault State
  | s, [] => .ok s
  | s, buffer :: buffers =>
    if s.data.process = false then .ok s
    else
      match processData env fuel s buffer with
      | .error fault => .error fault
      | .ok s => readThread env fuel s buffers

end UsbPcap.Cmd
