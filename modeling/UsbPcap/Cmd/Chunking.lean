import UsbPcap.Cmd.Parser
import UsbPcap.Cmd.PassThrough

/-!
# Reads of any size

How the stream is cut into reads is up to the driver and the scheduler. The state after a stream is
determined by the stream (`Reads.readThread` where it is parsed, `Passes.readThread` where it is
passed through), so any two ways to cut it leave the same output, flags, counter and pending bytes.
-/

namespace UsbPcap.Cmd

open Format

variable {env : Env}

/-- The thread before its first read: nothing buffered, and the output open unless it is
`begin_output_stream` that opens it before the first write. -/
structure State.Starts (s : State) : Prop where
  parser : s.parser = .zero
  process : s.data.process = true
  bufWritten : s.data.descriptors.bufWritten = 0
  buf : s.data.descriptors.buf.length = sizeofPcapHdr
  handle : s.data.writeHandle = .invalid →
    ¬ s.data.passesThrough ∧ (s.data.storeMode = storeModeImmediate ∨ s.data.triggered = false)

theorem State.Starts.ready {s : State} (hs : s.Starts)
    (ho : s.data.writeHandle = .invalid → env.Opens) : s.view.Ready env := by
  refine ⟨hs.process, ho, fun h => ⟨?_, (hs.handle h).2⟩⟩
  change s.parser.wrotePcapHeader = false
  rw [hs.parser]
  rfl

theorem State.Starts.passing {s : State} (hs : s.Starts) (hpass : s.data.passesThrough) :
    s.Passing :=
  ⟨hs.process, fun h => (hs.handle h).1 hpass, hs.bufWritten, hs.buf⟩

/-- What a run leaves behind: the output, the flag, the counter and the pending bytes. -/
structure Outcome where
  output : List UInt8
  triggered : Bool
  droppedPackets : UInt32
  pending : List UInt8
deriving DecidableEq, Repr

/-- The outcome in a state. -/
def State.outcome (s : State) : Outcome where
  output := s.output
  triggered := s.data.triggered
  droppedPackets := s.data.droppedPackets
  pending := s.parser.bytes

/-- The outcome of a thread that starts in `s` and is given the stream `x`. -/
def State.outcomeOf (s : State) (x : List UInt8) : Outcome :=
  if s.data.passesThrough then
    { s.outcome with output := s.output ++ passed s.data.descriptors.descriptors x }
  else
    let v := s.view.read x
    ⟨v.output, v.data.triggered, v.data.droppedPackets, leftover x⟩

/-- The outcome of a run is that of the stream, however it is cut. -/
theorem readThread_outcome (he : env.Stores) {s : State} (hs : s.Starts)
    (ho : s.data.writeHandle = .invalid → env.Opens) {chunks : List (List UInt8)}
    (hlen : chunks.flatten.length < 2 ^ 31)
    (hfit : RecordsFit (chunks.flatten.drop sizeofPcapHdr)) {fuel : ℕ}
    (hfuel : chunks.flatten.length < fuel) :
    ∃ t, readThread env fuel s chunks = .ok t ∧ t.outcome = s.outcomeOf chunks.flatten := by
  unfold State.outcomeOf
  by_cases hpass : s.data.passesThrough
  · obtain ⟨t, ht, hread⟩ :=
      (Passes.nil (hs.passing hpass)).readThread he (hs.passing hpass) hpass chunks fuel
    rw [List.nil_append] at hread
    refine ⟨t, ht, ?_⟩
    unfold State.outcome
    rw [if_pos hpass, hread.output, hread.data, hread.parser]
  · obtain ⟨t, ht, hread⟩ :=
      (Reads.nil hs.parser).readThread he (hs.ready ho) hpass hlen hfit hfuel
    rw [List.nil_append] at hread
    refine ⟨t, ht, ?_⟩
    unfold State.outcome
    rw [if_neg hpass, ← hread.view, hread.pending]
    rfl

/-- **The outcome does not depend on how the stream is cut into reads.** -/
theorem chunking_irrelevant (he : env.Succeeds) {s : State} (hs : s.Starts)
    {chunks chunks' : List (List UInt8)} (hsame : chunks.flatten = chunks'.flatten)
    (hlen : chunks.flatten.length < 2 ^ 31)
    (hfit : RecordsFit (chunks.flatten.drop sizeofPcapHdr)) {fuel : ℕ}
    (hfuel : chunks.flatten.length < fuel) :
    ∃ t t', readThread env fuel s chunks = .ok t ∧ readThread env fuel s chunks' = .ok t' ∧
      t.output = t'.output ∧ t.data.triggered = t'.data.triggered ∧
      t.data.droppedPackets = t'.data.droppedPackets ∧ t.parser.bytes = t'.parser.bytes := by
  obtain ⟨t, ht, hout⟩ := readThread_outcome he.toStores hs (fun _ => he.toOpens) hlen hfit hfuel
  rw [hsame] at hlen hfit hfuel hout
  obtain ⟨t', ht', hout'⟩ := readThread_outcome he.toStores hs (fun _ => he.toOpens) hlen hfit hfuel
  rw [← hout'] at hout
  exact ⟨t, t', ht, ht', congrArg Outcome.output hout, congrArg Outcome.triggered hout,
    congrArg Outcome.droppedPackets hout, congrArg Outcome.pending hout⟩

/-- A global header of a USBPcap stream. -/
def sampleHdr : List UInt8 :=
  PcapHdr.bytes
    { magicNumber := 0xA1B2C3D4, versionMajor := 2, versionMinor := 4, thiszone := 0, sigfigs := 0,
      snaplen := 65535, network := dltUsbpcap }

/-- A record of a transfer without data to or from an endpoint of device 2. -/
def sampleRecord (endpoint : UInt8) : List UInt8 :=
  PcaprecHdr.bytes { tsSec := 0, tsUsec := 0, inclLen := 27, origLen := 27 } ++
    BufferPacketHeader.bytes
      { headerLen := 27, irpId := 0, status := 0, function := 9, info := 0, bus := 1, device := 2,
        endpoint := endpoint, transfer := 3, dataLength := 0 }

/-- A thread that stores the packets of endpoint 0x81 at once. -/
def sampleData : ThreadData where
  filename := "capture.pcap"
  process := true
  writeHandle := .file
  descriptors := { descriptors := [], buf := List.replicate sizeofPcapHdr 0, bufWritten := 0 }
  storeMode := storeModeImmediate
  triggered := false
  outputCreated := true
  droppedPackets := 0
  appFilter :=
    { enabled := true, hasVendorId := false, hasProductId := false, hasEndpoint := true,
      hasTransferType := false, vendorId := 0, productId := 0, endpoint := 0x81, transferType := 0 }
  deviceMetadata _ := { present := false, vendorId := 0, productId := 0 }

theorem isFrame_sampleRecord (endpoint : UInt8) : recordFraming.IsFrame (sampleRecord endpoint) :=
  isFrame_header_append _ (by simp)

theorem starts_sampleData : (State.start sampleData).Starts where
  parser := rfl
  process := rfl
  bufWritten := rfl
  buf := rfl
  handle h := Handle.noConfusion h

/-- A header and a record in one read, and in four reads of which one is empty. -/
theorem chunking_irrelevant_sample :
    ∃ t t', readThread .reliable 100 (.start sampleData) [sampleHdr ++ sampleRecord 0x81] = .ok t ∧
      readThread .reliable 100 (.start sampleData) [sampleHdr.take 10, [],
        sampleHdr.drop 10 ++ (sampleRecord 0x81).take 20, (sampleRecord 0x81).drop 20] = .ok t' ∧
      t.output = t'.output ∧ t.data.triggered = t'.data.triggered ∧
      t.data.droppedPackets = t'.data.droppedPackets ∧ t.parser.bytes = t'.parser.bytes := by
  have hfit : RecordsFit [sampleRecord 0x81].flatten :=
    RecordsFit.flatten (fun r hr => by rw [List.mem_singleton.mp hr]; exact isFrame_sampleRecord _)
      (by decide)
  exact chunking_irrelevant Env.reliable_succeeds starts_sampleData (by decide) (by decide)
    (by rw [List.flatten_singleton, show sizeofPcapHdr = sampleHdr.length from rfl, List.drop_left];
        exact hfit) (by decide)

end UsbPcap.Cmd
