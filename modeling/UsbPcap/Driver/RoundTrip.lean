import UsbPcap.Driver.Stream
import UsbPcap.Reader.Records

/-!
# The driver's encoder and the service's decoder

`Reader.next` undoes `USBPcapBufferStorePacket`: a stream of stored packets is read back as exactly
these packets (`Session.read_back`). The two sides only share the byte offsets.
-/

namespace UsbPcap.Driver

open Format Pcap

/-! ## Fields -/

theorem fileHeader_magicNumber (h : PcapHdr) :
    (FileHeader.ofBytes h.bytes).magicNumber = h.magicNumber := by
  have hfield := h.magicNumber_bytes
  rw [Format.magicNumber] at hfield
  rw [FileHeader.ofBytes, hfield, UInt32.ofNat_toNat]

theorem fileHeader_network (h : PcapHdr) : (FileHeader.ofBytes h.bytes).network = h.network := by
  have hfield := h.network_bytes
  rw [Format.network] at hfield
  rw [FileHeader.ofBytes, hfield, UInt32.ofNat_toNat]

/-! ## One packet -/

/-- The packets of the round trip: the packet header is complete, the payload supplies what the
header announces, and the record is neither cut inside its packet header nor above the reader's
limit. -/
structure Readable (snaplen : UInt32) (k : Packet) : Prop where
  headerLen_ge : 27 ≤ k.header.header.headerLen.toNat
  supplied : k.header.header.dataLength.toNat ≤ (suppliedPayload k.payload).length
  no_overflow : k.header.header.headerLen.toNat + k.header.header.dataLength.toNat < 2 ^ 32
  headerLen_le : k.header.header.headerLen.toNat ≤
    min (k.header.header.headerLen.toNat + k.header.header.dataLength.toNat) snaplen.toNat
  inclLen_le : min (k.header.header.headerLen.toNat + k.header.header.dataLength.toNat)
    snaplen.toNat ≤ maxRecordSize

/-- The system time, in units of 100 ns since 1601, as whole seconds since 1970. C divides towards
zero. -/
def Packet.seconds (k : Packet) : ℤ := k.timestamp.tdiv 10000000 - 11644473600

/-- The microseconds of the system time behind its last whole second. -/
def Packet.microseconds (k : Packet) : ℤ := (k.timestamp.tmod 10000000).tdiv 10

/-- What the reader is to return for a packet, said of the packet alone: nothing here is computed
with the encoder. The two fields of the time have 32 bits. -/
def Packet.toRecord (p : RootHubData) (k : Packet) : Record :=
  let h := k.header.header
  let inclLen := min (h.headerLen.toNat + h.dataLength.toNat) p.snaplen.toNat
  let payload := (suppliedPayload k.payload).take (inclLen - h.headerLen.toNat)
  { tsSec := .ofNat (k.seconds % 2 ^ 32).toNat
    tsUsec := .ofNat (k.microseconds % 2 ^ 32).toNat
    inclLen := .ofNat inclLen
    origLen := .ofNat (h.headerLen.toNat + h.dataLength.toNat)
    device := h.device
    endpoint := h.endpoint
    transfer := h.transfer
    dataLen := h.dataLength
    payload := payload
    headerLen := h.headerLen
    actualLen := .ofNat payload.length }

/-- From 1970 to 2106, the two fields of the time are the system time in microseconds since 1970. -/
theorem Packet.toRecord_time (p : RootHubData) {k : Packet}
    (hepoch : 116444736000000000 ≤ k.timestamp)
    (hlast : k.timestamp < (11644473600 + 2 ^ 32) * 10000000) :
    ((k.toRecord p).tsSec.toNat * 1000000 + (k.toRecord p).tsUsec.toNat : ℤ) =
      k.timestamp / 10 - 11644473600000000 := by
  have hsec : k.seconds = k.timestamp / 10000000 - 11644473600 := by
    rw [seconds, Int.tdiv_eq_ediv_of_nonneg (by omega)]
  have husec : k.microseconds = k.timestamp % 10000000 / 10 := by
    rw [microseconds, Int.tmod_eq_emod_of_nonneg (by omega), Int.tdiv_eq_ediv_of_nonneg (by omega)]
  have htsSec : ((k.toRecord p).tsSec.toNat : ℤ) = k.timestamp / 10000000 - 11644473600 := by
    change ((UInt32.ofNat (k.seconds % 2 ^ 32).toNat).toNat : ℤ) = _
    rw [UInt32.toNat_ofNat_of_lt' (by simp only [UInt32.size]; omega)]
    omega
  have htsUsec : ((k.toRecord p).tsUsec.toNat : ℤ) = k.timestamp % 10000000 / 10 := by
    change ((UInt32.ofNat (k.microseconds % 2 ^ 32).toNat).toNat : ℤ) = _
    rw [UInt32.toNat_ofNat_of_lt' (by simp only [UInt32.size]; omega)]
    omega
  rw [htsSec, htsUsec]
  omega

/-- The encoder writes the packet's seconds. -/
theorem tsSec_initializePcapHeader (p : RootHubData) (k : Packet) (bytes : UInt32) :
    (initializePcapHeader p k.timestamp bytes).tsSec = .ofNat (k.seconds % 2 ^ 32).toNat := rfl

/-- The encoder writes the packet's microseconds. -/
theorem tsUsec_initializePcapHeader (p : RootHubData) (k : Packet) (bytes : UInt32) :
    (initializePcapHeader p k.timestamp bytes).tsUsec =
      .ofNat (k.microseconds % 2 ^ 32).toNat := rfl

/-- The body of a readable packet: the whole packet header, then the payload. -/
theorem recordBody_eq {snaplen : UInt32} {k : Packet} (h : Readable snaplen k) :
    recordBody snaplen k.header k.payload =
      k.header.header.bytes ++
        (k.header.ext.take (k.header.header.headerLen.toNat - 27) ++
          (suppliedPayload k.payload).take
            ((packetInclLen snaplen k.header.header).toNat - k.header.header.headerLen.toNat)) := by
  have hincl := toNat_packetInclLen h.no_overflow snaplen
  have hge := h.headerLen_ge
  have hle := h.headerLen_le
  rw [recordBody, Nat.min_eq_right (by omega), PacketHeader.memory, List.take_append,
    BufferPacketHeader.length_bytes, List.take_of_length_le (by
      rw [BufferPacketHeader.length_bytes]; exact hge), List.append_assoc]

/-- Behind the packet header, the body of a readable packet is its payload. -/
theorem drop_recordBody {snaplen : UInt32} {k : Packet} (h : Readable snaplen k) :
    (recordBody snaplen k.header k.payload).drop k.header.header.headerLen.toNat =
      (suppliedPayload k.payload).take
        ((packetInclLen snaplen k.header.header).toNat - k.header.header.headerLen.toNat) := by
  have hincl := toNat_packetInclLen h.no_overflow snaplen
  have hle := h.headerLen_le
  rw [recordBody, Nat.min_eq_right (by omega)]
  exact List.drop_left' (List.length_take_of_le k.header.headerLen_le)

/-- The reader decodes a stored packet. -/
theorem recordOf_stored {p : RootHubData} {k : Packet} (h : Readable p.snaplen k) :
    recordOf (.ofBytes (initializePcapHeader p k.timestamp (packetBytes k.header.header)).bytes)
      (recordBody p.snaplen k.header k.payload) = k.toRecord p := by
  have hincl := toNat_packetInclLen h.no_overflow p.snaplen
  have hge := h.headerLen_ge
  have hle := h.headerLen_le
  have hcov := k.header.covered
  have hsupp := h.supplied
  have hbody := length_recordBody p.snaplen k.header k.payload
  rw [payloadShortfall_eq_zero_of_supplied h.no_overflow h.supplied, Nat.sub_zero] at hbody
  obtain ⟨hlen, hdev, hep, htr, hdata⟩ := packetHeader_fields k.header.header
    (k.header.ext.take (k.header.header.headerLen.toNat - 27) ++
      (suppliedPayload k.payload).take
        ((packetInclLen p.snaplen k.header.header).toNat - k.header.header.headerLen.toNat))
  rw [← recordBody_eq h] at hlen hdev hep htr hdata
  rw [recordHeader_ofBytes, recordOf, hlen, hdev, hep, htr, hdata]
  dsimp only
  rw [if_neg (by omega), if_neg (by omega)]
  -- the payload ends with the buffer, whether or not the snaplen cut it
  have hend : (if (recordBody p.snaplen k.header k.payload).length <
        k.header.header.headerLen.toNat + k.header.header.dataLength.toNat then
        (recordBody p.snaplen k.header k.payload).length
      else k.header.header.headerLen.toNat + k.header.header.dataLength.toNat) =
      (recordBody p.snaplen k.header k.payload).length := by
    split
    · rfl
    · omega
  have hincl' : (initializePcapHeader p k.timestamp (packetBytes k.header.header)).inclLen =
      .ofNat (min (k.header.header.headerLen.toNat + k.header.header.dataLength.toNat)
        p.snaplen.toNat) := by
    rw [inclLen_initializePcapHeader, ← hincl, UInt32.ofNat_toNat]
  have horig : (initializePcapHeader p k.timestamp (packetBytes k.header.header)).origLen =
      .ofNat (k.header.header.headerLen.toNat + k.header.header.dataLength.toNat) := by
    rw [← toNat_packetBytes h.no_overflow, UInt32.ofNat_toNat]
    rfl
  rw [hend, List.take_length, drop_recordBody h, hincl, hincl', horig,
    tsSec_initializePcapHeader, tsUsec_initializePcapHeader]
  rfl

/-- The bytes of a stream that a run stored for packets, in order. -/
def storedStream (p : RootHubData) (ks : List Packet) : List UInt8 :=
  ks.flatMap fun k => storedBytes p k.timestamp k.header k.payload

/-- Reading on from a stream of stored packets returns the packets and then `io.EOF`. -/
theorem readAll_storedStream {p : RootHubData} {ks : List Packet}
    (h : ∀ k ∈ ks, Readable p.snaplen k) {r : Reader} (hf : r.f = storedStream p ks) :
    r.readAll = (ks.map (Packet.toRecord p), .eof) := by
  induction ks generalizing r with
  | nil => exact Reader.readAll_nil hf
  | cons k ks ih =>
    have hk := h k List.mem_cons_self
    have hincl := toNat_packetInclLen hk.no_overflow p.snaplen
    have hmax := hk.inclLen_le
    have hbody := length_recordBody p.snaplen k.header k.payload
    rw [payloadShortfall_eq_zero_of_supplied hk.no_overflow hk.supplied, Nat.sub_zero] at hbody
    have hstream : r.f =
        (initializePcapHeader p k.timestamp (packetBytes k.header.header)).bytes ++
          (recordBody p.snaplen k.header k.payload ++ storedStream p ks) := by
      rw [hf, storedStream, List.flatMap_cons, storedBytes, List.append_assoc]
      rfl
    have hnext := Reader.next_record (PcaprecHdr.length_bytes _)
      (by rw [recordHeader_ofBytes, hbody]; rfl) (by omega) hstream
    rw [Reader.readAll_of_ok hnext, recordOf_stored hk,
      ih (fun k hk => h k (List.mem_cons_of_mem _ hk)) rfl]
    rfl

/-! ## Whole runs -/

namespace Session

/-- A store depends on the state only through the snaplen. -/
theorem storedBytes_congr {p q : RootHubData} (h : p.snaplen = q.snaplen) (k : Packet) :
    storedBytes p k.timestamp k.header k.payload =
      storedBytes q k.timestamp k.header k.payload := by
  simp only [storedBytes, initializePcapHeader, h]

/-- With a buffer, what was written is the global header and the accepted packets. -/
def Recorded (s : Session) : Prop :=
  s.data.buffer ≠ none →
    s.written = (globalHeader s.data.snaplen).bytes ++ storedStream s.data s.accepted

theorem storedStream_congr {p q : RootHubData} (h : p.snaplen = q.snaplen) (ks : List Packet) :
    storedStream p ks = storedStream q ks :=
  congrArg (ks.flatMap ·) (funext fun k => storedBytes_congr h k)

theorem recorded_step {s : Session} (hs : s.Recorded) (hi : s.Inv) (op : Op) :
    (s.step op).Recorded := by
  intro hb
  rcases step_cases hi op with
    ⟨-, hnone | ⟨p, hp⟩ | ⟨hsome, hsnap, hw, ha⟩⟩ | ⟨k, rfl, hsome, -, -, -, hsnap, hw, ha⟩
  · exact absurd hnone hb
  · rw [hp]
    exact (List.append_nil _).symm
  · rw [hw, ha, hsnap, hs hsome, storedStream_congr hsnap]
  · rw [hw, ha, hsnap, hs hsome, storedStream_congr hsnap, storedStream, storedStream,
      List.flatMap_append, List.flatMap_singleton, List.append_assoc]

theorem recorded_run {s : Session} (hs : s.Recorded) (hi : s.Inv) (ops : List Op) :
    (s.run ops).Recorded := by
  induction ops generalizing s with
  | nil => exact hs
  | cons op ops ih => exact ih (recorded_step hs hi op) (step_inv hi op)

/-- The stream of the buffer's current life, read and unread, is the global header and the accepted
packets. -/
theorem stream_eq {snaplen : UInt32} {ops : List Op} {s : Session}
    (hs : (init snaplen).run ops = s) (hb : s.data.buffer ≠ none) :
    s.delivered ++ unread s.data =
      (globalHeader s.data.snaplen).bytes ++ storedStream s.data s.accepted := by
  subst hs
  obtain ⟨c, hc⟩ := run_refines snaplen ops hb
  have hrec := recorded_run (s := init snaplen) (fun h => absurd rfl h) (init_inv snaplen) ops hb
  rw [← hrec, ← hc.delivered, ← hc.items, ← hc.written]
  exact c.conserved

/-- `OpenReader` accepts what starts with the driver's global header. -/
theorem openReader_globalHeader (snaplen : UInt32) (f : List UInt8) :
    openReader ((globalHeader snaplen).bytes ++ f) =
      .ok ⟨f, .ofBytes (globalHeader snaplen).bytes, 24 + f.length⟩ := by
  have hread := readFull_append (globalHeader snaplen).bytes f
  rw [PcapHdr.length_bytes] at hread
  rw [openReader, hread]
  dsimp only
  rw [fileHeader_magicNumber, fileHeader_network, if_neg (by simp [globalHeader]),
    if_neg (by simp [globalHeader, dltUsbpcap]), List.length_append, PcapHdr.length_bytes]

/-- **The decoder undoes the encoder.** After any run of calls that leaves a buffer behind, if the
packets that were accepted in the buffer's current life are readable, `OpenReader` accepts the
stream, read and unread, and repeated `Next` returns the accepted packets in order and then
`io.EOF`. -/
theorem read_back (snaplen : UInt32) (ops : List Op) {s : Session}
    (hs : (init snaplen).run ops = s) (hb : s.data.buffer ≠ none)
    (hk : ∀ k ∈ s.accepted, Readable s.data.snaplen k) :
    ∃ r, openReader (s.delivered ++ unread s.data) = .ok r ∧
      r.readAll = (s.accepted.map (Packet.toRecord s.data), .eof) := by
  rw [stream_eq hs hb]
  exact ⟨_, openReader_globalHeader _ _, readAll_storedStream hk rfl⟩

/-- The packet of an eight byte bulk transfer with its data. -/
def mappedBulk : Packet where
  timestamp := 0
  header := bulkHeader
  payload := packetPayload bulkHeader (urbGetBufferPointer 8 (some [1, 2, 3, 4, 5, 6, 7, 8]) none)
    (by rintro b ⟨⟩; decide)

/-- The same transfer on 17 January 2024, 21:20 UTC and 12345 microseconds. -/
def timedBulk : Packet := { mappedBulk with timestamp := 133500000000123456 }

/-- A buffer in which both packets were stored. -/
def bulkSession : Session :=
  (init 65535).run
    [.setUpBuffer 4096 (some zeroBlock), .storePacket mappedBulk, .storePacket timedBulk]

/-- Both are read back, the second with its time. -/
theorem read_back_bulk :
    (∃ r, openReader (bulkSession.delivered ++ unread bulkSession.data) = .ok r ∧
      r.readAll = ([mappedBulk.toRecord bulkSession.data, timedBulk.toRecord bulkSession.data],
        .eof)) ∧
      ((timedBulk.toRecord bulkSession.data).tsSec.toNat * 1000000 +
        (timedBulk.toRecord bulkSession.data).tsUsec.toNat : ℤ) = 1705526400012345 := by
  constructor
  · refine read_back 65535 _ (s := bulkSession) rfl (by decide) ?_
    intro k hk
    rcases List.mem_pair.mp (show k ∈ [mappedBulk, timedBulk] from hk) with rfl | rfl
    · constructor <;> decide
    · constructor <;> decide
  · exact Packet.toRecord_time _ (by decide) (by decide)

end Session

end UsbPcap.Driver
