import UsbPcap.Cmd.Descriptors
import UsbPcap.Cmd.StoreModes
import UsbPcap.Driver.RoundTrip
import UsbPcap.Reader.Truncation

/-!
# From the driver to the reader

A transfer that the driver records goes through the ring, the reads of `read_thread`, the parser
with its filter and its storage mode, and the output file, before the service decodes it. The stages
agree on whole records: the file holds the exchanges that were injected and then, in order and once
each, the recorded packets that the filter asks for, however the stream was cut into reads and
wherever the capture was stopped.
-/

namespace UsbPcap

open Format Driver Pcap

/-! ## Definitions -/

/-- What the application filter asks of a packet: of the device it is from, which must have been
seen with these ids, of its endpoint and of its kind of transfer. -/
def Wants (data : Cmd.ThreadData) (h : BufferPacketHeader) : Prop :=
  data.appFilter.enabled = true →
    ∃ hdevice : h.device.toNat < 128,
      (data.appFilter.hasVendorId = true →
        (data.deviceMetadata ⟨h.device.toNat, hdevice⟩).present = true ∧
          (data.deviceMetadata ⟨h.device.toNat, hdevice⟩).vendorId = data.appFilter.vendorId) ∧
      (data.appFilter.hasProductId = true →
        (data.deviceMetadata ⟨h.device.toNat, hdevice⟩).present = true ∧
          (data.deviceMetadata ⟨h.device.toNat, hdevice⟩).productId = data.appFilter.productId) ∧
      (data.appFilter.hasEndpoint = true → h.endpoint = data.appFilter.endpoint) ∧
      (data.appFilter.hasTransferType = true → h.transfer = data.appFilter.transferType)

instance (data : Cmd.ThreadData) (h : BufferPacketHeader) : Decidable (Wants data h) :=
  inferInstanceAs (Decidable (_ → _))

/-- The packets that the filter asks for. -/
def wanted (data : Cmd.ThreadData) (ks : List Driver.Packet) : List Driver.Packet :=
  ks.filter fun k => Wants data k.header.header

/-- The bytes of a packet in the stream. -/
def packetRecord (p : RootHubData) (k : Driver.Packet) : List UInt8 :=
  storedBytes p k.timestamp k.header k.payload

/-- A block that `descriptors_generate_pcap` makes of these packets. -/
def InjectedBlock (block : List UInt8) (ps : List Cmd.Descriptors.Packet) : Prop :=
  (∀ p ∈ ps, p.Fits) ∧ ∃ clock bus,
    block = (Cmd.Descriptors.records clock 0 (ps.map (Cmd.Descriptors.Packet.entry bus))).flatten

/-- The first `n` packets have been delivered whole, and no more. -/
structure Driver.Session.Delivered (s : Session) (n : ℕ) : Prop where
  le : n ≤ s.accepted.length
  whole : (globalHeader s.data.snaplen).bytes ++ storedStream s.data (s.accepted.take n) <+:
    s.delivered
  cut : n < s.accepted.length → ¬ (globalHeader s.data.snaplen).bytes ++
    storedStream s.data (s.accepted.take (n + 1)) <+: s.delivered

/-! ## The reader on records -/

/-- The reader decodes a complete record. -/
theorem next_of_isRecord {f rest : List UInt8} (hf : IsRecord f) {r : Reader}
    (hr : r.f = f ++ rest) : r.next = (.ok (decodeRecord f), { r with f := rest }) := by
  obtain ⟨hframe, hmax⟩ := hf
  obtain ⟨hlen, hincl⟩ := isFrame_record.mp hframe
  have htake : inclLen (f.take 16) = inclLen f := field_take (by omega) f
  have hsplit : r.f = f.take 16 ++ (f.drop 16 ++ rest) := by
    rw [hr, ← List.append_assoc, List.take_append_drop]
  refine Reader.next_record (List.length_take_of_le hlen) ?_ ?_ hsplit
  · rw [ofBytes_inclLen, htake, List.length_drop]
    omega
  · rw [List.length_drop]
    omega

/-- The reader decodes the complete records and fails on what is left. -/
theorem readAll_records {fs : List (List UInt8)} (hfs : ∀ f ∈ fs, IsRecord f) {rest : List UInt8}
    (hrest : recordFraming.frameLen rest = none) {r : Reader} (hr : r.f = fs.flatten ++ rest) :
    r.readAll.1 = fs.map decodeRecord ∧ (rest = [] → r.readAll.2 = .eof) := by
  induction fs generalizing r with
  | nil =>
    refine ⟨?_, fun hnil => ?_⟩
    · cases hnext : r.next with
      | mk result r' =>
        cases result with
        | error err => rw [Reader.readAll_of_error hnext, List.map_nil]
        | ok rec =>
          -- a record would be a frame
          obtain ⟨f, hf, hsplit⟩ := Reader.next_ok hnext
          rw [List.flatten_nil, List.nil_append] at hr
          have hframe : recordFraming.frameLen rest = some f.length := by
            rw [← hr, hsplit]
            exact recordFraming.append _ hf.1
          rw [hrest] at hframe
          cases hframe
    · rw [hnil] at hr
      rw [Reader.readAll_nil hr]
  | cons f fs ih =>
    rw [List.flatten_cons, List.append_assoc] at hr
    obtain ⟨hrecs, heof⟩ := ih (fun g hg => hfs g (List.mem_cons_of_mem f hg))
      (r := { r with f := fs.flatten ++ rest }) rfl
    rw [Reader.readAll_of_ok (next_of_isRecord (hfs f List.mem_cons_self) hr)]
    exact ⟨by rw [hrecs, List.map_cons], heof⟩

/-! ## A stored packet -/

section Stored

variable {p : RootHubData} {k : Driver.Packet}

/-- What the driver stores for a readable packet is a frame. -/
theorem isFrame_stored (h : Readable p.snaplen k) : recordFraming.IsFrame (packetRecord p k) :=
  storedBytes_isFrame (payloadShortfall_eq_zero_of_supplied h.no_overflow h.supplied p.snaplen)
    k.timestamp

/-- Its length field is the length of the packet, cut to the snaplen. -/
theorem inclLen_stored (h : Readable p.snaplen k) :
    inclLen (packetRecord p k) =
      min (k.header.header.headerLen.toNat + k.header.header.dataLength.toNat)
        p.snaplen.toNat := by
  rw [packetRecord, storedBytes, PcaprecHdr.inclLen_bytes_append, inclLen_initializePcapHeader,
    toNat_packetInclLen h.no_overflow]

/-- So the reader admits it. -/
theorem isRecord_stored (h : Readable p.snaplen k) : IsRecord (packetRecord p k) :=
  ⟨isFrame_stored h, (inclLen_stored h).trans_le h.inclLen_le⟩

/-- And all of them. -/
theorem forall_isRecord_stored {ks : List Driver.Packet} (hk : ∀ k ∈ ks, Readable p.snaplen k) :
    ∀ f ∈ ks.map (packetRecord p), IsRecord f := by
  intro f hf
  obtain ⟨k, hmem, rfl⟩ := List.mem_map.mp hf
  exact isRecord_stored (hk k hmem)

/-- It is decoded to the record of the packet. -/
theorem decodeRecord_stored (h : Readable p.snaplen k) :
    decodeRecord (packetRecord p k) = k.toRecord p := by
  have hhdr := (initializePcapHeader p k.timestamp (packetBytes k.header.header)).length_bytes
  rw [decodeRecord, packetRecord, storedBytes, List.take_left' hhdr, List.drop_left' hhdr]
  exact recordOf_stored h

/-- The packet header that `app_packet_matches` finds in a stored packet. -/
theorem packetHeader_stored (h : Readable p.snaplen k) :
    field 19 2 ((packetRecord p k).drop sizeofPcaprecHdr) = k.header.header.device.toNat ∧
      field 21 1 ((packetRecord p k).drop sizeofPcaprecHdr) = k.header.header.endpoint.toNat ∧
      field 22 1 ((packetRecord p k).drop sizeofPcaprecHdr) = k.header.header.transfer.toNat := by
  have hhdr : (initializePcapHeader p k.timestamp (packetBytes k.header.header)).bytes.length =
      sizeofPcaprecHdr := PcaprecHdr.length_bytes _
  rw [packetRecord, storedBytes, List.drop_left' hhdr, recordBody_eq h]
  generalize k.header.ext.take _ ++ _ = xs
  obtain ⟨-, hdev, hep, htr, -⟩ := packetHeader_fields k.header.header xs
  refine ⟨?_, ?_, ?_⟩
  · rw [← hdev, UInt16.toNat_ofNat_of_lt' (field_lt 19 2 _)]
  · rw [← hep, UInt8.toNat_ofNat_of_lt' (field_lt 21 1 _)]
  · rw [← htr, UInt8.toNat_ofNat_of_lt' (field_lt 22 1 _)]

/-- `app_packet_matches` asks what the filter asks. -/
theorem accepts_stored (h : Readable p.snaplen k) (data : Cmd.ThreadData) :
    Cmd.accepts data (packetRecord p k) = decide (Wants data k.header.header) := by
  obtain ⟨hdev, hep, htr⟩ := packetHeader_stored h
  have hincl := inclLen_stored h
  have hframe := (isFrame_record.mp (isFrame_stored h)).2
  have hge := h.headerLen_ge
  have hle := h.headerLen_le
  have hbytes : ¬ (UInt32.ofNat (inclLen (packetRecord p k))).toNat < sizeofBufferPacketHeader := by
    have htoNat : (UInt32.ofNat (inclLen (packetRecord p k))).toNat = inclLen (packetRecord p k) :=
      UInt32.toNat_ofNat_of_lt' (field_lt 8 4 _)
    rw [htoNat, sizeofBufferPacketHeader]
    omega
  have hlen : ¬ ((packetRecord p k).drop sizeofPcaprecHdr).length < sizeofBufferPacketHeader := by
    rw [List.length_drop, sizeofBufferPacketHeader, sizeofPcaprecHdr]
    omega
  unfold Cmd.accepts Cmd.appPacketMatches Wants
  dsimp only
  rw [if_neg hbytes, if_neg hlen]
  generalize (packetRecord p k).drop sizeofPcaprecHdr = header at hdev hep htr
  clear hincl hframe hge hle hbytes hlen
  by_cases henabled : data.appFilter.enabled = true
  · have hnot : ¬ data.appFilter.enabled = false := by
      rw [henabled]
      exact Bool.noConfusion
    rw [if_neg hnot]
    by_cases hdevice : k.header.header.device.toNat < 128
    · simp only [hdev, hep, htr, hdevice, henabled, UInt8.toNat_inj, ne_eq]
      split_ifs <;> grind
    · simp only [hdev, hdevice, henabled]
      grind
  · rw [if_pos (Bool.not_eq_true _ ▸ henabled)]
    exact (decide_eq_true fun h => absurd h henabled).symm

end Stored

/-! ## The stream -/

/-- The stream of stored packets is their records, one after the other. -/
theorem storedStream_eq (p : RootHubData) (ks : List Driver.Packet) :
    storedStream p ks = (ks.map (packetRecord p)).flatten := List.flatMap_def ..

section Stream

/-- The beginning of a stream of packets are whole packets, and a part of the next one. -/
theorem prefix_stored {p : RootHubData} {ks : List Driver.Packet}
    (hk : ∀ k ∈ ks, Readable p.snaplen k) {x more : List UInt8}
    (hstream : x ++ more = (globalHeader p.snaplen).bytes ++ storedStream p ks)
    (hheader : sizeofPcapHdr ≤ x.length) :
    ∃ n rest, n ≤ ks.length ∧ recordFraming.frameLen rest = none ∧
      x = (globalHeader p.snaplen).bytes ++
        (((ks.take n).map (packetRecord p)).flatten ++ rest) ∧
      (n < ks.length →
        ¬ (globalHeader p.snaplen).bytes ++ storedStream p (ks.take (n + 1)) <+: x) ∧
      (more = [] → n = ks.length ∧ rest = []) := by
  have hhdr : (globalHeader p.snaplen).bytes.length = sizeofPcapHdr := PcapHdr.length_bytes _
  obtain ⟨y, rfl⟩ : ∃ y, x = (globalHeader p.snaplen).bytes ++ y := by
    obtain ⟨a, ha⟩ := List.prefix_of_prefix_length_le
      ⟨_, rfl⟩ (hstream ▸ List.prefix_append _ _) (hhdr.trans_le hheader)
    exact ⟨a, ha.symm⟩
  have hframes : ∀ f ∈ ks.map (packetRecord p), recordFraming.IsFrame f :=
    fun f hf => (forall_isRecord_stored hk f hf).1
  rw [List.append_assoc, storedStream_eq, List.append_cancel_left_eq] at hstream
  have hsplit := split_records hframes
  rw [← hstream, Framing.split_append] at hsplit
  obtain ⟨hfs, hend⟩ := Prod.mk.inj hsplit
  have hy := recordFraming.flatten_split y
  have hrest := recordFraming.frameLen_rest y
  have hread : more = [] → (recordFraming.split ((recordFraming.split y).2 ++ more)).1 = [] ∧
      (recordFraming.split y).2 = [] := by
    intro hnil
    rw [hnil, List.append_nil, Framing.split_of_none hrest] at hend ⊢
    exact ⟨rfl, hend⟩
  -- the frames of the beginning are the first packets
  generalize (recordFraming.split y).1 = fs at hfs hy
  generalize (recordFraming.split y).2 = rest at hfs hy hrest hread
  generalize (recordFraming.split (rest ++ more)).1 = gs at hfs hread
  have hle : fs.length ≤ ks.length := by
    rw [← List.length_map (packetRecord p), ← hfs, List.length_append]
    exact Nat.le_add_right _ _
  have htake : (ks.take fs.length).map (packetRecord p) = fs := by
    rw [List.map_take, ← hfs, List.take_left]
  refine ⟨fs.length, rest, hle, hrest, ?_, fun hlt => ?_, fun hnil => ?_⟩
  · rw [htake, hy]
  · -- the next packet would be a frame of the rest
    rw [storedStream_eq, List.map_take, ← hy, List.prefix_append_right_inj]
    intro hprefix
    have hnext : (ks.map (packetRecord p)).take (fs.length + 1) =
        fs ++ [packetRecord p ks[fs.length]] := by
      rw [List.take_succ_eq_append_getElem (by rwa [List.length_map]), List.getElem_map,
        ← List.map_take, htake]
    rw [hnext, List.flatten_append, List.prefix_append_right_inj, List.flatten_singleton]
      at hprefix
    obtain ⟨beyond, hbeyond⟩ := hprefix
    have hframe := recordFraming.append beyond (isFrame_stored (hk _ (List.getElem_mem hlt)))
    rw [hbeyond, hrest] at hframe
    cases hframe
  · obtain ⟨hgs, hrest⟩ := hread hnil
    rw [hgs, List.append_nil] at hfs
    rw [hfs, List.length_map]
    exact ⟨rfl, hrest⟩

/-- What has been delivered are whole packets, and a part of the next one. -/
theorem delivered_eq {snaplen : UInt32} {ops : List Op} {s : Session}
    (hs : (Session.init snaplen).run ops = s) (hb : s.data.buffer ≠ none)
    (hk : ∀ k ∈ s.accepted, Readable s.data.snaplen k)
    (hheader : sizeofPcapHdr ≤ s.delivered.length) :
    ∃ n rest, s.Delivered n ∧ recordFraming.frameLen rest = none ∧
      s.delivered = (globalHeader s.data.snaplen).bytes ++
        (((s.accepted.take n).map (packetRecord s.data)).flatten ++ rest) ∧
      (unread s.data = [] → n = s.accepted.length ∧ rest = []) := by
  obtain ⟨n, rest, hle, hrest, hx, hcut, hend⟩ :=
    prefix_stored hk (Session.stream_eq hs hb) hheader
  refine ⟨n, rest, ⟨hle, ?_, hcut⟩, hrest, hx, hend⟩
  rw [hx, storedStream_eq, ← List.append_assoc]
  exact List.prefix_append _ _

end Stream

/-! ## The output -/

section Output

open Cmd

variable {hdr : List UInt8} {fs : List (List UInt8)} {rest : List UInt8}

/-- A filter that is off asks for everything. -/
theorem wanted_of_disabled {data : ThreadData} (h : data.appFilter.enabled = false)
    (ks : List Driver.Packet) : wanted data ks = ks := by
  apply List.filter_eq_self.mpr
  intro k _
  exact decide_eq_true fun henabled => absurd (h.symm.trans henabled) Bool.false_ne_true

/-- The records that the thread keeps of stored packets. -/
theorem filter_accepts {p : RootHubData} {ks : List Driver.Packet}
    (hk : ∀ k ∈ ks, Readable p.snaplen k) (data : ThreadData) :
    (ks.map (packetRecord p)).filter (accepts data) = (wanted data ks).map (packetRecord p) := by
  rw [List.filter_map, wanted]
  refine congrArg (List.map (packetRecord p)) (List.filter_congr fun k hmem => ?_)
  exact accepts_stored (hk k hmem) data

/-- The thread sees whole records and a rest as the records, one after the other. -/
theorem read_parsed (v : View) (hhdr : hdr.length = sizeofPcapHdr)
    (hfs : ∀ f ∈ fs, recordFraming.IsFrame f) (hrest : recordFraming.frameLen rest = none) :
    v.read (hdr ++ (fs.flatten ++ rest)) = fs.foldl View.record (v.header hdr) := by
  unfold View.read
  rw [List.length_append, if_neg (by omega), ← hhdr, List.drop_left, List.take_left,
    Framing.split_flatten_append hfs, Framing.split_of_none hrest, List.append_nil]

/-- What the parsing thread writes for whole records and a rest. -/
theorem output_parsed {v : View} (hwrote : v.wrotePcapHeader = false)
    (htriggered : v.data.triggered = false)
    (hmode : v.data.storeMode = storeModeImmediate ∨ v.data.storeMode = storeModeOnMatch)
    (hhdr : hdr.length = sizeofPcapHdr) (hfs : ∀ f ∈ fs, recordFraming.IsFrame f)
    (hrest : recordFraming.frameLen rest = none) :
    (v.read (hdr ++ (fs.flatten ++ rest))).output =
      if v.data.storeMode = storeModeImmediate ∨ fs.filter (accepts v.data) ≠ [] then
        v.output ++ preamble hdr v.data.descriptors.descriptors ++
          (fs.filter (accepts v.data)).flatten
      else v.output := by
  rw [read_parsed v hhdr hfs hrest]
  rcases hmode with himmediate | honmatch
  · rw [if_pos (Or.inl himmediate), View.foldl_record_immediate himmediate hwrote]
  · have hnot : ¬ v.data.storeMode = storeModeImmediate := by
      rw [honmatch]
      decide
    have hheader : v.header hdr = { v with pcapHeader := hdr } := if_neg hnot
    rw [hheader]
    by_cases hnone : fs.filter (accepts v.data) = []
    · rw [if_neg (not_or.mpr ⟨hnot, not_not.mpr hnone⟩)]
      have hrejected : ∀ f ∈ fs, accepts ({ v with pcapHeader := hdr } : View).data f = false :=
        fun f hf => Bool.eq_false_iff.mpr (List.filter_eq_nil_iff.mp hnone f hf)
      obtain ⟨n, hn⟩ := View.foldl_record_of_rejected hrejected
      rw [hn]
    · rw [if_pos (Or.inr hnone)]
      have hwaiting : View.Waiting { v with pcapHeader := hdr } := ⟨honmatch, hwrote, htriggered⟩
      obtain ⟨f, hf⟩ := List.exists_mem_of_ne_nil _ hnone
      exact View.foldl_record_of_waiting hwaiting ⟨f, List.mem_filter.mp hf⟩

/-- The global header of the driver gets the descriptors behind it. -/
theorem preamble_globalHeader (snaplen : UInt32) (descriptors : List UInt8) :
    preamble (globalHeader snaplen).bytes descriptors =
      (globalHeader snaplen).bytes ++ descriptors := by
  rw [preamble_eq, if_pos ⟨PcapHdr.magicNumber_bytes _, PcapHdr.network_bytes _⟩]

/-- The output for a stream of stored packets and a rest. -/
theorem output_outcomeOf {st : State} (hst : st.Starts) (htriggered : st.data.triggered = false)
    (houtput : st.output = [])
    (hmode : st.data.storeMode = storeModeImmediate ∨ st.data.storeMode = storeModeOnMatch)
    {p : RootHubData} {ks : List Driver.Packet} (hk : ∀ k ∈ ks, Readable p.snaplen k)
    (hrest : recordFraming.frameLen rest = none) :
    ∃ tail, (rest = [] ∨ ¬ st.data.passesThrough → tail = []) ∧
      recordFraming.frameLen tail = none ∧
      (st.outcomeOf ((globalHeader p.snaplen).bytes
          ++ ((ks.map (packetRecord p)).flatten ++ rest))).output
        = if st.data.storeMode = storeModeImmediate ∨ wanted st.data ks ≠ [] then
            (globalHeader p.snaplen).bytes ++ (st.data.descriptors.descriptors ++
              (((wanted st.data ks).map (packetRecord p)).flatten ++ tail))
          else [] := by
  have hhdr : (globalHeader p.snaplen).bytes.length = sizeofPcapHdr := PcapHdr.length_bytes _
  unfold State.outcomeOf
  by_cases hpass : st.data.passesThrough
  · refine ⟨rest, fun h => h.resolve_right (not_not.mpr hpass), hrest, ?_⟩
    -- passed through: the cut record at the end is written as it is
    rw [if_pos hpass, if_pos (Or.inl hpass.2), wanted_of_disabled hpass.1]
    dsimp only
    unfold passed
    rw [List.length_append, if_neg (by omega), ← hhdr, List.take_left, List.drop_left,
      preamble_globalHeader, houtput, List.nil_append, List.append_assoc]
  · refine ⟨[], fun _ => rfl, recordLen_nil, ?_⟩
    -- parsed: a cut record stays pending
    have hwrote : st.view.wrotePcapHeader = false := by
      change st.parser.wrotePcapHeader = false
      rw [hst.parser]
      rfl
    have hframes : ∀ f ∈ ks.map (packetRecord p), recordFraming.IsFrame f :=
      fun f hf => (forall_isRecord_stored hk f hf).1
    have hfilter : (ks.map (packetRecord p)).filter (accepts st.view.data) =
        (wanted st.data ks).map (packetRecord p) := filter_accepts hk st.data
    have hview : st.view.output = [] := houtput
    rw [if_neg hpass]
    dsimp only
    rw [output_parsed hwrote htriggered hmode hhdr hframes hrest, hfilter, hview,
      List.nil_append, preamble_globalHeader, List.append_nil, List.append_assoc]
    exact if_congr (or_congr Iff.rfl (not_congr List.map_eq_nil_iff)) rfl rfl

end Output

/-! ## The whole capture -/

/-- The records of the injected block are records to the reader. -/
theorem InjectedBlock.records {block : List UInt8} {ps : List Cmd.Descriptors.Packet}
    (h : InjectedBlock block ps) : ∃ fs : List (List UInt8), block = fs.flatten ∧
      (∀ f ∈ fs, IsRecord f) ∧ List.Forall₂ (fun p f => p.ReadAs (decodeRecord f)) ps fs := by
  obtain ⟨hfits, clock, bus, rfl⟩ := h
  refine ⟨_, rfl, ?_⟩
  generalize 0 = k
  induction ps generalizing k with
  | nil => exact ⟨fun f hf => absurd hf List.not_mem_nil, .nil⟩
  | cons p ps ih =>
    have hp := hfits p List.mem_cons_self
    obtain ⟨hrecords, hread⟩ := ih (fun q hq => hfits q (List.mem_cons_of_mem p hq)) (k + 1)
    have hincl := Cmd.Descriptors.Packet.inclLen_recordHeader bus hp (clock k)
    have hlength := p.length_image bus
    have hhdr := (Cmd.Descriptors.recordHeader (clock k) (p.entry bus)).length_bytes
    rw [Cmd.Descriptors.Packet.Fits] at hp
    rw [List.map_cons, Cmd.Descriptors.records]
    constructor
    · intro f hf
      rcases List.mem_cons.mp hf with rfl | hf
      · refine ⟨isFrame_header_append _ hincl.symm, ?_⟩
        rw [PcaprecHdr.inclLen_bytes_append, hincl, hlength, maxRecordSize]
        omega
      · exact hrecords f hf
    · refine .cons ?_ hread
      rw [decodeRecord, List.take_left' hhdr, List.drop_left' hhdr]
      exact Cmd.Descriptors.Packet.readAs_recordOf bus hp (clock k)

section Injected

open Cmd.HubTree Cmd.Descriptors

/-- The driver's global header is a valid one. -/
theorem isPcapHeader_globalHeader (snaplen : UInt32) : IsPcapHeader (globalHeader snaplen).bytes :=
  ⟨PcapHdr.length_bytes _, Or.inl (PcapHdr.magicNumber_bytes _), PcapHdr.network_bytes _⟩

/-- Records that the reader admits fit the parser's buffer. -/
theorem recordsFit_flatten {fs : List (List UInt8)} (hfs : ∀ f ∈ fs, IsRecord f) :
    RecordsFit fs.flatten := by
  have hsplit := split_records fun f hf => (hfs f hf).1
  constructor
  · intro f hf
    rw [hsplit] at hf
    have hmax := (hfs f hf).2
    rw [maxRecordSize] at hmax
    omega
  · intro hlong
    rw [hsplit] at hlong
    exact absurd hlong (Nat.not_le_of_lt (Nat.zero_lt_succ 15))

/-- The block of `descriptors_generate_pcap`. -/
theorem injectedBlock_generate {Handle : Type*} {usb : Usb Handle}
    {getDescriptor : GetDescriptor Handle} {filter : Name} {fuel : ℕ}
    {devices : List (Device Handle)} (hvisits : Visits usb filter fuel (devices.map Device.call))
    (hanswers : ∀ d ∈ devices, d.Answers getDescriptor) {clock : ℕ → UInt64}
    {memory : ℕ → UInt8} {addresses : Cmd.AddressFilter}
    (hsize : ((injected addresses devices).map fun p => 16 + 28 + p.payload.length).sum < 2 ^ 31)
    {block : List UInt8} {length : Int32}
    (hblock : descriptorsGeneratePcap usb getDescriptor clock memory filter addresses fuel =
      some (block, length)) :
    InjectedBlock block (injected addresses devices) := by
  obtain ⟨bus, hbus⟩ : ∃ bus, (CallbackContext.init filter addresses).roothub = bus := ⟨_, rfl⟩
  have hlist := foldl_descriptorCallback hanswers (.init filter addresses)
  have hsized : ∀ e ∈ (injected addresses devices).map (Packet.entry bus), e.Sized := by
    intro e he
    obtain ⟨p, -, rfl⟩ := List.mem_map.mp he
    exact p.sized_entry bus
  rw [← recordBytes_map_entry bus] at hsize
  have hgenerate := generatePcapPackets_eq clock memory hsized hsize
  rw [descriptorsGeneratePcap, hvisits, hlist, Option.map_some, CallbackContext.add, hbus] at hblock
  obtain ⟨hrecords, -⟩ := Prod.mk.inj (hgenerate.symm.trans (Option.some.inj hblock))
  exact ⟨fun p hp => fits_of_mem_injected hanswers hp, clock, bus, hrecords.symm⟩

end Injected

/-- The service reads the exchanges of the injected block and then the packets. -/
theorem readAll_file {block : List UInt8} {ps : List Cmd.Descriptors.Packet}
    (hblock : InjectedBlock block ps) {p : RootHubData} {ks : List Driver.Packet}
    (hk : ∀ k ∈ ks, Readable p.snaplen k) {tail : List UInt8}
    (hnone : recordFraming.frameLen tail = none) :
    ∃ r recs, openReader ((globalHeader p.snaplen).bytes ++
          (block ++ ((ks.map (packetRecord p)).flatten ++ tail))) = .ok r ∧
      List.Forall₂ Cmd.Descriptors.Packet.ReadAs ps recs ∧
      r.readAll.1 = recs ++ ks.map (Packet.toRecord p) ∧ (tail = [] → r.readAll.2 = .eof) := by
  obtain ⟨fs, rfl, hrecords, hreads⟩ := hblock.records
  obtain ⟨r, hr, hf⟩ := openReader_append (isPcapHeader_globalHeader p.snaplen)
    (fs.flatten ++ ((ks.map (packetRecord p)).flatten ++ tail))
  rw [← List.append_assoc, ← List.flatten_append] at hf
  have hall : ∀ f ∈ fs ++ ks.map (packetRecord p), IsRecord f := by
    intro f hmem
    rcases List.mem_append.mp hmem with hmem | hmem
    · exact hrecords f hmem
    · exact forall_isRecord_stored hk f hmem
  obtain ⟨hdecode, heof⟩ := readAll_records hall hnone hf
  refine ⟨r, fs.map decodeRecord, hr, List.forall₂_map_right_iff.mpr hreads, ?_, heof⟩
  rw [hdecode, List.map_append, List.map_map]
  exact congrArg _ (List.map_congr_left fun k hmem => decodeRecord_stored (hk k hmem))

/-- The beginning of a stream of packets fits into the parser. -/
theorem recordsFit_stored {p : RootHubData} {ks : List Driver.Packet}
    (hk : ∀ k ∈ ks, Readable p.snaplen k) {x : List UInt8}
    (hx : x <+: (globalHeader p.snaplen).bytes ++ storedStream p ks) :
    RecordsFit (x.drop sizeofPcapHdr) := by
  have hhdr : (globalHeader p.snaplen).bytes.length = sizeofPcapHdr := PcapHdr.length_bytes _
  obtain ⟨more, hmore⟩ := hx
  have hall : RecordsFit (x.drop sizeofPcapHdr ++ more.drop (sizeofPcapHdr - x.length)) := by
    rw [← List.drop_append, hmore, List.drop_left' hhdr, storedStream_eq]
    exact recordsFit_flatten (forall_isRecord_stored hk)
  exact hall.of_append

/-- What has been delivered fits into the parser. -/
theorem recordsFit_delivered {snaplen : UInt32} {ops : List Op} {s : Session}
    (hs : (Session.init snaplen).run ops = s) (hb : s.data.buffer ≠ none)
    (hk : ∀ k ∈ s.accepted, Readable s.data.snaplen k) :
    RecordsFit (s.delivered.drop sizeofPcapHdr) :=
  recordsFit_stored hk ⟨_, Session.stream_eq hs hb⟩

/-- The thread ends, and its output is what is due of the packets that have been delivered. -/
theorem readThread_delivered {env : Cmd.Env} (he : env.Succeeds) {snaplen : UInt32}
    {ops : List Op} {s : Session} (hs : (Session.init snaplen).run ops = s)
    (hb : s.data.buffer ≠ none) (hk : ∀ k ∈ s.accepted, Readable s.data.snaplen k)
    (hheader : sizeofPcapHdr ≤ s.delivered.length) (hlen : s.delivered.length < 2 ^ 31)
    {st : Cmd.State} (hst : st.Starts) (htriggered : st.data.triggered = false)
    (houtput : st.output = [])
    (hmode : st.data.storeMode = Cmd.storeModeImmediate ∨
      st.data.storeMode = Cmd.storeModeOnMatch)
    {chunks : List (List UInt8)} (hchunks : chunks.flatten = s.delivered) {fuel : ℕ}
    (hfuel : s.delivered.length < fuel) :
    ∃ t n rest tail, Cmd.readThread env fuel st chunks = .ok t ∧ s.Delivered n ∧
      (unread s.data = [] → n = s.accepted.length) ∧
      s.delivered = (globalHeader s.data.snaplen).bytes ++
        (((s.accepted.take n).map (packetRecord s.data)).flatten ++ rest) ∧
      recordFraming.frameLen rest = none ∧
      (unread s.data = [] ∨ ¬ st.data.passesThrough → tail = []) ∧
      recordFraming.frameLen tail = none ∧
      t.output =
        if st.data.storeMode = Cmd.storeModeImmediate ∨ wanted st.data (s.accepted.take n) ≠ [] then
          (globalHeader s.data.snaplen).bytes ++ (st.data.descriptors.descriptors ++
            (((wanted st.data (s.accepted.take n)).map (packetRecord s.data)).flatten ++ tail))
        else [] := by
  obtain ⟨n, rest, hdelivered, hrest, hstream, hread⟩ := delivered_eq hs hb hk hheader
  have hkeep : ∀ k ∈ s.accepted.take n, Readable s.data.snaplen k :=
    fun k hmem => hk k (List.mem_of_mem_take hmem)
  obtain ⟨t, ht, hout⟩ := Cmd.readThread_outcome he.toStores hst (fun _ => he.toOpens)
    (hchunks ▸ hlen) (hchunks ▸ recordsFit_delivered hs hb hk) (hchunks ▸ hfuel)
  obtain ⟨tail, htail, hnone, htailout⟩ :=
    output_outcomeOf hst htriggered houtput hmode hkeep hrest
  have hfile : t.output = (st.outcomeOf chunks.flatten).output := congrArg Cmd.Outcome.output hout
  rw [hchunks, congrArg st.outcomeOf hstream, htailout] at hfile
  exact ⟨t, n, rest, tail, ht, hdelivered, fun hnil => (hread hnil).1, hstream, hrest,
    fun hend => htail (hend.imp (fun hnil => (hread hnil).2) id), hnone, hfile⟩

/-- **What the driver recorded is what the service reads.** After any run of the driver that leaves
a buffer behind, and however the delivered bytes are cut into reads, `read_thread` ends. Its output
holds the injected exchanges and then, in order and once each, those of the wholly delivered packets
that the filter asks for; in on-match storage it stays empty until there is one. -/
theorem capture_read_back {env : Cmd.Env} (he : env.Succeeds) (snaplen : UInt32) (ops : List Op)
    {s : Session} (hs : (Session.init snaplen).run ops = s) (hb : s.data.buffer ≠ none)
    (hk : ∀ k ∈ s.accepted, Readable s.data.snaplen k)
    (hheader : sizeofPcapHdr ≤ s.delivered.length) (hlen : s.delivered.length < 2 ^ 31)
    {st : Cmd.State} (hst : st.Starts) (htriggered : st.data.triggered = false)
    (houtput : st.output = [])
    (hmode : st.data.storeMode = Cmd.storeModeImmediate ∨
      st.data.storeMode = Cmd.storeModeOnMatch)
    {ps : List Cmd.Descriptors.Packet}
    (hblock : InjectedBlock st.data.descriptors.descriptors ps)
    {chunks : List (List UInt8)} (hchunks : chunks.flatten = s.delivered) {fuel : ℕ}
    (hfuel : s.delivered.length < fuel) :
    ∃ t n, Cmd.readThread env fuel st chunks = .ok t ∧ s.Delivered n ∧
      (unread s.data = [] → n = s.accepted.length) ∧
      (st.data.storeMode = Cmd.storeModeImmediate ∨ wanted st.data (s.accepted.take n) ≠ [] →
        ∃ r recs, openReader t.output = .ok r ∧ List.Forall₂ Cmd.Descriptors.Packet.ReadAs ps recs ∧
          r.readAll.1 = recs ++ (wanted st.data (s.accepted.take n)).map (Packet.toRecord s.data) ∧
          (unread s.data = [] ∨ ¬ st.data.passesThrough → r.readAll.2 = .eof)) ∧
      (st.data.storeMode = Cmd.storeModeOnMatch ∧ wanted st.data (s.accepted.take n) = [] →
        t.output = []) := by
  obtain ⟨t, n, -, tail, ht, hdelivered, hread, -, -, htail, hnone, hfile⟩ :=
    readThread_delivered he hs hb hk hheader hlen hst htriggered houtput hmode hchunks hfuel
  refine ⟨t, n, ht, hdelivered, hread, fun hdue => ?_, fun hnothing => ?_⟩
  · rw [if_pos hdue] at hfile
    have hwanted : ∀ k ∈ wanted st.data (s.accepted.take n), Readable s.data.snaplen k :=
      fun k hmem => hk k (List.mem_of_mem_take (List.mem_of_mem_filter hmem))
    obtain ⟨r, recs, hr, hreads, hrecs, heof⟩ := readAll_file hblock hwanted hnone
    exact ⟨r, recs, hfile ▸ hr, hreads, hrecs, fun hend => heof (htail hend)⟩
  · rw [hfile, if_neg]
    rintro (himmediate | hsome)
    · exact absurd (himmediate.symm.trans hnothing.1) (by decide)
    · exact hsome hnothing.2

/-- A bulk transfer that is read in two parts. -/
def deliveredBulk : Session :=
  (Session.init 65535).run [.setUpBuffer 4096 (some Session.zeroBlock),
    .storePacket Session.mappedBulk, .read 60, .read 4096]

/-- A thread that stores the packets of endpoint 0x81 behind the exchanges of two devices. -/
def injectingThread : Cmd.State :=
  .start { Cmd.sampleData with
    descriptors :=
      { descriptors := (Cmd.Descriptors.records (fun _ => 0) 0
          ((Cmd.Descriptors.injected Cmd.Descriptors.sampleAddresses
            Cmd.Descriptors.sampleDevices).map (Cmd.Descriptors.Packet.entry 1))).flatten
        buf := List.replicate sizeofPcapHdr 0
        bufWritten := 0 } }

/-- Its one packet is readable. -/
theorem readable_deliveredBulk :
    ∀ k ∈ deliveredBulk.accepted, Readable deliveredBulk.data.snaplen k := by
  intro k hk
  obtain rfl := List.mem_singleton.mp (show k ∈ [Session.mappedBulk] from hk)
  constructor <;> decide

/-- The thread has not begun. -/
theorem starts_injectingThread : injectingThread.Starts :=
  ⟨rfl, rfl, rfl, rfl, fun h => Cmd.Handle.noConfusion h⟩

/-- Its block is the one of the sample bus. -/
theorem injectedBlock_injectingThread :
    InjectedBlock injectingThread.data.descriptors.descriptors
      (Cmd.Descriptors.injected Cmd.Descriptors.sampleAddresses Cmd.Descriptors.sampleDevices) :=
  ⟨fun _ hp => Cmd.Descriptors.fits_of_mem_injected Cmd.Descriptors.answers_sampleDevices hp,
    _, 1, rfl⟩

/-- A header and one record. -/
theorem length_deliveredBulk : deliveredBulk.delivered.length = 75 := by decide +kernel

/-- The capture of that packet, with the descriptors in front, read back. -/
theorem capture_read_back_bulk :
    ∃ t n, Cmd.readThread .reliable 100 injectingThread [deliveredBulk.delivered] = .ok t ∧
      deliveredBulk.Delivered n ∧
      (unread deliveredBulk.data = [] → n = deliveredBulk.accepted.length) ∧
      (injectingThread.data.storeMode = Cmd.storeModeImmediate ∨
          wanted injectingThread.data (deliveredBulk.accepted.take n) ≠ [] →
        ∃ r recs, openReader t.output = .ok r ∧
          List.Forall₂ Cmd.Descriptors.Packet.ReadAs
            (Cmd.Descriptors.injected Cmd.Descriptors.sampleAddresses
              Cmd.Descriptors.sampleDevices) recs ∧
          r.readAll.1 = recs ++ (wanted injectingThread.data
            (deliveredBulk.accepted.take n)).map (Packet.toRecord deliveredBulk.data) ∧
          (unread deliveredBulk.data = [] ∨ ¬ injectingThread.data.passesThrough →
            r.readAll.2 = .eof)) ∧
      (injectingThread.data.storeMode = Cmd.storeModeOnMatch ∧
        wanted injectingThread.data (deliveredBulk.accepted.take n) = [] → t.output = []) := by
  exact capture_read_back Cmd.Env.reliable_succeeds 65535 _ (s := deliveredBulk) rfl (by decide)
    readable_deliveredBulk (by rw [length_deliveredBulk]; decide)
    (by rw [length_deliveredBulk]; decide) starts_injectingThread rfl rfl (Or.inl rfl)
    injectedBlock_injectingThread (List.append_nil _) (by rw [length_deliveredBulk]; decide)

end UsbPcap
