import Mathlib.Algebra.BigOperators.Group.List.Lemmas
import UsbPcap.Driver.Allocation
import UsbPcap.Driver.Lengths

/-!
# Isochronous transfers that come back

The completion of an isochronous IN transfer is recorded without the gaps between its packets: the
lengths are added up, the packet table gets new offsets, and an array of payload entries points to
the data. `isoch_compaction` says that the record keeps every packet's data as long as the exact sum
of the lengths fits the buffer, and `isoch_guard_sound_iff` when the safety check sees to that.
-/

namespace UsbPcap.Driver

open Format

/-! ## The bytes that a payload supplies -/

/-- The payload entries up to the first `NULL` point to these bytes. -/
inductive Supplies : List AddressEntry → List UInt8 → Prop where
  | nil : Supplies [] []
  | null {e : AddressEntry} {es : List AddressEntry} (null : e.buffer = .null) :
    Supplies (e :: es) []
  | within {e : AddressEntry} {es : List AddressEntry} {b : List UInt8} {offset : ℕ}
    {bytes : List UInt8} (buffer : e.buffer = .within b offset)
    (inside : e.size.toNat ≤ b.length - offset) (rest : Supplies es bytes) :
    Supplies (e :: es) ((b.drop offset).take e.size.toNat ++ bytes)

/-- The buffer gets to see exactly these bytes. -/
theorem Supplies.suppliedPayload_eq {k : List PayloadEntry} {w : List AddressEntry}
    {bytes : List UInt8} (h : Supplies w bytes)
    (hsees : List.Forall₂ (fun e a => e.size = a.size ∧ a.buffer.Reads e.buffer) k w) :
    suppliedPayload k = bytes := by
  induction h generalizing k with
  | nil =>
    obtain rfl := List.forall₂_nil_right_iff.mp hsees
    rfl
  | null null =>
    cases hsees with
    | cons hea _ =>
      have hread := hea.2
      rw [null] at hread
      rw [suppliedPayload, show _ = none from hread]
  | within buffer inside _ ih =>
    cases hsees with
    | cons hea hrest =>
      obtain ⟨hsize, hread⟩ := hea
      rw [buffer] at hread
      obtain ⟨behind, hmemory⟩ := hread
      simp only [suppliedPayload, hmemory]
      rw [hsize, ih hrest, List.take_append_of_le_length (by rwa [List.length_drop])]

/-! ## Exact lengths -/

/-- The sum of the packet lengths, without wrapping. -/
def exactLength (packets : List IsoPacket) : ℕ := (packets.map fun q => q.length.toNat).sum

@[simp] theorem exactLength_nil : exactLength [] = 0 := rfl

@[simp] theorem exactLength_cons (q : IsoPacket) (packets : List IsoPacket) :
    exactLength (q :: packets) = q.length.toNat + exactLength packets := List.sum_cons

/-- `compactedLength` is the exact sum, cut to 32 bits. -/
theorem toNat_compactedLength (packets : List IsoPacket) :
    (compactedLength packets).toNat = exactLength packets % 2 ^ 32 := by
  have hfold (acc : UInt32) :
      (packets.foldl (fun length q => length + q.length) acc).toNat =
        (acc.toNat + exactLength packets) % 2 ^ 32 := by
    induction packets generalizing acc with
    | nil => exact (Nat.mod_eq_of_lt acc.toNat_lt).symm
    | cons q packets ih =>
      rw [List.foldl_cons, ih, UInt32.toNat_add, exactLength_cons, Nat.mod_add_mod, Nat.add_assoc]
  rw [compactedLength, hfold]
  exact congrArg (· % 2 ^ 32) (Nat.zero_add _)

/-- The `i`-th packet behind the rewrite of the table: its place is the exact sum of the lengths in
front of it, and the rest stays. -/
theorem compactPackets_spec {packets : List IsoPacket} (offset : UInt32)
    (h : offset.toNat + exactLength packets < 2 ^ 32) {i : ℕ} (hi : i < packets.length) :
    ∃ q, (compactPackets offset packets)[i]? = some q ∧
      q.offset.toNat = offset.toNat + exactLength (packets.take i) ∧
      q.length = packets[i].length ∧ q.status = packets[i].status := by
  induction packets generalizing offset i with
  | nil => exact absurd hi (Nat.not_lt_zero i)
  | cons p packets ih =>
    rw [exactLength_cons] at h
    cases i with
    | zero => exact ⟨_, rfl, rfl, rfl, rfl⟩
    | succ i =>
      have hsum : (offset + p.length).toNat = offset.toNat + p.length.toNat := by
        rw [UInt32.toNat_add]
        exact Nat.mod_eq_of_lt (by omega)
      obtain ⟨q, hq, hoffset, hrest⟩ :=
        ih (offset + p.length) (by omega) (Nat.lt_of_succ_lt_succ hi)
      refine ⟨q, hq, ?_, hrest⟩
      rw [hoffset, hsum, List.take_succ_cons, exactLength_cons, Nat.add_assoc]

/-- The slices of the transfer buffer that hold the packets' data. -/
def packetSlices (b : List UInt8) (packets : List IsoPacket) : List (List UInt8) :=
  packets.map fun q => (b.drop q.offset.toNat).take q.length.toNat

/-- Packets in a mapped buffer end in it, if they are not empty. -/
theorem inside_slices {t : TransferBuffer} {b : List UInt8} (hb : t.pointer = some b)
    {packets : List IsoPacket} (h : ∀ q ∈ packets, q.Inside t) :
    ∀ q ∈ packets, q.length.toNat ≤ b.length - q.offset.toNat := by
  intro q hq
  rcases h q hq with hzero | ⟨hnone, -⟩ | ⟨b', hb', hle⟩
  · rw [hzero]
    exact Nat.zero_le _
  · rw [hb] at hnone
    cases hnone
  · obtain rfl := Option.some.inj (hb.symm.trans hb')
    omega

/-- With the data in the buffer, the slices are as long as the packets. -/
theorem length_packetSlices {b : List UInt8} {packets : List IsoPacket}
    (h : ∀ q ∈ packets, q.length.toNat ≤ b.length - q.offset.toNat) :
    (packetSlices b packets).map List.length = packets.map fun q => q.length.toNat := by
  rw [packetSlices, List.map_map]
  refine List.map_congr_left fun q hq => ?_
  rw [Function.comp_apply, List.length_take, List.length_drop, Nat.min_eq_left (h q hq)]

theorem length_flatten_packetSlices {b : List UInt8} {packets : List IsoPacket}
    (h : ∀ q ∈ packets, q.length.toNat ≤ b.length - q.offset.toNat) :
    (packetSlices b packets).flatten.length = exactLength packets := by
  rw [List.length_flatten, length_packetSlices h, exactLength]

/-- The compacted payload has every packet's data at the packet's new place. -/
theorem slice_flatten_packetSlices {b : List UInt8} {packets : List IsoPacket}
    (h : ∀ q ∈ packets, q.length.toNat ≤ b.length - q.offset.toNat) {i : ℕ}
    (hi : i < packets.length) :
    ((packetSlices b packets).flatten.drop (exactLength (packets.take i))).take
        packets[i].length.toNat =
      (b.drop packets[i].offset.toNat).take packets[i].length.toNat := by
  have hlengths := length_packetSlices h
  have hslice := List.drop_take_succ_flatten_eq_getElem (packetSlices b packets) i
    (by rwa [packetSlices, List.length_map])
  have hnext : exactLength (packets.take (i + 1)) =
      exactLength (packets.take i) + packets[i].length.toNat := by
    rw [List.take_succ_eq_append_getElem hi, exactLength, List.map_append, List.sum_append]
    rfl
  rw [hlengths, ← List.map_take, ← List.map_take, ← exactLength, ← exactLength, hnext,
    List.drop_take, Nat.add_sub_cancel_left] at hslice
  rw [hslice]
  exact List.getElem_map _

/-- The payload entries of the compaction supply the slices. -/
theorem supplies_compactedPayloadEntries {b : List UInt8} {packets : List IsoPacket}
    (h : ∀ q ∈ packets, q.length.toNat ≤ b.length - q.offset.toNat) :
    Supplies (compactedPayloadEntries (some b) packets) (packetSlices b packets).flatten := by
  induction packets with
  | nil => exact .null rfl
  | cons q packets ih =>
    exact .within rfl (h q List.mem_cons_self) (ih fun q hq => h q (List.mem_cons_of_mem _ hq))

/-! ## The fields of the record -/

/-- The first packets of the table take twelve bytes each. -/
theorem drop_flatMap_bytes (packets : List IsoPacket) (i : ℕ) (hi : i ≤ packets.length) :
    (packets.flatMap IsoPacket.bytes).drop (12 * i) =
      (packets.drop i).flatMap IsoPacket.bytes := by
  induction packets generalizing i with
  | nil =>
    obtain rfl := Nat.le_zero.mp hi
    rfl
  | cons q packets ih =>
    cases i with
    | zero => rfl
    | succ i =>
      rw [List.flatMap_cons, Nat.mul_succ, Nat.add_comm, ← List.drop_drop,
        List.drop_left' q.length_bytes, ih i (Nat.le_of_succ_le_succ hi), List.drop_succ_cons]

/-- The fields of the `i`-th packet of a table, with anything behind it. -/
theorem isoPacket_fields {packets : List IsoPacket} {i : ℕ} {q : IsoPacket}
    (hq : packets[i]? = some q) (rest : List UInt8) :
    field (12 * i) 4 (packets.flatMap IsoPacket.bytes ++ rest) = q.offset.toNat ∧
    field (12 * i + 4) 4 (packets.flatMap IsoPacket.bytes ++ rest) = q.length.toNat ∧
    field (12 * i + 8) 4 (packets.flatMap IsoPacket.bytes ++ rest) = q.status.toNat := by
  obtain ⟨hi, rfl⟩ := List.getElem?_eq_some_iff.mp hq
  have hmod (x : UInt32) : x.toNat % 256 ^ 4 = x.toNat := Nat.mod_eq_of_lt x.toNat_lt
  have hfield (off w : ℕ) : field (12 * i + off) w (packets.flatMap IsoPacket.bytes ++ rest) =
      field off w (packets[i].bytes ++
        ((packets.drop (i + 1)).flatMap IsoPacket.bytes ++ rest)) := by
    have hlen : 12 * i ≤ (packets.flatMap IsoPacket.bytes).length := by
      rw [length_flatMap_bytes]
      omega
    rw [field, field, ← List.drop_drop, List.drop_append_of_le_length hlen,
      drop_flatMap_bytes packets i (Nat.le_of_lt hi), List.drop_eq_getElem_cons hi,
      List.flatMap_cons, List.append_assoc]
  have hzero := hfield 0 4
  rw [Nat.add_zero] at hzero
  rw [hzero, hfield, hfield, IsoPacket.bytes]
  simp (disch := omega) only [List.append_assoc, field_skip, Nat.reduceSub, field_encode, hmod,
    and_self]

/-- A packet that is stored as a whole: its header and then its payload. -/
theorem bufferStorePacket_whole {p : RootHubData} (h : RingOk p) (timestamp : ℤ)
    {header : PacketHeader} {es : List PayloadEntry}
    (hmemory : header.memory.length = header.header.headerLen.toNat)
    (hsupplied : (suppliedPayload es).length = header.header.dataLength.toNat)
    (hsnaplen : header.header.headerLen.toNat + header.header.dataLength.toNat ≤ p.snaplen.toNat)
    (hroom : 16 + (header.header.headerLen.toNat + header.header.dataLength.toNat) ≤
      getBufferFree p) :
    (bufferStorePacket p timestamp header es).1 = .success ∧
      Appends p
        ((initializePcapHeader p timestamp (packetBytes header.header)).bytes ++
          (header.memory ++ suppliedPayload es))
        (bufferStorePacket p timestamp header es).2 := by
  obtain ⟨-, -, hfail, -, hstored⟩ := bufferStorePacket_exact (fun _ => h) timestamp header es
    (Nat.lt_of_le_of_lt hsnaplen p.snaplen.toNat_lt) (Nat.le_of_eq hsupplied.symm)
  rw [Nat.min_eq_left hsnaplen] at hfail hstored
  have hok := not_not.mp (mt hfail.mp (not_or.mpr ⟨h.buffer_ne_none, by omega⟩))
  refine ⟨hok, ?_⟩
  have happ := hstored hok
  rwa [← hmemory, List.take_length, List.take_of_length_le (by
    rw [List.length_append, hsupplied])] at happ

/-- The body of a record holds the packets of a transfer one behind the other: its lengths are
right, and what its table says about a packet's place leads to the packet's data. -/
structure Compacted (transfer : IsochTransfer) (b body : List UInt8) : Prop where
  headerLen : field 0 2 body = 39 + 12 * transfer.numberOfPackets.toNat
  dataLength : field 23 4 body = exactLength transfer.packets
  numberOfPackets : field 31 4 body = transfer.numberOfPackets.toNat
  length : body.length = 39 + 12 * transfer.numberOfPackets.toNat + exactLength transfer.packets
  offset : ∀ i < transfer.numberOfPackets.toNat,
    field (39 + 12 * i) 4 body = exactLength (transfer.packets.take i)
  packetLength : ∀ i < transfer.numberOfPackets.toNat,
    field (43 + 12 * i) 4 body = (transfer.isoPacket i).length.toNat
  packetStatus : ∀ i < transfer.numberOfPackets.toNat,
    field (47 + 12 * i) 4 body = (transfer.isoPacket i).status.toNat
  data : ∀ i < transfer.numberOfPackets.toNat,
    ((body.drop (39 + 12 * transfer.numberOfPackets.toNat)).drop
        (field (39 + 12 * i) 4 body)).take (field (43 + 12 * i) 4 body) =
      (b.drop (transfer.isoPacket i).offset.toNat).take (transfer.isoPacket i).length.toNat

section

variable (root : RootData) (irp : Pirp) (urb : Urb) (env : Surroundings) (data : DeviceData)

variable (post : Bool) {transfer : IsochTransfer} (dataLength : UInt32) {packets : List IsoPacket}
  (few : ¬ 1024 < transfer.numberOfPackets)
  (all : packets.length = transfer.numberOfPackets.toNat)

/-- The memory of an isochronous header: the packed structure, then the table. -/
theorem isochHeader_memory :
    (isochHeader root irp urb post data transfer dataLength packets few all).memory =
      (isochHeader root irp urb post data transfer dataLength packets few all).header.bytes ++
        isochExt transfer packets := rfl

theorem isochHeader_headerLen :
    let header := isochHeader root irp urb post data transfer dataLength packets few all
    header.header.headerLen.toNat = 39 + 12 * transfer.numberOfPackets.toNat :=
  isochHeaderLen_toNat few

theorem length_isochHeader_memory :
    (isochHeader root irp urb post data transfer dataLength packets few all).memory.length =
      39 + 12 * transfer.numberOfPackets.toNat := by
  rw [isochHeader_memory, List.length_append, BufferPacketHeader.length_bytes, length_isochExt, all]
  omega

/-- The fields of the packet table, which starts at 39, with anything behind it. -/
theorem field_isochHeader (off w : ℕ) (rest : List UInt8) :
    field (39 + off) w
        ((isochHeader root irp urb post data transfer dataLength packets few all).memory ++ rest) =
      field off w (packets.flatMap IsoPacket.bytes ++ rest) := by
  rw [isochHeader_memory, List.append_assoc,
    field_append_right (by rw [BufferPacketHeader.length_bytes]; omega),
    BufferPacketHeader.length_bytes, isochExt]
  simp (disch := omega) only [List.append_assoc, field_skip]
  congr 1
  omega

theorem IsochTransfer.length_compactPackets (transfer : IsochTransfer) :
    (compactPackets 0 transfer.packets).length = transfer.numberOfPackets.toNat :=
  (Driver.length_compactPackets 0 _).trans transfer.length_packets

/-- The record of a transfer that is compacted. -/
def compactedWrite (few : ¬ 1024 < transfer.numberOfPackets) : PayloadWrite where
  timestamp := env.now
  header := isochHeader root irp urb true data transfer (compactedLength transfer.packets)
    (compactPackets 0 transfer.packets) few transfer.length_compactPackets
  payload := compactedPayloadEntries transfer.pointer transfer.packets

/-- The header of a compacted record in memory is as long as it says. -/
theorem length_compactedWrite_memory :
    (compactedWrite root irp urb env data few).header.memory.length =
      39 + 12 * transfer.numberOfPackets.toNat :=
  length_isochHeader_memory root irp urb data true _ few transfer.length_compactPackets

theorem compactedWrite_headerLen :
    (compactedWrite root irp urb env data few).header.header.headerLen.toNat =
      39 + 12 * transfer.numberOfPackets.toNat :=
  isochHeader_headerLen root irp urb data true _ few transfer.length_compactPackets

/-- The `i`-th packet in the table of a compacted record. -/
theorem field_compacted (hexact : exactLength transfer.packets < 2 ^ 32) (rest : List UInt8) {i : ℕ}
    (hi : i < transfer.numberOfPackets.toNat) :
    let body := (compactedWrite root irp urb env data few).header.memory ++ rest
    field (39 + 12 * i) 4 body = exactLength (transfer.packets.take i) ∧
      field (43 + 12 * i) 4 body = (transfer.isoPacket i).length.toNat ∧
      field (47 + 12 * i) 4 body = (transfer.isoPacket i).status.toNat := by
  have hi' : i < transfer.packets.length := transfer.length_packets.symm ▸ hi
  obtain ⟨q, hq, hoffset, hlength, hstatus⟩ :=
    compactPackets_spec 0 (by rwa [UInt32.toNat_zero, Nat.zero_add]) hi'
  have hget : transfer.packets[i] = transfer.isoPacket i := by
    simp only [IsochTransfer.packets, List.getElem_map, List.getElem_range]
  obtain ⟨hfield, hfield', hfield''⟩ := isoPacket_fields hq rest
  rw [UInt32.toNat_zero, Nat.zero_add] at hoffset
  rw [hget] at hlength hstatus
  rw [hoffset] at hfield
  rw [hlength] at hfield'
  rw [hstatus] at hfield''
  have htable (off : ℕ) := field_isochHeader root irp urb data true
    (compactedLength transfer.packets) few transfer.length_compactPackets off 4 rest
  refine ⟨(htable _).trans hfield, ?_, ?_⟩
  · rw [show 43 + 12 * i = 39 + (12 * i + 4) by omega]
    exact (htable _).trans hfield'
  · rw [show 47 + 12 * i = 39 + (12 * i + 8) by omega]
    exact (htable _).trans hfield''

/-- What a compacted record says and holds, as long as the exact sum of the lengths fits 32 bits. -/
theorem compacted_of_exact {b : List UInt8} (hexact : exactLength transfer.packets < 2 ^ 32)
    (hinside : ∀ q ∈ transfer.packets, q.length.toNat ≤ b.length - q.offset.toNat) :
    Compacted transfer b ((compactedWrite root irp urb env data few).header.memory ++
      (packetSlices b transfer.packets).flatten) := by
  have htable (i : ℕ) (hi : i < transfer.numberOfPackets.toNat) :=
    field_compacted root irp urb env data few hexact (packetSlices b transfer.packets).flatten hi
  have hmemory := length_compactedWrite_memory root irp urb env data few
  have hmod (x : UInt32) : x.toNat % 256 ^ 4 = x.toNat := Nat.mod_eq_of_lt x.toNat_lt
  refine ⟨?_, ?_, ?_, ?_, fun i hi => (htable i hi).1, fun i hi => (htable i hi).2.1,
    fun i hi => (htable i hi).2.2, fun i hi => ?_⟩
  · rw [compactedWrite, isochHeader_memory, BufferPacketHeader.bytes]
    simp only [List.append_assoc, field_encode]
    exact (Nat.mod_eq_of_lt (UInt16.toNat_lt _)).trans (isochHeader_headerLen ..)
  · rw [compactedWrite, isochHeader_memory, BufferPacketHeader.bytes]
    simp (disch := omega) only [List.append_assoc, field_skip, Nat.reduceSub, field_encode, hmod]
    exact (toNat_compactedLength _).trans (Nat.mod_eq_of_lt hexact)
  · rw [compactedWrite, isochHeader_memory, BufferPacketHeader.bytes, isochExt]
    simp (disch := omega) only [List.append_assoc, field_skip, Nat.reduceSub, field_encode, hmod]
  · rw [List.length_append, hmemory, length_flatten_packetSlices hinside]
  · have hi' : i < transfer.packets.length := transfer.length_packets.symm ▸ hi
    have hget : transfer.packets[i] = transfer.isoPacket i := by
      simp only [IsochTransfer.packets, List.getElem_map, List.getElem_range]
    have hslice := slice_flatten_packetSlices hinside hi'
    rw [hget] at hslice
    obtain ⟨hoffset, hlength, -⟩ := htable i hi
    rw [hoffset, hlength, ← hmemory, List.drop_left, hslice]

/-- A compacted record is stored as a whole. -/
theorem store_compactedWrite {k : Packet} (hk : k.Sees (compactedWrite root irp urb env data few))
    {b : List UInt8} (hb : transfer.pointer = some b)
    (hexact : exactLength transfer.packets < 2 ^ 32)
    (hinside : ∀ q ∈ transfer.packets, q.length.toNat ≤ b.length - q.offset.toNat)
    {p : RootHubData} (hp : RingOk p)
    (hsnaplen : 39 + 12 * transfer.numberOfPackets.toNat + exactLength transfer.packets ≤
      p.snaplen.toNat)
    (hroom : 16 + (39 + 12 * transfer.numberOfPackets.toNat + exactLength transfer.packets) ≤
      getBufferFree p) :
    (bufferStorePacket p k.timestamp k.header k.payload).1 = .success ∧
      Appends p
        ((initializePcapHeader p k.timestamp (packetBytes k.header.header)).bytes ++
          ((compactedWrite root irp urb env data few).header.memory ++
            (packetSlices b transfer.packets).flatten))
        (bufferStorePacket p k.timestamp k.header k.payload).2 := by
  have hpayload := hk.payload
  rw [compactedWrite, hb] at hpayload
  have hsupplied := (supplies_compactedPayloadEntries hinside).suppliedPayload_eq hpayload
  have hlength := length_flatten_packetSlices hinside
  have hheaderLen := compactedWrite_headerLen root irp urb env data few
  have hmemory := length_compactedWrite_memory root irp urb env data few
  have hdataLength : k.header.header.dataLength.toNat = exactLength transfer.packets := by
    rw [hk.header]
    exact (toNat_compactedLength _).trans (Nat.mod_eq_of_lt hexact)
  rw [← hk.header] at hheaderLen hmemory ⊢
  rw [← hsupplied]
  exact bufferStorePacket_whole hp k.timestamp (hmemory.trans hheaderLen.symm)
    (by rw [hsupplied, hlength, hdataLength]) (by omega) (by omega)

end

/-- **Compaction keeps every packet's data.** When an isochronous IN transfer of at most 1024
packets comes back on a filtered device, with allocations that succeed, a mapped buffer that holds
the packets' data and an exact sum of lengths within a transfer length that is not zero, the call
has one record of its own. With room for it and a snaplen that does not cut it, its body says how
long it is, and has every packet with its length and status in order, without gaps, at a place where
the packet's data is. -/
theorem isoch_compaction (root : RootData) (irp : Pirp) {urb : Urb} {env : Surroundings}
    {data : DeviceData} {transfer : IsochTransfer} (hbody : urb.body = .isochTransfer transfer)
    (hfiltered : isDeviceFiltered root.filter data.deviceAddress.toNat = true)
    (hheader : env.isochHeaderPool = true) (hentries : env.isochEntriesPool = true)
    (few : transfer.numberOfPackets ≤ 1024)
    (hin : transfer.transferFlags &&& usbdTransferDirectionIn = usbdTransferDirectionIn)
    (hlength : transfer.transferBufferLength ≠ 0)
    (hsum : exactLength transfer.packets ≤ transfer.transferBufferLength.toNat)
    {b : List UInt8} (hb : transfer.pointer = some b)
    (hinside : ∀ q ∈ transfer.packets, q.Inside transfer.toTransferBuffer) :
    ∃ w, (analyzeUrb root irp urb true env data).writes = savedWrites irp true data ++ [w] ∧
      ∀ k : Packet, k.Sees w → ∀ p : RootHubData, RingOk p →
        39 + 12 * transfer.numberOfPackets.toNat + exactLength transfer.packets ≤ p.snaplen.toNat →
        16 + (39 + 12 * transfer.numberOfPackets.toNat + exactLength transfer.packets) ≤
          getBufferFree p →
        ∃ (recordHeader : PcaprecHdr) (body : List UInt8),
          (bufferStorePacket p k.timestamp k.header k.payload).1 = .success ∧
          Appends p (recordHeader.bytes ++ body)
            (bufferStorePacket p k.timestamp k.header k.payload).2 ∧
          Compacted transfer b body := by
  have few' : ¬ 1024 < transfer.numberOfPackets := UInt32.not_lt.mpr few
  have hexact : exactLength transfer.packets < 2 ^ 32 :=
    Nat.lt_of_le_of_lt hsum transfer.transferBufferLength.toNat_lt
  have hcompacted : (compactedLength transfer.packets).toNat = exactLength transfer.packets :=
    (toNat_compactedLength _).trans (Nat.mod_eq_of_lt hexact)
  -- the exact sum fits, so the code's 32-bit sum neither wraps nor fails its check
  have hcheck : ¬ transfer.transferBufferLength < compactedLength transfer.packets := by
    rw [UInt32.lt_iff_toNat_lt, hcompacted]
    exact Nat.not_lt.mpr hsum
  have hslices := inside_slices hb hinside
  refine ⟨compactedWrite root irp urb env data few', ?_, fun k hk p hp hsnaplen hroom => ?_⟩
  · have hanalyze : analyzeIsochTransfer root irp urb true env data transfer =
    -- the record is written: filtered, both pools, and no check fails
        some (compactedWrite root irp urb env data few') :=
      analyzeIsochTransfer_eq root irp urb env data
        ⟨few', hheader, hlength, hin, hcheck, hentries⟩
    rw [writes_eq root irp urb true env data hfiltered fun d => by simp only [analyzeAlways, hbody]]
    simp only [analyzeFiltered, hbody, hanalyze, Option.toList_some]
  · obtain ⟨hok, happ⟩ :=
    -- the ring takes it whole
      store_compactedWrite root irp urb env data few' hk hb hexact hslices hp hsnaplen hroom
    exact ⟨_, _, hok, happ, compacted_of_exact root irp urb env data few' hexact hslices⟩

/-- Three packets of two, one and no bytes, with gaps between them. -/
def gappedTransfer : IsochTransfer where
  transferBufferLength := 3
  transferBuffer := some ⟨[1, 2, 3, 4, 5, 6], by decide⟩
  transferBufferMDL := none
  pipeHandle := 0
  transferFlags := usbdTransferDirectionIn
  startFrame := 7
  numberOfPackets := 3
  errorCount := 1
  isoPacket
    | 0 => ⟨0, 2, 0⟩
    | 1 => ⟨4, 1, 0⟩
    | _ => ⟨9, 0, 0xC0000007⟩

/-- Its URB. -/
def gappedUrb : Urb where
  length := 0
  status := 0
  body := .isochTransfer gappedTransfer

/-- Its record. -/
def gappedWrite : PayloadWrite :=
  compactedWrite Target.filteredRoot 1 gappedUrb Target.plentiful
    (Target.init Target.filteredRoot).data
    (show ¬ 1024 < gappedTransfer.numberOfPackets by decide)

/-- The entry without a buffer covers nothing. -/
theorem covered_null : ∀ b : List UInt8, none = some b → (0 : UInt32).toNat ≤ b.length := by
  rintro b ⟨⟩

/-- What the buffer sees of it. -/
def gappedPacket : Packet where
  timestamp := 5
  header := gappedWrite.header
  payload :=
    [⟨2, some [1, 2, 3, 4, 5, 6], by rintro b ⟨⟩; decide⟩, ⟨1, some [5, 6], by rintro b ⟨⟩; decide⟩,
      ⟨0, some [], by rintro b ⟨⟩; decide⟩, ⟨0, none, covered_null⟩]

/-- An empty ring of 256 bytes. -/
def emptyRing : RootHubData where
  buffer := some (List.replicate 256 0)
  bufferSize := 256
  readOffset := 0
  writeOffset := 0
  snaplen := 65535

/-- The packets with data lie in the buffer. -/
theorem inside_gapped : ∀ q ∈ gappedTransfer.packets, q.Inside gappedTransfer.toTransferBuffer := by
  have hpackets : gappedTransfer.packets = [⟨0, 2, 0⟩, ⟨4, 1, 0⟩, ⟨9, 0, 0xC0000007⟩] := rfl
  simp only [hpackets, List.forall_mem_cons]
  exact ⟨Or.inr (Or.inr ⟨_, rfl, by decide⟩), Or.inr (Or.inr ⟨_, rfl, by decide⟩), Or.inl rfl,
    List.forall_mem_nil _⟩

/-- The buffer sees the record of the completion so. -/
theorem gappedPacket_sees : gappedPacket.Sees gappedWrite :=
  ⟨rfl, rfl, .cons ⟨rfl, [], rfl⟩ (.cons ⟨rfl, [], rfl⟩ (.cons ⟨rfl, [], rfl⟩
    (.cons ⟨rfl, rfl⟩ .nil)))⟩

theorem isoch_compaction_gapped : ∃ (recordHeader : PcaprecHdr) (body : List UInt8),
    (bufferStorePacket emptyRing 5 gappedPacket.header gappedPacket.payload).1 = .success ∧
    Appends emptyRing (recordHeader.bytes ++ body)
      (bufferStorePacket emptyRing 5 gappedPacket.header gappedPacket.payload).2 ∧
    Compacted gappedTransfer [1, 2, 3, 4, 5, 6] body := by
  obtain ⟨w, hwrites, hstore⟩ := @isoch_compaction Target.filteredRoot 1 gappedUrb
    Target.plentiful (Target.init Target.filteredRoot).data gappedTransfer rfl (by decide) rfl rfl
    (by decide) (by decide) (by decide) (by decide) _ rfl inside_gapped
  obtain rfl : gappedWrite = w := (List.cons.inj hwrites).1
  exact hstore gappedPacket gappedPacket_sees emptyRing
    ⟨⟨_, rfl, List.length_replicate⟩, by decide, by decide⟩ (by decide) (by decide)

/-! ## The safety check -/

/-- What a record of the transfer says stays within what the transfer buffer holds: the exact sum of
the packet lengths, the data length, the places of the packets and the bytes that are copied. -/
structure WithinBuffer (transfer : IsochTransfer) (w : PayloadWrite) : Prop where
  sum : exactLength transfer.packets ≤ transfer.transferBufferLength.toNat
  dataLength : w.header.header.dataLength.toNat ≤ transfer.transferBufferLength.toNat
  offsets : ∃ packets, w.header.ext = isochExt transfer packets ∧
    ∀ q ∈ packets, q.offset.toNat + q.length.toNat ≤ transfer.transferBufferLength.toNat
  copied : (w.payload.map fun e => e.size.toNat).sum ≤ transfer.transferBufferLength.toNat

/-- The 32-bit sum of the packet lengths has wrapped around to one that passes the check. -/
def IsochTransfer.Wraps (transfer : IsochTransfer) : Prop :=
  2 ^ 32 ≤ exactLength transfer.packets ∧
    exactLength transfer.packets % 2 ^ 32 ≤ transfer.transferBufferLength.toNat

section

variable (root : RootData) (irp : Pirp) (urb : Urb) {env : Surroundings} (data : DeviceData)

/-- The completion of an IN transfer with a length that is not zero has no record but the compacted
one. -/
theorem compacts_of_eq_some {transfer : IsochTransfer} {w : PayloadWrite}
    (hin : transfer.transferFlags &&& usbdTransferDirectionIn = usbdTransferDirectionIn)
    (hlength : transfer.transferBufferLength ≠ 0)
    (h : analyzeIsochTransfer root irp urb true env data transfer = some w) :
    ∃ hc : transfer.Compacts env, w = compactedWrite root irp urb env data hc.1 := by
  unfold analyzeIsochTransfer at h
  split at h
  · cases h
  rename_i few
  split at h
  · cases h
  rename_i hheader
  dsimp only at h
  rw [if_pos ⟨hin, rfl⟩] at h
  split at h
  · cases h
  rename_i hsum
  split at h
  · cases h
  rename_i hentries
  rw [Bool.not_eq_false] at hheader hentries
  exact ⟨⟨few, hheader, hlength, hin, hsum, hentries⟩, (Option.some.inj h).symm⟩

/-- No packet of the table ends behind the exact sum of the lengths. -/
theorem compactPackets_le {packets : List IsoPacket} (h : exactLength packets < 2 ^ 32)
    {q : IsoPacket} (hq : q ∈ compactPackets 0 packets) :
    q.offset.toNat + q.length.toNat ≤ exactLength packets := by
  obtain ⟨i, hi, rfl⟩ := List.mem_iff_getElem.mp hq
  have hi' : i < packets.length := (length_compactPackets 0 packets) ▸ hi
  obtain ⟨q, hget, hoffset, hlength, -⟩ :=
    compactPackets_spec 0 (by rwa [UInt32.toNat_zero, Nat.zero_add]) hi'
  obtain rfl := Option.some.inj ((List.getElem?_eq_getElem hi).symm.trans hget)
  have hsplit : exactLength packets = exactLength (packets.take i) +
      exactLength (packets.drop i) := by
    rw [exactLength, exactLength, exactLength, ← List.sum_append, ← List.map_append,
      List.take_append_drop]
  rw [hoffset, hlength, hsplit, UInt32.toNat_zero, Nat.zero_add, List.drop_eq_getElem_cons hi',
    exactLength_cons]
  omega

/-- The entries copy the exact sum of the lengths. -/
theorem sum_compactedPayloadEntries (b : Option (List UInt8)) (packets : List IsoPacket) :
    ((compactedPayloadEntries b packets).map fun e => e.size.toNat).sum = exactLength packets := by
  rw [compactedPayloadEntries, List.map_append, List.sum_append, List.map_map]
  rfl

/-- **The safety check is sound as long as its sum does not wrap.** For an isochronous IN transfer
of at most 1024 packets, in every completion that gets past the check and has a record, everything
stays within the transfer buffer exactly when there is no check or the sum of the lengths has not
wrapped around to one that passes. -/
theorem isoch_guard_sound_iff {transfer : IsochTransfer}
    (few : transfer.numberOfPackets ≤ 1024)
    (hin : transfer.transferFlags &&& usbdTransferDirectionIn = usbdTransferDirectionIn) :
    (∀ env w, analyzeIsochTransfer root irp urb true env data transfer = some w →
        transfer.transferBufferLength ≠ 0 → WithinBuffer transfer w) ↔
      transfer.transferBufferLength = 0 ∨ ¬ transfer.Wraps := by
  constructor
  · intro h
    by_contra hno
    obtain ⟨hlength, hwraps⟩ := not_or.mp hno
    obtain ⟨hexact, hcut⟩ := not_not.mp hwraps
    have hcheck : ¬ transfer.transferBufferLength < compactedLength transfer.packets := by
      rw [UInt32.lt_iff_toNat_lt, toNat_compactedLength]
      exact Nat.not_lt.mpr hcut
    have hsound := h Target.plentiful _ (analyzeIsochTransfer_eq root irp urb _ data
      ⟨UInt32.not_lt.mpr few, rfl, hlength, hin, hcheck, rfl⟩) hlength
    have hlt := transfer.transferBufferLength.toNat_lt
    exact Nat.not_lt.mpr (hexact.trans hsound.sum) hlt
  · rintro h env w hw hlength
    obtain ⟨hc, rfl⟩ := compacts_of_eq_some root irp urb data hin hlength hw
    have hcut : exactLength transfer.packets % 2 ^ 32 ≤ transfer.transferBufferLength.toNat := by
      rw [← toNat_compactedLength]
      exact Nat.le_of_not_lt fun hlt => hc.2.2.2.2.1 (UInt32.lt_iff_toNat_lt.mpr hlt)
    have hexact : exactLength transfer.packets < 2 ^ 32 :=
      Nat.lt_of_not_le fun hle => h.resolve_left hlength ⟨hle, hcut⟩
    rw [Nat.mod_eq_of_lt hexact] at hcut
    refine ⟨hcut, ?_, ⟨_, rfl, fun q hq => (compactPackets_le hexact hq).trans hcut⟩, ?_⟩
    · exact ((toNat_compactedLength _).trans (Nat.mod_eq_of_lt hexact)).trans_le hcut
    · exact (sum_compactedPayloadEntries _ _).trans_le hcut

end

/-- The read with the hole. -/
theorem isoch_guard_sound_iff_gapped : WithinBuffer gappedTransfer gappedWrite :=
  have hcompacts : gappedTransfer.Compacts Target.plentiful :=
    ⟨by decide, rfl, by decide, by decide, by decide, rfl⟩
  (isoch_guard_sound_iff Target.filteredRoot 1 gappedUrb (Target.init Target.filteredRoot).data
    (by decide) (by decide)).mpr (Or.inr fun h => absurd h.1 (by decide)) Target.plentiful
    gappedWrite (analyzeIsochTransfer_eq Target.filteredRoot 1 gappedUrb Target.plentiful
      (Target.init Target.filteredRoot).data hcompacts) (by decide)

/-- Two packets of 2³¹ bytes each, in a transfer of one byte. -/
def hugePackets : IsochTransfer where
  transferBufferLength := 1
  transferBuffer := some ⟨[0], by decide⟩
  transferBufferMDL := none
  pipeHandle := 0
  transferFlags := usbdTransferDirectionIn
  startFrame := 0
  numberOfPackets := 2
  errorCount := 0
  isoPacket _ := ⟨0, 0x80000000, 0⟩

/-- Their URB. -/
def hugePacketsUrb : Urb where
  length := 0
  status := 0
  body := .isochTransfer hugePackets

/-- They pass the check, and a record is written. -/
theorem hugePackets_pass :
    ¬ ∀ env w, analyzeIsochTransfer Target.filteredRoot 1 hugePacketsUrb true env
        (Target.init Target.filteredRoot).data hugePackets = some w →
      hugePackets.transferBufferLength ≠ 0 →
        exactLength hugePackets.packets ≤ hugePackets.transferBufferLength.toNat := by
  have hcompacts : hugePackets.Compacts Target.plentiful :=
    ⟨by decide, rfl, by decide, by decide, by decide, rfl⟩
  intro h
  have hsum := h Target.plentiful _ (analyzeIsochTransfer_eq Target.filteredRoot 1 hugePacketsUrb
    Target.plentiful (Target.init Target.filteredRoot).data hcompacts) (by decide)
  exact absurd hsum (by decide)

end UsbPcap.Driver
