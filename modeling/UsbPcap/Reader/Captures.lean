import UsbPcap.Reader.Truncation

/-!
# Captures of given records

Every list of decoded records is what the reader returns for some file (`exists_capture`), and
there is a decoded record for every device, endpoint and payload (`exists_decoded`). What holds of
all files can so be refuted with a list of records.
-/

namespace UsbPcap.Pcap

open Format

/-- Decoded records follow each other in some stream. -/
theorem exists_stream {recs : List Record} (h : ∀ rec ∈ recs, Decoded rec) :
    ∃ stream : List UInt8, ∀ r : Reader, r.f = stream → r.readAll = (recs, .eof) := by
  induction recs with
  | nil => exact ⟨[], fun r hr => Reader.readAll_nil hr⟩
  | cons rec recs ih =>
    obtain ⟨hdr, body, hhdr, hlen, hmax, rfl⟩ := h rec List.mem_cons_self
    obtain ⟨stream, hstream⟩ := ih fun rec hrec => h rec (List.mem_cons_of_mem _ hrec)
    refine ⟨hdr ++ (body ++ stream), fun r hr => ?_⟩
    rw [Reader.readAll_of_ok (Reader.next_record hhdr hlen hmax hr), hstream _ rfl]

/-- **Any decoded records are those of a file** that is read to its end. -/
theorem exists_capture {recs : List Record} (h : ∀ rec ∈ recs, Decoded rec) :
    ∃ contents r, openReader contents = .ok r ∧ r.readAll = (recs, .eof) := by
  obtain ⟨stream, hstream⟩ := exists_stream h
  have hheader : IsPcapHeader plainHeader := ⟨rfl, Or.inl (by decide), by decide⟩
  obtain ⟨r, hr, hf⟩ := openReader_append hheader stream
  exact ⟨plainHeader ++ stream, r, hr, hstream r hf⟩

/-- `Analyze` returns on these files. -/
theorem exists_analyze {recs : List Record} (h : ∀ rec ∈ recs, Decoded rec) (order : RangeOrder)
    (path : String) (deviceAddr : Option UInt16) :
    ∃ contents a, analyze order path contents deviceAddr = .ok a ∧
      fileRecords contents = recs := by
  obtain ⟨contents, r, hr, hall⟩ := exists_capture h
  have heof : r.readAll.2.isEof = true := by
    rw [hall]
    rfl
  exact ⟨contents, _, analyze_eq_ok_iff.mpr ⟨r, hr, heof, rfl⟩,
    (fileRecords_of_ok hr).trans (congrArg Prod.fst hall)⟩

/-- The payload of a record fits behind the 27 bytes of its packet header. -/
theorem Decoded.payload {rec : Record} (h : Decoded rec) :
    rec.actualLen.toNat = rec.payload.length ∧
      (rec.payload = [] ∨ 27 + rec.payload.length ≤ maxRecordSize) := by
  obtain ⟨hdr, body, -, -, hmax, rfl⟩ := h
  rw [recordOf]
  dsimp only
  split
  · exact ⟨rfl, Or.inl rfl⟩
  · split
    · exact ⟨rfl, Or.inl rfl⟩
    · rename_i hstart
      obtain ⟨hge, -⟩ := not_or.mp hstart
      have hlen : ∀ stop, 27 + ((body.take stop).drop
          (UInt16.ofNat (field 0 2 body)).toNat).length ≤ maxRecordSize := fun stop => by
        rw [List.length_drop, List.length_take]
        omega
      have hlt := fun stop => lt_of_le_of_lt (Nat.le_trans (Nat.le_add_left _ 27) (hlen stop))
        (by decide : maxRecordSize < 2 ^ 32)
      exact ⟨UInt32.toNat_ofNat_of_lt' (hlt _), Or.inr (hlen _)⟩

/-- There is a decoded record of any device and endpoint, with any payload that fits. -/
theorem exists_decoded (device : UInt16) (endpoint : UInt8) {payload : List UInt8}
    (h : 27 + payload.length ≤ maxRecordSize) :
    ∃ rec, Decoded rec ∧ rec.headerLen ≠ 0 ∧ rec.device = device ∧ rec.endpoint = endpoint ∧
      rec.payload = payload ∧ rec.actualLen.toNat = payload.length := by
  have hsize : 27 + payload.length < 2 ^ 32 := lt_of_le_of_lt h (by decide)
  let packet : BufferPacketHeader :=
    { headerLen := 27, irpId := 1, status := 0, function := 9, info := 1, bus := 1,
      device := device, endpoint := endpoint, transfer := 3, dataLength := .ofNat payload.length }
  let hdr : PcaprecHdr :=
    { tsSec := 0, tsUsec := 0, inclLen := .ofNat (27 + payload.length),
      origLen := .ofNat (27 + payload.length) }
  have hincl : (RecordHeader.ofBytes hdr.bytes).inclLen.toNat = 27 + payload.length := by
    rw [recordHeader_ofBytes]
    exact UInt32.toNat_ofNat_of_lt' hsize
  have hlen : payload.length < 2 ^ 32 := by omega
  have hdata : packet.dataLength.toNat = payload.length := UInt32.toNat_ofNat_of_lt' hlen
  have hbody : (packet.bytes ++ payload).length = 27 + payload.length := by
    rw [List.length_append, packet.length_bytes]
  have hdrop : (packet.bytes ++ payload).drop 27 = payload := List.drop_left' packet.length_bytes
  obtain ⟨hheaderLen, hdevice, hendpoint, -, hdataLen⟩ := packetHeader_fields packet payload
  refine ⟨_, ⟨hdr.bytes, packet.bytes ++ payload, hdr.length_bytes, hbody.trans hincl.symm,
    hbody.trans_le h, rfl⟩, ?_⟩
  have hstart : packet.headerLen.toNat = 27 := rfl
  rw [recordOf, hheaderLen, hdevice, hendpoint, hdataLen]
  dsimp only
  rw [if_neg (by omega), if_neg (by omega), hstart, hdata, if_neg (by omega), hbody.symm,
    List.take_length, hdrop]
  exact ⟨fun hzero => absurd hzero (by decide : (27 : UInt16) ≠ 0), rfl, rfl, rfl,
    UInt32.toNat_ofNat_of_lt' hlen⟩

end UsbPcap.Pcap
