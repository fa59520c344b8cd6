import UsbPcap.Reader.Analyze

/-!
# The two analyses count the same packets

`Summarize` and `Analyze` go over a file in separate loops and fill eight differently keyed tables.
`Balanced` says what the tables of one result of `Analyze` have in common, for any device filter;
`analyses_agree` puts it beside the summary of the same file.
-/

namespace UsbPcap.Pcap

/-- Only a record with a header has a payload. -/
theorem headerLen_ne_zero_of_payload (rh : RecordHeader) (buf : List UInt8)
    (h : (recordOf rh buf).payload ≠ []) : (recordOf rh buf).headerLen ≠ 0 := by
  intro hzero
  rw [recordOf] at h hzero
  dsimp only at h hzero
  split at h
  · exact h rfl
  · rename_i hlong
    rw [if_neg hlong] at hzero
    split at h
    · exact h rfl
    · rename_i hstart
      rw [if_neg hstart] at hzero
      have hfield : UInt16.ofNat (Format.field 0 2 buf) = 0 := hzero
      rw [hfield] at hstart
      exact hstart (Or.inl (by decide))

/-! ## The tables of one result -/

/-- The length that a key of `DataLenStats` stands for. -/
def lengthOf (key : String) : ℕ := CText.ofDigits 10 key.toList

@[simp] theorem lengthOf_lengthKey (n : UInt32) : lengthOf (lengthKey n) = n.toNat := by
  rw [lengthOf, lengthKey, String.toList_ofList, CText.ofDigits_decimal]

/-- Different lengths have different keys. -/
theorem lengthKey_injective : Function.Injective lengthKey := by
  intro m n h
  have hnat := congrArg lengthOf h
  rw [lengthOf_lengthKey, lengthOf_lengthKey] at hnat
  exact UInt32.toNat_inj.mp hnat

namespace AnalyzeResult

variable (a : AnalyzeResult)

/-- `TotalPayloadBytes`, 0 where there are no payload statistics. -/
def totalPayloadBytes : ℕ := a.payloadStats.elim 0 (·.totalPayloadBytes)

/-- `DataLenBuckets`, empty where there are no payload statistics. -/
def dataLenBuckets : Table String ℕ := a.payloadStats.elim ∅ (·.dataLenBuckets)

/-- `FirstBytePattern`, empty where there are no payload statistics. -/
def firstBytePattern : Table String ℕ := a.payloadStats.elim ∅ (·.firstBytePattern)

/-- The tables of a result all count the records `recs`. -/
structure Balanced (recs : List Record) : Prop where
  endpoint_packets : (a.endpoints.map (·.packetCount)).sum = recs.length
  endpoint_bytes : (a.endpoints.map (·.totalBytes)).sum = a.totalPayloadBytes
  dataLen_bytes : a.dataLenStats.weighted lengthOf = a.totalPayloadBytes
  dataLen_total : a.dataLenStats.total = recs.length
  buckets : a.dataLenBuckets.total = a.dataLenStats.total
  firstByte : a.firstBytePattern.total = recs.countP (!·.payload.isEmpty)
  bytePattern_eq : a.bytePattern = a.firstBytePattern

end AnalyzeResult

section Balanced

variable {recs : List Record} {t : AnalyzeTables}

/-- Summing over the sorted endpoints is summing over the map. -/
theorem sum_endpoints (order : RangeOrder) (m : Table EpKey EndpointAccum)
    (le : EndpointStat → EndpointStat → Bool) (w : EndpointStat → ℕ) :
    ((((order.visit m.entries).map fun e => e.2.stat).mergeSort le).map w).sum =
      Table.sumOver (fun _ acc => w acc.stat) m := by
  rw [((List.mergeSort_perm _ _).map w).sum_eq, List.map_map]
  exact Table.sum_map_perm (order.perm _) fun _ (acc : EndpointAccum) => w acc.stat

/-- The maps that counted `recs`, sum by sum. -/
theorem sums_of_count (ht : recs.foldl AnalyzeTables.count {} = t) :
    t.packets = recs.length ∧ t.totalBytes = t.totalPayloadBytes ∧
    t.dataLenCounted.weighted (·.toNat) = t.totalPayloadBytes ∧
    t.dataLenCounted.total = recs.length ∧
    t.firstBytePattern.total = recs.countP (!·.payload.isEmpty) := by
  subst ht
  -- three sums grow by the payload length of every record
  have hbytes := Table.measure_foldl AnalyzeTables.count AnalyzeTables.totalBytes
    AnalyzeTables.totalBytes_count {} recs
  have hweight := Table.measure_foldl AnalyzeTables.count (·.dataLenCounted.weighted (·.toNat))
    (fun t rec => AnalyzeTables.weighted_dataLenCounted_count t rec (·.toNat)) {} recs
  have htotal := Table.measure_foldl AnalyzeTables.count (·.totalPayloadBytes)
    (δ := fun rec => rec.actualLen.toNat) (fun _ _ => rfl) {} recs
  refine ⟨?_, hbytes.trans htotal.symm, hweight.trans htotal.symm, ?_, ?_⟩
  · have h := Table.measure_foldl_length AnalyzeTables.count AnalyzeTables.packets
      AnalyzeTables.packets_count {} recs
    exact h.trans (Nat.zero_add _)
  · have h := Table.measure_foldl_length AnalyzeTables.count (·.dataLenCounted.weighted fun _ => 1)
      (fun t rec => AnalyzeTables.weighted_dataLenCounted_count t rec fun _ => 1) {} recs
    rw [Table.total_eq_weighted]
    exact h.trans (Nat.zero_add _)
  · have h := Table.measure_foldl_countP AnalyzeTables.count (·.firstBytePattern.total)
      AnalyzeTables.total_firstBytePattern_count {} recs
    exact h.trans (Nat.zero_add _)

/-- Without an endpoint nothing was counted. -/
theorem eq_nil_of_no_endpoint (ht : recs.foldl AnalyzeTables.count {} = t)
    (hempty : t.endpointMap.entries.length = 0) : recs = [] := by
  have h := (sums_of_count ht).1
  rw [AnalyzeTables.packets, Table.sumOver, List.eq_nil_of_length_eq_zero hempty] at h
  exact List.eq_nil_of_length_eq_zero h.symm

/-- **The tables of a result are balanced**, whatever the filter and the order of the maps. -/
theorem AnalyzeState.result_balanced (order : RangeOrder) (path : String) {s : AnalyzeState}
    (ht : recs.foldl AnalyzeTables.count {} = s.toAnalyzeTables) :
    (s.result order path).Balanced recs := by
  rw [AnalyzeState.result]
  split
  · rename_i hempty
    obtain rfl := eq_nil_of_no_endpoint ht hempty
    exact ⟨rfl, rfl, rfl, rfl, rfl, rfl, rfl⟩
  · obtain ⟨hpackets, hbytes, hweight, htotal, hfirst⟩ := sums_of_count ht
    have hnodup : (order.visit s.dataLenCounted.entries).NodupKeys :=
      (List.perm_nodupKeys (order.perm _)).mpr s.dataLenCounted.nodupKeys
    have hcounts : ((order.visit s.dataLenCounted.entries).map fun e => e.2).sum =
        s.dataLenCounted.total :=
      Table.sum_map_perm (order.perm _) fun _ n => n
    constructor
    · exact (sum_endpoints order s.endpointMap _ (·.packetCount)).trans hpackets
    · exact (sum_endpoints order s.endpointMap _ (·.totalBytes)).trans hbytes
    · refine (Table.weighted_rekey lengthOf lengthKey_injective hnodup).trans ?_
      simp only [lengthOf_lengthKey]
      exact (Table.sum_map_perm (order.perm _) fun (k : UInt32) n => k.toNat * n).trans hweight
    · exact ((Table.total_rekey lengthKey_injective hnodup).trans hcounts).trans htotal
    · exact (Table.total_regroup dataLenBucket _).trans
        (Table.total_rekey lengthKey_injective hnodup).symm
    · exact hfirst
    · rfl

end Balanced

/-! ## Both analyses of one file -/

/-- What `Analyze` returns has balanced tables of the counted records. -/
theorem analyze_balanced {order : RangeOrder} {path : String} {contents : List UInt8}
    {deviceAddr : Option UInt16} {a : AnalyzeResult}
    (ha : analyze order path contents deviceAddr = .ok a) :
    a.packetCount = (fileRecords contents).length ∧
      a.Balanced ((fileRecords contents).filter (Counted deviceAddr)) := by
  obtain ⟨r, hr, -, rfl⟩ := analyze_eq_ok_iff.mp ha
  rw [fileRecords_of_ok hr]
  refine ⟨?_, AnalyzeState.result_balanced order path (tables_foldl_analyzeBody _ _ {}).symm⟩
  have h := totalPackets_foldl_analyzeBody deviceAddr r.readAll.1 {}
  rw [AnalyzeState.result]
  split <;> exact h.trans (Nat.zero_add _)

/-- Without a filter, the records counted are those with a header, and no payload is skipped. -/
theorem counted_none (contents : List UInt8) :
    ((fileRecords contents).filter (Counted none)).length =
        (fileRecords contents).countP (·.headerLen ≠ 0) ∧
      ((fileRecords contents).filter (Counted none)).countP (!·.payload.isEmpty) =
        (fileRecords contents).countP (!·.payload.isEmpty) := by
  have hcounted : ∀ rec : Record, Counted none rec = decide (rec.headerLen ≠ 0) := fun rec => by
    rw [Counted, Option.all_none, Bool.and_true]
  constructor
  · rw [← List.countP_eq_length_filter]
    exact List.countP_congr fun rec _ => by rw [hcounted]
  · rw [List.countP_filter]
    refine List.countP_congr fun rec hrec => ?_
    obtain ⟨hdr, body, -, -, -, rfl⟩ := decoded_of_mem_fileRecords hrec
    have h := headerLen_ne_zero_of_payload (.ofBytes hdr) body
    rw [hcounted]
    simpa using h

/-- **Both analyses count the same packets, and their tables agree.** -/
theorem analyses_agree {order : RangeOrder} {path : String} {contents : List UInt8}
    {deviceAddr : Option UInt16} {s : Summary} {a : AnalyzeResult} (hs : summarize contents = .ok s)
    (ha : analyze order path contents deviceAddr = .ok a) :
    let recs := fileRecords contents
    let withHeader := recs.countP (·.headerLen ≠ 0)
    let withPayload := recs.countP (!·.payload.isEmpty)
    s.packetCount = a.packetCount ∧ s.packetCount = s.transferTypes.total ∧
      s.endpointDistribution.total = withHeader ∧ s.deviceDistribution.total = withHeader ∧
      (deviceAddr = none →
        (a.endpoints.map (·.packetCount)).sum = withHeader ∧
        (a.endpoints.map (·.totalBytes)).sum = a.totalPayloadBytes ∧
        a.dataLenStats.weighted lengthOf = a.totalPayloadBytes ∧
        a.dataLenBuckets.total = a.dataLenStats.total ∧
        a.firstBytePattern.total = withPayload ∧ a.bytePattern.total = withPayload) := by
  obtain ⟨r, hr, -, rfl⟩ := summarize_eq_ok_iff.mp hs
  obtain ⟨hcount, hbal⟩ := analyze_balanced ha
  have hrecs := fileRecords_of_ok hr
  refine ⟨?_, ?_, ?_, ?_, ?_⟩
  · rw [hcount, hrecs]
    exact summary_packetCount _
  · exact (summary_packetCount _).trans (summary_transferTypes _).symm
  · rw [hrecs]
    exact summary_endpointDistribution _
  · rw [hrecs]
    exact summary_deviceDistribution _
  · rintro rfl
    obtain ⟨hheader, hpayload⟩ := counted_none contents
    have hfirst := hbal.firstByte.trans hpayload
    refine ⟨hbal.endpoint_packets.trans hheader, hbal.endpoint_bytes, hbal.dataLen_bytes,
      hbal.buckets, hfirst, ?_⟩
    rw [hbal.bytePattern_eq]
    exact hfirst

/-- The global header of a capture with snaplen 65535. -/
def plainHeader : List UInt8 :=
  [0xD4, 0xC3, 0xB2, 0xA1, 2, 0, 4, 0, 0, 0, 0, 0, 0, 0, 0, 0, 0xFF, 0xFF, 0, 0, 249, 0, 0, 0]

/-- A record of one bulk packet with one byte of payload. -/
def bulkRecord : List UInt8 :=
  [0, 0, 0, 0, 0, 0, 0, 0, 28, 0, 0, 0, 28, 0, 0, 0] ++
    [27, 0, 1, 0, 0, 0, 0, 0, 0, 0, 0, 0, 0, 0, 9, 0, 0, 1, 0, 2, 0, 0x81, 3, 1, 0, 0, 0] ++ [0x55]

/-- A map may be visited in the order of its entries. -/
def entryOrder : RangeOrder := ⟨id, fun es => List.Perm.refl es⟩

/-- That packet, decoded. -/
def bulkPacket : Record := recordOf (.ofBytes (bulkRecord.take 16)) (bulkRecord.drop 16)

/-- Reading that record ends with the end of the file. -/
theorem readAll_bulkRecord (fileSize : ℕ) :
    (Reader.mk bulkRecord (.ofBytes plainHeader) fileSize).readAll = ([bulkPacket], .eof) := by
  have hnext : (Reader.mk bulkRecord (.ofBytes plainHeader) fileSize).next =
      (.ok bulkPacket, ⟨[], .ofBytes plainHeader, fileSize⟩) := rfl
  rw [Reader.readAll_of_ok hnext, Reader.readAll_nil rfl]

/-- A capture of one packet can be opened and read. -/
theorem open_bulk :
    ∃ r, openReader (plainHeader ++ bulkRecord) = .ok r ∧ r.readAll = ([bulkPacket], .eof) := by
  have hopen : openReader (plainHeader ++ bulkRecord) =
      .ok ⟨bulkRecord, .ofBytes plainHeader, 68⟩ := by decide
  exact ⟨_, hopen, readAll_bulkRecord 68⟩

/-- So it is accepted. -/
theorem accepted_bulk : Accepted (plainHeader ++ bulkRecord) := by
  obtain ⟨r, hr, hall⟩ := open_bulk
  exact ⟨r, hr, by rw [hall]; rfl⟩

/-- And has that one record. -/
theorem fileRecords_bulk : fileRecords (plainHeader ++ bulkRecord) = [bulkPacket] := by
  obtain ⟨r, hr, hall⟩ := open_bulk
  rw [fileRecords_of_ok hr, hall]

/-- A record of one bulk packet of the same endpoint without a payload. -/
def emptyRecord : List UInt8 :=
  [0, 0, 0, 0, 0, 0, 0, 0, 27, 0, 0, 0, 27, 0, 0, 0] ++
    [27, 0, 1, 0, 0, 0, 0, 0, 0, 0, 0, 0, 0, 0, 9, 0, 0, 1, 0, 2, 0, 0x81, 3, 0, 0, 0, 0]

/-- A record of three bytes that go to endpoint 2 of another device. -/
def outRecord : List UInt8 :=
  [0, 0, 0, 0, 0, 0, 0, 0, 30, 0, 0, 0, 30, 0, 0, 0] ++
    [27, 0, 1, 0, 0, 0, 0, 0, 0, 0, 0, 0, 0, 0, 9, 0, 0, 1, 0, 3, 0, 0x02, 3, 3, 0, 0, 0] ++
    [1, 2, 3]

/-- What the reader makes of a complete record. -/
def decodeRecord (f : List UInt8) : Record := recordOf (.ofBytes (f.take 16)) (f.drop 16)

/-- A capture of two devices, with two records of one endpoint. -/
def mixedCapture : List UInt8 := plainHeader ++ (outRecord ++ (bulkRecord ++ emptyRecord))

/-- The capture can be opened, and its three records read. -/
theorem open_mixed : ∃ r, openReader mixedCapture = .ok r ∧
    r.readAll = ([outRecord, bulkRecord, emptyRecord].map decodeRecord, .eof) := by
  have hopen : openReader mixedCapture =
      .ok ⟨outRecord ++ (bulkRecord ++ emptyRecord), .ofBytes plainHeader, 157⟩ := by decide +kernel
  have hout :
      (Reader.mk (outRecord ++ (bulkRecord ++ emptyRecord)) (.ofBytes plainHeader) 157).next =
      (.ok (decodeRecord outRecord), ⟨bulkRecord ++ emptyRecord, .ofBytes plainHeader, 157⟩) := by
    decide +kernel
  have hbulk : (Reader.mk (bulkRecord ++ emptyRecord) (.ofBytes plainHeader) 157).next =
      (.ok (decodeRecord bulkRecord), ⟨emptyRecord, .ofBytes plainHeader, 157⟩) := by decide +kernel
  have hempty : (Reader.mk emptyRecord (.ofBytes plainHeader) 157).next =
      (.ok (decodeRecord emptyRecord), ⟨[], .ofBytes plainHeader, 157⟩) := rfl
  refine ⟨_, hopen, ?_⟩
  rw [Reader.readAll_of_ok hout, Reader.readAll_of_ok hbulk, Reader.readAll_of_ok hempty,
    Reader.readAll_nil rfl]
  rfl

/-- So it is accepted. -/
theorem accepted_mixed : Accepted mixedCapture := by
  obtain ⟨r, hr, hall⟩ := open_mixed
  exact ⟨r, hr, by rw [hall]; rfl⟩

/-- These are its records. -/
theorem fileRecords_mixed :
    fileRecords mixedCapture = [outRecord, bulkRecord, emptyRecord].map decodeRecord := by
  obtain ⟨r, hr, hall⟩ := open_mixed
  rw [fileRecords_of_ok hr, hall]

/-- All three records have a header, and the payloads of two of them make four bytes. -/
theorem analyses_agree_mixed :
    ∃ s a, summarize mixedCapture = .ok s ∧
      analyze entryOrder "mixed.pcap" mixedCapture none = .ok a ∧
      s.packetCount = a.packetCount ∧ s.packetCount = s.transferTypes.total ∧
      s.endpointDistribution.total = 3 ∧ s.deviceDistribution.total = 3 ∧
      (a.endpoints.map (·.packetCount)).sum = 3 ∧
      (a.endpoints.map (·.totalBytes)).sum = a.totalPayloadBytes ∧
      a.dataLenStats.weighted lengthOf = a.totalPayloadBytes ∧
      a.dataLenBuckets.total = a.dataLenStats.total ∧
      a.firstBytePattern.total = 2 ∧ a.bytePattern.total = 2 := by
  obtain ⟨r, hr, heof⟩ := accepted_mixed
  have hs := summarize_eq_ok_iff.mpr ⟨r, hr, heof, rfl⟩
  have ha : analyze entryOrder "mixed.pcap" mixedCapture none = .ok _ :=
    analyze_eq_ok_iff.mpr ⟨r, hr, heof, rfl⟩
  have hagree := analyses_agree hs ha
  rw [fileRecords_mixed] at hagree
  obtain ⟨hcount, htypes, hendpoints, hdevices, hnone⟩ := hagree
  exact ⟨_, _, hs, ha, hcount, htypes, hendpoints, hdevices, hnone rfl⟩

end UsbPcap.Pcap
