import UsbPcap.Driver.Ring

/-!
# What the buffer functions do to the ring

One specification for each function that creates, resizes, resets or fills the buffer.
`bufferStorePacket_cases` says everything a call of `USBPcapBufferStorePacket` can do: reject the
payload, find no room, or append one record.
-/

namespace UsbPcap.Driver

open Memory Format

/-! ## The global header -/

theorem bufferWrite_eq_success {p : RootHubData} {data : List UInt8} (hne : data ≠ [])
    (hfree : data.length ≤ getBufferFree p) :
    bufferWrite p data = (.success, bufferWriteUnsafe p data) := by
  rw [bufferWrite, if_neg (by simpa using hne), if_neg (by omega)]

/-- In an empty ring of at least 25 bytes, `USBPcapWriteGlobalHeader` writes its header. -/
theorem writeGlobalHeader_appends {p : RootHubData} (h : RingOk p)
    (hempty : p.readOffset = p.writeOffset) (hsize : 24 < p.bufferSize) :
    Appends p (globalHeader p.snaplen).bytes (writeGlobalHeader p) := by
  have hfree : (globalHeader p.snaplen).bytes.length ≤ getBufferFree p := by
    rw [PcapHdr.length_bytes, getBufferFree, if_neg h.buffer_ne_none, if_pos hempty]
    omega
  have hne : (globalHeader p.snaplen).bytes ≠ [] := by
    rw [← List.length_pos_iff, PcapHdr.length_bytes]
    decide
  rw [writeGlobalHeader, bufferWrite_eq_success hne hfree]
  exact bufferWriteUnsafe_appends h hfree

theorem unread_of_empty {p : RootHubData} (hempty : p.readOffset = p.writeOffset) :
    unread p = [] := by
  rw [unread, getBufferAllocated, if_pos hempty, window_zero]

/-! ## Creating, resizing and resetting -/

/-- What a successful `USBPcapSetUpBuffer` leaves behind: a ring of the requested size that holds
`data`. -/
structure Holds (data : List UInt8) (bufferSize : ℕ) (snaplen : UInt32) (q : RootHubData) :
    Prop where
  ring : RingOk q
  unread_eq : unread q = data
  bufferSize_eq : q.bufferSize = bufferSize
  snaplen_eq : q.snaplen = snaplen

/-- The sizes that `USBPcapSetUpBuffer` accepts, 4096 to 134217728. -/
def validBufferSize (bytes : UInt32) : Prop := 4096 ≤ bytes.toNat ∧ bytes.toNat ≤ 134217728

theorem not_validBufferSize {bytes : UInt32} :
    bytes < 4096 ∨ 134217728 < bytes ↔ ¬ validBufferSize bytes := by
  rw [validBufferSize, UInt32.lt_iff_toNat_lt, UInt32.lt_iff_toNat_lt]
  change bytes.toNat < 4096 ∨ 134217728 < bytes.toNat ↔ _
  omega

/-- A `USBPcapSetUpBuffer` that creates the buffer. -/
theorem setUpBuffer_create {p : RootHubData} (hnone : p.buffer = none) {bytes : UInt32}
    (hsize : validBufferSize bytes) (buffer : Block bytes.toNat) :
    (setUpBuffer p bytes (some buffer)).1 = .success ∧
      Holds (globalHeader p.snaplen).bytes bytes.toNat p.snaplen
        (setUpBuffer p bytes (some buffer)).2 := by
  have hvalid : ¬ (bytes < 4096 ∨ 134217728 < bytes) := fun h => not_validBufferSize.mp h hsize
  simp only [setUpBuffer, if_neg hvalid, if_pos hnone]
  obtain ⟨hlo, -⟩ := hsize
  set q : RootHubData :=
    { p with buffer := some buffer.1, bufferSize := bytes.toNat, readOffset := 0, writeOffset := 0 }
    with hq
  have hring : RingOk q := ⟨⟨buffer.1, rfl, buffer.2⟩, show 0 < bytes.toNat by omega,
    show 0 < bytes.toNat by omega⟩
  have happ := writeGlobalHeader_appends hring rfl (show 24 < bytes.toNat by omega)
  have hempty : unread q = [] := unread_of_empty rfl
  refine ⟨trivial, happ.ring, ?_, happ.bufferSize_eq, happ.snaplen_eq⟩
  rw [happ.unread_eq, hempty, List.nil_append]

/-- A `USBPcapSetUpBuffer` on an existing buffer, when the unread bytes fit. -/
theorem setUpBuffer_resize {p : RootHubData} (h : RingOk p) {bytes : UInt32}
    (hsize : validBufferSize bytes) (hfit : getBufferAllocated p < bytes.toNat)
    (buffer : Block bytes.toNat) :
    (setUpBuffer p bytes (some buffer)).1 = .success ∧
      Holds (unread p) bytes.toNat p.snaplen (setUpBuffer p bytes (some buffer)).2 := by
  have hvalid : ¬ (bytes < 4096 ∨ 134217728 < bytes) := fun h => not_validBufferSize.mp h hsize
  have hlen := h.length_unread
  simp only [setUpBuffer, if_neg hvalid, if_neg h.buffer_ne_none, if_neg (Nat.not_le.mpr hfit)]
  refine ⟨trivial, ?_⟩
  -- the unread bytes are read into the new block
  set read := if 0 < getBufferAllocated p then bufferRead p bytes.toNat else ([], p) with hread
  have htakes : Takes p bytes.toNat read.1 read.2 := by
    rw [hread]
    split
    · exact bufferRead_takes h _
    · exact takes_nil h (Or.inl (by omega))
  have hdata : read.1 = unread p := by
    rw [htakes.data_eq, List.take_of_length_le (by omega)]
  have hcopy : (copyInto buffer.1 0 read.1).length = bytes.toNat := by
    rw [length_copyInto (by rw [hdata, buffer.2]; omega), buffer.2]
  refine ⟨⟨⟨_, rfl, hcopy⟩, show 0 < bytes.toNat by omega, hfit⟩, ?_, rfl, htakes.snaplen_eq⟩
  set q : RootHubData :=
    { read.2 with
      buffer := some (copyInto buffer.1 0 read.1)
      bufferSize := bytes.toNat
      readOffset := 0
      writeOffset := getBufferAllocated p } with hq
  have halloc : getBufferAllocated q = getBufferAllocated p :=
    RingOk.allocated_of_offset (p := q) (show 0 < bytes.toNat by omega) hfit
      (by rw [hq]; simp only [Nat.zero_add]; exact (Nat.mod_eq_of_lt hfit).symm)
  rw [unread, halloc]
  change window (copyInto buffer.1 0 read.1) 0 _ = _
  rw [window_eq_slice (by omega), List.drop_zero, ← hlen, ← hdata, take_copyInto_zero]

/-- The resizes that the driver refuses, and the failed allocation. -/
theorem setUpBuffer_fail {p : RootHubData} {bytes : UInt32} {pool : Option (Block bytes.toNat)}
    (h : ¬ validBufferSize bytes ∨ pool = none ∨
      p.buffer ≠ none ∧ bytes.toNat ≤ getBufferAllocated p) :
    (setUpBuffer p bytes pool).1 ≠ .success ∧ (setUpBuffer p bytes pool).2 = p := by
  by_cases hvalid : bytes < 4096 ∨ 134217728 < bytes
  · simp [setUpBuffer, if_pos hvalid]
  · cases pool with
    | none => simp [setUpBuffer, if_neg hvalid]
    | some buffer =>
      rcases h with h | h | ⟨hb, hle⟩
      · exact absurd (not_validBufferSize.mpr h) hvalid
      · exact absurd h (Option.some_ne_none _)
      · simp [setUpBuffer, if_neg hvalid, if_neg hb, if_pos hle]

/-- Everything a call of `USBPcapSetUpBuffer` can do: nothing, create, or resize. -/
theorem setUpBuffer_cases {p : RootHubData} (h : p.buffer ≠ none → RingOk p) (bytes : UInt32)
    (pool : Option (Block bytes.toNat)) :
    ((setUpBuffer p bytes pool).1 ≠ .success ∧ (setUpBuffer p bytes pool).2 = p) ∨
    ((setUpBuffer p bytes pool).1 = .success ∧ validBufferSize bytes ∧
      ((p.buffer = none ∧
          Holds (globalHeader p.snaplen).bytes bytes.toNat p.snaplen
            (setUpBuffer p bytes pool).2) ∨
        (p.buffer ≠ none ∧ getBufferAllocated p < bytes.toNat ∧
          Holds (unread p) bytes.toNat p.snaplen (setUpBuffer p bytes pool).2))) := by
  by_cases hfail : ¬ validBufferSize bytes ∨ pool = none ∨
      p.buffer ≠ none ∧ bytes.toNat ≤ getBufferAllocated p
  · exact Or.inl (setUpBuffer_fail hfail)
  · obtain ⟨hvalid, hpool, hfit⟩ : validBufferSize bytes ∧ pool ≠ none ∧
        (p.buffer ≠ none → getBufferAllocated p < bytes.toNat) := by
      simp only [not_or, not_not, not_and, Nat.not_le] at hfail
      exact ⟨hfail.1, hfail.2.1, hfail.2.2⟩
    obtain ⟨buffer, rfl⟩ := Option.ne_none_iff_exists'.mp hpool
    right
    by_cases hnone : p.buffer = none
    · obtain ⟨hok, hholds⟩ := setUpBuffer_create hnone hvalid buffer
      exact ⟨hok, hvalid, Or.inl ⟨hnone, hholds⟩⟩
    · obtain ⟨hok, hholds⟩ := setUpBuffer_resize (h hnone) hvalid (hfit hnone) buffer
      exact ⟨hok, hvalid, Or.inr ⟨hnone, hfit hnone, hholds⟩⟩

/-- `USBPcapBufferInitializeBuffer` on a buffer of a size that `USBPcapSetUpBuffer` grants. -/
theorem bufferInitializeBuffer_holds {p : RootHubData} (h : RingOk p) (hsize : 24 < p.bufferSize) :
    Holds (globalHeader p.snaplen).bytes p.bufferSize p.snaplen (bufferInitializeBuffer p) := by
  rw [bufferInitializeBuffer, if_neg h.buffer_ne_none]
  set q : RootHubData := { p with readOffset := 0, writeOffset := 0 } with hq
  have hring : RingOk q := ⟨h.block, show 0 < p.bufferSize by omega, show 0 < p.bufferSize by omega⟩
  have happ := writeGlobalHeader_appends hring rfl hsize
  have hempty : unread q = [] := unread_of_empty rfl
  refine ⟨happ.ring, ?_, happ.bufferSize_eq, happ.snaplen_eq⟩
  rw [happ.unread_eq, hempty, List.nil_append]

/-! ## Storing packets -/

/-- The bytes that the payload entries before the first `NULL` buffer supply. -/
def suppliedPayload : List PayloadEntry → List UInt8
  | [] => []
  | e :: es =>
    match e.buffer with
    | none => []
    | some buffer => buffer.take e.size.toNat ++ suppliedPayload es

/-- The sanity check's loop subtracts what the entries supply. -/
theorem missingPayload_eq (n : ℕ) (es : List PayloadEntry) :
    missingPayload n es = n - (suppliedPayload es).length := by
  induction es generalizing n with
  | nil => simp [missingPayload, suppliedPayload]
  | cons e es ih =>
    rw [missingPayload]
    split
    · omega
    · cases hb : e.buffer with
      | none => simp [suppliedPayload, hb]
      | some buffer =>
        have hcov := e.covered buffer hb
        simp only [suppliedPayload, hb, reduceCtorEq, if_false, ih, List.length_append,
          List.length_take]
        omega

/-- The write loop appends the first `bytes` supplied bytes, when there is room for `bytes`. -/
theorem writePayloadEntries_appends {p : RootHubData} (h : RingOk p) {bytes : ℕ}
    (es : List PayloadEntry) (hfree : bytes ≤ getBufferFree p) :
    Appends p ((suppliedPayload es).take bytes) (writePayloadEntries p bytes es) := by
  induction es generalizing p bytes with
  | nil => simpa [writePayloadEntries, suppliedPayload] using Appends.refl h
  | cons e es ih =>
    rw [writePayloadEntries]
    split
    · rename_i hzero
      simpa [hzero] using Appends.refl h
    · cases hb : e.buffer with
      | none => simpa [suppliedPayload, hb] using Appends.refl h
      | some buffer =>
        have hcov := e.covered buffer hb
        set tmp := min bytes e.size.toNat with htmp
        have htake : (buffer.take tmp).length = tmp := by
          rw [List.length_take]
          omega
        have hstep : Appends p (buffer.take tmp)
            (if 0 < tmp then bufferWriteUnsafe p (buffer.take tmp) else p) := by
          split
          · exact bufferWriteUnsafe_appends h (by omega)
          · rw [show tmp = 0 from by omega, List.take_zero]
            exact Appends.refl h
        have hcount := h.free_add_allocated
        have hcount' := hstep.ring.free_add_allocated
        have hlen' := hstep.ring.length_unread
        rw [hstep.unread_eq, List.length_append, h.length_unread, htake] at hlen'
        have hsize := hstep.bufferSize_eq
        have hrest := hstep.trans (ih hstep.ring (show bytes - tmp ≤ _ by omega))
        -- the entry's part and the rest together are the first `bytes` bytes
        have hsplit : (suppliedPayload (e :: es)).take bytes
            = buffer.take tmp ++ (suppliedPayload es).take (bytes - tmp) := by
          simp only [suppliedPayload, hb]
          rw [List.take_append, List.take_take, ← htmp, List.length_take]
          congr 2
          omega
        rw [hsplit]
        exact hrest

/-- `pcapHeader.incl_len` of a packet: its bytes, limited by the snaplen. -/
def packetInclLen (snaplen : UInt32) (h : BufferPacketHeader) : UInt32 :=
  if snaplen < packetBytes h then snaplen else packetBytes h

/-- What the write loops put behind the record header. -/
def recordBody (snaplen : UInt32) (header : PacketHeader) (es : List PayloadEntry) : List UInt8 :=
  header.memory.take (min (packetInclLen snaplen header.header).toNat
      header.header.headerLen.toNat) ++
    (suppliedPayload es).take
      ((packetInclLen snaplen header.header).toNat - header.header.headerLen.toNat)

/-- The bytes that a successful `USBPcapBufferStorePacket` writes. -/
def storedBytes (p : RootHubData) (timestamp : ℤ) (header : PacketHeader)
    (es : List PayloadEntry) : List UInt8 :=
  (initializePcapHeader p timestamp (packetBytes header.header)).bytes ++
    recordBody p.snaplen header es

/-- How much the payload falls short of the bytes that the record announces behind its header. -/
def payloadShortfall (snaplen : UInt32) (header : PacketHeader) (es : List PayloadEntry) : ℕ :=
  (packetInclLen snaplen header.header).toNat - header.header.headerLen.toNat -
    (suppliedPayload es).length

theorem length_recordBody (snaplen : UInt32) (header : PacketHeader) (es : List PayloadEntry) :
    (recordBody snaplen header es).length =
      (packetInclLen snaplen header.header).toNat - payloadShortfall snaplen header es := by
  have hmem := header.headerLen_le
  rw [recordBody, payloadShortfall, List.length_append, List.length_take, List.length_take]
  omega

theorem inclLen_initializePcapHeader (p : RootHubData) (timestamp : ℤ) (h : BufferPacketHeader) :
    (initializePcapHeader p timestamp (packetBytes h)).inclLen = packetInclLen p.snaplen h := rfl

/-- With room for it, the writing part appends the whole record. -/
theorem writeRecord_appends {p : RootHubData} (h : RingOk p) (timestamp : ℤ)
    (header : PacketHeader) (es : List PayloadEntry)
    (hfree : 16 + (packetInclLen p.snaplen header.header).toNat ≤ getBufferFree p) :
    Appends p (storedBytes p timestamp header es)
      (writeRecord p (initializePcapHeader p timestamp (packetBytes header.header)) header es) := by
  have hcount := h.free_add_allocated
  -- three writes: the record header, the packet header, the payload
  have hhdr := bufferWriteUnsafe_appends h
    (show (initializePcapHeader p timestamp (packetBytes header.header)).bytes.length ≤ _ by
      rw [PcaprecHdr.length_bytes]; omega)
  simp only [writeRecord, inclLen_initializePcapHeader]
  set q := bufferWriteUnsafe p
    (initializePcapHeader p timestamp (packetBytes header.header)).bytes with hq
  have hcountq := hhdr.ring.free_add_allocated
  have hlenq := hhdr.ring.length_unread
  rw [hhdr.unread_eq, List.length_append, h.length_unread, PcaprecHdr.length_bytes] at hlenq
  have hsizeq := hhdr.bufferSize_eq
  set tmp := min (packetInclLen p.snaplen header.header).toNat header.header.headerLen.toNat
    with htmp
  have hmem := header.headerLen_le
  have htake : (header.memory.take tmp).length = tmp := by
    rw [List.length_take]
    omega
  have hpkt : Appends q (header.memory.take tmp)
      (if 0 < tmp then bufferWriteUnsafe q (header.memory.take tmp) else q) := by
    split
    · exact bufferWriteUnsafe_appends hhdr.ring (by omega)
    · rw [show tmp = 0 from by omega, List.take_zero]
      exact Appends.refl hhdr.ring
  have hcountr := hpkt.ring.free_add_allocated
  have hlenr := hpkt.ring.length_unread
  rw [hpkt.unread_eq, List.length_append, hhdr.ring.length_unread, htake] at hlenr
  have hsizer := hpkt.bufferSize_eq
  have hpay := writePayloadEntries_appends hpkt.ring es
    (show (packetInclLen p.snaplen header.header).toNat - tmp ≤ _ by omega)
  have hall := (hhdr.trans hpkt).trans hpay
  rw [show (packetInclLen p.snaplen header.header).toNat - tmp
    = (packetInclLen p.snaplen header.header).toNat - header.header.headerLen.toNat
    from by omega] at hall ⊢
  rw [storedBytes, recordBody, ← List.append_assoc]
  exact hall

/-- `USBPcapBufferStorePacket` by what decides it. The sanity check compares with a length that
also counts the record header, so it only rejects a shortfall above 16. -/
theorem bufferStorePacket_eq (p : RootHubData) (timestamp : ℤ) (header : PacketHeader)
    (es : List PayloadEntry) :
    bufferStorePacket p timestamp header es =
      if 16 < payloadShortfall p.snaplen header es then (.invalidParameter, p)
      else if p.buffer = none ∨ getBufferFree p < 16 + (packetInclLen p.snaplen header.header).toNat
      then (.insufficientResources, p)
      else (.success, writeRecord p
        (initializePcapHeader p timestamp (packetBytes header.header)) header es) := by
  have hincl := inclLen_initializePcapHeader p timestamp header.header
  refine if_congr ?_ rfl (if_congr (or_congr Iff.rfl ?_) rfl rfl)
  · rw [missingPayload_eq, hincl, payloadShortfall, sizeofPcaprecHdr]
    omega
  · rw [hincl, sizeofPcaprecHdr]
    omega

/-- Without a buffer nothing is stored. -/
theorem bufferStorePacket_no_buffer {p : RootHubData} (h : p.buffer = none) (timestamp : ℤ)
    (header : PacketHeader) (es : List PayloadEntry) :
    bufferStorePacket p timestamp header es = (.invalidParameter, p) ∨
      bufferStorePacket p timestamp header es = (.insufficientResources, p) := by
  rw [bufferStorePacket_eq]
  split
  · exact Or.inl rfl
  · rw [if_pos (Or.inl h)]
    exact Or.inr rfl

/-- Everything a call of `USBPcapBufferStorePacket` can do on a ring. -/
theorem bufferStorePacket_cases {p : RootHubData} (h : RingOk p) (timestamp : ℤ)
    (header : PacketHeader) (es : List PayloadEntry) :
    (16 < payloadShortfall p.snaplen header es ∧
      bufferStorePacket p timestamp header es = (.invalidParameter, p)) ∨
    (payloadShortfall p.snaplen header es ≤ 16 ∧
      getBufferFree p < 16 + (packetInclLen p.snaplen header.header).toNat ∧
      bufferStorePacket p timestamp header es = (.insufficientResources, p)) ∨
    (payloadShortfall p.snaplen header es ≤ 16 ∧
      16 + (packetInclLen p.snaplen header.header).toNat ≤ getBufferFree p ∧
      (bufferStorePacket p timestamp header es).1 = .success ∧
      Appends p (storedBytes p timestamp header es)
        (bufferStorePacket p timestamp header es).2) := by
  rw [bufferStorePacket_eq]
  by_cases hshort : 16 < payloadShortfall p.snaplen header es
  · rw [if_pos hshort]
    exact Or.inl ⟨hshort, rfl⟩
  · rw [if_neg hshort]
    have hb := h.buffer_ne_none
    by_cases hroom : 16 + (packetInclLen p.snaplen header.header).toNat ≤ getBufferFree p
    · rw [if_neg (by rw [not_or]; exact ⟨hb, by omega⟩)]
      exact Or.inr (Or.inr
        ⟨by omega, hroom, rfl, writeRecord_appends h timestamp header es hroom⟩)
    · rw [if_pos (Or.inr (by omega))]
      exact Or.inr (Or.inl ⟨by omega, by omega, rfl⟩)

/-- A packet whose payload is not short is stored as one record. -/
theorem storedBytes_isFrame {p : RootHubData} {header : PacketHeader} {es : List PayloadEntry}
    (h : payloadShortfall p.snaplen header es = 0) (timestamp : ℤ) :
    recordFraming.IsFrame (storedBytes p timestamp header es) := by
  refine isFrame_header_append _ ?_
  rw [length_recordBody, h, inclLen_initializePcapHeader, Nat.sub_zero]

/-! ## All or nothing -/

/-- The body of a record is the start of the header followed by the payload, wherever the snaplen
cuts it. -/
theorem recordBody_eq_take (snaplen : UInt32) (header : PacketHeader) (es : List PayloadEntry) :
    recordBody snaplen header es =
      (header.memory.take header.header.headerLen.toNat ++ suppliedPayload es).take
        (packetInclLen snaplen header.header).toNat := by
  have hmem := header.headerLen_le
  rw [recordBody, List.take_append, List.take_take, List.length_take, Nat.min_eq_left hmem]

/-- The 32-bit sum of the lengths, where it does not wrap. -/
theorem toNat_packetBytes {h : BufferPacketHeader}
    (hsum : h.headerLen.toNat + h.dataLength.toNat < 2 ^ 32) :
    (packetBytes h).toNat = h.headerLen.toNat + h.dataLength.toNat := by
  rw [packetBytes, UInt32.toNat_add, UInt16.toNat_toUInt32]
  exact Nat.mod_eq_of_lt hsum

/-- Without a wrapped sum, `incl_len` is the smaller of the packet's length and the snaplen. -/
theorem toNat_packetInclLen {h : BufferPacketHeader}
    (hsum : h.headerLen.toNat + h.dataLength.toNat < 2 ^ 32) (snaplen : UInt32) :
    (packetInclLen snaplen h).toNat =
      min (h.headerLen.toNat + h.dataLength.toNat) snaplen.toNat := by
  have hbytes := toNat_packetBytes hsum
  rw [packetInclLen]
  split
  · rename_i hlt
    rw [UInt32.lt_iff_toNat_lt] at hlt
    omega
  · rename_i hlt
    rw [UInt32.lt_iff_toNat_lt] at hlt
    omega

/-- A payload that supplies `dataLength` bytes is never short. -/
theorem payloadShortfall_eq_zero_of_supplied {header : PacketHeader} {es : List PayloadEntry}
    (hsum : header.header.headerLen.toNat + header.header.dataLength.toNat < 2 ^ 32)
    (hsupp : header.header.dataLength.toNat ≤ (suppliedPayload es).length) (snaplen : UInt32) :
    payloadShortfall snaplen header es = 0 := by
  have hincl := toNat_packetInclLen hsum snaplen
  rw [payloadShortfall]
  omega

/-- **A store is all or nothing.** With or without a buffer, for a packet whose payload is there,
`USBPcapBufferStorePacket` fails exactly when there is no buffer or no room for the record; a
failure changes nothing, and a success appends the record header and the first `incl_len` bytes of
header and payload. -/
theorem bufferStorePacket_exact {p : RootHubData} (h : p.buffer ≠ none → RingOk p) (timestamp : ℤ)
    (header : PacketHeader) (es : List PayloadEntry)
    (hsum : header.header.headerLen.toNat + header.header.dataLength.toNat < 2 ^ 32)
    (hsupp : header.header.dataLength.toNat ≤ (suppliedPayload es).length) :
    let inclLen :=
      min (header.header.headerLen.toNat + header.header.dataLength.toNat) p.snaplen.toNat
    let recordHeader := initializePcapHeader p timestamp (packetBytes header.header)
    let packet := header.memory.take header.header.headerLen.toNat ++ suppliedPayload es
    let result := bufferStorePacket p timestamp header es
    recordHeader.inclLen.toNat = inclLen ∧ recordHeader.bytes.length = 16 ∧
      (result.1 ≠ .success ↔ p.buffer = none ∨ getBufferFree p < 16 + inclLen) ∧
      (result.1 ≠ .success → result.2 = p) ∧
      (result.1 = .success →
        Appends p (recordHeader.bytes ++ packet.take inclLen) result.2) := by
  have hincl := toNat_packetInclLen hsum p.snaplen
  have hshort := payloadShortfall_eq_zero_of_supplied hsum hsupp p.snaplen
  have heq := bufferStorePacket_eq p timestamp header es
  rw [hshort, if_neg (by decide), hincl] at heq
  have hfail : (bufferStorePacket p timestamp header es).1 ≠ .success ↔
      p.buffer = none ∨ getBufferFree p < 16 +
        min (header.header.headerLen.toNat + header.header.dataLength.toNat) p.snaplen.toNat := by
    rw [heq]
    split <;> simp_all
  refine ⟨hincl, PcaprecHdr.length_bytes _, hfail, fun hne => ?_, fun hok => ?_⟩
  · rw [heq, if_pos (hfail.mp hne)]
  · have hroom := mt hfail.mpr (not_not_intro hok)
    rw [heq, if_neg hroom]
    rw [not_or] at hroom
    have happ := writeRecord_appends (h hroom.1) timestamp header es (by rw [hincl]; omega)
    rw [storedBytes, recordBody_eq_take, hincl] at happ
    exact happ

/-- A ring of 64 bytes whose next write wraps, with a snaplen below the packet header's length. -/
def wrappingRing : RootHubData where
  buffer := some (List.replicate 64 0)
  bufferSize := 64
  readOffset := 30
  writeOffset := 60
  snaplen := 16

/-- A bulk packet of two bytes. -/
def shortBulk : PacketHeader where
  header := { headerLen := 27, irpId := 1, status := 0, function := 9, info := 0, bus := 1
              device := 2, endpoint := 0x81, transfer := 3, dataLength := 2 }
  ext := []
  covered := by decide

theorem bufferStorePacket_exact_wraps :
    let result := bufferStorePacket wrappingRing 0 shortBulk
      (packetPayload shortBulk (some [1, 2]) (by rintro b ⟨⟩; decide))
    result.1 = .success ∧ Appends wrappingRing
      ((initializePcapHeader wrappingRing 0 29).bytes ++ shortBulk.header.bytes.take 16)
      result.2 := by
  obtain ⟨-, -, hfail, -, hstored⟩ := bufferStorePacket_exact (p := wrappingRing)
    (fun _ => ⟨⟨_, rfl, rfl⟩, by decide, by decide⟩) 0 shortBulk
    (packetPayload shortBulk (some [1, 2]) (by rintro b ⟨⟩; decide)) (by decide) (by decide)
  have hok := not_not.mp (mt hfail.mp (by decide))
  exact ⟨hok, hstored hok⟩

end UsbPcap.Driver
