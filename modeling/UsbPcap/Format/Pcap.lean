import UsbPcap.Lib.LittleEndian
import UsbPcap.Lib.Framing

/-!
# The capture format

The packed structures of `USBPcap.h` and their byte images: the global header `pcap_hdr_t`, the
record header `pcaprec_hdr_t` and `USBPCAP_BUFFER_PACKET_HEADER`, which starts the body of every
record. All fields are little endian. `recordFraming` cuts a stream behind the global header into
records: 16 bytes of record header followed by exactly `incl_len` bytes.
-/

namespace UsbPcap.Format

/-! ## Fields of a byte image -/

/-- The `w`-byte little-endian field at offset `off`. -/
def field (off w : ℕ) (bs : List UInt8) : ℕ :=
  LittleEndian.decode ((bs.drop off).take w)

/-- A field that lies in the first part of a stream is read from it. -/
theorem field_append {off w : ℕ} {xs : List UInt8} (h : off + w ≤ xs.length) (ys : List UInt8) :
    field off w (xs ++ ys) = field off w xs := by
  rw [field, field, List.drop_append_of_le_length (by omega),
    List.take_append_of_le_length (by rw [List.length_drop]; omega)]

/-- A field that lies in a prefix is read from the prefix. -/
theorem field_take {off w n : ℕ} (h : off + w ≤ n) (xs : List UInt8) :
    field off w (xs.take n) = field off w xs := by
  rw [field, field, List.drop_take, List.take_take, Nat.min_eq_left (by omega)]

/-- A field behind `pre` is read from what follows `pre`. -/
theorem field_append_right {pre : List UInt8} {off w : ℕ} (h : pre.length ≤ off)
    (xs : List UInt8) : field off w (pre ++ xs) = field (off - pre.length) w xs := by
  rw [field, field, List.drop_append, List.drop_of_length_le h, List.nil_append]

/-- The field written in front is read back. -/
theorem field_encode (w n : ℕ) (xs : List UInt8) :
    field 0 w (LittleEndian.encode w n ++ xs) = n % 256 ^ w := by
  rw [field, List.drop_zero, List.take_left' (LittleEndian.length_encode w n),
    LittleEndian.decode_encode]

/-- A field behind another one is read from what follows that. -/
theorem field_skip {v off : ℕ} (h : v ≤ off) (w n : ℕ) (xs : List UInt8) :
    field off w (LittleEndian.encode v n ++ xs) = field (off - v) w xs := by
  rw [field_append_right (by rw [LittleEndian.length_encode]; exact h), LittleEndian.length_encode]

/-- A byte is read back. -/
theorem ofNat_field_uint8 (x : UInt8) : UInt8.ofNat (x.toNat % 256 ^ 1) = x := by
  rw [Nat.mod_eq_of_lt (show x.toNat < 256 ^ 1 from x.toNat_lt), UInt8.ofNat_toNat]

/-- So is a 16-bit number. -/
theorem ofNat_field_uint16 (x : UInt16) : UInt16.ofNat (x.toNat % 256 ^ 2) = x := by
  rw [Nat.mod_eq_of_lt (show x.toNat < 256 ^ 2 from x.toNat_lt), UInt16.ofNat_toNat]

/-- And a 32-bit one. -/
theorem ofNat_field_uint32 (x : UInt32) : UInt32.ofNat (x.toNat % 256 ^ 4) = x := by
  rw [Nat.mod_eq_of_lt (show x.toNat < 256 ^ 4 from x.toNat_lt), UInt32.ofNat_toNat]

/-- A field of `w` bytes is below `256 ^ w`. -/
theorem field_lt (off w : ℕ) (bs : List UInt8) : field off w bs < 256 ^ w := by
  refine lt_of_lt_of_le (LittleEndian.decode_lt _) (Nat.pow_le_pow_right (by decide) ?_)
  exact (List.length_take_le w _)

/-! ## `pcap_hdr_t` -/

/-- `DLT_USBPCAP` -/
def dltUsbpcap : UInt32 := 249

/-- `pcap_hdr_t` -/
structure PcapHdr where
  magicNumber : UInt32
  versionMajor : UInt16
  versionMinor : UInt16
  thiszone : Int32
  sigfigs : UInt32
  snaplen : UInt32
  network : UInt32
deriving DecidableEq, Repr

/-- `sizeof(pcap_hdr_t)` -/
def sizeofPcapHdr : ℕ := 24

/-- The memory image of a `pcap_hdr_t`. -/
def PcapHdr.bytes (h : PcapHdr) : List UInt8 :=
  LittleEndian.encode 4 h.magicNumber.toNat ++ LittleEndian.encode 2 h.versionMajor.toNat ++
    LittleEndian.encode 2 h.versionMinor.toNat ++
    LittleEndian.encode 4 h.thiszone.toUInt32.toNat ++ LittleEndian.encode 4 h.sigfigs.toNat ++
    LittleEndian.encode 4 h.snaplen.toNat ++ LittleEndian.encode 4 h.network.toNat

@[simp] theorem PcapHdr.length_bytes (h : PcapHdr) : h.bytes.length = 24 := by
  simp [PcapHdr.bytes]

/-- `magic_number` of a `pcap_hdr_t` in memory. -/
def magicNumber (bs : List UInt8) : ℕ := field 0 4 bs

/-- `network` of a `pcap_hdr_t` in memory. -/
def network (bs : List UInt8) : ℕ := field 20 4 bs

/-- The magic number can be read from the bytes. -/
theorem PcapHdr.magicNumber_bytes (h : PcapHdr) :
    Format.magicNumber h.bytes = h.magicNumber.toNat := by
  rw [Format.magicNumber, PcapHdr.bytes]
  simp only [List.append_assoc]
  rw [field_encode]
  exact Nat.mod_eq_of_lt h.magicNumber.toNat_lt

/-- So can the link type. -/
theorem PcapHdr.network_bytes (h : PcapHdr) : Format.network h.bytes = h.network.toNat := by
  rw [Format.network, ← List.append_nil h.bytes, PcapHdr.bytes]
  simp (disch := omega) only [List.append_assoc, field_skip, Nat.reduceSub, field_encode]
  exact Nat.mod_eq_of_lt h.network.toNat_lt

/-! ## `pcaprec_hdr_t` -/

/-- `pcaprec_hdr_t` -/
structure PcaprecHdr where
  tsSec : UInt32
  tsUsec : UInt32
  inclLen : UInt32
  origLen : UInt32
deriving DecidableEq, Repr

/-- `sizeof(pcaprec_hdr_t)` -/
def sizeofPcaprecHdr : ℕ := 16

/-- The memory image of a `pcaprec_hdr_t`. -/
def PcaprecHdr.bytes (h : PcaprecHdr) : List UInt8 :=
  LittleEndian.encode 4 h.tsSec.toNat ++ LittleEndian.encode 4 h.tsUsec.toNat ++
    LittleEndian.encode 4 h.inclLen.toNat ++ LittleEndian.encode 4 h.origLen.toNat

@[simp] theorem PcaprecHdr.length_bytes (h : PcaprecHdr) : h.bytes.length = 16 := by
  simp [PcaprecHdr.bytes]

/-- `incl_len` of the record header in front of a stream. -/
def inclLen (bs : List UInt8) : ℕ := field 8 4 bs

/-- And the length of a record, whatever follows. -/
theorem PcaprecHdr.inclLen_bytes_append (h : PcaprecHdr) (xs : List UInt8) :
    Format.inclLen (h.bytes ++ xs) = h.inclLen.toNat := by
  rw [Format.inclLen, PcaprecHdr.bytes]
  simp (disch := omega) only [List.append_assoc, field_skip, Nat.reduceSub, field_encode]
  exact Nat.mod_eq_of_lt h.inclLen.toNat_lt

/-! ## Records -/

/-- Length of the record in front of a stream, when it is complete. -/
def recordLen (xs : List UInt8) : Option ℕ :=
  if xs.length < sizeofPcaprecHdr then none
  else if xs.length < sizeofPcaprecHdr + inclLen xs then none
  else some (sizeofPcaprecHdr + inclLen xs)

/-- A record is there when its header and its bytes are. -/
theorem recordLen_eq_some {xs : List UInt8} {n : ℕ} :
    recordLen xs = some n ↔
      16 ≤ xs.length ∧ n = 16 + inclLen xs ∧ n ≤ xs.length := by
  rw [recordLen, sizeofPcaprecHdr]
  split
  · simp only [reduceCtorEq, false_iff]
    omega
  · split
    · simp only [reduceCtorEq, false_iff]
      omega
    · rw [Option.some.injEq]
      omega

/-- Records of a capture stream behind its global header. -/
def recordFraming : Framing UInt8 where
  frameLen := recordLen
  pos h := by
    obtain ⟨-, h, -⟩ := recordLen_eq_some.mp h
    omega
  le_length h := (recordLen_eq_some.mp h).2.2
  append {xs n} ys h := by
    obtain ⟨hlen, hn, hle⟩ := recordLen_eq_some.mp h
    have hincl : inclLen (xs ++ ys) = inclLen xs := field_append (by omega) ys
    have happ : (xs ++ ys).length = xs.length + ys.length := List.length_append
    exact recordLen_eq_some.mpr ⟨by omega, by omega, by omega⟩
  take {xs n} h := by
    obtain ⟨hlen, hn, hle⟩ := recordLen_eq_some.mp h
    have hincl : inclLen (xs.take n) = inclLen xs := field_take (by omega) xs
    have htake := List.length_take (i := n) (l := xs)
    exact recordLen_eq_some.mpr ⟨by omega, by omega, by omega⟩

/-- The frames of the stream are the records. -/
theorem recordFraming_frameLen (xs : List UInt8) : recordFraming.frameLen xs = recordLen xs := rfl

/-- There is none in an empty stream. -/
theorem recordLen_nil : recordFraming.frameLen [] = none := rfl

/-- A byte string is one record exactly when its length is that of its header and `incl_len`. -/
theorem isFrame_record {f : List UInt8} :
    recordFraming.IsFrame f ↔ 16 ≤ f.length ∧ f.length = 16 + inclLen f := by
  rw [Framing.IsFrame, recordFraming_frameLen, recordLen_eq_some]
  simp only [Nat.le_refl, and_true]

/-- A record header followed by `incl_len` bytes is a record. -/
theorem isFrame_header_append (h : PcaprecHdr) {body : List UInt8}
    (hb : body.length = h.inclLen.toNat) : recordFraming.IsFrame (h.bytes ++ body) := by
  rw [isFrame_record, h.inclLen_bytes_append]
  simp [hb]

/-- A header followed by a body of another length is no whole sequence of records when the body is
too short. -/
theorem not_whole_of_short_body (h : PcaprecHdr) {body : List UInt8}
    (hb : body.length < h.inclLen.toNat) : ¬ recordFraming.Whole (h.bytes ++ body) := by
  rw [Framing.whole_iff_rest_nil recordLen_nil]
  have hnone : recordFraming.frameLen (h.bytes ++ body) = none := by
    have hlen : (h.bytes ++ body).length = 16 + body.length := by
      rw [List.length_append, h.length_bytes]
    rw [recordFraming_frameLen, recordLen, h.inclLen_bytes_append, hlen, sizeofPcaprecHdr,
      if_neg (by omega), if_pos (by omega)]
  rw [Framing.split_of_none hnone]
  intro hnil
  have := congrArg List.length hnil
  simp at this

/-! ## `USBPCAP_BUFFER_PACKET_HEADER` -/

/-- `USBPCAP_BUFFER_PACKET_HEADER` -/
structure BufferPacketHeader where
  headerLen : UInt16
  irpId : UInt64
  status : UInt32
  function : UInt16
  info : UInt8
  bus : UInt16
  device : UInt16
  endpoint : UInt8
  transfer : UInt8
  dataLength : UInt32
deriving DecidableEq, Repr

/-- `sizeof(USBPCAP_BUFFER_PACKET_HEADER)` -/
def sizeofBufferPacketHeader : ℕ := 27

/-- The packed memory image of a `USBPCAP_BUFFER_PACKET_HEADER`. -/
def BufferPacketHeader.bytes (h : BufferPacketHeader) : List UInt8 :=
  LittleEndian.encode 2 h.headerLen.toNat ++ LittleEndian.encode 8 h.irpId.toNat ++
    LittleEndian.encode 4 h.status.toNat ++ LittleEndian.encode 2 h.function.toNat ++
    LittleEndian.encode 1 h.info.toNat ++ LittleEndian.encode 2 h.bus.toNat ++
    LittleEndian.encode 2 h.device.toNat ++ LittleEndian.encode 1 h.endpoint.toNat ++
    LittleEndian.encode 1 h.transfer.toNat ++ LittleEndian.encode 4 h.dataLength.toNat

@[simp] theorem BufferPacketHeader.length_bytes (h : BufferPacketHeader) : h.bytes.length = 27 := by
  simp [BufferPacketHeader.bytes]

end UsbPcap.Format
