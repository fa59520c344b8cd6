import UsbPcap.Format.Pcap

/-!
# The record reader

The service reads captures with `OpenReader` and `Reader.Next` of its `pcap` package: a global
header, then one record a call, decoded at fixed offsets. An open file is the list of the bytes
that are not yet read. Go's `int` is taken to be 64 bits wide.
-/

namespace UsbPcap.Pcap

open Format

/-- `MaxRecordSize`, 64 MiB. -/
def maxRecordSize : ℕ := 64 * 1024 * 1024

/-- The errors of the reader. -/
inductive ReadError where
  | eof
  | unexpectedEof
  | unsupportedMagic
  | unsupportedLinkType (network : UInt32)
  | recordTooLarge (inclLen : UInt32)
  | truncatedRecord (err : ReadError)
deriving DecidableEq, Repr

/-- The text of an error. -/
def ReadError.message : ReadError → String
  | .eof => "EOF"
  | .unexpectedEof => "unexpected EOF"
  | .unsupportedMagic => "unsupported pcap magic"
  | .unsupportedLinkType network =>
    "unsupported link type " ++ toString network ++ ": not USBPcap"
  | .recordTooLarge inclLen =>
    "record incl_len " ++ toString inclLen ++ " exceeds maximum " ++ toString maxRecordSize
  | .truncatedRecord err => "truncated record: " ++ err.message

/-- `fileHeader` -/
structure FileHeader where
  magicNumber : UInt32
  versionMajor : UInt16
  versionMinor : UInt16
  thisZone : Int32
  sigFigs : UInt32
  snapLen : UInt32
  network : UInt32
deriving DecidableEq, Repr

/-- `recordHeader` -/
structure RecordHeader where
  tsSec : UInt32
  tsUsec : UInt32
  inclLen : UInt32
  origLen : UInt32
deriving DecidableEq, Repr

/-- `Record` -/
structure Record where
  tsSec : UInt32
  tsUsec : UInt32
  inclLen : UInt32
  origLen : UInt32
  device : UInt16 := 0
  endpoint : UInt8 := 0
  transfer : UInt8 := 0
  dataLen : UInt32 := 0
  payload : List UInt8 := []
  headerLen : UInt16 := 0
  actualLen : UInt32 := 0
deriving DecidableEq, Repr

/-- `Reader`; `f` is what is left of the file. -/
structure Reader where
  f : List UInt8
  hdr : FileHeader
  fileSize : ℕ
deriving DecidableEq, Repr

/-! ## Reading -/

/-- `io.ReadFull` of `n` bytes: the bytes and what is left of the file. -/
def readFull (n : ℕ) (f : List UInt8) : Except ReadError (List UInt8) × List UInt8 :=
  if n ≤ f.length then (.ok (f.take n), f.drop n)
  else if f = [] then (.error .eof, [])
  else (.error .unexpectedEof, [])

/-- What `binary.Read` makes of the 24 bytes of a global header. -/
def FileHeader.ofBytes (bs : List UInt8) : FileHeader where
  magicNumber := .ofNat (field 0 4 bs)
  versionMajor := .ofNat (field 4 2 bs)
  versionMinor := .ofNat (field 6 2 bs)
  thisZone := (UInt32.ofNat (field 8 4 bs)).toInt32
  sigFigs := .ofNat (field 12 4 bs)
  snapLen := .ofNat (field 16 4 bs)
  network := .ofNat (field 20 4 bs)

/-- What `binary.Read` makes of the 16 bytes of a record header. -/
def RecordHeader.ofBytes (bs : List UInt8) : RecordHeader where
  tsSec := .ofNat (field 0 4 bs)
  tsUsec := .ofNat (field 4 4 bs)
  inclLen := .ofNat (field 8 4 bs)
  origLen := .ofNat (field 12 4 bs)

/-- `OpenReader`, given the contents of the file. -/
def openReader (contents : List UInt8) : Except ReadError Reader :=
  match readFull 24 contents with
  | (.error err, _) => .error err
  | (.ok bs, f) =>
    let fh := FileHeader.ofBytes bs
    if fh.magicNumber ≠ 0xA1B2C3D4 ∧ fh.magicNumber ≠ 0xD4C3B2A1 then .error .unsupportedMagic
    else if fh.network ≠ 249 then .error (.unsupportedLinkType fh.network)
    else .ok { f := f, hdr := fh, fileSize := contents.length }

/-- The record that `Next` builds from a record header and the record's bytes. -/
def recordOf (rh : RecordHeader) (buf : List UInt8) : Record :=
  let rec₀ : Record :=
    { tsSec := rh.tsSec, tsUsec := rh.tsUsec, inclLen := rh.inclLen, origLen := rh.origLen }
  if buf.length < 27 then rec₀
  else
    let rec₁ : Record :=
      { rec₀ with
        headerLen := .ofNat (field 0 2 buf)
        device := .ofNat (field 19 2 buf)
        endpoint := .ofNat (field 21 1 buf)
        transfer := .ofNat (field 22 1 buf)
        dataLen := .ofNat (field 23 4 buf) }
    let payloadStart := rec₁.headerLen.toNat
    if payloadStart < 27 ∨ buf.length < payloadStart then rec₁
    else
      let payloadEnd := payloadStart + rec₁.dataLen.toNat
      let payloadEnd := if buf.length < payloadEnd then buf.length else payloadEnd
      let payload := (buf.take payloadEnd).drop payloadStart
      { rec₁ with payload := payload, actualLen := .ofNat payload.length }

/-- `Reader.Next` -/
def Reader.next (r : Reader) : Except ReadError Record × Reader :=
  match readFull 16 r.f with
  | (.error err, f) => (.error err, { r with f := f })
  | (.ok bs, f) =>
    let rh := RecordHeader.ofBytes bs
    if maxRecordSize < rh.inclLen.toNat then
      (.error (.recordTooLarge rh.inclLen), { r with f := f })
    else
      match readFull rh.inclLen.toNat f with
      | (.error err, f) => (.error (.truncatedRecord err), { r with f := f })
      | (.ok buf, f) => (.ok (recordOf rh buf), { r with f := f })

/-! ## What one call consumes -/

theorem readFull_append (bs f : List UInt8) : readFull bs.length (bs ++ f) = (.ok bs, f) := by
  rw [readFull, if_pos (by rw [List.length_append]; omega), List.take_left, List.drop_left]

theorem readFull_ok {n : ℕ} {f bs rest : List UInt8} (h : readFull n f = (.ok bs, rest)) :
    bs.length = n ∧ f = bs ++ rest := by
  rw [readFull] at h
  split at h
  · rename_i hle
    obtain ⟨hbs, rfl⟩ := Prod.mk.injEq .. ▸ h
    obtain rfl := Except.ok.inj hbs
    exact ⟨List.length_take_of_le hle, (List.take_append_drop n f).symm⟩
  · split at h <;> simp at h

/-- A call that returns a record has read at least its header. -/
theorem Reader.next_consumes {r r' : Reader} {rec : Record} (h : r.next = (.ok rec, r')) :
    r'.f.length + 16 ≤ r.f.length := by
  rw [Reader.next] at h
  split at h
  · simp at h
  · rename_i bs f hbs
    obtain ⟨hlen, hf⟩ := readFull_ok hbs
    dsimp only at h
    split at h
    · simp at h
    · split at h
      · simp at h
      · rename_i buf f' hbuf
        obtain ⟨-, hf'⟩ := readFull_ok hbuf
        simp only [Prod.mk.injEq] at h
        rw [hf, hf', ← h.2]
        simp only [List.length_append]
        omega

/-- A record that the reader can return: the decoding of a record header and of a body of the size
that the header gives. -/
def Decoded (rec : Record) : Prop :=
  ∃ hdr body : List UInt8, hdr.length = 16 ∧
    body.length = (RecordHeader.ofBytes hdr).inclLen.toNat ∧ body.length ≤ maxRecordSize ∧
    rec = recordOf (.ofBytes hdr) body

/-- A call that returns a record has decoded it. -/
theorem Reader.decoded_of_next {r r' : Reader} {rec : Record} (h : r.next = (.ok rec, r')) :
    Decoded rec := by
  rw [Reader.next] at h
  split at h
  · simp at h
  · rename_i bs f hbs
    dsimp only at h
    split at h
    · simp at h
    · rename_i hmax
      split at h
      · simp at h
      · rename_i buf f' hbuf
        obtain ⟨hrec, -⟩ := Prod.mk.injEq .. ▸ h
        have hlen := (readFull_ok hbuf).1
        exact ⟨bs, buf, (readFull_ok hbs).1, hlen, by omega, (Except.ok.inj hrec).symm⟩

/-- Repeated `Next`: the records up to the first error, and the error. -/
def Reader.readAll (r : Reader) : List Record × ReadError :=
  match _h : r.next with
  | (.error err, _) => ([], err)
  | (.ok rec, r') => (rec :: r'.readAll.1, r'.readAll.2)
termination_by r.f.length
decreasing_by
  all_goals
    have := Reader.next_consumes _h
    omega

theorem Reader.readAll_of_error {r r' : Reader} {err : ReadError} (h : r.next = (.error err, r')) :
    r.readAll = ([], err) := by
  rw [Reader.readAll]
  split
  · rename_i hm
    rw [h] at hm
    simp at hm
    rw [hm.1]
  · rename_i hm
    rw [h] at hm
    simp at hm

theorem Reader.readAll_of_ok {r r' : Reader} {rec : Record} (h : r.next = (.ok rec, r')) :
    r.readAll = (rec :: r'.readAll.1, r'.readAll.2) := by
  rw [Reader.readAll]
  split
  · rename_i hm
    rw [h] at hm
    simp at hm
  · rename_i hm
    rw [h] at hm
    simp at hm
    rw [hm.1, hm.2]

/-- At the end of the file `Next` returns `io.EOF`. -/
theorem Reader.readAll_nil {r : Reader} (h : r.f = []) : r.readAll = ([], .eof) := by
  have hnext : r.next = (.error .eof, { r with f := [] }) := by
    rw [Reader.next, h]
    rfl
  exact Reader.readAll_of_error hnext

/-- `Next` on a stream that starts with a whole record of an admissible size. -/
theorem Reader.next_record {r : Reader} {hdr body rest : List UInt8} (hhdr : hdr.length = 16)
    (hlen : body.length = (RecordHeader.ofBytes hdr).inclLen.toNat)
    (hmax : body.length ≤ maxRecordSize) (hf : r.f = hdr ++ (body ++ rest)) :
    r.next = (.ok (recordOf (.ofBytes hdr) body), { r with f := rest }) := by
  have hread := readFull_append hdr (body ++ rest)
  have hbody := readFull_append body rest
  rw [hhdr] at hread
  rw [hlen] at hbody
  rw [Reader.next, hf, hread]
  dsimp only
  rw [if_neg (by omega), hbody]

/-! ## Encoded headers -/

/-- The record header is read back field by field. -/
theorem recordHeader_ofBytes (h : PcaprecHdr) :
    RecordHeader.ofBytes h.bytes = ⟨h.tsSec, h.tsUsec, h.inclLen, h.origLen⟩ := by
  rw [← List.append_nil h.bytes, PcaprecHdr.bytes, RecordHeader.ofBytes]
  simp (disch := omega) only [List.append_assoc, field_skip, Nat.reduceSub, field_encode,
    ofNat_field_uint32]

/-- The fields of the packet header that the reader decodes, in any buffer that starts with it. -/
theorem packetHeader_fields (h : BufferPacketHeader) (xs : List UInt8) :
    UInt16.ofNat (field 0 2 (h.bytes ++ xs)) = h.headerLen ∧
    UInt16.ofNat (field 19 2 (h.bytes ++ xs)) = h.device ∧
    UInt8.ofNat (field 21 1 (h.bytes ++ xs)) = h.endpoint ∧
    UInt8.ofNat (field 22 1 (h.bytes ++ xs)) = h.transfer ∧
    UInt32.ofNat (field 23 4 (h.bytes ++ xs)) = h.dataLength := by
  rw [BufferPacketHeader.bytes]
  simp (disch := omega) only [List.append_assoc, field_skip, Nat.reduceSub, field_encode,
    ofNat_field_uint8, ofNat_field_uint16, ofNat_field_uint32, and_self]

end UsbPcap.Pcap
