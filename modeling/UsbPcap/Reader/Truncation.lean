import UsbPcap.Reader.Agreement
import UsbPcap.Reader.Export

/-!
# Truncated captures

`io.ReadFull` returns `io.EOF` when it reads nothing and `io.ErrUnexpectedEOF` when it reads a part.
`Next` wraps either with `%w` when the body of a record is short, and the loops look for `io.EOF`
through the wrapping. A file that ends right behind a record header is therefore taken for a
complete one; `truncation_reported_iff` says that no other truncated file is.
-/

namespace UsbPcap.Pcap

open Format

/-- The 24 bytes of a global header that the service accepts. -/
structure IsPcapHeader (hdr : List UInt8) : Prop where
  length_eq : hdr.length = 24
  magic : magicNumber hdr = 0xA1B2C3D4 ∨ magicNumber hdr = 0xD4C3B2A1
  network_eq : network hdr = 249

/-- A valid header followed by complete records and nothing else. -/
def WellFormed (contents : List UInt8) : Prop :=
  ∃ hdr records, IsPcapHeader hdr ∧ recordFraming.Whole records ∧ contents = hdr ++ records

/-- A complete record whose `InclLen` the reader admits. -/
def IsRecord (f : List UInt8) : Prop := recordFraming.IsFrame f ∧ inclLen f ≤ maxRecordSize

/-- A record header whose body is admissible and not empty. -/
structure IsBodylessRecord (last : List UInt8) : Prop where
  length_eq : last.length = 16
  inclLen_pos : 0 < inclLen last
  inclLen_le : inclLen last ≤ maxRecordSize

/-- The file ends right behind the header of a record that has a body. -/
def CutBehindRecordHeader (contents : List UInt8) : Prop :=
  ∃ (hdr : List UInt8) (fs : List (List UInt8)) (last : List UInt8), IsPcapHeader hdr ∧
    (∀ f ∈ fs, IsRecord f) ∧ IsBodylessRecord last ∧ contents = hdr ++ (fs.flatten ++ last)

/-! ## One call of `Next` -/

/-- The length field has 32 bits. -/
theorem ofBytes_inclLen (bs : List UInt8) : (RecordHeader.ofBytes bs).inclLen.toNat = inclLen bs :=
  UInt32.toNat_ofNat_of_lt' (field_lt 8 4 bs)

/-- `ReadFull` tells an empty rest from one that is too short. -/
theorem readFull_error {n : ℕ} {f rest : List UInt8} {err : ReadError}
    (h : readFull n f = (.error err, rest)) :
    f.length < n ∧ (f = [] ∧ err = .eof ∨ f ≠ [] ∧ err = .unexpectedEof) := by
  rw [readFull] at h
  split at h
  · simp at h
  · rename_i hlen
    refine ⟨by omega, ?_⟩
    split at h
    · rename_i hnil
      simp only [Prod.mk.injEq, Except.error.injEq] at h
      exact Or.inl ⟨hnil, h.1.symm⟩
    · rename_i hne
      simp only [Prod.mk.injEq, Except.error.injEq] at h
      exact Or.inr ⟨hne, h.1.symm⟩

namespace Reader

variable {r r' : Reader} {rec : Record} {err : ReadError}

/-- What a successful call reads is one record. -/
theorem next_ok (h : r.next = (.ok rec, r')) : ∃ f, IsRecord f ∧ r.f = f ++ r'.f := by
  rw [next] at h
  split at h
  · simp at h
  · rename_i bs f hbs
    obtain ⟨hlen, hf⟩ := readFull_ok hbs
    dsimp only at h
    split at h
    · simp at h
    · rename_i hmax
      split at h
      · simp at h
      · rename_i buf f' hbuf
        obtain ⟨hlen', hf'⟩ := readFull_ok hbuf
        obtain ⟨-, rfl⟩ := Prod.mk.injEq .. ▸ h
        rw [ofBytes_inclLen] at hmax hlen'
        have hincl : inclLen (bs ++ buf) = inclLen bs := field_append (by omega) buf
        refine ⟨bs ++ buf, ⟨?_, by omega⟩, by rw [hf, hf', List.append_assoc]⟩
        rw [isFrame_record, List.length_append, hincl]
        omega

/-- The calls that fail with an error for the end of the file. -/
theorem next_error (h : r.next = (.error err, r')) (heof : err.isEof = true) :
    r.f = [] ∨ IsBodylessRecord r.f := by
  rw [next] at h
  split at h
  · rename_i err' f hread
    simp only [Prod.mk.injEq, Except.error.injEq] at h
    obtain ⟨-, ⟨hnil, -⟩ | ⟨-, herr⟩⟩ := readFull_error hread
    · exact Or.inl hnil
    · rw [← h.1, herr] at heof
      exact absurd heof Bool.false_ne_true
  · rename_i bs f hbs
    obtain ⟨hlen, hf⟩ := readFull_ok hbs
    dsimp only at h
    split at h
    · simp only [Prod.mk.injEq, Except.error.injEq] at h
      rw [← h.1] at heof
      exact absurd heof Bool.false_ne_true
    · rename_i hmax
      split at h
      · rename_i err' f' hread
        simp only [Prod.mk.injEq, Except.error.injEq] at h
        obtain ⟨hshort, ⟨hnil, -⟩ | ⟨-, herr⟩⟩ := readFull_error hread
        · -- nothing is left behind the record header
          rw [ofBytes_inclLen] at hmax hshort
          rw [hnil, List.append_nil] at hf
          rw [hnil, List.length_nil] at hshort
          right
          rw [hf]
          exact ⟨hlen, hshort, by omega⟩
        · rw [← h.1, herr] at heof
          exact absurd heof Bool.false_ne_true
      · simp at h

/-- A record at the front is read, and the rest after it. -/
theorem readAll_of_record {f rest : List UInt8} (hf : IsRecord f) (hr : r.f = f ++ rest) :
    ∃ rec, r.readAll = (rec :: (Reader.mk rest r.hdr r.fileSize).readAll.1,
      (Reader.mk rest r.hdr r.fileSize).readAll.2) := by
  obtain ⟨hframe, hmax⟩ := hf
  obtain ⟨hlen, hincl⟩ := isFrame_record.mp hframe
  have htake : inclLen (f.take 16) = inclLen f := field_take (by omega) f
  have hsplit : r.f = f.take 16 ++ (f.drop 16 ++ rest) := by
    rw [hr, ← List.append_assoc, List.take_append_drop]
  refine ⟨_, readAll_of_ok (next_record (List.length_take_of_le hlen) ?_ ?_ hsplit)⟩
  · rw [ofBytes_inclLen, htake, List.length_drop]
    omega
  · rw [List.length_drop]
    omega

/-- A record header at the end of the file ends the loop as the end of the file does. -/
theorem readAll_of_bodyless (h : IsBodylessRecord r.f) :
    r.readAll = ([], .truncatedRecord .eof) := by
  have hread := readFull_append r.f []
  rw [h.length_eq, List.append_nil] at hread
  have hpos := h.inclLen_pos
  have hmax := h.inclLen_le
  have hnext : r.next = (.error (.truncatedRecord .eof), { r with f := [] }) := by
    rw [next, hread]
    dsimp only
    rw [ofBytes_inclLen, if_neg (by omega), readFull, if_neg (by rw [List.length_nil]; omega),
      if_pos rfl]
  exact readAll_of_error hnext

/-- The contents on which repeated `Next` ends as at the end of a file. -/
theorem readAll_isEof_iff (r : Reader) :
    r.readAll.2.isEof = true ↔ ∃ (fs : List (List UInt8)) (last : List UInt8),
      (∀ f ∈ fs, IsRecord f) ∧ (last = [] ∨ IsBodylessRecord last) ∧ r.f = fs.flatten ++ last := by
  constructor
  · induction r using next_induction with
    | stop r r' err h =>
      intro heof
      rw [readAll_of_error h] at heof
      exact ⟨[], r.f, by simp, next_error h heof, rfl⟩
    | record r r' rec h ih =>
      intro heof
      rw [readAll_of_ok h] at heof
      obtain ⟨fs, last, hfs, hlast, hr'⟩ := ih heof
      obtain ⟨f, hf, hr⟩ := next_ok h
      refine ⟨f :: fs, last, List.forall_mem_cons.mpr ⟨hf, hfs⟩, hlast, ?_⟩
      rw [hr, hr', List.flatten_cons, List.append_assoc]
  · rintro ⟨fs, last, hfs, hlast, hr⟩
    induction fs generalizing r with
    | nil =>
      rcases hlast with rfl | hlast
      · rw [readAll_nil hr]
        rfl
      · rw [List.flatten_nil, List.nil_append] at hr
        rw [readAll_of_bodyless (by rw [hr]; exact hlast)]
        rfl
    | cons f fs ih =>
      rw [List.forall_mem_cons] at hfs
      rw [List.flatten_cons, List.append_assoc] at hr
      obtain ⟨rec, hall⟩ := readAll_of_record hfs.1 hr
      rw [hall]
      exact ih _ hfs.2 rfl

end Reader

/-! ## Whole files -/

/-- A file that can be opened begins with a valid header. -/
theorem openReader_eq_ok {contents : List UInt8} {r : Reader} (h : openReader contents = .ok r) :
    ∃ hdr, IsPcapHeader hdr ∧ contents = hdr ++ r.f := by
  rw [openReader] at h
  split at h
  · simp at h
  · rename_i bs f hbs
    obtain ⟨hlen, hcontents⟩ := readFull_ok hbs
    dsimp only at h
    split at h
    · simp at h
    · rename_i hmagic
      split at h
      · simp at h
      · rename_i hnet
        obtain rfl := Except.ok.inj h
        have hm : (FileHeader.ofBytes bs).magicNumber.toNat = magicNumber bs :=
          UInt32.toNat_ofNat_of_lt' (field_lt 0 4 bs)
        have hn : (FileHeader.ofBytes bs).network.toNat = network bs :=
          UInt32.toNat_ofNat_of_lt' (field_lt 20 4 bs)
        refine ⟨bs, ⟨hlen, ?_, ?_⟩, hcontents⟩
        · rw [not_and_or, not_not, not_not] at hmagic
          rw [← hm]
          rcases hmagic with h | h
          · exact Or.inl (by rw [h]; rfl)
          · exact Or.inr (by rw [h]; rfl)
        · rw [← hn, not_not.mp hnet]
          rfl

/-- Every file with a valid header can be opened. -/
theorem openReader_append {hdr : List UInt8} (h : IsPcapHeader hdr) (f : List UInt8) :
    ∃ r, openReader (hdr ++ f) = .ok r ∧ r.f = f := by
  have hread := readFull_append hdr f
  rw [h.length_eq] at hread
  have hmagic : ¬ ((FileHeader.ofBytes hdr).magicNumber ≠ 0xA1B2C3D4 ∧
      (FileHeader.ofBytes hdr).magicNumber ≠ 0xD4C3B2A1) := by
    rw [not_and_or, not_not, not_not]
    exact h.magic.imp (fun hm => congrArg UInt32.ofNat hm) fun hm => congrArg UInt32.ofNat hm
  have hnet : (FileHeader.ofBytes hdr).network = 249 := congrArg UInt32.ofNat h.network_eq
  rw [openReader, hread]
  dsimp only
  rw [if_neg hmagic, if_neg (not_not.mpr hnet)]
  exact ⟨_, rfl, rfl⟩

/-- A record header without its body is no sequence of records. -/
theorem IsBodylessRecord.not_whole {last : List UInt8} (h : IsBodylessRecord last) :
    ¬ recordFraming.Whole last := by
  have hlen := h.length_eq
  have hpos := h.inclLen_pos
  have hnone : recordFraming.frameLen last = none := by
    rw [recordFraming_frameLen, recordLen, sizeofPcaprecHdr, if_neg (by omega), if_pos (by omega)]
  rw [Framing.whole_iff_rest_nil recordLen_nil, Framing.split_of_none hnone]
  rintro rfl
  simp at hlen

/-- Records, one after the other, are a whole stream. -/
theorem whole_of_isRecord {fs : List (List UInt8)} (h : ∀ f ∈ fs, IsRecord f) :
    recordFraming.Whole fs.flatten :=
  ⟨fs, fun f hf => (h f hf).1, rfl⟩

/-- A file cut behind a record header is read to its end, and it is truncated. -/
theorem CutBehindRecordHeader.accepted {contents : List UInt8}
    (h : CutBehindRecordHeader contents) :
    Accepted contents ∧ ¬ WellFormed contents := by
  obtain ⟨hdr, fs, last, hhdr, hfs, hlast, rfl⟩ := h
  constructor
  · obtain ⟨r, hr, hf⟩ := openReader_append hhdr (fs.flatten ++ last)
    exact ⟨r, hr, (Reader.readAll_isEof_iff r).mpr ⟨fs, last, hfs, Or.inr hlast, hf⟩⟩
  · rintro ⟨hdr', records, hhdr', hwhole, heq⟩
    obtain ⟨-, rfl⟩ := List.append_inj heq (hhdr.length_eq.trans hhdr'.length_eq.symm)
    exact hlast.not_whole
      (((whole_of_isRecord hfs).append_iff recordLen_nil).mp hwhole)

/-- What a loop that never breaks accepts is well formed, up to this one cut. -/
theorem wellFormed_of_accepted_iff (contents : List UInt8) :
    (Accepted contents → WellFormed contents) ↔ ¬ CutBehindRecordHeader contents := by
  constructor
  · intro h hcut
    exact hcut.accepted.2 (h hcut.accepted.1)
  · rintro hcut ⟨r, hr, heof⟩
    obtain ⟨hdr, hhdr, rfl⟩ := openReader_eq_ok hr
    obtain ⟨fs, last, hfs, rfl | hlast, hf⟩ := (Reader.readAll_isEof_iff r).mp heof
    · rw [List.append_nil] at hf
      exact ⟨hdr, r.f, hhdr, by rw [hf]; exact whole_of_isRecord hfs, rfl⟩
    · exact absurd ⟨hdr, fs, last, hhdr, hfs, hlast, by rw [hf]⟩ hcut

/-- `Summarize` accepts what a loop that never breaks accepts. -/
theorem exists_summarize_iff (contents : List UInt8) :
    (∃ s, summarize contents = .ok s) ↔ Accepted contents := by
  simp only [summarize_eq_ok_iff]
  rw [exists_comm]
  simp [Accepted]

/-- So does `Analyze`. -/
theorem exists_analyze_iff (order : RangeOrder) (path : String) (contents : List UInt8)
    (deviceAddr : Option UInt16) :
    (∃ a, analyze order path contents deviceAddr = .ok a) ↔ Accepted contents := by
  simp only [analyze_eq_ok_iff]
  rw [exists_comm]
  simp [Accepted]

/-- And `ExportPayload`, below its caps. -/
theorem exists_exportPayload_iff {contents : List UInt8} {q : ExportQuery}
    (hcaps : q.BelowCaps {} (fileRecords contents)) :
    (∃ results, exportPayload contents q = .ok results) ↔ Accepted contents := by
  simp only [exportPayload_eq_ok_iff hcaps]
  rw [exists_comm]
  simp [Accepted]

/-- **Truncation is reported, up to one cut.** `Summarize`, `Analyze` with any filter and
`ExportPayload` below its caps accept only well-formed files exactly when the file is not cut right
behind the header of a record that has a body. -/
theorem truncation_reported_iff (contents : List UInt8) :
    (((∃ s, summarize contents = .ok s) → WellFormed contents) ↔
        ¬ CutBehindRecordHeader contents) ∧
    (∀ order path deviceAddr,
      ((∃ a, analyze order path contents deviceAddr = .ok a) → WellFormed contents) ↔
        ¬ CutBehindRecordHeader contents) ∧
    (∀ q : ExportQuery, q.BelowCaps {} (fileRecords contents) →
      (((∃ results, exportPayload contents q = .ok results) → WellFormed contents) ↔
        ¬ CutBehindRecordHeader contents)) := by
  refine ⟨?_, fun order path deviceAddr => ?_, fun q hcaps => ?_⟩
  · rw [exists_summarize_iff]
    exact wellFormed_of_accepted_iff contents
  · rw [exists_analyze_iff]
    exact wellFormed_of_accepted_iff contents
  · rw [exists_exportPayload_iff hcaps]
    exact wellFormed_of_accepted_iff contents

/-- Its three records are complete. -/
theorem isRecord_of_mixed : ∀ f ∈ [outRecord, bulkRecord, emptyRecord], IsRecord f := by
  intro f hf
  simp only [List.mem_cons, List.not_mem_nil, or_false] at hf
  rcases hf with rfl | rfl | rfl
  all_goals exact ⟨rfl, by decide⟩

/-- So the capture of two devices is well formed. -/
theorem wellFormed_mixed : WellFormed mixedCapture :=
  ⟨plainHeader, _, ⟨rfl, Or.inl (by decide), by decide⟩, whole_of_isRecord isRecord_of_mixed, by
    rw [mixedCapture, List.flatten_cons, List.flatten_cons, List.flatten_singleton]⟩

/-- The capture of two devices is accepted, and its three records are all it has. -/
theorem truncation_reported_mixed :
    (∃ results, exportPayload mixedCapture ⟨2, "0x81", 0⟩ = .ok results) ∧
      (((∃ results, exportPayload mixedCapture ⟨2, "0x81", 0⟩ = .ok results) →
        WellFormed mixedCapture) ↔ ¬ CutBehindRecordHeader mixedCapture) ∧
      ¬ CutBehindRecordHeader mixedCapture := by
  have hcaps : (⟨2, "0x81", 0⟩ : ExportQuery).BelowCaps {} (fileRecords mixedCapture) := by
    rw [fileRecords_mixed]
    exact ⟨by decide +kernel, by decide +kernel⟩
  have hiff := (truncation_reported_iff mixedCapture).2.2 _ hcaps
  exact ⟨(exists_exportPayload_iff hcaps).mpr accepted_mixed, hiff,
    hiff.mp fun _ => wellFormed_mixed⟩

/-- A capture that ends right behind the header of a record with one byte. -/
def cutCapture : List UInt8 := plainHeader ++ [0, 0, 0, 0, 0, 0, 0, 0, 1, 0, 0, 0, 1, 0, 0, 0]

/-- The record has a length, and no body. -/
theorem cutCapture_cut : CutBehindRecordHeader cutCapture :=
  ⟨plainHeader, [], _, ⟨rfl, Or.inl (by decide), by decide⟩, by simp,
    ⟨rfl, by decide, by decide⟩, rfl⟩

/-- The cut capture is summarised without an error. -/
theorem summarize_accepts_cutCapture :
    (∃ s, summarize cutCapture = .ok s) ∧ ¬ WellFormed cutCapture :=
  ⟨(exists_summarize_iff _).mpr cutCapture_cut.accepted.1, cutCapture_cut.accepted.2⟩

end UsbPcap.Pcap
