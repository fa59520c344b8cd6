import UsbPcap.Lib.Tally
import UsbPcap.Reader.Records

/-!
# Loops over a capture, and the summary

`SummarizeReader`, `Analyze` and `ExportPayload` all read records until `Next` fails and take every
error that wraps `io.EOF` for the end of the file. `Reader.forEach` is that loop; where its body
never breaks, it is a fold over `Reader.readAll` (`forEach_yield`). The 64-bit counters are natural
numbers.
-/

namespace UsbPcap.Pcap

/-! ## The loop -/

/-- `errors.Is(err, io.EOF)`, which looks through the errors wrapped with `%w`. -/
def ReadError.isEof : ReadError → Bool
  | .eof => true
  | .truncatedRecord err => err.isEof
  | _ => false

/-- The loop `for { rec, err := r.Next() … }` around a body that may break. -/
def Reader.forEach {σ : Type} (body : σ → Record → ForInStep σ) (r : Reader) (s : σ) :
    Except ReadError σ :=
  match _h : r.next with
  | (.error err, _) => if err.isEof then .ok s else .error err
  | (.ok rec, r') =>
    match body s rec with
    | .done s => .ok s
    | .yield s => r'.forEach body s
termination_by r.f.length
decreasing_by
  have := Reader.next_consumes _h
  omega

namespace Reader

variable {σ : Type} {body : σ → Record → ForInStep σ} {r r' : Reader} {s s' : σ} {rec : Record}
  {err : ReadError}

/-- The loop ends with the file, or with an error. -/
theorem forEach_of_error (h : r.next = (.error err, r')) :
    r.forEach body s = if err.isEof then .ok s else .error err := by
  rw [forEach]
  split
  · rename_i hm
    obtain ⟨herr, -⟩ := Prod.mk.injEq .. ▸ h.symm.trans hm
    rw [Except.error.inj herr]
  · rename_i hm
    simp [h] at hm

/-- A record that the body takes is followed by the rest. -/
theorem forEach_of_yield (h : r.next = (.ok rec, r')) (hb : body s rec = .yield s') :
    r.forEach body s = r'.forEach body s' := by
  rw [forEach]
  split
  · rename_i hm
    simp [h] at hm
  · rename_i hm
    obtain ⟨hrec, rfl⟩ := Prod.mk.injEq .. ▸ h.symm.trans hm
    rw [← Except.ok.inj hrec, hb]

/-- A body that has enough ends the loop. -/
theorem forEach_of_done (h : r.next = (.ok rec, r')) (hb : body s rec = .done s') :
    r.forEach body s = .ok s' := by
  rw [forEach]
  split
  · rename_i hm
    simp [h] at hm
  · rename_i hm
    obtain ⟨hrec, rfl⟩ := Prod.mk.injEq .. ▸ h.symm.trans hm
    rw [← Except.ok.inj hrec, hb]

/-- Induction along the calls of `Next`. -/
theorem next_induction {P : Reader → Prop}
    (stop : ∀ r r' err, r.next = (.error err, r') → P r)
    (record : ∀ r r' rec, r.next = (.ok rec, r') → P r' → P r) (r : Reader) : P r := by
  induction h : r.f.length using Nat.strongRecOn generalizing r with
  | _ k ih =>
    cases hn : r.next with
    | mk res r' =>
      cases res with
      | error err => exact stop r r' err hn
      | ok rec =>
        have hlt := next_consumes hn
        exact record r r' rec hn (ih r'.f.length (by omega) r' rfl)

/-- A loop that never breaks is a fold over all records. -/
theorem forEach_yield (body : σ → Record → σ) (r : Reader) (s : σ) :
    r.forEach (fun s rec => .yield (body s rec)) s =
      if r.readAll.2.isEof then .ok (r.readAll.1.foldl body s) else .error r.readAll.2 := by
  induction r using next_induction generalizing s with
  | stop r r' err h =>
    rw [forEach_of_error h, readAll_of_error h]
    rfl
  | record r r' rec h ih =>
    rw [forEach_of_yield h rfl, readAll_of_ok h, ih]
    rfl

/-- What is read are decoded records. -/
theorem decoded_of_mem_readAll {r : Reader} (h : rec ∈ r.readAll.1) : Decoded rec := by
  induction r using next_induction with
  | stop r r' err hn =>
    rw [readAll_of_error hn] at h
    exact absurd h List.not_mem_nil
  | record r r' rec' hn ih =>
    rw [readAll_of_ok hn] at h
    rcases List.mem_cons.mp h with rfl | h
    · exact decoded_of_next hn
    · exact ih h

end Reader

/-! ## Common to the analyses -/

/-- The records of a file: what repeated `Next` returns. -/
def fileRecords (contents : List UInt8) : List Record :=
  match openReader contents with
  | .error _ => []
  | .ok r => r.readAll.1

/-- The records of a file are those that its reader reads. -/
theorem fileRecords_of_ok {contents : List UInt8} {r : Reader} (h : openReader contents = .ok r) :
    fileRecords contents = r.readAll.1 := by
  rw [fileRecords, h]

/-- Each of them has been decoded. -/
theorem decoded_of_mem_fileRecords {contents : List UInt8} {rec : Record}
    (h : rec ∈ fileRecords contents) : Decoded rec := by
  rw [fileRecords] at h
  split at h
  · exact absurd h List.not_mem_nil
  · exact Reader.decoded_of_mem_readAll h

/-- The loops that never break return on these files. -/
def Accepted (contents : List UInt8) : Prop :=
  ∃ r, openReader contents = .ok r ∧ r.readAll.2.isEof = true

/-- `fmt.Sprintf("0x%02x", n)` -/
def hex02 (n : ℕ) : String := .ofList ('0' :: 'x' :: (Nat.toDigits 16 n).leftpad 2 '0')

/-- `firstTS`, `lastTS` and `firstSet` -/
structure Span where
  firstTS : ℕ := 0
  lastTS : ℕ := 0
  firstSet : Bool := false
deriving DecidableEq, Repr

/-- `tsMillis` -/
def Record.tsMillis (rec : Record) : ℕ := rec.tsSec.toNat * 1000 + rec.tsUsec.toNat / 1000

/-- One more record at `tsMillis`. -/
def Span.see (t : Span) (tsMillis : ℕ) : Span where
  firstTS := if t.firstSet then t.firstTS else tsMillis
  lastTS := tsMillis
  firstSet := true

/-- The duration; it stays 0 when the last record is older than the first. -/
def Span.durationMs (t : Span) : ℕ :=
  if t.firstSet ∧ t.firstTS ≤ t.lastTS then t.lastTS - t.firstTS else 0

/-! ## The summary -/

/-- `SummaryData` -/
structure SummaryData where
  packetCount : ℕ := 0
  durationMs : ℕ := 0
  transferTypes : Table String ℕ
  endpointDistribution : Table String ℕ := ∅
  deviceDistribution : Table String ℕ := ∅
deriving DecidableEq

/-- The key of `TransferTypes` for a transfer. -/
def summaryTransferType (transfer : UInt8) : String :=
  if transfer = 0 then "isochronous"
  else if transfer = 1 then "interrupt"
  else if transfer = 2 then "control"
  else if transfer = 3 then "bulk"
  else "unknown"

/-- The tables that `SummarizeReader` starts with. -/
def SummaryData.init : SummaryData where
  transferTypes :=
    List.toAList [⟨"control", 0⟩, ⟨"bulk", 0⟩, ⟨"interrupt", 0⟩, ⟨"isochronous", 0⟩, ⟨"unknown", 0⟩]

/-- The loop body of `SummarizeReader`. -/
def summarizeBody (l : SummaryData × Span) (rec : Record) : SummaryData × Span :=
  let s := { l.1 with packetCount := l.1.packetCount + 1 }
  let span := l.2.see rec.tsMillis
  if rec.headerLen = 0 then
    ({ s with transferTypes := s.transferTypes.add "unknown" 1 }, span)
  else
    ({ s with
        transferTypes := s.transferTypes.add (summaryTransferType rec.transfer) 1
        endpointDistribution := s.endpointDistribution.add (hex02 rec.endpoint.toNat) 1
        deviceDistribution := s.deviceDistribution.add (hex02 rec.device.toNat) 1 }, span)

/-- `SummarizeReader`, given the contents of the file. -/
def summarizeReader (contents : List UInt8) : Except ReadError SummaryData :=
  match openReader contents with
  | .error err => .error err
  | .ok r =>
    match r.forEach (fun l rec => .yield (summarizeBody l rec)) (.init, {}) with
    | .error err => .error err
    | .ok (s, span) => .ok { s with durationMs := span.durationMs }

/-- The fields of `ipc.Summary` that `Summarize` sets. -/
structure Summary where
  packetCount : ℕ
  sizeBytes : ℕ
  durationMs : ℕ
  transferTypes : Table String ℕ
  endpointDistribution : Table String ℕ
  deviceDistribution : Table String ℕ
deriving DecidableEq

/-- `Summarize`, given the contents of the file. -/
def summarize (contents : List UInt8) : Except ReadError Summary :=
  match summarizeReader contents with
  | .error err => .error err
  | .ok sd =>
    .ok
      { packetCount := sd.packetCount
        sizeBytes := contents.length
        durationMs := sd.durationMs
        transferTypes := sd.transferTypes
        endpointDistribution := sd.endpointDistribution
        deviceDistribution := sd.deviceDistribution }

/-- `Summarize` returns the totals of all records when the loop reaches the end. -/
theorem summarize_eq_ok_iff {contents : List UInt8} {s : Summary} :
    summarize contents = .ok s ↔
      ∃ r, openReader contents = .ok r ∧ r.readAll.2.isEof = true ∧
        let l := r.readAll.1.foldl summarizeBody (.init, {})
        { packetCount := l.1.packetCount
          sizeBytes := contents.length
          durationMs := l.2.durationMs
          transferTypes := l.1.transferTypes
          endpointDistribution := l.1.endpointDistribution
          deviceDistribution := l.1.deviceDistribution } = s := by
  rw [summarize, summarizeReader]
  cases openReader contents with
  | error err => simp
  | ok r =>
    simp only [Reader.forEach_yield, Except.ok.injEq, exists_eq_left']
    cases r.readAll.2.isEof with
    | true => simp
    | false => simp

/-! ## What the records add -/

section Counts

variable (recs : List Record)

/-- Every record counts. -/
theorem summary_packetCount :
    (recs.foldl summarizeBody (.init, {})).1.packetCount = recs.length := by
  have h := Table.measure_foldl_length summarizeBody (fun l => l.1.packetCount)
    (fun l rec => by rw [summarizeBody]; split <;> rfl) (.init, {}) recs
  exact h.trans (Nat.zero_add _)

/-- Every record counts as one transfer of some type. -/
theorem summary_transferTypes :
    (recs.foldl summarizeBody (.init, {})).1.transferTypes.total = recs.length := by
  have h := Table.measure_foldl_length summarizeBody (fun l => l.1.transferTypes.total)
    (fun l rec => by rw [summarizeBody]; split <;> exact Table.total_add _ _ _) (.init, {}) recs
  exact h.trans (Nat.zero_add _)

/-- The endpoints count the records with a header. -/
theorem summary_endpointDistribution :
    (recs.foldl summarizeBody (.init, {})).1.endpointDistribution.total =
      recs.countP (·.headerLen ≠ 0) := by
  have h := Table.measure_foldl_countP summarizeBody (fun l => l.1.endpointDistribution.total)
    (p := (·.headerLen ≠ 0))
    (fun l rec => by rw [summarizeBody]; split <;> simp_all [Table.total_add]) (.init, {}) recs
  exact h.trans (Nat.zero_add _)

/-- And so do the devices. -/
theorem summary_deviceDistribution :
    (recs.foldl summarizeBody (.init, {})).1.deviceDistribution.total =
      recs.countP (·.headerLen ≠ 0) := by
  have h := Table.measure_foldl_countP summarizeBody (fun l => l.1.deviceDistribution.total)
    (p := (·.headerLen ≠ 0))
    (fun l rec => by rw [summarizeBody]; split <;> simp_all [Table.total_add]) (.init, {}) recs
  exact h.trans (Nat.zero_add _)

end Counts

end UsbPcap.Pcap
