import UsbPcap.Reader.Summary

/-!
# The payload export

`ExportPayload` is the one loop over a capture that may break before the end of the file: it stops
when it has 10000 payloads or 64 MiB of text. Below these caps it is a pass over all records
(`exportPayload_eq_ok_iff`).
-/

namespace UsbPcap.Pcap

/-- The value of a digit of `parseEndpoint`. -/
def endpointDigit (c : Char) : Option UInt8 :=
  if '0' ≤ c ∧ c ≤ '9' then some (.ofNat (c.toNat - '0'.toNat))
  else if 'a' ≤ c ∧ c ≤ 'f' then some (.ofNat (c.toNat - 'a'.toNat + 10))
  else if 'A' ≤ c ∧ c ≤ 'F' then some (.ofNat (c.toNat - 'A'.toNat + 10))
  else none

/-- The digits that `parseEndpoint` has read so far, continued. -/
def parseEndpointDigits (v : UInt8) : List Char → Option UInt8
  | [] => some v
  | c :: cs =>
    match endpointDigit c with
    | none => none
    | some d => parseEndpointDigits (v * 16 + d) cs

/-- `parseEndpoint`; Go's `len` counts bytes. -/
def parseEndpoint (s : String) : Option UInt8 :=
  if s = "" then none
  else
    let raw :=
      if 2 < s.utf8ByteSize ∧ (s.toList.take 2 = ['0', 'x'] ∨ s.toList.take 2 = ['0', 'X']) then
        s.toList.drop 2
      else s.toList
    if 2 < (String.ofList raw).utf8ByteSize then none else parseEndpointDigits 0 raw

/-- `fmt.Sprintf("%x", bytes)` -/
def hexBytes (bytes : List UInt8) : String :=
  .ofList (bytes.flatMap fun b => (Nat.toDigits 16 b.toNat).leftpad 2 '0')

/-- `maxPayloads` -/
def maxPayloads : ℕ := 10000

/-- `maxTotalBytes`, 64 MiB. -/
def maxTotalBytes : ℕ := 64 * 1024 * 1024

/-- The variables of the loop of `ExportPayload`. -/
structure ExportState where
  results : List String := []
  totalBytes : ℕ := 0
deriving DecidableEq, Repr

/-- The arguments of `ExportPayload` beside the path. -/
structure ExportQuery where
  deviceAddress : UInt16
  endpoint : String
  minDataLen : UInt32
deriving DecidableEq, Repr

/-- The loop body of `ExportPayload`. -/
def exportBody (q : ExportQuery) (s : ExportState) (rec : Record) : ForInStep ExportState :=
  if rec.headerLen = 0 ∨ rec.device ≠ q.deviceAddress then .yield s
  else if (parseEndpoint q.endpoint).any (rec.endpoint ≠ ·) then .yield s
  else if rec.actualLen < q.minDataLen then .yield s
  else
    let hexStr := hexBytes rec.payload
    let s : ExportState :=
      { results := s.results ++ [hexStr], totalBytes := s.totalBytes + hexStr.length }
    if maxPayloads ≤ s.results.length ∨ maxTotalBytes ≤ s.totalBytes then .done s else .yield s

/-- `ExportPayload`, given the contents of the file. -/
def exportPayload (contents : List UInt8) (q : ExportQuery) : Except ReadError (List String) :=
  match openReader contents with
  | .error err => .error err
  | .ok r => (r.forEach (exportBody q) {}).map (·.results)

/-! ## Below the caps -/

/-- The records that `ExportPayload` does not skip. -/
def ExportQuery.Selects (q : ExportQuery) (rec : Record) : Bool :=
  rec.headerLen ≠ 0 && rec.device = q.deviceAddress &&
    (parseEndpoint q.endpoint).all (rec.endpoint = ·) && q.minDataLen ≤ rec.actualLen

/-- The payloads of all selected records. -/
def ExportQuery.payloads (q : ExportQuery) (recs : List Record) : List String :=
  (recs.filter q.Selects).map fun rec => hexBytes rec.payload

/-- No cap is hit, from `s` on. -/
def ExportQuery.BelowCaps (q : ExportQuery) (s : ExportState) (recs : List Record) : Prop :=
  s.results.length + (q.payloads recs).length < maxPayloads ∧
    s.totalBytes + ((q.payloads recs).map String.length).sum < maxTotalBytes

/-- A record that is selected passes the three tests. -/
theorem selects_iff {q : ExportQuery} {rec : Record} :
    q.Selects rec = true ↔ ¬ (rec.headerLen = 0 ∨ rec.device ≠ q.deviceAddress) ∧
      ¬ (parseEndpoint q.endpoint).any (rec.endpoint ≠ ·) = true ∧
      ¬ rec.actualLen < q.minDataLen := by
  unfold ExportQuery.Selects
  cases parseEndpoint q.endpoint with
  | none => simp [not_or]
  | some e => simp [not_or, and_assoc]

theorem exportBody_of_not_selects {q : ExportQuery} {rec : Record} (h : ¬ q.Selects rec = true)
    (s : ExportState) : exportBody q s rec = .yield s := by
  rw [selects_iff] at h
  unfold exportBody
  split
  · rfl
  · rename_i hfirst
    split
    · rfl
    · rename_i hsecond
      split
      · rfl
      · rename_i hthird
        exact absurd ⟨hfirst, hsecond, hthird⟩ h

/-- What the body does with a record that is selected. -/
theorem exportBody_of_selects {q : ExportQuery} {rec : Record} (h : q.Selects rec = true)
    (s : ExportState) :
    let s' : ExportState :=
      ⟨s.results ++ [hexBytes rec.payload], s.totalBytes + (hexBytes rec.payload).length⟩
    exportBody q s rec =
      if maxPayloads ≤ s'.results.length ∨ maxTotalBytes ≤ s'.totalBytes then .done s'
      else .yield s' := by
  obtain ⟨hfirst, hsecond, hthird⟩ := selects_iff.mp h
  rw [exportBody, if_neg hfirst, if_neg hsecond, if_neg hthird]

theorem ExportQuery.payloads_of_selects {q : ExportQuery} {rec : Record}
    (h : q.Selects rec = true) (recs : List Record) :
    q.payloads (rec :: recs) = hexBytes rec.payload :: q.payloads recs := by
  rw [payloads, List.filter_cons_of_pos h]
  rfl

theorem ExportQuery.payloads_of_not_selects {q : ExportQuery} {rec : Record}
    (h : ¬ q.Selects rec = true) (recs : List Record) :
    q.payloads (rec :: recs) = q.payloads recs := by
  rw [payloads, List.filter_cons_of_neg h]
  rfl

/-- What the body does with a record, below the caps. -/
theorem exportBody_eq_yield {q : ExportQuery} {s : ExportState} {rec : Record} {recs : List Record}
    (h : q.BelowCaps s (rec :: recs)) :
    ∃ s' : ExportState, exportBody q s rec = .yield s' ∧ q.BelowCaps s' recs ∧
      s'.results ++ q.payloads recs = s.results ++ q.payloads (rec :: recs) := by
  obtain ⟨hcount, hbytes⟩ := h
  by_cases hsel : q.Selects rec = true
  · rw [ExportQuery.payloads_of_selects hsel, List.length_cons] at hcount
    rw [ExportQuery.payloads_of_selects hsel, List.map_cons, List.sum_cons] at hbytes
    have hbody := exportBody_of_selects hsel s
    dsimp only at hbody
    rw [if_neg] at hbody
    · refine ⟨_, hbody, ⟨?_, ?_⟩, ?_⟩
      · rw [List.length_append, List.length_singleton]
        omega
      · dsimp only
        omega
      · rw [ExportQuery.payloads_of_selects hsel, List.append_assoc]
        rfl
    · rw [not_or, List.length_append, List.length_singleton]
      exact ⟨by omega, by omega⟩
  · rw [ExportQuery.payloads_of_not_selects hsel] at hcount hbytes ⊢
    exact ⟨s, exportBody_of_not_selects hsel s, ⟨hcount, hbytes⟩, rfl⟩

theorem forEach_exportBody {q : ExportQuery} (r : Reader) {s : ExportState}
    (h : q.BelowCaps s r.readAll.1) :
    (r.forEach (exportBody q) s).map (·.results) =
      if r.readAll.2.isEof then .ok (s.results ++ q.payloads r.readAll.1)
      else .error r.readAll.2 := by
  induction r using Reader.next_induction generalizing s with
  | stop r r' err hn =>
    rw [Reader.forEach_of_error hn, Reader.readAll_of_error hn]
    dsimp only
    split
    · exact congrArg Except.ok (List.append_nil _).symm
    · rfl
  | record r r' rec hn ih =>
    rw [Reader.readAll_of_ok hn] at h ⊢
    obtain ⟨s', hbody, hbelow, hresults⟩ := exportBody_eq_yield h
    rw [Reader.forEach_of_yield hn hbody, ih hbelow, hresults]

/-- Below the caps, `ExportPayload` returns the payloads of all selected records. -/
theorem exportPayload_eq_ok_iff {contents : List UInt8} {q : ExportQuery} {results : List String}
    (hcaps : q.BelowCaps {} (fileRecords contents)) :
    exportPayload contents q = .ok results ↔
      ∃ r, openReader contents = .ok r ∧ r.readAll.2.isEof = true ∧
        q.payloads r.readAll.1 = results := by
  rw [exportPayload]
  cases hr : openReader contents with
  | error err => simp
  | ok r =>
    rw [fileRecords_of_ok hr] at hcaps
    simp only [Except.ok.injEq, exists_eq_left']
    rw [forEach_exportBody r hcaps]
    cases r.readAll.2.isEof with
    | true => simp
    | false => simp

/-! ## At the caps -/

/-- A list of payloads that only the caps have cut. -/
structure CutAtCaps (results all : List String) : Prop where
  front : results <+: all
  length_le : results.length ≤ maxPayloads
  whole : results = all ∨ maxPayloads ≤ results.length ∨
    maxTotalBytes ≤ (results.map String.length).sum

/-- The loop, from a state below the caps on. -/
theorem forEach_exportBody_cut {q : ExportQuery} (r : Reader) {s s' : ExportState}
    (hs : s.results.length < maxPayloads) (h : r.forEach (exportBody q) s = .ok s') :
    ∃ taken, s'.results = s.results ++ taken ∧
      s'.totalBytes = s.totalBytes + (taken.map String.length).sum ∧
      taken <+: q.payloads r.readAll.1 ∧ s'.results.length ≤ maxPayloads ∧
      (taken = q.payloads r.readAll.1 ∨ maxPayloads ≤ s'.results.length ∨
        maxTotalBytes ≤ s'.totalBytes) := by
  induction r using Reader.next_induction generalizing s with
  | stop r r' err hn =>
    rw [Reader.forEach_of_error hn] at h
    split at h
    · obtain rfl := Except.ok.inj h
      rw [Reader.readAll_of_error hn]
      exact ⟨[], (List.append_nil _).symm, rfl, List.nil_prefix, hs.le, Or.inl rfl⟩
    · cases h
  | record r r' rec hn ih =>
    rw [Reader.readAll_of_ok hn]
    dsimp only
    by_cases hsel : q.Selects rec = true
    · rw [ExportQuery.payloads_of_selects hsel]
      have hbody := exportBody_of_selects hsel s
      dsimp only at hbody
      split at hbody
      · -- the loop breaks behind this payload
        rename_i hcap
        rw [Reader.forEach_of_done hn hbody] at h
        obtain rfl := Except.ok.inj h
        refine ⟨[hexBytes rec.payload], rfl, rfl, ?_, ?_, Or.inr hcap⟩
        · exact List.cons_prefix_cons.mpr ⟨rfl, List.nil_prefix⟩
        · rw [List.length_append, List.length_singleton]
          exact hs
      · rename_i hbelow
        rw [Reader.forEach_of_yield hn hbody] at h
        obtain ⟨taken, hresults, hbytes, hfront, hlength, hwhole⟩ :=
          ih (Nat.lt_of_not_le (not_or.mp hbelow).1) h
        refine ⟨hexBytes rec.payload :: taken, ?_, ?_, ?_, hlength, ?_⟩
        · rw [hresults, List.append_assoc]
          rfl
        · rw [hbytes, List.map_cons, List.sum_cons, Nat.add_assoc]
        · exact List.cons_prefix_cons.mpr ⟨rfl, hfront⟩
        · exact hwhole.imp_left (congrArg _)
    · rw [ExportQuery.payloads_of_not_selects hsel]
      rw [Reader.forEach_of_yield hn (exportBody_of_not_selects hsel s)] at h
      exact ih hs h

/-- What `ExportPayload` returns is cut only by the caps. -/
theorem exportPayload_cut {contents : List UInt8} {q : ExportQuery} {results : List String}
    (h : exportPayload contents q = .ok results) :
    CutAtCaps results (q.payloads (fileRecords contents)) := by
  rw [exportPayload] at h
  cases hr : openReader contents with
  | error err =>
    rw [hr] at h
    cases h
  | ok r =>
    rw [hr] at h
    dsimp only at h
    rw [fileRecords_of_ok hr]
    cases hs : r.forEach (exportBody q) {} with
    | error err =>
      rw [hs] at h
      cases h
    | ok s =>
      rw [hs] at h
      obtain rfl := Except.ok.inj h
      obtain ⟨taken, hresults, hbytes, hfront, hlength, hwhole⟩ :=
        forEach_exportBody_cut r (by decide) hs
      have htaken : s.results = taken := hresults.trans (List.nil_append taken)
      have htotal : s.totalBytes = (taken.map String.length).sum := hbytes.trans (Nat.zero_add _)
      rw [htaken] at hlength hwhole
      rw [htotal] at hwhole
      dsimp only
      rw [htaken]
      exact ⟨hfront, hlength, hwhole⟩

/-- `ExportPayload` returns for every accepted file. -/
theorem exists_exportPayload {contents : List UInt8} (h : Accepted contents) (q : ExportQuery) :
    ∃ results, exportPayload contents q = .ok results := by
  obtain ⟨r, hr, heof⟩ := h
  have hloop : ∀ (r : Reader) (s : ExportState), r.readAll.2.isEof = true →
      ∃ s', r.forEach (exportBody q) s = .ok s' := by
    intro r
    induction r using Reader.next_induction with
    | stop r r' err hn =>
      intro s heof
      rw [Reader.readAll_of_error hn] at heof
      rw [Reader.forEach_of_error hn, if_pos heof]
      exact ⟨s, rfl⟩
    | record r r' rec hn ih =>
      intro s heof
      rw [Reader.readAll_of_ok hn] at heof
      cases hbody : exportBody q s rec with
      | done s' => exact ⟨s', Reader.forEach_of_done hn hbody⟩
      | yield s' =>
        rw [Reader.forEach_of_yield hn hbody]
        exact ih s' heof
  obtain ⟨s, hs⟩ := hloop r {} heof
  exact ⟨s.results, by rw [exportPayload, hr]; dsimp only; rw [hs]; rfl⟩

end UsbPcap.Pcap
