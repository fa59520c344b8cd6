import UsbPcap.Cmd.StoreModes

/-!
# The fast path

With a filter that asks for nothing, immediate storage parses the stream only to write every record
again. On records that carry a packet of an addressable device, `passThrough` writes the same bytes
without looking at them, provided the parser gets its buffer.
-/

namespace UsbPcap.Cmd

open Format

variable {env : Env}

/-- An enabled filter without a criterion. -/
structure AppCaptureFilter.AsksNothing (f : AppCaptureFilter) : Prop where
  enabled : f.enabled = true
  hasVendorId : f.hasVendorId = false
  hasProductId : f.hasProductId = false
  hasEndpoint : f.hasEndpoint = false
  hasTransferType : f.hasTransferType = false

/-- A complete record with a whole packet header, of a device below 128. -/
structure CarriesPacket (r : List UInt8) : Prop where
  isFrame : recordFraming.IsFrame r
  header : sizeofBufferPacketHeader ≤ inclLen r
  device : field 19 2 (r.drop sizeofPcaprecHdr) < 128

/-- The thread with another application filter. -/
def State.withFilter (s : State) (f : AppCaptureFilter) : State :=
  { s with data := { s.data with appFilter := f } }

theorem accepts_of_asksNothing {data : ThreadData} (hf : data.appFilter.AsksNothing)
    {r : List UInt8} (hr : CarriesPacket r) : accepts data r = true := by
  obtain ⟨hlen, hincl⟩ := isFrame_record.mp hr.isFrame
  have hnat : (UInt32.ofNat (inclLen r)).toNat = inclLen r := by
    rw [UInt32.toNat_ofNat']
    exact Nat.mod_eq_of_lt (field_lt 8 4 r)
  have hheader := hr.header
  have hbody : (r.drop sizeofPcaprecHdr).length = inclLen r := by
    rw [List.length_drop, sizeofPcaprecHdr]
    omega
  have hmatches : appPacketMatches data (r.drop sizeofPcaprecHdr) (UInt32.ofNat (inclLen r)) =
      .ok true := by
    unfold appPacketMatches
    dsimp only
    rw [hf.enabled, if_neg Bool.true_eq_false.mp, hnat, if_neg (Nat.not_lt.mpr hheader),
      if_neg (by rw [hbody]; exact Nat.not_lt.mpr hheader), dif_pos hr.device]
    simp only [hf.hasVendorId, hf.hasProductId, hf.hasEndpoint, hf.hasTransferType,
      Bool.false_eq_true, false_and, if_false]
  unfold accepts
  rw [hmatches]

theorem State.Starts.withFilter {s : State} (hs : s.Starts) (hopen : s.data.writeHandle ≠ .invalid)
    (f : AppCaptureFilter) : (s.withFilter f).Starts where
  parser := hs.parser
  process := hs.process
  bufWritten := hs.bufWritten
  buf := hs.buf
  handle h := absurd h hopen

/-- **The fast path writes what the parser writes.** -/
theorem fast_path_agrees (he : env.Stores) {s : State} (hs : s.Starts)
    (hopen : s.data.writeHandle ≠ .invalid) (hmode : s.data.storeMode = storeModeImmediate)
    {off on : AppCaptureFilter} (hoff : off.enabled = false) (hon : on.AsksNothing)
    {hdr : List UInt8} (hhdr : hdr.length = sizeofPcapHdr) {rs : List (List UInt8)}
    (hrs : ∀ r ∈ rs, CarriesPacket r) (hlen : (hdr ++ rs.flatten).length < 2 ^ 31)
    {chunks chunks' : List (List UInt8)} (hchunks : chunks.flatten = hdr ++ rs.flatten)
    (hchunks' : chunks'.flatten = hdr ++ rs.flatten) {fuel : ℕ}
    (hfuel : (hdr ++ rs.flatten).length < fuel) :
    ∃ t u, readThread env fuel (s.withFilter off) chunks = .ok t ∧
      readThread env fuel (s.withFilter on) chunks' = .ok u ∧ t.output = u.output := by
  have hoffStarts := hs.withFilter hopen off
  have hpass : (s.withFilter off).data.passesThrough := ⟨hoff, hmode⟩
  have hparses : ¬ (s.withFilter on).data.passesThrough := fun h =>
    Bool.false_ne_true (h.1.symm.trans hon.enabled)
  obtain ⟨t, ht, hpassed⟩ := (Passes.nil (hoffStarts.passing hpass)).readThread he
    (hoffStarts.passing hpass) hpass chunks fuel
  obtain ⟨u, hu, huview⟩ := readThread_records he (hs.withFilter hopen on)
    (fun h => absurd h hopen) hparses hhdr (fun r hr => (hrs r hr).isFrame) hlen hchunks' hfuel
  refine ⟨t, u, ht, hu, ?_⟩
  have hwrote : (s.withFilter on).view.wrotePcapHeader = false := by
    change s.parser.wrotePcapHeader = false
    rw [hs.parser]
    rfl
  -- a filter that asks for nothing accepts every packet
  have hall : rs.filter (accepts (s.withFilter on).view.data) = rs := by
    apply List.filter_eq_self.mpr
    intro r hr
    exact accepts_of_asksNothing hon (hrs r hr)
  -- the fast path writes the global header, the descriptors and the rest as it comes
  have hfast :
      t.output = s.output ++ (preamble hdr s.data.descriptors.descriptors ++ rs.flatten) := by
    rw [hpassed.output, List.nil_append, hchunks, passed, List.length_append, if_neg (by omega),
      ← hhdr, List.take_left, List.drop_left]
    rfl
  have hslow := View.foldl_record_immediate (v := (s.withFilter on).view) hmode hwrote hdr rs
  rw [← huview, hall] at hslow
  rw [hfast, ← List.append_assoc]
  exact hslow.symm

theorem carriesPacket_sampleRecord : CarriesPacket (sampleRecord 0x81) where
  isFrame := isFrame_sampleRecord 0x81
  header := by decide
  device := by decide

/-- A filter that asks for nothing. -/
def askNothing : AppCaptureFilter :=
  { sampleData.appFilter with hasEndpoint := false }

/-- The header and a record of device 2, on both paths. -/
theorem fast_path_agrees_sample :
    ∃ t u, readThread .reliable 100 ((State.start sampleData).withFilter
        { askNothing with enabled := false }) [sampleHdr ++ sampleRecord 0x81] = .ok t ∧
      readThread .reliable 100 ((State.start sampleData).withFilter askNothing)
        [sampleHdr.take 7, sampleHdr.drop 7, sampleRecord 0x81] = .ok u ∧ t.output = u.output := by
  have hrs : ∀ r ∈ [sampleRecord 0x81], CarriesPacket r := by
    intro r hr
    rw [List.mem_singleton.mp hr]
    exact carriesPacket_sampleRecord
  have hhdr : sampleHdr.length = sizeofPcapHdr := PcapHdr.length_bytes _
  exact fast_path_agrees Env.reliable_succeeds.toStores starts_sampleData Handle.noConfusion rfl rfl
    ⟨rfl, rfl, rfl, rfl, rfl⟩ hhdr hrs (by decide) (by decide) (by decide) (by decide)

/-- Without memory for its buffer the parser writes nothing, and the fast path writes the header. -/
theorem fast_path_needs_no_memory :
    ¬ ∀ (env : Env) (s : State) (off on : AppCaptureFilter) (hdr : List UInt8)
        (rs chunks chunks' : List (List UInt8)) (fuel : ℕ),
      env.WritesSucceed → s.Starts → s.data.writeHandle ≠ .invalid →
      s.data.storeMode = storeModeImmediate → off.enabled = false → on.AsksNothing →
      hdr.length = sizeofPcapHdr → (∀ r ∈ rs, CarriesPacket r) →
      (hdr ++ rs.flatten).length < 2 ^ 31 → chunks.flatten = hdr ++ rs.flatten →
      chunks'.flatten = hdr ++ rs.flatten → (hdr ++ rs.flatten).length < fuel →
      ∃ t u, readThread env fuel (s.withFilter off) chunks = .ok t ∧
        readThread env fuel (s.withFilter on) chunks' = .ok u ∧ t.output = u.output := by
  intro h
  have hrs : ∀ r ∈ [sampleRecord 0x81], CarriesPacket r := by
    intro r hr
    rw [List.mem_singleton.mp hr]
    exact carriesPacket_sampleRecord
  obtain ⟨t, u, ht, hu, hout⟩ := h .exhausted (.start sampleData)
    { askNothing with enabled := false } askNothing sampleHdr [sampleRecord 0x81]
    [sampleHdr ++ sampleRecord 0x81] [sampleHdr ++ sampleRecord 0x81] 100
    (fun _ _ => Or.inl rfl) starts_sampleData Handle.noConfusion rfl rfl ⟨rfl, rfl, rfl, rfl, rfl⟩
    (by decide) hrs (by decide) (by decide) (by decide) (by decide)
  have hfast : (readThread .exhausted 100 ((State.start sampleData).withFilter
      { askNothing with enabled := false }) [sampleHdr ++ sampleRecord 0x81]).map State.output =
        .ok (sampleHdr ++ sampleRecord 0x81) := rfl
  have hslow : (readThread .exhausted 100 ((State.start sampleData).withFilter askNothing)
      [sampleHdr ++ sampleRecord 0x81]).map State.output = .ok [] := rfl
  rw [ht] at hfast
  rw [hu] at hslow
  have hempty : sampleHdr ++ sampleRecord 0x81 = [] :=
    ((Except.ok.inj hfast).symm.trans hout).trans (Except.ok.inj hslow)
  exact absurd hempty (by decide)

end UsbPcap.Cmd
