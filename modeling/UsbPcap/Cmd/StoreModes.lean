import UsbPcap.Cmd.Chunking

/-!
# Immediate and on-match storage

Immediate storage starts the output with the global header, on-match storage with the first record
that matches. Once the output is started both do the same with every further record
(`View.record_of_started`), so the modes differ only when nothing matches.
-/

namespace UsbPcap.Cmd

open Format

variable {env : Env}

/-! ## Views whose output is started -/

/-- The output has been started. -/
structure View.Started (v : View) : Prop where
  wrotePcapHeader : v.wrotePcapHeader = true
  triggered : v.data.triggered = true

/-- Once the header is written, output has started. -/
theorem View.started_beginOutput {v : View} (hv : v.wrotePcapHeader = false) :
    v.beginOutput.Started := by
  unfold View.beginOutput
  rw [hv, if_neg Bool.false_ne_true]
  exact ⟨rfl, rfl⟩

/-- Then a record is just written. -/
theorem View.emit_of_started {v : View} (hv : v.Started) (r : List UInt8) :
    v.emit r = v.write r := by
  have hbegin : v.beginIf (v.data.storeMode = storeModeImmediate ∧ v.wrotePcapHeader = false) = v :=
    if_neg fun h => Bool.false_ne_true (h.2.symm.trans hv.wrotePcapHeader)
  have hdue : v.due := Or.inr hv.triggered
  unfold View.emit
  rw [if_pos hdue, hbegin]

/-- Once the output is started, a record that matches is written, whatever the mode. -/
theorem View.record_of_started {v : View} (hv : v.Started) (r : List UInt8) :
    v.record r = if accepts v.data r then v.write r else v.drop := by
  have htrigger : v.trigger = v :=
    if_neg fun h => Bool.false_ne_true (h.2.symm.trans hv.triggered)
  unfold View.record
  rw [htrigger, View.emit_of_started hv]

/-- And of many records, those that the filter accepts. -/
theorem View.foldl_record_of_started {v : View} (hv : v.Started) (rs : List (List UInt8)) :
    (rs.foldl View.record v).output = v.output ++ (rs.filter (accepts v.data)).flatten ∧
      (rs.foldl View.record v).Started := by
  induction rs generalizing v with
  | nil => exact ⟨(List.append_nil _).symm, hv⟩
  | cons r rs ih =>
    rw [List.foldl_cons, View.record_of_started hv]
    by_cases hr : accepts v.data r = true
    · rw [if_pos hr, List.filter_cons_of_pos hr, List.flatten_cons, ← List.append_assoc]
      exact ih (v := v.write r) ⟨hv.wrotePcapHeader, hv.triggered⟩
    · rw [if_neg hr, List.filter_cons_of_neg hr]
      exact ih (v := v.drop) ⟨hv.wrotePcapHeader, hv.triggered⟩

/-- What immediate storage writes. -/
theorem View.foldl_record_immediate {v : View} (hmode : v.data.storeMode = storeModeImmediate)
    (hwrote : v.wrotePcapHeader = false) (hdr : List UInt8) (rs : List (List UInt8)) :
    (rs.foldl View.record (v.header hdr)).output =
      v.output ++ preamble hdr v.data.descriptors.descriptors ++
        (rs.filter (accepts v.data)).flatten := by
  have hheader : v.header hdr = View.beginOutput { v with pcapHeader := hdr } := by
    unfold View.header View.beginIf
    exact if_pos hmode
  have hstarted := View.started_beginOutput (v := { v with pcapHeader := hdr }) hwrote
  have hconfig := View.config_beginOutput { v with pcapHeader := hdr }
  have hout : (View.beginOutput { v with pcapHeader := hdr }).output =
      v.output ++ preamble hdr v.data.descriptors.descriptors := by
    unfold View.beginOutput
    rw [hwrote, if_neg Bool.false_ne_true]
  rw [hheader, (View.foldl_record_of_started hstarted rs).1, hout, accepts_congr hconfig]

/-! ## On-match storage before the first match -/

/-- A record that does not match is counted and nothing else. -/
theorem View.foldl_record_of_rejected {v : View} {rs : List (List UInt8)}
    (hrs : ∀ r ∈ rs, accepts v.data r = false) :
    ∃ n, rs.foldl View.record v = { v with data := { v.data with droppedPackets := n } } := by
  induction rs generalizing v with
  | nil => exact ⟨_, rfl⟩
  | cons r rs ih =>
    have hr : v.record r = v.drop := by
      unfold View.record
      rw [hrs r List.mem_cons_self, if_neg Bool.false_ne_true]
    rw [List.foldl_cons, hr]
    exact ih (v := v.drop) fun q hq => hrs q (List.mem_cons_of_mem r hq)

/-- On-match storage that has not been triggered. -/
structure View.Waiting (v : View) : Prop where
  mode : v.data.storeMode = storeModeOnMatch
  wrotePcapHeader : v.wrotePcapHeader = false
  triggered : v.data.triggered = false

/-- The first match starts the output and is written behind the header. -/
theorem View.record_of_waiting {v : View} (hv : v.Waiting) {r : List UInt8}
    (hr : accepts v.data r = true) : v.record r = v.beginOutput.write r := by
  have htrigger : v.trigger = v.beginOutput := if_pos ⟨hv.mode, hv.triggered⟩
  unfold View.record
  rw [hr, if_pos rfl, htrigger]
  exact View.emit_of_started (View.started_beginOutput hv.wrotePcapHeader) r

/-- What on-match storage writes for records of which one matches. -/
theorem View.foldl_record_of_waiting {v : View} (hv : v.Waiting) {rs : List (List UInt8)}
    (hrs : ∃ r ∈ rs, accepts v.data r = true) :
    (rs.foldl View.record v).output = v.output ++
      preamble v.pcapHeader v.data.descriptors.descriptors ++
        (rs.filter (accepts v.data)).flatten := by
  induction rs generalizing v with
  | nil =>
    obtain ⟨r, hr, -⟩ := hrs
    exact absurd hr List.not_mem_nil
  | cons r rs ih =>
    rw [List.foldl_cons]
    by_cases hr : accepts v.data r = true
    · -- the first match: from here on the output is started
      rw [View.record_of_waiting hv hr, List.filter_cons_of_pos hr, List.flatten_cons]
      have hstarted := View.started_beginOutput hv.wrotePcapHeader
      have hconfig : accepts v.beginOutput.data = accepts v.data :=
        accepts_congr v.config_beginOutput
      have hout : v.beginOutput.output = v.output ++
          preamble v.pcapHeader v.data.descriptors.descriptors := by
        unfold View.beginOutput
        rw [hv.wrotePcapHeader, if_neg Bool.false_ne_true]
      have hall := (View.foldl_record_of_started (v := v.beginOutput.write r)
        ⟨hstarted.wrotePcapHeader, hstarted.triggered⟩ rs).1
      rw [hall, show accepts (v.beginOutput.write r).data = accepts v.data from hconfig,
        ← List.append_assoc, ← hout]
      rfl
    · -- still waiting: the match is further on
      have hdrop : v.record r = v.drop := if_neg hr
      obtain ⟨q, hq, hmatch⟩ := hrs
      rw [hdrop, List.filter_cons_of_neg hr]
      refine ih (v := v.drop) ⟨hv.mode, hv.wrotePcapHeader, hv.triggered⟩ ⟨q, ?_, hmatch⟩
      rcases List.mem_cons.mp hq with rfl | hq
      · exact absurd hmatch hr
      · exact hq

/-! ## The counter -/

/-- Beginning drops nothing. -/
theorem View.droppedPackets_beginIf (p : Prop) [Decidable p] (v : View) :
    (v.beginIf p).data.droppedPackets = v.data.droppedPackets := by
  unfold View.beginIf View.beginOutput
  split
  · split
    · rfl
    · dsimp only
      rw [ThreadData.opened_eq]
  · rfl

/-- A record that is not accepted is counted as dropped. -/
theorem View.droppedPackets_record (v : View) (r : List UInt8) :
    (v.record r).data.droppedPackets =
      if accepts v.data r then v.data.droppedPackets else v.data.droppedPackets + 1 := by
  unfold View.record View.emit
  split
  · split
    · exact (View.droppedPackets_beginIf _ _).trans (View.droppedPackets_beginIf _ _)
    · exact View.droppedPackets_beginIf _ _
  · rfl

/-- The counter counts the records that do not match, as long as it does not overflow. -/
theorem View.droppedPackets_foldl {v : View} {rs : List (List UInt8)}
    (hlt : v.data.droppedPackets.toNat + rs.length < 2 ^ 32) :
    (rs.foldl View.record v).data.droppedPackets.toNat =
      v.data.droppedPackets.toNat + (rs.filter fun r => !accepts v.data r).length := by
  induction rs generalizing v with
  | nil => rfl
  | cons r rs ih =>
    rw [List.length_cons] at hlt
    have hrecord := v.droppedPackets_record r
    have hconfig := accepts_congr (v.config_record r)
    rw [List.foldl_cons]
    cases hr : accepts v.data r with
    | true =>
      rw [hr, if_pos rfl] at hrecord
      rw [ih (by rw [hrecord]; omega), hconfig, hrecord, List.filter_cons_of_neg (by simp [hr])]
    | false =>
      rw [hr, if_neg Bool.false_ne_true] at hrecord
      have hnat : (v.record r).data.droppedPackets.toNat = v.data.droppedPackets.toNat + 1 := by
        rw [hrecord, UInt32.toNat_add]
        apply Nat.mod_eq_of_lt
        change v.data.droppedPackets.toNat + 1 < 2 ^ 32
        omega
      rw [ih (by omega), hconfig, hnat, List.filter_cons_of_pos (by simp [hr]), List.length_cons]
      omega

/-! ## Well-formed streams -/

/-- On a global header and complete records, every record is processed and none is left over. -/
theorem View.read_records {hdr : List UInt8} (hhdr : hdr.length = sizeofPcapHdr)
    {rs : List (List UInt8)} (hrs : ∀ r ∈ rs, recordFraming.IsFrame r) (v : View) :
    v.read (hdr ++ rs.flatten) = rs.foldl View.record (v.header hdr) := by
  unfold View.read
  rw [List.length_append, if_neg (by omega), ← hhdr, List.drop_left, List.take_left,
    split_records hrs]

/-- Records are not empty, so there are no more of them than bytes. -/
theorem length_le_flatten {rs : List (List UInt8)} (hrs : ∀ r ∈ rs, recordFraming.IsFrame r) :
    rs.length ≤ rs.flatten.length := by
  induction rs with
  | nil => exact Nat.le_refl _
  | cons r rs ih =>
    have hr := (isFrame_record.mp (hrs r List.mem_cons_self)).1
    have hrest := ih fun q hq => hrs q (List.mem_cons_of_mem r hq)
    rw [List.flatten_cons, List.length_append, List.length_cons]
    omega

/-- The view after a well-formed stream that is parsed. -/
theorem readThread_records (he : env.Stores) {s : State} (hs : s.Starts)
    (ho : s.data.writeHandle = .invalid → env.Opens) (hparses : ¬ s.data.passesThrough)
    {hdr : List UInt8} (hhdr : hdr.length = sizeofPcapHdr) {rs : List (List UInt8)}
    (hrs : ∀ r ∈ rs, recordFraming.IsFrame r) (hlen : (hdr ++ rs.flatten).length < 2 ^ 31)
    {chunks : List (List UInt8)} (hchunks : chunks.flatten = hdr ++ rs.flatten) {fuel : ℕ}
    (hfuel : (hdr ++ rs.flatten).length < fuel) :
    ∃ t, readThread env fuel s chunks = .ok t ∧
      t.view = rs.foldl View.record (s.view.header hdr) := by
  have hfit : RecordsFit ((hdr ++ rs.flatten).drop sizeofPcapHdr) := by
    rw [← hhdr, List.drop_left]
    apply RecordsFit.flatten hrs
    rw [List.length_append] at hlen
    omega
  rw [← hchunks] at hlen hfit hfuel
  obtain ⟨t, ht, hread⟩ :=
    (Reads.nil hs.parser).readThread he (hs.ready ho) hparses hlen hfit hfuel
  refine ⟨t, ht, ?_⟩
  rw [hread.view, List.nil_append, hchunks, View.read_records hhdr hrs]

/-- The thread with another storage mode. -/
def State.withMode (s : State) (mode : UInt32) : State :=
  { s with data := { s.data with storeMode := mode } }

/-- A thread with an enabled filter that has not stored or dropped anything. -/
structure State.Filters (s : State) : Prop where
  starts : s.Starts
  enabled : s.data.appFilter.enabled = true
  triggered : s.data.triggered = false
  droppedPackets : s.data.droppedPackets = 0
  output : s.output = []

/-- A thread that filters parses the stream. -/
theorem State.Filters.not_passesThrough {s : State} (hs : s.Filters) (mode : UInt32) :
    ¬ (s.withMode mode).data.passesThrough := by
  intro h
  exact Bool.false_ne_true (h.1.symm.trans hs.enabled)

/-- And can start in either mode. -/
theorem State.Filters.starts_withMode {s : State} (hs : s.Filters) (mode : UInt32) :
    (s.withMode mode).Starts where
  parser := hs.starts.parser
  process := hs.starts.process
  bufWritten := hs.starts.bufWritten
  buf := hs.starts.buf
  handle _ := ⟨hs.not_passesThrough mode, Or.inr hs.triggered⟩

/-- The descriptors follow a header of this format only. -/
theorem preamble_eq (hdr descriptors : List UInt8) :
    preamble hdr descriptors =
      hdr ++ if magicNumber hdr = 0xA1B2C3D4 ∧ network hdr = dltUsbpcap.toNat then descriptors
        else [] := by
  unfold preamble
  congr 1
  cases descriptors with
  | nil => rw [ite_self, ite_self]
  | cons d ds =>
    apply if_congr _ rfl rfl
    unfold injects
    simp only [List.length_cons, Nat.zero_lt_succ, and_true]

/-- The mode does not change what is accepted. -/
theorem accepts_withMode (s : State) (mode : UInt32) :
    accepts (s.withMode mode).data = accepts s.data := rfl

/-- At the start no header has been written. -/
theorem State.Filters.wrotePcapHeader {s : State} (hs : s.Filters) :
    s.parser.wrotePcapHeader = false := by
  rw [hs.starts.parser]
  rfl

/-- The view of on-match storage behind the global header. -/
theorem State.Filters.waiting {s : State} (hs : s.Filters) (hdr : List UInt8) :
    (s.withMode storeModeOnMatch).view.header hdr =
        { (s.withMode storeModeOnMatch).view with pcapHeader := hdr } ∧
      ((s.withMode storeModeOnMatch).view.header hdr).Waiting := by
  have hheader : (s.withMode storeModeOnMatch).view.header hdr =
      { (s.withMode storeModeOnMatch).view with pcapHeader := hdr } := by
    unfold View.header View.beginIf
    exact if_neg (show ¬ storeModeOnMatch = storeModeImmediate by decide)
  rw [hheader]
  exact ⟨rfl, rfl, hs.wrotePcapHeader, hs.triggered⟩

/-- The counter in either mode. -/
theorem State.Filters.dropped {s : State} (hs : s.Filters) (mode : UInt32) (hdr : List UInt8)
    {rs : List (List UInt8)} (hlt : rs.length < 2 ^ 32) :
    (rs.foldl View.record ((s.withMode mode).view.header hdr)).data.droppedPackets.toNat =
      (rs.filter fun r => !accepts s.data r).length := by
  have hzero : ((s.withMode mode).view.header hdr).data.droppedPackets = 0 :=
    (View.droppedPackets_beginIf _ _).trans hs.droppedPackets
  have hroom : ((s.withMode mode).view.header hdr).data.droppedPackets.toNat + rs.length <
      2 ^ 32 := by
    rw [hzero]
    exact (Nat.zero_add _).trans_lt hlt
  rw [View.droppedPackets_foldl hroom, hzero, accepts_congr (View.config_header _ hdr)]
  exact Nat.zero_add _

/-- **Immediate and on-match storage keep the same packets.** The output is the global header, the
descriptors where they belong, and the records that match. On-match storage leaves everything alone
when nothing matches. Both count the records that do not match. -/
theorem store_modes_agree (he : env.Succeeds) {s : State} (hs : s.Filters)
    {hdr : List UInt8} (hhdr : hdr.length = sizeofPcapHdr) {rs : List (List UInt8)}
    (hrs : ∀ r ∈ rs, recordFraming.IsFrame r) (hlen : (hdr ++ rs.flatten).length < 2 ^ 31)
    {chunks chunks' : List (List UInt8)} (hchunks : chunks.flatten = hdr ++ rs.flatten)
    (hchunks' : chunks'.flatten = hdr ++ rs.flatten) {fuel : ℕ}
    (hfuel : (hdr ++ rs.flatten).length < fuel) :
    ∃ t u, readThread env fuel (s.withMode storeModeImmediate) chunks = .ok t ∧
      readThread env fuel (s.withMode storeModeOnMatch) chunks' = .ok u ∧
      t.output =
        hdr ++ (if magicNumber hdr = 0xA1B2C3D4 ∧ network hdr = dltUsbpcap.toNat then
          s.data.descriptors.descriptors else []) ++ (rs.filter (accepts s.data)).flatten ∧
      ((∃ r ∈ rs, accepts s.data r = true) → u.output = t.output) ∧
      ((∀ r ∈ rs, accepts s.data r = false) → u.output = [] ∧
        u.data.writeHandle = s.data.writeHandle ∧ u.data.outputCreated = s.data.outputCreated ∧
        u.data.triggered = false) ∧
      t.data.droppedPackets.toNat = (rs.filter fun r => !accepts s.data r).length ∧
      u.data.droppedPackets.toNat = (rs.filter fun r => !accepts s.data r).length := by
  obtain ⟨t, ht, htview⟩ := readThread_records he.toStores (hs.starts_withMode storeModeImmediate)
    (fun _ => he.toOpens) (hs.not_passesThrough _) hhdr hrs hlen hchunks hfuel
  obtain ⟨u, hu, huview⟩ := readThread_records he.toStores (hs.starts_withMode storeModeOnMatch)
    (fun _ => he.toOpens) (hs.not_passesThrough _) hhdr hrs hlen hchunks' hfuel
  have hcount : rs.length < 2 ^ 32 := by
    have hle := length_le_flatten hrs
    rw [List.length_append] at hlen
    omega
  obtain ⟨hheader, hwaiting⟩ := hs.waiting hdr
  have hout : t.output = hdr ++ (if magicNumber hdr = 0xA1B2C3D4 ∧
      network hdr = dltUsbpcap.toNat then s.data.descriptors.descriptors else []) ++
        (rs.filter (accepts s.data)).flatten := by
    have h := View.foldl_record_immediate (v := (s.withMode storeModeImmediate).view) rfl
      hs.wrotePcapHeader hdr rs
    rw [← htview, preamble_eq] at h
    exact h.trans (congrArg (· ++ _ ++ _) hs.output)
  refine ⟨t, u, ht, hu, hout, ?_, ?_, ?_, ?_⟩
  · -- a record matches: the first match brings header and descriptors
    intro hmatch
    rw [← accepts_withMode s storeModeOnMatch] at hmatch
    have h := View.foldl_record_of_waiting hwaiting (show ∃ r ∈ rs,
      accepts ((s.withMode storeModeOnMatch).view.header hdr).data r = true by
        rw [hheader]; exact hmatch)
    rw [← huview, hheader, preamble_eq] at h
    rw [hout]
    exact h.trans (congrArg (· ++ _ ++ _) hs.output)
  · -- no record matches: only the counter moves
    intro hnone
    obtain ⟨n, hn⟩ := View.foldl_record_of_rejected (show ∀ r ∈ rs,
      accepts ((s.withMode storeModeOnMatch).view.header hdr).data r = false by
        rw [hheader]; exact hnone)
    rw [hn, hheader] at huview
    have hdata : u.data = { s.data with storeMode := storeModeOnMatch, droppedPackets := n } :=
      congrArg View.data huview
    refine ⟨(congrArg View.output huview).trans hs.output, ?_, ?_, ?_⟩
    · rw [hdata]
    · rw [hdata]
    · rw [hdata]
      exact hs.triggered
  · exact (congrArg (·.data.droppedPackets.toNat) htview).trans (hs.dropped _ hdr hcount)
  · exact (congrArg (·.data.droppedPackets.toNat) huview).trans (hs.dropped _ hdr hcount)

/-- A record that matches behind one that does not, with the output not open yet. -/
theorem store_modes_agree_sample :
    ∃ t u, readThread .reliable 200
        ((State.start { sampleData with writeHandle := .invalid }).withMode storeModeImmediate)
        [sampleHdr, sampleRecord 2, sampleRecord 0x81] = .ok t ∧
      readThread .reliable 200 ((State.start { sampleData with writeHandle := .invalid }).withMode
        storeModeOnMatch) [sampleHdr ++ (sampleRecord 2 ++ sampleRecord 0x81)] = .ok u ∧
      t.output = sampleHdr ++ (if magicNumber sampleHdr = 0xA1B2C3D4 ∧
          network sampleHdr = dltUsbpcap.toNat then [] else []) ++
        ([sampleRecord 2, sampleRecord 0x81].filter (accepts sampleData)).flatten ∧
      ((∃ r ∈ [sampleRecord 2, sampleRecord 0x81], accepts sampleData r = true) →
        u.output = t.output) ∧
      ((∀ r ∈ [sampleRecord 2, sampleRecord 0x81], accepts sampleData r = false) →
        u.output = [] ∧ u.data.writeHandle = .invalid ∧ u.data.outputCreated = true ∧
          u.data.triggered = false) ∧
      t.data.droppedPackets.toNat =
        ([sampleRecord 2, sampleRecord 0x81].filter fun r => !accepts sampleData r).length ∧
      u.data.droppedPackets.toNat =
        ([sampleRecord 2, sampleRecord 0x81].filter fun r => !accepts sampleData r).length := by
  have hstarts : (State.start { sampleData with writeHandle := .invalid }).Starts :=
    ⟨rfl, rfl, rfl, rfl, fun _ => ⟨fun h => Bool.false_ne_true h.1.symm, Or.inl rfl⟩⟩
  have hframes : ∀ r ∈ [sampleRecord 2, sampleRecord 0x81], recordFraming.IsFrame r := by
    intro r hr
    simp only [List.mem_cons, List.not_mem_nil, or_false] at hr
    rcases hr with rfl | rfl
    · exact isFrame_sampleRecord 2
    · exact isFrame_sampleRecord 0x81
  exact store_modes_agree Env.reliable_succeeds ⟨hstarts, rfl, rfl, rfl, rfl⟩ (by decide) hframes
    (by decide) (by decide) (by decide) (by decide)

end UsbPcap.Cmd
