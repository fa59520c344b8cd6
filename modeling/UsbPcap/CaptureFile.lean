import UsbPcap.Cmd.Main
import UsbPcap.Pipeline

/-!
# The file of a capture

`start_capture` in an elevated process opens the output, runs `read_thread` on what the driver
delivers and looks for the file in the end. Where the name is free, the file holds what is due of
the delivered packets, and it is there exactly if something is.
-/

namespace UsbPcap

open Format Driver Pcap Cmd

variable {env : Env} {fs : FileSystem} {os : Os} {name : String}

/-! ## The handle of the output -/

/-- A file that is open stays open. -/
theorem kept_file (env : Env) : Kept env fun d => d.writeHandle = .file where
  stop h := h
  trigger h := h
  drop _ h := h
  collect _ h := h
  opens h := by
    unfold openOutputHandleIfNeeded
    rw [if_pos (by rw [h]; exact Handle.noConfusion)]
    exact h

/-- The output of a thread with a file name is no standard output, and the thread keeps its name
and its mode. -/
theorem kept_not_stdout (env : Env) (hdash : name ≠ "-") (mode : UInt32) :
    Kept env fun d => d.filename = name ∧ d.storeMode = mode ∧ d.writeHandle ≠ .stdout where
  stop h := h
  trigger h := h
  drop _ h := h
  collect _ h := h
  opens h := by
    unfold openOutputHandleIfNeeded
    split
    · exact h
    · rw [if_neg (by rw [h.1]; exact hdash)]
      split
      · exact ⟨h.1, h.2.1, Handle.noConfusion⟩
      · exact h

/-- The first record that matches starts the output. -/
theorem started_foldl_of_waiting {v : View} (hv : v.Waiting) {rs : List (List UInt8)}
    (hrs : ∃ r ∈ rs, accepts v.data r = true) : (rs.foldl View.record v).Started := by
  induction rs generalizing v with
  | nil =>
    obtain ⟨r, hr, -⟩ := hrs
    exact absurd hr List.not_mem_nil
  | cons r rs ih =>
    rw [List.foldl_cons]
    by_cases hr : accepts v.data r = true
    · rw [View.record_of_waiting hv hr]
      have hstarted := View.started_beginOutput hv.wrotePcapHeader
      exact (View.foldl_record_of_started (v := v.beginOutput.write r)
        ⟨hstarted.wrotePcapHeader, hstarted.triggered⟩ rs).2
    · have hdrop : v.record r = v.drop := if_neg hr
      rw [hdrop]
      obtain ⟨q, hq, hmatch⟩ := hrs
      refine ih (v := v.drop) ⟨hv.mode, hv.wrotePcapHeader, hv.triggered⟩ ⟨q, ?_, hmatch⟩
      refine (List.mem_cons.mp hq).resolve_left ?_
      rintro rfl
      exact hr hmatch

/-- With on-match storage the output is open in the end exactly if something matched. -/
theorem writeHandle_onMatch (he : env.Succeeds) {st t : State} (hst : st.Starts)
    (htriggered : st.data.triggered = false) (hmode : st.data.storeMode = storeModeOnMatch)
    (hclosed : st.data.writeHandle = .invalid) {p : RootHubData} {ks : List Driver.Packet}
    (hk : ∀ k ∈ ks, Readable p.snaplen k) {rest : List UInt8}
    (hrest : recordFraming.frameLen rest = none) {chunks : List (List UInt8)}
    (hchunks : chunks.flatten =
      (globalHeader p.snaplen).bytes ++ ((ks.map (packetRecord p)).flatten ++ rest))
    (hlen : chunks.flatten.length < 2 ^ 31)
    (hfit : RecordsFit (chunks.flatten.drop sizeofPcapHdr)) {fuel : ℕ}
    (hfuel : chunks.flatten.length < fuel) (ht : readThread env fuel st chunks = .ok t) :
    t.data.writeHandle = .invalid ↔ wanted st.data ks = [] := by
  have hhdr : (globalHeader p.snaplen).bytes.length = sizeofPcapHdr := PcapHdr.length_bytes _
  have hnot : ¬ st.data.storeMode = storeModeImmediate := by
    rw [hmode]
    decide
  have hframes : ∀ f ∈ ks.map (packetRecord p), recordFraming.IsFrame f :=
    fun f hf => (forall_isRecord_stored hk f hf).1
  have hwrote : st.view.wrotePcapHeader = false := by
    change st.parser.wrotePcapHeader = false
    rw [hst.parser]
    rfl
  have hready := hst.ready fun _ => he.toOpens
  obtain ⟨t', ht', hreads⟩ := (Reads.nil hst.parser).readThread he.toStores hready
    (fun hpass => hnot hpass.2) hlen hfit hfuel
  obtain rfl : t' = t := Except.ok.inj (ht'.symm.trans ht)
  have hview := hreads.view
  rw [List.nil_append, hchunks] at hview
  have hready' : t'.view.Ready env := hview ▸ View.ready_read hready _
  rw [read_parsed st.view hhdr hframes hrest] at hview
  have hheader (hdr : List UInt8) : st.view.header hdr = { st.view with pcapHeader := hdr } :=
    if_neg hnot
  rw [hheader] at hview
  have hfilter : (ks.map (packetRecord p)).filter (accepts st.data) =
      (wanted st.data ks).map (packetRecord p) := filter_accepts hk st.data
  constructor
  · intro hinvalid
    -- an accepted record would have opened the output and written the global header
    by_contra hsome
    have hne : (ks.map (packetRecord p)).filter (accepts st.data) ≠ [] := by
      rw [hfilter]
      exact fun h => hsome (List.map_eq_nil_iff.mp h)
    obtain ⟨r, hr⟩ := List.exists_mem_of_ne_nil _ hne
    have hstarted := started_foldl_of_waiting
      (v := { st.view with pcapHeader := (globalHeader p.snaplen).bytes })
      ⟨hmode, hwrote, htriggered⟩ ⟨r, List.mem_filter.mp hr⟩
    rw [← hview] at hstarted
    exact Bool.false_ne_true ((hready'.handle hinvalid).1.symm.trans hstarted.wrotePcapHeader)
  · intro hnone
    -- rejected records change only the counter of dropped packets
    rw [hnone, List.map_nil, List.filter_eq_nil_iff] at hfilter
    obtain ⟨d, hd⟩ := View.foldl_record_of_rejected
      (v := { st.view with pcapHeader := (globalHeader p.snaplen).bytes })
      fun r hr => Bool.eq_false_iff.mpr (hfilter r hr)
    rw [hd] at hview
    have hdata : t'.data = { st.data with droppedPackets := d } := congrArg View.data hview
    rw [hdata]
    exact hclosed

/-! ## The whole of `start_capture` -/

/-- The block that is injected. -/
def injectedDescriptors (os : Os) (data : CaptureData) : List UInt8 :=
  if data.injectDescriptors then os.thread.descriptors else []

/-- An elevated process in which everything that the capture asks for succeeds. -/
structure Cmd.Os.Elevated (os : Os) : Prop where
  elevated : os.elevated = true
  createAtStart : os.thread.createAtStart = true
  createThread : os.thread.createThread = true
  succeeds : os.thread.env.Succeeds

theorem succeeds_on (he : env.Succeeds) (hfree : fs name = none) : (env.on fs name).Succeeds where
  writes := he.writes
  realloc := he.realloc
  stdout := he.stdout
  createFile := by
    rw [Env.on, he.createFile, hfree]
    rfl

/-- The thread before its first read. -/
def threadStart (fs : FileSystem) (os : Os) (data : CaptureData) (filename : CStr) : State :=
  let d := openAtStart fs os.thread (data.threadData filename)
  .start { d with
    descriptors := { d.descriptors with descriptors := injectedDescriptors os data } }

section Start

variable {data : CaptureData} {filename : CStr}

/-- How the output is opened in front of the thread. -/
theorem openAtStart_eq (hos : os.Elevated)
    (hmode : data.storeMode = storeModeImmediate ∨ data.storeMode = storeModeOnMatch)
    (hdash : String.ofList filename ≠ "-") (hfree : fs (.ofList filename) = none) :
    openAtStart fs os.thread (data.threadData filename) =
      { data.threadData filename with
        writeHandle := if data.storeMode = storeModeImmediate then .file else .invalid
        outputCreated := decide (data.storeMode = storeModeImmediate) } := by
  have hname : (data.threadData filename).filename ≠ "-" := hdash
  have hmode' : (data.threadData filename).storeMode = data.storeMode := rfl
  have hcreated : (os.thread.createAtStart && (fs (data.threadData filename).filename).isNone) =
      true := by
    change (os.thread.createAtStart && (fs (.ofList filename)).isNone) = true
    rw [hos.createAtStart, hfree]
    rfl
  unfold openAtStart
  rw [if_neg hname, hmode']
  rcases hmode with himmediate | honmatch
  · rw [if_neg (by rw [himmediate]; decide), if_pos himmediate]
    dsimp only
    rw [hcreated, if_pos rfl, decide_eq_true himmediate]
    rfl
  · have hnot : ¬ data.storeMode = storeModeImmediate := by
      rw [honmatch]
      decide
    rw [if_pos honmatch, if_neg hnot, decide_eq_false hnot]
    rfl

theorem threadStart_eq (hos : os.Elevated)
    (hmode : data.storeMode = storeModeImmediate ∨ data.storeMode = storeModeOnMatch)
    (hdash : String.ofList filename ≠ "-") (hfree : fs (.ofList filename) = none) :
    threadStart fs os data filename =
      .start { data.threadData filename with
        writeHandle := if data.storeMode = storeModeImmediate then .file else .invalid
        outputCreated := decide (data.storeMode = storeModeImmediate)
        descriptors :=
          ⟨injectedDescriptors os data, List.replicate sizeofPcapHdr 0, 0⟩ } := by
  unfold threadStart
  rw [openAtStart_eq hos hmode hdash hfree]
  rfl

theorem starts_threadStart (hos : os.Elevated) (hprocess : data.process = true)
    (hmode : data.storeMode = storeModeImmediate ∨ data.storeMode = storeModeOnMatch)
    (hdash : String.ofList filename ≠ "-") (hfree : fs (.ofList filename) = none) :
    (threadStart fs os data filename).Starts := by
  rw [threadStart_eq hos hmode hdash hfree]
  refine ⟨rfl, hprocess, rfl, List.length_replicate, fun hinvalid => ?_⟩
  have hnot : ¬ data.storeMode = storeModeImmediate := by
    intro himmediate
    change (if data.storeMode = storeModeImmediate then Handle.file else .invalid) = .invalid
      at hinvalid
    rw [if_pos himmediate] at hinvalid
    cases hinvalid
  exact ⟨fun hpass => hnot hpass.2, Or.inr rfl⟩

/-- The elevated branch is the thread from its start to its end. -/
theorem elevatedCapture_eq (hos : os.Elevated)
    (hmode : data.storeMode = storeModeImmediate ∨ data.storeMode = storeModeOnMatch)
    (hdash : String.ofList filename ≠ "-") (hfree : fs (.ofList filename) = none) {t : State}
    (ht : readThread (os.thread.env.on fs (.ofList filename)) os.thread.fuel
      (threadStart fs os data filename) os.thread.reads = .ok t) :
    elevatedCapture fs os.thread data.injectDescriptors (data.threadData filename) =
      .ok { data := t.data, written := t.files } := by
  have hstart : (if data.injectDescriptors then
      { openAtStart fs os.thread (data.threadData filename) with
        descriptors :=
          { (openAtStart fs os.thread (data.threadData filename)).descriptors with
            descriptors := os.thread.descriptors } }
      else openAtStart fs os.thread (data.threadData filename)) =
      (threadStart fs os data filename).data := by
    rw [threadStart_eq hos hmode hdash hfree, openAtStart_eq hos hmode hdash hfree]
    unfold injectedDescriptors
    cases data.injectDescriptors <;> rfl
  have hrun : runThread fs os.thread (threadStart fs os data filename).data = .ok t := by
    have hname : (threadStart fs os data filename).data.filename = .ofList filename := by
      rw [threadStart_eq hos hmode hdash hfree]
      rfl
    unfold runThread
    rw [if_pos hos.createThread, hname]
    exact ht
  unfold elevatedCapture
  dsimp only
  rw [hstart, hrun]

end Start

/-- The test for the file at the end of `start_capture`. -/
theorem finishCapture_files {t : State} (hdash : name ≠ "-") (hfree : fs name = none)
    (ht : t.data.Creates fs name) :
    finishCapture fs { data := t.data, written := t.files } =
      .returned
        (if t.data.writeHandle = .file ∨ t.data.storeMode = storeModeImmediate then 0 else 1)
        { data := { t.data with outputCreated := decide (t.data.writeHandle = .file) },
          written := t.files } := by
  have hname : t.data.filename ≠ "-" := by
    rw [ht.filename]
    exact hdash
  have hdata : (if t.data.outputCreated = false ∧ t.data.filename ≠ "-" ∧
      (fs.after t.files t.data.filename).isSome then { t.data with outputCreated := true }
      else t.data) = { t.data with outputCreated := decide (t.data.writeHandle = .file) } := by
    by_cases hfile : t.data.writeHandle = .file
    · have hthere : (fs.after t.files t.data.filename).isSome := by
      -- the file was opened, so it exists whether or not the flag was set before
        unfold FileSystem.after State.files
        rw [if_pos ⟨hfile, rfl⟩]
        rfl
      rw [decide_eq_true hfile]
      split
      · rfl
      · rename_i hnot
        have hcreated : t.data.outputCreated = true := by
          by_contra hno
          exact hnot ⟨Bool.not_eq_true _ ▸ hno, hname, hthere⟩
        rw [← hcreated]
    · have hcreated : t.data.outputCreated = false := by
      -- nothing was opened, and the name is still free
        by_contra hyes
        exact hfile (ht.created hdash (Bool.not_eq_false _ ▸ hyes))
      have hmissing : ¬ (fs.after t.files t.data.filename).isSome := by
        unfold FileSystem.after State.files
        rw [if_neg fun h => hfile h.1, ht.filename, hfree]
        exact Bool.false_ne_true
      rw [if_neg fun h => hmissing h.2.2, decide_eq_false hfile, ← hcreated]
  unfold finishCapture
  dsimp only
  rw [hdata]
  simp only [decide_eq_true_eq]

/-- **The file of a capture.** Where the output's name is free, an elevated `start_capture` leaves a
file behind exactly if something is due, and the file holds what is due of the delivered packets. -/
theorem runCapture_delivered (hos : os.Elevated) {snaplen : UInt32} {ops : List Op} {s : Session}
    (hs : (Session.init snaplen).run ops = s) (hb : s.data.buffer ≠ none)
    (hk : ∀ k ∈ s.accepted, Readable s.data.snaplen k)
    (hheader : sizeofPcapHdr ≤ s.delivered.length) (hlen : s.delivered.length < 2 ^ 31)
    (hreads : os.thread.reads.flatten = s.delivered) (hfuel : s.delivered.length < os.thread.fuel)
    {data : CaptureData} {filename : CStr} (hfilename : data.filename = some filename)
    (hdash : String.ofList filename ≠ "-") (hfree : fs (.ofList filename) = none)
    (hprocess : data.process = true)
    (hmode : data.storeMode = storeModeImmediate ∨ data.storeMode = storeModeOnMatch)
    (hstart : (startCapture data).isSome) :
    ∃ o n tail, s.Delivered n ∧ (unread s.data = [] → n = s.accepted.length) ∧
      (unread s.data = [] ∨ ¬ (data.threadData filename).passesThrough → tail = []) ∧
      recordFraming.frameLen tail = none ∧
      runCapture fs os data = .ok (.returned (if data.storeMode = storeModeImmediate ∨
        wanted (data.threadData filename) (s.accepted.take n) ≠ [] then 0 else 1) o) ∧
      o.written (.ofList filename) =
        if data.storeMode = storeModeImmediate ∨
            wanted (data.threadData filename) (s.accepted.take n) ≠ [] then
          some ((globalHeader s.data.snaplen).bytes ++ (injectedDescriptors os data ++
            (((wanted (data.threadData filename) (s.accepted.take n)).map
              (packetRecord s.data)).flatten ++ tail)))
        else none := by
  have hst : (threadStart fs os data filename).Starts :=
    starts_threadStart hos hprocess hmode hdash hfree
  have heq := threadStart_eq hos hmode hdash hfree
  have htriggered : (threadStart fs os data filename).data.triggered = false := by rw [heq]; rfl
  have houtput : (threadStart fs os data filename).output = [] := by rw [heq]; rfl
  have hstore : (threadStart fs os data filename).data.storeMode = data.storeMode := by
    rw [heq]
    rfl
  have hdescriptors : (threadStart fs os data filename).data.descriptors.descriptors =
      injectedDescriptors os data := by
    rw [heq]
    rfl
  have hwanted (ks : List Driver.Packet) : wanted (threadStart fs os data filename).data ks =
      wanted (data.threadData filename) ks := by
    rw [heq]
    rfl
  have hpasses : (threadStart fs os data filename).data.passesThrough ↔
      (data.threadData filename).passesThrough := by
    rw [heq]
    exact Iff.rfl
  have he := succeeds_on hos.succeeds hfree
  obtain ⟨t, n, rest, tail, ht, hn, hread, hstream, hrest, htail, hnone, hfile⟩ :=
    readThread_delivered he hs hb hk hheader hlen hst htriggered houtput (hstore ▸ hmode) hreads
      hfuel
  rw [hstore, hdescriptors, hwanted] at hfile
  rw [hpasses] at htail
  -- the handle in the end
  have hcreates : t.data.Creates fs (.ofList filename) := by
    refine (kept_creates _ fs _).readThread ?_ ht
    rw [heq]
    exact ⟨rfl, fun _ hcreated => if_pos (of_decide_eq_true hcreated), fun _ => hfree⟩
  obtain ⟨hname, hkept, hstdout⟩ := (kept_not_stdout _ hdash data.storeMode).readThread
    (s := threadStart fs os data filename) (by
      rw [heq]
      refine ⟨rfl, rfl, ?_⟩
      dsimp only [State.start]
      split <;> exact Handle.noConfusion) ht
  have hopen : t.data.writeHandle = .file ↔ data.storeMode = storeModeImmediate ∨
      wanted (data.threadData filename) (s.accepted.take n) ≠ [] := by
    rcases hmode with himmediate | honmatch
    · refine iff_of_true ((kept_file _).readThread ?_ ht) (Or.inl himmediate)
      rw [heq]
      exact if_pos himmediate
    · have hnot : ¬ data.storeMode = storeModeImmediate := by
        rw [honmatch]
        decide
      have hclosed : (threadStart fs os data filename).data.writeHandle = .invalid := by
        rw [heq]
        exact if_neg hnot
      have hinvalid := writeHandle_onMatch he hst htriggered (hstore.trans honmatch) hclosed
        (fun k hmem => hk k (List.mem_of_mem_take hmem)) hrest (hreads.trans hstream)
        (hreads ▸ hlen) (hreads ▸ recordsFit_delivered hs hb hk) (hreads ▸ hfuel) ht
      rw [hwanted] at hinvalid
      rw [or_iff_right hnot, ne_eq, ← hinvalid]
      cases hhandle : t.data.writeHandle with
      | invalid => exact iff_of_false nofun fun h => h rfl
      | stdout => exact absurd hhandle hstdout
      | file => exact iff_of_true rfl nofun
  obtain ⟨data', hdata'⟩ := Option.isSome_iff_exists.mp hstart
  have hinject : data'.injectDescriptors = data.injectDescriptors := by
    unfold startCapture at hdata'
    split at hdata'
    · cases hdata'
    · split at hdata'
      · cases hdata'
      · cases hdata'
        rfl
  have hend := finishCapture_files hdash hfree hcreates
  rw [hkept] at hend
  refine ⟨{ data := { t.data with outputCreated := decide (t.data.writeHandle = .file) },
            written := t.files }, n, tail, hn, hread, htail, hnone, ?_, ?_⟩
  · have hret : (if t.data.writeHandle = .file ∨ data.storeMode = storeModeImmediate then (0 : ℤ)
        else 1) = if data.storeMode = storeModeImmediate ∨
          wanted (data.threadData filename) (s.accepted.take n) ≠ [] then 0 else 1 :=
      if_congr (by rw [hopen]; exact or_iff_left_of_imp Or.inl) rfl rfl
    unfold runCapture
    rw [hfilename, hdata']
    dsimp only
    rw [if_pos hos.elevated, hinject, elevatedCapture_eq hos hmode hdash hfree ht, Except.map, hend,
      hret]
  · change t.files (.ofList filename) = _
    unfold State.files
    rw [hfile, hname]
    refine if_ctx_congr ?_ (fun hdue => by rw [if_pos hdue]) fun _ => rfl
    exact (and_iff_left rfl).trans hopen

end UsbPcap
