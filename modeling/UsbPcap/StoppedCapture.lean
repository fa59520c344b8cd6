import UsbPcap.Cmd.Stopping
import UsbPcap.Pipeline

/-!
# The file of a capture that is stopped

`stopped_capture_read_back` puts the two threads of a capture between the driver and the reader:
whenever the capture is stopped, or looked at, its output is nothing or a file that the service
reads to the exchanges that were injected and the first packets that were recorded.
-/

namespace UsbPcap

open Format Driver Pcap Transition

/-! ## The beginning of a stream -/

/-- Without a whole global header there is no output. -/
theorem output_outcomeOf_of_short {st : Cmd.State} (houtput : st.output = []) {x : List UInt8}
    (hshort : x.length < sizeofPcapHdr) : (st.outcomeOf x).output = [] := by
  unfold Cmd.State.outcomeOf
  by_cases hpass : st.data.passesThrough
  · rw [if_pos hpass]
    dsimp only
    rw [Cmd.passed, if_pos hshort, houtput]
    rfl
  · rw [if_neg hpass]
    dsimp only
    rw [Cmd.View.read, if_pos hshort]
    exact houtput

section Stored

variable {p : RootHubData} {ks : List Driver.Packet}

/-- What is left over of a stream lies behind its whole packets. -/
theorem length_add_leftover_le (hk : ∀ k ∈ ks, Readable p.snaplen k) {y : List UInt8}
    (hy : (globalHeader p.snaplen).bytes ++ storedStream p ks <+: y) :
    ((globalHeader p.snaplen).bytes ++ storedStream p ks).length + (Cmd.leftover y).length ≤
      y.length := by
  have hhdr : (globalHeader p.snaplen).bytes.length = sizeofPcapHdr := PcapHdr.length_bytes _
  have hframes : ∀ f ∈ ks.map (packetRecord p), recordFraming.IsFrame f :=
    fun f hf => (forall_isRecord_stored hk f hf).1
  have hlong : sizeofPcapHdr ≤ ((globalHeader p.snaplen).bytes ++ storedStream p ks).length := by
    rw [List.length_append, hhdr]
    exact Nat.le_add_right _ _
  have hwhole : Cmd.leftover ((globalHeader p.snaplen).bytes ++ storedStream p ks) = [] := by
    rw [Cmd.leftover, if_neg (Nat.not_lt.mpr hlong), List.drop_left' hhdr, storedStream_eq,
      split_records hframes]
  obtain ⟨z, hz⟩ := hy
  have hleft : Cmd.leftover y = (recordFraming.split z).2 := by
    rw [← hz, Cmd.leftover_append hlong, hwhole, List.nil_append]
  have hlength := congrArg List.length hz
  have hsplit := congrArg List.length (recordFraming.flatten_split z)
  rw [List.length_append] at hlength hsplit
  rw [hleft]
  omega

/-- A beginning of the stream that ends in front of packet `n` holds no more than `n` packets. -/
theorem le_of_cut {x : List UInt8} {n m : ℕ}
    (hcut : n < ks.length →
      ¬ (globalHeader p.snaplen).bytes ++ storedStream p (ks.take (n + 1)) <+: x)
    (hm : m ≤ ks.length)
    (hx : (globalHeader p.snaplen).bytes ++ storedStream p (ks.take m) <+: x) : m ≤ n := by
  by_contra hlt
  have hnext : n + 1 ≤ m := Nat.lt_of_not_le hlt
  refine hcut (by omega) (List.IsPrefix.trans ?_ hx)
  obtain ⟨more, hmore⟩ := List.take_prefix_take_left hnext (l := ks)
  rw [← hmore, storedStream_eq, storedStream_eq, List.map_append, List.flatten_append,
    ← List.append_assoc]
  exact List.prefix_append _ _

/-- What the service makes of the output for the beginning of a stream. -/
theorem exists_packets (hk : ∀ k ∈ ks, Readable p.snaplen k) {st : Cmd.State} (hst : st.Starts)
    (htriggered : st.data.triggered = false) (houtput : st.output = [])
    (hmode : st.data.storeMode = Cmd.storeModeImmediate ∨
      st.data.storeMode = Cmd.storeModeOnMatch)
    {exchanges : List Cmd.Descriptors.Packet}
    (hblock : InjectedBlock st.data.descriptors.descriptors exchanges) {x : List UInt8}
    (hx : x <+: (globalHeader p.snaplen).bytes ++ storedStream p ks) :
    ∃ n ≤ ks.length,
      (∀ m ≤ ks.length,
        (globalHeader p.snaplen).bytes ++ storedStream p (ks.take m) <+: x → m ≤ n) ∧
      (sizeofPcapHdr ≤ x.length →
        (globalHeader p.snaplen).bytes ++ storedStream p (ks.take n) <+: x) ∧
      ((st.outcomeOf x).output = [] ∧ wanted st.data (ks.take n) = [] ∨
        ∃ r recs, openReader (st.outcomeOf x).output = .ok r ∧
          List.Forall₂ Cmd.Descriptors.Packet.ReadAs exchanges recs ∧
          r.readAll.1 = recs ++ (wanted st.data (ks.take n)).map (Packet.toRecord p) ∧
          (¬ st.data.passesThrough → r.readAll.2 = .eof)) := by
  have hhdr : (globalHeader p.snaplen).bytes.length = sizeofPcapHdr := PcapHdr.length_bytes _
  -- the stop may come before the whole global header has been read
  by_cases hheader : sizeofPcapHdr ≤ x.length
  · obtain ⟨more, hmore⟩ := hx
    obtain ⟨n, rest, hle, hrest, hstream, hcut, -⟩ := prefix_stored hk hmore hheader
    have htake : ∀ k ∈ ks.take n, Readable p.snaplen k :=
      fun k hmem => hk k (List.mem_of_mem_take hmem)
    obtain ⟨tail, htail, hnone, hfile⟩ :=
      output_outcomeOf hst htriggered houtput hmode htake hrest
    rw [← hstream] at hfile
    refine ⟨n, hle, fun m => le_of_cut hcut, fun _ => ?_, ?_⟩
    · rw [hstream, storedStream_eq, ← List.append_assoc]
      exact List.prefix_append _ _
    · by_cases hdue : st.data.storeMode = Cmd.storeModeImmediate ∨ wanted st.data (ks.take n) ≠ []
      · have hwanted : ∀ k ∈ wanted st.data (ks.take n), Readable p.snaplen k :=
          fun k hmem => htake k (List.mem_of_mem_filter hmem)
        obtain ⟨r, recs, hr, hreads, hrecs, heof⟩ := readAll_file hblock hwanted hnone
        rw [if_pos hdue] at hfile
        exact Or.inr ⟨r, recs, hfile ▸ hr, hreads, hrecs,
          fun hparses => heof (htail (.inr hparses))⟩
      · -- without an accepted packet, on-match leaves no file
        rw [if_neg hdue] at hfile
        exact Or.inl ⟨hfile, not_not.mp (not_or.mp hdue).2⟩
  · have hshort := Nat.lt_of_not_le hheader
    refine ⟨0, Nat.zero_le _, fun m _ hm => ?_, fun h => absurd h hheader,
      Or.inl ⟨output_outcomeOf_of_short houtput hshort, rfl⟩⟩
    have hlong := hm.length_le
    rw [List.length_append, hhdr] at hlong
    omega

end Stored

/-! ## The threads between the driver and the reader -/

/-- **The output of a capture that is stopped.** After any run of the driver that leaves a buffer
behind, and in every state of every run of the two threads on what it has delivered, the output is
empty, or the service reads the exchanges that were injected and then, in order and once each, those
of the first `n` packets that the filter asks for. They include every packet that is whole without
the last buffer that the thread has looked at. -/
theorem stopped_capture_read_back {env : Cmd.Env} (he : env.Succeeds) (snaplen : UInt32)
    (ops : List Op) {s : Session} (hs : (Session.init snaplen).run ops = s)
    (hb : s.data.buffer ≠ none) (hk : ∀ k ∈ s.accepted, Readable s.data.snaplen k)
    (hlen : s.delivered.length < 2 ^ 31) {st : Cmd.State} (hst : st.Starts)
    (htriggered : st.data.triggered = false) (houtput : st.output = [])
    (hmode : st.data.storeMode = Cmd.storeModeImmediate ∨
      st.data.storeMode = Cmd.storeModeOnMatch)
    {exchanges : List Cmd.Descriptors.Packet}
    (hblock : InjectedBlock st.data.descriptors.descriptors exchanges)
    {setup : Cmd.EventLoop.Setup} {acts : List Cmd.EventLoop.Act}
    (hreads : (Cmd.EventLoop.reads acts).flatten = s.delivered) {fuel : ℕ}
    (hfuel : s.delivered.length < fuel) {u : Cmd.EventLoop.System}
    (hrun : run (Cmd.EventLoop.step env fuel) (Cmd.EventLoop.start setup st) acts = some u) :
    ∃ fetched n, Cmd.EventLoop.reads acts = fetched ++ u.unfetched ∧ n ≤ s.accepted.length ∧
      (∀ m ≤ s.accepted.length, (globalHeader s.data.snaplen).bytes ++
        storedStream s.data (s.accepted.take m) <+: fetched.dropLast.flatten → m ≤ n) ∧
      (u.Settled → u.unfetched = [] → sizeofPcapHdr ≤ s.delivered.length → s.Delivered n) ∧
      (u.thread.output = [] ∧ wanted st.data (s.accepted.take n) = [] ∨
        ∃ r recs, openReader u.thread.output = .ok r ∧
          List.Forall₂ Cmd.Descriptors.Packet.ReadAs exchanges recs ∧
          r.readAll.1 = recs ++ (wanted st.data (s.accepted.take n)).map (Packet.toRecord s.data) ∧
          (¬ st.data.passesThrough → r.readAll.2 = .eof)) := by
  have hstream := Session.stream_eq hs hb
  have hfollows := Cmd.EventLoop.follows_run he.toStores hst (hst.ready fun _ => he.toOpens) hrun
    (hreads ▸ hlen) (hreads ▸ recordsFit_delivered hs hb hk) (hreads ▸ hfuel)
  obtain ⟨fetched, x, hfetched, hx, hsettled, hearlier, hout, -, -⟩ := hfollows.outcome
  have hseen : fetched.flatten <+: s.delivered := by
    rw [← hreads, hfetched, List.flatten_append]
    exact List.prefix_append _ _
  have hall : s.delivered <+:
      (globalHeader s.data.snaplen).bytes ++ storedStream s.data s.accepted :=
    ⟨_, hstream⟩
  obtain ⟨n, hle, hmost, hwhole, hread⟩ :=
    exists_packets hk hst htriggered houtput hmode hblock ((hx.trans hseen).trans hall)
  rw [← hout] at hread
  refine ⟨fetched, n, hfetched, hle, fun m hm hbegin => hmost m hm ?_, fun ht hnil hheader => ?_,
    hread⟩
  · -- the packets end in front of what the earlier buffers leave over
    have hlong := length_add_leftover_le
      (fun k hmem => hk k (List.mem_of_mem_take hmem)) hbegin
    exact List.prefix_of_prefix_length_le (hbegin.trans fetched.dropLast_prefix.flatten) hx
      (by omega)
  · have hdelivered : x = s.delivered := by
      rw [hsettled ht, ← hreads, hfetched, hnil, List.append_nil]
    rw [hdelivered] at hmost hwhole
    exact ⟨hle, hwhole hheader, fun hlt hnext =>
      Nat.not_succ_le_self n (hmost (n + 1) hlt hnext)⟩

/-- The key is pressed when the second of two reads has been completed. -/
def stopActs : List Cmd.EventLoop.Act :=
  [.thread, .complete (deliveredBulk.delivered.take 60), .thread, .thread, .thread,
    .complete (deliveredBulk.delivered.drop 60), .quit, .thread, .thread, .main, .thread, .main]

theorem stopped_capture_read_back_bulk :
    ∃ u fetched n, run (Cmd.EventLoop.step .reliable 100)
        (Cmd.EventLoop.start Cmd.EventLoop.sampleSetup injectingThread) stopActs = some u ∧
      Cmd.EventLoop.reads stopActs = fetched ++ u.unfetched ∧ n ≤ deliveredBulk.accepted.length ∧
      (∀ m ≤ deliveredBulk.accepted.length, (globalHeader deliveredBulk.data.snaplen).bytes ++
        storedStream deliveredBulk.data (deliveredBulk.accepted.take m) <+:
          fetched.dropLast.flatten → m ≤ n) ∧
      (u.Settled → u.unfetched = [] → sizeofPcapHdr ≤ deliveredBulk.delivered.length →
        deliveredBulk.Delivered n) ∧
      (u.thread.output = [] ∧
          wanted injectingThread.data (deliveredBulk.accepted.take n) = [] ∨
        ∃ r recs, openReader u.thread.output = .ok r ∧
          List.Forall₂ Cmd.Descriptors.Packet.ReadAs
            (Cmd.Descriptors.injected Cmd.Descriptors.sampleAddresses
              Cmd.Descriptors.sampleDevices) recs ∧
          r.readAll.1 = recs ++ (wanted injectingThread.data
            (deliveredBulk.accepted.take n)).map (Packet.toRecord deliveredBulk.data) ∧
          (¬ injectingThread.data.passesThrough → r.readAll.2 = .eof)) := by
  have hsome : (run (Cmd.EventLoop.step .reliable 100)
      (Cmd.EventLoop.start Cmd.EventLoop.sampleSetup injectingThread) stopActs).isSome := by
    decide +kernel
  obtain ⟨u, hu⟩ := Option.isSome_iff_exists.mp hsome
  have hreads : (Cmd.EventLoop.reads stopActs).flatten = deliveredBulk.delivered := by
    change deliveredBulk.delivered.take 60 ++ (deliveredBulk.delivered.drop 60 ++ []) = _
    rw [List.append_nil, List.take_append_drop]
  obtain ⟨fetched, n, hstopped⟩ := stopped_capture_read_back Cmd.Env.reliable_succeeds 65535 _
    (s := deliveredBulk) rfl (by decide) readable_deliveredBulk
    (by rw [length_deliveredBulk]; decide) starts_injectingThread rfl rfl (Or.inl rfl)
    injectedBlock_injectingThread hreads (by rw [length_deliveredBulk]; decide) hu
  exact ⟨u, fetched, n, hu, hstopped⟩

end UsbPcap
