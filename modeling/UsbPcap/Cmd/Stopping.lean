import UsbPcap.Cmd.EventLoop

/-!
# Stopping a capture

`start_capture` may clear `data->process` at any time, also while `process_data` is in the middle of
what has been read. `stopped_anywhere` says that the output is nevertheless that of an undisturbed
capture of a part of the stream, and that this part lacks nothing but some of the last read.
-/

namespace UsbPcap.Cmd

open Format

/-- The state with `data->process` set again. -/
def State.resume (s : State) : State := { s with data := { s.data with process := true } }

/-- A thread that has not been told to stop goes on anyway. -/
theorem State.resume_eq {s : State} (h : s.data.process = true) : s.resume = s := by
  unfold State.resume
  rw [← h]

variable {env : Env}

/-! ## One turn of the loop of `process_data` -/

section Turn

open EventLoop (parseTurn)

/-- The loop of `process_data` takes turns. -/
theorem parseLoop_succ (env : Env) (fuel : ℕ) (s : State) :
    parseLoop env (fuel + 1) s =
      if s.data.process = false then .ok s
      else
        match parseTurn env s with
        | .error fault => .error fault
        | .ok (false, s) => .ok s
        | .ok (true, s) => parseLoop env fuel s := by
  rw [parseLoop]
  split
  · rfl
  · unfold parseTurn
    generalize (if s.parser.havePcapHeader = false ∧ 24 ≤ s.parser.pendingLen then
      takePcapHeader env s else (true, s)) = taken
    obtain ⟨go, t⟩ := taken
    dsimp only
    split
    · rfl
    · split
      · rfl
      · split
        · rfl
        · split
          · rfl
          · cases processRecord env t (16 + UInt32.ofNat (inclLen t.parser.pending)) with
            | error fault => rfl
            | ok result =>
              obtain ⟨go, u⟩ := result
              cases go with
              | false => rfl
              | true => rfl

variable {s : State}

/-- A turn behind the global header. -/
theorem parseTurn_have (hhave : s.parser.havePcapHeader = true) :
    parseTurn env s =
      if s.parser.pendingLen < 16 ∨
          s.parser.pendingLen < 16 + UInt32.ofNat (inclLen s.parser.pending) then .ok (false, s)
      else
        match processRecord env s (16 + UInt32.ofNat (inclLen s.parser.pending)) with
        | .error fault => .error fault
        | .ok (false, t) => .ok (false, t)
        | .ok (true, t) => .ok (true,
            { t with
              parser :=
                discardPending t.parser (16 + UInt32.ofNat (inclLen s.parser.pending)) }) := by
  unfold parseTurn
  rw [hhave, if_neg fun h => Bool.true_eq_false.mp h.1]
  dsimp only
  rw [if_neg Bool.true_eq_false.mp, hhave, if_neg Bool.true_eq_false.mp]
  by_cases hshort : s.parser.pendingLen < 16
  · rw [if_pos hshort, if_pos (Or.inl hshort)]
  · rw [if_neg hshort]
    exact if_congr (or_iff_right hshort).symm rfl rfl

/-- Without a complete record the loop is left. -/
theorem parseTurn_none (hb : BufferOk s.parser) (hhave : s.parser.havePcapHeader = true)
    (hnone : recordFraming.frameLen s.parser.bytes = none) (hfit : RecordsFit s.parser.bytes) :
    parseTurn env s = .ok (false, s) := by
  have hlen := hb.length_bytes
  rw [parseTurn_have hhave, if_pos]
  by_cases hshort : s.parser.pendingLen < 16
  · exact Or.inl hshort
  · have hlong : 16 ≤ s.parser.bytes.length := by
      rw [hlen]
      exact Nat.le_of_not_lt hshort
    have hincl := hfit.unfinished
    rw [Framing.split_of_none hnone] at hincl
    refine Or.inr ?_
    rw [inclLen_pending hlong, UInt32.lt_iff_toNat_lt, toNat_totalLength (hincl hlong), ← hlen]
    by_contra hcomplete
    have hsome : recordFraming.frameLen s.parser.bytes = some (16 + inclLen s.parser.bytes) :=
      (if_neg (Nat.not_lt.mpr hlong)).trans (if_neg hcomplete)
    exact Option.some_ne_none _ (hsome.symm.trans hnone)

/-- A complete record is processed and taken off the pending bytes. -/
theorem parseTurn_some (he : env.Stores) (hv : s.view.Ready env) (hb : BufferOk s.parser)
    (hhave : s.parser.havePcapHeader = true) (hlen : s.parser.bytes.length < 2 ^ 31) {n : ℕ}
    (hsome : recordFraming.frameLen s.parser.bytes = some n) :
    ∃ t, parseTurn env s = .ok (true, t) ∧ BufferOk t.parser ∧ t.parser.havePcapHeader = true ∧
      t.parser.bytes = s.parser.bytes.drop n ∧ t.view = s.view.record (s.parser.bytes.take n) := by
  obtain ⟨h16, hn, hle⟩ := recordLen_eq_some.mp hsome
  have hbytes := hb.length_bytes
  have htake : (s.parser.bytes.take n).length = n := by
    rw [List.length_take, Nat.min_eq_left hle]
  have hframe : recordFraming.IsFrame (s.parser.bytes.take n) := by
    unfold Framing.IsFrame
    rw [recordFraming.take hsome, htake]
  have hpend : s.parser.pending = s.parser.bytes.take n ++
      (s.parser.bytes.drop n ++ s.parser.pending.drop s.parser.pendingLen.toNat) := by
    rw [← List.append_assoc, List.take_append_drop]
    exact s.parser.pending_eq
  obtain ⟨total, htotal⟩ : ∃ total, 16 + UInt32.ofNat (inclLen s.parser.pending) = total :=
    ⟨_, rfl⟩
  have hnat : total.toNat = n := by
    rw [← htotal, inclLen_pending h16, toNat_totalLength (by omega), hn]
  obtain ⟨k, hk⟩ := processRecord_ok he hv hhave hframe hpend (hnat.trans htake.symm)
  obtain ⟨hdisc, hrest⟩ := discardPending_ok
    (show BufferOk (s.withView (s.view.record (s.parser.bytes.take n)) k).parser from
      ⟨hb.block, hb.fits⟩)
    (show total.toNat ≤ s.parser.pendingLen.toNat by omega)
  rw [parseTurn_have hhave, htotal, if_neg, hk]
  · refine ⟨_, rfl, hdisc, hhave, ?_, rfl⟩
    rw [hrest, hnat]
    rfl
  · rw [UInt32.lt_iff_toNat_lt, UInt32.lt_iff_toNat_lt]
    change ¬ (s.parser.pendingLen.toNat < 16 ∨ s.parser.pendingLen.toNat < total.toNat)
    omega

/-- A turn that takes the global header goes on behind it. -/
theorem parseTurn_header (he : env.Stores) (hv : s.view.Ready env) (hb : BufferOk s.parser)
    (hhave : s.parser.havePcapHeader = false) (hlong : 24 ≤ s.parser.pendingLen.toNat) :
    ∃ t, parseTurn env s = parseTurn env t ∧ BufferOk t.parser ∧
      t.parser.havePcapHeader = true ∧ t.parser.bytes = s.parser.bytes.drop 24 ∧
      t.view = s.view.header (s.parser.bytes.take 24) := by
  obtain ⟨t, ht, hbt, hhavet, hbytes, hview⟩ := takePcapHeader_ok he hv hb hlong
  refine ⟨t, ?_, hbt, hhavet, hbytes, hview⟩
  have htaken : ¬ (t.parser.havePcapHeader = false ∧ 24 ≤ t.parser.pendingLen) := by
    rw [hhavet]
    exact fun h => Bool.true_eq_false.mp h.1
  unfold parseTurn
  rw [if_neg htaken, if_pos ⟨hhave, UInt32.le_iff_toNat_le.mpr hlong⟩, ht]

/-- Before the global header has arrived, the loop is left. -/
theorem parseTurn_waits (hhave : s.parser.havePcapHeader = false)
    (hshort : s.parser.pendingLen.toNat < 24) : parseTurn env s = .ok (false, s) := by
  have hfew : ¬ (24 ≤ s.parser.pendingLen) := by
    rw [UInt32.le_iff_toNat_le]
    exact Nat.not_le.mpr hshort
  unfold parseTurn
  rw [if_neg fun h => hfew h.2]
  dsimp only
  rw [if_neg Bool.true_eq_false.mp, if_pos hhave]

end Turn

/-! ## Between two turns -/

/-- The state `s` of a thread that started with the view `v`, was given the stream `x`, and has
processed `done` of it, which ends behind a record. -/
structure Partway (v : View) (s : State) (done x : List UInt8) : Prop where
  buffer : BufferOk s.parser
  header : s.parser.havePcapHeader = decide (sizeofPcapHdr ≤ done.length)
  bytes : done ++ s.parser.bytes = x
  whole : leftover done = []
  view : s.view = v.read done

/-- Nothing has been parsed at the start. -/
theorem Partway.nil {s : State} (hs : s.parser = .zero) : Partway s.view s [] [] := by
  refine ⟨?_, ?_, ?_, rfl, rfl⟩
  · rw [hs]
    exact bufferOk_zero
  · rw [hs]
    rfl
  · rw [hs]
    rfl

section Partway

variable {v : View} {s : State} {done x : List UInt8}

/-- What is partway through the stream is ready to write. -/
theorem Partway.ready (hv : v.Ready env) (hs : Partway v s done x) : s.view.Ready env :=
  hs.view ▸ v.ready_read hv done

/-- A turn behind the global header processes a record, or there is none. -/
theorem Partway.turn_have (he : env.Stores) (hv : v.Ready env) (hs : Partway v s done x)
    (hheader : sizeofPcapHdr ≤ done.length) (hlen : x.length < 2 ^ 31)
    (hfit : RecordsFit (x.drop sizeofPcapHdr)) :
    ∃ go t done', EventLoop.parseTurn env s = .ok (go, t) ∧ Partway v t done' x ∧
      done <+: done' ∧ (go = false → leftover x = t.parser.bytes) := by
  have hhave : s.parser.havePcapHeader = true := hs.header.trans (decide_eq_true hheader)
  have hrest : RecordsFit s.parser.bytes := by
    have hwhole := hs.whole
    rw [leftover, if_neg (Nat.not_lt.mpr hheader)] at hwhole
    rw [← hs.bytes, List.drop_append_of_le_length hheader] at hfit
    have hnext := hfit.rest_append
    rwa [hwhole, List.nil_append] at hnext
  have hbytes : s.parser.bytes.length ≤ x.length := by
    rw [← hs.bytes, List.length_append]
    exact Nat.le_add_left _ _
  cases hf : recordFraming.frameLen s.parser.bytes with
  | none =>
    -- no whole record is pending, and the turn ends the parsing
    refine ⟨false, s, done, parseTurn_none hs.buffer hhave hf hrest, hs,
      List.prefix_rfl, fun _ => ?_⟩
    rw [← hs.bytes, leftover_append hheader, hs.whole, List.nil_append, Framing.split_of_none hf]
  | some n =>
    -- one record is taken off the pending bytes
    obtain ⟨t, ht, hbt, hhavet, hbytest, hviewt⟩ :=
      parseTurn_some he (hs.ready hv) hs.buffer hhave (by omega) hf
    have hrecord : recordFraming.split (s.parser.bytes.take n) = ([s.parser.bytes.take n], []) := by
      have hframe : recordFraming.IsFrame (s.parser.bytes.take n) := by
        unfold Framing.IsFrame
        rw [recordFraming.take hf, List.length_take, Nat.min_eq_left (recordFraming.le_length hf)]
      have hsplit := split_records (List.forall_mem_singleton.mpr hframe)
      rwa [List.flatten_singleton] at hsplit
    refine ⟨true, t, done ++ s.parser.bytes.take n, ht, ⟨hbt, ?_, ?_, ?_, ?_⟩,
      List.prefix_append _ _, fun h => Bool.noConfusion h⟩
    · rw [hhavet, List.length_append]
      exact (decide_eq_true (by omega)).symm
    · rw [hbytest, List.append_assoc, List.take_append_drop, hs.bytes]
    · rw [leftover_append hheader, hs.whole, List.nil_append, hrecord]
    · rw [hviewt, View.read_append hheader, hs.whole, List.nil_append, hrecord, hs.view]
      rfl

/-- **One turn** goes on behind one more record, or the loop is left with what is no record. -/
theorem Partway.turn (he : env.Stores) (hv : v.Ready env) (hs : Partway v s done x)
    (hlen : x.length < 2 ^ 31) (hfit : RecordsFit (x.drop sizeofPcapHdr)) :
    ∃ go t done', EventLoop.parseTurn env s = .ok (go, t) ∧ Partway v t done' x ∧
      done <+: done' ∧ (go = false → leftover x = t.parser.bytes) := by
  by_cases hheader : sizeofPcapHdr ≤ done.length
  · exact hs.turn_have he hv hheader hlen hfit
  · have hhave : s.parser.havePcapHeader = false := hs.header.trans (decide_eq_false hheader)
    have hnil : done = [] := by
      have hwhole := hs.whole
      rwa [leftover, if_pos (Nat.lt_of_not_le hheader)] at hwhole
    subst hnil
    have hall : s.parser.bytes = x := hs.bytes
    have hview : s.view = v := hs.view
    by_cases hshort : x.length < sizeofPcapHdr
    · refine ⟨false, s, [], parseTurn_waits hhave ?_, hs, List.prefix_rfl, fun _ => ?_⟩
      · rw [← hs.buffer.length_bytes, hall]
        exact hshort
      · rw [leftover, if_pos hshort, hall]
    · -- the turn takes the header first
      obtain ⟨t, ht, hbt, hhavet, hbytest, hviewt⟩ :=
        parseTurn_header he (hs.ready hv) hs.buffer hhave (by
          rw [← hs.buffer.length_bytes, hall]
          exact Nat.le_of_not_lt hshort)
      rw [hall] at hbytest hviewt
      have htake : (x.take sizeofPcapHdr).length = sizeofPcapHdr :=
        List.length_take_of_le (Nat.le_of_not_lt hshort)
      have htaken : Partway v t (x.take sizeofPcapHdr) x := by
        refine ⟨hbt, ?_, ?_, ?_, ?_⟩
        · rw [hhavet, htake]
          rfl
        · rw [hbytest]
          exact List.take_append_drop _ _
        · rw [leftover, htake, if_neg (Nat.lt_irrefl _), List.drop_of_length_le htake.le,
            Framing.split_of_none recordLen_nil]
        · rw [hviewt, hview, View.read, htake, if_neg (Nat.lt_irrefl _),
            List.drop_of_length_le htake.le, Framing.split_of_none recordLen_nil, List.take_take,
            Nat.min_self]
          rfl
      rw [ht]
      obtain ⟨go, u, done', hu, hnext, -, hleft⟩ := htaken.turn_have he hv htake.ge hlen hfit
      exact ⟨go, u, done', hu, hnext, List.nil_prefix, hleft⟩

/-- Where the loop of `process_data` has been left, nothing more than `done` counts. -/
theorem Partway.read_eq (hs : Partway v s done x) (hleft : leftover x = s.parser.bytes) :
    v.read x = v.read done := by
  have hbytes := hs.bytes
  by_cases hheader : sizeofPcapHdr ≤ done.length
  · have hlong : sizeofPcapHdr ≤ x.length := by
      rw [← hbytes, List.length_append]
      omega
    have hnone : recordFraming.frameLen s.parser.bytes = none := by
      rw [← hleft, leftover, if_neg (Nat.not_lt.mpr hlong)]
      exact recordFraming.frameLen_rest _
    rw [← hbytes, View.read_append hheader, hs.whole, List.nil_append, Framing.split_of_none hnone]
    rfl
  · have hnil : done = [] := by
      have hwhole := hs.whole
      rwa [leftover, if_pos (Nat.lt_of_not_le hheader)] at hwhole
    subst hnil
    have hall : s.parser.bytes = x := hbytes
    by_cases hshort : x.length < sizeofPcapHdr
    · unfold View.read
      rw [if_pos hshort, if_pos (Nat.lt_of_not_le hheader)]
    · -- the whole header cannot be left over
      have hlength := congrArg List.length (recordFraming.flatten_split (x.drop sizeofPcapHdr))
      rw [hall, leftover, if_neg hshort] at hleft
      rw [hleft, List.length_append, List.length_drop] at hlength
      have hpos : 0 < sizeofPcapHdr := by decide
      omega

/-- What `process_data` does in front of its loop. -/
theorem Partway.append (hs : Partway v s done x) {parser : PacketParserContext}
    (hb : BufferOk parser) (hheader : parser.havePcapHeader = s.parser.havePcapHeader)
    {c : List UInt8} (hbytes : parser.bytes = s.parser.bytes ++ c)
    (hview : State.view { s with parser := parser } = s.view) :
    Partway v { s with parser := parser } done (x ++ c) where
  buffer := hb
  header := hheader.trans hs.header
  bytes := by
    rw [hbytes, ← List.append_assoc, hs.bytes]
  whole := hs.whole
  view := hview.trans hs.view

end Partway

/-! ## Passing bytes through -/

section Resume

/-- Writing does not look at whether the thread has been told to stop. -/
theorem resume_writeData (env : Env) (s : State) (buffer : List UInt8) :
    (writeData env s buffer).resume = (writeData env s.resume buffer).resume := by
  unfold writeData State.resume
  dsimp only
  generalize env.writeFile s.writes buffer.length = outcome
  by_cases hinvalid : s.data.writeHandle = .invalid
  · rw [if_pos hinvalid, if_pos hinvalid]
  · rw [if_neg hinvalid, if_neg hinvalid]
    cases outcome with
    | done => rfl
    | pending written =>
      dsimp only
      by_cases hall : written ≠ buffer.length
      · rw [if_pos hall, if_pos hall]
      · rw [if_neg hall, if_neg hall]
    | pendingFailed => rfl
    | failed => rfl

/-- So it does the same to a thread that was. -/
theorem writeData_congr {s t : State} (h : s.resume = t.resume) (buffer : List UInt8) :
    (writeData env s buffer).resume = (writeData env t buffer).resume := by
  rw [resume_writeData, h, ← resume_writeData]

/-- And so does the header. -/
theorem writeHeader_congr {s t : State} (h : s.resume = t.resume) (hdr : List UInt8) :
    (writeHeader env s hdr).resume = (writeHeader env t hdr).resume := by
  have hwrite := @writeData_congr env s t h hdr
  have hdescriptors : (writeData env s hdr).data.descriptors =
      (writeData env t hdr).data.descriptors := by
    change (writeData env s hdr).resume.data.descriptors = _
    rw [hwrite]
    rfl
  unfold writeHeader
  dsimp only
  rw [hdescriptors]
  split
  · exact writeData_congr hwrite _
  · exact hwrite

/-- Passing bytes through does not look at `data->process`. -/
theorem passThrough_congr {s t : State} (h : s.resume = t.resume) (buffer : List UInt8) :
    (passThrough env s buffer).resume = (passThrough env t buffer).resume := by
  have hdescriptors : s.data.descriptors = t.data.descriptors := by
    change s.resume.data.descriptors = _
    rw [h]
    rfl
  have hcollect (d : InjectDescriptors) :
      State.resume { s with data := { s.data with descriptors := d } } =
        State.resume { t with data := { t.data with descriptors := d } } := by
    change { s.resume with data := { s.resume.data with descriptors := d } } = _
    rw [h]
    rfl
  unfold passThrough
  rw [hdescriptors]
  dsimp only
  split
  · split
    · split
      · exact writeHeader_congr (hcollect _) _
      · exact hcollect _
    · split
      · exact writeData_congr (writeHeader_congr (hcollect _) _) _
      · exact writeData_congr (hcollect _) _
  · exact writeData_congr h buffer

end Resume

/-! ## Runs -/

namespace EventLoop

open Transition

/-- What an act of the system transfers. -/
def Act.buffer : Act → Option (List UInt8)
  | complete buffer => some buffer
  | thread | threadBlocks | main | waitFails | quit | refuse | connected | peer _ | written
  | writeEnds => none

/-- The buffers that the reads have filled. -/
def reads (acts : List Act) : List (List UInt8) := acts.filterMap Act.buffer

/-- A buffer that has been filled and not been looked at. -/
def System.unfetched (s : System) : List (List UInt8) := s.read.result.toList

/-- The thread waits, or it is outside of `process_data` and goes on: every complete record that it
has fetched has been processed. -/
def System.Settled (s : System) : Prop :=
  s.place ≠ .parsing ∧ (s.place = .waiting ∨ s.thread.data.process = true)

/-- Only one of them uses the buffer of the thread: the connection before the first read, a read, or
`process_data`. -/
structure System.Exclusive (s : System) : Prop where
  parsing : s.place = .parsing → s.read = .idle ∧ s.connect = .idle
  connect : s.connect ≠ .idle → s.read = .idle

/-- The thread, which started in `st`, has fetched the buffers `bs`. Every record that the buffers
before the last one complete has been processed. -/
structure Fetched (st : State) (s : System) (bs : List (List UInt8)) : Prop where
  passes : st.data.passesThrough → Passes st s.thread.resume bs.flatten ∧ s.place ≠ .parsing
  parses : ¬ st.data.passesThrough → ∃ done, Partway st.view s.thread.resume done bs.flatten ∧
    bs.dropLast.flatten.length ≤ done.length + (leftover bs.dropLast.flatten).length ∧
    (s.Settled → leftover bs.flatten = s.thread.parser.bytes)

section Runs

variable {env : Env} {fuel : ℕ} {st : State} {s t : System} {bs fs : List (List UInt8)}
  {c : List UInt8}

/-- A step that leaves the thread's data as they are, up to `data->process`. -/
theorem Fetched.congr (h : Fetched st s fs) (hthread : t.thread.resume = s.thread.resume)
    (hplace : t.place = .parsing → s.place = .parsing) (hsettled : t.Settled → s.Settled) :
    Fetched st t fs where
  passes hpass := by
    obtain ⟨hs, hnot⟩ := h.passes hpass
    exact ⟨hthread ▸ hs, hnot ∘ hplace⟩
  parses hparses := by
    obtain ⟨done, hs, hearlier, hleft⟩ := h.parses hparses
    refine ⟨done, hthread ▸ hs, hearlier, fun ht => ?_⟩
    have hparser : t.thread.parser = s.thread.parser := by
      change t.thread.resume.parser = _
      rw [hthread]
      rfl
    rw [hparser]
    exact hleft (hsettled ht)

/-- The thread goes the way that it has started with. -/
theorem Fetched.passesThrough_iff (h : Fetched st s fs) :
    s.thread.data.passesThrough ↔ st.data.passesThrough := by
  by_cases hpass : st.data.passesThrough
  · have hdata := (h.passes hpass).1.data
    change s.thread.resume.data.passesThrough ↔ _
    rw [hdata]
    rfl
  · obtain ⟨done, hs, -⟩ := h.parses hpass
    have hconfig : s.thread.data.config = st.data.config := by
      change s.thread.resume.view.data.config = _
      rw [hs.view, View.config_read]
      rfl
    rw [passesThrough_congr hconfig]

/-- What `process_data` does up to its loop. -/
theorem Fetched.fetch (he : env.Stores) (hst : st.Starts) (h : Fetched st s fs)
    (hsettled : s.Settled) (hlen : (fs.flatten ++ c).length < 2 ^ 31)
    (hfuel : (fs.flatten ++ c).length < fuel) :
    ∃ thread, Fetched st { s with place := .head, thread := thread } (fs ++ [c]) ∧
        fetch env fuel s c = restart { s with thread := thread } ∨
      Fetched st { s with place := .parsing, thread := thread } (fs ++ [c]) ∧
        fetch env fuel s c = { s with place := .parsing, read := .idle, thread := thread } := by
  have hflatten : (fs ++ [c]).flatten = fs.flatten ++ c := by
    rw [List.flatten_append, List.flatten_singleton]
  unfold EventLoop.fetch
  by_cases hpass : st.data.passesThrough
  · have hs := (h.passes hpass).1.passThrough he (hst.passing hpass) c
    -- the elevated worker's side writes the bytes on as they are
    have hthread : (passThrough env s.thread c).resume = passThrough env s.thread.resume c := by
      have hprocess : (passThrough env s.thread.resume c).data.process = true := by
        rw [hs.data]
        exact hst.process
      rw [passThrough_congr (show s.thread.resume = s.thread.resume.resume from rfl) c]
      exact State.resume_eq hprocess
    refine ⟨passThrough env s.thread c, Or.inl ⟨⟨fun _ => ⟨?_, Place.noConfusion⟩,
      fun hnot => absurd hpass hnot⟩, ?_⟩⟩
    · rw [hflatten]
      exact hthread ▸ hs
    rw [if_pos (h.passesThrough_iff.mpr hpass)]
  · obtain ⟨done, hs, -, hleft⟩ := h.parses hpass
    -- the bytes are appended to the pending ones, for which room is made first
    have hbuffer : BufferOk s.thread.parser := hs.buffer
    have hall : done ++ s.thread.parser.bytes = fs.flatten := hs.bytes
    have hpending : s.thread.parser.pendingLen.toNat + c.length ≤ (fs.flatten ++ c).length := by
      rw [List.length_append, ← hall, List.length_append, hbuffer.length_bytes]
      omega
    have hchunk : (UInt32.ofNat c.length).toNat = c.length := by
      rw [UInt32.toNat_ofNat']
      omega
    rw [if_neg (h.passesThrough_iff.not.mpr hpass)]
    obtain ⟨block, capacity, hok, hblock, hroom, htake⟩ :=
      ensurePendingCapacity_ok he hbuffer (show s.thread.parser.pendingLen.toNat +
        (UInt32.ofNat c.length).toNat < 2 ^ 31 by omega) (show _ < fuel by omega)
    rw [hok]
    dsimp only
    rw [if_neg (by omega)]
    have hb : BufferOk { s.thread.parser with pending := block, pendingCapacity := capacity } :=
      ⟨hblock, by dsimp only; omega⟩
    obtain ⟨hb', hbytes⟩ := appendPending_ok hb
      (show s.thread.parser.pendingLen.toNat + c.length < 2 ^ 31 by omega)
      (show s.thread.parser.pendingLen.toNat + c.length ≤ block.length by omega)
    refine ⟨_, Or.inr ⟨⟨fun hnot => absurd hnot hpass, fun _ => ⟨done, ?_, ?_,
      fun hnext => absurd rfl hnext.1⟩⟩, rfl⟩⟩
    · rw [hflatten]
      exact hs.append hb' rfl (hbytes.trans (congrArg (· ++ c) htake)) rfl
    · rw [List.dropLast_concat, hleft hsettled, ← List.length_append, hall]

/-- A thread that nobody disturbs takes turns until the loop of `process_data` has ended. -/
theorem run_parseLoop {n : ℕ} {thread : State} (hplace : s.place = .parsing)
    (hblocked : s.blocked = false) (h : parseLoop env n s.thread = .ok thread) :
    ∃ m, run (step env fuel) s (List.replicate m .thread) =
      some (restart { s with thread := thread }) := by
  have hstep : step env fuel s .thread = threadStep env fuel s := by
    rw [step, if_neg (hblocked ▸ Bool.false_ne_true)]
  induction n generalizing s with
  | zero => cases h
  | succ n ih =>
    rw [parseLoop_succ] at h
    unfold threadStep at hstep
    rw [hplace] at hstep
    dsimp only at hstep
    by_cases hstop : s.thread.data.process = false
    · rw [if_pos hstop] at h hstep
      obtain rfl := Except.ok.inj h
      exact ⟨1, by rw [List.replicate_one, run_cons, hstep]; rfl⟩
    · rw [if_neg hstop] at h hstep
      generalize parseTurn env s.thread = turn at h hstep
      cases turn with
      | error fault => cases h
      | ok turn =>
        obtain ⟨go, next⟩ := turn
        cases go with
        | false =>
          obtain rfl := Except.ok.inj h
          exact ⟨1, by rw [List.replicate_one, run_cons, hstep]; rfl⟩
        | true =>
          obtain ⟨m, hm⟩ := ih (s := { s with place := .parsing, thread := next }) rfl hblocked h
            (by rw [step, if_neg (hblocked ▸ Bool.false_ne_true)])
          exact ⟨m + 1, by rw [List.replicate_succ, run_cons, hstep]; exact hm⟩

/-- **Undisturbed, the thread does what `process_data` does** with what it has read, and starts the
next read. -/
theorem run_processData {thread : State} (hplace : s.place = .waiting)
    (hblocked : s.blocked = false) (hread : s.read = .signaled c)
    (h : processData env fuel s.thread c = .ok thread) :
    ∃ m, run (step env fuel) s (List.replicate m .thread) =
      some (restart { s with thread := thread }) := by
  have hstep : step env fuel s .thread = some (fetch env fuel s c) := by
    rw [step, if_neg (hblocked ▸ Bool.false_ne_true), threadStep, hplace]
    dsimp only
    rw [dispatch, hread]
    rfl
  unfold processData at h
  unfold fetch at hstep
  by_cases hpass : s.thread.data.passesThrough
  · rw [if_pos hpass] at h hstep
    obtain rfl := Except.ok.inj h
    exact ⟨1, by rw [List.replicate_one, run_cons, hstep]; rfl⟩
  · rw [if_neg hpass] at h hstep
    generalize ensurePendingCapacity env fuel s.thread.parser (UInt32.ofNat c.length) = room
      at h hstep
    cases room with
    | error fault => cases h
    | ok room =>
      obtain ⟨enough, parser⟩ := room
      cases enough with
      | false =>
        obtain rfl := Except.ok.inj h
        exact ⟨1, by rw [List.replicate_one, run_cons, hstep]; rfl⟩
      | true =>
        dsimp only at h hstep
        split at h
        · cases h
        · rename_i hfits
          rw [if_neg hfits] at hstep
          -- the loop goes on from where `process_data` comes to it
          obtain ⟨m, hm⟩ := @run_parseLoop env fuel
            { s with
              place := .parsing
              read := .idle
              thread := { s.thread with parser := appendPending parser c } } fuel thread rfl
            hblocked h
          exact ⟨m + 1, by rw [List.replicate_succ, run_cons, hstep]; exact hm⟩

/-- The invariant of the two threads for the buffers `bs` that have been filled. -/
structure Follows (st : State) (s : System) (bs : List (List UInt8)) : Prop where
  exclusive : s.Exclusive
  fault : ∀ fault, s.place ≠ .faulted fault
  fetched : ∃ fs, bs = fs ++ s.unfetched ∧ Fetched st s fs

/-- Only what has been fetched, the thread and its place matter. -/
theorem Follows.congr (h : Follows st s bs) (hexclusive : t.Exclusive)
    (hfault : ∀ fault, t.place ≠ .faulted fault) (hunfetched : t.unfetched = s.unfetched)
    (hthread : t.thread.resume = s.thread.resume) (hplace : t.place = .parsing → s.place = .parsing)
    (hsettled : t.Settled → s.Settled) : Follows st t bs where
  exclusive := hexclusive
  fault := hfault
  fetched := by
    obtain ⟨fs, hfs, hfetched⟩ := h.fetched
    exact ⟨fs, hunfetched ▸ hfs, hfetched.congr hthread hplace hsettled⟩

/-- A finished operation has been started. -/
theorem Overlapped.ne_idle_of_signaled {α : Type*} {o : Overlapped α} {result : α}
    (h : o = .signaled result) : o ≠ .idle := by
  rw [h]
  intro hidle
  cases hidle

/-- So has a pending one. -/
theorem Overlapped.ne_idle_of_pending {α : Type*} {o : Overlapped α} (h : o = .pending) :
    o ≠ .idle := by
  rw [h]
  intro hidle
  cases hidle

/-- Without a read there is nothing to fetch. -/
theorem unfetched_of_idle (h : s.read = .idle) : s.unfetched = [] := by
  rw [System.unfetched, h]
  rfl

/-- Cancelling loses no bytes that have come. -/
theorem unfetched_cancel (o : Overlapped (List UInt8)) :
    o.cancel.result.toList = o.result.toList := by
  cases o with
  | idle | pending | signaled result => rfl

/-- The end of the thread fetches nothing. -/
theorem Follows.finish (h : Follows st s bs) (hplace : s.place ≠ .parsing) :
    Follows st (finish s) bs := by
  refine h.congr ⟨fun hnot => Place.noConfusion hnot, fun hconnect => ?_⟩
    (fun _ => Place.noConfusion) (unfetched_cancel s.read) rfl (fun hnot => Place.noConfusion hnot)
    fun ht => ⟨hplace, ht.2.elim (fun hwait => Place.noConfusion hwait) Or.inr⟩
  change s.read.cancel = .idle
  rw [h.exclusive.connect hconnect]
  rfl

/-- Neither does the end of the wait. -/
theorem Follows.leaveWait (h : Follows st s bs) : Follows st (leaveWait s) bs :=
  h.congr ⟨h.exclusive.parsing, h.exclusive.connect⟩ h.fault rfl rfl id
    fun ht => ⟨ht.1, ht.2.elim Or.inl fun hprocess => Bool.noConfusion hprocess⟩

/-- The main thread fetches nothing. -/
theorem Follows.main (h : Follows st s bs) (hstep : mainStep s = some t) : Follows st t bs := by
  unfold mainStep at hstep
  split at hstep
  · obtain ⟨-, ht⟩ := Option.ite_none_right_eq_some.mp hstep
    exact Option.some.inj ht ▸ h.leaveWait
  · obtain rfl := Option.some.inj hstep
    exact h.congr ⟨h.exclusive.parsing, h.exclusive.connect⟩ h.fault rfl rfl id id
  · obtain ⟨-, ht⟩ := Option.ite_none_right_eq_some.mp hstep
    obtain rfl := Option.some.inj ht
    exact h.congr ⟨h.exclusive.parsing, h.exclusive.connect⟩ h.fault rfl rfl id id
  · cases hstep

/-- `WaitForMultipleObjects` has returned. -/
theorem Follows.dispatch (he : env.Stores) (hst : st.Starts) (h : Follows st s bs)
    (hplace : s.place = .waiting) (hlen : bs.flatten.length < 2 ^ 31)
    (hfuel : bs.flatten.length < fuel)
    (hstep : dispatch env fuel s = some t) : Follows st t bs := by
  have hnot : s.place ≠ .parsing := fun hp => Place.noConfusion (hplace.symm.trans hp)
  rcases dispatch_cases hstep with ⟨c, hread, rfl⟩ | ⟨thread, write, peer, hthread, rfl⟩ |
    ⟨hconnect, rfl⟩
  · have hbusy := Overlapped.ne_idle_of_signaled hread
    have hidle : s.connect = .idle := by
      by_contra hconnect
      exact hbusy (h.exclusive.connect hconnect)
    obtain ⟨fs, hfs, hfetched⟩ := h.fetched
    have hbs : bs = fs ++ [c] := by
      rw [hfs, System.unfetched, hread]
      rfl
    rw [hbs, List.flatten_append, List.flatten_singleton] at hlen hfuel
    obtain ⟨thread, ⟨hnext, hfetch⟩ | ⟨hnext, hfetch⟩⟩ :=
      hfetched.fetch he hst ⟨hnot, Or.inl hplace⟩ hlen hfuel
    · rw [hfetch]
      exact ⟨⟨fun hp => Place.noConfusion hp, fun hc => absurd hidle hc⟩,
        fun _ => Place.noConfusion, fs ++ [c], hbs.trans (List.append_nil _).symm,
        ⟨hnext.passes, hnext.parses⟩⟩
    · rw [hfetch]
      exact ⟨⟨fun _ => ⟨rfl, hidle⟩, fun _ => rfl⟩, fun _ => Place.noConfusion, fs ++ [c],
        hbs.trans (List.append_nil _).symm, ⟨hnext.passes, hnext.parses⟩⟩
  · refine h.congr ⟨fun hp => Place.noConfusion hp, h.exclusive.connect⟩
      (fun _ => Place.noConfusion) rfl ?_ (fun hp => Place.noConfusion hp)
      fun _ => ⟨hnot, Or.inl hplace⟩
    rcases hthread with rfl | rfl
    · rfl
    · rfl
  · have hidle := h.exclusive.connect (Overlapped.ne_idle_of_signaled hconnect)
    exact h.congr ⟨fun hp => Place.noConfusion hp, fun hc => absurd rfl hc⟩
      (fun _ => Place.noConfusion) (unfetched_of_idle hidle).symm rfl
      (fun hp => Place.noConfusion hp) fun _ => ⟨hnot, Or.inl hplace⟩

/-- A turn of the loop of `process_data`, or its end. -/
theorem Follows.parsing (he : env.Stores) (hv : st.view.Ready env) (h : Follows st s bs)
    (hplace : s.place = .parsing) (hlen : bs.flatten.length < 2 ^ 31)
    (hfit : RecordsFit (bs.flatten.drop sizeofPcapHdr)) (hstep : threadStep env fuel s = some t) :
    Follows st t bs := by
  obtain ⟨hread, hconnect⟩ := h.exclusive.parsing hplace
  obtain ⟨fs, hfs, hfetched⟩ := h.fetched
  rw [unfetched_of_idle hread, List.append_nil] at hfs
  subst hfs
  have hparses : ¬ st.data.passesThrough := fun hpass => (hfetched.passes hpass).2 hplace
  unfold threadStep at hstep
  rw [hplace] at hstep
  dsimp only at hstep
  by_cases hstop : s.thread.data.process = false
  · rw [if_pos hstop] at hstep
    -- stopped meanwhile: the loop is left without another turn of the parser
    obtain rfl := Option.some.inj hstep
    exact ⟨⟨fun hp => Place.noConfusion hp, fun hc => absurd hconnect hc⟩,
      fun _ => Place.noConfusion, bs, (List.append_nil _).symm,
      hfetched.congr rfl (fun hp => Place.noConfusion hp)
        fun ht => ht.2.elim (fun hwait => Place.noConfusion hwait)
          fun hprocess => Bool.noConfusion (hstop.symm.trans hprocess)⟩
  · rw [if_neg hstop] at hstep
    obtain ⟨done, hs, hearlier, -⟩ := hfetched.parses hparses
    rw [State.resume_eq (Bool.not_eq_false _ ▸ hstop)] at hs
    obtain ⟨go, thread, done', hturn, hnext, hbegin, hleft⟩ := hs.turn he hv hlen hfit
    have hlonger := hearlier.trans (Nat.add_le_add_right hbegin.length_le _)
    rw [hturn] at hstep
    have hresume : thread.resume = thread := State.resume_eq (hnext.ready hv).process
    cases go with
    | false =>
      -- the parser waits for more bytes
      obtain rfl := Option.some.inj hstep
      exact ⟨⟨fun hp => Place.noConfusion hp, fun hc => absurd hconnect hc⟩,
        fun _ => Place.noConfusion, bs, (List.append_nil _).symm,
        ⟨fun hpass => absurd hpass hparses,
          fun _ => ⟨done', hresume.symm ▸ hnext, hlonger, fun _ => hleft rfl⟩⟩⟩
    | true =>
      -- a record was parsed, and the bytes behind it come next
      obtain rfl := Option.some.inj hstep
      refine ⟨⟨fun _ => ⟨hread, hconnect⟩, fun _ => hread⟩, fun _ => Place.noConfusion, bs, ?_,
        ⟨fun hpass => absurd hpass hparses,
          fun _ => ⟨done', hresume.symm ▸ hnext, hlonger, fun ht => absurd rfl ht.1⟩⟩⟩
      exact (unfetched_of_idle (s := { s with thread := thread }) hread).symm ▸
        (List.append_nil bs).symm

/-- Each turn of the thread takes the parser as far as the bytes that it has fetched. -/
theorem Follows.thread (he : env.Stores) (hst : st.Starts) (hv : st.view.Ready env)
    (h : Follows st s bs) (hlen : bs.flatten.length < 2 ^ 31)
    (hfit : RecordsFit (bs.flatten.drop sizeofPcapHdr)) (hfuel : bs.flatten.length < fuel)
    (hstep : threadStep env fuel s = some t) : Follows st t bs := by
  cases hplace : s.place with
  | head =>
    have hnot : s.place ≠ .parsing := fun hp => Place.noConfusion (hplace.symm.trans hp)
    unfold threadStep at hstep
    rw [hplace] at hstep
    obtain rfl := Option.some.inj hstep
    split
    · rename_i hprocess
      exact h.congr ⟨fun hp => Place.noConfusion hp, h.exclusive.connect⟩
        (fun _ => Place.noConfusion) rfl rfl (fun hp => Place.noConfusion hp)
        fun _ => ⟨hnot, Or.inr hprocess⟩
    · exact h.finish hnot
  | waiting =>
    unfold threadStep at hstep
    rw [hplace] at hstep
    exact h.dispatch he hst hplace hlen hfuel hstep
  | parsing => exact h.parsing he hv hplace hlen hfit hstep
  | left =>
    unfold threadStep at hstep
    rw [hplace] at hstep
    cases hstep
  | faulted fault => exact absurd hplace (h.fault fault)

/-- Waiting for a write changes nothing that is followed. -/
theorem Follows.withBlocked (h : Follows st s bs) (blocked : Bool) :
    Follows st { s with blocked := blocked } bs :=
  h.congr ⟨h.exclusive.parsing, h.exclusive.connect⟩ h.fault rfl rfl id id

/-- A read has been completed. -/
theorem Follows.complete (h : Follows st s bs) {buffer : List UInt8} (hread : s.read = .pending) :
    Follows st { s with read := .signaled buffer } (bs ++ [buffer]) := by
  have hbusy := Overlapped.ne_idle_of_pending hread
  obtain ⟨fs, hfs, hfetched⟩ := h.fetched
  have hnone : s.unfetched = [] := by
    rw [System.unfetched, hread]
    rfl
  rw [hnone, List.append_nil] at hfs
  subst hfs
  exact ⟨⟨fun hp => absurd (h.exclusive.parsing hp).1 hbusy,
    fun hc => absurd (h.exclusive.connect hc) hbusy⟩, h.fault, bs, rfl,
    hfetched.congr rfl id id⟩

/-- **What has been fetched is followed** in every step. -/
theorem Follows.of_step (he : env.Stores) (hst : st.Starts) (hv : st.view.Ready env)
    (h : Follows st s bs) {a : Act} (hlen : bs.flatten.length < 2 ^ 31)
    (hfit : RecordsFit (bs.flatten.drop sizeofPcapHdr)) (hfuel : bs.flatten.length < fuel)
    (hstep : step env fuel s a = some t) : Follows st t (bs ++ a.buffer.toList) := by
  have hnil {u : System} (hu : Follows st u bs) : Follows st u (bs ++ []) :=
    (List.append_nil bs).symm ▸ hu
  cases a with
  | complete buffer =>
    -- the one action that adds a buffer: the driver completes the pending read
    obtain ⟨read, hread, rfl⟩ := Option.map_eq_some_iff.mp hstep
    obtain ⟨hpending, rfl⟩ := Overlapped.complete_eq_some.mp hread
    exact h.complete hpending
  | thread =>
    -- whether a write blocks changes nothing in what has been read
    obtain ⟨u, blocked, hu, rfl⟩ := step_thread (.inl rfl) hstep
    exact hnil ((h.thread he hst hv hlen hfit hfuel hu).withBlocked blocked)
  | threadBlocks =>
    obtain ⟨u, blocked, hu, rfl⟩ := step_thread (.inr rfl) hstep
    exact hnil ((h.thread he hst hv hlen hfit hfuel hu).withBlocked blocked)
  | main =>
    exact hnil (h.main hstep)
  | waitFails =>
    obtain ⟨⟨hplace, -⟩, ht⟩ := Option.ite_none_right_eq_some.mp hstep
    obtain rfl := Option.some.inj ht
    exact hnil (h.finish fun hp => Place.noConfusion (hplace.symm.trans hp))
  | quit =>
    obtain ⟨-, ht⟩ := Option.ite_none_right_eq_some.mp hstep
    obtain rfl := Option.some.inj ht
    exact hnil h.leaveWait
  | refuse =>
    -- the next read is refused, so nothing is pending and nothing is unfetched
    obtain ⟨hread, ht⟩ := Option.ite_none_right_eq_some.mp hstep
    obtain rfl := Option.some.inj ht
    refine hnil (h.congr ⟨fun hp => ⟨rfl, (h.exclusive.parsing hp).2⟩, fun _ => rfl⟩ h.fault ?_
      rfl id id)
    rw [System.unfetched, System.unfetched, hread]
    rfl
  | connected =>
    -- the elevated side waits for its pipe, so no read is pending
    obtain ⟨connect, hconnect, rfl⟩ := Option.map_eq_some_iff.mp hstep
    obtain ⟨hpending, rfl⟩ := Overlapped.complete_eq_some.mp hconnect
    have hbusy := Overlapped.ne_idle_of_pending hpending
    exact hnil (h.congr ⟨fun hp => absurd (h.exclusive.parsing hp).2 hbusy,
      fun _ => h.exclusive.connect hbusy⟩ h.fault rfl rfl id id)
  | peer broken =>
    -- what the worker's pipe does leaves the reads alone
    obtain ⟨peer, -, rfl⟩ := Option.map_eq_some_iff.mp hstep
    exact hnil (h.congr ⟨h.exclusive.parsing, h.exclusive.connect⟩ h.fault rfl rfl id id)
  | written =>
    obtain rfl := Option.some.inj hstep
    exact hnil (h.congr ⟨h.exclusive.parsing, h.exclusive.connect⟩ h.fault rfl rfl id id)
  | writeEnds =>
    obtain ⟨-, ht⟩ := Option.ite_none_right_eq_some.mp hstep
    obtain rfl := Option.some.inj ht
    exact hnil (h.withBlocked false)

/-- Nothing has been fetched at the start. -/
theorem fetched_start (hst : st.Starts) {s : System} (hresume : s.thread.resume = st)
    (hplace : s.place ≠ .parsing) : Fetched st s [] where
  passes hpass := ⟨hresume.symm ▸ Passes.nil (hst.passing hpass), hplace⟩
  parses _ := by
    refine ⟨[], hresume.symm ▸ Partway.nil hst.parser, Nat.zero_le _, fun _ => ?_⟩
    change leftover [] = s.thread.resume.parser.bytes
    rw [hresume, hst.parser]
    rfl

/-- So the thread has done nothing yet. -/
theorem follows_start (setup : Setup) (hst : st.Starts) : Follows st (start setup st) [] := by
  have hresume : st.resume = st := State.resume_eq hst.process
  unfold start
  dsimp only
  split
  · exact ⟨⟨fun hp => Place.noConfusion hp, fun hc => absurd rfl hc⟩, fun _ => Place.noConfusion,
      [], rfl, fetched_start hst hresume Place.noConfusion⟩
  · split
    · exact ⟨⟨fun hp => Place.noConfusion hp, fun hc => absurd rfl hc⟩, fun _ => Place.noConfusion,
        [], rfl, fetched_start hst hresume Place.noConfusion⟩
    · exact ⟨⟨fun hp => Place.noConfusion hp, fun _ => rfl⟩, fun _ => Place.noConfusion,
        [], rfl, fetched_start hst hresume Place.noConfusion⟩
    · exact ⟨⟨fun hp => Place.noConfusion hp, fun _ => rfl⟩, fun _ => Place.noConfusion,
        [], rfl, fetched_start hst hresume Place.noConfusion⟩
    · exact ⟨⟨fun hp => Place.noConfusion hp, fun _ => rfl⟩, fun _ => Place.noConfusion,
        [], rfl, fetched_start hst hresume Place.noConfusion⟩

/-- The bytes that come last are the last read. -/
theorem reads_concat (acts : List Act) (a : Act) :
    reads (acts ++ [a]) = reads acts ++ a.buffer.toList := by
  unfold reads
  rw [List.filterMap_append]
  cases h : a.buffer with
  | none => rw [List.filterMap_cons_none h, List.filterMap_nil, Option.toList_none]
  | some buffer => rw [List.filterMap_cons_some h, List.filterMap_nil, Option.toList_some]

/-- The invariant holds in every run on a stream that fits. -/
theorem follows_run (he : env.Stores) (hst : st.Starts) (hv : st.view.Ready env) {setup : Setup}
    {acts : List Act} (hrun : run (step env fuel) (start setup st) acts = some s)
    (hlen : (reads acts).flatten.length < 2 ^ 31)
    (hfit : RecordsFit ((reads acts).flatten.drop sizeofPcapHdr))
    (hfuel : (reads acts).flatten.length < fuel) : Follows st s (reads acts) := by
  revert hlen hfit hfuel
  refine run_induction (P := fun acts s => (reads acts).flatten.length < 2 ^ 31 →
    RecordsFit ((reads acts).flatten.drop sizeofPcapHdr) → (reads acts).flatten.length < fuel →
      Follows st s (reads acts)) (fun _ _ _ => follows_start setup hst) ?_ hrun
  intro acts s a t _ ih hstep
  rw [reads_concat, List.flatten_append, List.length_append, List.drop_append]
  intro hlen hfit hfuel
  have hlen' := Nat.lt_of_le_of_lt (Nat.le_add_right _ _) hlen
  have hfuel' := Nat.lt_of_le_of_lt (Nat.le_add_right _ _) hfuel
  exact (ih hlen' hfit.of_append hfuel').of_step he hst hv hlen' hfit.of_append hfuel' hstep

/-- What the thread has made of the buffers. -/
theorem Follows.outcome (h : Follows st s bs) :
    ∃ fetched x, bs = fetched ++ s.unfetched ∧ x <+: fetched.flatten ∧
      (s.Settled → x = fetched.flatten) ∧
      fetched.dropLast.flatten.length ≤ x.length + (leftover fetched.dropLast.flatten).length ∧
      s.thread.output = (st.outcomeOf x).output ∧
      s.thread.data.triggered = (st.outcomeOf x).triggered ∧
      s.thread.data.droppedPackets = (st.outcomeOf x).droppedPackets := by
  obtain ⟨fs, hfs, hfetched⟩ := h.fetched
  have hshort : fs.dropLast.flatten.length ≤
      fs.flatten.length + (leftover fs.dropLast.flatten).length :=
    fs.dropLast_prefix.flatten.length_le.trans (Nat.le_add_right _ _)
  by_cases hpass : st.data.passesThrough
  · have hs := (hfetched.passes hpass).1
    have htriggered : s.thread.resume.data.triggered = st.data.triggered := by rw [hs.data]
    have hdropped : s.thread.resume.data.droppedPackets = st.data.droppedPackets := by rw [hs.data]
    refine ⟨fs, fs.flatten, hfs, List.prefix_rfl, fun _ => rfl, hshort, ?_⟩
    rw [State.outcomeOf, if_pos hpass]
    exact ⟨hs.output, htriggered, hdropped⟩
  · obtain ⟨done, hs, hearlier, hleft⟩ := hfetched.parses hpass
    have hbegin : done <+: fs.flatten := ⟨s.thread.resume.parser.bytes, hs.bytes⟩
    by_cases hsettled : s.Settled
    · refine ⟨fs, fs.flatten, hfs, List.prefix_rfl, fun _ => rfl, hshort, ?_⟩
      rw [State.outcomeOf, if_neg hpass, hs.read_eq (hleft hsettled), ← hs.view]
      exact ⟨rfl, rfl, rfl⟩
    · refine ⟨fs, done, hfs, hbegin, fun ht => absurd ht hsettled, hearlier, ?_⟩
      rw [State.outcomeOf, if_neg hpass, ← hs.view]
      exact ⟨rfl, rfl, rfl⟩

/-- The key is pressed when the first of two records in a buffer has been processed. -/
def stopActs : List Act :=
  [.thread, .complete (sampleHdr ++ sampleRecord 0x81 ++ sampleRecord 0x81), .thread, .thread,
    .quit, .main, .thread, .thread, .main]

end Runs

end EventLoop

end UsbPcap.Cmd
