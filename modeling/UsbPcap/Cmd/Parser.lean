import UsbPcap.Cmd.Output

/-!
# The parser's loop

The loop of `process_data` takes the complete records off the pending bytes, processes them in
order, and keeps the rest. `Reads v s x` says what that amounts to over a whole stream: a thread
that started with the view `v` and was given the stream `x`, in whatever pieces, is in the state
`s`. `Reads.processData` is the step, `Reads.readThread` the run.
-/

namespace UsbPcap.Format

/-- `incl_len` of every record leaves room for the record header in 32 bits. The header of an
unfinished last record counts as well. -/
structure RecordsFit (xs : List UInt8) : Prop where
  complete : ∀ r ∈ (recordFraming.split xs).1, inclLen r ≤ 2 ^ 32 - 17
  unfinished : 16 ≤ (recordFraming.split xs).2.length →
    inclLen (recordFraming.split xs).2 ≤ 2 ^ 32 - 17

/-- What fits still fits behind its first record. -/
theorem RecordsFit.drop {xs : List UInt8} (h : RecordsFit xs) {n : ℕ}
    (hn : recordFraming.frameLen xs = some n) : RecordsFit (xs.drop n) := by
  obtain ⟨hc, hu⟩ := h
  rw [Framing.split_of_some hn] at hc hu
  exact ⟨fun r hr => hc r (List.mem_cons_of_mem _ hr), hu⟩

/-- The unfinished rest fits with what comes after it. -/
theorem RecordsFit.rest_append {xs ys : List UInt8} (h : RecordsFit (xs ++ ys)) :
    RecordsFit ((recordFraming.split xs).2 ++ ys) := by
  obtain ⟨hc, hu⟩ := h
  rw [Framing.split_append] at hc hu
  exact ⟨fun r hr => hc r (List.mem_append_right _ hr), hu⟩

/-- And so does the beginning. -/
theorem RecordsFit.of_append {xs ys : List UInt8} (h : RecordsFit (xs ++ ys)) : RecordsFit xs := by
  obtain ⟨hc, hu⟩ := h
  rw [Framing.split_append] at hc hu
  refine ⟨fun r hr => hc r (List.mem_append_left _ hr), fun hlen => ?_⟩
  generalize (recordFraming.split xs).2 = rest at hc hu hlen ⊢
  have hsame : inclLen (rest ++ ys) = inclLen rest := field_append (by omega) ys
  rw [← hsame]
  -- the unfinished record is completed by what follows, or still unfinished
  cases hf : recordFraming.frameLen (rest ++ ys) with
  | none =>
    rw [Framing.split_of_none hf, List.length_append] at hu
    exact hu (by omega)
  | some n =>
    rw [Framing.split_of_some hf] at hc
    have hn := (recordLen_eq_some.mp hf).2.1
    rw [← show inclLen ((rest ++ ys).take n) = inclLen (rest ++ ys) from field_take (by omega) _]
    exact hc _ (List.mem_append_right _ List.mem_cons_self)

/-- A sequence of complete records splits into these records. -/
theorem split_records {rs : List (List UInt8)} (hrs : ∀ r ∈ rs, recordFraming.IsFrame r) :
    recordFraming.split rs.flatten = (rs, []) := by
  have h := Framing.split_flatten_append hrs []
  rwa [List.append_nil, Framing.split_of_none recordLen_nil, List.append_nil] at h

/-- Complete records in less than 2^31 bytes have lengths that fit. -/
theorem RecordsFit.flatten {rs : List (List UInt8)} (hrs : ∀ r ∈ rs, recordFraming.IsFrame r)
    (hlen : rs.flatten.length < 2 ^ 31) : RecordsFit rs.flatten := by
  have hsplit := split_records hrs
  refine ⟨fun r hr => ?_, fun h => ?_⟩
  · rw [hsplit] at hr
    have hle : r.length ≤ rs.flatten.length := (List.sublist_flatten_of_mem hr).length_le
    have hincl := (isFrame_record.mp (hrs r hr)).2
    omega
  · rw [hsplit, List.length_nil] at h
    omega

end UsbPcap.Format

namespace UsbPcap.Cmd

open Format

variable {env : Env}

/-! ## The loop -/

/-- Behind the global header, the loop waits for a record header. -/
theorem parseLoop_short {s : State} (hp : s.data.process = true)
    (hhave : s.parser.havePcapHeader = true) (hshort : s.parser.pendingLen < 16) (fuel : ℕ) :
    parseLoop env (fuel + 1) s = .ok s := by
  rw [parseLoop, hp, if_neg Bool.true_eq_false.mp, hhave,
    if_neg (fun h => Bool.true_eq_false.mp h.1)]
  dsimp only
  rw [if_neg Bool.true_eq_false.mp, hhave, if_neg Bool.true_eq_false.mp, if_pos hshort]

/-- Behind a record header, it waits for the rest of the record. -/
theorem parseLoop_incomplete {s : State} (hp : s.data.process = true)
    (hhave : s.parser.havePcapHeader = true) (hlong : ¬ s.parser.pendingLen < 16)
    (hshort : s.parser.pendingLen < 16 + UInt32.ofNat (inclLen s.parser.pending)) (fuel : ℕ) :
    parseLoop env (fuel + 1) s = .ok s := by
  rw [parseLoop, hp, if_neg Bool.true_eq_false.mp, hhave,
    if_neg (fun h => Bool.true_eq_false.mp h.1)]
  dsimp only
  rw [if_neg Bool.true_eq_false.mp, hhave, if_neg Bool.true_eq_false.mp, if_neg hlong,
    if_pos hshort]

/-- A record that is complete is processed and discarded. -/
theorem parseLoop_complete {s t : State} (hp : s.data.process = true)
    (hhave : s.parser.havePcapHeader = true) (hlong : ¬ s.parser.pendingLen < 16)
    {total : UInt32} (htotal : 16 + UInt32.ofNat (inclLen s.parser.pending) = total)
    (hcomplete : ¬ s.parser.pendingLen < total)
    (ht : processRecord env s total = .ok (true, t)) (fuel : ℕ) :
    parseLoop env (fuel + 1) s =
      parseLoop env fuel { t with parser := discardPending t.parser total } := by
  rw [parseLoop, hp, if_neg Bool.true_eq_false.mp, hhave,
    if_neg (fun h => Bool.true_eq_false.mp h.1)]
  dsimp only
  rw [if_neg Bool.true_eq_false.mp, hhave, if_neg Bool.true_eq_false.mp, if_neg hlong, htotal,
    if_neg hcomplete, ht]

/-- The length of a record of the pending bytes does not wrap around. -/
theorem toNat_totalLength {n : ℕ} (h : n ≤ 2 ^ 32 - 17) :
    (16 + UInt32.ofNat n).toNat = 16 + n := by
  rw [UInt32.toNat_add, UInt32.toNat_ofNat']
  change (16 + n % 2 ^ 32) % 2 ^ 32 = 16 + n
  omega

/-- The block starts with the pending bytes. -/
theorem PacketParserContext.pending_eq (ctx : PacketParserContext) :
    ctx.pending = ctx.bytes ++ ctx.pending.drop ctx.pendingLen.toNat :=
  (List.take_append_drop _ _).symm

/-- The length field is read from the used part of the block. -/
theorem inclLen_pending {ctx : PacketParserContext} (h : 16 ≤ ctx.bytes.length) :
    inclLen ctx.pending = inclLen ctx.bytes := by
  rw [ctx.pending_eq]
  exact field_append (by omega) _

/-- Without a complete record the loop waits for the next read. -/
theorem parseLoop_none {s : State} (hv : s.view.Ready env) (hb : BufferOk s.parser)
    (hhave : s.parser.havePcapHeader = true) (hnone : recordFraming.frameLen s.parser.bytes = none)
    (hfit : RecordsFit s.parser.bytes) (fuel : ℕ) : parseLoop env (fuel + 1) s = .ok s := by
  have hlen := hb.length_bytes
  by_cases h16 : s.parser.pendingLen < 16
  · exact parseLoop_short hv.process hhave h16 fuel
  · have h16' : 16 ≤ s.parser.bytes.length := by
      rw [UInt32.lt_iff_toNat_lt] at h16
      rw [hlen]
      exact Nat.le_of_not_lt h16
    have hincl := hfit.unfinished
    rw [Framing.split_of_none hnone] at hincl
    have htotal := toNat_totalLength (hincl h16')
    apply parseLoop_incomplete hv.process hhave h16
    rw [inclLen_pending h16', UInt32.lt_iff_toNat_lt, htotal, ← hlen]
    by_contra hcomplete
    have hsome : recordFraming.frameLen s.parser.bytes = some (16 + inclLen s.parser.bytes) :=
      (if_neg (Nat.not_lt.mpr h16')).trans (if_neg hcomplete)
    rw [hnone] at hsome
    cases hsome

/-- The loop processes a complete record and takes it off the pending bytes. -/
theorem parseLoop_some (he : env.Stores) {s : State} (hv : s.view.Ready env)
    (hb : BufferOk s.parser) (hhave : s.parser.havePcapHeader = true)
    (hlen : s.parser.bytes.length < 2 ^ 31) {n : ℕ}
    (hsome : recordFraming.frameLen s.parser.bytes = some n) (fuel : ℕ) :
    ∃ t, parseLoop env (fuel + 1) s = parseLoop env fuel t ∧ BufferOk t.parser ∧
      t.parser.havePcapHeader = true ∧ t.parser.bytes = s.parser.bytes.drop n ∧
      t.view = s.view.record (s.parser.bytes.take n) := by
  obtain ⟨h16, hn, hle⟩ := recordLen_eq_some.mp hsome
  have htotal : (16 + UInt32.ofNat (inclLen s.parser.pending)).toNat = n := by
    rw [inclLen_pending h16, toNat_totalLength (by omega), hn]
  have htake : (s.parser.bytes.take n).length = n := by
    rw [List.length_take, Nat.min_eq_left hle]
  have hframe : recordFraming.IsFrame (s.parser.bytes.take n) := by
    unfold Framing.IsFrame
    rw [recordFraming.take hsome, htake]
  have hpend : s.parser.pending = s.parser.bytes.take n ++
      (s.parser.bytes.drop n ++ s.parser.pending.drop s.parser.pendingLen.toNat) := by
    rw [← List.append_assoc, List.take_append_drop]
    exact s.parser.pending_eq
  have hbytes := hb.length_bytes
  have hlong : ¬ s.parser.pendingLen < 16 := by
    rw [UInt32.lt_iff_toNat_lt]
    change ¬ s.parser.pendingLen.toNat < 16
    omega
  generalize htot : 16 + UInt32.ofNat (inclLen s.parser.pending) = total at htotal
  have hcomplete : ¬ s.parser.pendingLen < total := by
    rw [UInt32.lt_iff_toNat_lt]
    omega
  obtain ⟨k, hk⟩ := processRecord_ok he hv hhave hframe hpend (htotal.trans htake.symm)
  obtain ⟨hdisc, hrest⟩ := discardPending_ok
    (show BufferOk (s.withView (s.view.record (s.parser.bytes.take n)) k).parser from
      ⟨hb.block, hb.fits⟩)
    (show total.toNat ≤ s.parser.pendingLen.toNat by omega)
  refine ⟨_, parseLoop_complete hv.process hhave hlong htot hcomplete hk fuel, hdisc, hhave, ?_,
    rfl⟩
  rw [hrest, htotal]
  rfl

/-- **The loop processes the complete records of the pending bytes in order, and keeps the
rest.** -/
theorem parseLoop_ok (he : env.Stores) {fuel : ℕ} {s : State} (hv : s.view.Ready env)
    (hb : BufferOk s.parser) (hhave : s.parser.havePcapHeader = true)
    (hlen : s.parser.bytes.length < 2 ^ 31) (hfit : RecordsFit s.parser.bytes)
    (hfuel : s.parser.bytes.length < fuel) :
    ∃ t, parseLoop env fuel s = .ok t ∧ BufferOk t.parser ∧ t.parser.havePcapHeader = true ∧
      t.parser.bytes = (recordFraming.split s.parser.bytes).2 ∧
      t.view = (recordFraming.split s.parser.bytes).1.foldl View.record s.view := by
  induction fuel generalizing s with
  | zero => exact absurd hfuel (Nat.not_lt_zero _)
  | succ fuel ih =>
    cases hf : recordFraming.frameLen s.parser.bytes with
    | none =>
      rw [parseLoop_none hv hb hhave hf hfit, Framing.split_of_none hf]
      exact ⟨s, rfl, hb, hhave, rfl, rfl⟩
    | some n =>
      obtain ⟨t, ht, hbt, hhavet, hbytes, hview⟩ := parseLoop_some he hv hb hhave hlen hf fuel
      have hpos := recordFraming.pos hf
      have hle := recordFraming.le_length hf
      have hdrop : t.parser.bytes.length = s.parser.bytes.length - n := by
        rw [hbytes, List.length_drop]
      rw [ht, Framing.split_of_some hf, ← hbytes, List.foldl_cons, ← hview]
      apply ih _ hbt hhavet
      · omega
      · rw [hbytes]
        exact hfit.drop hf
      · omega
      · rw [hview]
        exact s.view.ready_record hv _

/-! ## The global header -/

/-- The loop waits for the rest of the global header. -/
theorem parseLoop_waits {s : State} (hhave : s.parser.havePcapHeader = false)
    (hshort : s.parser.pendingLen.toNat < 24) (fuel : ℕ) : parseLoop env (fuel + 1) s = .ok s := by
  have hfew : ¬ (24 ≤ s.parser.pendingLen) := by
    rw [UInt32.le_iff_toNat_le]
    exact Nat.not_le.mpr hshort
  rw [parseLoop]
  split
  · rfl
  · rw [if_neg fun h => hfew h.2]
    dsimp only
    rw [if_neg Bool.true_eq_false.mp, if_pos hhave]

/-- The global header is taken from the front and written. -/
theorem takePcapHeader_ok (he : env.Stores) {s : State} (hv : s.view.Ready env)
    (hb : BufferOk s.parser) (hlong : 24 ≤ s.parser.pendingLen.toNat) :
    ∃ t, takePcapHeader env s = (true, t) ∧ BufferOk t.parser ∧ t.parser.havePcapHeader = true ∧
      t.parser.bytes = s.parser.bytes.drop 24 ∧
      t.view = s.view.header (s.parser.bytes.take 24) := by
  obtain ⟨hdisc, hrest⟩ := discardPending_ok
    (show BufferOk { s.parser with pcapHeader := s.parser.pending.take sizeofPcapHdr } from
      ⟨hb.block, hb.fits⟩) (n := 24) hlong
  have htake : s.parser.bytes.take 24 = s.parser.pending.take sizeofPcapHdr := by
    unfold PacketParserContext.bytes
    rw [List.take_take, Nat.min_eq_left hlong]
    rfl
  unfold takePcapHeader View.header
  dsimp only
  rw [htake]
  obtain ⟨n, hn⟩ := beginOutputStream_if he (s := { s with
    parser := { discardPending { s.parser with
      pcapHeader := s.parser.pending.take sizeofPcapHdr } 24 with havePcapHeader := true } })
    hv.opens rfl (s.data.storeMode = storeModeImmediate)
  rw [hn]
  exact ⟨_, rfl, ⟨hdisc.block, hdisc.fits⟩, rfl, hrest, rfl⟩

/-- A loop that takes the global header goes on behind it. -/
theorem parseLoop_header (he : env.Stores) {s : State} (hv : s.view.Ready env)
    (hb : BufferOk s.parser) (hhave : s.parser.havePcapHeader = false)
    (hlong : 24 ≤ s.parser.pendingLen.toNat) (fuel : ℕ) :
    ∃ t, parseLoop env (fuel + 1) s = parseLoop env (fuel + 1) t ∧ BufferOk t.parser ∧
      t.parser.havePcapHeader = true ∧ t.parser.bytes = s.parser.bytes.drop 24 ∧
      t.view = s.view.header (s.parser.bytes.take 24) := by
  obtain ⟨t, ht, hbt, hhavet, hbytes, hview⟩ := takePcapHeader_ok he hv hb hlong
  refine ⟨t, ?_, hbt, hhavet, hbytes, hview⟩
  have hprocess : t.data.process = true := by
    change t.view.data.process = true
    rw [hview]
    exact (s.view.ready_header hv _).process
  have hrunning : ¬ s.data.process = false := by
    rw [show s.data.process = true from hv.process]
    exact Bool.true_eq_false.mp
  have hrunning' : ¬ t.data.process = false := by
    rw [hprocess]
    exact Bool.true_eq_false.mp
  have htaken : ¬ (t.parser.havePcapHeader = false ∧ 24 ≤ t.parser.pendingLen) := by
    rw [hhavet]
    exact fun h => Bool.true_eq_false.mp h.1
  rw [parseLoop, parseLoop, if_neg hrunning, if_neg hrunning', if_neg htaken,
    if_pos ⟨hhave, UInt32.le_iff_toNat_le.mpr hlong⟩, ht]

/-! ## Whole streams -/

/-- The view after a stream, of which the complete records have been processed. -/
def View.read (v : View) (x : List UInt8) : View :=
  if x.length < sizeofPcapHdr then v
  else (recordFraming.split (x.drop sizeofPcapHdr)).1.foldl View.record
    (v.header (x.take sizeofPcapHdr))

/-- The bytes of a stream that are still pending. -/
def leftover (x : List UInt8) : List UInt8 :=
  if x.length < sizeofPcapHdr then x else (recordFraming.split (x.drop sizeofPcapHdr)).2

/-- The state `s` of a thread that started with the view `v` and was given the stream `x`. -/
structure Reads (v : View) (s : State) (x : List UInt8) : Prop where
  buffer : BufferOk s.parser
  header : s.parser.havePcapHeader = decide (sizeofPcapHdr ≤ x.length)
  pending : s.parser.bytes = leftover x
  view : s.view = v.read x

/-- Reading changes no setting. -/
theorem View.config_read (v : View) (x : List UInt8) : (v.read x).data.config = v.data.config := by
  unfold View.read
  split
  · rfl
  · exact (View.config_foldl_record _ _).trans (v.config_header _)

/-- And keeps the view ready. -/
theorem View.ready_read {v : View} (hv : v.Ready env) (x : List UInt8) : (v.read x).Ready env := by
  unfold View.read
  split
  · exact hv
  · exact View.ready_foldl_record (v.ready_header hv _) _

/-- A stream can be read in two parts. -/
theorem View.read_append {x : List UInt8} (hx : sizeofPcapHdr ≤ x.length) (v : View)
    (c : List UInt8) :
    v.read (x ++ c) = (recordFraming.split (leftover x ++ c)).1.foldl View.record (v.read x) := by
  unfold View.read leftover
  rw [if_neg (Nat.not_lt.mpr hx), if_neg (Nat.not_lt.mpr hx), List.length_append, if_neg (by omega),
    List.drop_append_of_le_length hx, List.take_append_of_le_length hx, Framing.split_append,
    List.foldl_append]

/-- What is left of it is what is left of the second part. -/
theorem leftover_append {x : List UInt8} (hx : sizeofPcapHdr ≤ x.length) (c : List UInt8) :
    leftover (x ++ c) = (recordFraming.split (leftover x ++ c)).2 := by
  unfold leftover
  rw [if_neg (Nat.not_lt.mpr hx), List.length_append, if_neg (by omega),
    List.drop_append_of_le_length hx, Framing.split_append]

/-- Nothing is left that was not read. -/
theorem length_leftover_le (x : List UInt8) : (leftover x).length ≤ x.length := by
  unfold leftover
  split
  · exact Nat.le_refl _
  · have h := congrArg List.length (recordFraming.flatten_split (x.drop sizeofPcapHdr))
    rw [List.length_append, List.length_drop] at h
    omega

/-- A stream that starts a thread's view is empty. -/
theorem Reads.nil {s : State} (hs : s.parser = .zero) : Reads s.view s [] := by
  refine ⟨?_, ?_, ?_, rfl⟩
  · rw [hs]
    exact bufferOk_zero
  · rw [hs]
    rfl
  · rw [hs]
    rfl

/-- The loop over what a read has appended. -/
theorem parseLoop_reads (he : env.Stores) {v : View} (hv : v.Ready env) {s : State}
    {x c : List UInt8} (hb : BufferOk s.parser)
    (hhave : s.parser.havePcapHeader = decide (sizeofPcapHdr ≤ x.length))
    (hpend : s.parser.bytes = leftover x ++ c) (hview : s.view = v.read x)
    (hlen : (x ++ c).length < 2 ^ 31) (hfit : RecordsFit ((x ++ c).drop sizeofPcapHdr)) {fuel : ℕ}
    (hfuel : (x ++ c).length < fuel) :
    ∃ t, parseLoop env fuel s = .ok t ∧ Reads v t (x ++ c) := by
  have hready : s.view.Ready env := by
    rw [hview]
    exact v.ready_read hv x
  have hshort := length_leftover_le x
  have hbytes : s.parser.bytes.length ≤ (x ++ c).length := by
    rw [hpend, List.length_append, List.length_append]
    omega
  obtain ⟨fuel, rfl⟩ := Nat.exists_eq_succ_of_ne_zero (Nat.ne_zero_of_lt hfuel)
  by_cases hx : sizeofPcapHdr ≤ x.length
  · -- the header is there: only records arrive
    have hhave' : s.parser.havePcapHeader = true := hhave.trans (decide_eq_true hx)
    have hrest : RecordsFit s.parser.bytes := by
      rw [List.drop_append_of_le_length hx] at hfit
      rw [hpend, leftover, if_neg (Nat.not_lt.mpr hx)]
      exact hfit.rest_append
    obtain ⟨t, ht, hbt, hhavet, hbytest, hviewt⟩ :=
      parseLoop_ok he hready hb hhave' (by omega) hrest
        (show s.parser.bytes.length < fuel + 1 by omega)
    refine ⟨t, ht, hbt, ?_, ?_, ?_⟩
    · rw [hhavet, List.length_append]
      exact (decide_eq_true (by omega)).symm
    · rw [hbytest, hpend, leftover_append hx]
    · rw [hviewt, hpend, hview, View.read_append hx]
  · have hhave' : s.parser.havePcapHeader = false := hhave.trans (decide_eq_false hx)
    have hall : s.parser.bytes = x ++ c := by
      rw [hpend, leftover, if_pos (Nat.lt_of_not_le hx)]
    have hv' : s.view = v := by
      rw [hview, View.read, if_pos (Nat.lt_of_not_le hx)]
    have hlength : s.parser.pendingLen.toNat = (x ++ c).length := by
      rw [← hb.length_bytes, hall]
    by_cases hxc : (x ++ c).length < sizeofPcapHdr
    · refine ⟨s, parseLoop_waits hhave' (by rw [hlength]; exact hxc) fuel, hb, ?_, ?_, ?_⟩
      · rw [hhave']
        exact (decide_eq_false (Nat.not_le.mpr hxc)).symm
      · rw [hall, leftover, if_pos hxc]
      · rw [hv', View.read, if_pos hxc]
    · -- the read completes the header
      obtain ⟨u, hu, hbu, hhaveu, hbytesu, hviewu⟩ := parseLoop_header he hready hb hhave'
        (by rw [hlength]; exact Nat.le_of_not_lt hxc) fuel
      rw [hall] at hbytesu hviewu
      have hready' : u.view.Ready env := by
        rw [hviewu]
        exact s.view.ready_header hready _
      have hdrop : u.parser.bytes.length ≤ (x ++ c).length := by
        rw [hbytesu, List.length_drop]
        omega
      obtain ⟨t, ht, hbt, hhavet, hbytest, hviewt⟩ :=
        parseLoop_ok he hready' hbu hhaveu (by omega) (by rw [hbytesu]; exact hfit)
          (show u.parser.bytes.length < fuel + 1 by omega)
      refine ⟨t, hu.trans ht, hbt, ?_, ?_, ?_⟩
      · rw [hhavet]
        exact (decide_eq_true (Nat.le_of_not_lt hxc)).symm
      · rw [hbytest, hbytesu, leftover, if_neg hxc]
        rfl
      · rw [hviewt, hbytesu, hviewu, hv', View.read, if_neg hxc]
        rfl

/-- **One read.** The state after the stream and a further piece is that after both in one. -/
theorem Reads.processData (he : env.Stores) {v : View} (hv : v.Ready env)
    (hparses : ¬ v.data.passesThrough) {s : State} {x : List UInt8}
    (hs : Reads v s x) (c : List UInt8)
    (hlen : (x ++ c).length < 2 ^ 31) (hfit : RecordsFit ((x ++ c).drop sizeofPcapHdr)) {fuel : ℕ}
    (hfuel : (x ++ c).length < fuel) :
    ∃ t, Cmd.processData env fuel s c = .ok t ∧ Reads v t (x ++ c) := by
  have hconfig : s.data.config = v.data.config := by
    change s.view.data.config = _
    rw [hs.view, View.config_read]
  have hparses' : ¬ s.data.passesThrough := by
    rwa [passesThrough_congr hconfig]
  have hshort := length_leftover_le x
  have hpending : s.parser.pendingLen.toNat = (leftover x).length := by
    rw [← hs.buffer.length_bytes, hs.pending]
  rw [List.length_append] at hlen hfuel
  have hchunk : (UInt32.ofNat c.length).toNat = c.length := by
    rw [UInt32.toNat_ofNat']
    omega
  unfold Cmd.processData
  rw [if_neg hparses']
  obtain ⟨block, capacity, hok, hblock, hroom, htake⟩ :=
    ensurePendingCapacity_ok he hs.buffer (show s.parser.pendingLen.toNat +
      (UInt32.ofNat c.length).toNat < 2 ^ 31 by omega) (show _ < fuel by omega)
  rw [hok]
  dsimp only
  rw [if_neg (by omega)]
  have hb : BufferOk { s.parser with pending := block, pendingCapacity := capacity } :=
    ⟨hblock, by dsimp only; omega⟩
  obtain ⟨hb', hbytes⟩ := appendPending_ok hb (show s.parser.pendingLen.toNat + c.length < 2 ^ 31
    by omega) (show s.parser.pendingLen.toNat + c.length ≤ block.length by omega)
  have hpend := hbytes.trans (congrArg (· ++ c) (htake.trans hs.pending))
  rw [← List.length_append] at hlen hfuel
  generalize hctx : appendPending _ c = ctx at hb' hpend ⊢
  have hhave : ctx.havePcapHeader = s.parser.havePcapHeader := by rw [← hctx]; rfl
  have hview : State.view { s with parser := ctx } = s.view := by rw [← hctx]; rfl
  exact parseLoop_reads he hv (s := { s with parser := ctx }) hb' (hhave.trans hs.header) hpend
    (hview.trans hs.view) hlen hfit hfuel

/-- **A run of reads.** -/
theorem Reads.readThread (he : env.Stores) {v : View} (hv : v.Ready env)
    (hparses : ¬ v.data.passesThrough) {s : State} {x : List UInt8}
    (hs : Reads v s x) {cs : List (List UInt8)}
    (hlen : (x ++ cs.flatten).length < 2 ^ 31)
    (hfit : RecordsFit ((x ++ cs.flatten).drop sizeofPcapHdr)) {fuel : ℕ}
    (hfuel : (x ++ cs.flatten).length < fuel) :
    ∃ t, Cmd.readThread env fuel s cs = .ok t ∧ Reads v t (x ++ cs.flatten) := by
  induction cs generalizing s x with
  | nil =>
    rw [List.flatten_nil, List.append_nil]
    exact ⟨s, rfl, hs⟩
  | cons c cs ih =>
    rw [List.flatten_cons, ← List.append_assoc] at hlen hfit hfuel ⊢
    have hprefix : RecordsFit ((x ++ c).drop sizeofPcapHdr) := by
      rw [List.drop_append] at hfit
      exact hfit.of_append
    have hle : (x ++ c).length ≤ (x ++ c ++ cs.flatten).length :=
      (List.sublist_append_left _ _).length_le
    obtain ⟨t, ht, hst⟩ := hs.processData he hv hparses c (by omega) hprefix
      (show _ < fuel by omega)
    have hprocess : ¬ s.data.process = false := by
      have h := (v.ready_read hv x).process
      rw [← hs.view] at h
      rw [show s.data.process = true from h]
      exact Bool.true_eq_false.mp
    unfold Cmd.readThread
    rw [if_neg hprocess, ht]
    exact ih hst hlen hfit hfuel

end UsbPcap.Cmd
