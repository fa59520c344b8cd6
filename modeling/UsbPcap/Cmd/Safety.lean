import UsbPcap.Cmd.Chunking

/-!
# The record loop on arbitrary bytes

A record's length is `16 + incl_len` in 32 bits. From `incl_len` = 2^32 - 16 on the sum wraps to
less than 16: the loop takes such a record for complete and consumes fewer bytes than its header
has, down to none at all, and then it never ends. `front` is one pass of the loop up to the record
it finds, `Processes` collects the records of a call, and `process_data_safe_iff` says that the wrap
is the only thing that can go wrong, whatever the bytes, the system and the allocator do.
-/

namespace UsbPcap.Cmd

open Format Memory

variable {env : Env}

/-! ## One pass of the loop -/

/-- What a pass of the loop comes to before it processes a record. -/
inductive Front where
  | returns (s : State)
  | record (s : State) (totalLength : UInt32)

/-- One pass of the loop of `process_data`, up to `app_packet_matches`. -/
def front (env : Env) (s : State) : Front :=
  if s.data.process = false then .returns s
  else
    let (go, s) :=
      if s.parser.havePcapHeader = false ∧ 24 ≤ s.parser.pendingLen then takePcapHeader env s
      else (true, s)
    if go = false then .returns s
    else if s.parser.havePcapHeader = false then .returns s
    else if s.parser.pendingLen < 16 then .returns s
    else
      let totalLength := 16 + UInt32.ofNat (inclLen s.parser.pending)
      if s.parser.pendingLen < totalLength then .returns s else .record s totalLength

/-- The state behind a processed record. -/
def State.discard (s : State) (totalLength : UInt32) : State :=
  { s with parser := discardPending s.parser totalLength }

/-- Where the front returns, so does the loop. -/
theorem parseLoop_of_returns {s t : State} (h : front env s = .returns t) (fuel : ℕ) :
    parseLoop env (fuel + 1) s = .ok t := by
  unfold front at h
  unfold parseLoop
  split at h
  · rename_i hstop
    rw [if_pos hstop]
    exact congrArg Except.ok (Front.returns.inj h)
  · rename_i hrun
    rw [if_neg hrun]
    generalize (if s.parser.havePcapHeader = false ∧ 24 ≤ s.parser.pendingLen then
      takePcapHeader env s else (true, s)) = begun at h ⊢
    obtain ⟨go, u⟩ := begun
    dsimp only at h ⊢
    split at h
    · rename_i hgo
      rw [if_pos hgo, Front.returns.inj h]
    · rename_i hgo
      rw [if_neg hgo]
      split at h
      · rename_i hhave
        rw [if_pos hhave, Front.returns.inj h]
      · rename_i hhave
        rw [if_neg hhave]
        split at h
        · rename_i hshort
          rw [if_pos hshort, Front.returns.inj h]
        · rename_i hshort
          rw [if_neg hshort]
          split at h
          · rename_i hpartial
            rw [if_pos hpartial, Front.returns.inj h]
          · cases h

/-- What a pass that finds a record has made sure of. -/
structure FoundRecord (env : Env) (s u : State) (total : UInt32) : Prop where
  running : s.data.process = true
  begun : (if s.parser.havePcapHeader = false ∧ 24 ≤ s.parser.pendingLen then
    takePcapHeader env s else (true, s)) = (true, u)
  have_header : u.parser.havePcapHeader = true
  header_le : 16 ≤ u.parser.pendingLen.toNat
  total_eq : 16 + UInt32.ofNat (inclLen u.parser.pending) = total
  total_le : total.toNat ≤ u.parser.pendingLen.toNat

/-- A record that the front finds has been found. -/
theorem found_of_record {s u : State} {total : UInt32} (h : front env s = .record u total) :
    FoundRecord env s u total := by
  unfold front at h
  split at h
  · cases h
  · rename_i hrun
    generalize hbegun : (if s.parser.havePcapHeader = false ∧ 24 ≤ s.parser.pendingLen then
      takePcapHeader env s else (true, s)) = begun at h
    obtain ⟨go, v⟩ := begun
    dsimp only at h
    split at h
    · cases h
    · rename_i hgo
      split at h
      · cases h
      · rename_i hhave
        split at h
        · cases h
        · rename_i hshort
          split at h
          · cases h
          · rename_i hpartial
            obtain ⟨rfl, rfl⟩ := Front.record.inj h
            rw [UInt32.lt_iff_toNat_lt] at hshort hpartial
            rw [Bool.not_eq_false] at hrun hgo hhave
            rw [hgo] at hbegun
            exact ⟨hrun, hbegun, hhave, Nat.le_of_not_lt hshort, rfl, Nat.le_of_not_lt hpartial⟩

/-- How the loop goes on with the record that a pass has found. -/
theorem FoundRecord.parseLoop {s u : State} {total : UInt32} (h : FoundRecord env s u total)
    (fuel : ℕ) :
    (∀ fault, processRecord env u total = .error fault →
      parseLoop env (fuel + 1) s = .error fault) ∧
    (∀ v, processRecord env u total = .ok (false, v) → parseLoop env (fuel + 1) s = .ok v) ∧
    (∀ v, processRecord env u total = .ok (true, v) →
      parseLoop env (fuel + 1) s = parseLoop env fuel (v.discard total)) := by
  obtain ⟨hrun, hbegun, hhave, hheader, htotal, hle⟩ := h
  have hshort : ¬ u.parser.pendingLen < 16 := by
    rw [UInt32.lt_iff_toNat_lt]
    exact Nat.not_lt.mpr hheader
  have hpartial : ¬ u.parser.pendingLen < total := by
    rw [UInt32.lt_iff_toNat_lt]
    exact Nat.not_lt.mpr hle
  rw [Cmd.parseLoop, if_neg (by rw [hrun]; decide), hbegun]
  dsimp only
  rw [if_neg (by decide), if_neg (by rw [hhave]; decide), if_neg hshort, htotal, if_neg hpartial]
  refine ⟨?_, ?_, ?_⟩
  · intro fault hp
    rw [hp]
  · intro v hp
    rw [hp]
  · intro v hp
    rw [hp]
    rfl

/-! ## What a pass does not change -/

/-- The part of the parser that is its buffer. -/
def PacketParserContext.buffer (ctx : PacketParserContext) : List UInt8 × UInt32 × UInt32 :=
  (ctx.pending, ctx.pendingLen, ctx.pendingCapacity)

/-- Whether the buffer is sound is a question of the buffer. -/
theorem BufferOk.congr {ctx ctx' : PacketParserContext} (h : ctx'.buffer = ctx.buffer)
    (hb : BufferOk ctx) : BufferOk ctx' := by
  obtain ⟨hpending, hrest⟩ := Prod.mk.inj h
  obtain ⟨hlen, hcapacity⟩ := Prod.mk.inj hrest
  exact ⟨by rw [hpending, hcapacity]; exact hb.block, by rw [hlen, hcapacity]; exact hb.fits⟩

/-- So is the number of pending bytes. -/
theorem pendingLen_congr {ctx ctx' : PacketParserContext} (h : ctx'.buffer = ctx.buffer) :
    ctx'.pendingLen = ctx.pendingLen :=
  (Prod.mk.inj (Prod.mk.inj h).2).1

/-- Writing does not touch the parser. -/
theorem writeData_parser_eq (s : State) (bytes : List UInt8) :
    (writeData env s bytes).parser = s.parser := by
  unfold writeData
  dsimp only
  repeat' split
  all_goals rfl

/-- Neither does the header. -/
theorem writeHeader_parser_eq (s : State) (hdr : List UInt8) :
    (writeHeader env s hdr).parser = s.parser := by
  unfold writeHeader
  dsimp only
  split
  · rw [writeData_parser_eq, writeData_parser_eq]
  · exact writeData_parser_eq s hdr

/-- The begin of the output leaves the pending bytes alone. -/
theorem beginOutputStream_buffer (s : State) :
    (beginOutputStream env s).2.parser.buffer = s.parser.buffer := by
  unfold beginOutputStream
  split
  · rfl
  · split
    · rfl
    · split
      · rfl
      · dsimp only
        rw [PacketParserContext.buffer, writeHeader_parser_eq]
        rfl

/-- Also under a condition. -/
theorem beginOutputStream_if_buffer (p : Prop) [Decidable p] (s : State) :
    (if p then beginOutputStream env s else (true, s)).2.parser.buffer = s.parser.buffer := by
  split
  · exact beginOutputStream_buffer s
  · rfl

/-- A record is written out of the buffer, and stays in it. -/
theorem writeRecord_buffer (s : State) (total : UInt32) :
    (writeRecord env s total).2.parser.buffer = s.parser.buffer := by
  unfold writeRecord
  split
  · have hbegin := @beginOutputStream_if_buffer env
      (s.data.storeMode = storeModeImmediate ∧ s.parser.wrotePcapHeader = false) _ s
    generalize (if s.data.storeMode = storeModeImmediate ∧ s.parser.wrotePcapHeader = false then
      beginOutputStream env s else (true, s)) = begun at hbegin ⊢
    obtain ⟨go, u⟩ := begun
    dsimp only at hbegin ⊢
    split
    · exact hbegin
    · rw [← hbegin, PacketParserContext.buffer, writeData_parser_eq]
      rfl
  · rfl

/-- Processing a record leaves the buffer alone. -/
theorem processRecord_buffer {s v : State} {total : UInt32} {go : Bool}
    (h : processRecord env s total = .ok (go, v)) : v.parser.buffer = s.parser.buffer := by
  unfold processRecord at h
  split at h
  · cases h
  · obtain ⟨-, rfl⟩ := Prod.mk.inj (Except.ok.inj h)
    rfl
  · have hbegin := @beginOutputStream_if_buffer env
      (s.data.storeMode = storeModeOnMatch ∧ s.data.triggered = false) _ s
    generalize (if s.data.storeMode = storeModeOnMatch ∧ s.data.triggered = false then
      beginOutputStream env s else (true, s)) = begun at hbegin h
    obtain ⟨go', u⟩ := begun
    dsimp only at hbegin h
    split at h
    · obtain ⟨-, rfl⟩ := Prod.mk.inj (Except.ok.inj h)
      exact hbegin
    · have hv : v = (writeRecord env u total).2 := by
        rw [Except.ok.inj h]
      rw [hv, writeRecord_buffer, hbegin]

/-- Taking the global header out keeps the block and only shortens what is pending. -/
theorem takePcapHeader_bufferOk {s : State} (hb : BufferOk s.parser)
    (hlen : 24 ≤ s.parser.pendingLen) :
    BufferOk (takePcapHeader env s).2.parser ∧
      (takePcapHeader env s).2.parser.pendingLen.toNat ≤ s.parser.pendingLen.toNat := by
  rw [UInt32.le_iff_toNat_le] at hlen
  obtain ⟨hok, -⟩ := @discardPending_ok { s.parser with
    pcapHeader := s.parser.pending.take sizeofPcapHdr } ⟨hb.block, hb.fits⟩ 24 hlen
  have hle : (s.parser.pendingLen - 24).toNat ≤ s.parser.pendingLen.toNat := by
    rw [UInt32.toNat_sub_of_le _ _ (UInt32.le_iff_toNat_le.mpr hlen)]
    exact Nat.sub_le _ _
  unfold takePcapHeader
  dsimp only
  split
  · have hbuffer := @beginOutputStream_buffer env { s with
      parser := { discardPending { s.parser with
        pcapHeader := s.parser.pending.take sizeofPcapHdr } 24 with havePcapHeader := true } }
    refine ⟨BufferOk.congr hbuffer ⟨hok.block, hok.fits⟩, ?_⟩
    rw [pendingLen_congr hbuffer]
    exact hle
  · exact ⟨⟨hok.block, hok.fits⟩, hle⟩

/-- Taking the global header leaves a sound buffer with fewer bytes. -/
theorem takePcapHeader_if_bufferOk {s : State} (hb : BufferOk s.parser) {go : Bool} {u : State}
    (h : (if s.parser.havePcapHeader = false ∧ 24 ≤ s.parser.pendingLen then
      takePcapHeader env s else (true, s)) = (go, u)) :
    BufferOk u.parser ∧ u.parser.pendingLen.toNat ≤ s.parser.pendingLen.toNat := by
  split at h
  · rename_i htake
    have hok := @takePcapHeader_bufferOk env s hb htake.2
    rw [h] at hok
    exact hok
  · rw [← (Prod.mk.inj h).2]
    exact ⟨hb, Nat.le_refl _⟩

/-- So does whatever comes before a record is found. -/
theorem FoundRecord.bufferOk {s u : State} {total : UInt32} (h : FoundRecord env s u total)
    (hb : BufferOk s.parser) :
    BufferOk u.parser ∧ u.parser.pendingLen.toNat ≤ s.parser.pendingLen.toNat :=
  takePcapHeader_if_bufferOk hb h.begun

/-- A processed record leaves a sound buffer, shorter by the record. -/
theorem FoundRecord.discard {s u v : State} {total : UInt32} (h : FoundRecord env s u total)
    (hb : BufferOk s.parser) (hp : processRecord env u total = .ok (true, v)) :
    BufferOk (v.discard total).parser ∧
      (v.discard total).parser.pendingLen.toNat + total.toNat = u.parser.pendingLen.toNat := by
  have hbuffer := processRecord_buffer hp
  have hle : total.toNat ≤ v.parser.pendingLen.toNat := by
    rw [pendingLen_congr hbuffer]
    exact h.total_le
  refine ⟨(discardPending_ok (BufferOk.congr hbuffer (h.bufferOk hb).1) hle).1, ?_⟩
  change (v.parser.pendingLen - total).toNat + total.toNat = u.parser.pendingLen.toNat
  rw [UInt32.toNat_sub_of_le _ _ (UInt32.le_iff_toNat_le.mpr hle), Nat.sub_add_cancel hle,
    pendingLen_congr hbuffer]

/-- And so does a return. -/
theorem front_returns_ok {s t : State} (h : front env s = .returns t) (hb : BufferOk s.parser) :
    BufferOk t.parser ∧ t.parser.pendingLen.toNat ≤ s.parser.pendingLen.toNat := by
  unfold front at h
  split at h
  · rw [← Front.returns.inj h]
    exact ⟨hb, Nat.le_refl _⟩
  · generalize hbegun : (if s.parser.havePcapHeader = false ∧ 24 ≤ s.parser.pendingLen then
      takePcapHeader env s else (true, s)) = begun at h
    obtain ⟨go, u⟩ := begun
    have hok := takePcapHeader_if_bufferOk hb hbegun
    dsimp only at h
    split at h
    · rw [← Front.returns.inj h]
      exact hok
    · split at h
      · rw [← Front.returns.inj h]
        exact hok
      · split at h
        · rw [← Front.returns.inj h]
          exact hok
        · split at h
          · rw [← Front.returns.inj h]
            exact hok
          · cases h

/-- Where the loop ends, it leaves a sound buffer that has not grown. -/
theorem parseLoop_bufferOk {fuel : ℕ} {s t : State} (h : parseLoop env fuel s = .ok t)
    (hb : BufferOk s.parser) :
    BufferOk t.parser ∧ t.parser.pendingLen.toNat ≤ s.parser.pendingLen.toNat := by
  induction fuel generalizing s with
  | zero => cases h
  | succ fuel ih =>
    cases hfront : front env s with
    | returns u =>
      rw [parseLoop_of_returns hfront] at h
      rw [← Except.ok.inj h]
      exact front_returns_ok hfront hb
    | record u total =>
      have hfound := found_of_record hfront
      obtain ⟨hok, hle⟩ := hfound.bufferOk hb
      obtain ⟨herror, hreturn, hnext⟩ := hfound.parseLoop fuel
      cases hp : processRecord env u total with
      | error fault =>
        rw [herror fault hp] at h
        cases h
      | ok r =>
        obtain ⟨go, v⟩ := r
        cases go with
        | false =>
          rw [hreturn v hp] at h
          have hbuffer := processRecord_buffer hp
          rw [← Except.ok.inj h, pendingLen_congr hbuffer]
          exact ⟨BufferOk.congr hbuffer hok, hle⟩
        | true =>
          rw [hnext v hp] at h
          obtain ⟨hdiscard, hlen⟩ := hfound.discard hb hp
          obtain ⟨ht, hshrinks⟩ := ih h hdiscard
          exact ⟨ht, by omega⟩

/-! ## Passes that do not wrap -/

/-- The records that the loop processes from a state on, with the states it processes them in. -/
inductive Processes (env : Env) : State → State → UInt32 → Prop where
  | here {s u : State} {total : UInt32} : front env s = .record u total → Processes env s u total
  | later {s u v w : State} {total next : UInt32} : front env s = .record u total →
      processRecord env u total = .ok (true, v) → Processes env (v.discard total) w next →
      Processes env s w next

/-- What an iteration with a record of `total` bytes does to the buffer is in order. -/
structure PassSafe (env : Env) (u : State) (total : UInt32) : Prop where
  /-- The pending bytes are allocated. -/
  allocated : u.parser.pendingLen.toNat ≤ u.parser.pending.length
  /-- The copy of the record's header ends among the pending bytes. -/
  recHeader : sizeofPcaprecHdr ≤ u.parser.pendingLen.toNat
  /-- So does the packet header, where `app_packet_matches` looks into it. -/
  packetHeader : u.data.appFilter.enabled = true →
    sizeofBufferPacketHeader ≤ (UInt32.ofNat (inclLen u.parser.pending)).toNat →
    sizeofPcaprecHdr + sizeofBufferPacketHeader ≤ u.parser.pendingLen.toNat
  /-- So does the record, which is written out and which the rest is moved over. -/
  record : total.toNat ≤ u.parser.pendingLen.toNat
  /-- The record has at least its header. -/
  consumes : 16 ≤ total.toNat
  /-- Unless the iteration returns from the middle, it takes the record off the buffer. -/
  discards : ∀ v, processRecord env u total = .ok (true, v) →
    (v.discard total).parser.pendingLen.toNat + total.toNat = u.parser.pendingLen.toNat

/-- The length is the sum unless it wraps, and then it is less than a header. -/
theorem FoundRecord.total_cases {s u : State} {total : UInt32} (h : FoundRecord env s u total) :
    inclLen u.parser.pending < 2 ^ 32 - 16 ∧ total.toNat = 16 + inclLen u.parser.pending ∨
      2 ^ 32 - 16 ≤ inclLen u.parser.pending ∧ total.toNat < 16 := by
  have hlt : inclLen u.parser.pending < 2 ^ 32 := field_lt 8 4 _
  rw [← h.total_eq, UInt32.toNat_add, toNat_inclLen, show (16 : UInt32).toNat = 16 from rfl]
  omega

/-- A record whose length does not wrap is processed safely. -/
theorem FoundRecord.passSafe {s u : State} {total : UInt32} (h : FoundRecord env s u total)
    (hb : BufferOk s.parser) (hincl : inclLen u.parser.pending < 2 ^ 32 - 16) :
    PassSafe env u total := by
  have htotal : total.toNat = 16 + inclLen u.parser.pending := by
    rcases h.total_cases with ⟨-, htotal⟩ | ⟨hwrap, -⟩
    · exact htotal
    · omega
  have hle := h.total_le
  have hok := (h.bufferOk hb).1
  refine ⟨hok.block ▸ hok.fits, h.header_le, ?_, hle, by omega, fun v hp => (h.discard hb hp).2⟩
  intro _ hpacket
  rw [toNat_inclLen] at hpacket
  rw [sizeofPcaprecHdr]
  omega

/-- The filter stays inside the record. -/
theorem PassSafe.processRecord {u : State} {total : UInt32} (h : PassSafe env u total)
    (htotal : total.toNat = 16 + inclLen u.parser.pending) :
    ∃ r, processRecord env u total = .ok r := by
  have hbody : (UInt32.ofNat (inclLen u.parser.pending)).toNat ≤
      (u.parser.pending.drop sizeofPcaprecHdr).length := by
    have hallocated := h.allocated
    have hrecord := h.record
    rw [toNat_inclLen, List.length_drop, sizeofPcaprecHdr]
    omega
  obtain ⟨matched, hmatched⟩ := appPacketMatches_ok u.data hbody
  unfold Cmd.processRecord
  rw [hmatched]
  cases matched with
  | false => exact ⟨_, rfl⟩
  | true =>
    generalize (if u.data.storeMode = storeModeOnMatch ∧ u.data.triggered = false then
      beginOutputStream env u else (true, u)) = begun
    obtain ⟨go, v⟩ := begun
    cases go with
    | false => exact ⟨_, rfl⟩
    | true => exact ⟨_, rfl⟩

/-- A record that is processed has been found in a sound buffer. -/
theorem Processes.found {s u : State} {total : UInt32} (h : Processes env s u total)
    (hb : BufferOk s.parser) : ∃ t, FoundRecord env t u total ∧ BufferOk t.parser := by
  induction h with
  | here hfront => exact ⟨_, found_of_record hfront, hb⟩
  | later hfront hp _ ih => exact ih ((found_of_record hfront).discard hb hp).1

/-- And its header was there. -/
theorem Processes.header_le {s u : State} {total : UInt32} (h : Processes env s u total)
    (hb : BufferOk s.parser) : 16 ≤ s.parser.pendingLen.toNat := by
  have hle {u : State} {total : UInt32} (hfront : front env s = .record u total) :
      16 ≤ s.parser.pendingLen.toNat :=
    (found_of_record hfront).header_le.trans ((found_of_record hfront).bufferOk hb).2
  cases h with
  | here hfront => exact hle hfront
  | later hfront _ _ => exact hle hfront

/-- As long as no record wraps, every record takes at least its header off the buffer, so the loop
ends within as many iterations as there are pending bytes. -/
theorem parseLoop_ends {fuel : ℕ} {s : State} (hb : BufferOk s.parser)
    (hincl : ∀ u total, Processes env s u total → inclLen u.parser.pending < 2 ^ 32 - 16)
    (hfuel : s.parser.pendingLen.toNat < fuel) : ∃ t, parseLoop env fuel s = .ok t := by
  induction fuel generalizing s with
  | zero => omega
  | succ fuel ih =>
    cases hfront : front env s with
    | returns t => exact ⟨t, parseLoop_of_returns hfront fuel⟩
    | record u total =>
      have hfound := found_of_record hfront
      have hsafe := hfound.passSafe hb (hincl u total (.here hfront))
      have hconsumes := hsafe.consumes
      obtain ⟨-, hle⟩ := hfound.bufferOk hb
      obtain ⟨-, hreturn, hnext⟩ := hfound.parseLoop fuel
      have htotal : total.toNat = 16 + inclLen u.parser.pending := by
        rcases hfound.total_cases with ⟨-, htotal⟩ | ⟨-, hwrap⟩
        · exact htotal
        · omega
      obtain ⟨⟨go, v⟩, hp⟩ := hsafe.processRecord htotal
      cases go with
      | false => exact ⟨v, hreturn v hp⟩
      | true =>
        obtain ⟨hdiscard, hlen⟩ := hfound.discard hb hp
        rw [hnext v hp]
        apply ih hdiscard
        · intro w next hw
          exact hincl w next (.later hfront hp hw)
        · omega

/-! ## Calls -/

/-- The calls that the loop of `read_thread` makes: the state and the bytes of each. -/
inductive Calls (env : Env) : State → List (List UInt8) → State → List UInt8 → Prop where
  | here {s : State} {c : List UInt8} {cs : List (List UInt8)} :
      s.data.process = true → Calls env s (c :: cs) s c
  | later {s s' t : State} {c d : List UInt8} {cs : List (List UInt8)} {fuel : ℕ} :
      s.data.process = true → processData env fuel s c = .ok s' → Calls env s' cs t d →
      Calls env s (c :: cs) t d

/-- The records that the call with the bytes `c` processes. -/
def Reaches (env : Env) (t : State) (c : List UInt8) (u : State) (total : UInt32) : Prop :=
  ¬ t.data.passesThrough ∧
    ∃ fuel parser,
      ensurePendingCapacity env fuel t.parser (UInt32.ofNat c.length) = .ok (true, parser) ∧
      Processes env { t with parser := appendPending parser c } u total

/-- The call returns, and its iterations are in order. -/
structure CallSafe (env : Env) (t : State) (c : List UInt8) : Prop where
  returns : ∃ fuel t', processData env fuel t c = .ok t'
  passes : ∀ u total, Reaches env t c u total → PassSafe env u total

/-- A stream that is not parsed leaves the parser alone. -/
theorem passThrough_parser_eq (s : State) (buffer : List UInt8) :
    (passThrough env s buffer).parser = s.parser := by
  unfold passThrough
  split
  · dsimp only
    split
    · split
      · rw [writeHeader_parser_eq]
      · rfl
    · rw [writeData_parser_eq]
      split
      · rw [writeHeader_parser_eq]
      · rfl
  · exact writeData_parser_eq s buffer

/-- With room made, the read is appended inside the block. -/
theorem HasRoom.append {ctx : PacketParserContext} {c block : List UInt8} {capacity : UInt32}
    (h : HasRoom ctx (ctx.pendingLen.toNat + c.length) block capacity)
    (hlt : ctx.pendingLen.toNat + c.length < 2 ^ 31) :
    BufferOk (appendPending { ctx with pending := block, pendingCapacity := capacity } c) ∧
      (appendPending { ctx with pending := block, pendingCapacity := capacity } c).pendingLen.toNat
        = ctx.pendingLen.toNat + c.length := by
  obtain ⟨hblock, hle, -⟩ := h
  have hok : BufferOk { ctx with pending := block, pendingCapacity := capacity } :=
    ⟨hblock, by dsimp only; omega⟩
  refine ⟨(appendPending_ok hok hlt (by dsimp only; omega)).1, ?_⟩
  change (ctx.pendingLen + UInt32.ofNat c.length).toNat = _
  rw [UInt32.toNat_add, UInt32.toNat_ofNat']
  omega

/-- The length of a read fits into its 32 bits. -/
theorem toNat_readLength {n : ℕ} {c : List UInt8} (hlt : n + c.length < 2 ^ 31) :
    (UInt32.ofNat c.length).toNat = c.length := by
  rw [UInt32.toNat_ofNat']
  omega

/-- A call that lets the thread go on leaves a sound buffer, longer by no more than the read. -/
theorem processData_bufferOk {fuel : ℕ} {s t : State} {c : List UInt8}
    (h : processData env fuel s c = .ok t) (ht : t.data.process = true) (hb : BufferOk s.parser)
    (hlt : s.parser.pendingLen.toNat + c.length < 2 ^ 31) :
    BufferOk t.parser ∧ t.parser.pendingLen.toNat ≤ s.parser.pendingLen.toNat + c.length := by
  have hc := toNat_readLength hlt
  unfold processData at h
  split at h
  · rw [← Except.ok.inj h, passThrough_parser_eq]
    exact ⟨hb, Nat.le_add_right _ _⟩
  · rcases @ensurePendingCapacity_cases env s.parser hb (UInt32.ofNat c.length) (by rwa [hc]) fuel
      with ⟨hfuel, -⟩ | ⟨capacity, -, hnone⟩ | ⟨block, capacity, hroom, hok⟩
    · rw [hfuel] at h
      cases h
    · rw [hnone] at h
      rw [← Except.ok.inj h] at ht
      cases ht
    · rw [hok] at h
      rw [hc] at hroom
      obtain ⟨happend, hlen⟩ := hroom.append hlt
      dsimp only at h
      split at h
      · cases h
      · obtain ⟨hbuffer, hle⟩ := parseLoop_bufferOk h happend
        rw [hlen] at hle
        exact ⟨hbuffer, hle⟩

/-- As long as there are calls, nobody has stopped the thread. -/
theorem Calls.process {s t : State} {cs : List (List UInt8)} {c : List UInt8}
    (h : Calls env s cs t c) : s.data.process = true := by
  cases h with
  | here hrun => exact hrun
  | later hrun _ _ => exact hrun

/-- In every call, the bytes that are pending and those that were read are fewer than 2^31. -/
theorem Calls.bufferOk {s t : State} {cs : List (List UInt8)} {c : List UInt8}
    (h : Calls env s cs t c) (hb : BufferOk s.parser)
    (hlt : s.parser.pendingLen.toNat + cs.flatten.length < 2 ^ 31) :
    BufferOk t.parser ∧ t.parser.pendingLen.toNat + c.length < 2 ^ 31 := by
  induction h with
  | here _ =>
    rw [List.flatten_cons, List.length_append] at hlt
    exact ⟨hb, by omega⟩
  | later _ hcall hrest ih =>
    rw [List.flatten_cons, List.length_append] at hlt
    obtain ⟨hok, hle⟩ := processData_bufferOk hcall hrest.process hb (by omega)
    exact ih hok (by omega)

/-- Every record that is reached has been found in a sound buffer. -/
theorem Reaches.found {t u : State} {c : List UInt8} {total : UInt32} (h : Reaches env t c u total)
    (hb : BufferOk t.parser) (hlt : t.parser.pendingLen.toNat + c.length < 2 ^ 31) :
    ∃ s, FoundRecord env s u total ∧ BufferOk s.parser := by
  have hc := toNat_readLength hlt
  obtain ⟨-, fuel, parser, hensure, hprocesses⟩ := h
  rcases @ensurePendingCapacity_cases env t.parser hb (UInt32.ofNat c.length) (by rwa [hc]) fuel
    with ⟨hfuel, -⟩ | ⟨capacity, -, hnone⟩ | ⟨block, capacity, hroom, hok⟩
  · rw [hfuel] at hensure
    cases hensure
  · rw [hnone] at hensure
    cases hensure
  · rw [hok] at hensure
    obtain ⟨-, rfl⟩ := Prod.mk.inj (Except.ok.inj hensure)
    rw [hc] at hroom
    exact hprocesses.found (hroom.append hlt).1

/-- Without a wrap-around, a call returns. -/
theorem processData_ends {t : State} {c : List UInt8} (hb : BufferOk t.parser)
    (hlt : t.parser.pendingLen.toNat + c.length < 2 ^ 31)
    (hincl : ∀ u total, Reaches env t c u total → inclLen u.parser.pending < 2 ^ 32 - 16) :
    ∃ fuel t', processData env fuel t c = .ok t' := by
  have hc := toNat_readLength hlt
  refine ⟨t.parser.pendingLen.toNat + c.length + 1, ?_⟩
  unfold processData
  split
  · exact ⟨_, rfl⟩
  · rename_i hparse
    rcases @ensurePendingCapacity_cases env t.parser hb (UInt32.ofNat c.length) (by rwa [hc])
        (t.parser.pendingLen.toNat + c.length + 1) with
      ⟨-, hfuel⟩ | ⟨capacity, -, hnone⟩ | ⟨block, capacity, hroom, hok⟩
    · omega
    · rw [hnone]
      exact ⟨_, rfl⟩
    · rw [hok]
      rw [hc] at hroom
      obtain ⟨happend, hlen⟩ := hroom.append hlt
      obtain ⟨hblock, hle, -⟩ := hroom
      dsimp only
      rw [if_neg (by omega)]
      apply parseLoop_ends happend
      · intro u total hu
        exact hincl u total ⟨hparse, _, _, hok, hu⟩
      · dsimp only
        omega

/-- **The wrap-around of a record's length is all that can go wrong.** However a stream of less than
2^31 bytes is cut into reads, and whatever the filter, the storage and the system do, the calls
return and stay inside the pending bytes if and only if no record that they come to announces
2^32 - 16 bytes or more. -/
theorem process_data_safe_iff {s : State} (hs : s.parser = .zero) {chunks : List (List UInt8)}
    (hlen : chunks.flatten.length < 2 ^ 31) :
    (∀ t c, Calls env s chunks t c → CallSafe env t c) ↔
      ∀ t c u total, Calls env s chunks t c → Reaches env t c u total →
        inclLen u.parser.pending < 2 ^ 32 - 16 := by
  have hb : BufferOk s.parser := by
    rw [hs]
    exact bufferOk_zero
  have hlt : s.parser.pendingLen.toNat + chunks.flatten.length < 2 ^ 31 := by
    rw [hs]
    change 0 + chunks.flatten.length < 2 ^ 31
    omega
  constructor
  · intro hsafe t c u total hcall hreach
    have hconsumes := ((hsafe t c hcall).passes u total hreach).consumes
    obtain ⟨hok, hsum⟩ := hcall.bufferOk hb hlt
    obtain ⟨s', hfound, -⟩ := hreach.found hok hsum
    rcases hfound.total_cases with ⟨hincl, -⟩ | ⟨-, hwrap⟩
    · exact hincl
    · omega
  · intro hincl t c hcall
    obtain ⟨hok, hsum⟩ := hcall.bufferOk hb hlt
    constructor
    · exact processData_ends hok hsum (fun u total => hincl t c u total hcall)
    · intro u total hreach
      obtain ⟨s', hfound, hb'⟩ := hreach.found hok hsum
      exact hfound.passSafe hb' (hincl t c u total hcall hreach)

/-- The thread of `sampleData` once its first read is in the buffer. -/
def afterRead (bytes : List UInt8) : State :=
  { State.start sampleData with
    parser := { PacketParserContext.zero with
      pending := bytes
      pendingLen := UInt32.ofNat bytes.length
      pendingCapacity := UInt32.ofNat bytes.length } }

/-- A header and a record in one read. -/
theorem process_data_safe_sample :
    CallSafe .reliable (.start sampleData) (sampleHdr ++ sampleRecord 0x81) := by
  have hfront : front .reliable (afterRead (sampleHdr ++ sampleRecord 0x81)) =
    .record (takePcapHeader .reliable (afterRead (sampleHdr ++ sampleRecord 0x81))).2 43 := rfl
  refine (@process_data_safe_iff .reliable (.start sampleData) rfl
    [sampleHdr ++ sampleRecord 0x81] (by decide)).mpr ?_ _ _ (.here rfl)
  intro t c u total hcall hreach
  cases hcall with
  | later _ _ hrest => cases hrest
  | here _ =>
    obtain ⟨-, fuel, parser, hensure, hprocesses⟩ := hreach
    obtain rfl : _ = parser := (Prod.mk.inj (Except.ok.inj hensure)).2
    cases hprocesses with
    | here hu =>
      obtain ⟨rfl, -⟩ := Front.record.inj (hfront.symm.trans hu)
      decide
    | later hu hp hrest =>
      -- the record was the whole buffer
      obtain ⟨rfl, rfl⟩ := Front.record.inj (hfront.symm.trans hu)
      obtain ⟨hok, hlen⟩ := (found_of_record hfront).discard ⟨rfl, by decide⟩ hp
      have hheader := hrest.header_le hok
      have hwhole : (takePcapHeader .reliable
          (afterRead (sampleHdr ++ sampleRecord 0x81))).2.parser.pendingLen.toNat = 43 := by decide
      rw [hwhole, show (43 : UInt32).toNat = 43 from rfl] at hlen
      omega

/-- A record whose length wraps to 0, of a transfer that the filter of `sampleData` drops. -/
def wrappedRecord : List UInt8 :=
  PcaprecHdr.bytes { tsSec := 0, tsUsec := 0, inclLen := 0xFFFFFFF0, origLen := 27 } ++
    (sampleRecord 0x02).drop sizeofPcaprecHdr

/-- The thread in front of `wrappedRecord`, of which it has dropped `n`. -/
def beforeWrapped (n : UInt32) : State :=
  let s := (takePcapHeader .reliable (afterRead (sampleHdr ++ wrappedRecord))).2
  { s with data := { s.data with droppedPackets := n } }

/-- The record is found, with a length of 0. -/
theorem found_wrapped (n : UInt32) :
    FoundRecord .reliable (beforeWrapped n) (beforeWrapped n) 0 := by
  have hlen : (beforeWrapped 0).parser.pendingLen.toNat = 43 := by decide
  refine ⟨rfl, if_neg (fun h => Bool.noConfusion h.1), rfl, ?_, ?_, Nat.zero_le _⟩
  · change 16 ≤ (beforeWrapped 0).parser.pendingLen.toNat
    rw [hlen]
    decide
  · change 16 + UInt32.ofNat (inclLen (beforeWrapped 0).parser.pending) = 0
    decide

/-- Discarding it discards nothing. -/
theorem discard_wrapped (n : UInt32) : (beforeWrapped n).discard 0 = beforeWrapped n := by
  have hparser : discardPending (beforeWrapped 0).parser 0 = (beforeWrapped 0).parser := by decide
  exact congrArg (fun parser => { beforeWrapped n with parser := parser }) hparser

/-- The loop takes nothing off the buffer and meets the same record again. -/
theorem parseLoop_wrapped (fuel : ℕ) (n : UInt32) (t : State) :
    parseLoop .reliable fuel (beforeWrapped n) ≠ .ok t := by
  induction fuel generalizing n with
  | zero =>
    intro h
    cases h
  | succ fuel ih =>
    obtain ⟨-, -, hnext⟩ := (found_wrapped n).parseLoop fuel
    rw [hnext (beforeWrapped (n + 1)) rfl, discard_wrapped]
    exact ih (n + 1)

/-- A single read with such a record keeps the thread busy for ever. -/
theorem wrapped_record_never_ends :
    (∀ fuel t, processData .reliable fuel (.start sampleData) (sampleHdr ++ wrappedRecord) ≠
      .ok t) ∧
    ¬ ∀ t c, Calls .reliable (.start sampleData) [sampleHdr ++ wrappedRecord] t c →
      CallSafe .reliable t c := by
  have hnever : ∀ fuel t, processData .reliable fuel (.start sampleData)
      (sampleHdr ++ wrappedRecord) ≠ .ok t := by
    intro fuel t h
    change parseLoop .reliable fuel (afterRead (sampleHdr ++ wrappedRecord)) = .ok t at h
    cases fuel with
    | zero => cases h
    | succ fuel =>
      have hfront : front .reliable (afterRead (sampleHdr ++ wrappedRecord)) =
        .record (beforeWrapped 0) 0 := rfl
      obtain ⟨-, -, hnext⟩ := (found_of_record hfront).parseLoop fuel
      rw [hnext (beforeWrapped 1) rfl, discard_wrapped] at h
      exact parseLoop_wrapped fuel 1 t h
  refine ⟨hnever, ?_⟩
  intro hsafe
  obtain ⟨fuel, t, ht⟩ := (hsafe _ _ (.here rfl)).returns
  exact hnever fuel t ht

end UsbPcap.Cmd
