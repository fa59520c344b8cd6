import UsbPcap.Driver.ReadQueue
import UsbPcap.Driver.Stream

/-!
# Reads in flight on one capture

Reads of any lengths, stores and cancellations on an open capture, in any order. `issued` remembers
what has become of every read, in the order in which the reads were issued. A store completes one
queued read and leaves the other ones waiting, whatever is left in the ring:
`Reading.reads_in_order_iff` says that reads neither stall nor overtake each other exactly as long
as no store leaves bytes behind while a second read waits.
-/

namespace UsbPcap.Driver

/-- What has become of a read. -/
inductive ReadOutcome where
  | pending
  | completed (data : List UInt8)
  | cancelled
  | failed
deriving DecidableEq, Repr

/-- The bytes that a read has returned. -/
def ReadOutcome.data : ReadOutcome → List UInt8
  | .completed data => data
  | _ => []

/-- What the status and the bytes of a dispatched read amount to. -/
def ReadOutcome.of : IoStatus × List UInt8 → ReadOutcome
  | (.pending, _) => .pending
  | (.done .success, data) => .completed data
  | (.cancelled, _) => .cancelled
  | _ => .failed

/-- An open capture and its reads. The IRP of a read is named by its place in `issued`. -/
structure Reading where
  session : Session
  queue : List ReadIrp
  issued : List ReadOutcome

namespace Reading

/-- What happens on an open capture. -/
inductive Act where
  | read (fileObject : FileObject) (length : UInt32) (mapped : Bool)
  | store (k : Packet)
  | cancel (irp : Irp)

/-- The outcomes after a completion. -/
def complete (issued : List ReadOutcome) : Option Completion → List ReadOutcome
  | none => issued
  | some c => issued.set c.irp (.of (c.status, c.data))

/-- The bytes of a completion. -/
def completionData : Option Completion → List UInt8
  | none => []
  | some c => c.data

/-- One step. Cancelling is possible for a read that is queued. -/
def step (s : Reading) : Act → Option Reading
  | .read fileObject length mapped =>
    let (r, p, queue) := bufferHandleReadIrp s.session.data s.queue
      ⟨s.issued.length, fileObject, length⟩ mapped
    some
      { session := { s.session with data := p, delivered := s.session.delivered ++ r.2 }
        queue := queue
        issued := s.issued ++ [.of r] }
  | .store k =>
    let (status, c, p, queue) := bufferWriteTimestampedPayload s.session.data s.queue k
    let session := if status = .success then s.session.step (.storePacket k) else s.session
    some
      { session := { session with data := p, delivered := session.delivered ++ completionData c }
        queue := queue
        issued := complete s.issued c }
  | .cancel irp =>
    match csqCancelIrp s.queue irp with
    | none => none
    | some (r, queue) =>
      some { s with
        queue := queue
        issued := complete s.issued (some (csqCompleteCanceledIrp r)) }

/-- A capture that has just been opened: the buffer exists, nothing has been read. -/
def opened (snaplen bytes : UInt32) (block : Block bytes.toNat) : Reading where
  session := (Session.init snaplen).step (.setUpBuffer bytes (some block))
  queue := []
  issued := []

/-- No read waits while there are unread bytes, and what the reads returned, in the order in which
they were issued, is the start of the stream. -/
def Good (s : Reading) : Prop :=
  (s.queue ≠ [] → unread s.session.data = []) ∧
    s.issued.flatMap ReadOutcome.data <+: s.session.written

/-- A packet that is stored while two or more reads wait is not longer than the first of them. -/
def DrainsQueue (s : Reading) : Act → Prop
  | .store k =>
    k.Accepted s.session.data → ∀ r, s.queue.head? = some r → 2 ≤ s.queue.length →
      k.recordSize s.session.data ≤ r.length.toNat
  | _ => True

instance : ∀ s a, Decidable (DrainsQueue s a)
  | _, .read _ _ _ => inferInstanceAs (Decidable True)
  | s, .store k =>
    inferInstanceAs (Decidable (k.Accepted s.session.data → ∀ r ∈ s.queue.head?,
      2 ≤ s.queue.length → k.recordSize s.session.data ≤ r.length.toNat))
  | _, .cancel _ => inferInstanceAs (Decidable True)

/-! ## Waiting reads -/

/-- The queue names the waiting reads in the order in which they were issued, and nothing issued
after the first of them has returned data. -/
structure Waiting (queue : List ReadIrp) (issued : List ReadOutcome) : Prop where
  sorted : queue.Pairwise (·.irp < ·.irp)
  pending : ∀ r ∈ queue, issued[r.irp]? = some .pending
  quiet : ∀ r ∈ queue, ∀ j o, r.irp < j → issued[j]? = some o → o.data = []

/-- Completing a read adds its data at its place. -/
theorem flatMap_set {issued : List ReadOutcome} {i : ℕ} (o : ReadOutcome)
    (hi : issued[i]? = some .pending)
    (hquiet : ∀ (j : ℕ) o, i < j → issued[j]? = some o → o.data = []) :
    (issued.set i o).flatMap ReadOutcome.data = issued.flatMap ReadOutcome.data ++ o.data := by
  obtain ⟨hlt, hget⟩ := List.getElem?_eq_some_iff.mp hi
  have hrest : (issued.drop (i + 1)).flatMap ReadOutcome.data = [] := by
    rw [List.flatMap_eq_nil_iff]
    intro o ho
    obtain ⟨j, hj⟩ := List.mem_iff_getElem?.mp ho
    rw [List.getElem?_drop] at hj
    exact hquiet _ o (by omega) hj
  have hsplit : issued = issued.take i ++ .pending :: issued.drop (i + 1) := by
    rw [← hget, List.getElem_cons_drop, List.take_append_drop]
  have hnil : ReadOutcome.data .pending = [] := rfl
  rw [List.set_eq_take_append_cons_drop, if_pos hlt]
  conv_rhs => rw [hsplit]
  simp only [List.flatMap_append, List.flatMap_cons, hrest, hnil, List.append_nil]

/-- A read that is answered without data leaves every place without data that had none. -/
theorem Waiting.quiet_set {r : ReadIrp} {queue : List ReadIrp} {issued : List ReadOutcome}
    (h : Waiting queue issued) (hr : r ∈ queue) {i j : ℕ} {o o' : ReadOutcome} (ho : o.data = [])
    (hj : r.irp < j) (hget : (issued.set i o)[j]? = some o') : o'.data = [] := by
  rw [List.getElem?_set] at hget
  split at hget
  · split at hget
    · obtain rfl := Option.some.inj hget
      exact ho
    · cases hget
  · exact h.quiet r hr j o' hj hget

/-- The first waiting read is completed. -/
theorem Waiting.tail {r : ReadIrp} {queue : List ReadIrp} {issued : List ReadOutcome}
    (h : Waiting (r :: queue) issued) (o : ReadOutcome) : Waiting queue (issued.set r.irp o) := by
  obtain ⟨hfirst, hsorted⟩ := List.pairwise_cons.mp h.sorted
  refine ⟨hsorted, fun q hq => ?_, fun q hq j o' hj ho => ?_⟩
  · rw [List.getElem?_set_ne (ne_of_lt (hfirst q hq))]
    exact h.pending q (List.mem_cons_of_mem r hq)
  · rw [List.getElem?_set_ne (ne_of_lt (lt_trans (hfirst q hq) hj))] at ho
    exact h.quiet q (List.mem_cons_of_mem r hq) j o' hj ho

theorem Waiting.irp_ne {q r : ReadIrp} {queue : List ReadIrp} {issued : List ReadOutcome}
    (h : Waiting queue issued) (hq : q ∈ queue) (hr : r ∈ queue) (hne : q ≠ r) :
    q.irp ≠ r.irp := by
  have hpair : queue.Pairwise fun q r => q.irp ≠ r.irp := h.sorted.imp ne_of_lt
  have : Std.Symm fun q r : ReadIrp => q.irp ≠ r.irp := ⟨fun _ _ => Ne.symm⟩
  exact hpair.forall hq hr hne

/-- A cancelled read leaves the order of the other ones alone. -/
theorem Waiting.erase {r : ReadIrp} {queue : List ReadIrp} {issued : List ReadOutcome}
    (h : Waiting queue issued) (hr : r ∈ queue) :
    Waiting (queue.erase r) (issued.set r.irp .cancelled) := by
  have hsub : (queue.erase r).Sublist queue := List.erase_sublist
  have hnodup : queue.Nodup := h.sorted.imp fun hlt heq => by
    rw [heq] at hlt
    exact lt_irrefl _ hlt
  refine ⟨h.sorted.sublist hsub, fun q hq => ?_, fun q hq j o hj ho => ?_⟩
  · have hne : q ≠ r := fun heq => hnodup.not_mem_erase (heq ▸ hq)
    rw [List.getElem?_set_ne (h.irp_ne (hsub.subset hq) hr hne).symm]
    exact h.pending q (hsub.subset hq)
  · exact h.quiet_set (hsub.subset hq) rfl hj ho

/-- The next read is answered at once, without data if other reads wait. -/
theorem Waiting.concat {queue : List ReadIrp} {issued : List ReadOutcome}
    (h : Waiting queue issued) {o : ReadOutcome} (ho : queue = [] ∨ o.data = []) :
    Waiting queue (issued ++ [o]) := by
  refine ⟨h.sorted, fun q hq => ?_, fun q hq j o' hj hget => ?_⟩
  · have hlt := (List.getElem?_eq_some_iff.mp (h.pending q hq)).1
    rw [List.getElem?_append_left hlt]
    exact h.pending q hq
  · rw [List.getElem?_append] at hget
    split at hget
    · exact h.quiet q hq j o' hj hget
    · rw [List.getElem?_singleton] at hget
      split at hget
      · obtain rfl := Option.some.inj hget
        exact ho.resolve_left (List.ne_nil_of_mem hq)
      · cases hget

/-- The next read is queued behind the other ones. -/
theorem Waiting.insert {r : ReadIrp} {queue : List ReadIrp} {issued : List ReadOutcome}
    (h : Waiting queue issued) (hr : r.irp = issued.length) :
    Waiting (csqInsertIrp queue r) (issued ++ [.pending]) := by
  have hconcat := h.concat (o := .pending) (Or.inr rfl)
  refine ⟨?_, fun q hq => ?_, fun q hq j o hj ho => ?_⟩
  · rw [csqInsertIrp, List.pairwise_append]
    refine ⟨h.sorted, List.pairwise_singleton _ _, fun q hq r' hr' => ?_⟩
    obtain rfl := List.mem_singleton.mp hr'
    rw [hr]
    exact (List.getElem?_eq_some_iff.mp (h.pending q hq)).1
  · rcases List.mem_append.mp hq with hq | hq
    · exact hconcat.pending q hq
    · obtain rfl := List.mem_singleton.mp hq
      rw [hr, List.getElem?_concat_length]
  · rcases List.mem_append.mp hq with hq | hq
    · exact hconcat.quiet q hq j o hj ho
    · -- nothing has been issued behind the new read
      obtain rfl := List.mem_singleton.mp hq
      have hlt := (List.getElem?_eq_some_iff.mp ho).1
      rw [List.length_append, List.length_singleton, ← hr] at hlt
      exact absurd hj (Nat.not_lt_of_le (Nat.le_of_lt_succ hlt))

/-! ## One step -/

/-- What a run keeps as long as no store leaves bytes behind a waiting read. -/
structure Consistent (s : Reading) : Prop where
  inv : s.session.Inv
  created : s.session.data.buffer ≠ none
  waiting : Waiting s.queue s.issued
  lengths : ∀ r ∈ s.queue, r.length ≠ 0
  drained : s.queue ≠ [] → unread s.session.data = []
  returned : s.issued.flatMap ReadOutcome.data = s.session.delivered

theorem Consistent.ring {s : Reading} (h : Consistent s) : RingOk s.session.data := by
  obtain ⟨c, hc⟩ := h.inv.resolve_left h.created
  exact hc.ring

theorem Consistent.good {s : Reading} (h : Consistent s) : Good s := by
  obtain ⟨c, hc⟩ := h.inv.resolve_left h.created
  refine ⟨h.drained, unread s.session.data, ?_⟩
  rw [h.returned, ← hc.delivered, ← hc.items, ← hc.written]
  exact c.conserved

theorem data_of_success (data : List UInt8) :
    (ReadOutcome.of (.done .success, data)).data = data := rfl

/-- Reading from the ring, with the outcomes of the reads brought up to date. -/
theorem read_session {s : Session} (hi : s.Inv) (hring : RingOk s.data) (n : UInt32) :
    (s.step (.read n)).Inv ∧ RingOk (s.step (.read n)).data ∧
      unread (s.step (.read n)).data = (unread s.data).drop n.toNat ∧
      (s.step (.read n)).delivered = s.delivered ++ (bufferRead s.data n.toNat).1 :=
  ⟨Session.step_inv hi _, (bufferRead_takes hring n.toNat).ring,
    (bufferRead_takes hring n.toNat).unread_eq, rfl⟩

/-- A new read is answered at once, or waits for an empty ring. -/
theorem Consistent.step_read {s t : Reading} (h : Consistent s) {fileObject : FileObject}
    {length : UInt32} {mapped : Bool} (hst : step s (.read fileObject length mapped) = some t) :
    Consistent t := by
  have hring := h.ring
  obtain ⟨hinv, hring', hunread, hdelivered⟩ := read_session h.inv hring length
  rcases bufferHandleReadIrp_cases hring s.queue ⟨s.issued.length, fileObject, length⟩ mapped with
    ⟨status, heq⟩ | ⟨hlen, hempty, heq⟩ | ⟨hlen, hsome, heq⟩
  all_goals
    simp only [step, heq] at hst
    obtain rfl := Option.some.inj hst
  · -- refused: the read gets nothing
    have hdata : (ReadOutcome.of (.done status, [])).data = [] := by
      cases status <;> rfl
    refine ⟨?_, h.created, h.waiting.concat (Or.inr hdata), h.lengths, h.drained, ?_⟩
    · simpa only [List.append_nil] using h.inv
    · simpa [hdata] using h.returned
  · -- the ring is empty, so the read waits behind the others
    refine ⟨hinv, hring'.buffer_ne_none, h.waiting.insert rfl, ?_, ?_, ?_⟩
    · intro r hr
      rcases List.mem_append.mp hr with hr | hr
      · exact h.lengths r hr
      · obtain rfl := List.mem_singleton.mp hr
        exact hlen
    · intro _
      exact hunread.trans (by rw [hempty, List.drop_nil])
    · have hnone : (bufferRead s.session.data length.toNat).1 = [] := by
        rw [(bufferRead_takes hring length.toNat).data_eq, hempty, List.take_nil]
      simpa [ReadOutcome.of, ReadOutcome.data, hnone] using h.returned
  · -- unread bytes: no read waits, by the invariant, so this one is next in order
    have hqueue : s.queue = [] := by
      by_contra hne
      exact hsome (h.drained hne)
    refine ⟨hinv, hring'.buffer_ne_none, h.waiting.concat (Or.inl hqueue), h.lengths,
      fun hne => absurd hqueue hne, ?_⟩
    rw [List.flatMap_append, h.returned, List.flatMap_singleton, data_of_success]

/-- A cancelled read leaves the ring and the other reads alone. -/
theorem Consistent.step_cancel {s t : Reading} (h : Consistent s) {irp : Irp}
    (hst : step s (.cancel irp) = some t) : Consistent t := by
  simp only [step, csqCancelIrp] at hst
  cases hfind : s.queue.find? (·.irp = irp) with
  | none => simp [hfind] at hst
  | some r =>
    have hr := List.mem_of_find?_eq_some hfind
    simp only [hfind] at hst
    obtain rfl := Option.some.inj hst
    refine ⟨h.inv, h.created, h.waiting.erase hr,
      fun q hq => h.lengths q (List.mem_of_mem_erase hq),
      fun _ => h.drained (List.ne_nil_of_mem hr), ?_⟩
    -- the cancelled read gave nothing before and gives nothing now
    have hset := flatMap_set .cancelled (h.waiting.pending r hr)
      fun j o hj ho => h.waiting.quiet r hr j o hj ho
    exact hset.trans ((List.append_nil _).trans h.returned)

/-- What a store does: nothing if the packet is not stored; otherwise the packet is appended and the
first waiting read takes what it can. -/
theorem Consistent.step_store_cases {s t : Reading} (h : Consistent s) {k : Packet}
    (hst : step s (.store k) = some t) :
    (¬ k.Accepted s.session.data ∧ t = s) ∨
    (k.Accepted s.session.data ∧
      RingOk (s.session.step (.storePacket k)).data ∧
      unread (s.session.step (.storePacket k)).data =
        unread s.session.data ++ storedBytes s.session.data k.timestamp k.header k.payload ∧
      (s.session.step (.storePacket k)).delivered = s.session.delivered ∧
      ((s.queue = [] ∧ t = { s with session := s.session.step (.storePacket k) }) ∨
        ∃ r queue, s.queue = r :: queue ∧
          t =
            { session := (s.session.step (.storePacket k)).step (.read r.length)
              queue := queue
              issued := s.issued.set r.irp
                (.completed
                  (bufferRead (s.session.step (.storePacket k)).data r.length.toNat).1) })) := by
  rcases bufferStorePacket_outcome h.ring k with
    ⟨hnot, hno, hsame⟩ | ⟨hacc, hok, happ⟩
  · left
    -- the record does not fit, or the packet's device is not captured
    simp only [step, bufferWriteTimestampedPayload_rejected hno, hsame, if_neg hno, complete,
      completionData, List.append_nil] at hst
    obtain rfl := Option.some.inj hst
    exact ⟨hnot, rfl⟩
  · refine Or.inr ⟨hacc, ?_, ?_, ?_, ?_⟩
    · simp only [Session.step, if_pos hok]
      exact happ.ring
    · simp only [Session.step, if_pos hok]
      exact happ.unread_eq
    · simp only [Session.step, if_pos hok]
    · cases hqueue : s.queue with
      | nil =>
        -- no read is waiting, so the record stays in the ring
        simp only [step, hqueue, bufferWriteTimestampedPayload_nil hok, if_true, complete,
          completionData, List.append_nil] at hst
        obtain rfl := Option.some.inj hst
        simp only [Session.step, if_pos hok]
        exact Or.inl ⟨trivial, trivial⟩
      | cons r queue =>
        -- the oldest waiting read is completed from the ring
        have hlen : r.length ≠ 0 := h.lengths r (hqueue ▸ List.mem_cons_self)
        simp only [step, hqueue, bufferWriteTimestampedPayload_cons hok hlen, if_true, complete,
          completionData] at hst
        obtain rfl := Option.some.inj hst
        simp only [Session.step, if_pos hok]
        exact Or.inr ⟨r, queue, rfl, rfl⟩

/-- A store keeps the reads in order if it drains the queue, and leaves a read waiting on unread
bytes if it does not. -/
theorem Consistent.step_store {s t : Reading} (h : Consistent s) {k : Packet}
    (hst : step s (.store k) = some t) :
    (DrainsQueue s (.store k) → Consistent t) ∧ (Good t → DrainsQueue s (.store k)) := by
  rcases h.step_store_cases hst with
    ⟨hno, rfl⟩ | ⟨hacc, hring, hunread, hdelivered, ⟨hempty, rfl⟩ | ⟨r, queue, hqueue, rfl⟩⟩
  · exact ⟨fun _ => h, fun _ hacc => absurd hacc hno⟩
  · have hinv := Session.step_inv h.inv (.storePacket k)
    refine ⟨fun _ => ⟨hinv, hring.buffer_ne_none, h.waiting, h.lengths,
      fun hne => absurd hempty hne, h.returned.trans hdelivered.symm⟩, ?_⟩
    intro _ _ r hr
    rw [hempty] at hr
    cases hr
  · have hdrained : unread (s.session.step (.storePacket k)).data =
        storedBytes s.session.data k.timestamp k.header k.payload := by
      rw [hunread, h.drained (by rw [hqueue]; exact List.cons_ne_nil _ _), List.nil_append]
    obtain ⟨hinv, hring', hunread', hdelivered'⟩ :=
      read_session (Session.step_inv h.inv (.storePacket k)) hring r.length
    rw [hdrained] at hunread'
    have hlength : 2 ≤ s.queue.length ↔ queue ≠ [] := by
      rw [hqueue, List.length_cons, ← List.length_pos_iff]
      omega
    constructor
    · -- the first read takes the whole record, or no other one waits
      intro hdrains
      have hwaiting := h.waiting
      rw [hqueue] at hwaiting
      refine ⟨hinv, hring'.buffer_ne_none, hwaiting.tail _, ?_, ?_, ?_⟩
      · intro q hq
        exact h.lengths q (hqueue ▸ List.mem_cons_of_mem r hq)
      · intro hne
        have hle := hdrains hacc r (by rw [hqueue]; rfl) (hlength.mpr hne)
        rw [← Packet.length_storedBytes] at hle
        exact hunread'.trans (List.drop_of_length_le hle)
      · have hset := flatMap_set
          (.completed (bufferRead (s.session.step (.storePacket k)).data r.length.toNat).1)
          (hwaiting.pending r List.mem_cons_self)
          fun j o hj ho => hwaiting.quiet r List.mem_cons_self j o hj ho
        rw [h.returned] at hset
        exact hset.trans (by rw [hdelivered', hdelivered]; rfl)
    · -- a second read waits, so the first one must have emptied the ring
      intro hgood _ q hq hmany
      rw [hqueue] at hq
      obtain rfl := Option.some.inj hq
      have hnil := hgood.1 (hlength.mp hmany)
      rw [← Packet.length_storedBytes]
      exact List.drop_eq_nil_iff.mp (hunread'.symm.trans hnil)

/-! ## Whole runs -/

theorem opened_consistent {snaplen bytes : UInt32} (hsize : validBufferSize bytes)
    (block : Block bytes.toNat) : Consistent (opened snaplen bytes block) := by
  have hcreate := setUpBuffer_create (p := (Session.init snaplen).data) rfl hsize block
  have hinv := Session.step_inv (Session.init_inv snaplen) (.setUpBuffer bytes (some block))
  have hstep : (opened snaplen bytes block).session =
      Session.restart (setUpBuffer (Session.init snaplen).data bytes (some block)).2 :=
    if_pos ⟨rfl, hcreate.1⟩
  refine ⟨hinv, ?_, ⟨List.Pairwise.nil, by simp [opened], by simp [opened]⟩, by simp [opened],
    fun hne => absurd rfl hne, ?_⟩
  · rw [hstep]
    exact hcreate.2.ring.buffer_ne_none
  · rw [hstep]
    rfl

theorem Consistent.step {s t : Reading} (h : Consistent s) {a : Act} (ha : DrainsQueue s a)
    (hst : step s a = some t) : Consistent t := by
  cases a with
  | read fileObject length mapped => exact h.step_read hst
  | store k => exact (h.step_store hst).1 ha
  | cancel irp => exact h.step_cancel hst

/-- **Reads stall and overtake each other only behind a store that leaves bytes over.** In a run on
an open capture no read ever waits on unread bytes and the returned bytes, in the order in which the
reads were issued, always start the stream, exactly when every packet that is stored while two or
more reads wait fits into the first of them. -/
theorem reads_in_order_iff {snaplen bytes : UInt32} (hsize : validBufferSize bytes)
    (block : Block bytes.toNat) {acts : List Act} {s : Reading}
    (h : Transition.run step (opened snaplen bytes block) acts = some s) :
    Transition.Always step Good (opened snaplen bytes block) acts ↔
      Transition.Along step DrainsQueue (opened snaplen bytes block) acts := by
  refine Transition.always_iff_along_of_inv (Q := Consistent) (opened_consistent hsize block)
    (fun _ hs => hs.good) ?_ (fun _ _ _ _ hs ha hst => hs.step ha hst) h
  intro s a t _ hs hst hgood
  cases a with
  | store k => exact (hs.step_store hst).2 hgood
  | read => trivial
  | cancel => trivial

/-- A packet of 27 bytes without payload. -/
def emptyPacket : Packet where
  timestamp := 0
  header :=
    { header := { headerLen := 27, irpId := 1, status := 0, function := 9, info := 0, bus := 1
                  device := 2, endpoint := 0x81, transfer := 3, dataLength := 0 }
      ext := []
      covered := by decide }
  payload := []

/-- A read takes the global header, two reads wait, a packet is stored that the first of them takes
whole, and the other is cancelled. -/
def drained : List Act :=
  [.read 1 4096 true, .read 1 64 true, .read 1 8 true, .store emptyPacket, .cancel 2]

theorem reads_in_order_iff_drained :
    Transition.Always step Good (opened 65535 4096 Session.zeroBlock) drained ∧
      (Transition.run step (opened 65535 4096 Session.zeroBlock) drained).map
          (fun s => (s.issued.map (·.data.length), s.session.written.length)) =
        some ([24, 43, 0], 67) := by
  have hsize : validBufferSize 4096 := ⟨by decide, by decide⟩
  have hruns : (Transition.run step (opened 65535 4096 Session.zeroBlock) drained).isSome = true :=
    by decide +kernel
  obtain ⟨s, hs⟩ := Option.isSome_iff_exists.mp hruns
  refine ⟨(reads_in_order_iff hsize Session.zeroBlock hs).mpr ?_, by decide +kernel⟩
  exact Transition.along_of_checkAlong (by decide +kernel)

/-- The same reads, but the first of the two that wait is as short as the second. -/
def overtaken : List Act :=
  [.read 1 4096 true, .read 1 8 true, .read 1 8 true, .store emptyPacket]

theorem store_leaves_read_waiting :
    ¬ Transition.Always step Good (opened 65535 4096 Session.zeroBlock) overtaken := by
  intro h
  have hgood := h overtaken _ (List.prefix_refl _) rfl
  exact absurd (hgood.1 (by decide +kernel)) (by decide +kernel)

end Reading

end UsbPcap.Driver
