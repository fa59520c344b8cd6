import UsbPcap.Driver.Session

/-!
# Pended reads

`USBPcapBufferHandleReadIrp` answers a read from the ring, or puts it into the cancel-safe queue of
the control device when the ring is empty. A stored packet completes the first read of the queue and
no other. The queue is the list of its reads; the library calls of the cancel-safe queue are atomic.
-/

namespace UsbPcap.Driver

open Format

/-- `PIRP` -/
abbrev Irp := ℕ

/-- `PFILE_OBJECT` -/
abbrev FileObject := ℕ

/-- How a dispatch routine ends a request: with what a buffer function returned, or otherwise. -/
inductive IoStatus where
  | done (status : NtStatus)
  | pending
  | cancelled
  | accessDenied
  | notFound
  | invalidDeviceRequest
  | deletePending
deriving DecidableEq, Repr

/-- A read request: its IRP, the file object of its stack location and the size of its buffer. -/
structure ReadIrp where
  irp : Irp
  fileObject : FileObject
  length : UInt32
deriving DecidableEq, Repr

/-- A completed request with the bytes in its buffer. -/
structure Completion where
  irp : Irp
  status : IoStatus
  data : List UInt8
deriving DecidableEq, Repr

/-! ## The cancel-safe queue -/

/-- `DkCsqInsertIrp` -/
def csqInsertIrp (queue : List ReadIrp) (r : ReadIrp) : List ReadIrp := queue ++ [r]

/-- `DkCsqPeekNextIrp` from the head of the list; `ctx` is `pCtx`. -/
def csqPeekNextIrp (queue : List ReadIrp) (ctx : Option FileObject) : Option ReadIrp :=
  queue.find? fun r => ctx.all (r.fileObject = ·)

/-- `IoCsqRemoveNextIrp` -/
def csqRemoveNextIrp (queue : List ReadIrp) (ctx : Option FileObject) :
    Option (ReadIrp × List ReadIrp) :=
  match csqPeekNextIrp queue ctx with
  | none => none
  | some r => some (r, queue.erase r)

/-- `DkCsqCompleteCanceledIrp` -/
def csqCompleteCanceledIrp (r : ReadIrp) : Completion where
  irp := r.irp
  status := .cancelled
  data := []

/-- The read that a cancellation takes out of the queue. -/
def csqCancelIrp (queue : List ReadIrp) (irp : Irp) : Option (ReadIrp × List ReadIrp) :=
  match queue.find? (·.irp = irp) with
  | none => none
  | some r => some (r, queue.erase r)

theorem csqRemoveNextIrp_nil (ctx : Option FileObject) : csqRemoveNextIrp [] ctx = none := rfl

/-- Without a context the first read of the queue is taken. -/
theorem csqRemoveNextIrp_cons (r : ReadIrp) (queue : List ReadIrp) :
    csqRemoveNextIrp (r :: queue) none = some (r, queue) := by
  simp [csqRemoveNextIrp, csqPeekNextIrp]

/-! ## Reading and storing -/

/-- `USBPcapBufferHandleReadIrp`; `mapped` says whether the buffer of the read could be mapped. A
read whose buffer is mapped keeps the mapping while it is pended. -/
def bufferHandleReadIrp (p : RootHubData) (queue : List ReadIrp) (r : ReadIrp) (mapped : Bool) :
    (IoStatus × List UInt8) × RootHubData × List ReadIrp :=
  if r.length = 0 then ((.done .success, []), p, queue)
  else if p.buffer = none then ((.done .unsuccessful, []), p, queue)
  else if mapped = false then ((.done .insufficientResources, []), p, queue)
  else
    let (data, p) := bufferRead p r.length.toNat
    if data.length = 0 then ((.pending, []), p, csqInsertIrp queue r)
    else ((.done .success, data), p, queue)

/-- `USBPcapBufferCompletePendedReadIrp` -/
def bufferCompletePendedReadIrp (p : RootHubData) (queue : List ReadIrp) :
    Option Completion × RootHubData × List ReadIrp :=
  match csqRemoveNextIrp queue none with
  | none => (none, p, queue)
  | some (r, queue) =>
    let (data, p) := if r.length ≠ 0 then bufferRead p r.length.toNat else ([], p)
    (some { irp := r.irp, status := .done .success, data := data }, p, queue)

/-- `USBPcapBufferWriteTimestampedPayload` -/
def bufferWriteTimestampedPayload (p : RootHubData) (queue : List ReadIrp) (k : Packet) :
    NtStatus × Option Completion × RootHubData × List ReadIrp :=
  let r := bufferStorePacket p k.timestamp k.header k.payload
  if r.1 = .success then (.success, bufferCompletePendedReadIrp r.2 queue)
  else (r.1, none, r.2, queue)

/-- Everything `USBPcapBufferHandleReadIrp` can do on a ring: end the read without data, pend it
because the ring is empty, or complete it with the first unread bytes. -/
theorem bufferHandleReadIrp_cases {p : RootHubData} (h : RingOk p) (queue : List ReadIrp)
    (r : ReadIrp) (mapped : Bool) :
    (∃ status, bufferHandleReadIrp p queue r mapped = ((.done status, []), p, queue)) ∨
    (r.length ≠ 0 ∧ unread p = [] ∧ bufferHandleReadIrp p queue r mapped =
      ((.pending, (bufferRead p r.length.toNat).1), (bufferRead p r.length.toNat).2,
        csqInsertIrp queue r)) ∨
    (r.length ≠ 0 ∧ unread p ≠ [] ∧ bufferHandleReadIrp p queue r mapped =
      ((.done .success, (bufferRead p r.length.toNat).1), (bufferRead p r.length.toNat).2,
        queue)) := by
  have htakes := bufferRead_takes h r.length.toNat
  rw [bufferHandleReadIrp]
  by_cases hzero : r.length = 0
  · rw [if_pos hzero]
    exact Or.inl ⟨.success, rfl⟩
  · rw [if_neg hzero, if_neg h.buffer_ne_none]
    cases mapped with
    | false => exact Or.inl ⟨.insufficientResources, rfl⟩
    | true =>
      have hpos : 0 < r.length.toNat := by
        refine Nat.pos_of_ne_zero fun hn => hzero ?_
        rw [← UInt32.toNat_inj, hn]
        rfl
      right
      by_cases hempty : unread p = []
      · have hdata : (bufferRead p r.length.toNat).1 = [] := by
          rw [htakes.data_eq, hempty, List.take_nil]
        exact Or.inl ⟨hzero, hempty, by simp [hdata]⟩
      · have hdata : (bufferRead p r.length.toNat).1 ≠ [] := by
          rw [htakes.data_eq, Ne, List.take_eq_nil_iff]
          simp [hempty, hpos.ne']
        exact Or.inr ⟨hzero, hempty, by simp [hdata]⟩

/-- `USBPcapBufferWriteTimestampedPayload` completes the first waiting read, and only that one, when
the packet was stored. -/
theorem bufferWriteTimestampedPayload_cons {p : RootHubData} {k : Packet}
    (hok : (bufferStorePacket p k.timestamp k.header k.payload).1 = .success) {r : ReadIrp}
    (hr : r.length ≠ 0) (queue : List ReadIrp) :
    bufferWriteTimestampedPayload p (r :: queue) k =
      (.success,
        some ⟨r.irp, .done .success,
          (bufferRead (bufferStorePacket p k.timestamp k.header k.payload).2 r.length.toNat).1⟩,
        (bufferRead (bufferStorePacket p k.timestamp k.header k.payload).2 r.length.toNat).2,
        queue) := by
  simp only [bufferWriteTimestampedPayload, if_pos hok, bufferCompletePendedReadIrp,
    csqRemoveNextIrp_cons, if_pos hr]

theorem bufferWriteTimestampedPayload_nil {p : RootHubData} {k : Packet}
    (hok : (bufferStorePacket p k.timestamp k.header k.payload).1 = .success) :
    bufferWriteTimestampedPayload p [] k =
      (.success, none, (bufferStorePacket p k.timestamp k.header k.payload).2, []) := by
  simp only [bufferWriteTimestampedPayload, if_pos hok, bufferCompletePendedReadIrp,
    csqRemoveNextIrp_nil]

/-- A packet that is not stored completes no read. -/
theorem bufferWriteTimestampedPayload_rejected {p : RootHubData} {k : Packet}
    (hno : (bufferStorePacket p k.timestamp k.header k.payload).1 ≠ .success)
    (queue : List ReadIrp) :
    bufferWriteTimestampedPayload p queue k =
      ((bufferStorePacket p k.timestamp k.header k.payload).1, none,
        (bufferStorePacket p k.timestamp k.header k.payload).2, queue) := by
  rw [bufferWriteTimestampedPayload, if_neg hno]

/-- The packet is stored: its payload passes the sanity check and its record fits. -/
def Packet.Accepted (p : RootHubData) (k : Packet) : Prop :=
  payloadShortfall p.snaplen k.header k.payload ≤ 16 ∧
    16 + (packetInclLen p.snaplen k.header.header).toNat ≤ getBufferFree p

instance (p : RootHubData) (k : Packet) : Decidable (k.Accepted p) :=
  inferInstanceAs (Decidable (_ ∧ _))

/-- The number of bytes that storing the packet adds to the ring. -/
def Packet.recordSize (p : RootHubData) (k : Packet) : ℕ :=
  16 + ((packetInclLen p.snaplen k.header.header).toNat -
    payloadShortfall p.snaplen k.header k.payload)

theorem Packet.length_storedBytes (p : RootHubData) (k : Packet) :
    (storedBytes p k.timestamp k.header k.payload).length = k.recordSize p := by
  rw [storedBytes, List.length_append, PcaprecHdr.length_bytes, length_recordBody,
    Packet.recordSize]

/-- A packet is stored whole, or nothing changes. -/
theorem bufferStorePacket_outcome {p : RootHubData} (h : RingOk p) (k : Packet) :
    (¬ k.Accepted p ∧ (bufferStorePacket p k.timestamp k.header k.payload).1 ≠ .success ∧
      (bufferStorePacket p k.timestamp k.header k.payload).2 = p) ∨
    (k.Accepted p ∧ (bufferStorePacket p k.timestamp k.header k.payload).1 = .success ∧
      Appends p (storedBytes p k.timestamp k.header k.payload)
        (bufferStorePacket p k.timestamp k.header k.payload).2) := by
  rcases bufferStorePacket_cases h k.timestamp k.header k.payload with
    ⟨hshort, heq⟩ | ⟨-, hfull, heq⟩ | ⟨hshort, hroom, hok, happ⟩
  · refine Or.inl ⟨fun hacc => ?_, by rw [heq]; exact nofun, by rw [heq]⟩
    exact Nat.not_lt_of_le hacc.1 hshort
  · refine Or.inl ⟨fun hacc => ?_, by rw [heq]; exact nofun, by rw [heq]⟩
    exact Nat.not_lt_of_le hacc.2 hfull
  · exact Or.inr ⟨⟨hshort, hroom⟩, hok, happ⟩

end UsbPcap.Driver
