import UsbPcap.Lib.Channel
import UsbPcap.Driver.Store

/-!
# Runs of the capture buffer

A `Session` is the buffer together with the history of its current life: what was written since the
buffer was created or initialised, what reads returned, and which packets were accepted. Every run
of buffer operations refines a bounded `Channel` (`Session.run_inv`), so reads followed by the
unread bytes are always exactly what was written.
-/

namespace UsbPcap.Driver

open Memory Format

/-- The arguments of one call of `USBPcapBufferStorePacket`. -/
structure Packet where
  timestamp : ℤ
  header : PacketHeader
  payload : List PayloadEntry

/-- The calls that change the buffer. -/
inductive Op where
  | setUpBuffer (bytes : UInt32) (pool : Option (Block bytes.toNat))
  | setSnaplenSize (bytes : UInt32)
  | storePacket (k : Packet)
  | read (destBufferSize : UInt32)
  | initializeBuffer
  | removeBuffer

/-- The buffer and the history of its current life. -/
structure Session where
  data : RootHubData
  written : List UInt8
  delivered : List UInt8
  accepted : List Packet

namespace Session

/-- The root hub data as `AddDevice` initialises it, with the snaplen left open. -/
def init (snaplen : UInt32) : Session where
  data := { buffer := none, bufferSize := 0, readOffset := 0, writeOffset := 0, snaplen := snaplen }
  written := []
  delivered := []
  accepted := []

/-- A new life of the buffer: only the global header has been written. -/
def restart (data : RootHubData) : Session where
  data := data
  written := (globalHeader data.snaplen).bytes
  delivered := []
  accepted := []

/-- One call. -/
def step (s : Session) : Op → Session
  | .setUpBuffer bytes pool =>
    let r := setUpBuffer s.data bytes pool
    if s.data.buffer = none ∧ r.1 = .success then restart r.2 else { s with data := r.2 }
  | .setSnaplenSize bytes => { s with data := (setSnaplenSize s.data bytes).2 }
  | .storePacket k =>
    let r := bufferStorePacket s.data k.timestamp k.header k.payload
    if r.1 = .success then
      { s with
        data := r.2
        written := s.written ++ storedBytes s.data k.timestamp k.header k.payload
        accepted := s.accepted ++ [k] }
    else { s with data := r.2 }
  | .read destBufferSize =>
    let r := bufferRead s.data destBufferSize.toNat
    { s with data := r.2, delivered := s.delivered ++ r.1 }
  | .initializeBuffer =>
    if s.data.buffer = none then s else restart (bufferInitializeBuffer s.data)
  | .removeBuffer => { s with data := bufferRemoveBuffer s.data }

/-- A run of calls. -/
def run (s : Session) (ops : List Op) : Session := ops.foldl step s

/-! ## Refinement of a channel -/

/-- The buffer holds what the channel holds, with one byte of the block always left free, and both
have the same history. -/
structure Refines (s : Session) (c : Channel UInt8) : Prop where
  ring : RingOk s.data
  size : 4096 ≤ s.data.bufferSize
  capacity : c.capacity = s.data.bufferSize - 1
  items : c.items = unread s.data
  written : c.written = s.written
  delivered : c.delivered = s.delivered

/-- The invariant of every run: no buffer, or one that refines a channel. -/
def Inv (s : Session) : Prop := s.data.buffer = none ∨ ∃ c, Refines s c

theorem unread_fits {p : RootHubData} (h : RingOk p) : (unread p).length ≤ p.bufferSize - 1 := by
  have := h.length_unread
  have := h.allocated_lt
  omega

/-- A restarted buffer refines a channel that starts with the global header. -/
theorem restart_inv {p : RootHubData} {bufferSize : ℕ} {snaplen : UInt32}
    (h : Holds (globalHeader snaplen).bytes bufferSize snaplen p) (hsize : 4096 ≤ bufferSize) :
    Inv (restart p) := by
  have hfit : (globalHeader p.snaplen).bytes.length ≤ p.bufferSize - 1 := by
    rw [PcapHdr.length_bytes, h.bufferSize_eq]
    omega
  refine Or.inr ⟨Channel.start (p.bufferSize - 1) _ hfit, h.ring, ?_, rfl, ?_, rfl, rfl⟩
  · change 4096 ≤ p.bufferSize
    rw [h.bufferSize_eq]
    exact hsize
  · change (globalHeader p.snaplen).bytes = unread p
    rw [h.unread_eq, h.snaplen_eq]

theorem step_setUpBuffer_inv {s : Session} (h : s.Inv) (bytes : UInt32)
    (pool : Option (Block bytes.toNat)) : (s.step (.setUpBuffer bytes pool)).Inv := by
  simp only [step]
  have hring : s.data.buffer ≠ none → RingOk s.data := by
    intro hb
    obtain ⟨c, hc⟩ := h.resolve_left hb
    exact hc.ring
  rcases setUpBuffer_cases hring bytes pool with
    ⟨hne, heq⟩ | ⟨hok, hvalid, ⟨hnone, hholds⟩ | ⟨hsome, hfit, hholds⟩⟩
  · rw [if_neg fun hc => hne hc.2, heq]
    exact h
  · -- a new buffer starts a new channel
    rw [if_pos ⟨hnone, hok⟩]
    exact restart_inv hholds hvalid.1
  · -- a resize keeps what is unread
    rw [if_neg fun h => hsome h.1]
    obtain ⟨c, hc⟩ := h.resolve_left hsome
    have hitems : c.items.length ≤ bytes.toNat - 1 := by
      rw [hc.items, hc.ring.length_unread]
      omega
    refine Or.inr ⟨c.resize (bytes.toNat - 1) hitems, hholds.ring, ?_, ?_, ?_, hc.written,
      hc.delivered⟩
    · change 4096 ≤ (setUpBuffer s.data bytes pool).2.bufferSize
      rw [hholds.bufferSize_eq]
      exact hvalid.1
    · change bytes.toNat - 1 = (setUpBuffer s.data bytes pool).2.bufferSize - 1
      rw [hholds.bufferSize_eq]
    · exact hc.items.trans hholds.unread_eq.symm

theorem step_storePacket_inv {s : Session} (h : s.Inv) (k : Packet) :
    (s.step (.storePacket k)).Inv := by
  simp only [step]
  rcases h with hnone | ⟨c, hc⟩
  · rcases bufferStorePacket_no_buffer hnone k.timestamp k.header k.payload with hfail | hfail
    all_goals
      rw [hfail, if_neg nofun]
      exact Or.inl hnone
  · rcases bufferStorePacket_cases hc.ring k.timestamp k.header k.payload with
      ⟨-, heq⟩ | ⟨-, -, heq⟩ | ⟨-, hroom, hok, happ⟩
    · rw [heq, if_neg nofun]
      exact Or.inr ⟨c, hc⟩
    · rw [heq, if_neg nofun]
      exact Or.inr ⟨c, hc⟩
    · rw [if_pos hok]
      have hfit := unread_fits happ.ring
      rw [happ.unread_eq, List.length_append, happ.bufferSize_eq] at hfit
      refine Or.inr ⟨c.write (storedBytes s.data k.timestamp k.header k.payload) ?_, happ.ring, ?_,
        ?_, ?_, ?_, hc.delivered⟩
      · rw [hc.items, hc.capacity]
        exact hfit
      · exact hc.size.trans happ.bufferSize_eq.ge
      · exact hc.capacity.trans (congrArg (· - 1) happ.bufferSize_eq.symm)
      · exact (congrArg (· ++ _) hc.items).trans happ.unread_eq.symm
      · exact congrArg (· ++ _) hc.written

theorem step_read_inv {s : Session} (h : s.Inv) (n : UInt32) : (s.step (.read n)).Inv := by
  simp only [step]
  rcases h with hnone | ⟨c, hc⟩
  · exact Or.inl ((bufferRead_buffer s.data n.toNat).trans hnone)
  · have ht := bufferRead_takes hc.ring n.toNat
    refine Or.inr ⟨c.read n.toNat, ht.ring, ?_, ?_, ?_, hc.written, ?_⟩
    · exact hc.size.trans ht.bufferSize_eq.ge
    · exact hc.capacity.trans (congrArg (· - 1) ht.bufferSize_eq.symm)
    · exact (congrArg (List.drop n.toNat) hc.items).trans ht.unread_eq.symm
    · change c.delivered ++ c.items.take n.toNat = _
      rw [hc.delivered, hc.items, ← ht.data_eq]

/-- Every call keeps the invariant. -/
theorem step_inv {s : Session} (h : s.Inv) (op : Op) : (s.step op).Inv := by
  cases op with
  | setUpBuffer bytes pool => exact step_setUpBuffer_inv h bytes pool
  | setSnaplenSize bytes =>
    simp only [step, setSnaplenSize]
    split
    · exact h
    · split
      · exact h
      · rename_i hnone
        exact Or.inl (not_not.mp hnone)
  | storePacket k => exact step_storePacket_inv h k
  | read n => exact step_read_inv h n
  | initializeBuffer =>
    simp only [step]
    split
    · exact h
    · rename_i hsome
      obtain ⟨c, hc⟩ := h.resolve_left hsome
      have hsize := hc.size
      exact restart_inv (bufferInitializeBuffer_holds hc.ring (by omega)) hsize
  | removeBuffer =>
    simp only [step, bufferRemoveBuffer]
    split
    · exact h
    · exact Or.inl rfl

/-- Every run keeps the invariant. -/
theorem run_inv {s : Session} (h : s.Inv) (ops : List Op) : (s.run ops).Inv := by
  induction ops generalizing s with
  | nil => exact h
  | cons op ops ih => exact ih (step_inv h op)

theorem init_inv (snaplen : UInt32) : (init snaplen).Inv := Or.inl rfl

/-- Every run from the initial state that leaves a buffer behind refines a channel. -/
theorem run_refines (snaplen : UInt32) (ops : List Op)
    (hb : ((init snaplen).run ops).data.buffer ≠ none) :
    ∃ c, Refines ((init snaplen).run ops) c :=
  (run_inv (init_inv snaplen) ops).resolve_left hb

/-- **The capture ring is a bounded FIFO.** After any run of calls that leaves a buffer behind,
both offsets are inside the block, one byte of it is never allocated, reads return the unread bytes
from the front, and what was read followed by what is unread is what was written. The next
`USBPcapSetUpBuffer` keeps exactly the unread bytes when the size is valid, the allocation
succeeds and the bytes fit; otherwise it changes nothing. -/
theorem ring_fifo (snaplen : UInt32) (ops : List Op) {s : Session}
    (hs : (init snaplen).run ops = s) (hb : s.data.buffer ≠ none) :
    (s.data.readOffset < s.data.bufferSize ∧ s.data.writeOffset < s.data.bufferSize) ∧
    getBufferAllocated s.data ≤ s.data.bufferSize - 1 ∧
    getBufferFree s.data + getBufferAllocated s.data = s.data.bufferSize - 1 ∧
    (unread s.data).length = getBufferAllocated s.data ∧
    s.delivered ++ unread s.data = s.written ∧
    (∀ n, (bufferRead s.data n).1 = (unread s.data).take n) ∧
    ∀ (bytes : UInt32) (pool : Option (Block bytes.toNat)),
      ((4096 ≤ bytes.toNat ∧ bytes.toNat ≤ 134217728) ∧ pool ≠ none ∧
          getBufferAllocated s.data < bytes.toNat →
        (setUpBuffer s.data bytes pool).1 = .success ∧
        (setUpBuffer s.data bytes pool).2.bufferSize = bytes.toNat ∧
        unread (setUpBuffer s.data bytes pool).2 = unread s.data) ∧
      (¬ ((4096 ≤ bytes.toNat ∧ bytes.toNat ≤ 134217728) ∧ pool ≠ none ∧
          getBufferAllocated s.data < bytes.toNat) →
        (setUpBuffer s.data bytes pool).1 ≠ .success ∧
        (setUpBuffer s.data bytes pool).2 = s.data) := by
  subst hs
  obtain ⟨c, hc⟩ := run_refines snaplen ops hb
  have hring := hc.ring
  have hlt := hring.allocated_lt
  refine ⟨⟨hring.read_lt, hring.write_lt⟩, by omega, hring.free_add_allocated, hring.length_unread,
    ?_, fun n => (bufferRead_takes hring n).data_eq, fun bytes pool => ⟨?_, ?_⟩⟩
  · rw [← hc.delivered, ← hc.items, ← hc.written]
    exact c.conserved
  · rintro ⟨hvalid, hpool, hfit⟩
    obtain ⟨buffer, rfl⟩ := Option.ne_none_iff_exists'.mp hpool
    obtain ⟨hok, hholds⟩ := setUpBuffer_resize hring hvalid hfit buffer
    exact ⟨hok, hholds.bufferSize_eq, hholds.unread_eq⟩
  · -- whatever condition fails, the buffer stays as it was
    intro hfail
    apply setUpBuffer_fail
    by_contra hno
    simp only [not_or, not_not, not_and, Nat.not_le] at hno
    exact hfail ⟨hno.1, hno.2.1, hno.2.2 hb⟩

/-- A block of 4096 zero bytes. -/
def zeroBlock : Block (4096 : UInt32).toNat :=
  ⟨List.replicate 4096 0, by rw [List.length_replicate]; rfl⟩

/-- The larger block that replaces it. -/
def twiceBlock : Block (8192 : UInt32).toNat :=
  ⟨List.replicate 8192 0, by rw [List.length_replicate]; rfl⟩

theorem covered_sevens :
    ∀ b : List UInt8, some (List.replicate 3000 7) = some b → (3000 : UInt32).toNat ≤ b.length := by
  intro b hb
  rw [← Option.some.inj hb, List.length_replicate]
  exact Nat.le_refl _

/-- A bulk packet of 3000 bytes. -/
def longPacket : Packet where
  timestamp := 0
  header :=
    { header := { headerLen := 27, irpId := 1, status := 0, function := 9, info := 0, bus := 1
                  device := 2, endpoint := 0x81, transfer := 3, dataLength := 3000 }
      ext := []
      covered := by decide }
  payload := [⟨3000, some (List.replicate 3000 7), covered_sevens⟩]

/-- The second store and the second read go over the end of the block, and then the block is
replaced by one of twice its size. -/
def wrapping : List Op :=
  [.setUpBuffer 4096 (some zeroBlock), .storePacket longPacket, .read 3067, .storePacket longPacket,
    .read 2000, .setUpBuffer 8192 (some twiceBlock), .read 43]

/-- The two wraps. -/
example :
    ((init 65535).run (wrapping.take 4)).data.writeOffset = 2014 ∧
      ((init 65535).run (wrapping.take 5)).data.readOffset = 971 := by
  decide +kernel

/-- Of the 6110 bytes that were written, 1000 are unread, and they fit a block of 4096 bytes. -/
theorem ring_fifo_wrapping :
    let s := (init 65535).run wrapping
    (s.data.readOffset < 8192 ∧ s.data.writeOffset < 8192) ∧
      getBufferAllocated s.data = 1000 ∧ getBufferFree s.data = 7191 ∧
      (unread s.data).length = 1000 ∧ s.written.length = 6110 ∧
      s.delivered ++ unread s.data = s.written ∧
      (bufferRead s.data 43).1 = (unread s.data).take 43 ∧
      unread (setUpBuffer s.data 4096 (some zeroBlock)).2 = unread s.data ∧
      (setUpBuffer s.data 1024 none).2 = s.data := by
  intro s
  have hbuffer : s.data.buffer.isSome = true := by decide +kernel
  have hsize : s.data.bufferSize = 8192 := by decide +kernel
  have hallocated : getBufferAllocated s.data = 1000 := by decide +kernel
  obtain ⟨hoffsets, -, hfree, hlength, hfifo, hread, hsetUp⟩ :=
    ring_fifo 65535 wrapping (s := s) rfl (Option.isSome_iff_ne_none.mp hbuffer)
  rw [hsize] at hoffsets hfree
  refine ⟨hoffsets, hallocated, by omega, hlength.trans hallocated, by decide +kernel, hfifo,
    hread 43, ?_, ?_⟩
  · refine ((hsetUp 4096 (some zeroBlock)).1 ⟨⟨by decide, by decide⟩, nofun, ?_⟩).2.2
    rw [hallocated]
    decide
  · exact ((hsetUp 1024 none).2 fun h => h.2.1 rfl).2

end Session

end UsbPcap.Driver
