import UsbPcap.Driver.Deferred
import UsbPcap.Driver.RoundTrip

/-!
# Recorded lengths

`incl_len` and `orig_len` of a record come from two sums of 32 bits: the eight setup bytes and the
OUT data of a control transfer, and the packet header and its data. `Session.lengths_truthful_iff`
says that the recorded lengths are right as long as the exact sum needs no more than 32 bits.
-/

namespace UsbPcap.Driver

open Format

/-- `orig_len` of the record header in front of a stream. -/
def origLen (bs : List UInt8) : ℕ := field 12 4 bs

theorem origLen_bytes_append (h : PcaprecHdr) (xs : List UInt8) :
    origLen (h.bytes ++ xs) = h.origLen.toNat := by
  rw [origLen, PcaprecHdr.bytes]
  simp (disch := omega) only [List.append_assoc, field_skip, Nat.reduceSub, field_encode]
  exact Nat.mod_eq_of_lt h.origLen.toNat_lt

/-! ## What the driver logs -/

/-- What is in memory at an address: nothing at `NULL`, the rest of the buffer and whatever stands
behind it, or anything. -/
def Address.Reads : Address → Option (List UInt8) → Prop
  | .null, memory => memory = none
  | .within buffer offset, memory => ∃ behind, memory = some (buffer.drop offset ++ behind)
  | .fromNull _, memory => memory ≠ none

/-- The packet is what the buffer gets to see of a call. -/
structure Packet.Sees (k : Packet) (w : PayloadWrite) : Prop where
  timestamp : k.timestamp = w.timestamp
  header : k.header = w.header
  payload : List.Forall₂ (fun e a => e.size = a.size ∧ a.buffer.Reads e.buffer) k.payload w.payload

/-- The packet comes from the analysis of some URB. -/
def Packet.Logged (k : Packet) : Prop :=
  ∃ root irp urb post env data, ∃ w ∈ (analyzeUrb root irp urb post env data).writes, k.Sees w

/-- The header of a control transfer's `SETUP` record. -/
def PacketHeader.isSetup (h : PacketHeader) : Bool :=
  h.header.transfer = transferControl && h.ext.head? = some controlStageSetup

/-- `dataLength` without wrapping: in a `SETUP` record the sum of the setup packet and the OUT
data, otherwise what the header says. -/
def Packet.exactDataLength (k : Packet) : ℕ :=
  if k.header.isSetup then (k.payload.map fun e => e.size.toNat).sum
  else k.header.header.dataLength.toNat

/-- The exact length of the captured packet. -/
def Packet.exactLength (k : Packet) : ℕ := k.header.header.headerLen.toNat + k.exactDataLength

theorem Packet.Sees.sizes {k : Packet} {w : PayloadWrite} (h : k.Sees w) :
    k.payload.map (fun e => e.size.toNat) = w.payload.map fun e => e.size.toNat := by
  have hpayload := h.payload
  generalize k.payload = es, w.payload = as at hpayload
  induction hpayload with
  | nil => rfl
  | cons hea _ ih => rw [List.map_cons, List.map_cons, hea.1, ih]

section

variable (root : RootData) (irp : Pirp) (urb : Urb) (env : Surroundings) (data : DeviceData)

/-- The `SETUP` record of a control transfer has eight bytes and the OUT data. -/
theorem exactDataLength_setup (transfer : ControlTransfer) {k : Packet}
    (h : k.Sees (analyzeControlTransfer root irp urb false env data transfer)) :
    k.exactDataLength = 8 +
      (if fromDevice transfer.transferFlags = false then transfer.transferBufferLength.toNat
        else 0) := by
  have hsetup : k.header.isSetup = true := by
    rw [h.header]
    rfl
  rw [Packet.exactDataLength, if_pos hsetup, h.sizes]
  simp only [analyzeControlTransfer, if_true, dataBufferLength_eq]
  split <;> simp

/-- Headers without a stage byte are no `SETUP` headers. -/
theorem isSetup_of_ext_nil {h : PacketHeader} (hext : h.ext = []) : h.isSetup = false := by
  rw [PacketHeader.isSetup, hext]
  exact Bool.and_false _

/-- Headers of isochronous transfers are no `SETUP` headers. -/
theorem IsochWrite.isSetup {post : Bool} {transfer : IsochTransfer} {w : PayloadWrite}
    (h : IsochWrite root irp urb post env data transfer w) : w.header.isSetup = false := by
  have htransfer : w.header.header.transfer = transferIsochronous := by
    cases h with
    | empty => rfl
    | outgoing => rfl
    | compacted => rfl
  rw [PacketHeader.isSetup, htransfer]
  exact Bool.false_and _

/-- A control transfer has a `SETUP` record only on its way to the bus driver. -/
theorem analyzeControlTransfer_setup (post : Bool) (transfer : ControlTransfer)
    (h : (analyzeControlTransfer root irp urb post env data transfer).header.isSetup = true) :
    post = false := by
  cases post with
  | false => rfl
  | true => cases h

/-- `SETUP` records come from control transfers. -/
theorem analyzeFiltered_setup (post : Bool) {w : PayloadWrite}
    (h : w ∈ (analyzeFiltered root irp urb post env data).2) (hsetup : w.header.isSetup = true) :
    ∃ transfer, w = analyzeControlTransfer root irp urb false env data transfer := by
  have hplain : w.header.isSetup = false →
      ∃ transfer, w = analyzeControlTransfer root irp urb false env data transfer := by
    intro hno
    rw [hno] at hsetup
    cases hsetup
  cases analyzeFiltered_cases _ _ _ _ _ _ h with
  | control _ transfer =>
    obtain rfl := analyzeControlTransfer_setup _ _ _ _ _ _ _ hsetup
    exact ⟨transfer, rfl⟩
  | bulkOrInterrupt _ transfer =>
    refine hplain (isSetup_of_ext_nil ?_)
    unfold analyzeBulkOrInterruptTransfer
    dsimp only
    split <;> rfl
  | isoch _ _ hw => exact hplain hw.isSetup
  | pipe _ pipeHandle =>
    refine hplain (isSetup_of_ext_nil ?_)
    simp only [analyzePipeRequest, writeTimestampedPacket]
    split <;> rfl
  | currentFrameNumber => exact hplain (isSetup_of_ext_nil rfl)
  | unknown => exact hplain (isSetup_of_ext_nil rfl)

theorem analyzeUrb_setup (post : Bool) {w : PayloadWrite}
    (h : w ∈ (analyzeUrb root irp urb post env data).writes) (hsetup : w.header.isSetup = true) :
    ∃ data transfer, w = analyzeControlTransfer root irp urb false env data transfer := by
  rcases writes_cases _ _ _ _ _ _ h with ⟨info, rfl⟩ | ⟨d, hown⟩
  · rw [isSetup_of_ext_nil rfl] at hsetup
    cases hsetup
  · exact ⟨d, analyzeFiltered_setup _ _ _ _ _ _ hown hsetup⟩

end

/-- `dataLength` is the exact data length, cut to 32 bits. -/
theorem Packet.Logged.dataLength {k : Packet} (h : k.Logged) :
    k.header.header.dataLength.toNat = k.exactDataLength % 2 ^ 32 := by
  obtain ⟨root, irp, urb, post, env, data, w, hw, hsees⟩ := h
  by_cases hsetup : w.header.isSetup = true
  · obtain ⟨data, transfer, rfl⟩ := analyzeUrb_setup _ _ _ _ _ _ hw hsetup
    rw [exactDataLength_setup _ _ _ _ _ _ hsees, hsees.header]
    simp only [analyzeControlTransfer, if_true, dataBufferLength_eq]
    split
    · exact UInt32.toNat_add 8 _
    · rfl
  · rw [exactDataLength, hsees.header, if_neg hsetup]
    exact (Nat.mod_eq_of_lt (UInt32.toNat_lt _)).symm

/-! ## Recorded lengths -/

/-- `orig_len` of a stored packet is its exact length, cut to 32 bits. -/
theorem origLen_storedBytes {k : Packet} (h : k.Logged) (p : RootHubData) :
    origLen (storedBytes p k.timestamp k.header k.payload) = k.exactLength % 2 ^ 32 := by
  have hbytes : (packetBytes k.header.header).toNat = k.exactLength % 2 ^ 32 := by
    rw [packetBytes, UInt32.toNat_add, UInt16.toNat_toUInt32, h.dataLength, Packet.exactLength]
    exact Nat.add_mod_mod ..
  rw [storedBytes, origLen_bytes_append]
  exact hbytes

/-- `incl_len` of a stored packet is its `orig_len`, limited by the snaplen. -/
theorem inclLen_storedBytes (k : Packet) (p : RootHubData) :
    inclLen (storedBytes p k.timestamp k.header k.payload) =
      min (origLen (storedBytes p k.timestamp k.header k.payload)) p.snaplen.toNat := by
  rw [storedBytes, origLen_bytes_append, PcaprecHdr.inclLen_bytes_append,
    inclLen_initializePcapHeader, packetInclLen]
  change _ = min (packetBytes k.header.header).toNat p.snaplen.toNat
  split
  · rename_i hlt
    exact (Nat.min_eq_right (Nat.le_of_lt (UInt32.lt_iff_toNat_lt.mp hlt))).symm
  · rename_i hge
    rw [UInt32.lt_iff_toNat_lt] at hge
    exact (Nat.min_eq_left (Nat.le_of_not_lt hge)).symm

namespace Session

/-- As long as there is a buffer, no call changes the snaplen. -/
theorem step_snaplen {s : Session} (hi : s.Inv) (hb : s.data.buffer ≠ none) (op : Op) :
    (s.step op).data.snaplen = s.data.snaplen := by
  obtain ⟨c, hc⟩ := hi.resolve_left hb
  cases op with
  | setUpBuffer bytes pool =>
    simp only [step, if_neg fun h : s.data.buffer = none ∧ _ => hb h.1]
    rcases setUpBuffer_cases (fun _ => hc.ring) bytes pool with
      ⟨-, heq⟩ | ⟨-, -, ⟨hnone, -⟩ | ⟨-, -, hholds⟩⟩
    · rw [heq]
    · exact absurd hnone hb
    · exact hholds.snaplen_eq
  | setSnaplenSize bytes =>
    -- refused while there is a buffer
    simp only [step, setSnaplenSize, if_pos hb]
    split <;> rfl
  | storePacket k =>
    simp only [step]
    rcases bufferStorePacket_cases hc.ring k.timestamp k.header k.payload with
      ⟨-, heq⟩ | ⟨-, -, heq⟩ | ⟨-, -, hok, happ⟩
    · rw [heq, if_neg (fun h => by cases h)]
    · rw [heq, if_neg (fun h => by cases h)]
    · rw [if_pos hok]
      exact happ.snaplen_eq
  | read n => exact bufferRead_snaplen s.data n.toNat
  | initializeBuffer =>
    have hsize := hc.size
    simp only [step, if_neg hb]
    exact (bufferInitializeBuffer_holds hc.ring (by omega)).snaplen_eq
  | removeBuffer =>
    simp only [step, bufferRemoveBuffer]
    split <;> rfl

/-- What has been accepted was stored by one of the calls. -/
theorem mem_of_accepted {s : Session} {ops : List Op} {k : Packet}
    (h : k ∈ (s.run ops).accepted) : k ∈ s.accepted ∨ Op.storePacket k ∈ ops := by
  induction ops generalizing s with
  | nil => exact Or.inl h
  | cons op ops ih =>
    rcases ih h with hstep | hmem
    · cases op with
      | storePacket j =>
        simp only [step] at hstep
        split at hstep
        · rcases List.mem_append.mp hstep with hold | hnew
          · exact Or.inl hold
          · obtain rfl := List.mem_singleton.mp hnew
            exact Or.inr List.mem_cons_self
        · exact Or.inl hstep
      | setUpBuffer bytes pool =>
        simp only [step] at hstep
        split at hstep
        · cases hstep
        · exact Or.inl hstep
      | initializeBuffer =>
        simp only [step] at hstep
        split at hstep
        · exact Or.inl hstep
        · cases hstep
      | setSnaplenSize bytes => exact Or.inl hstep
      | read n => exact Or.inl hstep
      | removeBuffer => exact Or.inl hstep
    · exact Or.inr (List.mem_cons_of_mem _ hmem)

/-- The stream is the global header with the snaplen, which stays, and a record for each accepted
packet; the records say how long the packets are. -/
structure LengthsTruthful (s : Session) : Prop where
  stream : s.delivered ++ unread s.data =
    (globalHeader s.data.snaplen).bytes ++ storedStream s.data s.accepted
  snaplen : ∀ op, (s.step op).data.snaplen = s.data.snaplen
  origLen : ∀ k ∈ s.accepted,
    Driver.origLen (storedBytes s.data k.timestamp k.header k.payload) = k.exactLength
  inclLen : ∀ k ∈ s.accepted, Format.inclLen (storedBytes s.data k.timestamp k.header k.payload) =
    min k.exactLength s.data.snaplen.toNat

/-- **Recorded lengths are truthful as long as 32 bits hold them.** After any run of calls whose
packets come from URBs, if there is a buffer, every record of its stream has the exact length of its
packet and of its packet cut to the snaplen, exactly when no accepted packet has a length of 2³² or
more. -/
theorem lengths_truthful_iff (snaplen : UInt32) (ops : List Op) {s : Session}
    (hs : (init snaplen).run ops = s) (hb : s.data.buffer ≠ none)
    (hlogged : ∀ k, Op.storePacket k ∈ ops → k.Logged) :
    s.LengthsTruthful ↔ ∀ k ∈ s.accepted, k.exactLength < 2 ^ 32 := by
  have hinv : s.Inv := hs ▸ run_inv (init_inv snaplen) ops
  have hacc : ∀ k ∈ s.accepted, k.Logged := by
    intro k hk
    rw [← hs] at hk
    exact hlogged k ((mem_of_accepted hk).resolve_left List.not_mem_nil)
  constructor
  · intro h k hk
    rw [← h.origLen k hk, origLen_storedBytes (hacc k hk)]
    exact Nat.mod_lt _ (by decide)
  · intro h
    have horig : ∀ k ∈ s.accepted,
        Driver.origLen (storedBytes s.data k.timestamp k.header k.payload) = k.exactLength := by
      intro k hk
      rw [origLen_storedBytes (hacc k hk)]
      exact Nat.mod_eq_of_lt (h k hk)
    refine ⟨stream_eq hs hb, step_snaplen hinv hb, horig, fun k hk => ?_⟩
    rw [inclLen_storedBytes, horig k hk]

/-! ## A length that wraps -/

/-- A control transfer with 2³² − 1 bytes of OUT data in an MDL that cannot be mapped. -/
def hugeTransfer : ControlTransfer where
  transferBufferLength := 0xFFFFFFFF
  transferBuffer := none
  transferBufferMDL := some none
  pipeHandle := 0
  transferFlags := usbdTransferDirectionOut
  setupPacket := ⟨[0x40, 1, 0, 0, 0, 0, 0xFF, 0xFF], rfl⟩

/-- Its URB. -/
def hugeUrb : Urb where
  length := 136
  status := 0
  body := .controlTransfer hugeTransfer

theorem covered_outData (b : List UInt8) (h : none = some b) :
    (0xFFFFFFFF : UInt32).toNat ≤ b.length := by
  cases h

theorem covered_end (b : List UInt8) (h : none = some b) : (0 : UInt32).toNat ≤ b.length := by
  cases h

theorem covered_setupPacket (b : List UInt8) (h : some hugeTransfer.setupPacket.1 = some b) :
    (8 : UInt32).toNat ≤ b.length := by
  obtain rfl := Option.some.inj h
  decide

/-- What the buffer sees of its submission. -/
def hugeSetup : Packet where
  timestamp := 5
  header := controlHeader Target.filteredRoot 1 hugeUrb false (Target.init Target.filteredRoot).data
    0 (8 + 0xFFFFFFFF) controlStageSetup
  payload :=
    [⟨8, some hugeTransfer.setupPacket.1, covered_setupPacket⟩, ⟨0xFFFFFFFF, none, covered_outData⟩,
      ⟨0, none, covered_end⟩]

theorem hugeSetup_logged : hugeSetup.Logged := by
  refine ⟨Target.filteredRoot, 1, hugeUrb, false, Target.plentiful,
    (Target.init Target.filteredRoot).data, analyzeControlTransfer Target.filteredRoot 1 hugeUrb
      false Target.plentiful (Target.init Target.filteredRoot).data hugeTransfer,
    List.mem_singleton.mpr rfl, rfl, rfl, ?_⟩
  refine .cons ⟨rfl, [], rfl⟩ (.cons ⟨rfl, rfl⟩ (.cons ⟨rfl, rfl⟩ .nil))

/-- A buffer in which it was stored. -/
def hugeSession : Session :=
  (init 65535).run [.setUpBuffer 4096 (some zeroBlock), .storePacket hugeSetup]

/-- The packet is accepted with a length of 35 bytes. -/
theorem setup_length_wraps : hugeSetup.Logged ∧ hugeSetup ∈ hugeSession.accepted ∧
    ¬ hugeSession.LengthsTruthful := by
  have hmem : hugeSetup ∈ hugeSession.accepted := List.mem_singleton.mpr rfl
  refine ⟨hugeSetup_logged, hmem, fun h => ?_⟩
  have horig := h.origLen hugeSetup hmem
  rw [origLen_storedBytes hugeSetup_logged] at horig
  exact absurd horig (by decide)

theorem lengths_truthful_iff_huge :
    hugeSession.LengthsTruthful ↔ ∀ k ∈ hugeSession.accepted, k.exactLength < 2 ^ 32 := by
  refine lengths_truthful_iff 65535 _ (s := hugeSession) rfl (by decide) fun k hk => ?_
  rcases List.mem_cons.mp hk with hset | hstore
  · cases hset
  · obtain rfl := Op.storePacket.inj (List.mem_singleton.mp hstore)
    exact hugeSetup_logged

end Session

end UsbPcap.Driver
