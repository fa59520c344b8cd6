import UsbPcap.Lib.Transition
import UsbPcap.Driver.Session

/-!
# Framing of the captured stream

User mode reads a global header and then records. The sanity check of `USBPcapBufferStorePacket`
lets a payload through that falls short of its record by up to 16 bytes: the check subtracts the
size of the record header, which `incl_len` does not count. `Session.stream_framed_iff` says that
such packets are the only way to lose the framing.
-/

namespace UsbPcap.Driver

open Format

/-- `USBPcapURBGetBufferPointer`; an MDL is given by what `MmGetSystemAddressForMdlSafe` returns
for it. -/
def urbGetBufferPointer (length : UInt32) (buffer : Option (List UInt8))
    (bufferMDL : Option (Option (List UInt8))) : Option (List UInt8) :=
  if length = 0 then none
  else
    match buffer, bufferMDL with
    | some b, _ => some b
    | none, some address => address
    | none, none => none

namespace Session

/-- The run function as a transition system; every call is enabled everywhere. -/
def call (s : Session) (op : Op) : Option Session := some (s.step op)

theorem run_call (s : Session) (ops : List Op) : Transition.run call s ops = some (s.run ops) := by
  induction ops generalizing s with
  | nil => rfl
  | cons op ops ih => exact ih (s.step op)

theorem inv_of_reachable {snaplen : UInt32} {s : Session}
    (h : Transition.Reachable call (init snaplen) s) : s.Inv := by
  obtain ⟨ops, hops⟩ := h
  rw [run_call] at hops
  obtain rfl := Option.some.inj hops
  exact run_inv (init_inv snaplen) ops

/-- The stream of the buffer's current life, read and unread, is the global header followed by
whole records. -/
def Framed (s : Session) : Prop :=
  s.data.buffer ≠ none → ∃ records, recordFraming.Whole records ∧
    s.delivered ++ unread s.data = (globalHeader s.data.snaplen).bytes ++ records

/-- The call does not store a packet with 1 to 16 bytes of payload missing. -/
def PayloadCovered (s : Session) : Op → Prop
  | .storePacket k =>
    ¬ (s.data.buffer ≠ none ∧
      16 + (packetInclLen s.data.snaplen k.header.header).toNat ≤ getBufferFree s.data ∧
      0 < payloadShortfall s.data.snaplen k.header k.payload ∧
      payloadShortfall s.data.snaplen k.header k.payload ≤ 16)
  | _ => True

/-! ## What a call does to the history -/

/-- A call leaves no buffer behind, starts a new life, adds nothing to the stream, or stores a
packet that fits. Only the last can be a short one. -/
theorem step_cases {s : Session} (hi : s.Inv) (op : Op) :
    (s.PayloadCovered op ∧
      ((s.step op).data.buffer = none ∨
        (∃ p, s.step op = restart p) ∨
        (s.data.buffer ≠ none ∧ (s.step op).data.snaplen = s.data.snaplen ∧
          (s.step op).written = s.written ∧ (s.step op).accepted = s.accepted))) ∨
    ∃ k, op = .storePacket k ∧ s.data.buffer ≠ none ∧
      16 + (packetInclLen s.data.snaplen k.header.header).toNat ≤ getBufferFree s.data ∧
      payloadShortfall s.data.snaplen k.header k.payload ≤ 16 ∧
      (s.step op).data.buffer ≠ none ∧ (s.step op).data.snaplen = s.data.snaplen ∧
      (s.step op).written = s.written ++ storedBytes s.data k.timestamp k.header k.payload ∧
      (s.step op).accepted = s.accepted ++ [k] := by
  have hring : s.data.buffer ≠ none → RingOk s.data := by
    intro hb
    obtain ⟨c, hc⟩ := hi.resolve_left hb
    exact hc.ring
  cases op with
  | setUpBuffer bytes pool =>
    refine Or.inl ⟨trivial, ?_⟩
    rcases setUpBuffer_cases hring bytes pool with
      ⟨hne, heq⟩ | ⟨hok, -, ⟨hnone, -⟩ | ⟨hsome, -, hholds⟩⟩
    · simp only [step, if_neg fun hc : s.data.buffer = none ∧ _ => hne hc.2, heq]
      by_cases hnone : s.data.buffer = none
      · exact Or.inl hnone
      · exact Or.inr (Or.inr ⟨hnone, trivial, trivial, trivial⟩)
    · simp only [step, if_pos (And.intro hnone hok)]
      exact Or.inr (Or.inl ⟨_, rfl⟩)
    · simp only [step, if_neg fun h : s.data.buffer = none ∧ _ => hsome h.1]
      exact Or.inr (Or.inr ⟨hsome, hholds.snaplen_eq, trivial, trivial⟩)
  | setSnaplenSize bytes =>
    -- refused while there is a buffer
    refine Or.inl ⟨trivial, ?_⟩
    by_cases hnone : s.data.buffer = none
    · left
      simp only [step, setSnaplenSize]
      repeat' split
      all_goals exact hnone
    · refine Or.inr (Or.inr ⟨hnone, ?_, rfl, rfl⟩)
      simp only [step, setSnaplenSize, if_pos hnone]
      split <;> rfl
  | storePacket k =>
    -- refused packets leave the history alone; an accepted one is the second alternative
    by_cases hnone : s.data.buffer = none
    · refine Or.inl ⟨fun hc => hc.1 hnone, Or.inl ?_⟩
      rcases bufferStorePacket_no_buffer hnone k.timestamp k.header k.payload with heq | heq
      all_goals
        simp only [step, heq, reduceCtorEq, if_false]
        exact hnone
    · simp only [PayloadCovered]
      rcases bufferStorePacket_cases (hring hnone) k.timestamp k.header k.payload with
        ⟨hlarge, heq⟩ | ⟨-, hfull, heq⟩ | ⟨hle, hroom, hok, happ⟩
      · refine Or.inl ⟨by omega, Or.inr (Or.inr ⟨hnone, ?_⟩)⟩
        simp only [step, heq, reduceCtorEq, if_false, and_self]
      · refine Or.inl ⟨by omega, Or.inr (Or.inr ⟨hnone, ?_⟩)⟩
        simp only [step, heq, reduceCtorEq, if_false, and_self]
      · refine Or.inr ⟨k, rfl, hnone, hroom, hle, ?_⟩
        simp only [step, if_pos hok]
        exact ⟨happ.ring.buffer_ne_none, happ.snaplen_eq, trivial, trivial⟩
  | read n =>
    refine Or.inl ⟨trivial, ?_⟩
    by_cases hnone : s.data.buffer = none
    · exact Or.inl ((bufferRead_buffer s.data n.toNat).trans hnone)
    · exact Or.inr (Or.inr ⟨hnone, bufferRead_snaplen s.data n.toNat, rfl, rfl⟩)
  | initializeBuffer =>
    refine Or.inl ⟨trivial, ?_⟩
    simp only [step]
    split
    · rename_i hnone
      exact Or.inl hnone
    · exact Or.inr (Or.inl ⟨_, rfl⟩)
  | removeBuffer =>
    refine Or.inl ⟨trivial, Or.inl ?_⟩
    simp only [step, bufferRemoveBuffer]
    split
    · assumption
    · rfl

/-- With a buffer, what is framed is what was written. -/
theorem Refines.framed_iff {s : Session} {c : Channel UInt8} (h : Refines s c) :
    s.Framed ↔ ∃ records, recordFraming.Whole records ∧
      s.written = (globalHeader s.data.snaplen).bytes ++ records := by
  have heq : s.delivered ++ unread s.data = s.written := by
    rw [← h.delivered, ← h.items, ← h.written]
    exact c.conserved
  rw [Framed, heq]
  exact ⟨fun hf => hf h.ring.buffer_ne_none, fun hf _ => hf⟩

/-- From a framed state, a call leads to a framed state exactly when it stores no short record. -/
theorem framed_step_iff {s : Session} (hs : s.Framed) (hi : s.Inv) (op : Op) :
    (s.step op).Framed ↔ s.PayloadCovered op := by
  rcases step_cases hi op with ⟨hcov, hcase⟩ | ⟨k, rfl, hsome, hroom, hle, hb, hsnap, hw, -⟩
  · refine iff_of_true ?_ hcov
    rcases step_inv hi op with hnone | ⟨d, hd⟩
    · exact fun hb => absurd hnone hb
    · rw [hd.framed_iff]
      rcases hcase with hnone | ⟨p, hp⟩ | ⟨hsome, hsnap, hw, -⟩
      · exact absurd hnone hd.ring.buffer_ne_none
      · rw [hp]
        exact ⟨[], Framing.Whole.nil, (List.append_nil _).symm⟩
      · obtain ⟨c, hc⟩ := hi.resolve_left hsome
        rw [hw, hsnap]
        exact hc.framed_iff.mp hs
  · obtain ⟨c, hc⟩ := hi.resolve_left hsome
    obtain ⟨records, hwhole, hwritten⟩ := hc.framed_iff.mp hs
    obtain ⟨d, hd⟩ := (step_inv hi (.storePacket k)).resolve_left hb
    rw [hd.framed_iff, hw, hsnap, hwritten]
    constructor
    · rintro ⟨records', hwhole', heq⟩ ⟨-, -, hshort, -⟩
      -- the new records are the old ones and one that is too short
      rw [List.append_assoc] at heq
      obtain rfl := List.append_cancel_left heq
      rw [Framing.Whole.append_iff recordLen_nil hwhole, storedBytes] at hwhole'
      refine not_whole_of_short_body _ ?_ hwhole'
      rw [length_recordBody, inclLen_initializePcapHeader]
      rw [payloadShortfall] at hshort ⊢
      omega
    · intro hcov
      have hzero : payloadShortfall s.data.snaplen k.header k.payload = 0 := by
        by_contra hne
        exact hcov ⟨hsome, hroom, by omega, hle⟩
      exact ⟨records ++ storedBytes s.data k.timestamp k.header k.payload,
        hwhole.concat (storedBytes_isFrame hzero k.timestamp), List.append_assoc ..⟩

theorem framed_init (snaplen : UInt32) : (init snaplen).Framed := fun hb => absurd rfl hb

/-- **Framing is lost only to short payloads.** In a run of calls, every state with a buffer has a
stream of one global header and whole records exactly when no call stores a packet whose payload
falls 1 to 16 bytes short of its record. -/
theorem stream_framed_iff (snaplen : UInt32) (ops : List Op) :
    Transition.Always call Framed (init snaplen) ops ↔
      Transition.Along call PayloadCovered (init snaplen) ops := by
  refine Transition.always_iff_along (framed_init snaplen) ?_ (run_call _ ops)
  intro s op t hr hs hst
  obtain rfl := Option.some.inj hst
  exact framed_step_iff hs (inv_of_reachable hr) op

/-! ## A bulk transfer whose MDL cannot be mapped -/

/-- The header of an eight byte bulk transfer. -/
def bulkHeader : PacketHeader where
  header := { headerLen := 27, irpId := 1, status := 0, function := 9, info := 0, bus := 1
              device := 2, endpoint := 0x81, transfer := 3, dataLength := 8 }
  ext := []
  covered := by decide

/-- The packet that is stored for it when the MDL cannot be mapped. -/
def unmappedBulk : Packet where
  timestamp := 0
  header := bulkHeader
  payload := packetPayload bulkHeader (urbGetBufferPointer 8 none (some none)) nofun

/-- The packet is accepted although its record announces eight bytes more than it has. -/
theorem unmapped_bulk_loses_framing :
    ¬ Transition.Always call Framed (init 65535)
      [.setUpBuffer 4096 (some zeroBlock), .storePacket unmappedBulk] := by
  intro h
  have hcreated := (setUpBuffer_create (p := (init 65535).data) rfl
    (show validBufferSize 4096 from ⟨by decide, by decide⟩) zeroBlock).2
  have hframed := h [.setUpBuffer 4096 (some zeroBlock)] _ ⟨[.storePacket unmappedBulk], rfl⟩ rfl
  have hinv := step_inv (init_inv 65535) (.setUpBuffer 4096 (some zeroBlock))
  -- there is room for 16 + 35 bytes, and the eight payload bytes are missing
  refine (framed_step_iff hframed hinv (.storePacket unmappedBulk)).mp
    (h _ _ (List.prefix_refl _) rfl) ⟨hcreated.ring.buffer_ne_none, ?_, by decide, by decide⟩
  have hcount := hcreated.ring.free_add_allocated
  have hlen := hcreated.ring.length_unread
  rw [hcreated.unread_eq, PcapHdr.length_bytes] at hlen
  have hsize := hcreated.bufferSize_eq
  change 16 + 35 ≤ getBufferFree (setUpBuffer (init 65535).data 4096 (some zeroBlock)).2
  change _ = 4096 at hsize
  omega

end Session

end UsbPcap.Driver
