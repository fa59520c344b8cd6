import UsbPcap.Driver.Children
import UsbPcap.Driver.Deferred

/-!
# Failed allocations and mappings

Attaching a filter device and analysing URBs allocate from the pool, and the buffers of URBs have to
be mapped. Not every failure is noticed: the two tables and the block for the configuration
descriptor are used unchecked, and the packets of an isochronous transfer are looked up in a buffer
that need not be mapped. `Target.no_missing_object_iff` says which failures do harm.
-/

namespace UsbPcap.Driver

open Transition

/-! ## Attaching a filter device -/

/-- Which pool allocations succeed while a filter is attached. -/
structure AttachPools where
  deviceData : Bool
  rootData : Bool
  endpointTable : Bool
  urbIrpTable : Bool
deriving DecidableEq, Repr

/-- The pointers in a `USBPCAP_DEVICE_DATA`. -/
structure AllocatedData where
  rootData : Bool
  endpointTable : Option (PipeHandle → Option EndpointInfo)
  urbIrpTable : Option (Pirp → Option UrbIrpInfo)

/-- `USBPcapInitializeEndpointTable` -/
def initializeEndpointTable (allocated : Bool) : Option (PipeHandle → Option EndpointInfo) :=
  if allocated then some fun _ => none else none

/-- `USBPcapInitializeURBIRPInfoTable` -/
def initializeUrbIrpInfoTable (allocated : Bool) : Option (Pirp → Option UrbIrpInfo) :=
  if allocated then some fun _ => none else none

/-- `USBPcapAllocateDeviceData`, with the data of the root hub allocated or taken over from the
parent; the data is freed again when it fails. -/
def allocateDeviceData (allocRoothubData : Bool) (pools : AttachPools) :
    NtStatus × Option AllocatedData :=
  if pools.deviceData = false then (.insufficientResources, none)
  else
    let rootData := if allocRoothubData then pools.rootData else true
    let data : AllocatedData :=
      { rootData := rootData
        endpointTable := initializeEndpointTable pools.endpointTable
        urbIrpTable := initializeUrbIrpInfoTable pools.urbIrpTable }
    if rootData = false then (.insufficientResources, none) else (.success, some data)

/-- `DkCreateAndAttachTgt`, with the steps besides the allocation of the device data: the data of
the filter that it reports as attached. -/
def attachTgt (created objectSet stacked : Bool) (pools : AttachPools) : Option AllocatedData :=
  let r := allocateDeviceData false pools
  if createAndAttachTgt ⟨created, objectSet, r.1 = .success, stacked⟩ then r.2 else none

/-- An attached filter has the tables that could be allocated. -/
theorem attachTgt_tables {created objectSet stacked : Bool} {pools : AttachPools}
    {d : AllocatedData} (h : attachTgt created objectSet stacked pools = some d) :
    d.endpointTable ≠ none ∧ d.urbIrpTable ≠ none ↔
      pools.endpointTable = true ∧ pools.urbIrpTable = true := by
  unfold attachTgt at h
  dsimp only at h
  split at h
  case isFalse => cases h
  unfold allocateDeviceData at h
  split at h
  · cases h
  · obtain rfl := Option.some.inj h
    simp [initializeEndpointTable, initializeUrbIrpInfoTable]

/-! ## Payload entries -/

/-- The entry is empty, or lies in a buffer that is there. A `NULL` entry ends the payload. -/
def AddressEntry.Ok (e : AddressEntry) : Prop :=
  e.size = 0 ∨ e.buffer = .null ∨
    ∃ buffer offset, e.buffer = .within buffer offset ∧ offset + e.size.toNat ≤ buffer.length

/-- The call uses no missing object: descriptors are copied into blocks, and payload entries are
in order. -/
structure Analysis.Sound (r : Analysis) : Prop where
  copies : ∀ block ∈ r.copies, block ≠ none
  payload : ∀ w ∈ r.writes, ∀ e ∈ w.payload, e.Ok

/-- An entry of no bytes covers anything. -/
theorem ok_zero (a : Address) : AddressEntry.Ok ⟨0, a⟩ := Or.inl rfl

/-- A pointer covers an entry where its block has the bytes, or where it is null. -/
theorem ok_ofPointer {size : UInt32} {p : Option (List UInt8)}
    (h : ∀ b, p = some b → size.toNat ≤ b.length) : AddressEntry.Ok ⟨size, .ofPointer p⟩ := by
  cases p with
  | none => exact Or.inr (Or.inl rfl)
  | some b => exact Or.inr (Or.inr ⟨b, 0, rfl, by simpa using h b rfl⟩)

/-- The whole buffer of a URB is in order. -/
theorem ok_pointer (t : TransferBuffer) :
    AddressEntry.Ok ⟨t.transferBufferLength, .ofPointer t.pointer⟩ :=
  ok_ofPointer fun _ h => t.le_length_of_pointer h

/-- So does a packet with one buffer. -/
theorem ok_writeTimestampedPacket {timestamp : ℤ} {header : PacketHeader} {buffer : Address}
    (h : AddressEntry.Ok ⟨header.header.dataLength, buffer⟩) :
    ∀ e ∈ (writeTimestampedPacket timestamp header buffer).payload, e.Ok := by
  intro e he
  rcases List.mem_pair.mp he with rfl | rfl
  · exact h
  · exact ok_zero _

/-- A null pointer is passed over. -/
theorem ok_null (size : UInt32) : AddressEntry.Ok ⟨size, .null⟩ := Or.inr (Or.inl rfl)

/-- An entry for an isochronous packet is in order when the packet lies in the mapped buffer, or
when it is sent to `NULL` itself. -/
theorem ok_index {size offset : UInt32} {p : Option (List UInt8)} :
    AddressEntry.Ok ⟨size, .index p offset⟩ ↔
      size = 0 ∨ p = none ∧ offset = 0 ∨
        ∃ b, p = some b ∧ offset.toNat + size.toNat ≤ b.length := by
  cases p with
  | none =>
    by_cases hzero : offset = 0
    · simp [AddressEntry.Ok, Address.index, hzero]
    · simp [AddressEntry.Ok, Address.index, hzero]
  | some b => simp [AddressEntry.Ok, Address.index]

/-! ## The records of a call -/

section

variable (root : RootData) (irp : Pirp) (urb : Urb) (post : Bool) (env : Surroundings)
  (data : DeviceData)

/-- A control transfer is stored from its own buffers. -/
theorem analyzeControlTransfer_ok (transfer : ControlTransfer) :
    ∀ e ∈ (analyzeControlTransfer root irp urb post env data transfer).payload, e.Ok := by
  have hdata : AddressEntry.Ok
      ⟨if transfer.transferBufferLength ≠ 0 then transfer.transferBufferLength else 0,
        if transfer.transferBufferLength ≠ 0 then .ofPointer transfer.pointer else .null⟩ := by
    split
    · exact ok_pointer transfer.toTransferBuffer
    · exact ok_zero _
  have hsetup : AddressEntry.Ok ⟨8, .within transfer.setupPacket.1 0⟩ :=
    Or.inr (Or.inr ⟨_, 0, rfl, by rw [transfer.setupPacket.2]; exact Nat.le_refl 8⟩)
  intro e he
  cases post with
  | false =>
    simp only [analyzeControlTransfer, if_true, List.mem_cons, List.not_mem_nil, or_false] at he
    rcases he with rfl | rfl | rfl
    · exact hsetup
    · split
      · exact hdata
      · exact ok_zero _
    · exact ok_zero _
  | true =>
    simp only [analyzeControlTransfer, Bool.true_eq_false, if_false, List.mem_cons,
      List.not_mem_nil, or_false] at he
    rcases he with rfl | rfl
    · split
      · exact hdata
      · exact ok_zero _
    · exact ok_zero _

/-- So is a bulk or an interrupt transfer. -/
theorem analyzeBulkOrInterruptTransfer_ok (transfer : BulkOrInterruptTransfer) :
    ∀ e ∈ (analyzeBulkOrInterruptTransfer root irp urb post env data transfer).payload, e.Ok := by
  unfold analyzeBulkOrInterruptTransfer
  dsimp only
  split
  · exact ok_writeTimestampedPacket (ok_pointer transfer.toTransferBuffer)
  · exact ok_writeTimestampedPacket (ok_null _)

/-- The branch that compacts the payload is reached, as far as the URB and the allocations go. -/
def IsochTransfer.Compacts (transfer : IsochTransfer) (env : Surroundings) : Prop :=
  ¬ 1024 < transfer.numberOfPackets ∧ env.isochHeaderPool = true ∧
    transfer.transferBufferLength ≠ 0 ∧
    transfer.transferFlags &&& usbdTransferDirectionIn = usbdTransferDirectionIn ∧
    ¬ transfer.transferBufferLength < compactedLength transfer.packets ∧
    env.isochEntriesPool = true

/-- The packet is empty or lies in the mapped buffer; without one, it has offset 0. -/
def IsoPacket.Inside (p : IsoPacket) (t : TransferBuffer) : Prop :=
  p.length = 0 ∨ t.pointer = none ∧ p.offset = 0 ∨
    ∃ b, t.pointer = some b ∧ p.offset.toNat + p.length.toNat ≤ b.length

/-- A compacted transfer is stored packet by packet. -/
theorem analyzeIsochTransfer_eq {transfer : IsochTransfer} (h : transfer.Compacts env) :
    analyzeIsochTransfer root irp urb true env data transfer =
      some
        { timestamp := env.now
          header := isochHeader root irp urb true data transfer
            (compactedLength transfer.packets) (compactPackets 0 transfer.packets) h.1
            ((length_compactPackets _ _).trans transfer.length_packets)
          payload := compactedPayloadEntries transfer.pointer transfer.packets } := by
  obtain ⟨few, hheader, hlength, hin, hsum, hentries⟩ := h
  unfold analyzeIsochTransfer
  rw [dif_neg few, if_neg (by simp [hheader])]
  dsimp only
  rw [if_neg hlength, if_pos ⟨hin, rfl⟩, if_neg hsum, if_neg (by simp [hentries])]

/-- Its entries are those of the packets. -/
theorem analyzeIsochTransfer_compacts {transfer : IsochTransfer} (h : transfer.Compacts env) :
    ∃ w, analyzeIsochTransfer root irp urb true env data transfer = some w ∧
      w.payload = compactedPayloadEntries transfer.pointer transfer.packets :=
  ⟨_, analyzeIsochTransfer_eq root irp urb env data h, rfl⟩

/-- They are covered exactly when every packet lies in the buffer. -/
theorem compactedPayloadEntries_ok {t : TransferBuffer} {packets : List IsoPacket} :
    (∀ e ∈ compactedPayloadEntries t.pointer packets, e.Ok) ↔ ∀ p ∈ packets, p.Inside t := by
  simp only [compactedPayloadEntries, List.mem_append, List.mem_map, List.mem_singleton]
  constructor
  · intro h p hp
    exact ok_index.mp (h _ (Or.inl ⟨p, hp, rfl⟩))
  · rintro h e (⟨p, hp, rfl⟩ | rfl)
    · exact ok_index.mpr (h p hp)
    · exact ok_zero _

/-- The second `switch` passes on what is in order, unless it compacts an isochronous payload. -/
theorem analyzeFiltered_ok {w : PayloadWrite}
    (h : w ∈ (analyzeFiltered root irp urb post env data).2) :
    (∀ e ∈ w.payload, e.Ok) ∨ ∃ transfer, urb.body = .isochTransfer transfer ∧ post = true ∧
      transfer.Compacts env ∧
      w.payload = compactedPayloadEntries transfer.pointer transfer.packets := by
  cases analyzeFiltered_cases _ _ _ _ _ _ h with
  | control => exact Or.inl (analyzeControlTransfer_ok _ _ _ _ _ _ _)
  | bulkOrInterrupt => exact Or.inl (analyzeBulkOrInterruptTransfer_ok _ _ _ _ _ _ _)
  | @isoch _ transfer _ hbody hw =>
    cases hw with
    | empty => exact Or.inl (ok_writeTimestampedPacket (ok_null _))
    | outgoing =>
      exact Or.inl (ok_writeTimestampedPacket (ok_pointer transfer.toTransferBuffer))
    | compacted few hpost hheader hlength hin hsum hentries =>
      exact Or.inr ⟨transfer, hbody, hpost, ⟨few, hheader, hlength, hin, hsum, hentries⟩, rfl⟩
  | pipe => exact Or.inl (ok_writeTimestampedPacket (ok_null _))
  | currentFrameNumber =>
    refine Or.inl (ok_writeTimestampedPacket (Or.inr (Or.inr ⟨_, 0, rfl, ?_⟩)))
    rw [LittleEndian.length_encode]
    cases post with
    | false => exact Nat.zero_le 4
    | true => exact Nat.le_refl 4
  | unknown => exact Or.inl (ok_writeTimestampedPacket (ok_null _))

/-- A submission carries no data. -/
theorem submissionWrite_ok (info : UrbIrpInfo) : ∀ e ∈ (submissionWrite irp info).payload, e.Ok :=
  ok_writeTimestampedPacket (ok_null _)

/-- Descriptors are copied on the way back of a URB that selects a configuration, to where the pool
allocation says. -/
theorem mem_copies {block : Option (List UInt8)} :
    block ∈ (analyzeAlways urb post env data).2 ↔ post = true ∧
      ∃ descriptor interface, urb.body = .selectConfiguration (some descriptor) interface ∧
        block = (env.descriptorPool descriptor.totalLength).map Subtype.val := by
  unfold analyzeAlways
  cases hbody : urb.body with
  | selectConfiguration descriptor interface =>
    cases post with
    | false => simp
    | true =>
      cases descriptor with
      | none => simp
      | some descriptor => simp
  | selectInterface interface =>
    dsimp only
    split
    · simp
    · split <;> simp
  | _ => simp

end

namespace Target

/-! ## Whole runs -/

/-- The URB analysis of the step, if there is one, uses no missing object. -/
def CallSound (s : Target) : Act → Prop
  | .submit irp urb env => (analyzeUrb s.root irp urb false env s.data).Sound
  | .complete irp urb env => (analyzeUrb s.root irp urb true env s.data).Sound
  | _ => True

/-- The block for a configuration descriptor can be allocated, and if the payload of an isochronous
transfer is compacted, its packets lie in the mapped buffer. -/
def CallCovered (s : Target) : Act → Prop
  | .complete _ urb env =>
    (∀ descriptor interface, urb.body = .selectConfiguration (some descriptor) interface →
      env.descriptorPool descriptor.totalLength ≠ none) ∧
    ∀ transfer, urb.body = .isochTransfer transfer → s.isFiltered = true →
      transfer.Compacts env → ∀ p ∈ transfer.packets, p.Inside transfer.toTransferBuffer
  | _ => True

/-- A submission never uses a missing object. -/
theorem sound_submit (root : RootData) (irp : Pirp) (urb : Urb) (env : Surroundings)
    (data : DeviceData) : (analyzeUrb root irp urb false env data).Sound := by
  rw [analyzeUrb_eq root irp urb false env data rfl]
  have hcopies : ∀ block ∈ (analyzeAlways urb false env data).2, block ≠ none := by
    intro block hblock
    rw [mem_copies] at hblock
    cases hblock.1
  split
  · exact ⟨hcopies, nofun⟩
  · refine ⟨hcopies, fun w hw => ?_⟩
    rcases analyzeFiltered_ok _ _ _ _ _ _ hw with hok | ⟨_, _, hpost, _⟩
    · exact hok
    · cases hpost

/-- A completion uses no missing object exactly when its failures are covered. -/
theorem sound_complete_iff (s : Target) (irp : Pirp) (urb : Urb) (env : Surroundings) :
    (analyzeUrb s.root irp urb true env s.data).Sound ↔ CallCovered s (.complete irp urb env) := by
  generalize hobtain : obtainUrbIrpInfo s.data irp = r
  obtain ⟨info, d⟩ := r
  rw [analyzeUrb_eq s.root irp urb true env s.data hobtain]
  have hcopies : (∀ block ∈ (analyzeAlways urb true env d).2, block ≠ none) ↔
      ∀ descriptor interface, urb.body = .selectConfiguration (some descriptor) interface →
        env.descriptorPool descriptor.totalLength ≠ none := by
    simp only [mem_copies, true_and]
    constructor
    · rintro h descriptor interface hbody hnone
      exact h none ⟨descriptor, interface, hbody, by rw [hnone]; rfl⟩ rfl
    · rintro h block ⟨descriptor, interface, hbody, rfl⟩
      simpa using h descriptor interface hbody
  by_cases hfiltered : s.isFiltered = true
  · rw [if_neg (by rw [← isFiltered, hfiltered]; decide)]
    constructor
    · rintro ⟨hblocks, hpayload⟩
      refine ⟨hcopies.mp hblocks, fun transfer hbody _ hcompacts => ?_⟩
      have hwrites : ∀ data, (analyzeFiltered s.root irp urb true env data).2 =
          (analyzeIsochTransfer s.root irp urb true env data transfer).toList := by
        intro data
        simp only [analyzeFiltered, hbody]
      -- the compacted record is written, so its entries are in order only if the packets are
      obtain ⟨w, hw, hentries⟩ :=
        analyzeIsochTransfer_compacts s.root irp urb env (analyzeAlways urb true env d).1 hcompacts
      have hok := hpayload w (List.mem_append_right _
        (by rw [hwrites, Option.mem_toList]; exact hw))
      rw [hentries] at hok
      exact compactedPayloadEntries_ok.mp hok
    · rintro ⟨hblocks, hpackets⟩
      refine ⟨hcopies.mpr hblocks, fun w hw => ?_⟩
      rcases List.mem_append.mp hw with hsaved | hown
      · -- a saved record has no payload
        obtain ⟨i, -, rfl⟩ := Option.map_eq_some_iff.mp (Option.mem_toList.mp hsaved)
        exact submissionWrite_ok irp i
      · rcases analyzeFiltered_ok _ _ _ _ _ _ hown with hok | ⟨transfer, hbody, -, hc, hentries⟩
        · exact hok
        · rw [hentries]
          exact compactedPayloadEntries_ok.mpr (hpackets transfer hbody hfiltered hc)
  · rw [if_pos (by rw [← isFiltered]; exact Bool.not_eq_true _ ▸ hfiltered)]
    constructor
    · rintro ⟨hblocks, -⟩
      exact ⟨hcopies.mp hblocks, fun _ _ hc => absurd hc hfiltered⟩
    · rintro ⟨hblocks, -⟩
      exact ⟨hcopies.mpr hblocks, fun _ hw => absurd hw List.not_mem_nil⟩

/-- A call reads only what is there exactly when it is covered. -/
theorem callSound_iff (s : Target) (a : Act) : CallSound s a ↔ CallCovered s a := by
  cases a with
  | submit irp urb env => exact iff_of_true (sound_submit ..) trivial
  | complete irp urb env => exact sound_complete_iff s irp urb env
  | setFilter filter => exact Iff.rfl
  | startDevice deviceAddress => exact Iff.rfl

/-- **No failure turns into the use of a missing object** in attaching a filter and in a sequence of
calls on it exactly when both of its tables can be allocated and the failures in all the calls are
covered. -/
theorem no_missing_object_iff (root : RootData) (created objectSet stacked : Bool)
    (pools : AttachPools) (as : List Act) :
    (∀ d, attachTgt created objectSet stacked pools = some d →
      (d.endpointTable ≠ none ∧ d.urbIrpTable ≠ none) ∧
        Along step CallSound (init root) as) ↔
    (attachTgt created objectSet stacked pools ≠ none →
      (pools.endpointTable = true ∧ pools.urbIrpTable = true) ∧
        Along step CallCovered (init root) as) := by
  have hcalls : Along step CallSound (init root) as ↔ Along step CallCovered (init root) as := by
    constructor
    · exact fun h pre a post s has hs => (callSound_iff s a).mp (h pre a post s has hs)
    · exact fun h pre a post s has hs => (callSound_iff s a).mpr (h pre a post s has hs)
  rw [hcalls]
  constructor
  · intro h hattached
    obtain ⟨d, hd⟩ := Option.ne_none_iff_exists'.mp hattached
    exact ⟨(attachTgt_tables hd).mp (h d hd).1, (h d hd).2⟩
  · intro h d hd
    obtain ⟨htables, hcovered⟩ := h (by rw [hd]; exact Option.some_ne_none d)
    exact ⟨(attachTgt_tables hd).mpr htables, hcovered⟩

/-! ## A filter without an endpoint table -/

/-- Only the endpoint table cannot be allocated. -/
def withoutEndpointTable : AttachPools where
  deviceData := true
  rootData := true
  endpointTable := false
  urbIrpTable := true

/-- The filter is reported as attached. -/
theorem attached_without_table :
    ¬ ∀ d, attachTgt true true true withoutEndpointTable = some d →
      (d.endpointTable ≠ none ∧ d.urbIrpTable ≠ none) ∧
        Along step CallSound (init filteredRoot) [] := by
  intro h
  exact (h _ rfl).1.1 rfl

end Target

end UsbPcap.Driver
