import UsbPcap.Driver.Allocation
import UsbPcap.Lib.Pool

/-!
# The data of a filter device in the pool

`USBPcapAllocateDeviceData` takes up to four blocks from the pool, or three and a reference to the
root hub's data, and `USBPcapFreeDeviceData` gives back what it finds. Whatever of it could be
allocated, the second undoes the first: every block is freed exactly once, and the references to the
root hub's data are what they were.
-/

namespace UsbPcap.Driver

/-! ## Data -/

/-- A status code; the errors are negative. -/
abbrev StatusCode := Int32

/-- `NT_SUCCESS` -/
def ntSuccess (status : StatusCode) : Bool := 0 ≤ status

def statusSuccess : StatusCode := 0

/-- `STATUS_INSUFFICIENT_RESOURCES` -/
def statusInsufficientResources : StatusCode := .ofInt (0xC000009A - 2 ^ 32)

@[simp] theorem ntSuccess_statusSuccess : ntSuccess statusSuccess = true := by decide

@[simp] theorem ntSuccess_statusInsufficientResources :
    ntSuccess statusInsufficientResources = false := by decide

/-- `USBPCAP_ROOTHUB_DATA` -/
structure RootHubBlock where
  buffer : Option ℕ
  bufferSize : UInt32
  readOffset : UInt32
  writeOffset : UInt32
  snaplen : UInt32
  filter : AddressFilter
  refCount : Int32
  busId : UInt16
  controlDevice : Option ℕ

/-- `USBPCAP_DEVICE_DATA` -/
structure DeviceBlock where
  pParentFlt : Option ℕ
  pNextParentFlt : Option ℕ
  previousChildren : Option ℕ
  properData : Bool
  parentPort : UInt32
  isHub : Bool
  deviceAddress : UInt16
  endpointTable : Option ℕ
  urbIrpTable : Option ℕ
  pRootData : Option ℕ
  descriptor : Option ℕ

/-- The nonpaged pool with the contents of the driver's blocks. A table's content are the blocks of
its elements. -/
structure Heap where
  blocks : Pool
  deviceData : ℕ → DeviceBlock
  rootData : ℕ → RootHubBlock
  elements : ℕ → List ℕ

/-- What `USBPcapAllocateDeviceData` reads of the extension of the parent: its data, its device
object and the next lower one. -/
structure ParentPointers where
  pDeviceData : Option ℕ
  pThisDevObj : Option ℕ
  pNextDevObj : Option ℕ

namespace Heap

/-! ## Allocating and freeing -/

/-- `ExAllocatePoolWithTag` -/
def exAllocatePool (h : Heap) (available : Bool) : Option ℕ × Heap :=
  ((h.blocks.allocate available).1, { h with blocks := (h.blocks.allocate available).2 })

/-- `ExFreePool`, unless the pointer is `NULL`. -/
def exFreePool (h : Heap) (b : Option ℕ) : Heap := { h with blocks := h.blocks.freeOption b }

/-- `USBPcapInitializeEndpointTable` and `USBPcapInitializeURBIRPInfoTable` -/
def initializeTable (h : Heap) (available : Bool) : Option ℕ × Heap :=
  match h.exAllocatePool available with
  | (none, h) => (none, h)
  | (some table, h) => (some table, { h with elements := Function.update h.elements table [] })

/-- `USBPcapFreeEndpointTable` and `USBPcapFreeURBIRPInfoTable`, unless the table is `NULL`: first
the elements, then the table. -/
def freeTable (h : Heap) (table : Option ℕ) : Heap :=
  match table with
  | none => h
  | some t => ((h.elements t).foldl (fun h e => h.exFreePool (some e)) h).exFreePool (some t)

/-- Add to the reference count, with `InterlockedIncrement` or `InterlockedDecrement`. -/
def addRef (h : Heap) (root : ℕ) (n : Int32) : Heap :=
  let data := { h.rootData root with refCount := (h.rootData root).refCount + n }
  { h with rootData := Function.update h.rootData root data }

/-- The part of `USBPcapFreeDeviceData` that gives up the reference to the root hub's data. -/
def releaseRoot (h : Heap) (root : ℕ) : Heap :=
  let h := h.addRef root (-1)
  if (h.rootData root).refCount = 0 then
    (h.exFreePool (h.rootData root).buffer).exFreePool (some root)
  else h

/-- `USBPcapFreeDeviceData` on the data of a device extension. -/
def freeDeviceData (h : Heap) (pDeviceData : Option ℕ) : Heap :=
  match pDeviceData with
  | none => h
  | some d =>
    let data := h.deviceData d
    let h := data.pRootData.elim h h.releaseRoot
    let h := h.freeTable data.endpointTable
    let h := h.freeTable data.urbIrpTable
    let h := h.exFreePool data.previousChildren
    let h := h.exFreePool data.descriptor
    h.exFreePool (some d)

/-- The data of a new root hub; its bus and its control device come later. -/
def newRootData : RootHubBlock where
  buffer := none
  bufferSize := 0
  readOffset := 0
  writeOffset := 0
  snaplen := 65535
  filter := .zero
  refCount := 1
  busId := 0
  controlDevice := none

/-- The root hub's data that a parent refers to. -/
def rootOf (h : Heap) (parent : ParentPointers) : Option ℕ :=
  parent.pDeviceData.bind fun d => (h.deviceData d).pRootData

/-- The part of `USBPcapAllocateDeviceData` that takes a reference to the data of the parent's root
hub, or allocates the data of a new one. -/
def obtainRootData (h : Heap) (parent : Option ParentPointers) (available : Bool) :
    StatusCode × Option ℕ × Heap :=
  match parent with
  | some p => (statusSuccess, h.rootOf p, (h.rootOf p).elim h fun root => h.addRef root 1)
  | none =>
    match h.exAllocatePool available with
    | (none, h) => (statusInsufficientResources, none, h)
    | (some root, h) =>
      (statusSuccess, some root,
        { h with rootData := Function.update h.rootData root newRootData })

/-- The part of `USBPcapAllocateDeviceData` that fills the block, with two new tables. -/
def fillDeviceData (h : Heap) (d : ℕ) (parent : Option ParentPointers) (root : Option ℕ)
    (pools : AttachPools) : Heap :=
  let pipes := h.initializeTable pools.endpointTable
  let irps := pipes.2.initializeTable pools.urbIrpTable
  let data : DeviceBlock :=
    { pParentFlt := parent.bind (·.pThisDevObj)
      pNextParentFlt := parent.bind (·.pNextDevObj)
      previousChildren := none
      properData := false
      parentPort := 0
      isHub := parent.isNone
      deviceAddress := 255
      endpointTable := pipes.1
      urbIrpTable := irps.1
      pRootData := root
      descriptor := none }
  { irps.2 with deviceData := Function.update irps.2.deviceData d data }

/-- `USBPcapAllocateDeviceData`, with what becomes of the `pDeviceData` of the extension. -/
def allocateDeviceData (h : Heap) (parent : Option ParentPointers) (pools : AttachPools) :
    StatusCode × Option ℕ × Heap :=
  match h.exAllocatePool pools.deviceData with
  | (none, h) => (statusInsufficientResources, none, h)
  | (some d, h) =>
    let root := h.obtainRootData parent pools.rootData
    let h := root.2.2.fillDeviceData d parent root.2.1 pools
    if ntSuccess root.1 then (root.1, some d, h) else (root.1, none, h.freeDeviceData (some d))

/-- The control device of a root hub is set. -/
def setControl (h : Heap) (pDeviceData : Option ℕ) (control : Option ℕ) (id : UInt16) : Heap :=
  match pDeviceData.bind fun d => (h.deviceData d).pRootData with
  | none => h
  | some root =>
    let data := { h.rootData root with controlDevice := control, busId := id }
    { h with rootData := Function.update h.rootData root data }

/-! ## What the steps change -/

@[simp] theorem exFreePool_blocks (h : Heap) (b : Option ℕ) :
    (h.exFreePool b).blocks = h.blocks.freeOption b := rfl

@[simp] theorem exFreePool_elements (h : Heap) (b : Option ℕ) :
    (h.exFreePool b).elements = h.elements := rfl

@[simp] theorem exFreePool_rootData (h : Heap) (b : Option ℕ) :
    (h.exFreePool b).rootData = h.rootData := rfl

/-- A reference more or less is counted in its root. -/
theorem addRef_self (h : Heap) (root : ℕ) (n : Int32) : (h.addRef root n).rootData root =
    { h.rootData root with refCount := (h.rootData root).refCount + n } :=
  Function.update_self ..

/-- And in no other one. -/
theorem addRef_ne (h : Heap) {root r : ℕ} (hr : r ≠ root) (n : Int32) :
    (h.addRef root n).rootData r = h.rootData r :=
  Function.update_of_ne hr ..

/-- A table without elements is one block. -/
theorem freeTable_eq {h : Heap} {table : Option ℕ} (ht : ∀ t, table = some t → h.elements t = []) :
    h.freeTable table = h.exFreePool table := by
  cases table with
  | none => rfl
  | some t =>
    unfold freeTable
    dsimp only
    rw [ht t rfl]
    rfl

@[simp] theorem releaseRoot_elements (h : Heap) (root : ℕ) :
    (h.releaseRoot root).elements = h.elements := by
  unfold releaseRoot
  dsimp only
  split <;> rfl

/-- Releasing a root counts one reference down. -/
theorem releaseRoot_rootData (h : Heap) (root : ℕ) :
    (h.releaseRoot root).rootData = (h.addRef root (-1)).rootData := by
  unfold releaseRoot
  dsimp only
  split <;> rfl

/-- The device has not been used: its tables are empty, it has no children and no descriptor. -/
structure Unused (h : Heap) (d : ℕ) : Prop where
  pipes : ∀ t, (h.deviceData d).endpointTable = some t → h.elements t = []
  irps : ∀ t, (h.deviceData d).urbIrpTable = some t → h.elements t = []
  children : (h.deviceData d).previousChildren = none
  descriptor : (h.deviceData d).descriptor = none

/-- The data of a device that has not been used is at most four blocks. -/
theorem freeDeviceData_eq {h : Heap} {d : ℕ} (hu : h.Unused d) :
    h.freeDeviceData (some d) =
      ((((h.deviceData d).pRootData.elim h h.releaseRoot).exFreePool
        (h.deviceData d).endpointTable).exFreePool (h.deviceData d).urbIrpTable).exFreePool
          (some d) := by
  have helements : ((h.deviceData d).pRootData.elim h h.releaseRoot).elements = h.elements := by
    cases (h.deviceData d).pRootData with
    | none => rfl
    | some root => exact releaseRoot_elements h root
  have hpipes : ((h.deviceData d).pRootData.elim h h.releaseRoot).freeTable
      (h.deviceData d).endpointTable = ((h.deviceData d).pRootData.elim h h.releaseRoot).exFreePool
        (h.deviceData d).endpointTable :=
    freeTable_eq (by rw [helements]; exact hu.pipes)
  unfold freeDeviceData
  dsimp only
  rw [hu.children, hu.descriptor, hpipes,
    freeTable_eq (by rw [exFreePool_elements, helements]; exact hu.irps)]
  rfl

/-! ## Allocated and freed again -/

/-- The references that were there are there. -/
def SameRefs (h h' : Heap) : Prop :=
  ∀ r < h.blocks.next, (h'.rootData r).refCount = (h.rootData r).refCount

/-- Every block allocated since `h` has been freed exactly once, no other block has been freed, and
the reference counts are those of `h`. -/
def Settled (h h' : Heap) : Prop := h.blocks.Owes h'.blocks [] ∧ h.SameRefs h'

/-- Since `h`, the blocks of the data `d` of a filter device have been allocated, with the data of a
new root hub among them, or with a reference to that of an old one. -/
structure Built (h h' : Heap) (d : ℕ) (isRoot : Bool) : Prop extends Unused h' d where
  root : ∃ root, (h'.deviceData d).pRootData = some root ∧
    ((h.blocks.Owes h'.blocks ((h'.deviceData d).urbIrpTable.toList ++
        ((h'.deviceData d).endpointTable.toList ++ [root, d])) ∧
      (h'.rootData root).refCount = 1 ∧ (h'.rootData root).buffer = none ∧
      h.blocks.next ≤ root ∧ h.SameRefs h') ∨
    (isRoot = false ∧ h.blocks.Owes h'.blocks ((h'.deviceData d).urbIrpTable.toList ++
        ((h'.deviceData d).endpointTable.toList ++ [d])) ∧
      h.SameRefs (h'.addRef root (-1)) ∧
      ((h'.addRef root (-1)).rootData root).refCount ≠ 0))

/-- The tables and the data itself are given back. -/
theorem owes_freeTables {p q : Pool} {pipes irps : Option ℕ} {d : ℕ}
    (h : p.Owes q (irps.toList ++ (pipes.toList ++ [d]))) :
    p.Owes (((q.freeOption pipes).freeOption irps).freeOption (some d)) [] := by
  have hpipes : p.Owes (q.freeOption pipes) (irps.toList ++ [d]) :=
    Pool.Owes.freeOption (by rwa [List.append_assoc])
  have hirps := @Pool.Owes.freeOption _ _ [] [d] irps hpipes
  exact @Pool.Owes.free _ _ [] [] d hirps

/-- Freeing the data of a filter device undoes its allocation. -/
theorem Built.free {h h' : Heap} {d : ℕ} {isRoot : Bool} (hb : Built h h' d isRoot) :
    h.Settled (h'.freeDeviceData (some d)) := by
  obtain ⟨root, hroot, hheld⟩ := hb.root
  rw [freeDeviceData_eq hb.toUnused, hroot, Option.elim_some]
  generalize (h'.deviceData d).endpointTable = pipes at hheld
  generalize (h'.deviceData d).urbIrpTable = irps at hheld
  rcases hheld with ⟨howes, hone, hbuffer, hnew, hrefs⟩ | ⟨-, howes, hrefs, hne⟩
  · -- the last reference: the new root hub's data goes too
    have hrelease : (h'.releaseRoot root).blocks = h'.blocks.free root := by
      unfold releaseRoot
      dsimp only
      rw [if_pos (by rw [addRef_self, hone]; rfl), addRef_self, hbuffer]
      rfl
    constructor
    · simp only [exFreePool_blocks, hrelease]
      rw [← List.append_assoc] at howes
      have hroot := Pool.Owes.free howes
      rw [List.append_assoc] at hroot
      exact owes_freeTables hroot
    · intro r hr
      rw [exFreePool_rootData, exFreePool_rootData, exFreePool_rootData, releaseRoot_rootData,
        addRef_ne _ (Nat.ne_of_lt (hr.trans_le hnew))]
      exact hrefs r hr
  · -- the root hub keeps its own reference
    have hrelease : h'.releaseRoot root = h'.addRef root (-1) := if_neg hne
    rw [hrelease]
    constructor
    · exact owes_freeTables howes
    · exact hrefs

/-! ## The allocation -/

/-- The parent refers to the data of its root hub, and that is alive. -/
def HoldsReference (h : Heap) (p : ParentPointers) : Prop :=
  ∃ root, h.rootOf p = some root ∧ root < h.blocks.next ∧ (h.rootData root).refCount ≠ 0

/-- The table is the block that is allocated for it. -/
theorem initializeTable_fst (h : Heap) (available : Bool) :
    (h.initializeTable available).1 = (h.blocks.allocate available).1 := by
  cases available <;> rfl

/-- That is the only block it takes. -/
theorem initializeTable_blocks (h : Heap) (available : Bool) :
    (h.initializeTable available).2.blocks = (h.blocks.allocate available).2 := by
  cases available <;> rfl

@[simp] theorem initializeTable_rootData (h : Heap) (available : Bool) :
    (h.initializeTable available).2.rootData = h.rootData := by
  cases available <;> rfl

@[simp] theorem initializeTable_deviceData (h : Heap) (available : Bool) :
    (h.initializeTable available).2.deviceData = h.deviceData := by
  cases available <;> rfl

/-- A new table is empty. -/
theorem initializeTable_elements {h : Heap} {available : Bool} {t : ℕ}
    (ht : (h.initializeTable available).1 = some t ∨ h.elements t = []) :
    (h.initializeTable available).2.elements t = [] := by
  cases available with
  | false => exact ht.resolve_left nofun
  | true =>
    change Function.update h.elements h.blocks.next [] t = []
    by_cases hne : t = h.blocks.next
    · rw [hne, Function.update_self]
    · rw [Function.update_of_ne hne]
      exact ht.resolve_left fun hsome => hne (Option.some.inj hsome).symm

section

variable (h : Heap) (d : ℕ) (parent : Option ParentPointers) (root : Option ℕ)
  (pools : AttachPools)

@[simp] theorem fillDeviceData_rootData :
    (h.fillDeviceData d parent root pools).rootData = h.rootData := by
  simp [fillDeviceData]

/-- The device data point to the root they were given. -/
theorem fillDeviceData_pRootData :
    ((h.fillDeviceData d parent root pools).deviceData d).pRootData = root := by
  simp [fillDeviceData]

/-- New device data are used by nobody yet. -/
theorem unused_fillDeviceData : (h.fillDeviceData d parent root pools).Unused d := by
  refine ⟨fun t ht => ?_, fun t ht => ?_, ?_, ?_⟩
  · simp only [fillDeviceData, Function.update_self] at ht ⊢
    exact initializeTable_elements (Or.inr (initializeTable_elements (Or.inl ht)))
  · simp only [fillDeviceData, Function.update_self] at ht ⊢
    exact initializeTable_elements (Or.inl ht)
  · simp [fillDeviceData]
  · simp [fillDeviceData]

/-- The tables that could be allocated are held. -/
theorem owes_fillDeviceData {p : Pool} {held : List ℕ} (ho : p.Owes h.blocks held) :
    p.Owes (h.fillDeviceData d parent root pools).blocks
      (((h.fillDeviceData d parent root pools).deviceData d).urbIrpTable.toList ++
        (((h.fillDeviceData d parent root pools).deviceData d).endpointTable.toList ++ held)) := by
  have hpipes := ho.allocate pools.endpointTable
  rw [← initializeTable_blocks, ← initializeTable_fst] at hpipes
  have hirps := hpipes.allocate pools.urbIrpTable
  rw [← initializeTable_blocks, ← initializeTable_fst] at hirps
  simpa [fillDeviceData] using hirps

end

/-- Nothing has to be undone where nothing was done. -/
theorem settled_refl (h : Heap) : h.Settled h := ⟨Pool.Owes.refl _, fun _ _ => rfl⟩

/-- The counter comes back, wrapped or not. -/
theorem add_neg_one (n : Int32) : n + 1 + -1 = n := by
  rw [Int32.add_assoc, show (1 : Int32) + -1 = 0 from rfl, Int32.add_zero]

/-- With a parent, the data refers to the parent's root hub. -/
theorem built_child {h h₁ : Heap} {d root : ℕ} (ho : h.blocks.Owes h₁.blocks [d])
    (hdata : h₁.rootData = h.rootData) (hlive : (h.rootData root).refCount ≠ 0)
    (parent : Option ParentPointers) (pools : AttachPools) :
    Built h ((h₁.addRef root 1).fillDeviceData d parent (some root) pools) d false := by
  have hback : ((((h₁.addRef root 1).fillDeviceData d parent (some root) pools).addRef root
      (-1)).rootData root).refCount = (h.rootData root).refCount := by
    rw [addRef_self, fillDeviceData_rootData, addRef_self, hdata]
    exact add_neg_one _
  refine ⟨unused_fillDeviceData .., root, fillDeviceData_pRootData .., Or.inr ⟨rfl, ?_, ?_, ?_⟩⟩
  · exact owes_fillDeviceData _ _ _ _ _ ho
  · intro r _
    by_cases hr : r = root
    · rw [hr, hback]
    · rw [addRef_ne _ hr, fillDeviceData_rootData, addRef_ne _ hr, hdata]
  · rw [hback]
    exact hlive

/-- Without a parent, it refers to the data of a new root hub. -/
theorem built_root {h h₁ : Heap} {d root : ℕ} (ho : h.blocks.Owes h₁.blocks [root, d])
    (hnew : h.blocks.next ≤ root)
    (hdata : h₁.rootData = Function.update h.rootData root newRootData) (pools : AttachPools) :
    Built h (h₁.fillDeviceData d none (some root) pools) d true := by
  refine ⟨unused_fillDeviceData .., root, fillDeviceData_pRootData ..,
    Or.inl ⟨owes_fillDeviceData _ _ _ _ _ ho, ?_, ?_, hnew, fun r hr => ?_⟩⟩
  · rw [fillDeviceData_rootData, hdata, Function.update_self]
    rfl
  · rw [fillDeviceData_rootData, hdata, Function.update_self]
    rfl
  · rw [fillDeviceData_rootData, hdata, Function.update_of_ne (Nat.ne_of_lt (hr.trans_le hnew))]

/-- Without the root hub's data, the rest is freed again. -/
theorem settled_without_root {h h₁ : Heap} {d : ℕ} (ho : h.blocks.Owes h₁.blocks [d])
    (hdata : h₁.rootData = h.rootData) (pools : AttachPools) :
    h.Settled ((h₁.fillDeviceData d none none pools).freeDeviceData (some d)) := by
  rw [freeDeviceData_eq (unused_fillDeviceData ..), fillDeviceData_pRootData, Option.elim_none]
  refine ⟨owes_freeTables (owes_fillDeviceData _ _ _ _ _ ho), fun r _ => ?_⟩
  simp only [exFreePool_rootData, fillDeviceData_rootData, hdata]

/-- The blocks that a filter device cannot do without could be allocated. -/
def Provided (parent : Option ParentPointers) (pools : AttachPools) : Prop :=
  pools.deviceData = true ∧ (parent = none → pools.rootData = true)

/-- With a block for the device data, what is left is the root. -/
theorem allocateDeviceData_of_block (h : Heap) (parent : Option ParentPointers)
    {pools : AttachPools} (hd : pools.deviceData = true) :
    h.allocateDeviceData parent pools =
      let root := (h.exAllocatePool true).2.obtainRootData parent pools.rootData
      let k := root.2.2.fillDeviceData h.blocks.next parent root.2.1 pools
      if ntSuccess root.1 then (root.1, some h.blocks.next, k)
      else (root.1, none, k.freeDeviceData (some h.blocks.next)) := by
  unfold allocateDeviceData
  rw [hd]
  rfl

/-- A child shares the root of its parent. -/
theorem obtainRootData_child {h : Heap} {p : ParentPointers} {root : ℕ}
    (hroot : h.rootOf p = some root) (available : Bool) :
    h.obtainRootData (some p) available = (statusSuccess, some root, h.addRef root 1) := by
  unfold obtainRootData
  dsimp only
  rw [hroot]
  rfl

/-- A root hub gets root data of its own. -/
theorem obtainRootData_root (h : Heap) :
    h.obtainRootData none true = (statusSuccess, some h.blocks.next,
      { (h.exAllocatePool true).2 with
        rootData := Function.update h.rootData h.blocks.next newRootData }) := rfl

/-- Unless there is no memory for them. -/
theorem obtainRootData_none (h : Heap) :
    h.obtainRootData none false = (statusInsufficientResources, none, h) := rfl

section

variable {h : Heap} {pools : AttachPools}

/-- The device data of a child count as a reference to its root. -/
theorem allocateDeviceData_child {p : ParentPointers} {root : ℕ} (hd : pools.deviceData = true)
    (hroot : h.rootOf p = some root) :
    h.allocateDeviceData (some p) pools = (statusSuccess, some h.blocks.next,
      ((h.exAllocatePool true).2.addRef root 1).fillDeviceData h.blocks.next (some p) (some root)
        pools) := by
  have hroot' : (h.exAllocatePool true).2.rootOf p = some root := hroot
  rw [allocateDeviceData_of_block h _ hd, obtainRootData_child hroot']
  exact if_pos rfl

/-- The device data of a root hub come with a new root. -/
theorem allocateDeviceData_root (hd : pools.deviceData = true) (hr : pools.rootData = true) :
    h.allocateDeviceData none pools = (statusSuccess, some h.blocks.next,
      fillDeviceData { ((h.exAllocatePool true).2.exAllocatePool true).2 with
        rootData := Function.update h.rootData (h.blocks.next + 1) newRootData }
          h.blocks.next none (some (h.blocks.next + 1)) pools) := by
  rw [allocateDeviceData_of_block h _ hd, hr, obtainRootData_root]
  exact if_pos rfl

/-- Without the root the device data are freed again. -/
theorem allocateDeviceData_no_root (hd : pools.deviceData = true) (hr : pools.rootData = false) :
    h.allocateDeviceData none pools = (statusInsufficientResources, none,
      ((h.exAllocatePool true).2.fillDeviceData h.blocks.next none none pools).freeDeviceData
        (some h.blocks.next)) := by
  rw [allocateDeviceData_of_block h _ hd, hr, obtainRootData_none]
  exact if_neg (by rw [ntSuccess_statusInsufficientResources]; decide)

end

/-- **The allocation of a filter device's data** succeeds exactly when the blocks it cannot do
without are there, and leaves no trace when it fails. -/
theorem allocateDeviceData_spec (h : Heap) (parent : Option ParentPointers) (pools : AttachPools)
    (hparent : ∀ p, parent = some p → h.HoldsReference p) :
    (Provided parent pools ∧ ntSuccess (h.allocateDeviceData parent pools).1 = true ∧
      ∃ d, (h.allocateDeviceData parent pools).2.1 = some d ∧
        Built h (h.allocateDeviceData parent pools).2.2 d parent.isNone) ∨
    (¬ Provided parent pools ∧ ntSuccess (h.allocateDeviceData parent pools).1 = false ∧
      (h.allocateDeviceData parent pools).2.1 = none ∧
      h.Settled (h.allocateDeviceData parent pools).2.2) := by
  cases hd : pools.deviceData with
  | false =>
    have hnone : h.allocateDeviceData parent pools = (statusInsufficientResources, none, h) := by
      unfold allocateDeviceData
      rw [hd]
      rfl
    rw [hnone]
    exact Or.inr ⟨fun hp => by simp [hp.1] at hd, ntSuccess_statusInsufficientResources, rfl,
      h.settled_refl⟩
  | true =>
    have hblock := (Pool.Owes.refl h.blocks).allocate true
    cases parent with
    | some p =>
      -- a device below a root hub takes a reference on the hub's data
      obtain ⟨root, hroot, -, hlive⟩ := hparent p rfl
      rw [allocateDeviceData_child hd hroot]
      have hbuilt := @built_child h (h.exAllocatePool true).2 h.blocks.next root hblock rfl hlive
        (some p) pools
      exact Or.inl ⟨⟨hd, nofun⟩, ntSuccess_statusSuccess, _, rfl, hbuilt⟩
    | none =>
      -- a root hub allocates the data its devices share
      cases hr : pools.rootData with
      | true =>
        rw [allocateDeviceData_root hd hr]
        have hbuilt := @built_root h { ((h.exAllocatePool true).2.exAllocatePool true).2 with
            rootData := Function.update h.rootData (h.blocks.next + 1) newRootData }
          h.blocks.next (h.blocks.next + 1) (hblock.allocate true) (Nat.le_succ _) rfl pools
        exact Or.inl ⟨⟨hd, fun _ => hr⟩, ntSuccess_statusSuccess, _, rfl, hbuilt⟩
      | false =>
        -- the shared data could not be allocated, and the device's own block is freed again
        rw [allocateDeviceData_no_root hd hr]
        have hsettled := @settled_without_root h (h.exAllocatePool true).2 h.blocks.next hblock rfl
          pools
        refine Or.inr ⟨fun hp => ?_, ntSuccess_statusInsufficientResources, rfl, hsettled⟩
        rw [hp.2 rfl] at hr
        cases hr

/-- What is freed does not depend on the other fields of the root hub's data. -/
theorem Built.congr {h h₁ h₂ : Heap} {d : ℕ} {isRoot : Bool} (hb : Built h h₁ d isRoot)
    (hblocks : h₂.blocks = h₁.blocks) (helements : h₂.elements = h₁.elements)
    (hdata : h₂.deviceData = h₁.deviceData)
    (hcount : ∀ r, (h₂.rootData r).refCount = (h₁.rootData r).refCount)
    (hbuffer : ∀ r, (h₂.rootData r).buffer = (h₁.rootData r).buffer) : Built h h₂ d isRoot := by
  obtain ⟨root, hroot, hheld⟩ := hb.root
  have hadd : ∀ r, ((h₂.addRef root (-1)).rootData r).refCount =
      ((h₁.addRef root (-1)).rootData r).refCount := by
    intro r
    by_cases hr : r = root
    · rw [hr, addRef_self, addRef_self]
      exact congrArg (· + (-1 : Int32)) (hcount root)
    · rw [addRef_ne _ hr, addRef_ne _ hr, hcount]
  refine ⟨⟨?_, ?_, ?_, ?_⟩, root, ?_, ?_⟩
  · rw [hdata, helements]
    exact hb.pipes
  · rw [hdata, helements]
    exact hb.irps
  · rw [hdata]
    exact hb.children
  · rw [hdata]
    exact hb.descriptor
  · rw [hdata]
    exact hroot
  · rw [hdata, hblocks, hcount, hbuffer, hadd]
    refine hheld.imp (fun hnew => ?_) fun hshared => ?_
    · exact ⟨hnew.1, hnew.2.1, hnew.2.2.1, hnew.2.2.2.1,
        fun r hr => (hcount r).trans (hnew.2.2.2.2 r hr)⟩
    · exact ⟨hshared.1, hshared.2.1, fun r hr => (hadd r).trans (hshared.2.2.1 r hr),
        hshared.2.2.2⟩

/-- The control device of a root hub is no part of what is freed. -/
theorem Built.setControl {h h' : Heap} {d : ℕ} {isRoot : Bool} (hb : Built h h' d isRoot)
    (control : Option ℕ) (id : UInt16) :
    Built h (h'.setControl (some d) control id) d isRoot := by
  obtain ⟨root, hroot, -⟩ := hb.root
  unfold Heap.setControl
  rw [Option.bind_some, hroot]
  refine hb.congr rfl rfl rfl (fun r => ?_) fun r => ?_
  all_goals
    dsimp only
    by_cases hr : r = root
    · rw [hr, Function.update_self]
    · rw [Function.update_of_ne hr]

/-- The filter device of a root hub refers to living data. -/
theorem Built.holdsReference {h h' : Heap} {d : ℕ} (hb : Built h h' d true) {p : ParentPointers}
    (hp : p.pDeviceData = some d) : h'.HoldsReference p := by
  obtain ⟨root, hroot, ⟨howes, hone, -⟩ | ⟨hfalse, -⟩⟩ := hb.root
  · refine ⟨root, ?_, (howes.since root (by simp)).2, ?_⟩
    · rw [rootOf, hp, Option.bind_some]
      exact hroot
    · rw [hone]
      decide
  · cases hfalse

end Heap

end UsbPcap.Driver
