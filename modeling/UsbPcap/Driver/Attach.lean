import UsbPcap.Driver.DeviceData

/-!
# Failed attachments

`AddDevice` attaches a filter device to a root hub and creates its control device, and
`DkCreateAndAttachTgt` attaches one to a child of a hub. Both have one label for everything that can
go wrong on the way, and what is done there fits every failure but one: when the control device
cannot be created, the filter device of the root hub is deleted while it is attached.
-/

namespace UsbPcap.Driver

/-! ## Device objects -/

/-- `STATUS_NO_SUCH_DEVICE` -/
def statusNoSuchDevice : StatusCode := .ofInt (0xC000000E - 2 ^ 32)

/-- `STATUS_BUFFER_OVERFLOW` -/
def statusBufferOverflow : StatusCode := .ofInt (0x80000005 - 2 ^ 32)

/-- `STATUS_OBJECT_NAME_COLLISION` -/
def statusObjectNameCollision : StatusCode := .ofInt (0xC0000035 - 2 ^ 32)

@[simp] theorem ntSuccess_statusNoSuchDevice : ntSuccess statusNoSuchDevice = false := by decide

@[simp] theorem ntSuccess_statusObjectNameCollision :
    ntSuccess statusObjectNameCollision = false := by decide

/-- `DEVICE_EXTENSION`; the remove locks are in the kernel's state. -/
structure DeviceExtension where
  deviceMagic : UInt32 := 0
  pThisDevObj : Option ℕ := none
  pNextDevObj : Option ℕ := none
  parentRemoveLock : Option ℕ := none
  pDeviceData : Option ℕ := none
  id : UInt16 := 0
  pRootHubObject : Option ℕ := none

/-- `DEVICE_OBJECT` -/
structure DeviceObject where
  deviceType : UInt32
  flags : UInt32
  extension : DeviceExtension

/-- The state of the kernel that attaching changes: the driver's pool, the device objects with
their contents, the stack on top of each device object (its top first), the symbolic links, the
driver's last control id, and how often each device's remove lock is held. -/
structure Kernel where
  heap : Heap
  devices : Pool
  object : ℕ → DeviceObject
  stack : ℕ → List ℕ
  links : String → Option String
  controlId : UInt32
  locks : ℕ → ℕ

/-- What the kernel answers on the way to a control device. -/
structure ControlAnswers where
  createDeviceSecure : StatusCode
  createSymbolicLink : StatusCode
  csqInitialize : StatusCode

/-- What the kernel answers to `AddDevice`. The control device's id is only set with the device;
before that it is whatever was on the stack. -/
structure AddDeviceAnswers where
  isRootHub : Bool
  createDevice : StatusCode
  pools : AttachPools
  attaches : Bool
  control : ControlAnswers
  unsetId : UInt16

/-- What the kernel answers to `DkCreateAndAttachTgt`. -/
structure AttachTgtAnswers where
  createDevice : StatusCode
  objectSet : Bool
  pools : AttachPools
  attaches : Bool

namespace Kernel

/-! ## Calls of the kernel -/

def updateObject (k : Kernel) (d : ℕ) (f : DeviceObject → DeviceObject) : Kernel :=
  { k with object := Function.update k.object d (f (k.object d)) }

def updateExtension (k : Kernel) (d : ℕ) (f : DeviceExtension → DeviceExtension) : Kernel :=
  k.updateObject d fun o => { o with extension := f o.extension }

/-- `IoCreateDevice`, for a device that is being initialised (`DO_DEVICE_INITIALIZING`). -/
def ioCreateDevice (k : Kernel) (status : StatusCode) (deviceType : UInt32) :
    StatusCode × Option ℕ × Kernel :=
  if ntSuccess status then
    (status, some k.devices.next,
      { k with
        devices := (k.devices.allocate true).2
        object := Function.update k.object k.devices.next ⟨deviceType, 0x80, {}⟩ })
  else (status, none, k)

/-- `IoDeleteDevice` -/
def ioDeleteDevice (k : Kernel) (d : ℕ) : Kernel := { k with devices := k.devices.free d }

/-- The top of the stack, which `IoGetAttachedDeviceReference` returns. -/
def attachedDevice (k : Kernel) (target : ℕ) : ℕ := (k.stack target).headD target

/-- `IoAttachDeviceToDeviceStack`, with the device that is the next lower one now. -/
def ioAttachDeviceToDeviceStack (k : Kernel) (attaches : Bool) (source target : ℕ) :
    Option ℕ × Kernel :=
  if attaches then
    (some (k.attachedDevice target),
      { k with stack := Function.update k.stack target (source :: k.stack target) })
  else (none, k)

/-- `IoCreateSymbolicLink`; a name that is taken is refused. -/
def ioCreateSymbolicLink (k : Kernel) (status : StatusCode) (link name : String) :
    StatusCode × Kernel :=
  if k.links link ≠ none then (statusObjectNameCollision, k)
  else if ntSuccess status then
    (status, { k with links := Function.update k.links link (some name) })
  else (status, k)

/-- `IoDeleteSymbolicLink` -/
def ioDeleteSymbolicLink (k : Kernel) (link : String) : Kernel :=
  { k with links := Function.update k.links link none }

/-- `IoInitializeRemoveLock` -/
def ioInitializeRemoveLock (k : Kernel) (d : ℕ) : Kernel :=
  { k with locks := Function.update k.locks d 0 }

/-- `IoAcquireRemoveLock` -/
def ioAcquireRemoveLock (k : Kernel) (d : ℕ) : Kernel :=
  { k with locks := Function.update k.locks d (k.locks d + 1) }

/-! ## The data of a filter device -/

/-- What a parent's extension refers to. -/
def pointers (k : Kernel) (parent : ℕ) : ParentPointers where
  pDeviceData := (k.object parent).extension.pDeviceData
  pThisDevObj := (k.object parent).extension.pThisDevObj
  pNextDevObj := (k.object parent).extension.pNextDevObj

/-- `USBPcapAllocateDeviceData` -/
def allocateDeviceData (k : Kernel) (filter : ℕ) (parent : Option ℕ) (pools : AttachPools) :
    StatusCode × Kernel :=
  let r := k.heap.allocateDeviceData (parent.map k.pointers) pools
  (r.1, updateExtension { k with heap := r.2.2 } filter fun e => { e with pDeviceData := r.2.1 })

/-- `USBPcapFreeDeviceData` -/
def freeDeviceData (k : Kernel) (filter : ℕ) : Kernel :=
  updateExtension
    { k with heap := k.heap.freeDeviceData (k.object filter).extension.pDeviceData } filter
    fun e => { e with pDeviceData := none }

/-- What both functions do at their last label. -/
def endFunc (k : Kernel) (status : StatusCode) (filter : Option ℕ) : StatusCode × Kernel :=
  if ntSuccess status then (status, k)
  else (status, filter.elim k fun f => (k.freeDeviceData f).ioDeleteDevice f)

/-- Set the next lower device. -/
def setNext (k : Kernel) (filter : ℕ) (next : Option ℕ) : Kernel :=
  k.updateExtension filter fun e => { e with pNextDevObj := next }

/-- Take over flags of the next lower device (`DO_BUFFERED_IO`, `DO_DIRECT_IO` and
`DO_POWER_PAGABLE`); the device is initialised. -/
def takeOverFlags (k : Kernel) (filter next : ℕ) : Kernel :=
  k.updateObject filter fun o =>
    { o with flags := (o.flags ||| ((k.object next).flags &&& 0x2014)) &&& ~~~0x80 }

/-! ## The control device -/

/-- `RtlUnicodeStringPrintf` -/
def rtlUnicodeStringPrintf (maximumLength : ℕ) (text : String) : StatusCode :=
  if 2 * text.length ≤ maximumLength then statusSuccess else statusBufferOverflow

def ntDeviceName (id : UInt16) : String := "\\Device\\USBPcap" ++ id.toNat.repr

def symbolicLinkName (id : UInt16) : String := "\\DosDevices\\USBPcap" ++ id.toNat.repr

/-- The id of the next control device. -/
def nextId (k : Kernel) : UInt16 := (k.controlId + 1).toUInt16

/-- `USBPcapCreateRootHubControlDevice` of a filter device, with `*control` and `*busId`. -/
def createRootHubControlDevice (k : Kernel) (answers : ControlAnswers) (hub : ℕ) :
    StatusCode × Option (ℕ × UInt16) × Kernel :=
  let id := k.nextId
  let k := { k with controlId := k.controlId + 1 }
  let printed := rtlUnicodeStringPrintf 44 (ntDeviceName id)
  if ¬ ntSuccess printed then (printed, none, k)
  else
    let printed := rtlUnicodeStringPrintf 52 (symbolicLinkName id)
    if ¬ ntSuccess printed then (printed, none, k)
    else
      match k.ioCreateDevice answers.createDeviceSecure 0x22 with
      | (status, none, k) => (status, none, k)
      | (_, some control, k) =>
        -- `DO_DIRECT_IO`
        let k := k.updateObject control fun o => { o with flags := o.flags ||| 0x10 }
        let link := k.ioCreateSymbolicLink answers.createSymbolicLink (symbolicLinkName id)
          (ntDeviceName id)
        if ¬ ntSuccess link.1 then (link.1, none, link.2.ioDeleteDevice control)
        else
          let k := link.2.updateExtension control fun e =>
            { e with
              deviceMagic := 0xBAD51571
              pThisDevObj := some control
              pNextDevObj := none
              parentRemoveLock := some hub
              id := id
              pRootHubObject := (k.object hub).extension.pThisDevObj }
          let k := k.ioInitializeRemoveLock control
          if ¬ ntSuccess answers.csqInitialize then
            (answers.csqInitialize, none,
              (k.ioDeleteSymbolicLink (symbolicLinkName id)).ioDeleteDevice control)
          else
            let k := k.updateObject control fun o => { o with flags := o.flags &&& ~~~0x80 }
            (answers.csqInitialize, some (control, id), k.ioAcquireRemoveLock hub)

/-! ## Attaching -/

/-- `GetDeviceTypeToUse` -/
def getDeviceTypeToUse (k : Kernel) (pdo : ℕ) : UInt32 :=
  (k.object (k.attachedDevice pdo)).deviceType

/-- The end of `AddDevice`: the root hub's data learns of the control device, if there is one. -/
def setControl (k : Kernel) (filter : ℕ) (control : Option ℕ) (id : UInt16) : Kernel :=
  { k with heap := k.heap.setControl (k.object filter).extension.pDeviceData control id }

/-- The part of `AddDevice` behind the attachment. -/
def addControl (k : Kernel) (answers : AddDeviceAnswers) (filter : ℕ) : StatusCode × Kernel :=
  let r := k.createRootHubControlDevice answers.control filter
  let k := r.2.2.setControl filter (r.2.1.map Prod.fst)
    ((r.2.1.map Prod.snd).getD answers.unsetId)
  k.endFunc r.1 (some filter)

/-- `AddDevice` -/
def addDevice (k : Kernel) (answers : AddDeviceAnswers) (target : ℕ) : StatusCode × Kernel :=
  if answers.isRootHub = false then (statusSuccess, k)
  else
    match k.ioCreateDevice answers.createDevice (k.getDeviceTypeToUse target) with
    | (status, none, k) => k.endFunc status none
    | (_, some filter, k) =>
      let k := k.updateExtension filter fun e =>
        { e with
          deviceMagic := 0xBAD51572, pThisDevObj := some filter, parentRemoveLock := none }
      let k := k.ioInitializeRemoveLock filter
      let data := k.allocateDeviceData filter none answers.pools
      if ¬ ntSuccess data.1 then data.2.endFunc data.1 (some filter)
      else
        match data.2.ioAttachDeviceToDeviceStack answers.attaches filter target with
        | (none, k) => (k.setNext filter none).endFunc statusNoSuchDevice (some filter)
        | (some next, k) =>
          ((k.setNext filter (some next)).takeOverFlags filter next).addControl answers filter

/-- `DkCreateAndAttachTgt` -/
def createAndAttachTgt (k : Kernel) (answers : AttachTgtAnswers) (parent target : ℕ) :
    StatusCode × Kernel :=
  if ¬ ntSuccess answers.createDevice then (answers.createDevice, k)
  else if answers.objectSet = false then (answers.createDevice, k)
  else
    match k.ioCreateDevice answers.createDevice (k.object target).deviceType with
    | (status, none, k) => (status, k)
    | (_, some filter, k) =>
      let k := k.updateExtension filter fun e =>
        { e with
          deviceMagic := 0xBAD51573, pThisDevObj := some filter, parentRemoveLock := some parent }
      let data := k.allocateDeviceData filter (some parent) answers.pools
      if ¬ ntSuccess data.1 then data.2.endFunc data.1 (some filter)
      else
        let k := data.2.ioInitializeRemoveLock filter
        match k.ioAttachDeviceToDeviceStack answers.attaches filter target with
        | (none, k) => (k.setNext filter none).endFunc statusNoSuchDevice (some filter)
        | (some next, k) =>
          let k := (k.setNext filter (some next)).takeOverFlags filter next
          (k.ioAcquireRemoveLock parent).endFunc data.1 (some filter)

/-! ## Creating the control device -/

/-- The names fit their buffers. -/
theorem length_repr_le (id : UInt16) : id.toNat.repr.length ≤ 5 := by
  have hlt : id.toNat < 2 ^ 16 := id.toNat_lt
  have hpow : (10 : ℕ) ^ 5 = 100000 := rfl
  exact (Nat.length_repr_le_iff (Nat.succ_pos 4)).mpr (by omega)

/-- A text that fits the buffer is printed. -/
theorem printf_of_length {maximumLength n : ℕ} {text : String} (hlen : text.length = n)
    (hfits : 2 * n ≤ maximumLength) :
    ntSuccess (rtlUnicodeStringPrintf maximumLength text) = true := by
  rw [rtlUnicodeStringPrintf, if_pos (by rw [hlen]; exact hfits), ntSuccess_statusSuccess]

/-- So is the name of every control device. -/
theorem printf_ntDeviceName (id : UInt16) :
    ntSuccess (rtlUnicodeStringPrintf 44 (ntDeviceName id)) = true := by
  have hprefix : "\\Device\\USBPcap".length = 15 := by decide +kernel
  have hdigits := length_repr_le id
  exact printf_of_length
    ((String.length_append ..).trans (congrArg (· + id.toNat.repr.length) hprefix)) (by omega)

/-- And every symbolic link. -/
theorem printf_symbolicLinkName (id : UInt16) :
    ntSuccess (rtlUnicodeStringPrintf 52 (symbolicLinkName id)) = true := by
  have hprefix : "\\DosDevices\\USBPcap".length = 19 := by decide +kernel
  have hdigits := length_repr_le id
  exact printf_of_length
    ((String.length_append ..).trans (congrArg (· + id.toNat.repr.length) hprefix)) (by omega)

/-- The control device and its link can be created. -/
def ControlWorks (k : Kernel) (answers : ControlAnswers) : Prop :=
  ntSuccess answers.createDeviceSecure = true ∧ k.links (symbolicLinkName k.nextId) = none ∧
    ntSuccess answers.createSymbolicLink = true ∧ ntSuccess answers.csqInitialize = true

/-- The driver's pool and the old device objects are the same. -/
structure SameFilters (k k' : Kernel) : Prop where
  le : k.devices.next ≤ k'.devices.next
  heap : k'.heap = k.heap
  object : ∀ d < k.devices.next, k'.object d = k.object d

/-- The device objects held, the stacks and the links are the same, too. -/
structure SameResources (k k' : Kernel) : Prop extends SameFilters k k' where
  devices : ∀ (p : Pool) (held : List ℕ), p.Owes k.devices held → p.Owes k'.devices held
  stack : k'.stack = k.stack
  links : k'.links = k.links

/-- A new device object has the next number. -/
theorem ioCreateDevice_of_success (k : Kernel) {status : StatusCode} (h : ntSuccess status = true)
    (deviceType : UInt32) : k.ioCreateDevice status deviceType =
      (status, some k.devices.next,
        { k with
          devices := (k.devices.allocate true).2
          object := Function.update k.object k.devices.next ⟨deviceType, 0x80, {}⟩ }) :=
  if_pos h

/-- A failure leaves nothing behind. -/
theorem ioCreateDevice_of_error (k : Kernel) {status : StatusCode} (h : ntSuccess status = false)
    (deviceType : UInt32) : k.ioCreateDevice status deviceType = (status, none, k) :=
  if_neg (by simp [h])

/-- The three answers to the creation of a link. -/
theorem ioCreateSymbolicLink_spec (k : Kernel) (status : StatusCode) (link name : String) :
    (k.links link = none ∧ ntSuccess status = true ∧ k.ioCreateSymbolicLink status link name =
      (status, { k with links := Function.update k.links link (some name) })) ∨
    (¬ (k.links link = none ∧ ntSuccess status = true) ∧
      ntSuccess (k.ioCreateSymbolicLink status link name).1 = false ∧
      (k.ioCreateSymbolicLink status link name).2 = k) := by
  unfold ioCreateSymbolicLink
  by_cases htaken : k.links link = none
  · rw [if_neg (not_not.mpr htaken)]
    cases hstatus : ntSuccess status with
    | true => exact Or.inl ⟨htaken, rfl, if_pos rfl⟩
    | false => exact Or.inr ⟨fun h => by simp at h, hstatus, rfl⟩
  · rw [if_pos htaken]
    exact Or.inr ⟨fun h => htaken h.1, ntSuccess_statusObjectNameCollision, rfl⟩

/-- A device that is created and deleted again is not held. -/
theorem owes_create_delete {p q : Pool} {held : List ℕ} (h : p.Owes q held) :
    p.Owes ((q.allocate true).2.free q.next) held :=
  @Pool.Owes.free _ _ [] held q.next (h.allocate true)

/-- **A control device that cannot be created** leaves no device object and no link behind. -/
theorem createRootHubControlDevice_spec (k : Kernel) (answers : ControlAnswers) (hub : ℕ) :
    (k.ControlWorks answers ∧
      ntSuccess (k.createRootHubControlDevice answers hub).1 = true ∧
      k.SameFilters (k.createRootHubControlDevice answers hub).2.2) ∨
    (¬ k.ControlWorks answers ∧
      ntSuccess (k.createRootHubControlDevice answers hub).1 = false ∧
      (k.createRootHubControlDevice answers hub).2.1 = none ∧
      k.SameResources (k.createRootHubControlDevice answers hub).2.2) := by
  unfold createRootHubControlDevice
  dsimp only
  rw [if_neg (by simp [printf_ntDeviceName]), if_neg (by simp [printf_symbolicLinkName])]
  cases hdevice : ntSuccess answers.createDeviceSecure with
  | false =>
    -- no device object is created
    rw [ioCreateDevice_of_error _ hdevice]
    refine Or.inr ⟨fun h => by simp [h.1] at hdevice, hdevice, rfl, ?_⟩
    exact ⟨⟨Nat.le_refl _, rfl, fun _ _ => rfl⟩, fun _ _ => id, rfl, rfl⟩
  | true =>
    -- the device exists, and its link is created next
    rw [ioCreateDevice_of_success _ hdevice]
    dsimp only
    rcases ioCreateSymbolicLink_spec _ _ _ _ with ⟨hfree, hlink, heq⟩ | ⟨hno, hfail, heq⟩
    · rw [heq]
      dsimp only
      rw [if_neg (by simp [hlink])]
      cases hcsq : ntSuccess answers.csqInitialize with
      | true =>
        -- everything was created
        rw [if_neg (by simp)]
        refine Or.inl ⟨⟨hdevice, hfree, hlink, hcsq⟩, hcsq, Nat.le_succ _, rfl, fun d hd => ?_⟩
        have hne : d ≠ k.devices.next := Nat.ne_of_lt hd
        simp [updateExtension, updateObject, ioAcquireRemoveLock, ioInitializeRemoveLock, hne]
      | false =>
        -- the queue could not be initialised, and both link and device are undone
        rw [if_pos (by simp)]
        refine Or.inr ⟨fun h => by simp [h.2.2.2] at hcsq, hcsq, rfl, ?_⟩
        refine ⟨⟨Nat.le_succ _, rfl, fun d hd => ?_⟩, fun p held h => owes_create_delete h, rfl, ?_⟩
        · have hne : d ≠ k.devices.next := Nat.ne_of_lt hd
          simp [updateExtension, updateObject, ioDeleteDevice, ioDeleteSymbolicLink,
            ioInitializeRemoveLock, hne]
        · have hfree' : k.links (symbolicLinkName k.nextId) = none := hfree
          change Function.update (Function.update k.links _ _) _ none = k.links
          rw [Function.update_idem, ← hfree', Function.update_eq_self]
    · rw [if_pos (by simp [hfail])]
      -- the name is taken or cannot be linked, and the device is deleted
      refine Or.inr ⟨fun h => hno ⟨h.2.1, h.2.2.1⟩, hfail, rfl, ?_⟩
      dsimp only
      rw [heq]
      refine ⟨⟨Nat.le_succ _, rfl, fun d hd => ?_⟩, fun p held h => owes_create_delete h, rfl, rfl⟩
      have hne : d ≠ k.devices.next := Nat.ne_of_lt hd
      simp [updateObject, ioDeleteDevice, hne]

/-! ## What is done at the last label -/

/-- Since `k`, the filter device has been created, and freeing the data it refers to leaves no trace
in the pool. -/
structure Undoable (k k' : Kernel) (filter : ℕ) : Prop where
  devices : k.devices.Owes k'.devices [filter]
  heap : k.heap.Settled (k'.heap.freeDeviceData (k'.object filter).extension.pDeviceData)
  links : k'.links = k.links

/-- Device objects, blocks, references and links are as they were. -/
structure Released (k k' : Kernel) : Prop where
  devices : k.devices.Owes k'.devices []
  heap : k.heap.Settled k'.heap
  links : k'.links = k.links

/-- What can be undone is undone at `EndFunc`, and the stack stays as it was. -/
theorem Undoable.endFunc {k k' : Kernel} {filter : ℕ} (hu : k.Undoable k' filter)
    {status : StatusCode} (hstatus : ntSuccess status = false) :
    k.Released (k'.endFunc status (some filter)).2 ∧
      (k'.endFunc status (some filter)).2.stack = k'.stack ∧
      (k'.endFunc status (some filter)).1 = status := by
  unfold Kernel.endFunc
  rw [if_neg (by simp [hstatus])]
  exact ⟨⟨@Pool.Owes.free _ _ [] [] filter hu.devices, hu.heap, hu.links⟩, rfl, rfl⟩

/-- Nothing that the last label looks at has changed. -/
theorem Undoable.congr {k k₁ k₂ : Kernel} {filter : ℕ} (hu : k.Undoable k₁ filter)
    (hdevices : k₂.devices = k₁.devices) (hheap : k₂.heap = k₁.heap) (hlinks : k₂.links = k₁.links)
    (hdata : (k₂.object filter).extension.pDeviceData = (k₁.object filter).extension.pDeviceData) :
    k.Undoable k₂ filter := by
  refine ⟨hdevices ▸ hu.devices, ?_, hlinks.trans hu.links⟩
  rw [hheap, hdata]
  exact hu.heap

/-- An update of a device object that leaves the pointer to the data alone. -/
theorem updateObject_pDeviceData (k : Kernel) (d : ℕ) {f : DeviceObject → DeviceObject}
    (hf : ∀ o, (f o).extension.pDeviceData = o.extension.pDeviceData) (i : ℕ) :
    ((k.updateObject d f).object i).extension.pDeviceData =
      (k.object i).extension.pDeviceData := by
  unfold updateObject
  dsimp only
  by_cases hi : i = d
  · rw [hi, Function.update_self]
    exact hf _
  · rw [Function.update_of_ne hi]

/-- Other fields of an extension do not change the device data. -/
theorem updateExtension_pDeviceData (k : Kernel) (d : ℕ) {f : DeviceExtension → DeviceExtension}
    (hf : ∀ e, (f e).pDeviceData = e.pDeviceData) (i : ℕ) :
    ((k.updateExtension d f).object i).extension.pDeviceData =
      (k.object i).extension.pDeviceData :=
  k.updateObject_pDeviceData d (fun o => hf o.extension) i

/-- The data of the filter device has been allocated. -/
def HasData (k k' : Kernel) (filter : ℕ) (isRoot : Bool) : Prop :=
  ∃ d, (k'.object filter).extension.pDeviceData = some d ∧ k.heap.Built k'.heap d isRoot

/-- Since `k`, the next device object has been created, and nothing else that matters has
changed. -/
structure Created (k k₁ : Kernel) : Prop where
  devices : k₁.devices = (k.devices.allocate true).2
  heap : k₁.heap = k.heap
  stack : k₁.stack = k.stack
  links : k₁.links = k.links
  controlId : k₁.controlId = k.controlId

/-- After the allocation of its data, a filter device can be given up, whether it succeeded or
not. -/
theorem Created.allocateDeviceData {k k₁ : Kernel} (hc : k.Created k₁) (parent : Option ℕ)
    (pools : AttachPools)
    (hparent : ∀ p, parent = some p → k.heap.HoldsReference (k₁.pointers p)) :
    k.Undoable (k₁.allocateDeviceData k.devices.next parent pools).2 k.devices.next ∧
      ((Heap.Provided (parent.map k₁.pointers) pools ∧
        ntSuccess (k₁.allocateDeviceData k.devices.next parent pools).1 = true ∧
        k.HasData (k₁.allocateDeviceData k.devices.next parent pools).2 k.devices.next
          parent.isNone) ∨
      (¬ Heap.Provided (parent.map k₁.pointers) pools ∧
        ntSuccess (k₁.allocateDeviceData k.devices.next parent pools).1 = false)) := by
  have hdevices : k.devices.Owes k₁.devices [k.devices.next] := by
    rw [hc.devices]
    exact (Pool.Owes.refl k.devices).allocate true
  have hdata : ((k₁.allocateDeviceData k.devices.next parent pools).2.object
      k.devices.next).extension.pDeviceData =
        (k.heap.allocateDeviceData (parent.map k₁.pointers) pools).2.1 := by
    simp [Kernel.allocateDeviceData, updateExtension, updateObject, hc.heap]
  have hheap : (k₁.allocateDeviceData k.devices.next parent pools).2.heap =
      (k.heap.allocateDeviceData (parent.map k₁.pointers) pools).2.2 := by
    rw [← hc.heap]
    rfl
  have hstatus : (k₁.allocateDeviceData k.devices.next parent pools).1 =
      (k.heap.allocateDeviceData (parent.map k₁.pointers) pools).1 := by
    rw [← hc.heap]
    rfl
  rw [hstatus]
  rcases k.heap.allocateDeviceData_spec (parent.map k₁.pointers) pools fun p hp => by
      obtain ⟨q, hq, rfl⟩ := Option.map_eq_some_iff.mp hp
      exact hparent q hq with
    ⟨hprovided, hsuccess, d, hd, hbuilt⟩ | ⟨hnot, hfail, hnone, hsettled⟩
  · refine ⟨⟨hdevices, ?_, hc.links⟩, Or.inl ⟨hprovided, hsuccess, d, hdata.trans hd, ?_⟩⟩
    -- everything was allocated, and freeing the device's data undoes it
    · rw [hdata, hd, hheap]
      exact hbuilt.free
    · rw [hheap, ← Option.isNone_map (f := k₁.pointers)]
      exact hbuilt
  · refine ⟨⟨hdevices, ?_, hc.links⟩, Or.inr ⟨hnot, hfail⟩⟩
    -- an allocation failed, and nothing is left to free but the device
    rw [hdata, hnone, hheap]
    exact hsettled

/-- The root hub's data learns of the control device, which is no part of what is freed. -/
theorem HasData.setControl {k k' : Kernel} {filter : ℕ} {isRoot : Bool}
    (hd : k.HasData k' filter isRoot) (control : Option ℕ) (id : UInt16) :
    k.HasData (k'.setControl filter control id) filter isRoot := by
  obtain ⟨d, hd, hbuilt⟩ := hd
  refine ⟨d, hd, ?_⟩
  unfold Kernel.setControl
  dsimp only
  rw [hd]
  exact hbuilt.setControl control id

/-- Naming the control device in the device data needs no undoing. -/
theorem Undoable.setControl {k k' : Kernel} {filter : ℕ} {isRoot : Bool}
    (hu : k.Undoable k' filter) (hd : k.HasData k' filter isRoot) (control : Option ℕ)
    (id : UInt16) :
    k.Undoable (k'.setControl filter control id) filter := by
  obtain ⟨d, hd', hbuilt⟩ := hd.setControl control id
  refine ⟨hu.devices, ?_, hu.links⟩
  rw [hd']
  exact hbuilt.free

/-- What has been done may be undone as before when only devices, links and the pool matter and are
the same. -/
theorem Undoable.of_sameResources {k k₁ k₂ : Kernel} {filter : ℕ} (hu : k.Undoable k₁ filter)
    (hsame : k₁.SameResources k₂) (hfilter : filter < k₁.devices.next) :
    k.Undoable k₂ filter := by
  refine ⟨hsame.devices _ _ hu.devices, ?_, hsame.links.trans hu.links⟩
  rw [hsame.heap, hsame.object filter hfilter]
  exact hu.heap

/-! ## Attaching to a root hub -/

/-- Nothing that was done since `k` is left: every device object created has been deleted and every
block allocated has been freed, exactly once each and none besides, the stacks and the symbolic
links are what they were, and so are the reference counts of the root hubs' data. -/
structure NoTrace (k k' : Kernel) : Prop where
  devices : k.devices.Settled k'.devices
  blocks : k.heap.blocks.Settled k'.heap.blocks
  stack : k'.stack = k.stack
  links : k'.links = k.links
  refCount : ∀ root < k.heap.blocks.next,
    (k'.heap.rootData root).refCount = (k.heap.rootData root).refCount

/-- No trace is left when everything is released and the stack is as before. -/
theorem noTrace_iff {k k' : Kernel} : k.NoTrace k' ↔ k.Released k' ∧ k'.stack = k.stack := by
  constructor
  · intro h
    exact ⟨⟨Pool.owes_nil_iff.mpr h.devices, ⟨Pool.owes_nil_iff.mpr h.blocks, h.refCount⟩,
      h.links⟩, h.stack⟩
  · rintro ⟨h, hstack⟩
    exact ⟨Pool.owes_nil_iff.mp h.devices, Pool.owes_nil_iff.mp h.heap.1, hstack, h.links,
      h.heap.2⟩

/-- The filter device is attached, and its control device cannot be created. -/
def ControlFails (k : Kernel) (answers : AddDeviceAnswers) : Prop :=
  answers.isRootHub = true ∧ ntSuccess answers.createDevice = true ∧
    answers.pools.deviceData = true ∧ answers.pools.rootData = true ∧ answers.attaches = true ∧
    ¬ k.ControlWorks answers.control

/-- Nothing has to be released at the start. -/
theorem released_refl (k : Kernel) : k.Released k :=
  ⟨Pool.Owes.refl _, k.heap.settled_refl, rfl⟩

/-- A stack with one more device is another one. -/
theorem stack_ne (k : Kernel) (filter target : ℕ) :
    Function.update k.stack target (filter :: k.stack target) ≠ k.stack := by
  intro h
  have hcons := congrFun h target
  rw [Function.update_self] at hcons
  exact absurd (congrArg List.length hcons) (by simp)

/-- The device data depend on the heap and on the filter's pointer. -/
theorem HasData.congr {k k₁ k₂ : Kernel} {filter : ℕ} {isRoot : Bool}
    (hd : k.HasData k₁ filter isRoot)
    (hheap : k₂.heap = k₁.heap)
    (hdata : (k₂.object filter).extension.pDeviceData = (k₁.object filter).extension.pDeviceData) :
    k.HasData k₂ filter isRoot := by
  obtain ⟨d, hd, hbuilt⟩ := hd
  exact ⟨d, hdata.trans hd, hheap ▸ hbuilt⟩

/-- Whether a control device can be added depends on the links and the number. -/
theorem controlWorks_congr {k k' : Kernel} (hlinks : k'.links = k.links)
    (hid : k'.controlId = k.controlId) (answers : ControlAnswers) :
    k'.ControlWorks answers ↔ k.ControlWorks answers := by
  unfold ControlWorks nextId
  rw [hlinks, hid]

/-- When the control device cannot be created, everything is undone but the attachment. -/
theorem addControl_spec {k k₁ : Kernel} {filter : ℕ} (answers : AddDeviceAnswers)
    (hu : k.Undoable k₁ filter) (hd : k.HasData k₁ filter true)
    (hfilter : filter < k₁.devices.next) :
    (k₁.ControlWorks answers.control ∧ ntSuccess (k₁.addControl answers filter).1 = true ∧
      k.HasData (k₁.addControl answers filter).2 filter true ∧
      filter < (k₁.addControl answers filter).2.devices.next) ∨
    (¬ k₁.ControlWorks answers.control ∧ ntSuccess (k₁.addControl answers filter).1 = false ∧
      k.Released (k₁.addControl answers filter).2 ∧
      (k₁.addControl answers filter).2.stack = k₁.stack) := by
  unfold addControl
  have hspec := k₁.createRootHubControlDevice_spec answers.control filter
  generalize k₁.createRootHubControlDevice answers.control filter = r at hspec
  dsimp only
  have hd' : k₁.SameFilters r.2.2 → k.HasData r.2.2 filter true := fun hsame =>
    hd.congr hsame.heap (by rw [hsame.object filter hfilter])
  rcases hspec with ⟨hw, hsuccess, hsame⟩ | ⟨hw, hfail, -, hsame⟩
  · refine Or.inl ⟨hw, ?_⟩
    rw [Kernel.endFunc, if_pos hsuccess]
    exact ⟨hsuccess, (hd' hsame).setControl _ _, hfilter.trans_le hsame.le⟩
  · have hu' := (hu.of_sameResources hsame hfilter).setControl (hd' hsame.toSameFilters)
      (r.2.1.map Prod.fst) ((r.2.1.map Prod.snd).getD answers.unsetId)
    obtain ⟨hreleased, hkeep, hstatus⟩ := hu'.endFunc hfail
    refine Or.inr ⟨hw, ?_, hreleased, hkeep.trans hsame.stack⟩
    rw [hstatus]
    exact hfail

/-- The lower device is another field. -/
theorem setNext_pDeviceData (k : Kernel) (filter : ℕ) (next : Option ℕ) (i : ℕ) :
    ((k.setNext filter next).object i).extension.pDeviceData =
      (k.object i).extension.pDeviceData :=
  @updateExtension_pDeviceData k filter (fun e => { e with pNextDevObj := next }) (fun _ => rfl) i

/-- So are the flags. -/
theorem takeOverFlags_pDeviceData (k : Kernel) (filter next i : ℕ) :
    ((k.takeOverFlags filter next).object i).extension.pDeviceData =
      (k.object i).extension.pDeviceData :=
  @updateObject_pDeviceData k filter (fun o =>
    { o with flags := (o.flags ||| ((k.object next).flags &&& 0x2014)) &&& ~~~0x80 })
    (fun _ => rfl) i

/-- Noting the lower device needs no undoing. -/
theorem Undoable.setNext {k k₁ : Kernel} {filter : ℕ} (hu : k.Undoable k₁ filter)
    (next : Option ℕ) : k.Undoable (k₁.setNext filter next) filter :=
  hu.congr rfl rfl rfl (k₁.setNext_pDeviceData filter next filter)

/-- Both together leave the device data alone. -/
theorem takeOverFlags_setNext_pDeviceData (k : Kernel) (filter next i : ℕ) :
    (((k.setNext filter (some next)).takeOverFlags filter next).object i).extension.pDeviceData =
      (k.object i).extension.pDeviceData :=
  (takeOverFlags_pDeviceData _ filter next i).trans (setNext_pDeviceData k filter (some next) i)

/-- Taking over the flags needs no undoing either. -/
theorem Undoable.takeOverFlags {k k₁ : Kernel} {filter : ℕ} (hu : k.Undoable k₁ filter)
    (next : ℕ) :
    k.Undoable ((k₁.setNext filter (some next)).takeOverFlags filter next) filter :=
  hu.congr rfl rfl rfl (k₁.takeOverFlags_setNext_pDeviceData filter next filter)

/-- And the device data stay. -/
theorem HasData.takeOverFlags {k k₁ : Kernel} {filter : ℕ} {isRoot : Bool}
    (hd : k.HasData k₁ filter isRoot) (next : ℕ) :
    k.HasData ((k₁.setNext filter (some next)).takeOverFlags filter next) filter isRoot :=
  hd.congr rfl (k₁.takeOverFlags_setNext_pDeviceData filter next filter)

/-- Only the stack changes, and only if the filter device is attached. -/
theorem ioAttach_spec (k : Kernel) (attaches : Bool) (source target : ℕ) :
    (attaches = true ∧ ∃ next k₂, k.ioAttachDeviceToDeviceStack attaches source target =
        (some next, k₂) ∧
      k₂ = { k with stack := Function.update k.stack target (source :: k.stack target) }) ∨
    (attaches = false ∧
      k.ioAttachDeviceToDeviceStack attaches source target = (none, k)) := by
  cases attaches with
  | true => exact Or.inl ⟨rfl, _, _, rfl, rfl⟩
  | false => exact Or.inr ⟨rfl, rfl⟩

/-- Behind the attachment to a root hub, the control device decides, and what is left behind without
one is the attachment. -/
theorem addControl_attached {k k₁ : Kernel} {filter : ℕ} (answers : AddDeviceAnswers)
    (hu : k.Undoable k₁ filter) (hd : k.HasData k₁ filter true) (hstack : k₁.stack = k.stack)
    (hid : k₁.controlId = k.controlId) (target next : ℕ) {k₂ : Kernel}
    (hk₂ : k₂ = { k₁ with stack := Function.update k₁.stack target (filter :: k₁.stack target) })
    {r : StatusCode × Kernel}
    (hr : ((k₂.setNext filter (some next)).takeOverFlags filter next).addControl answers filter =
      r) :
    (k.ControlWorks answers.control ∧ ntSuccess r.1 = true ∧ k.HasData r.2 filter true ∧
      filter < r.2.devices.next) ∨
    (¬ k.ControlWorks answers.control ∧ ntSuccess r.1 = false ∧ k.Released r.2 ∧
      r.2.stack ≠ k.stack) := by
  have hu₂ : k.Undoable k₂ filter := by
    subst hk₂
    exact hu.congr rfl rfl rfl rfl
  have hd₂ : k.HasData k₂ filter true := by
    subst hk₂
    exact hd.congr rfl rfl
  have hworks : k₂.ControlWorks answers.control ↔ k.ControlWorks answers.control := by
    subst hk₂
    exact controlWorks_congr hu.links hid answers.control
  have hstack₂ : k₂.stack ≠ k.stack := by
    subst hk₂
    rw [← hstack]
    exact k₁.stack_ne filter target
  have hfilter : filter < k₂.devices.next :=
    (hu₂.devices.since filter (List.mem_singleton.mpr rfl)).2
  have hspec := addControl_spec answers (hu₂.takeOverFlags next) (hd₂.takeOverFlags next) hfilter
  rw [hr] at hspec
  rcases hspec with ⟨hw, hok, hlast⟩ | ⟨hw, hfail, hreleased, hlast⟩
  · exact Or.inl ⟨hworks.mp hw, hok, hlast⟩
  · exact Or.inr ⟨fun h => hw (hworks.mpr h), hfail, hreleased,
      fun hsame => hstack₂ (hlast.symm.trans hsame)⟩

/-- **What `AddDevice` leaves behind when it fails**: nothing, unless it is the control device that
cannot be created; then everything but the attachment is undone. When it succeeds, the filter device
of a root hub has its data. -/
theorem addDevice_spec (k : Kernel) (answers : AddDeviceAnswers) (target : ℕ) :
    (¬ k.ControlFails answers ∧ ((ntSuccess (k.addDevice answers target).1 = true ∧
        (answers.isRootHub = true →
          k.HasData (k.addDevice answers target).2 k.devices.next true ∧
          k.devices.next < (k.addDevice answers target).2.devices.next)) ∨
      (ntSuccess (k.addDevice answers target).1 = false ∧
        k.Released (k.addDevice answers target).2 ∧
        (k.addDevice answers target).2.stack = k.stack))) ∨
    (k.ControlFails answers ∧ ntSuccess (k.addDevice answers target).1 = false ∧
      k.Released (k.addDevice answers target).2 ∧
      (k.addDevice answers target).2.stack ≠ k.stack) := by
  unfold addDevice ControlFails
  cases hroot : answers.isRootHub with
  | false => exact Or.inl ⟨fun h => by simp at h, Or.inl ⟨ntSuccess_statusSuccess, nofun⟩⟩
  | true =>
    rw [if_neg (by simp)]
    cases hcreate : ntSuccess answers.createDevice with
    | false =>
      rw [ioCreateDevice_of_error _ hcreate]
      refine Or.inl ⟨fun h => by simp at h, Or.inr ?_⟩
      unfold endFunc
      dsimp only
      rw [if_neg (by simp [hcreate])]
      exact ⟨hcreate, k.released_refl, rfl⟩
    | true =>
      rw [ioCreateDevice_of_success _ hcreate]
      dsimp only
      -- the state in which the data is allocated
      generalize hk₁ : ioInitializeRemoveLock _ _ = k₁
      have hc : k.Created k₁ := by
        rw [← hk₁]
        exact ⟨rfl, rfl, rfl, rfl, rfl⟩
      obtain ⟨hu, hdata⟩ := hc.allocateDeviceData none answers.pools nofun
      have hkeep : (k₁.allocateDeviceData k.devices.next none answers.pools).2.stack = k.stack ∧
          (k₁.allocateDeviceData k.devices.next none answers.pools).2.controlId = k.controlId :=
        ⟨hc.stack, hc.controlId⟩
      generalize k₁.allocateDeviceData k.devices.next none answers.pools = data at hu hdata hkeep
      rcases hdata with ⟨hprovided, hsuccess, hd⟩ | ⟨hnot, hfail⟩
      · rw [if_neg (by simp [hsuccess])]
        rcases data.2.ioAttach_spec answers.attaches k.devices.next target with
          ⟨hattach, next, k₂, heq, hk₂⟩ | ⟨hattach, heq⟩
        · rw [heq]
          dsimp only
          generalize hr : addControl _ answers _ = r
          rcases addControl_attached answers hu hd hkeep.1 hkeep.2 target next hk₂ hr with
            ⟨hw, hok, hlast⟩ | ⟨hw, hfail, hreleased, hstack⟩
          · exact Or.inl ⟨fun h => h.2.2.2.2.2 hw, Or.inl ⟨hok, fun _ => hlast⟩⟩
          · exact Or.inr ⟨⟨rfl, rfl, hprovided.1, hprovided.2 rfl, hattach, hw⟩, hfail, hreleased,
              hstack⟩
        · rw [heq]
          dsimp only
          have hend := (hu.setNext none).endFunc ntSuccess_statusNoSuchDevice
          exact Or.inl ⟨fun h => by simp [hattach] at h,
            Or.inr ⟨hend.2.2 ▸ ntSuccess_statusNoSuchDevice, hend.1, hend.2.1.trans hkeep.1⟩⟩
      · rw [if_pos (by simp [hfail])]
        have hend := hu.endFunc hfail
        refine Or.inl ⟨fun h => hnot ⟨h.2.2.1, fun _ => h.2.2.2.1⟩, Or.inr ⟨?_, hend.1, ?_⟩⟩
        · rw [hend.2.2]
          exact hfail
        · exact hend.2.1.trans hkeep.1

/-! ## Attaching to a child -/

/-- The parent is a filter device, and the data of its root hub is alive. -/
structure IsFilter (k : Kernel) (parent : ℕ) : Prop where
  created : parent < k.devices.next
  holds : k.heap.HoldsReference (k.pointers parent)

/-- The answers as `HubChildren` sees them. -/
def attachResult (answers : AttachTgtAnswers) : AttachResult where
  created := ntSuccess answers.createDevice
  objectSet := answers.objectSet
  dataAllocated := answers.pools.deviceData
  stacked := answers.attaches

/-- **What `DkCreateAndAttachTgt` leaves behind**: the attached filter device, or nothing. -/
theorem createAndAttachTgt_spec {k : Kernel} {parent : ℕ} (hp : k.IsFilter parent)
    (answers : AttachTgtAnswers) (target : ℕ) :
    (Driver.createAndAttachTgt (attachResult answers) = true ∧
      ntSuccess (k.createAndAttachTgt answers parent target).1 = true ∧
      (k.createAndAttachTgt answers parent target).2.stack =
        Function.update k.stack target (k.devices.next :: k.stack target)) ∨
    (Driver.createAndAttachTgt (attachResult answers) = false ∧
      k.Released (k.createAndAttachTgt answers parent target).2 ∧
      (k.createAndAttachTgt answers parent target).2.stack = k.stack) := by
  unfold createAndAttachTgt
  cases hcreate : ntSuccess answers.createDevice with
  | false =>
    have hresult : Driver.createAndAttachTgt (attachResult answers) = false := by
      simp [Driver.createAndAttachTgt, attachResult, hcreate]
    rw [if_pos (by simp)]
    exact Or.inr ⟨hresult, k.released_refl, rfl⟩
  | true =>
    rw [if_neg (by simp)]
    cases hset : answers.objectSet with
    | false =>
      have hresult : Driver.createAndAttachTgt (attachResult answers) = false := by
        simp [Driver.createAndAttachTgt, attachResult, hset]
      rw [if_pos rfl]
      exact Or.inr ⟨hresult, k.released_refl, rfl⟩
    | true =>
      have hresult : Driver.createAndAttachTgt (attachResult answers) =
          (answers.pools.deviceData && answers.attaches) := by
        simp [Driver.createAndAttachTgt, attachResult, hcreate, hset]
      rw [hresult, if_neg (by simp), ioCreateDevice_of_success _ hcreate]
      dsimp only
      -- the state in which the data is allocated
      generalize hk₁ : updateExtension _ _ _ = k₁
      have hc : k.Created k₁ := by
        rw [← hk₁]
        exact ⟨rfl, rfl, rfl, rfl, rfl⟩
      have hpointers : k₁.pointers parent = k.pointers parent := by
        have hne : parent ≠ k.devices.next := Nat.ne_of_lt hp.created
        rw [← hk₁]
        simp [pointers, updateExtension, updateObject, hne]
      obtain ⟨hu, hdata⟩ := hc.allocateDeviceData (some parent) answers.pools fun q hq => by
        obtain rfl := Option.some.inj hq
        rw [hpointers]
        exact hp.holds
      have hkeep : (k₁.allocateDeviceData k.devices.next (some parent) answers.pools).2.stack =
          k.stack := hc.stack
      generalize k₁.allocateDeviceData k.devices.next (some parent) answers.pools = data
        at hu hdata hkeep
      rcases hdata with ⟨hprovided, hsuccess, -⟩ | ⟨hnot, hno⟩
      · rw [if_neg (by simp [hsuccess]), hprovided.1, Bool.true_and]
        rcases (data.2.ioInitializeRemoveLock k.devices.next).ioAttach_spec answers.attaches
          k.devices.next target with ⟨hattach, next, k₂, heq, hk₂⟩ | ⟨hattach, heq⟩
        · -- nothing can fail any more
          rw [heq]
          dsimp only
          rw [endFunc, if_pos hsuccess]
          refine Or.inl ⟨hattach, hsuccess, ?_⟩
          rw [← hkeep]
          subst hk₂
          rfl
        · rw [heq]
          dsimp only
          have hu' : k.Undoable (data.2.ioInitializeRemoveLock k.devices.next) k.devices.next :=
            hu.congr rfl rfl rfl rfl
          have hend := (hu'.setNext none).endFunc ntSuccess_statusNoSuchDevice
          exact Or.inr ⟨hattach, hend.1, hend.2.1.trans hkeep⟩
      · have hblock : answers.pools.deviceData = false :=
          Bool.eq_false_iff.mpr fun h => hnot ⟨h, nofun⟩
        rw [if_pos (by simp [hno]), hblock, Bool.false_and]
        have hend := hu.endFunc hno
        exact Or.inr ⟨rfl, hend.1, hend.2.1.trans hkeep⟩

/-- A filter device that `AddDevice` has attached can be a parent. -/
theorem isFilter_addDevice {k : Kernel} {answers : AddDeviceAnswers} {target : ℕ}
    (hroot : answers.isRootHub = true)
    (hsuccess : ntSuccess (k.addDevice answers target).1 = true) :
    (k.addDevice answers target).2.IsFilter k.devices.next := by
  rcases k.addDevice_spec answers target with ⟨-, ⟨-, hdata⟩ | ⟨hfail, -⟩⟩ | ⟨-, hfail, -⟩
  · obtain ⟨⟨d, hd, hbuilt⟩, hlt⟩ := hdata hroot
    exact ⟨hlt, hbuilt.holdsReference hd⟩
  · rw [hsuccess] at hfail
    cases hfail
  · rw [hsuccess] at hfail
    cases hfail

/-- **When a failed attachment leaves no trace.** `AddDevice` leaves none when it fails exactly when
it is not the control device that cannot be created for an attached filter device;
`DkCreateAndAttachTgt` never leaves one. -/
theorem failed_attach_iff (k : Kernel) (answers : AddDeviceAnswers) (target : ℕ) :
    ((ntSuccess (k.addDevice answers target).1 = false → k.NoTrace (k.addDevice answers target).2) ↔
      ¬ k.ControlFails answers) ∧
    ∀ parent, k.IsFilter parent → ∀ tgtAnswers child,
      ntSuccess (k.createAndAttachTgt tgtAnswers parent child).1 = false →
        k.NoTrace (k.createAndAttachTgt tgtAnswers parent child).2 := by
  constructor
  · rcases k.addDevice_spec answers target with ⟨hnot, hrest⟩ | ⟨hcontrol, hfail, -, hstack⟩
    · refine iff_of_true (fun hfail => ?_) hnot
      rcases hrest with ⟨hsuccess, -⟩ | ⟨-, hreleased⟩
      · rw [hsuccess] at hfail
        cases hfail
      · exact noTrace_iff.mpr hreleased
    · exact iff_of_false (fun h => hstack (h hfail).stack) (not_not.mpr hcontrol)
  · intro parent hp tgtAnswers child hfail
    rcases createAndAttachTgt_spec hp tgtAnswers child with ⟨-, hsuccess, -⟩ | ⟨-, hreleased⟩
    · rw [hsuccess] at hfail
      cases hfail
    · exact noTrace_iff.mpr hreleased

/-! ## A root hub without a control device -/

/-- The kernel with one root hub, device object 0, before the driver attaches to it. -/
def booted : Kernel where
  heap :=
    { blocks := ⟨0, fun _ => 0⟩
      deviceData := fun _ => ⟨none, none, none, false, 0, false, 0, none, none, none, none⟩
      rootData := fun _ => Heap.newRootData
      elements := fun _ => [] }
  devices := ⟨1, fun _ => 0⟩
  object := fun _ => ⟨0x22, 0, {}⟩
  stack := fun _ => []
  links := fun _ => none
  controlId := 0
  locks := fun _ => 0

/-- Every block can be allocated. -/
def allPools : AttachPools where
  deviceData := true
  rootData := true
  endpointTable := true
  urbIrpTable := true

/-- Nothing fails on the way to the attachment; `controlStatus` is the answer of
`IoCreateDeviceSecure`. -/
def attachesWith (controlStatus : StatusCode) : AddDeviceAnswers where
  isRootHub := true
  createDevice := statusSuccess
  pools := allPools
  attaches := true
  control := ⟨controlStatus, statusSuccess, statusSuccess⟩
  unsetId := 0

/-- The kernel with the filter device, device object 1. -/
def hubKernel : Kernel := (booted.addDevice (attachesWith statusSuccess) 0).2

/-- The filter of a hub is attached. -/
theorem isFilter_hubKernel : hubKernel.IsFilter 1 :=
  isFilter_addDevice rfl (show ntSuccess (booted.addDevice (attachesWith statusSuccess) 0).1 = true
    by decide +kernel)

/-- The stack of the child does not take the filter device. -/
def refusedChild : AttachTgtAnswers where
  createDevice := statusSuccess
  objectSet := true
  pools := allPools
  attaches := false

/-- A child whose data cannot be allocated leaves no trace. -/
theorem failed_attach_refusedChild :
    hubKernel.NoTrace (hubKernel.createAndAttachTgt refusedChild 1 7).2 :=
  (failed_attach_iff hubKernel (attachesWith statusSuccess) 0).2 1 isFilter_hubKernel refusedChild 7
    (by decide +kernel)

/-- Without a control device the filter device is deleted while it is in the stack. -/
theorem deleted_while_attached :
    ntSuccess (booted.addDevice (attachesWith statusInsufficientResources) 0).1 = false ∧
      (booted.addDevice (attachesWith statusInsufficientResources) 0).2.stack 0 = [1] ∧
      (booted.addDevice (attachesWith statusInsufficientResources) 0).2.devices.frees 1 = 1 ∧
      ¬ booted.NoTrace (booted.addDevice (attachesWith statusInsufficientResources) 0).2 := by
  have hstack : (booted.addDevice (attachesWith statusInsufficientResources) 0).2.stack 0 =
      [1] := by
    decide +kernel
  refine ⟨by decide +kernel, hstack, by decide +kernel, fun h => ?_⟩
  rw [h.stack] at hstack
  cases hstack

end Kernel

end UsbPcap.Driver
