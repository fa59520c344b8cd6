import UsbPcap.Lib.Transition
import UsbPcap.Driver.Filter
import UsbPcap.Driver.ReadQueue

/-!
# The control device of a root hub

User mode reaches a root hub through its control device. Many file objects may be open on it, one of
them with the right to capture: `pCaptureObject`. The dispatch routines compare it with the file
object of the request. `Control` adds to the device which file objects are open, since a request
comes between the successful create and the cleanup of its file object, and the close after that.
-/

namespace UsbPcap.Driver

open Format

/-- The control device with the data of its root hub that the requests work on. -/
structure ControlDevice where
  pCaptureObject : Option FileObject
  lePendIrp : List ReadIrp
  rootData : RootHubData
  filter : AddressFilter

/-! ## Create, cleanup and close -/

/-- `READ_CONTROL | FILE_READ_DATA` -/
def captureAccess : UInt32 := 0x00020000 ||| 0x00000001

/-- A read that is taken out is missing. -/
theorem length_csqRemoveNextIrp {queue queue' : List ReadIrp} {ctx : Option FileObject}
    {r : ReadIrp} (h : csqRemoveNextIrp queue ctx = some (r, queue')) :
    queue'.length < queue.length := by
  unfold csqRemoveNextIrp csqPeekNextIrp at h
  split at h
  · cases h
  · rename_i r' hfind
    obtain ⟨rfl, rfl⟩ := Prod.mk.inj (Option.some.inj h)
    have hmem := List.mem_of_find?_eq_some hfind
    have hpos := List.length_pos_of_mem hmem
    rw [List.length_erase_of_mem hmem]
    omega

/-- `DkCsqCleanUpQueue`: the reads it cancels, and what stays in the queue. -/
def csqCleanUpQueue (queue : List ReadIrp) (fileObject : FileObject) :
    List Completion × List ReadIrp :=
  match _h : csqRemoveNextIrp queue (some fileObject) with
  | none => ([], queue)
  | some (r, queue') =>
    let (cancelled, rest) := csqCleanUpQueue queue' fileObject
    (csqCompleteCanceledIrp r :: cancelled, rest)
termination_by queue.length
decreasing_by exact length_csqRemoveNextIrp _h

/-- The `IRP_MJ_CREATE` case of `DkCreateClose`. -/
def createControl (d : ControlDevice) (fileObject : FileObject) (desiredAccess : UInt32) :
    IoStatus × ControlDevice :=
  if desiredAccess &&& captureAccess ≠ 0 then
    match d.pCaptureObject with
    | none => (.done .success, { d with pCaptureObject := some fileObject })
    | some _ => (.accessDenied, d)
  else (.done .success, d)

/-- The `IRP_MJ_CLEANUP` case of `DkCreateClose`. -/
def cleanupControl (d : ControlDevice) (fileObject : FileObject) :
    List Completion × ControlDevice :=
  if d.pCaptureObject = some fileObject then
    let (cancelled, queue) := csqCleanUpQueue d.lePendIrp fileObject
    (cancelled,
      { d with
        lePendIrp := queue
        filter := .zero
        rootData := bufferRemoveBuffer d.rootData })
  else ([], d)

/-- The `IRP_MJ_CLOSE` case of `DkCreateClose`. -/
def closeControl (d : ControlDevice) (fileObject : FileObject) : ControlDevice :=
  if d.pCaptureObject = some fileObject then { d with pCaptureObject := none } else d

/-! ## Device control and read -/

/-- `CTL_CODE(FILE_DEVICE_UNKNOWN, function, METHOD_BUFFERED, access)` -/
def ctlCode (function access : UInt32) : UInt32 :=
  (0x22 : UInt32) <<< 16 ||| access <<< 14 ||| function <<< 2

def ioctlSetupBuffer : UInt32 := ctlCode 0x800 1
def ioctlStartFiltering : UInt32 := ctlCode 0x801 3
def ioctlStopFiltering : UInt32 := ctlCode 0x802 3
def ioctlGetHubSymlink : UInt32 := ctlCode 0x803 0
def ioctlSetSnaplenSize : UInt32 := ctlCode 0x804 1

/-- A device control request and what the system answers in it: the bytes of the hub's symbolic link
with their terminator, or `none`, and the block that the allocation of each size returns. -/
structure ControlRequest where
  ioControlCode : UInt32
  systemBuffer : List UInt8
  outputBufferLength : ℕ
  interfaces : Option (List UInt8)
  pool : (bytes : UInt32) → Option (Block bytes.toNat)

/-- The `size` of a `USBPCAP_IOCTL_SIZE`. -/
def ioctlSize (systemBuffer : List UInt8) : UInt32 := UInt32.ofNat (field 0 4 systemBuffer)

/-- `HandleUSBPcapControlIOCTL`: the status, the bytes put out, and the data of the root hub. -/
def handleControlIoctl (p : RootHubData) (filter : AddressFilter) (q : ControlRequest)
    (allowCapture : Bool) : (IoStatus × List UInt8) × RootHubData × AddressFilter :=
  if q.ioControlCode = ioctlGetHubSymlink then
    match q.interfaces with
    | none => ((.notFound, []), p, filter)
    | some interfaces =>
      if q.outputBufferLength < interfaces.length then ((.done .bufferTooSmall, []), p, filter)
      else ((.done .success, interfaces), p, filter)
  else if allowCapture = false then ((.accessDenied, []), p, filter)
  else if q.ioControlCode = ioctlSetupBuffer then
    if q.systemBuffer.length ≠ 4 then ((.done .invalidParameter, []), p, filter)
    else
      let size := ioctlSize q.systemBuffer
      let (status, p) := setUpBuffer p size (q.pool size)
      ((.done status, []), p, filter)
  else if q.ioControlCode = ioctlStartFiltering then
    if q.systemBuffer.length ≠ sizeofAddressFilter then
      ((.done .invalidParameter, []), p, filter)
    else ((.done .success, []), p, .ofBytes q.systemBuffer)
  else if q.ioControlCode = ioctlStopFiltering then ((.done .success, []), p, .zero)
  else if q.ioControlCode = ioctlSetSnaplenSize then
    if q.systemBuffer.length ≠ 4 then ((.done .invalidParameter, []), p, filter)
    else
      let (status, p) := setSnaplenSize p (ioctlSize q.systemBuffer)
      ((.done status, []), p, filter)
  else ((.invalidDeviceRequest, []), p, filter)

/-- `DkDevCtl` on the control device. -/
def dkDevCtl (d : ControlDevice) (fileObject : FileObject) (q : ControlRequest) :
    (IoStatus × List UInt8) × ControlDevice :=
  let allowCapture := decide (d.pCaptureObject = some fileObject)
  let (r, p, filter) := handleControlIoctl d.rootData d.filter q allowCapture
  (r, { d with rootData := p, filter := filter })

/-- The `IRP_MJ_READ` case of `DkReadWrite`. -/
def readControl (d : ControlDevice) (r : ReadIrp) (mapped : Bool) :
    (IoStatus × List UInt8) × ControlDevice :=
  if some r.fileObject = d.pCaptureObject then
    let (result, p, queue) := bufferHandleReadIrp d.rootData d.lePendIrp r mapped
    (result, { d with rootData := p, lePendIrp := queue })
  else ((.accessDenied, []), d)

/-- A packet of a device of the root hub. -/
def storeControl (d : ControlDevice) (k : Packet) : Option Completion × ControlDevice :=
  let (_, c, p, queue) := bufferWriteTimestampedPayload d.rootData d.lePendIrp k
  (c, { d with rootData := p, lePendIrp := queue })

/-! ## What a request does to the device -/

/-- Where no read is found, none of the file object is left. -/
theorem csqRemoveNextIrp_eq_none {queue : List ReadIrp} {f : FileObject}
    (h : csqRemoveNextIrp queue (some f) = none) : ∀ r ∈ queue, r.fileObject ≠ f := by
  unfold csqRemoveNextIrp csqPeekNextIrp at h
  split at h
  · rename_i hfind
    intro r hr
    simpa using List.find?_eq_none.mp hfind r hr
  · cases h

/-- The read that is found is one of the file object. -/
theorem csqRemoveNextIrp_eq_some {queue queue' : List ReadIrp} {f : FileObject} {r : ReadIrp}
    (h : csqRemoveNextIrp queue (some f) = some (r, queue')) :
    r.fileObject = f ∧ queue' = queue.erase r := by
  unfold csqRemoveNextIrp csqPeekNextIrp at h
  split at h
  · cases h
  · rename_i r' hfind
    obtain ⟨rfl, rfl⟩ := Prod.mk.inj (Option.some.inj h)
    exact ⟨by simpa using List.find?_some hfind, rfl⟩

/-- The loop ends when no read of the file object is left. -/
theorem csqCleanUpQueue_rest (queue : List ReadIrp) (f : FileObject) :
    ∀ r ∈ (csqCleanUpQueue queue f).2, r ∈ queue ∧ r.fileObject ≠ f := by
  fun_induction csqCleanUpQueue queue f with
  | case1 queue hnone => exact fun r hr => ⟨hr, csqRemoveNextIrp_eq_none hnone r hr⟩
  | case2 queue r queue' hsome cancelled rest heq ih =>
    obtain ⟨-, rfl⟩ := csqRemoveNextIrp_eq_some hsome
    intro q hq
    rw [heq] at ih
    exact ⟨List.mem_of_mem_erase (ih q hq).1, (ih q hq).2⟩

/-- A read enters the queue or leaves it as it is. -/
theorem bufferHandleReadIrp_queue (p : RootHubData) (queue : List ReadIrp) (r : ReadIrp)
    (mapped : Bool) : (bufferHandleReadIrp p queue r mapped).2.2 = queue ∨
      (bufferHandleReadIrp p queue r mapped).2.2 = csqInsertIrp queue r := by
  unfold bufferHandleReadIrp
  dsimp only
  repeat' split
  all_goals first
    | exact Or.inl rfl
    | exact Or.inr rfl

/-- A stored packet takes reads out of the queue and puts none in. -/
theorem storeControl_queue (d : ControlDevice) (k : Packet) :
    ∀ r ∈ (storeControl d k).2.lePendIrp, r ∈ d.lePendIrp := by
  intro r
  simp only [storeControl, bufferWriteTimestampedPayload]
  split
  · cases hqueue : d.lePendIrp with
    | nil => exact id
    | cons q queue =>
      simp only [bufferCompletePendedReadIrp, csqRemoveNextIrp_cons]
      exact List.mem_cons_of_mem q
  · exact id

/-- Without the right to capture, a control code changes nothing. -/
theorem handleControlIoctl_denied (p : RootHubData) (filter : AddressFilter) (q : ControlRequest) :
    (handleControlIoctl p filter q false).2 = (p, filter) := by
  unfold handleControlIoctl
  split
  · cases q.interfaces with
    | none => rfl
    | some interfaces =>
      dsimp only
      split <;> rfl
  · rfl

/-- The requests of a file object that is not the capture handle are refused. -/
theorem dkDevCtl_other {d : ControlDevice} {f : FileObject} (hf : d.pCaptureObject ≠ some f)
    (q : ControlRequest) : (dkDevCtl d f q).2 = d := by
  simp only [dkDevCtl, decide_eq_false hf, handleControlIoctl_denied]

/-- A read of another file object changes nothing. -/
theorem readControl_other {d : ControlDevice} {r : ReadIrp}
    (hf : d.pCaptureObject ≠ some r.fileObject) (mapped : Bool) :
    (readControl d r mapped).2 = d := by
  rw [readControl, if_neg hf.symm]

/-- Neither does its cleanup. -/
theorem cleanupControl_other {d : ControlDevice} {f : FileObject}
    (hf : d.pCaptureObject ≠ some f) : (cleanupControl d f).2 = d := by
  rw [cleanupControl, if_neg hf]

/-- Nor its close. -/
theorem closeControl_other {d : ControlDevice} {f : FileObject}
    (hf : d.pCaptureObject ≠ some f) : closeControl d f = d := by
  rw [closeControl, if_neg hf]

/-- A create with the right to capture succeeds if there is no capture handle. -/
theorem createControl_cases (d : ControlDevice) (f : FileObject) (desiredAccess : UInt32) :
    (desiredAccess &&& captureAccess = 0 ∧
      createControl d f desiredAccess = (.done .success, d)) ∨
    (desiredAccess &&& captureAccess ≠ 0 ∧ d.pCaptureObject = none ∧
      createControl d f desiredAccess =
        (.done .success, { d with pCaptureObject := some f })) ∨
    (desiredAccess &&& captureAccess ≠ 0 ∧ d.pCaptureObject ≠ none ∧
      createControl d f desiredAccess = (.accessDenied, d)) := by
  unfold createControl
  by_cases haccess : desiredAccess &&& captureAccess = 0
  · exact Or.inl ⟨haccess, by rw [if_neg (not_not.mpr haccess)]⟩
  · rw [if_pos haccess]
    cases hobj : d.pCaptureObject with
    | none => exact Or.inr (Or.inl ⟨haccess, rfl, rfl⟩)
    | some g => exact Or.inr (Or.inr ⟨haccess, Option.some_ne_none g, rfl⟩)

/-! ## File objects -/

/-- The life of a file object; `capture` says whether it was opened with the right to capture. -/
inductive Handle where
  | closed
  | opened (capture : Bool)
  | cleanedUp (capture : Bool)
deriving DecidableEq, Repr

/-- The requests of a file object. -/
inductive Request where
  | create (desiredAccess : UInt32)
  | cleanup
  | close
  | deviceControl (q : ControlRequest)
  | read (irp : Irp) (length : UInt32) (mapped : Bool)

/-- What happens on a control device. -/
inductive Event where
  | request (fileObject : FileObject) (r : Request)
  | deviceStart (deviceAddress : UInt16)
  | store (k : Packet)

/-- A control device and its file objects. -/
structure Control where
  device : ControlDevice
  handle : FileObject → Handle

namespace Control

/-- The control device as `AddDevice` leaves it. -/
def init : Control where
  device :=
    { pCaptureObject := none
      lePendIrp := []
      rootData := (Session.init 65535).data
      filter := .zero }
  handle _ := .closed

/-- One request, when the life of its file object allows it. -/
def request (s : Control) (f : FileObject) : Request → Option Control
  | .create desiredAccess =>
    if s.handle f = .closed then
      let (status, d) := createControl s.device f desiredAccess
      some
        { device := d
          handle :=
            if status = .done .success then
              Function.update s.handle f (.opened (desiredAccess &&& captureAccess ≠ 0))
            else s.handle }
    else none
  | .cleanup =>
    match s.handle f with
    | .opened capture =>
      some
        { device := (cleanupControl s.device f).2
          handle := Function.update s.handle f (.cleanedUp capture) }
    | _ => none
  | .close =>
    match s.handle f with
    | .cleanedUp _ =>
      some { device := closeControl s.device f, handle := Function.update s.handle f .closed }
    | _ => none
  | .deviceControl q =>
    match s.handle f with
    | .opened _ => some { s with device := (dkDevCtl s.device f q).2 }
    | _ => none
  | .read irp length mapped =>
    match s.handle f with
    | .opened _ => some { s with device := (readControl s.device ⟨irp, f, length⟩ mapped).2 }
    | _ => none

/-- One step. -/
def step (s : Control) : Event → Option Control
  | .request f r => s.request f r
  | .deviceStart deviceAddress =>
    some { s with device :=
      { s.device with filter := filterStartedDevice s.device.filter deviceAddress } }
  | .store k => some { s with device := (storeControl s.device k).2 }

/-- The file object was opened with the right to capture and is not closed yet. -/
def IsCapture (s : Control) (f : FileObject) : Prop :=
  s.handle f = .opened true ∨ s.handle f = .cleanedUp true

/-- The step opens no file object with the right to capture. -/
def NoNewCapture (s : Control) (e : Event) : Prop :=
  ∀ t, s.step e = some t → ∀ f, t.IsCapture f → s.IsCapture f

/-- The branches of `request` that succeed. -/
inductive Requested (s : Control) (f : FileObject) : Request → Control → Prop where
  | query {desiredAccess : UInt32} (hclosed : s.handle f = .closed)
    (haccess : desiredAccess &&& captureAccess = 0) :
    Requested s f (.create desiredAccess) ⟨s.device, Function.update s.handle f (.opened false)⟩
  | capture {desiredAccess : UInt32} (hclosed : s.handle f = .closed)
    (hnone : s.device.pCaptureObject = none) :
    Requested s f (.create desiredAccess)
      ⟨{ s.device with pCaptureObject := some f }, Function.update s.handle f (.opened true)⟩
  | denied {desiredAccess : UInt32} : Requested s f (.create desiredAccess) s
  | cleanup {capture : Bool} (hopen : s.handle f = .opened capture) :
    Requested s f .cleanup
      ⟨(cleanupControl s.device f).2, Function.update s.handle f (.cleanedUp capture)⟩
  | close {capture : Bool} (hclean : s.handle f = .cleanedUp capture) :
    Requested s f .close ⟨closeControl s.device f, Function.update s.handle f .closed⟩
  | deviceControl {q : ControlRequest} {capture : Bool} (hopen : s.handle f = .opened capture) :
    Requested s f (.deviceControl q) { s with device := (dkDevCtl s.device f q).2 }
  | read {irp : Irp} {length : UInt32} {mapped : Bool} {capture : Bool}
    (hopen : s.handle f = .opened capture) :
    Requested s f (.read irp length mapped)
      { s with device := (readControl s.device ⟨irp, f, length⟩ mapped).2 }

/-- Every request that succeeds took one of these branches. -/
theorem request_cases {s t : Control} {f : FileObject} {r : Request}
    (h : s.request f r = some t) : Requested s f r t := by
  cases r with
  | create desiredAccess =>
    -- a query handle, a capture handle, or a second capture handle, which is denied
    simp only [request] at h
    split at h
    · rename_i hclosed
      rcases createControl_cases s.device f desiredAccess with
        ⟨haccess, heq⟩ | ⟨haccess, hnone, heq⟩ | ⟨-, -, heq⟩
      all_goals
        rw [heq] at h
        obtain rfl := Option.some.inj h
      · rw [if_pos rfl, decide_eq_false (not_not.mpr haccess)]
        exact .query hclosed haccess
      · rw [if_pos rfl, decide_eq_true haccess]
        exact .capture hclosed hnone
      · exact .denied
    · cases h
  | cleanup =>
    simp only [request] at h
    split at h
    · rename_i hopen
      obtain rfl := Option.some.inj h
      exact .cleanup hopen
    · cases h
  | close =>
    simp only [request] at h
    split at h
    · rename_i hclean
      obtain rfl := Option.some.inj h
      exact .close hclean
    · cases h
  | deviceControl q =>
    simp only [request] at h
    split at h
    · rename_i hopen
      obtain rfl := Option.some.inj h
      exact .deviceControl hopen
    · cases h
  | read irp length mapped =>
    simp only [request] at h
    split at h
    · rename_i hopen
      obtain rfl := Option.some.inj h
      exact .read hopen
    · cases h

/-! ## Who owns the device -/

/-- What becomes of one file object says nothing about the others. -/
theorem isCapture_update {s : Control} {d : ControlDevice} {f g : FileObject} {h : Handle} :
    IsCapture ⟨d, Function.update s.handle f h⟩ g ↔
      if g = f then h = .opened true ∨ h = .cleanedUp true else s.IsCapture g := by
  unfold IsCapture
  by_cases hg : g = f
  · subst hg
    simp only [Function.update_self, if_true]
  · simp only [Function.update_of_ne hg, if_neg hg]

/-- The invariant: `pCaptureObject` is the one file object with the right to capture, and only its
reads wait, none of them behind its cleanup. -/
structure Owned (s : Control) : Prop where
  owner : ∀ f, s.device.pCaptureObject = some f ↔ s.IsCapture f
  queued : ∀ r ∈ s.device.lePendIrp, s.handle r.fileObject = .opened true

/-- Another file object is not `pCaptureObject`. -/
theorem Owned.not_owner {s : Control} (h : Owned s) {f : FileObject} (hf : ¬ s.IsCapture f) :
    s.device.pCaptureObject ≠ some f := fun heq => hf ((h.owner f).mp heq)

/-- At the start there is no capture handle. -/
theorem init_owned : Owned init where
  owner f := by simp [init, IsCapture]
  queued r hr := by simp [init] at hr

/-- The reads in the queue are not touched by a change of another file object's life. -/
theorem Owned.queued_update {s : Control} (h : Owned s) {f : FileObject}
    (hf : s.handle f ≠ .opened true) (x : Handle) :
    ∀ r ∈ s.device.lePendIrp, Function.update s.handle f x r.fileObject = .opened true := by
  intro r hr
  have hq := h.queued r hr
  rw [Function.update_of_ne]
  · exact hq
  · intro heq
    exact hf (heq ▸ hq)

/-- A file object is opened, with the right to capture if no other one has it. -/
theorem Owned.opened {s : Control} (h : Owned s) {f : FileObject} (hclosed : s.handle f = .closed) :
    Owned ⟨s.device, Function.update s.handle f (.opened false)⟩ ∧
      (s.device.pCaptureObject = none →
        Owned ⟨{ s.device with pCaptureObject := some f },
          Function.update s.handle f (.opened true)⟩) := by
  have hno : ¬ s.IsCapture f := by simp [IsCapture, hclosed]
  have hqueued := h.queued_update (f := f) (by simp [hclosed])
  refine ⟨⟨fun g => ?_, hqueued _⟩, fun hnone => ⟨fun g => ?_, hqueued _⟩⟩
  · rw [isCapture_update]
    split
    · rename_i hg
      subst hg
      exact iff_of_false (h.not_owner hno) (by simp)
    · exact h.owner g
  · rw [isCapture_update]
    split
    · rename_i hg
      subst hg
      exact iff_of_true rfl (by simp)
    · rename_i hg
      refine iff_of_false (fun heq => hg (Option.some.inj heq).symm) fun hcap => ?_
      exact absurd ((h.owner g).mpr hcap) (by simp [hnone])

/-- A cleanup leaves the owner until the close. -/
theorem Owned.cleanup {s : Control} (h : Owned s) {f : FileObject} {capture : Bool}
    (hopen : s.handle f = .opened capture) :
    Owned ⟨(cleanupControl s.device f).2, Function.update s.handle f (.cleanedUp capture)⟩ := by
  have howner : ∀ d g, s.device.pCaptureObject = some g ↔
      IsCapture ⟨d, Function.update s.handle f (.cleanedUp capture)⟩ g := by
    intro d g
    rw [isCapture_update, h.owner g]
    split
    · rename_i hg
      subst hg
      simp [IsCapture, hopen]
    · rfl
  by_cases hf : s.device.pCaptureObject = some f
  · simp only [cleanupControl, if_pos hf]
    refine ⟨howner _, fun r hr => ?_⟩
    obtain ⟨hmem, hne⟩ := csqCleanUpQueue_rest _ _ r hr
    exact (Function.update_of_ne hne _ _).trans (h.queued r hmem)
  · rw [cleanupControl_other hf]
    have hno : s.handle f ≠ .opened true := fun heq => hf ((h.owner f).mpr (Or.inl heq))
    exact ⟨howner _, h.queued_update hno _⟩

/-- The close gives the device up. -/
theorem Owned.close {s : Control} (h : Owned s) {f : FileObject} {capture : Bool}
    (hclean : s.handle f = .cleanedUp capture) :
    Owned ⟨closeControl s.device f, Function.update s.handle f .closed⟩ := by
  have hqueued := h.queued_update (f := f) (by simp [hclean]) .closed
  by_cases hf : s.device.pCaptureObject = some f
  · rw [closeControl, if_pos hf]
    refine ⟨fun g => ?_, hqueued⟩
    rw [isCapture_update]
    split
    · exact iff_of_false nofun (by simp)
    · rename_i hg
      refine iff_of_false nofun fun hcap => hg ?_
      exact Option.some.inj (((h.owner g).mpr hcap).symm.trans hf)
  · rw [closeControl_other hf]
    refine ⟨fun g => ?_, hqueued⟩
    rw [isCapture_update]
    split
    · rename_i hg
      subst hg
      exact iff_of_false hf (by simp)
    · exact h.owner g

/-- A read is queued for its own file object. -/
theorem Owned.read {s : Control} (h : Owned s) {f : FileObject} {irp : Irp} {length : UInt32}
    {mapped capture : Bool} (hopen : s.handle f = .opened capture) :
    Owned { s with device := (readControl s.device ⟨irp, f, length⟩ mapped).2 } := by
  by_cases hf : some f = s.device.pCaptureObject
  · simp only [readControl, if_pos hf]
    refine ⟨h.owner, fun r hr => ?_⟩
    -- what waits now waited before, or is the read itself, which comes from the capture handle
    rcases bufferHandleReadIrp_queue s.device.rootData s.device.lePendIrp ⟨irp, f, length⟩ mapped
      with heq | heq
    · rw [heq] at hr
      exact h.queued r hr
    · rw [heq] at hr
      rcases List.mem_append.mp hr with hr | hr
      · exact h.queued r hr
      · obtain rfl := List.mem_singleton.mp hr
        rcases (h.owner f).mp hf.symm with hcap | hcap
        · exact hcap
        · rw [hopen] at hcap
          cases hcap
  · rw [readControl_other (r := ⟨irp, f, length⟩) (Ne.symm hf)]
    exact h

/-- Every step keeps the invariant. -/
theorem Owned.step {s t : Control} (h : Owned s) {e : Event} (hst : s.step e = some t) :
    Owned t := by
  cases e with
  | request f r =>
    cases request_cases hst with
    | query hclosed => exact (h.opened hclosed).1
    | capture hclosed hnone => exact (h.opened hclosed).2 hnone
    | denied => exact h
    | cleanup hopen => exact h.cleanup hopen
    | close hclean => exact h.close hclean
    | deviceControl => exact ⟨h.owner, h.queued⟩
    | read hopen => exact h.read hopen
  | deviceStart deviceAddress =>
    obtain rfl := Option.some.inj hst
    exact ⟨h.owner, h.queued⟩
  | store k =>
    obtain rfl := Option.some.inj hst
    exact ⟨h.owner, fun r hr => h.queued r (storeControl_queue s.device k r hr)⟩

/-! ## Requests of other file objects -/

/-- What the capture handle uses is the same in both states. -/
def SameCapture (s t : Control) : Prop :=
  t.device.rootData = s.device.rootData ∧ t.device.filter = s.device.filter ∧
    t.device.lePendIrp = s.device.lePendIrp ∧ ∀ g, s.IsCapture g → t.IsCapture g

/-- The requests of every other file object leave the capture alone. -/
theorem Owned.request_other {s t : Control} (h : Owned s) {f : FileObject} (hf : ¬ s.IsCapture f)
    {r : Request} (hst : s.request f r = some t) : SameCapture s t := by
  have hobj := h.not_owner hf
  have hkeep : ∀ d x g, s.IsCapture g → IsCapture ⟨d, Function.update s.handle f x⟩ g := by
    intro d x g hg
    rw [isCapture_update, if_neg]
    · exact hg
    · rintro rfl
      exact hf hg
  cases request_cases hst with
  | query => exact ⟨rfl, rfl, rfl, hkeep _ _⟩
  | capture => exact ⟨rfl, rfl, rfl, hkeep _ _⟩
  | denied => exact ⟨rfl, rfl, rfl, fun _ hg => hg⟩
  | cleanup =>
    rw [cleanupControl_other hobj]
    exact ⟨rfl, rfl, rfl, hkeep _ _⟩
  | close =>
    rw [closeControl_other hobj]
    exact ⟨rfl, rfl, rfl, hkeep _ _⟩
  | deviceControl =>
    rw [dkDevCtl_other hobj]
    exact ⟨rfl, rfl, rfl, fun _ hg => hg⟩
  | @read irp length _ _ _ =>
    rw [readControl_other (r := ⟨irp, f, length⟩) hobj]
    exact ⟨rfl, rfl, rfl, fun _ hg => hg⟩

/-! ## After the cleanup of the capture handle -/

/-- Nothing is captured: the filter is empty, there is no buffer, and no file object can send
requests with the right to capture. -/
structure Quiet (s : Control) : Prop where
  filter : s.device.filter = .zero
  buffer : s.device.rootData.buffer = none
  handles : ∀ f, s.handle f ≠ .opened true

/-- Only a create opens a file object. -/
theorem request_opened {s t : Control} {f g : FileObject} {r : Request}
    (hst : s.request f r = some t) (hg : t.handle g = .opened true) :
    s.handle g = .opened true ∨ s.handle g = .closed := by
  have hupdate (x : Handle) (hx : x ≠ .opened true ∨ s.handle f = .closed)
      (hset : Function.update s.handle f x g = .opened true) :
      s.handle g = .opened true ∨ s.handle g = .closed := by
    by_cases hgf : g = f
    · subst hgf
      rw [Function.update_self] at hset
      exact hx.imp (absurd hset) id
    · rw [Function.update_of_ne hgf] at hset
      exact Or.inl hset
  cases request_cases hst with
  | query hclosed => exact hupdate _ (Or.inr hclosed) hg
  | capture hclosed => exact hupdate _ (Or.inr hclosed) hg
  | denied => exact Or.inl hg
  | cleanup => exact hupdate _ (Or.inl Handle.noConfusion) hg
  | close => exact hupdate _ (Or.inl Handle.noConfusion) hg
  | deviceControl => exact Or.inl hg
  | read => exact Or.inl hg

/-- Of a file object that has been cleaned up only the close is left. -/
theorem request_cleanedUp {s t : Control} {f : FileObject} {capture : Bool}
    (hf : s.handle f = .cleanedUp capture) {r : Request} (hst : s.request f r = some t) :
    t.device.filter = s.device.filter ∧ t.device.rootData = s.device.rootData := by
  cases r with
  | close =>
    simp only [request, hf] at hst
    obtain rfl := Option.some.inj hst
    rw [closeControl]
    split <;> exact ⟨rfl, rfl⟩
  | _ => simp [request, hf] at hst

/-- Without a buffer a packet is dropped. -/
theorem storeControl_no_buffer {d : ControlDevice} (hnone : d.rootData.buffer = none) (k : Packet) :
    (storeControl d k).2 = d := by
  rcases bufferStorePacket_no_buffer hnone k.timestamp k.header k.payload with heq | heq
  all_goals
    rw [storeControl, bufferWriteTimestampedPayload_rejected (by rw [heq]; exact nofun), heq]

/-- Nothing is captured until a file object is opened with the right to capture. -/
theorem Quiet.step {s t : Control} (hq : Quiet s) (h : Owned s) {e : Event}
    (he : s.NoNewCapture e) (hst : s.step e = some t) : Quiet t := by
  cases e with
  | request f r =>
    have hsame : t.device.filter = s.device.filter ∧ t.device.rootData = s.device.rootData := by
      by_cases hf : s.IsCapture f
      · exact request_cleanedUp (hf.resolve_left (hq.handles f)) hst
      · obtain ⟨hroot, hfilter, -⟩ := h.request_other hf hst
        exact ⟨hfilter, hroot⟩
    refine ⟨hsame.1.trans hq.filter, (congrArg _ hsame.2).trans hq.buffer, fun g hg => ?_⟩
    rcases request_opened hst hg with hopen | hclosed
    · exact hq.handles g hopen
    · have hcap := he t hst g (Or.inl hg)
      simp [IsCapture, hclosed] at hcap
  | deviceStart deviceAddress =>
    obtain rfl := Option.some.inj hst
    refine ⟨?_, hq.buffer, hq.handles⟩
    simp only [hq.filter, filterStartedDevice_zero]
  | store k =>
    obtain rfl := Option.some.inj hst
    rw [storeControl_no_buffer hq.buffer]
    exact hq

/-- The cleanup of the capture handle ends the capture. -/
theorem Owned.quiet_of_cleanup {s t : Control} (h : Owned s) {f : FileObject} (hf : s.IsCapture f)
    (hst : s.request f .cleanup = some t) : Quiet t := by
  have hobj := (h.owner f).mpr hf
  have htowned := h.step (e := .request f .cleanup) hst
  cases request_cases hst with
  | cleanup =>
    simp only [cleanupControl, if_pos hobj] at htowned ⊢
    refine ⟨rfl, ?_, fun g hg => ?_⟩
    · simp only [bufferRemoveBuffer]
      split
      · assumption
      · rfl
    · -- the only capture handle is `f`, and it has been cleaned up
      obtain rfl := Option.some.inj (hobj.symm.trans ((htowned.owner g).mpr (Or.inl hg)))
      simp only [Function.update_self] at hg
      cases hg

/-! ## Whole runs -/

/-- Every run keeps the invariant. -/
theorem owned_of_run {events : List Event} {s : Control}
    (h : Transition.run step init events = some s) : Owned s :=
  Transition.run_induction (P := fun _ s => Owned s) init_owned
    (fun _ _ _ _ _ hs hst => hs.step hst) h

/-- A store adds to the buffer, if there is one, and takes bytes out of it only for a read that
waits. -/
theorem step_store {s t : Control} {k : Packet} (hst : s.step (.store k) = some t) :
    t.handle = s.handle ∧ t.device.pCaptureObject = s.device.pCaptureObject ∧
      t.device.filter = s.device.filter ∧
      (s.device.rootData.buffer = none → t = s) ∧
      (s.device.lePendIrp = [] → t.device.rootData =
        (bufferStorePacket s.device.rootData k.timestamp k.header k.payload).2) := by
  obtain rfl := Option.some.inj hst
  refine ⟨rfl, rfl, rfl, fun hnone => ?_, fun hempty => ?_⟩
  · rw [storeControl_no_buffer hnone]
  · simp only [storeControl, bufferWriteTimestampedPayload, hempty]
    split <;> rfl

/-- **Captures on a control device are exclusive and leave nothing behind.** In every run of
requests, device starts and stores: at most one file object has the right to capture; the requests
of every other file object, whatever they are, change neither the buffer nor the filter nor the
queue; a device start changes only the filter, by the bit of the started device and only while new
devices are captured; a store takes bytes out of the buffer only for reads that wait, and these are
the capture handle's; and after the cleanup of the capture handle, until the next one is opened, the
filter is empty, there is no buffer and no read waits. -/
theorem capture_handle_exclusive {events : List Event} {s : Control}
    (h : Transition.run step init events = some s) :
    (∀ f g, s.IsCapture f → s.IsCapture g → f = g) ∧
    (∀ f r t, ¬ s.IsCapture f → s.step (.request f r) = some t → SameCapture s t) ∧
    (∀ deviceAddress t, s.step (.deviceStart deviceAddress) = some t →
      t = { s with device := { s.device with filter := t.device.filter } } ∧
      (t.device.filter = s.device.filter ∨
        ((s.device.filter.filterAll = 1 ∨ s.device.filter.Bit 0) ∧
          t.device.filter.filterAll = s.device.filter.filterAll ∧
          ∀ b, t.device.filter.Bit b ↔ b = deviceAddress.toNat ∨ s.device.filter.Bit b))) ∧
    (∀ k t, s.step (.store k) = some t →
      t.handle = s.handle ∧ t.device.pCaptureObject = s.device.pCaptureObject ∧
      t.device.filter = s.device.filter ∧ (s.device.rootData.buffer = none → t = s) ∧
      (s.device.lePendIrp = [] → t.device.rootData =
        (bufferStorePacket s.device.rootData k.timestamp k.header k.payload).2)) ∧
    (∀ r ∈ s.device.lePendIrp, s.IsCapture r.fileObject) ∧
    ∀ pre post f u v, events = pre ++ .request f .cleanup :: post →
      Transition.run step init pre = some u → u.IsCapture f →
      u.step (.request f .cleanup) = some v → Transition.Along step NoNewCapture v post →
      s.device.filter = .zero ∧ s.device.rootData.buffer = none ∧ s.device.lePendIrp = [] := by
  have howned := owned_of_run h
  refine ⟨?_, fun f r t hf hst => howned.request_other hf hst, ?_, fun k t hst => step_store hst,
    fun r hr => Or.inl (howned.queued r hr), ?_⟩
  · intro f g hf hg
    exact Option.some.inj (((howned.owner f).mpr hf).symm.trans ((howned.owner g).mpr hg))
  · intro deviceAddress t hst
    obtain rfl := Option.some.inj hst
    exact ⟨rfl, filterStartedDevice_cases s.device.filter deviceAddress⟩
  · intro pre post f u v hevents hu hf hst hnew
    -- the run after the cleanup keeps both invariants
    rw [hevents, Transition.run_append, hu, Option.bind_some, Transition.run_cons, hst,
      Option.bind_some] at h
    have hu' := owned_of_run hu
    have hboth : Owned s ∧ Quiet s := by
      refine hnew.run_induction (P := fun s => Owned s ∧ Quiet s)
        ⟨hu'.step hst, hu'.quiet_of_cleanup hf hst⟩ ?_ h
      rintro x e y - ⟨hx, hq⟩ he hxy
      exact ⟨hx.step hxy, hq.step hx he hxy⟩
    refine ⟨hboth.2.filter, hboth.2.buffer, List.eq_nil_iff_forall_not_mem.mpr fun r hr => ?_⟩
    exact hboth.2.handles _ (hboth.1.queued r hr)

/-- Only a create opens a capture handle. -/
theorem noNewCapture_of_ne_create {s : Control} {e : Event}
    (h : ∀ f desiredAccess, e ≠ .request f (.create desiredAccess)) : s.NoNewCapture e := by
  intro t ht g hg
  cases e with
  | deviceStart deviceAddress =>
    obtain rfl := Option.some.inj ht
    exact hg
  | store k =>
    obtain rfl := Option.some.inj ht
    exact hg
  | request f r =>
    cases request_cases (s := s) ht with
    | query => exact absurd rfl (h _ _)
    | capture => exact absurd rfl (h _ _)
    | denied => exact absurd rfl (h _ _)
    | deviceControl => exact hg
    | read => exact hg
    | @cleanup capture hopen =>
      rw [isCapture_update] at hg
      split at hg
      · -- the handle that was cleaned up had been opened with that right
        rename_i hgf
        subst hgf
        rcases hg with hg | hg
        · cases hg
        · exact Or.inl (hopen.trans (congrArg Handle.opened (Handle.cleanedUp.inj hg)))
      · exact hg
    | close =>
      rw [isCapture_update] at hg
      split at hg
      · rcases hg with hg | hg <;> cases hg
      · exact hg

/-- An `IOCTL_USBPCAP_SETUP_BUFFER` for 4096 bytes, when the allocation succeeds. -/
def setUpRequest : ControlRequest where
  ioControlCode := ioctlSetupBuffer
  systemBuffer := [0, 16, 0, 0]
  outputBufferLength := 0
  interfaces := none
  pool bytes := some ⟨List.replicate bytes.toNat 0, List.length_replicate⟩

/-- An `IOCTL_USBPCAP_START_FILTERING` for device 2 and for new devices, whose bit is the lowest. -/
def startFilteringRequest : ControlRequest where
  ioControlCode := ioctlStartFiltering
  systemBuffer := 5 :: List.replicate 16 0
  outputBufferLength := 0
  interfaces := none
  pool _ := none

/-- One file object captures and another one only queries. A device starts, a read takes the global
header, and the next read waits. -/
def capturing : List Event :=
  [.request 1 (.create captureAccess), .request 2 (.create 0x80),
    .request 1 (.deviceControl setUpRequest), .request 1 (.deviceControl startFilteringRequest),
    .deviceStart 3, .request 1 (.read 10 4096 true), .request 1 (.read 11 64 true)]

/-- Another device starts and stores a packet before the handle is closed. -/
def afterCleanup : List Event := [.deviceStart 4, .store Session.longPacket, .request 1 .close]

/-- Devices 2 and 3 and new ones are captured, the read of the global header has left the buffer
empty, and one read waits. The cleanup leaves none of it behind. -/
theorem capture_handle_exclusive_ended :
    ∃ busy ended, Transition.run step init capturing = some busy ∧
      Transition.run step init (capturing ++ .request 1 .cleanup :: afterCleanup) = some ended ∧
      (busy.device.rootData.buffer.isSome = true ∧ busy.device.filter.addresses 0 = 13 ∧
        busy.device.lePendIrp = [⟨11, 1, 64⟩]) ∧
      ended.device.filter = .zero ∧ ended.device.rootData.buffer = none ∧
        ended.device.lePendIrp = [] := by
  have hview : (Transition.run step init capturing).map (fun s => (s.device.rootData.buffer.isSome,
      s.device.filter.addresses 0, s.device.lePendIrp)) = some (true, 13, [⟨11, 1, 64⟩]) := by
    decide +kernel
  have hruns : (Transition.run step init
      (capturing ++ .request 1 .cleanup :: afterCleanup)).isSome = true := by decide +kernel
  have howner : (Transition.run step init capturing).map (fun s => s.handle 1) =
      some (.opened true) := by decide +kernel
  obtain ⟨busy, hbusy, hview⟩ := Option.map_eq_some_iff.mp hview
  obtain ⟨ended, hended⟩ := Option.isSome_iff_exists.mp hruns
  rw [hbusy, Option.map_some, Option.some.injEq] at howner
  obtain ⟨hbuffer, hview⟩ := Prod.mk.inj hview
  refine ⟨busy, ended, hbusy, hended, ⟨hbuffer, Prod.mk.inj hview⟩, ?_⟩
  have hcleanup : busy.step (.request 1 .cleanup) = some
      ⟨(cleanupControl busy.device 1).2, Function.update busy.handle 1 (.cleanedUp true)⟩ := by
    simp only [step, request, howner]
  refine (capture_handle_exclusive hended).2.2.2.2.2 capturing afterCleanup 1 busy _ rfl hbusy
    (Or.inl howner) hcleanup ?_
  intro pre e post s hsplit _
  refine noNewCapture_of_ne_create fun f desiredAccess he => ?_
  have hmem : e ∈ afterCleanup := by
    rw [hsplit]
    exact List.mem_append_right pre List.mem_cons_self
  simp [afterCleanup, he] at hmem

end Control

end UsbPcap.Driver
