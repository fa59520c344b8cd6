import UsbPcap.Driver.Attach
import UsbPcap.Driver.Children
import UsbPcap.Lib.RemoveLock

/-!
# The dispatch routines

Each dispatch routine holds the remove lock of its device from its first line on and passes its
request down, completes it or queues it. A URB keeps the lock until it comes back, a child until its
filter device is deleted, and the control device until the root hub's removal deletes it.
`DkPower` keeps the lock of a device that has no next one; only control devices have none, and
without power requests `dispatch_ends` holds of them too.
-/

namespace UsbPcap.Driver.Dispatch

open RemoveLock

/-! ## Definitions -/

/-- `STATUS_PENDING` -/
def statusPending : StatusCode := 0x103

/-- `STATUS_DELETE_PENDING` -/
def statusDeletePending : StatusCode := .ofInt (0xC0000056 - 2 ^ 32)

/-- `STATUS_INVALID_DEVICE_REQUEST` -/
def statusInvalidDeviceRequest : StatusCode := .ofInt (0xC0000010 - 2 ^ 32)

/-- `STATUS_NOT_SUPPORTED` -/
def statusNotSupported : StatusCode := .ofInt (0xC00000BB - 2 ^ 32)

/-- The values of `deviceMagic`. -/
inductive DeviceMagic
  | rootHub
  | device
  | control
deriving DecidableEq

/-- What the dispatch routines look at: whether there is a next device, whether the device is a hub
and whether its control device was created. -/
structure Dispatched where
  deviceMagic : DeviceMagic
  pNextDevObj : Bool
  isHub : Bool
  controlDevice : Bool

/-- What a routine does with its device. -/
inductive Use
  | analyzeURB (post : Bool)
  | createClose
  | handleReadIrp
  | controlIoctl
  | deviceUsbInfo
  | childrenInformation
  | createAndAttachTgt (child : Pdo)
  | previousChildren
  | controlDevice
  | parentRemoveLock
  | symbolicLink
  | detachDevice
  | freeDeviceData

/-- The minor functions of plug and play. A query for relations comes with what the bus driver will
answer and with the children of the query before. -/
inductive PnpMinor
  | startDevice
  | removeDevice
  | queryDeviceRelations (busRelations : Bool) (relations : Option (List (Pdo × AttachResult)))
    (previousChildren : Option (List Pdo))
  | other

/-- The major functions. An internal device control may submit a URB, which may be missing. -/
inductive MajorFunction
  | create
  | cleanup
  | close
  | read
  | write
  | deviceControl
  | internalDeviceControl (submitUrb urb : Bool)
  | pnp (minor : PnpMinor)
  | power
  | other

/-- A routine; its continuation gets the status that it returns. -/
abbrev Routine := (StatusCode → Code StatusCode Use) → Code StatusCode Use

/-- `IoAcquireRemoveLock` at the start of a routine: a request that comes too late is completed. -/
def lockOrComplete (body : Code StatusCode Use) : Routine := fun ret =>
  .acquire body (.complete statusDeletePending (ret statusDeletePending))

/-- The request goes to the next device, if there is one. -/
def skipOrComplete (ext : Dispatched) : Routine := fun ret =>
  if ext.pNextDevObj = false then
    .complete statusInvalidDeviceRequest (ret statusInvalidDeviceRequest)
  else .call ret

/-- `IoSkipCurrentIrpStackLocation` and `IoCallDriver`. -/
def skip : Routine := fun ret => .call ret

/-- `DkForwardAndWait` with `DkGenCompletion`. -/
def dkForwardAndWait : Routine := fun ret => .callAndWait ret

/-- `DkDefault` -/
def dkDefault (ext : Dispatched) : Routine := fun ret =>
  lockOrComplete (skipOrComplete ext fun status => .release (ret status)) ret

/-- `USBPcapDeleteRootHubControlDevice`, for the lock of the root hub. -/
def deleteRootHubControlDevice (next : Code StatusCode Use) : Code StatusCode Use :=
  .use .controlDevice fun _ => .release next

/-- `USBPcapDeleteRootHubControlDevice`, for the lock of the control device. -/
def deleteControlDevice : Code StatusCode Use :=
  .acquire (.releaseAndWait
    (.tearDown .parentRemoveLock (.tearDown .symbolicLink (.delete .ret))))
    (.releaseAndWait (.tearDown .parentRemoveLock (.tearDown .symbolicLink (.delete .ret))))

/-- `DkDetachAndDeleteHubFilt` -/
def dkDetachAndDeleteHubFilt (next : Code StatusCode Use) : Code StatusCode Use :=
  .tearDown .detachDevice (.delete (.tearDown .freeDeviceData next))

/-- `DkDetachAndDeleteTgt` -/
def dkDetachAndDeleteTgt (next : Code StatusCode Use) : Code StatusCode Use :=
  .tearDown .parentRemoveLock (.tearDown .detachDevice (.delete (.tearDown .freeDeviceData next)))

/-- The loop over the relations. A child that gets a filter device holds the lock until this is
deleted. -/
def attachNew (previousChildren : Option (List Pdo)) :
    List (Pdo × AttachResult) → Code StatusCode Use → Code StatusCode Use
  | [], next => next
  | (child, r) :: rest, next =>
    if HubChildren.isPrevious previousChildren child then attachNew previousChildren rest next
    else
      .use (.createAndAttachTgt child) fun _ =>
        if createAndAttachTgt r then
          .attach (.release .ret) (attachNew previousChildren rest next)
        else attachNew previousChildren rest next

/-- What follows a successful query for the relations of the bus. -/
def updateChildren (relations : Option (List (Pdo × AttachResult)))
    (previousChildren : Option (List Pdo)) (next : Code StatusCode Use) : Code StatusCode Use :=
  match relations with
  | none => next
  | some relations =>
    .use .childrenInformation fun _ =>
      attachNew previousChildren relations (.use .previousChildren fun _ => next)

/-- `DkHubFltPnpHandleQryDevRels` -/
def dkHubFltPnpHandleQryDevRels (ext : Dispatched) (busRelations : Bool)
    (relations : Option (List (Pdo × AttachResult))) (previousChildren : Option (List Pdo)) :
    Routine := fun ret =>
  lockOrComplete
    (if busRelations then
      dkForwardAndWait fun status =>
        let finish := Code.complete status (.release (ret status))
        if ntSuccess status then updateChildren relations previousChildren finish else finish
    else skipOrComplete ext fun status => .release (ret status)) ret

/-- `DkHubFltPnP` -/
def dkHubFltPnP (ext : Dispatched) (minor : PnpMinor) : Routine := fun ret =>
  lockOrComplete
    (match minor with
    | .startDevice => dkForwardAndWait fun status => .complete status (.release (ret status))
    | .removeDevice =>
      skip fun status =>
        let finish := Code.releaseAndWait (dkDetachAndDeleteHubFilt (ret status))
        if ext.controlDevice then deleteRootHubControlDevice finish else finish
    | .queryDeviceRelations busRelations relations previousChildren =>
      dkHubFltPnpHandleQryDevRels ext busRelations relations previousChildren fun status =>
        .release (ret status)
    | .other => skipOrComplete ext fun status => .release (ret status)) ret

/-- `DkTgtPnP` -/
def dkTgtPnP (ext : Dispatched) (minor : PnpMinor) : Routine := fun ret =>
  lockOrComplete
    (match minor with
    | .startDevice =>
      dkForwardAndWait fun status =>
        .complete status (.use .deviceUsbInfo fun _ => .release (ret status))
    | .queryDeviceRelations busRelations relations previousChildren =>
      if ext.isHub then
        dkHubFltPnpHandleQryDevRels ext busRelations relations previousChildren fun status =>
          .release (ret status)
      else skipOrComplete ext fun status => .release (ret status)
    | .removeDevice =>
      skip fun status => .releaseAndWait (dkDetachAndDeleteTgt (ret status))
    | .other => skipOrComplete ext fun status => .release (ret status)) ret

/-- `DkPnP` -/
def dkPnP (ext : Dispatched) (minor : PnpMinor) : Routine := fun ret =>
  match ext.deviceMagic with
  | .rootHub => dkHubFltPnP ext minor ret
  | .device => dkTgtPnP ext minor ret
  | .control => dkDefault ext ret

/-- `DkPower`: a request that is completed keeps the lock. -/
def dkPower (ext : Dispatched) : Routine := fun ret =>
  lockOrComplete
    (if ext.pNextDevObj = false then
      .complete statusInvalidDeviceRequest (ret statusInvalidDeviceRequest)
    else skip fun status => .release (ret status)) ret

/-- The request of a file object goes to the next device, unless it is for the control device. -/
def skipOrAnswer (ext : Dispatched) (body : Code StatusCode Use) : Routine := fun ret =>
  match ext.deviceMagic with
  | .rootHub => skip fun status => .release (ret status)
  | .device => skip fun status => .release (ret status)
  | .control => body

/-- `DkCreateClose` -/
def dkCreateClose (ext : Dispatched) : Routine := fun ret =>
  lockOrComplete
    (skipOrAnswer ext
      (.use .createClose fun status => .complete status (.release (ret status))) ret) ret

/-- `DkReadWrite` -/
def dkReadWrite (ext : Dispatched) (read : Bool) : Routine := fun ret =>
  lockOrComplete
    (skipOrAnswer ext
      (if read then
        .use .handleReadIrp fun status =>
          if status ≠ statusPending then .complete status (.release (ret status))
          else .pend (.release (ret status))
      else .complete statusNotSupported (.release (ret statusNotSupported))) ret) ret

/-- `DkDevCtl` -/
def dkDevCtl (ext : Dispatched) : Routine := fun ret =>
  lockOrComplete
    (skipOrAnswer ext
      (.use .controlIoctl fun status => .complete status (.release (ret status))) ret) ret

/-- `USBPcapAnalyzeURB`, where there is a URB. -/
def analyzeIf (urb post : Bool) (next : Code StatusCode Use) : Code StatusCode Use :=
  if urb then .use (.analyzeURB post) fun _ => next else next

/-- `DkTgtInDevCtlCompletion` -/
def dkTgtInDevCtlCompletion (urb : Bool) (status : StatusCode) : Code StatusCode Use :=
  analyzeIf urb true (.release (.complete status .ret))

/-- `DkTgtInDevCtl` -/
def dkTgtInDevCtl (submitUrb urb : Bool) : Routine := fun ret =>
  lockOrComplete
    (if submitUrb then analyzeIf urb false (.callWith (dkTgtInDevCtlCompletion urb) ret)
    else skip fun status => .release (ret status)) ret

/-- `DkInDevCtl` -/
def dkInDevCtl (ext : Dispatched) (submitUrb urb : Bool) : Routine := fun ret =>
  lockOrComplete
    (match ext.deviceMagic with
    | .rootHub => skipOrComplete ext fun status => .release (ret status)
    | .device => dkTgtInDevCtl submitUrb urb fun status => .release (ret status)
    | .control => skipOrComplete ext fun status => .release (ret status)) ret

/-- The table of `DriverEntry`. -/
def majorFunction (ext : Dispatched) : MajorFunction → Routine
  | .create => dkCreateClose ext
  | .cleanup => dkCreateClose ext
  | .close => dkCreateClose ext
  | .read => dkReadWrite ext true
  | .write => dkReadWrite ext false
  | .deviceControl => dkDevCtl ext
  | .internalDeviceControl submitUrb urb => dkInDevCtl ext submitUrb urb
  | .pnp minor => dkPnP ext minor
  | .power => dkPower ext
  | .other => dkDefault ext

/-- How often the lock of a device is held for its removal: a control device holds that of its root
hub. -/
def reserve (ext : Dispatched) : ℕ :=
  if ext.deviceMagic = .rootHub ∧ ext.controlDevice = true then 1 else 0

/-- What happens to a device: a request arrives, the control device is to be deleted, a routine
makes a step, or a queued read is completed. -/
inductive Event
  | request (irp : ℕ) (major : MajorFunction)
  | removeControl
  | run (i : ℕ) (answer : StatusCode)
  | serve (j : ℕ)

/-- The major function is plug and play, which control devices do not take part in. -/
def isPnp (ext : Dispatched) : MajorFunction → Bool
  | .pnp _ => ext.deviceMagic ≠ .control
  | _ => false

/-- The request removes the device. -/
def isRemoval (ext : Dispatched) : MajorFunction → Bool
  | .pnp .removeDevice => ext.deviceMagic ≠ .control
  | _ => false

/-- The event, as the remove lock sees it. -/
def Event.act (ext : Dispatched) : Event → Act StatusCode Use
  | .request irp major =>
    .arrive
      { irp := irp
        pnp := isPnp ext major
        removal := isRemoval ext major
        owned := true
        code := majorFunction ext major fun _ => .ret }
  | .removeControl =>
    .arrive { irp := 0, pnp := true, removal := true, owned := false, code := deleteControlDevice }
  | .run i answer => .run i answer
  | .serve j => .serve j

/-- The request is one for power. -/
def isPower : MajorFunction → Bool
  | .power => true
  | _ => false

/-- Only control devices are deleted as such, and a device without a next one gets no request for
power. -/
def Event.Possible (ext : Dispatched) : Event → Prop
  | .request _ major => isPower major = true → ext.pNextDevObj = true
  | .removeControl => ext.deviceMagic = .control
  | .run _ _ => True
  | .serve _ => True

instance (ext : Dispatched) (e : Event) : Decidable (e.Possible ext) :=
  match e with
  | .request _ major => inferInstanceAs (Decidable (isPower major = true → ext.pNextDevObj = true))
  | .removeControl => inferInstanceAs (Decidable (ext.deviceMagic = .control))
  | .run _ _ => isTrue trivial
  | .serve _ => isTrue trivial

/-! ## Every routine keeps to the protocol -/

section Obeys

variable {ext : Dispatched} {hasNext : Bool} {hold : Hold} {n : ℕ} {role : Role}
  {ret : StatusCode → Code StatusCode Use}

/-- A routine that takes the lock first may work under it, and returns without it where it is
refused. -/
theorem obeys_lockOrComplete {body : Code StatusCode Use}
    (hbody : Obeys hasNext body (.units (n + 1)) true role)
    (hret : role ≠ .removing → ∀ status, Obeys hasNext (ret status) (.units n) false role) :
    Obeys hasNext (lockOrComplete body ret) (.units n) true role :=
  .acquire hbody fun hrole => .complete (hret hrole _)

/-- A request that is only passed on needs no further lock. -/
theorem obeys_skipOrComplete
    (hret : ∀ status, Obeys ext.pNextDevObj (ret status) hold false role) :
    Obeys ext.pNextDevObj (skipOrComplete ext ret) hold true role := by
  unfold skipOrComplete
  split
  · exact .complete (hret _)
  · rename_i hnext
    exact .call (Bool.not_eq_false _ ▸ hnext) hret

/-- The routine returns with the lock as it was, its request gone. -/
def Returns (hasNext : Bool) (n : ℕ) (role : Role) (ret : StatusCode → Code StatusCode Use) :
    Prop :=
  ∀ status, Obeys hasNext (ret status) (.units n) false role

/-- The default routine takes the lock and gives it back. -/
theorem obeys_dkDefault (hret : Returns ext.pNextDevObj n role ret) :
    Obeys ext.pNextDevObj (dkDefault ext ret) (.units n) true role :=
  obeys_lockOrComplete (obeys_skipOrComplete fun status => .release (hret status)) fun _ => hret

/-- Attaching to the new children keeps the lock. -/
theorem obeys_attachNew {previousChildren : Option (List Pdo)}
    (relations : List (Pdo × AttachResult)) {next : Code StatusCode Use} {owned : Bool}
    (hnext : Obeys hasNext next (.units (n + 1)) owned .attaching) :
    Obeys hasNext (attachNew previousChildren relations next) (.units (n + 1)) owned
      .attaching := by
  induction relations with
  | nil => exact hnext
  | cons x rest ih =>
    obtain ⟨child, r⟩ := x
    unfold attachNew
    split
    · exact ih
    · refine .use fun _ => ?_
      split
      · exact .attach (.release (.ret (Or.inl rfl) nofun)) ih
      · exact ih

/-- So does keeping the list of children. -/
theorem obeys_updateChildren (relations : Option (List (Pdo × AttachResult)))
    {previousChildren : Option (List Pdo)} {next : Code StatusCode Use} {owned : Bool}
    (hnext : Obeys hasNext next (.units (n + 1)) owned .attaching) :
    Obeys hasNext (updateChildren relations previousChildren next) (.units (n + 1)) owned
      .attaching := by
  cases relations with
  | none => exact hnext
  | some relations =>
    exact .use fun _ => obeys_attachNew relations (.use fun _ => hnext)

/-- The query for device relations is held under the lock. -/
theorem obeys_dkHubFltPnpHandleQryDevRels (hdevice : ext.pNextDevObj = true) (busRelations : Bool)
    (relations : Option (List (Pdo × AttachResult))) (previousChildren : Option (List Pdo))
    (hret : Returns ext.pNextDevObj n .attaching ret) :
    Obeys ext.pNextDevObj
      (dkHubFltPnpHandleQryDevRels ext busRelations relations previousChildren ret) (.units n) true
      .attaching := by
  refine obeys_lockOrComplete ?_ fun _ => hret
  split
  · refine .callAndWait hdevice fun status => ?_
    have hfinish : Obeys ext.pNextDevObj (.complete status (.release (ret status)))
        (.units (n + 1)) true .attaching := .complete (.release (hret status))
    dsimp only
    split
    · exact obeys_updateChildren relations hfinish
    · exact hfinish
  · exact obeys_skipOrComplete fun status => .release (hret status)

/-- At the end of a routine the lock is given back. -/
theorem obeys_release (hret : Returns hasNext n role ret) (status : StatusCode) :
    Obeys hasNext (.release (ret status)) (.units (n + 1)) false role :=
  .release (hret status)

/-- A start waits for the lower device under the lock. -/
theorem obeys_startDevice (hdevice : hasNext = true) (hret : Returns hasNext n role ret) :
    Obeys hasNext (dkForwardAndWait fun status => .complete status (.release (ret status)))
      (.units (n + 1)) true role :=
  .callAndWait hdevice fun status => .complete (obeys_release hret status)

/-- The removal of a root hub gives up its own hold and that of the control device. -/
theorem obeys_dkHubFltPnP_removeDevice (hdevice : ext.pNextDevObj = true)
    (hmagic : ext.deviceMagic = .rootHub) :
    Obeys ext.pNextDevObj (dkHubFltPnP ext .removeDevice fun _ => .ret) (.units (reserve ext)) true
      .removing := by
  have hend : Obeys ext.pNextDevObj (.releaseAndWait (dkDetachAndDeleteHubFilt .ret)) (.units 1)
      false .removing :=
    .releaseAndWait (.tearDown (.delete (.tearDown (.ret (Or.inr rfl) nofun))))
  refine obeys_lockOrComplete (.call hdevice fun status => ?_) fun h => absurd rfl h
  dsimp only
  by_cases hcontrol : ext.controlDevice = true
  · rw [if_pos hcontrol, reserve, if_pos ⟨hmagic, hcontrol⟩]
    exact .use fun _ => .release hend
  · rw [if_neg hcontrol, reserve, if_neg fun h => hcontrol h.2]
    exact hend

/-- The removal of a device drains the lock and deletes the device. -/
theorem obeys_dkTgtPnP_removeDevice (hdevice : ext.pNextDevObj = true)
    (hmagic : ext.deviceMagic = .device) :
    Obeys ext.pNextDevObj (dkTgtPnP ext .removeDevice fun _ => .ret) (.units (reserve ext)) true
      .removing := by
  have hreserve : reserve ext = 0 := by
    rw [reserve, hmagic]
    rfl
  rw [hreserve]
  exact obeys_lockOrComplete (.call hdevice fun _ => .releaseAndWait (.tearDown (.tearDown
    (.delete (.tearDown (.ret (Or.inr rfl) nofun)))))) fun h => absurd rfl h

/-- The control device of a root hub goes first. -/
theorem obeys_deleteControlDevice :
    Obeys hasNext deleteControlDevice (.units 0) false .removing :=
  .acquire (.releaseAndWait (.tearDown (.tearDown (.delete (.ret (Or.inr rfl) nofun)))))
    fun h => absurd rfl h

/-- Every other request of the plug-and-play manager gives back what it takes. -/
theorem obeys_dkPnP (hnext : ext.deviceMagic ≠ .control → ext.pNextDevObj = true)
    {minor : PnpMinor} (hminor : isRemoval ext (.pnp minor) = false)
    (hret : Returns ext.pNextDevObj n .attaching ret) :
    Obeys ext.pNextDevObj (dkPnP ext minor ret) (.units n) true .attaching := by
  have hskip : Obeys ext.pNextDevObj (skipOrComplete ext fun status => .release (ret status))
      (.units (n + 1)) true .attaching := obeys_skipOrComplete (obeys_release hret)
  unfold dkPnP
  split
  · -- the filter device of a root hub
    rename_i hmagic
    have hdevice := hnext (by rw [hmagic]; decide)
    refine obeys_lockOrComplete ?_ fun _ => hret
    cases minor with
    | startDevice => exact obeys_startDevice hdevice hret
    | removeDevice =>
      rw [isRemoval, hmagic] at hminor
      cases hminor
    | queryDeviceRelations busRelations relations previousChildren =>
      exact obeys_dkHubFltPnpHandleQryDevRels hdevice _ _ _ (obeys_release hret)
    | other => exact hskip
  · -- that of a device behind it
    rename_i hmagic
    have hdevice := hnext (by rw [hmagic]; decide)
    refine obeys_lockOrComplete ?_ fun _ => hret
    cases minor with
    | startDevice =>
      exact .callAndWait hdevice fun status => .complete (.use fun _ => obeys_release hret status)
    | removeDevice =>
      rw [isRemoval, hmagic] at hminor
      cases hminor
    | queryDeviceRelations busRelations relations previousChildren =>
      dsimp only
      split
      · exact obeys_dkHubFltPnpHandleQryDevRels hdevice _ _ _ (obeys_release hret)
      · exact hskip
    | other => exact hskip
  · exact obeys_dkDefault hret

/-- So does a power request, where there is a lower device. -/
theorem obeys_dkPower (hdevice : ext.pNextDevObj = true)
    (hret : Returns ext.pNextDevObj n role ret) :
    Obeys ext.pNextDevObj (dkPower ext ret) (.units n) true role := by
  refine obeys_lockOrComplete ?_ fun _ => hret
  rw [if_neg (by rw [hdevice]; decide)]
  exact .call hdevice (obeys_release hret)

/-- A request is passed on, or answered on a control device. -/
theorem obeys_skipOrAnswer {body : Code StatusCode Use}
    (hnext : ext.deviceMagic ≠ .control → ext.pNextDevObj = true)
    (hret : Returns ext.pNextDevObj n role ret)
    (hbody : Obeys ext.pNextDevObj body (.units (n + 1)) true role) :
    Obeys ext.pNextDevObj (skipOrAnswer ext body ret) (.units (n + 1)) true role := by
  unfold skipOrAnswer
  split
  · rename_i hmagic
    exact .call (hnext (by rw [hmagic]; decide)) (obeys_release hret)
  · rename_i hmagic
    exact .call (hnext (by rw [hmagic]; decide)) (obeys_release hret)
  · exact hbody

/-- The answer completes the request before the lock is given back. -/
theorem obeys_answer {what : Use} (hret : Returns hasNext n role ret) :
    Obeys hasNext (.use what fun status => .complete status (.release (ret status)))
      (.units (n + 1)) true role :=
  .use fun status => .complete (obeys_release hret status)

/-- Reads and writes give back the lock. -/
theorem obeys_dkReadWrite (hnext : ext.deviceMagic ≠ .control → ext.pNextDevObj = true)
    (read : Bool) (hret : Returns ext.pNextDevObj n role ret) :
    Obeys ext.pNextDevObj (dkReadWrite ext read ret) (.units n) true role := by
  refine obeys_lockOrComplete (obeys_skipOrAnswer hnext hret ?_) fun _ => hret
  split
  · refine .use fun status => ?_
    split
    · exact .complete (obeys_release hret status)
    · exact .pend (obeys_release hret status)
  · exact .complete (obeys_release hret _)

/-- Looking at a URB changes nothing about the lock. -/
theorem obeys_analyzeIf {next : Code StatusCode Use} (urb post : Bool)
    (hnext : Obeys hasNext next (.units (n + 1)) true role) :
    Obeys hasNext (analyzeIf urb post next) (.units (n + 1)) true role := by
  unfold analyzeIf
  split
  · exact .use fun _ => hnext
  · exact hnext

/-- A URB takes one hold of the lock with it, and its completion gives it back. -/
theorem obeys_dkTgtInDevCtl (hdevice : hasNext = true) (submitUrb urb : Bool)
    (hret : Returns hasNext n role ret) :
    Obeys hasNext (dkTgtInDevCtl submitUrb urb ret) (.units n) true role := by
  refine obeys_lockOrComplete ?_ fun _ => hret
  split
  · refine obeys_analyzeIf urb false ?_
    rw [Nat.add_comm n 1]
    refine .callWith hdevice (fun status => ?_) hret
    exact obeys_analyzeIf urb true (.release (.complete (.ret (Or.inl rfl) nofun)))
  · exact .call hdevice (obeys_release hret)

/-- Internal requests give it back too, in the completion routine where there is one. -/
theorem obeys_dkInDevCtl (hnext : ext.deviceMagic ≠ .control → ext.pNextDevObj = true)
    (submitUrb urb : Bool) (hret : Returns ext.pNextDevObj n role ret) :
    Obeys ext.pNextDevObj (dkInDevCtl ext submitUrb urb ret) (.units n) true role := by
  refine obeys_lockOrComplete ?_ fun _ => hret
  split
  · exact obeys_skipOrComplete (obeys_release hret)
  · rename_i hmagic
    exact obeys_dkTgtInDevCtl (hnext (by rw [hmagic]; decide)) submitUrb urb (obeys_release hret)
  · exact obeys_skipOrComplete (obeys_release hret)

/-- Every routine but the removals. -/
theorem obeys_majorFunction (hnext : ext.deviceMagic ≠ .control → ext.pNextDevObj = true)
    {major : MajorFunction} (hpower : isPower major = true → ext.pNextDevObj = true)
    (hremoval : isRemoval ext major = false)
    (hret : ∀ role, role ≠ .removing → Returns ext.pNextDevObj n role ret) :
    Obeys ext.pNextDevObj (majorFunction ext major ret) (.units n) true
      (if isPnp ext major then .attaching else .plain) := by
  have hplain := hret .plain nofun
  cases major with
  | create =>
    exact obeys_lockOrComplete (obeys_skipOrAnswer hnext hplain (obeys_answer hplain))
      fun _ => hplain
  | cleanup =>
    exact obeys_lockOrComplete (obeys_skipOrAnswer hnext hplain (obeys_answer hplain))
      fun _ => hplain
  | close =>
    exact obeys_lockOrComplete (obeys_skipOrAnswer hnext hplain (obeys_answer hplain))
      fun _ => hplain
  | read => exact obeys_dkReadWrite hnext true hplain
  | write => exact obeys_dkReadWrite hnext false hplain
  | deviceControl =>
    exact obeys_lockOrComplete (obeys_skipOrAnswer hnext hplain (obeys_answer hplain))
      fun _ => hplain
  | internalDeviceControl submitUrb urb => exact obeys_dkInDevCtl hnext submitUrb urb hplain
  | pnp minor =>
    -- a control device answers like any unknown request; the removal is excluded here
    by_cases hmagic : ext.deviceMagic = .control
    · have hdefault : dkPnP ext minor ret = dkDefault ext ret := by
        unfold dkPnP
        rw [hmagic]
      rw [isPnp, hmagic, if_neg (by decide)]
      change Obeys _ (dkPnP ext minor ret) _ _ _
      rw [hdefault]
      exact obeys_dkDefault hplain
    · rw [isPnp, decide_eq_true hmagic]
      exact obeys_dkPnP hnext hremoval (hret .attaching nofun)
  | power => exact obeys_dkPower (hpower rfl) hplain
    -- without a next device this routine would return without its release
  | other => exact obeys_dkDefault hplain

/-- Only a filter device is removed. -/
theorem removal_of_isRemoval {major : MajorFunction} (h : isRemoval ext major = true) :
    major = .pnp .removeDevice ∧ ext.deviceMagic ≠ .control := by
  unfold isRemoval at h
  split at h
  · exact ⟨rfl, of_decide_eq_true h⟩
  · cases h

/-- The routine that is called for the removal obeys its part. -/
theorem obeys_removal (hnext : ext.deviceMagic ≠ .control → ext.pNextDevObj = true)
    (hmagic : ext.deviceMagic ≠ .control) :
    Obeys ext.pNextDevObj (majorFunction ext (.pnp .removeDevice) fun _ => .ret)
      (.units (reserve ext)) true .removing := by
  change Obeys _ (dkPnP ext .removeDevice _) _ _ _
  unfold dkPnP
  split
  · exact obeys_dkHubFltPnP_removeDevice (hnext hmagic) ‹_›
  · exact obeys_dkTgtPnP_removeDevice (hnext hmagic) ‹_›
  · exact absurd ‹_› hmagic

/-- Whatever happens to the device keeps to the protocol. -/
theorem obeys_act (hnext : ext.deviceMagic ≠ .control → ext.pNextDevObj = true) {e : Event}
    (he : e.Possible ext) : (e.act ext).Obeys ext.pNextDevObj (reserve ext) := by
  cases e with
  | request irp major =>
    cases hremoval : isRemoval ext major with
    | true =>
      -- the removal releases the lock with a wait, and no other routine does
      obtain ⟨rfl, hmagic⟩ := removal_of_isRemoval hremoval
      refine ⟨.removing, ?_, ?_, fun _ => decide_eq_true hmagic⟩
      · dsimp only [Event.act]
        rw [hremoval]
        exact obeys_removal hnext hmagic
      · exact ⟨fun _ => hremoval, fun _ => rfl⟩
    | false =>
      have hret (role : Role) (hrole : role ≠ .removing) :
          Returns ext.pNextDevObj 0 role fun _ => .ret := fun _ => .ret (Or.inl rfl) hrole
      refine ⟨if isPnp ext major then .attaching else .plain, ?_, ?_, fun hrole => ?_⟩
      · dsimp only [Event.act]
        rw [hremoval]
        exact obeys_majorFunction hnext he hremoval hret
      · dsimp only [Event.act]
        rw [hremoval]
        cases isPnp ext major <;> exact ⟨nofun, nofun⟩
      · by_contra hpnp
        rw [if_neg hpnp] at hrole
        exact hrole rfl
  | removeControl =>
    -- deleting a control device: no other device holds a reserve on its own lock
    have hreserve : reserve ext = 0 := by
      rw [reserve, he]
      rfl
    refine ⟨.removing, ?_, ?_, fun _ => rfl⟩
    · dsimp only [Event.act]
      rw [hreserve]
      exact obeys_deleteControlDevice
    · exact ⟨fun _ => rfl, fun _ => rfl⟩
  | run i answer => exact trivial
  | serve j => exact trivial

end Obeys

/-! ## The dispatch routines in every interleaving -/

/-- **Whatever is sent to a device and however its routines interleave**, no routine uses the device
behind its removal, releases a lock it does not hold or touches a request that is not its own; no
request is lost or completed twice; and every request is answered in the end, with the lock free and
the device deleted if it was to be removed. -/
theorem dispatch_ends {ext : Dispatched} {events : List Event} {s : System StatusCode Use}
    (hnext : ext.deviceMagic ≠ .control → ext.pNextDevObj = true)
    (hevents : ∀ e ∈ events, e.Possible ext)
    (hrun : Transition.run (System.step ext.pNextDevObj) (System.init (reserve ext))
      (events.map (Event.act ext)) = some s) :
    s.lock.fault = false ∧ s.whereabouts = s.arrived ∧
      s.Inevitable ext.pNextDevObj (System.Settled (reserve ext)) := by
  refine System.safe_and_ends (fun a ha => ?_) hrun
  obtain ⟨e, he, rfl⟩ := List.mem_map.mp ha
  exact obeys_act hnext (hevents e he)

/-- The filter device of a mouse. -/
def mouse : Dispatched :=
  { deviceMagic := .device, pNextDevObj := true, isHub := false, controlDevice := false }

/-- The mouse is unplugged while a URB is on its way: the removal waits until it is back. -/
def unplugged : List Event :=
  [.request 0 (.internalDeviceControl true true), .run 0 0, .run 0 0, .run 0 0, .run 0 0,
    .request 1 (.pnp .removeDevice), .run 2 0, .run 2 0, .run 0 0, .run 0 0, .run 1 0]

/-- The removal of the mouse ends. -/
theorem dispatch_ends_unplugged :
    ∃ s, Transition.run (System.step true) (System.init 0) (unplugged.map (Event.act mouse))
        = some s ∧
      s.lock.fault = false ∧ s.whereabouts = s.arrived ∧
      s.Inevitable true (System.Settled 0) :=
  ⟨_, rfl, @dispatch_ends mouse unplugged _ (fun _ => rfl) (by decide) rfl⟩

end UsbPcap.Driver.Dispatch
