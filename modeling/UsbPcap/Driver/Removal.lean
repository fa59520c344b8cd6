import UsbPcap.Driver.ControlDevice

/-!
# Removing a root hub

Every dispatch routine of the control device holds its remove lock.
`USBPcapDeleteRootHubControlDevice` waits for the routines that hold it and lets no later request
in, also not the cleanup that takes the waiting reads out of the queue. A read that has been queued
no longer holds the lock, so it may outlive the removal.

The routines of one file object overlap: a read tests the buffer, and takes the buffer's lock and
enters the queue later; a cleanup empties the queue read by read and removes the buffer behind that.
`Hub.no_read_stranded` says that a read outlives the removal only if its cleanup comes too late, or
overtakes a read that has passed its tests.
-/

namespace UsbPcap.Driver

/-! ## The dispatch routines by their steps -/

/-- The tests in front of the buffer's lock, in `DkReadWrite` and `USBPcapBufferHandleReadIrp`: how
they end a read, or `none` if it goes on. -/
def readChecks (d : ControlDevice) (f : FileObject) (length : UInt32) (mapped : Bool) :
    Option IoStatus :=
  if some f ≠ d.pCaptureObject then some .accessDenied
  else if length = 0 then some (.done .success)
  else if d.rootData.buffer = none then some (.done .unsuccessful)
  else if mapped = false then some (.done .insufficientResources)
  else none

/-- The part of `USBPcapBufferHandleReadIrp` that holds the buffer's lock. -/
def readLocked (d : ControlDevice) (r : ReadIrp) : IoStatus × ControlDevice :=
  let (data, p) := bufferRead d.rootData r.length.toNat
  if data.length = 0 then
    (.pending, { d with rootData := p, lePendIrp := csqInsertIrp d.lePendIrp r })
  else (.done .success, { d with rootData := p })

/-- The `IRP_MJ_CLEANUP` case of `DkCreateClose` behind `DkCsqCleanUpQueue`. -/
def cleanupEnd (d : ControlDevice) : ControlDevice :=
  { d with filter := .zero, rootData := bufferRemoveBuffer d.rootData }

/-- A read that nothing comes between is the read of `readControl`. -/
theorem readControl_eq (d : ControlDevice) (r : ReadIrp) (mapped : Bool) :
    ((readControl d r mapped).1.1, (readControl d r mapped).2) =
      (readChecks d r.fileObject r.length mapped).elim (readLocked d r) fun status =>
        (status, d) := by
  unfold readControl readChecks
  by_cases hf : some r.fileObject = d.pCaptureObject
  · rw [if_pos hf, if_neg (not_not.mpr hf), bufferHandleReadIrp]
    by_cases hlength : r.length = 0
    · rw [if_pos hlength, if_pos hlength]
      rfl
    · rw [if_neg hlength, if_neg hlength]
      by_cases hbuffer : d.rootData.buffer = none
      · rw [if_pos hbuffer, if_pos hbuffer]
        rfl
      · rw [if_neg hbuffer, if_neg hbuffer]
        cases mapped with
        | false => rfl
        | true =>
          rw [if_neg Bool.true_eq_false.mp, if_neg Bool.true_eq_false.mp, Option.elim_none,
            readLocked]
          dsimp only
          split
          · rfl
          · rfl
  · rw [if_neg hf, if_pos hf]
    rfl

/-- The life of a file object, as the I/O manager sees it. -/
inductive Life where
  | closed
  | opening
  | opened
  | cleanedUp
  | closing
deriving DecidableEq, Repr

/-- How far the dispatch routine of a request has come. A cleanup that is `draining` is in the loop
of `DkCsqCleanUpQueue`, and `drained` behind it; a read that is `checked` has passed its tests. The
other routines take one step. -/
inductive Routine where
  | create (desiredAccess : UInt32)
  | cleanup
  | draining
  | drained
  | close
  | deviceControl (q : ControlRequest)
  | read (irp : Irp) (length : UInt32) (mapped : Bool)
  | checked (irp : Irp) (length : UInt32)

/-- The routine of a request that has just got the remove lock. -/
def Request.routine : Request → Routine
  | create desiredAccess => .create desiredAccess
  | cleanup => .cleanup
  | close => .close
  | deviceControl q => .deviceControl q
  | read irp length mapped => .read irp length mapped

namespace Routine

/-- A cleanup that has not yet found the queue without a read of its file object. -/
def drains : Routine → Bool
  | cleanup | draining => true
  | _ => false

/-- A read between its tests and the buffer's lock. -/
def isChecked : Routine → Bool
  | checked _ _ => true
  | _ => false

/-- The routine of a read, a device control or a cleanup, which may overlap with others of its file
object. -/
def overlaps : Routine → Bool
  | create _ | close => false
  | _ => true

/-- The life of its file object when a routine begins. -/
def lifeDuring (life : Life) : Routine → Life
  | create _ => .opening
  | cleanup | draining | drained => .cleanedUp
  | close => .closing
  | deviceControl _ | read _ _ _ | checked _ _ => life

/-- The life of its file object when a routine is over. -/
def lifeAfter (life : Life) (status : IoStatus) : Routine → Life
  | create _ => if status = .done .success then .opened else .closed
  | cleanup | draining | drained => .cleanedUp
  | close => .closed
  | deviceControl _ | read _ _ _ | checked _ _ => life

/-- The lives that a file object has while the routine is on its way. -/
def Lives (life : Life) : Routine → Prop
  | create _ => life = .opening
  | cleanup | draining | drained => life = .cleanedUp
  | close => life = .closing
  | deviceControl _ | read _ _ _ | checked _ _ => life = .opened ∨ life = .cleanedUp

end Routine

/-- What a step of a routine comes to. -/
inductive Progress where
  | goesOn (routine : Routine)
  | ends (status : IoStatus)

/-- The next step of a dispatch routine. -/
def advance (d : ControlDevice) (f : FileObject) : Routine → Progress × ControlDevice
  | .create desiredAccess =>
    (.ends (createControl d f desiredAccess).1, (createControl d f desiredAccess).2)
  | .cleanup =>
    if d.pCaptureObject = some f then (.goesOn .draining, d) else (.ends (.done .success), d)
  | .draining =>
    match csqRemoveNextIrp d.lePendIrp (some f) with
    | some (_, queue) => (.goesOn .draining, { d with lePendIrp := queue })
    | none => (.goesOn .drained, d)
  | .drained => (.ends (.done .success), cleanupEnd d)
  | .close => (.ends (.done .success), closeControl d f)
  | .deviceControl q => (.ends (dkDevCtl d f q).1.1, (dkDevCtl d f q).2)
  | .read irp length mapped =>
    match readChecks d f length mapped with
    | some status => (.ends status, d)
    | none => (.goesOn (.checked irp length), d)
  | .checked irp length =>
    (.ends (readLocked d ⟨irp, f, length⟩).1, (readLocked d ⟨irp, f, length⟩).2)

/-- The steps with which a routine goes on. -/
inductive GoesOn (d : ControlDevice) (f : FileObject) : Routine → Routine → ControlDevice → Prop
  where
  | compared (hf : d.pCaptureObject = some f) : GoesOn d f .cleanup .draining d
  | cancelled {r : ReadIrp} {queue : List ReadIrp}
    (h : csqRemoveNextIrp d.lePendIrp (some f) = some (r, queue)) :
    GoesOn d f .draining .draining { d with lePendIrp := queue }
  | emptied (h : csqRemoveNextIrp d.lePendIrp (some f) = none) : GoesOn d f .draining .drained d
  | passed {irp : Irp} {length : UInt32} {mapped : Bool}
    (h : readChecks d f length mapped = none) :
    GoesOn d f (.read irp length mapped) (.checked irp length) d

/-- The steps with which a routine ends. -/
inductive Ends (d : ControlDevice) (f : FileObject) : Routine → IoStatus → ControlDevice → Prop
  where
  | create (desiredAccess : UInt32) :
    Ends d f (.create desiredAccess) (createControl d f desiredAccess).1
      (createControl d f desiredAccess).2
  | other (hf : d.pCaptureObject ≠ some f) : Ends d f .cleanup (.done .success) d
  | removed : Ends d f .drained (.done .success) (cleanupEnd d)
  | close : Ends d f .close (.done .success) (closeControl d f)
  | deviceControl (q : ControlRequest) :
    Ends d f (.deviceControl q) (dkDevCtl d f q).1.1 (dkDevCtl d f q).2
  | failed {irp : Irp} {length : UInt32} {mapped : Bool} {status : IoStatus}
    (h : readChecks d f length mapped = some status) : Ends d f (.read irp length mapped) status d
  | locked (irp : Irp) (length : UInt32) :
    Ends d f (.checked irp length) (readLocked d ⟨irp, f, length⟩).1
      (readLocked d ⟨irp, f, length⟩).2

theorem advance_goesOn {d d' : ControlDevice} {f : FileObject} {routine routine' : Routine}
    (h : advance d f routine = (.goesOn routine', d')) : GoesOn d f routine routine' d' := by
  cases routine with
  | cleanup =>
    rw [advance] at h
    split at h
    · rename_i hf
      cases h
      exact .compared hf
    · cases h
  | draining =>
    rw [advance] at h
    split at h
    · rename_i hsome
      cases h
      exact .cancelled hsome
    · rename_i hnone
      cases h
      exact .emptied hnone
  | read irp length mapped =>
    rw [advance] at h
    split at h
    · cases h
    · rename_i hnone
      cases h
      exact .passed hnone
  | _ => cases h

theorem advance_ends {d d' : ControlDevice} {f : FileObject} {routine : Routine}
    {status : IoStatus} (h : advance d f routine = (.ends status, d')) :
    Ends d f routine status d' := by
  cases routine with
  | create desiredAccess =>
    cases h
    exact .create desiredAccess
  | cleanup =>
    rw [advance] at h
    split at h
    · cases h
    · rename_i hf
      cases h
      exact .other hf
  | draining =>
    -- waiting for the lock to drain never ends the routine
    rw [advance] at h
    split at h
    · cases h
    · cases h
  | drained =>
    cases h
    exact .removed
  | close =>
    cases h
    exact .close
  | deviceControl q =>
    cases h
    exact .deviceControl q
  | read irp length mapped =>
    -- a read ends here only with an error; else it goes on to the queue
    rw [advance] at h
    split at h
    · rename_i hsome
      cases h
      exact .failed hsome
    · cases h
  | checked irp length =>
    cases h
    exact .locked irp length

/-- A routine that goes on goes by the same life of its file object. -/
theorem GoesOn.lives {d d' : ControlDevice} {f : FileObject} {routine routine' : Routine}
    (h : GoesOn d f routine routine' d') :
    routine.overlaps = routine'.overlaps ∧ ∀ life, routine.Lives life → routine'.Lives life := by
  cases h with
  | compared | cancelled | emptied | passed => exact ⟨rfl, fun _ => id⟩

/-- A routine that overlaps with others leaves the life of its file object as it is. -/
theorem lifeAfter_of_overlaps {life : Life} {routine : Routine} (hlives : routine.Lives life)
    (hoverlaps : routine.overlaps = true) (status : IoStatus) :
    routine.lifeAfter life status = life := by
  cases routine with
  | create desiredAccess => cases hoverlaps
  | close => cases hoverlaps
  | cleanup => exact hlives.symm
  | draining => exact hlives.symm
  | drained => exact hlives.symm
  | deviceControl q => rfl
  | read irp length mapped => rfl
  | checked irp length => rfl

/-- A routine of an open file object is a read or a device control. -/
theorem lives_opened {routine : Routine} (h : routine.Lives .opened) :
    routine.overlaps = true ∧ routine.Lives .cleanedUp := by
  cases routine with
  | deviceControl q => exact ⟨rfl, Or.inr rfl⟩
  | read irp length mapped => exact ⟨rfl, Or.inr rfl⟩
  | checked irp length => exact ⟨rfl, Or.inr rfl⟩
  | _ => cases h

/-- A file object without a life has no routine. -/
theorem not_lives_closed (routine : Routine) : ¬ routine.Lives .closed := by
  intro h
  cases routine with
  | deviceControl q => rcases h with h | h <;> cases h
  | read irp length mapped => rcases h with h | h <;> cases h
  | checked irp length => rcases h with h | h <;> cases h
  | _ => cases h

/-- A control device with its remove lock: the routines that hold it, whether the removal has closed
it, and whether the removal is over. -/
structure Hub where
  device : ControlDevice
  life : FileObject → Life
  holders : List (FileObject × Routine)
  removing : Bool
  deleted : Bool

namespace Hub

/-- What happens around a control device: a request arrives, the `i`-th of the routines that hold
the lock takes a step, a packet is stored, the removal begins and is over. -/
inductive Act where
  | arrive (f : FileObject) (r : Request)
  | proceed (i : ℕ)
  | store (k : Packet)
  | remove
  | removed

/-- The control device as `AddDevice` leaves it. -/
def init : Hub where
  device := Control.init.device
  life _ := .closed
  holders := []
  removing := false
  deleted := false

/-- No request of the file object is on its way. -/
def Idle (s : Hub) (f : FileObject) : Prop := ∀ h ∈ s.holders, h.1 ≠ f

instance (s : Hub) (f : FileObject) : Decidable (s.Idle f) :=
  inferInstanceAs (Decidable (∀ h ∈ s.holders, h.1 ≠ f))

/-- The life of the file object lets the request come: reads and device controls between create and
cleanup, and the close when no other request is on its way. The cleanup does not wait for the reads
and device controls that are. -/
def Allowed (s : Hub) (f : FileObject) : Request → Prop
  | .create _ => s.life f = .closed
  | .cleanup => s.life f = .opened
  | .close => s.life f = .cleanedUp ∧ s.Idle f
  | .deviceControl _ => s.life f = .opened
  | .read _ _ _ => s.life f = .opened

instance (s : Hub) (f : FileObject) : (r : Request) → Decidable (s.Allowed f r)
  | .create _ => inferInstanceAs (Decidable (s.life f = .closed))
  | .cleanup => inferInstanceAs (Decidable (s.life f = .opened))
  | .close => inferInstanceAs (Decidable (s.life f = .cleanedUp ∧ s.Idle f))
  | .deviceControl _ => inferInstanceAs (Decidable (s.life f = .opened))
  | .read _ _ _ => inferInstanceAs (Decidable (s.life f = .opened))

/-- One step. A request that comes after `remove` does not get the remove lock and is over at once;
the removal is over when no request holds the lock. -/
def step (s : Hub) : Act → Option Hub
  | .arrive f r =>
    if s.Allowed f r then
      if s.removing then
        some { s with
          life := Function.update s.life f (r.routine.lifeAfter (s.life f) .deletePending) }
      else
        some { s with
          life := Function.update s.life f (r.routine.lifeDuring (s.life f))
          holders := s.holders ++ [(f, r.routine)] }
    else none
  | .proceed i =>
    match s.holders[i]? with
    | none => none
    | some (f, routine) =>
      match advance s.device f routine with
      | (.goesOn routine', d) =>
        some { s with device := d, holders := s.holders.set i (f, routine') }
      | (.ends status, d) =>
        some { s with
          device := d
          life := Function.update s.life f (routine.lifeAfter (s.life f) status)
          holders := s.holders.eraseIdx i }
  | .store k => some { s with device := (storeControl s.device k).2 }
  | .remove => if s.removing then none else some { s with removing := true }
  | .removed =>
    if s.removing ∧ s.deleted = false ∧ s.holders = [] then some { s with deleted := true }
    else none

/-- When the removal is over, every read that still waits has a file object that is open: its
cleanup has not come yet. -/
def Unstranded (s : Hub) : Prop :=
  s.deleted = true → ∀ r ∈ s.device.lePendIrp, s.life r.fileObject = .opened

/-- When the removal is over, no request holds the remove lock, and what a request does depends on
the capture data as little as it changes it. -/
def Refusing (s : Hub) : Prop :=
  s.deleted = true → s.holders = [] ∧
    ∀ f r t, s.step (.arrive f r) = some t → t.device = s.device ∧ t.holders = [] ∧
      ∀ p filter,
        step { s with device := { s.device with rootData := p, filter := filter } } (.arrive f r) =
          some { t with device := { t.device with rootData := p, filter := filter } }

/-! ## Cleanups in time -/

/-- The cleanup of the file object has not come yet, or it still has to find the queue without a
read of it. -/
def Watched (s : Hub) (f : FileObject) : Prop :=
  s.life f = .opened ∨ ∃ h ∈ s.holders, h.1 = f ∧ h.2.drains = true

instance (s : Hub) (f : FileObject) : Decidable (s.Watched f) :=
  inferInstanceAs (Decidable (_ ∨ _))

/-- A read of the file object waits in the queue. -/
def Waiting (s : Hub) (f : FileObject) : Prop := ∃ r ∈ s.device.lePendIrp, r.fileObject = f

/-- A read of the file object is between its tests and the buffer's lock. -/
def Checked (s : Hub) (f : FileObject) : Prop := ∃ h ∈ s.holders, h.1 = f ∧ h.2.isChecked = true

instance (s : Hub) (f : FileObject) : Decidable (s.Waiting f) :=
  inferInstanceAs (Decidable (∃ r ∈ s.device.lePendIrp, r.fileObject = f))

instance (s : Hub) (f : FileObject) : Decidable (s.Checked f) :=
  inferInstanceAs (Decidable (∃ h ∈ s.holders, h.1 = f ∧ h.2.isChecked = true))

/-- Where the cleanup of a file object has to stand among its reads. It is not refused while one of
them waits or has passed its tests; it does not find the queue without them while one has passed
its tests; and none passes its tests after that. -/
def InTime (s : Hub) : Act → Prop
  | .arrive f .cleanup => s.removing = true → ¬ s.Waiting f ∧ ¬ s.Checked f
  | .proceed i =>
    match s.holders[i]? with
    | some (f, .draining) => csqRemoveNextIrp s.device.lePendIrp (some f) = none → ¬ s.Checked f
    | some (f, .read _ length mapped) => readChecks s.device f length mapped = none → s.Watched f
    | _ => True
  | _ => True

instance (s : Hub) (a : Act) : Decidable (s.InTime a) := by
  unfold InTime
  split
  · infer_instance
  · split <;> infer_instance
  · infer_instance

/-- The branches of `step` that succeed. -/
inductive Step (s : Hub) : Act → Hub → Prop where
  | arrive {f : FileObject} {r : Request} (allowed : s.Allowed f r) (hrem : s.removing = false) :
    Step s (.arrive f r) { s with
      life := Function.update s.life f (r.routine.lifeDuring (s.life f))
      holders := s.holders ++ [(f, r.routine)] }
  | refuse {f : FileObject} {r : Request} (allowed : s.Allowed f r) (hrem : s.removing = true) :
    Step s (.arrive f r) { s with
      life := Function.update s.life f (r.routine.lifeAfter (s.life f) .deletePending) }
  | goesOn {i : ℕ} {f : FileObject} {routine routine' : Routine} {d : ControlDevice}
    (hi : s.holders[i]? = some (f, routine)) (h : GoesOn s.device f routine routine' d) :
    Step s (.proceed i) { s with device := d, holders := s.holders.set i (f, routine') }
  | ends {i : ℕ} {f : FileObject} {routine : Routine} {status : IoStatus} {d : ControlDevice}
    (hi : s.holders[i]? = some (f, routine)) (h : Ends s.device f routine status d) :
    Step s (.proceed i) { s with
      device := d
      life := Function.update s.life f (routine.lifeAfter (s.life f) status)
      holders := s.holders.eraseIdx i }
  | store (k : Packet) : Step s (.store k) { s with device := (storeControl s.device k).2 }
  | remove (hrem : s.removing = false) : Step s .remove { s with removing := true }
  | removed (hrem : s.removing = true) (hnone : s.holders = []) :
    Step s .removed { s with deleted := true }

theorem step_cases {s t : Hub} {a : Act} (h : s.step a = some t) : Step s a t := by
  cases a with
  | arrive f r =>
    simp only [step] at h
    split at h
    · rename_i hallowed
      split at h
      · rename_i hrem
        obtain rfl := Option.some.inj h
        exact .refuse hallowed hrem
      · rename_i hrem
        obtain rfl := Option.some.inj h
        exact .arrive hallowed (Bool.eq_false_of_not_eq_true hrem)
    · cases h
  | proceed i =>
    simp only [step] at h
    split at h
    · cases h
    · rename_i f routine hi
      split at h
      · rename_i routine' d hadvance
        obtain rfl := Option.some.inj h
        exact .goesOn hi (advance_goesOn hadvance)
      · rename_i status d hadvance
        obtain rfl := Option.some.inj h
        exact .ends hi (advance_ends hadvance)
  | store k =>
    obtain rfl := Option.some.inj h
    exact .store k
  | remove =>
    simp only [step] at h
    split at h
    · cases h
    · rename_i hrem
      obtain rfl := Option.some.inj h
      exact .remove (Bool.eq_false_of_not_eq_true hrem)
  | removed =>
    simp only [step] at h
    split at h
    · rename_i hdone
      obtain rfl := Option.some.inj h
      exact .removed hdone.1 hdone.2.2
    · cases h

/-! ## The routines that hold the lock -/

/-- The invariant. Only the capture handle has reads that wait or have passed their tests, and its
cleanup will still find them. The routines that hold the lock agree with the lives of their file
objects, and of one file object only reads, device controls and the cleanup overlap. -/
structure Consistent (s : Hub) : Prop where
  pending : ∀ f, s.Waiting f ∨ s.Checked f → s.device.pCaptureObject = some f ∧ s.Watched f
  holding : ∀ h ∈ s.holders, h.2.Lives (s.life h.1)
  overlap : s.holders.Pairwise fun a b =>
    a.1 = b.1 → a.2.overlaps = true ∧ b.2.overlaps = true
  deleted : s.deleted = true → s.removing = true ∧ s.holders = []

theorem Consistent.unstranded {s : Hub} (h : Consistent s) : Unstranded s := by
  intro hdel r hr
  refine (h.pending r.fileObject (.inl ⟨r, hr, rfl⟩)).2.resolve_right ?_
  rintro ⟨q, hq, -⟩
  rw [(h.deleted hdel).2] at hq
  cases hq

theorem init_consistent : Consistent init where
  pending f hf := by
    rcases hf with ⟨r, hr, -⟩ | ⟨h, hh, -⟩
    · cases hr
    · cases hh
  holding h hh := by cases hh
  overlap := List.Pairwise.nil
  deleted h := by cases h

/-- A request that is allowed while a routine of its file object holds the lock leaves that routine
its life, whether the request gets the lock or not. -/
theorem Consistent.allowed_overlap {s : Hub} (h : Consistent s) {f : FileObject} {r : Request}
    (hallowed : s.Allowed f r) {routine : Routine} (hr : (f, routine) ∈ s.holders) :
    (routine.overlaps = true ∧ r.routine.overlaps = true) ∧
      routine.Lives (r.routine.lifeDuring (s.life f)) ∧
      ∀ status, routine.Lives (r.routine.lifeAfter (s.life f) status) := by
  have hlives : routine.Lives (s.life f) := h.holding _ hr
  cases r with
  | create desiredAccess =>
    rw [show s.life f = .closed from hallowed] at hlives
    exact absurd hlives (not_lives_closed routine)
  | close => exact absurd rfl (hallowed.2 _ hr)
  | cleanup =>
    rw [show s.life f = .opened from hallowed] at hlives
    obtain ⟨hoverlaps, hcleaned⟩ := lives_opened hlives
    exact ⟨⟨hoverlaps, rfl⟩, hcleaned, fun _ => hcleaned⟩
  | deviceControl q =>
    have hopened : routine.Lives .opened := (show s.life f = .opened from hallowed) ▸ hlives
    exact ⟨⟨(lives_opened hopened).1, rfl⟩, hlives, fun _ => hlives⟩
  | read irp length mapped =>
    have hopened : routine.Lives .opened := (show s.life f = .opened from hallowed) ▸ hlives
    exact ⟨⟨(lives_opened hopened).1, rfl⟩, hlives, fun _ => hlives⟩

theorem eq_take_cons_drop {α : Type*} {l : List α} {i : ℕ} {a : α} (hi : l[i]? = some a) :
    l = l.take i ++ a :: l.drop (i + 1) := by
  obtain ⟨hlt, hget⟩ := List.getElem?_eq_some_iff.mp hi
  rw [← hget, List.getElem_cons_drop, List.take_append_drop]

/-- What is left of the holders when one of them has ended. -/
theorem Consistent.mem_eraseIdx {s : Hub} (h : Consistent s) {i : ℕ} {f g : FileObject}
    {routine routine' : Routine} (hi : s.holders[i]? = some (f, routine))
    (hg : (g, routine') ∈ s.holders.eraseIdx i) :
    (g, routine') ∈ s.holders ∧
      (g = f → routine.overlaps = true ∧ routine'.overlaps = true) := by
  have hover := h.overlap
  rw [eq_take_cons_drop hi, List.pairwise_append, List.pairwise_cons] at hover
  obtain ⟨-, ⟨hpost, -⟩, hpre⟩ := hover
  rw [List.eraseIdx_eq_take_drop_succ] at hg
  rcases List.mem_append.mp hg with hg | hg
  · refine ⟨List.mem_of_mem_take hg, fun heq => ?_⟩
    exact (hpre _ hg _ List.mem_cons_self heq).symm
  · exact ⟨List.mem_of_mem_drop hg, fun heq => hpost _ hg heq.symm⟩

/-- A holder that has not ended stays. -/
theorem mem_eraseIdx_of_ne {α : Type*} {l : List α} {i : ℕ} {a b : α} (hi : l[i]? = some a)
    (hb : b ∈ l) (hne : b ≠ a) : b ∈ l.eraseIdx i := by
  rw [List.eraseIdx_eq_take_drop_succ]
  rw [eq_take_cons_drop hi] at hb
  rcases List.mem_append.mp hb with hb | hb
  · exact List.mem_append_left _ hb
  · exact List.mem_append_right _ ((List.mem_cons.mp hb).resolve_left hne)

/-- A holder that has gone on is there with its next step, and the others stay. -/
theorem mem_set_of_mem {α : Type*} {l : List α} {i : ℕ} {a b x : α} (hi : l[i]? = some a)
    (hb : b ∈ l) : x ∈ l.set i x ∧ (b ∈ l.set i x ∨ b = a) := by
  obtain ⟨hlt, -⟩ := List.getElem?_eq_some_iff.mp hi
  refine ⟨List.mem_set hlt x, ?_⟩
  rw [List.set_eq_take_append_cons_drop, if_pos hlt]
  rw [eq_take_cons_drop hi] at hb
  rcases List.mem_append.mp hb with hb | hb
  · exact Or.inl (List.mem_append_left _ hb)
  · rcases List.mem_cons.mp hb with rfl | hb
    · exact Or.inr rfl
    · exact Or.inl (List.mem_append_right _ (List.mem_cons_of_mem _ hb))

/-! ## One step -/

/-- A request that gets the remove lock. -/
theorem Consistent.arrive {s : Hub} (h : Consistent s) (hrem : s.removing = false) {f : FileObject}
    {r : Request} (hallowed : s.Allowed f r) :
    Consistent { s with
      life := Function.update s.life f (r.routine.lifeDuring (s.life f))
      holders := s.holders ++ [(f, r.routine)] } := by
  refine ⟨fun g hg => ?_, fun q hq => ?_, ?_, fun hdel => ?_⟩
  · have hpending : s.Waiting g ∨ s.Checked g := by
      refine hg.imp id ?_
      rintro ⟨q, hq, hqg, hchecked⟩
      rcases List.mem_append.mp hq with hold | hnew
      · exact ⟨q, hold, hqg, hchecked⟩
      · -- a routine begins in front of its tests
        obtain rfl := List.mem_singleton.mp hnew
        cases r <;> cases hchecked
    obtain ⟨hcap, hwatched⟩ := h.pending g hpending
    refine ⟨hcap, ?_⟩
    rcases hwatched with hopen | ⟨q, hq, hqg, hdrains⟩
    · by_cases hgf : g = f
      · subst hgf
        cases r with
        | create desiredAccess => exact absurd (hopen.symm.trans hallowed) nofun
        | close => exact absurd (hopen.symm.trans hallowed.1) nofun
        | cleanup =>
          exact Or.inr ⟨_, List.mem_append_right _ (List.mem_singleton.mpr rfl), rfl, rfl⟩
        | deviceControl q => exact Or.inl ((Function.update_self _ _ _).trans hopen)
        | read irp length mapped => exact Or.inl ((Function.update_self _ _ _).trans hopen)
      · exact Or.inl ((Function.update_of_ne hgf _ _).trans hopen)
    · exact Or.inr ⟨q, List.mem_append_left _ hq, hqg, hdrains⟩
  · obtain ⟨g, routine⟩ := q
    change routine.Lives (Function.update s.life f _ g)
    by_cases hgf : g = f
    · subst hgf
      rw [Function.update_self]
      rcases List.mem_append.mp hq with hold | hnew
      · exact (h.allowed_overlap hallowed hold).2.1
      · obtain ⟨-, rfl⟩ := Prod.mk.inj (List.mem_singleton.mp hnew)
        cases r with
        | deviceControl q => exact Or.inl hallowed
        | read irp length mapped => exact Or.inl hallowed
        | _ => rfl
    · rw [Function.update_of_ne hgf]
      rcases List.mem_append.mp hq with hold | hnew
      · exact h.holding _ hold
      · exact absurd (Prod.mk.inj (List.mem_singleton.mp hnew)).1 hgf
  · change (s.holders ++ [(f, r.routine)]).Pairwise _
    rw [List.pairwise_append]
    refine ⟨h.overlap, List.pairwise_singleton _ _, fun a ha b hb heq => ?_⟩
    obtain rfl := List.mem_singleton.mp hb
    obtain ⟨g, routine⟩ := a
    obtain rfl : g = f := heq
    exact (h.allowed_overlap hallowed ha).1
  · exact absurd ((h.deleted hdel).1.symm.trans hrem) nofun

/-- A request that does not get the remove lock. -/
theorem Consistent.refuse {s : Hub} (h : Consistent s) {f : FileObject} {r : Request}
    (hallowed : s.Allowed f r) (hr : s.InTime (.arrive f r)) (hrem : s.removing = true) :
    Consistent { s with
      life := Function.update s.life f (r.routine.lifeAfter (s.life f) .deletePending) } := by
  refine ⟨fun g hg => ?_, fun q hq => ?_, h.overlap, h.deleted⟩
  · obtain ⟨hcap, hwatched⟩ := h.pending g hg
    refine ⟨hcap, hwatched.imp_left fun hopen => ?_⟩
    by_cases hgf : g = f
    · subst hgf
      cases r with
      | create desiredAccess => exact absurd (hopen.symm.trans hallowed) nofun
      | close => exact absurd (hopen.symm.trans hallowed.1) nofun
      | cleanup => exact absurd hg (not_or.mpr (hr hrem))
      | deviceControl q => exact (Function.update_self _ _ _).trans hopen
      | read irp length mapped => exact (Function.update_self _ _ _).trans hopen
    · exact (Function.update_of_ne hgf _ _).trans hopen
  · obtain ⟨g, routine⟩ := q
    change routine.Lives (Function.update s.life f _ g)
    by_cases hgf : g = f
    · subst hgf
      rw [Function.update_self]
      exact (h.allowed_overlap hallowed hq).2.2 _
    · rw [Function.update_of_ne hgf]
      exact h.holding _ hq

/-- What stays of the reads that have passed their tests when a routine goes on. -/
theorem checked_of_set {s : Hub} {i : ℕ} {f g : FileObject} {routine' : Routine}
    {d : ControlDevice} (hnot : g = f → routine'.isChecked = false)
    (h : Checked { s with device := d, holders := s.holders.set i (f, routine') } g) :
    s.Checked g := by
  obtain ⟨q, hq, hqg, hchecked⟩ := h
  rcases List.mem_or_eq_of_mem_set hq with hold | rfl
  · exact ⟨q, hold, hqg, hchecked⟩
  · exact absurd (hchecked.symm.trans (hnot hqg.symm)) Bool.true_eq_false.mp

/-- A cleanup that goes on still watches its file object, unless it has found the queue empty. -/
theorem watched_set {s : Hub} {i : ℕ} {f g : FileObject} {routine routine' : Routine}
    {d : ControlDevice} (hi : s.holders[i]? = some (f, routine))
    (hdrains : g = f → routine.drains = true → routine'.drains = true) (h : s.Watched g) :
    Watched { s with device := d, holders := s.holders.set i (f, routine') } g := by
  rcases h with hopen | ⟨q, hq, hqg, hq'⟩
  · exact Or.inl hopen
  · obtain ⟨hnew, hold | rfl⟩ := mem_set_of_mem (x := (f, routine')) hi hq
    · exact Or.inr ⟨q, hold, hqg, hq'⟩
    · exact Or.inr ⟨_, hnew, hqg, hdrains hqg.symm hq'⟩

/-- A routine that takes a step and goes on. -/
theorem Consistent.goesOn {s : Hub} (h : Consistent s) {i : ℕ} {f : FileObject}
    {routine routine' : Routine} {d : ControlDevice} (hi : s.holders[i]? = some (f, routine))
    (hgoes : GoesOn s.device f routine routine' d) (ha : s.InTime (.proceed i)) :
    Consistent { s with device := d, holders := s.holders.set i (f, routine') } := by
  obtain ⟨hoverlaps, hlives⟩ := hgoes.lives
  have hholding : ∀ q ∈ s.holders.set i (f, routine'), q.2.Lives (s.life q.1) := by
    intro q hq
    rcases List.mem_or_eq_of_mem_set hq with hold | rfl
    · exact h.holding q hold
    · exact hlives _ (h.holding _ (List.mem_of_getElem? hi))
  have hoverlap : (s.holders.set i (f, routine')).Pairwise fun a b =>
      a.1 = b.1 → a.2.overlaps = true ∧ b.2.overlaps = true := by
    -- the relation sees nothing of the step
    have hmap : (s.holders.set i (f, routine')).map (fun q => (q.1, q.2.overlaps)) =
        s.holders.map fun q => (q.1, q.2.overlaps) := by
      obtain ⟨hlt, hget⟩ := List.getElem?_eq_some_iff.mp hi
      rw [List.map_set, ← hoverlaps]
      refine (congrArg _ ?_).trans (List.set_getElem_self (by rwa [List.length_map]))
      rw [List.getElem_map, hget]
    have hold := h.overlap
    rw [← List.pairwise_map (f := fun q : FileObject × Routine => (q.1, q.2.overlaps))
      (R := fun a b => a.1 = b.1 → a.2 = true ∧ b.2 = true)] at hold ⊢
    rwa [hmap]
  have hdeleted (hdel : s.deleted = true) : s.removing = true ∧
      s.holders.set i (f, routine') = [] := by
    obtain ⟨hrem, hnone⟩ := h.deleted hdel
    rw [hnone] at hi
    cases hi
  refine ⟨fun g hg => ?_, hholding, hoverlap, hdeleted⟩
  rw [InTime, hi] at ha
  cases hgoes with
  | compared hf =>
    obtain ⟨hcap, hwatched⟩ := h.pending g (hg.imp_right (checked_of_set fun _ => rfl))
    exact ⟨hcap, watched_set hi (fun _ _ => rfl) hwatched⟩
  | cancelled hsome =>
    obtain ⟨-, rfl⟩ := csqRemoveNextIrp_eq_some hsome
    obtain ⟨hcap, hwatched⟩ := h.pending g (hg.imp
      (fun ⟨r, hr, hrg⟩ => ⟨r, List.mem_of_mem_erase hr, hrg⟩) (checked_of_set fun _ => rfl))
    exact ⟨hcap, watched_set hi (fun _ _ => rfl) hwatched⟩
  | emptied hnone =>
    have hpending := hg.imp_right (checked_of_set fun _ => rfl)
    obtain ⟨hcap, hwatched⟩ := h.pending g hpending
    refine ⟨hcap, watched_set hi (fun hgf => ?_) hwatched⟩
    -- no read of this file object waits any more, and none is going to
    subst hgf
    rcases hpending with ⟨r, hr, hrg⟩ | hchecked
    · exact absurd hrg (csqRemoveNextIrp_eq_none hnone r hr)
    · exact absurd hchecked (ha hnone)
  | passed hpassed =>
    by_cases hgf : g = f
    · subst hgf
      refine ⟨?_, watched_set hi (fun _ => nofun) (ha hpassed)⟩
      unfold readChecks at hpassed
      split at hpassed
      · cases hpassed
      · rename_i hcap
        exact (not_not.mp hcap).symm
    · obtain ⟨hcap, hwatched⟩ := h.pending g (hg.imp_right (checked_of_set fun heq =>
        absurd heq hgf))
      exact ⟨hcap, watched_set hi (fun heq => absurd heq hgf) hwatched⟩

/-- What a routine that ends does to the reads that are pending: only a read that has passed its
tests enters the queue, and the capture handle and the life of its file object stay as long as one
is pending. -/
theorem Consistent.ends_pending {s : Hub} (h : Consistent s) {f : FileObject} {routine : Routine}
    {status : IoStatus} {d : ControlDevice} (hmem : (f, routine) ∈ s.holders)
    (he : Ends s.device f routine status d) :
    (∀ r ∈ d.lePendIrp, s.Waiting r.fileObject ∨ s.Checked r.fileObject) ∧
    ∀ g, s.Waiting g ∨ s.Checked g → d.pCaptureObject = some g ∧ (g = f → routine.drains = false ∧
      (s.life f = .opened → routine.lifeAfter (s.life f) status = .opened)) := by
  have hlives : routine.Lives (s.life f) := h.holding _ hmem
  have hwaiting : ∀ r ∈ s.device.lePendIrp, s.Waiting r.fileObject ∨ s.Checked r.fileObject :=
    fun r hr => Or.inl ⟨r, hr, rfl⟩
  cases he with
  | create desiredAccess =>
    have hopening : s.life f = .opening := hlives
    rcases createControl_cases s.device f desiredAccess with ⟨-, heq⟩ | ⟨-, hnone, heq⟩ |
      ⟨-, -, heq⟩
    all_goals rw [heq]
    · refine ⟨hwaiting, fun g hg => ⟨(h.pending g hg).1, fun _ => ⟨rfl, fun hopen => ?_⟩⟩⟩
      exact absurd (hopening.symm.trans hopen) nofun
    · refine ⟨hwaiting, fun g hg => ?_⟩
      exact absurd (hnone.symm.trans (h.pending g hg).1) nofun
    · refine ⟨hwaiting, fun g hg => ⟨(h.pending g hg).1, fun _ => ⟨rfl, fun hopen => ?_⟩⟩⟩
      exact absurd (hopening.symm.trans hopen) nofun
  | other hf =>
    refine ⟨hwaiting, fun g hg => ⟨(h.pending g hg).1, fun hgf => ?_⟩⟩
    exact absurd (hgf ▸ (h.pending g hg).1) hf
  | removed =>
    refine ⟨hwaiting, fun g hg => ⟨(h.pending g hg).1, fun _ => ⟨rfl, fun hopen => ?_⟩⟩⟩
    exact absurd ((show s.life f = .cleanedUp from hlives).symm.trans hopen) nofun
  | close =>
    have hclosing : s.life f = .closing := hlives
    have hnot (hg : s.Waiting f ∨ s.Checked f) : False := by
      rcases (h.pending f hg).2 with hopen | ⟨⟨g, other⟩, hq, rfl, hdrains⟩
      · exact absurd (hclosing.symm.trans hopen) nofun
      · -- a close comes when the cleanup is over
        have hother : other.Lives (s.life g) := h.holding _ hq
        rw [hclosing] at hother
        cases other with
        | cleanup | draining => cases hother
        | _ => cases hdrains
    have hqueue : (closeControl s.device f).lePendIrp = s.device.lePendIrp := by
      unfold closeControl
      split <;> rfl
    rw [hqueue]
    refine ⟨hwaiting, fun g hg => ?_⟩
    have hgf : g ≠ f := by
      rintro rfl
      exact hnot hg
    have hcap := (h.pending g hg).1
    rw [closeControl_other fun hf => hgf (Option.some.inj (hcap.symm.trans hf))]
    exact ⟨hcap, fun heq => absurd heq hgf⟩
  | deviceControl q => exact ⟨hwaiting, fun g hg => ⟨(h.pending g hg).1, fun _ => ⟨rfl, id⟩⟩⟩
  | failed hfailed => exact ⟨hwaiting, fun g hg => ⟨(h.pending g hg).1, fun _ => ⟨rfl, id⟩⟩⟩
  | locked irp length =>
    have hchecked : s.Checked f := ⟨_, hmem, rfl, rfl⟩
    have hlocked : (readLocked s.device ⟨irp, f, length⟩).2.pCaptureObject =
        s.device.pCaptureObject ∧
        ∀ r ∈ (readLocked s.device ⟨irp, f, length⟩).2.lePendIrp,
          r ∈ s.device.lePendIrp ∨ r.fileObject = f := by
      unfold readLocked
      dsimp only
      split
      · refine ⟨rfl, fun r hr => ?_⟩
        rcases List.mem_append.mp hr with hold | hnew
        · exact Or.inl hold
        · exact Or.inr (congrArg ReadIrp.fileObject (List.mem_singleton.mp hnew))
      · exact ⟨rfl, fun r hr => Or.inl hr⟩
    refine ⟨fun r hr => ?_, fun g hg => ⟨?_, fun _ => ⟨rfl, id⟩⟩⟩
    · rcases hlocked.2 r hr with hold | rfl
      · exact hwaiting r hold
      · exact Or.inr hchecked
    · exact hlocked.1.trans (h.pending g hg).1

/-- A routine that ends and releases the remove lock. -/
theorem Consistent.ends {s : Hub} (h : Consistent s) {i : ℕ} {f : FileObject} {routine : Routine}
    {status : IoStatus} {d : ControlDevice} (hi : s.holders[i]? = some (f, routine))
    (he : Ends s.device f routine status d) :
    Consistent { s with
      device := d
      life := Function.update s.life f (routine.lifeAfter (s.life f) status)
      holders := s.holders.eraseIdx i } := by
  have hmem := List.mem_of_getElem? hi
  obtain ⟨hqueue, hkeeps⟩ := h.ends_pending hmem he
  refine ⟨fun g hg => ?_, fun q hq => ?_, ?_, fun hdel => ?_⟩
  · have hpending : s.Waiting g ∨ s.Checked g := by
      rcases hg with ⟨r, hr, rfl⟩ | ⟨q, hq, hqg, hchecked⟩
      · exact hqueue r hr
      · exact Or.inr ⟨q, List.mem_of_mem_eraseIdx hq, hqg, hchecked⟩
    obtain ⟨hcap, hself⟩ := hkeeps g hpending
    refine ⟨hcap, ?_⟩
    rcases (h.pending g hpending).2 with hopen | ⟨q, hq, hqg, hdrains⟩
    · left
      by_cases hgf : g = f
      · subst hgf
        exact (Function.update_self _ _ _).trans ((hself rfl).2 hopen)
      · exact (Function.update_of_ne hgf _ _).trans hopen
    · refine Or.inr ⟨q, mem_eraseIdx_of_ne hi hq ?_, hqg, hdrains⟩
      -- a cleanup that still watches does not end while a read is pending
      rintro rfl
      exact absurd ((hself hqg.symm).1.symm.trans hdrains) Bool.false_ne_true
  · obtain ⟨g, routine'⟩ := q
    obtain ⟨hq', hshared⟩ := h.mem_eraseIdx hi hq
    change routine'.Lives (Function.update s.life f _ g)
    by_cases hgf : g = f
    · rw [hgf, Function.update_self, lifeAfter_of_overlaps (h.holding _ hmem) (hshared hgf).1]
      exact hgf ▸ h.holding _ hq'
    · rw [Function.update_of_ne hgf]
      exact h.holding _ hq'
  · exact h.overlap.sublist (List.eraseIdx_sublist _ _)
  · have hnone := (h.deleted hdel).2
    rw [hnone] at hmem
    cases hmem

/-- Every step keeps the invariant, if the cleanups come in time. -/
theorem Consistent.step {s t : Hub} (h : Consistent s) {a : Act} (ha : s.InTime a)
    (hst : s.step a = some t) : Consistent t := by
  cases step_cases hst with
  | arrive hallowed hrem => exact h.arrive hrem hallowed
  | refuse hallowed hrem => exact h.refuse hallowed ha hrem
  | goesOn hi hgoes => exact h.goesOn hi hgoes ha
  | ends hi he => exact h.ends hi he
  | store k =>
    refine ⟨fun f hf => h.pending f (hf.imp_left ?_), h.holding, h.overlap, h.deleted⟩
    rintro ⟨r, hr, hrf⟩
    exact ⟨r, storeControl_queue s.device k r hr, hrf⟩
  | remove hrem =>
    refine { h with deleted := fun hdel => ?_ }
    exact absurd ((h.deleted hdel).1.symm.trans hrem) Bool.true_eq_false.mp
  | removed hrem hnone => exact { h with deleted := fun _ => ⟨hrem, hnone⟩ }

/-! ## Routines that nothing comes between -/

/-- Undisturbed, a read does what `readControl` does. -/
theorem run_read {s : Hub} {i : ℕ} {f : FileObject} {irp : Irp} {length : UInt32} {mapped : Bool}
    (hi : s.holders[i]? = some (f, .read irp length mapped)) :
    ∃ m, Transition.run step s (List.replicate m (.proceed i)) = some { s with
      device := (readControl s.device ⟨irp, f, length⟩ mapped).2
      holders := s.holders.eraseIdx i } := by
  obtain ⟨hlt, -⟩ := List.getElem?_eq_some_iff.mp hi
  have heq := congrArg Prod.snd (readControl_eq s.device ⟨irp, f, length⟩ mapped)
  dsimp only at heq
  rw [heq]
  cases hchecks : readChecks s.device f length mapped with
  | some status =>
    refine ⟨1, ?_⟩
    rw [List.replicate_one, Transition.run_cons]
    simp only [step, hi, advance, hchecks, Routine.lifeAfter, Function.update_eq_self]
    rfl
  | none =>
    have hfirst : s.step (.proceed i) = some { s with
        holders := s.holders.set i (f, .checked irp length) } := by
      simp only [step, hi, advance, hchecks]
    refine ⟨2, ?_⟩
    rw [List.replicate_succ, Transition.run_cons, hfirst, Option.bind_some, List.replicate_one,
      Transition.run_cons]
    simp only [step, List.getElem?_set_self hlt, advance, Routine.lifeAfter,
      Function.update_eq_self, List.eraseIdx_set_eq]
    rfl


/-- Undisturbed, the loop of a cleanup empties the queue as `DkCsqCleanUpQueue` does. -/
theorem run_draining {s : Hub} {i : ℕ} {f : FileObject}
    (hi : s.holders[i]? = some (f, .draining)) :
    ∃ m, Transition.run step s (List.replicate m (.proceed i)) = some { s with
      device := { s.device with lePendIrp := (csqCleanUpQueue s.device.lePendIrp f).2 }
      holders := s.holders.set i (f, .drained) } := by
  generalize hqueue : s.device.lePendIrp = queue
  fun_induction csqCleanUpQueue queue f generalizing s with
  | case1 queue hnone =>
    subst hqueue
    have hstep : s.step (.proceed i) =
        some { s with holders := s.holders.set i (f, .drained) } := by
      simp only [step, hi, advance, hnone]
    exact ⟨1, by rw [List.replicate_one, Transition.run_cons, hstep]; rfl⟩
  | case2 queue r queue' hsome cancelled rest heq ih =>
    subst hqueue
    have hstep : s.step (.proceed i) = some { s with
        device := { s.device with lePendIrp := queue' }
        holders := s.holders.set i (f, .draining) } := by
      simp only [step, hi, advance, hsome]
    obtain ⟨hlt, -⟩ := List.getElem?_eq_some_iff.mp hi
    obtain ⟨m, hm⟩ := @ih { s with
      device := { s.device with lePendIrp := queue' }
      holders := s.holders.set i (f, .draining) } (List.getElem?_set_self hlt) rfl
    refine ⟨m + 1, ?_⟩
    rw [List.replicate_succ, Transition.run_cons, hstep, Option.bind_some, hm, List.set_set, heq]

/-- Undisturbed, a cleanup does what `cleanupControl` does. -/
theorem run_cleanup {s : Hub} {i : ℕ} {f : FileObject} (hi : s.holders[i]? = some (f, .cleanup)) :
    ∃ m, Transition.run step s (List.replicate m (.proceed i)) = some { s with
      device := (cleanupControl s.device f).2
      life := Function.update s.life f .cleanedUp
      holders := s.holders.eraseIdx i } := by
  obtain ⟨hlt, -⟩ := List.getElem?_eq_some_iff.mp hi
  by_cases hf : s.device.pCaptureObject = some f
  · have hfirst : s.step (.proceed i) = some { s with
        holders := s.holders.set i (f, .draining) } := by
      simp only [step, hi, advance, if_pos hf]
    obtain ⟨m, hm⟩ := @run_draining { s with holders := s.holders.set i (f, .draining) } i f
      (List.getElem?_set_self hlt)
    refine ⟨m + 2, ?_⟩
    rw [List.replicate_succ, Transition.run_cons, hfirst, Option.bind_some, List.replicate_succ',
      Transition.run_append, hm, Option.bind_some, List.set_set, Transition.run_cons]
    simp only [step, List.getElem?_set_self hlt, advance, List.eraseIdx_set_eq, cleanupControl,
      if_pos hf]
    rfl
  · refine ⟨1, ?_⟩
    rw [List.replicate_one, Transition.run_cons]
    simp only [step, hi, advance, if_neg hf, cleanupControl]
    rfl

/-! ## Whole runs -/

/-- The removal is over only when no request holds the lock, and none can get it any more. -/
theorem deleted_step {s t : Hub} (h : s.deleted = true → s.removing = true ∧ s.holders = [])
    {a : Act} (hst : s.step a = some t) :
    t.deleted = true → t.removing = true ∧ t.holders = [] := by
  intro hdel
  cases step_cases hst with
  | arrive _ hrem => exact absurd ((h hdel).1.symm.trans hrem) Bool.true_eq_false.mp
  | refuse => exact h hdel
  | goesOn hi =>
    rw [(h hdel).2] at hi
    cases hi
  | ends hi =>
    rw [(h hdel).2] at hi
    cases hi
  | store k => exact h hdel
  | remove hrem => exact absurd ((h hdel).1.symm.trans hrem) Bool.true_eq_false.mp
  | removed hrem hnone => exact ⟨hrem, hnone⟩

/-- Behind the removal, a request is over as soon as it arrives. -/
theorem refusing_of_deleted {s : Hub} (h : s.deleted = true → s.removing = true ∧ s.holders = []) :
    Refusing s := by
  intro hdel
  obtain ⟨hrem, hnone⟩ := h hdel
  refine ⟨hnone, fun f r t hst => ?_⟩
  by_cases hallowed : s.Allowed f r
  · rw [step, if_pos hallowed, if_pos hrem] at hst
    obtain rfl := Option.some.inj hst
    refine ⟨rfl, hnone, fun p filter => ?_⟩
    have hallowed' : Allowed
        { s with device := { s.device with rootData := p, filter := filter } } f r := by
      cases r <;> exact hallowed
    rw [step, if_pos hallowed', if_pos hrem]
  · rw [step, if_neg hallowed] at hst
    cases hst

/-- **Only a cleanup that comes too late strands a read, or one that overtakes it.** In every run,
no request that comes after the removal reads or writes the capture data; and in a run in which
every cleanup comes in time for the reads of its file object, no read of a file object whose cleanup
has been processed is left in the queue when the removal is over. -/
theorem no_read_stranded (acts : List Act) :
    Transition.Always step Refusing init acts ∧
      (Transition.Along step InTime init acts → Transition.Always step Unstranded init acts) := by
  constructor
  · intro pre s _ hs
    refine refusing_of_deleted (Transition.run_induction
      (P := fun _ s => s.deleted = true → s.removing = true ∧ s.holders = []) (fun h => by cases h)
      ?_ hs)
    exact fun _ _ _ _ _ h hst => deleted_step h hst
  · intro hok pre s hpre hs
    have hall := hok.always init_consistent fun _ _ _ _ h ha hst => h.step ha hst
    exact (hall pre s hpre hs).unstranded

/-! ## A hub is unplugged during a capture -/

/-- A capture starts, and its first read takes the global header. -/
def startCapture (f : FileObject) : List Act :=
  [.arrive f (.create captureAccess), .proceed 0, .arrive f (.deviceControl Control.setUpRequest),
    .proceed 0, .arrive f (.read 10 4096 true), .proceed 0, .proceed 0]

/-- Another read finds nothing and waits. -/
def waitingRead (f : FileObject) : List Act :=
  [.arrive f (.read 11 4096 true), .proceed 0, .proceed 0]

/-- The hub is removed, and the handle is closed afterwards. -/
def unplugged : List Act :=
  startCapture 1 ++ waitingRead 1 ++ [.remove, .removed, .arrive 1 .cleanup]

/-- The read waits for ever: its cleanup has been refused. -/
theorem unplugged_strands_read : ¬ Transition.Always step Unstranded init unplugged := by
  intro h
  have hstrand := h unplugged _ (List.prefix_refl _) rfl (by decide +kernel)
  exact absurd (hstrand ⟨11, 1, 4096⟩ (by decide +kernel)) (by decide +kernel)

/-- The handle is closed while a read is between its tests and the buffer's lock; the hub is removed
afterwards. -/
def overtaken : List Act :=
  startCapture 1 ++ [.arrive 1 (.read 11 4096 true), .proceed 0, .arrive 1 .cleanup, .proceed 1,
    .proceed 1, .proceed 1, .proceed 0, .remove, .removed]

/-- The read waits for ever as well, although its cleanup came in front of the removal. -/
theorem overtaken_strands_read : ¬ Transition.Always step Unstranded init overtaken := by
  intro h
  have hstrand := h overtaken _ (List.prefix_refl _) rfl (by decide +kernel)
  exact absurd (hstrand ⟨11, 1, 4096⟩ (by decide +kernel)) (by decide +kernel)

/-- The handle of one capture is closed while a read of it waits, and the cleanup cancels the read;
the hub is removed during a second capture, whose file object is still open. -/
def stillOpen : List Act :=
  startCapture 1 ++ waitingRead 1 ++ [.arrive 1 .cleanup, .proceed 0, .proceed 0, .proceed 0,
    .proceed 0, .arrive 1 .close, .proceed 0] ++ startCapture 2 ++ waitingRead 2 ++
    [.remove, .removed]

theorem no_read_stranded_stillOpen :
    (∃ s, Transition.run step init stillOpen = some s ∧ s.deleted = true ∧
      s.device.lePendIrp = [⟨11, 2, 4096⟩]) ∧
      Transition.Always step Unstranded init stillOpen := by
  have hrun : (Transition.run step init stillOpen).any fun s =>
      s.deleted && decide (s.device.lePendIrp = [⟨11, 2, 4096⟩]) := by
    decide +kernel
  obtain ⟨s, hs, hlast⟩ := (Option.any_eq_true _ _).mp hrun
  rw [Bool.and_eq_true, decide_eq_true_iff] at hlast
  have hintime : Transition.checkAlong step InTime init stillOpen = true := by decide +kernel
  exact ⟨⟨s, hs, hlast⟩,
    (no_read_stranded stillOpen).2 (Transition.along_of_checkAlong hintime)⟩

end Hub

end UsbPcap.Driver
