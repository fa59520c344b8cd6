import UsbPcap.Lib.Transition
import Mathlib.Logic.Hydra
import Mathlib.Tactic.Abel

/-!
# Requests under a remove lock

The dispatch routines of a driver hold the remove lock of their device while they use it. Each
passes its request down, completes it or puts it into a queue, and the routine that removes the
device waits for all who hold the lock. `Obeys` says of a routine by itself that it keeps to this.
If all routines do, then in every interleaving no request is completed twice, no device is used
behind its removal, and the removal ends.
-/

namespace RemoveLock

variable {σ κ : Type}

/-! ## Definitions -/

/-- What a routine does next. Calls have an answer, on which the rest may depend. -/
inductive Code (σ κ : Type)
  | ret
  | acquire (granted refused : Code σ κ)
  | release (next : Code σ κ)
  | releaseAndWait (next : Code σ κ)
  /-- The routine uses its device. -/
  | use (what : κ) (next : σ → Code σ κ)
  /-- The routine takes the device apart. -/
  | tearDown (what : κ) (next : Code σ κ)
  | delete (next : Code σ κ)
  /-- A child acquires the lock, and the acquisition is not checked. -/
  | attach (child next : Code σ κ)
  | complete (status : σ) (next : Code σ κ)
  | pend (next : Code σ κ)
  | call (next : σ → Code σ κ)
  | callWith (completion next : σ → Code σ κ)
  | callAndWait (next : σ → Code σ κ)

/-- Where a request is. `owned` says whether it is still the routine's. -/
inductive Stage (σ κ : Type)
  | running (owned : Bool) (code : Code σ κ)
  | draining (owned : Bool) (code : Code σ κ)
  | waiting (next : σ → Code σ κ)
  | below (completion : Option (σ → Code σ κ))

/-- A request that is being worked on. -/
structure Task (σ κ : Type) where
  irp : ℕ
  pnp : Bool
  stage : Stage σ κ

/-- What the routines of a device share. `drained` says that the wait for the holders is over. -/
structure Lock where
  count : ℕ
  removing : Bool
  drained : Bool
  deleted : Bool
  completed : List ℕ
  queued : List ℕ
  fault : Bool

/-- The task runs on. -/
def Task.run (t : Task σ κ) (owned : Bool) (code : Code σ κ) : Task σ κ :=
  { t with stage := .running owned code }

/-- One step of a task. A fault is a request that is lost or not the routine's, a device that is
used behind its removal or taken apart in front of it, a lock that is released and not held, and a
call without a next device. -/
def Task.step (hasNext : Bool) (s : Lock) (answer : σ) (t : Task σ κ) :
    Option (Lock × List (Task σ κ)) :=
  match t.stage with
  | .running owned .ret => some ({ s with fault := s.fault || owned }, [])
  | .running owned (.acquire granted refused) =>
    if s.removing then some (s, [t.run owned refused])
    else some ({ s with count := s.count + 1 }, [t.run owned granted])
  | .running owned (.release next) =>
    some ({ s with count := s.count - 1, fault := s.fault || s.count == 0 }, [t.run owned next])
  | .running owned (.releaseAndWait next) =>
    some ({ s with
      count := s.count - 1
      removing := true
      fault := s.fault || s.count == 0 || s.removing }, [{ t with stage := .draining owned next }])
  | .draining owned next =>
    if s.count = 0 then some ({ s with drained := true }, [t.run owned next]) else none
  | .running owned (.use _ next) =>
    some ({ s with fault := s.fault || s.drained }, [t.run owned (next answer)])
  | .running owned (.tearDown _ next) =>
    some ({ s with fault := s.fault || !s.drained }, [t.run owned next])
  | .running owned (.delete next) =>
    some ({ s with deleted := true, fault := s.fault || !s.drained || s.deleted },
      [t.run owned next])
  | .running owned (.attach child next) =>
    some ({ s with count := if s.removing then s.count else s.count + 1 },
      [t.run owned next, ⟨t.irp, false, .running false child⟩])
  | .running owned (.complete _ next) =>
    some ({ s with completed := s.completed ++ [t.irp], fault := s.fault || !owned },
      [t.run false next])
  | .running owned (.pend next) =>
    some ({ s with queued := s.queued ++ [t.irp], fault := s.fault || !owned }, [t.run false next])
  | .running owned (.call next) =>
    some ({ s with fault := s.fault || !owned || !hasNext },
      [t.run false (next answer), { t with stage := .below none }])
  | .running owned (.callWith completion next) =>
    some ({ s with fault := s.fault || !owned || !hasNext },
      [t.run false (next answer), { t with stage := .below (some completion) }])
  | .running owned (.callAndWait next) =>
    some ({ s with fault := s.fault || !owned || !hasNext }, [{ t with stage := .waiting next }])
  | .waiting next => some (s, [t.run true (next answer)])
  | .below none => some ({ s with completed := s.completed ++ [t.irp] }, [])
  | .below (some completion) => some (s, [t.run true (completion answer)])

/-- A request as it arrives. -/
structure Request (σ κ : Type) where
  irp : ℕ
  pnp : Bool
  removal : Bool
  owned : Bool
  code : Code σ κ

/-- A device with the requests that are on their way. `sent` says that the removal has arrived. -/
structure System (σ κ : Type) where
  lock : Lock
  tasks : List (Task σ κ)
  sent : Bool
  arrived : List ℕ

/-- A request arrives, a task makes a step, or a queued request is completed. -/
inductive Act (σ κ : Type)
  | arrive (r : Request σ κ)
  | run (i : ℕ) (answer : σ)
  | serve (j : ℕ)

namespace System

/-- A device with nothing on its way, whose lock is held `reserve` times for the removal. -/
def init (reserve : ℕ) : System σ κ where
  lock :=
    { count := reserve, removing := false, drained := false, deleted := false, completed := [],
      queued := [], fault := false }
  tasks := []
  sent := false
  arrived := []

/-- One step. Requests of plug and play come one after the other, and the removal is the last. -/
def step (hasNext : Bool) (s : System σ κ) : Act σ κ → Option (System σ κ)
  | .arrive r =>
    if r.pnp = true ∧ (s.sent = true ∨ s.tasks.any Task.pnp = true) then none
    else
      some { s with
        tasks := s.tasks ++ [⟨r.irp, r.pnp, .running r.owned r.code⟩]
        sent := s.sent || r.removal
        arrived := s.arrived ++ if r.owned then [r.irp] else [] }
  | .run i answer =>
    match s.tasks[i]? with
    | none => none
    | some t =>
      (t.step hasNext s.lock answer).map fun result =>
        { s with lock := result.1, tasks := s.tasks.take i ++ result.2 ++ s.tasks.drop (i + 1) }
  | .serve j =>
    match s.lock.queued[j]? with
    | none => none
    | some irp =>
      some { s with
        lock := { s.lock with
          queued := s.lock.queued.eraseIdx j, completed := s.lock.completed ++ [irp] } }

end System

/-- How a routine holds the lock: so and so often, waiting for the others, or as the last one. -/
inductive Hold
  | units (n : ℕ)
  | draining
  | alone
deriving DecidableEq

/-- Whether a routine may attach children or is to remove the device. -/
inductive Role
  | plain
  | attaching
  | removing
deriving DecidableEq

/-- The routine keeps to the protocol from here on. -/
inductive Obeys (hasNext : Bool) : Code σ κ → Hold → Bool → Role → Prop
  | ret {hold : Hold} {role : Role} (holds : hold = .units 0 ∨ hold = .alone)
      (done : role ≠ .removing) : Obeys hasNext .ret hold false role
  | acquire {granted refused : Code σ κ} {n : ℕ} {owned : Bool} {role : Role}
      (left : Obeys hasNext granted (.units (n + 1)) owned role)
      (right : role ≠ .removing → Obeys hasNext refused (.units n) owned role) :
      Obeys hasNext (.acquire granted refused) (.units n) owned role
  | release {next : Code σ κ} {n : ℕ} {owned : Bool} {role : Role}
      (rest : Obeys hasNext next (.units n) owned role) :
      Obeys hasNext (.release next) (.units (n + 1)) owned role
  | releaseAndWait {next : Code σ κ} {owned : Bool}
      (rest : Obeys hasNext next .alone owned .removing) :
      Obeys hasNext (.releaseAndWait next) (.units 1) owned .removing
  | use {what : κ} {next : σ → Code σ κ} {n : ℕ} {owned : Bool} {role : Role}
      (rest : ∀ answer, Obeys hasNext (next answer) (.units (n + 1)) owned role) :
      Obeys hasNext (.use what next) (.units (n + 1)) owned role
  | tearDown {what : κ} {next : Code σ κ} {owned : Bool} {role : Role}
      (rest : Obeys hasNext next .alone owned role) :
      Obeys hasNext (.tearDown what next) .alone owned role
  | delete {next : Code σ κ} {owned : Bool} (rest : Obeys hasNext next .alone owned .plain) :
      Obeys hasNext (.delete next) .alone owned .removing
  | attach {child next : Code σ κ} {n : ℕ} {owned : Bool}
      (left : Obeys hasNext child (.units 1) false .plain)
      (rest : Obeys hasNext next (.units (n + 1)) owned .attaching) :
      Obeys hasNext (.attach child next) (.units (n + 1)) owned .attaching
  | complete {status : σ} {next : Code σ κ} {hold : Hold} {role : Role}
      (rest : Obeys hasNext next hold false role) :
      Obeys hasNext (.complete status next) hold true role
  | pend {next : Code σ κ} {hold : Hold} {role : Role} (rest : Obeys hasNext next hold false role) :
      Obeys hasNext (.pend next) hold true role
  | call {next : σ → Code σ κ} {hold : Hold} {role : Role} (device : hasNext = true)
      (rest : ∀ answer, Obeys hasNext (next answer) hold false role) :
      Obeys hasNext (.call next) hold true role
  | callWith {completion next : σ → Code σ κ} {m n : ℕ} {role : Role} (device : hasNext = true)
      (left : ∀ answer, Obeys hasNext (completion answer) (.units m) true .plain)
      (rest : ∀ answer, Obeys hasNext (next answer) (.units n) false role) :
      Obeys hasNext (.callWith completion next) (.units (m + n)) true role
  | callAndWait {next : σ → Code σ κ} {hold : Hold} {role : Role} (device : hasNext = true)
      (rest : ∀ answer, Obeys hasNext (next answer) hold true role) :
      Obeys hasNext (.callAndWait next) hold true role

/-- The request keeps to the protocol; only a request of plug and play may attach children or remove
the device, and a removal does. -/
def Request.Obeys (hasNext : Bool) (reserve : ℕ) (r : Request σ κ) : Prop :=
  ∃ role, RemoveLock.Obeys hasNext r.code (.units (if r.removal then reserve else 0)) r.owned role ∧
    (role = .removing ↔ r.removal = true) ∧ (role ≠ .plain → r.pnp = true)

/-- Every request that arrives keeps to the protocol. -/
def Act.Obeys (hasNext : Bool) (reserve : ℕ) : Act σ κ → Prop
  | .arrive r => r.Obeys hasNext reserve
  | .run _ _ => True
  | .serve _ => True

/-- The request that a task answers for. -/
def Task.tokens (t : Task σ κ) : Multiset ℕ :=
  match t.stage with
  | .running owned _ => if owned then {t.irp} else 0
  | .draining owned _ => if owned then {t.irp} else 0
  | .waiting _ => {t.irp}
  | .below _ => {t.irp}

/-- Nothing is on its way any more: every request is completed or queued, the lock is free, and the
device is deleted exactly if its removal has arrived. -/
structure System.Settled (reserve : ℕ) (s : System σ κ) : Prop where
  tasks : s.tasks = []
  answered : (s.lock.completed + s.lock.queued : Multiset ℕ) = s.arrived
  count : s.lock.count = if s.sent then 0 else reserve
  deleted : s.lock.deleted = s.sent

/-- Whatever step is made next, and there is one, `P` is reached in the end. -/
inductive System.Inevitable (hasNext : Bool) (P : System σ κ → Prop) : System σ κ → Prop
  | here {s : System σ κ} (holds : P s) : Inevitable hasNext P s
  | next {s : System σ κ} (able : ∃ i answer t, s.step hasNext (.run i answer) = some t)
      (all : ∀ i answer t, s.step hasNext (.run i answer) = some t → Inevitable hasNext P t) :
      Inevitable hasNext P s

/-! ## What a task holds -/

/-- What a task holds and what it may do. -/
structure Share where
  hold : Hold
  role : Role

/-- How often the lock is held. -/
def Hold.count : Hold → ℕ
  | .units n => n
  | .draining => 0
  | .alone => 0

/-- How often a hold of `n` units holds the lock. -/
@[simp]
theorem Hold.count_units (n : ℕ) : (Hold.units n).count = n := rfl

/-- The task keeps to the protocol with this share. -/
inductive Fits (hasNext : Bool) : Task σ κ → Share → Prop
  | running {irp : ℕ} {pnp owned : Bool} {code : Code σ κ} {hold : Hold} {role : Role}
      (obeys : Obeys hasNext code hold owned role) (settled : hold ≠ .draining)
      (special : role ≠ .plain → pnp = true) :
      Fits hasNext ⟨irp, pnp, .running owned code⟩ ⟨hold, role⟩
  | draining {irp : ℕ} {pnp owned : Bool} {code : Code σ κ}
      (obeys : Obeys hasNext code .alone owned .removing) (special : pnp = true) :
      Fits hasNext ⟨irp, pnp, .draining owned code⟩ ⟨.draining, .removing⟩
  | waiting {irp : ℕ} {pnp : Bool} {next : σ → Code σ κ} {hold : Hold} {role : Role}
      (obeys : ∀ answer, Obeys hasNext (next answer) hold true role) (settled : hold ≠ .draining)
      (special : role ≠ .plain → pnp = true) :
      Fits hasNext ⟨irp, pnp, .waiting next⟩ ⟨hold, role⟩
  | below {irp : ℕ} {pnp : Bool} : Fits hasNext ⟨irp, pnp, .below none⟩ ⟨.units 0, .plain⟩
  | completion {irp n : ℕ} {pnp : Bool} {completion : σ → Code σ κ}
      (obeys : ∀ answer, Obeys hasNext (completion answer) (.units n) true .plain) :
      Fits hasNext ⟨irp, pnp, .below (some completion)⟩ ⟨.units n, .plain⟩

/-- The share goes with the state of the lock. -/
structure Share.Ok (s : Lock) (x : Share) : Prop where
  draining : x.hold = .draining → s.removing = true
  alone : x.hold = .alone → s.drained = true
  special : x.role ≠ .plain → s.removing = true → ∀ n, x.hold ≠ .units n
  due : x.role = .removing → s.deleted = false

/-- Nothing has gone wrong, and only a free lock is drained. -/
structure Lock.Ok (s : Lock) : Prop where
  fault : s.fault = false
  drained : s.drained = true → s.removing = true ∧ s.count = 0
  deleted : s.deleted = true → s.drained = true

/-- What a step of a task with the share `x` does to the lock, and the shares it leaves. -/
structure Moved (s s' : Lock) (x : Share) (xs : List Share) : Prop where
  ok : s'.Ok
  each : ∀ y ∈ xs, y.Ok s'
  units : s'.count + x.hold.count = s.count + (xs.map (·.hold.count)).sum
  sole : xs.countP (·.role ≠ .plain) ≤ [x].countP (·.role ≠ .plain)
  removing : s.removing = true → s'.removing = true
  drained : s.drained = true → s'.drained = true
  changed : x.role = .removing ∨ s'.removing = s.removing ∧ s'.deleted = s.deleted
  roles : ∀ y ∈ xs, y.role = .removing → x.role = .removing
  due : x.role = .removing → s'.deleted = true ∨ .removing ∈ xs.map Share.role

section Moves

variable {s s' : Lock} {x y : Share} {n : ℕ} {role : Role}

/-- Nothing changes but the lists of requests, and the share stays. -/
theorem Moved.same (hs : s.Ok) (hx : x.Ok s) (hcount : s'.count = s.count)
    (hremoving : s'.removing = s.removing) (hdrained : s'.drained = s.drained)
    (hdeleted : s'.deleted = s.deleted) (hfault : s'.fault = false) : Moved s s' x [x] := by
  constructor <;> grind [Lock.Ok, Share.Ok, Hold.count]

/-- The share is divided with a task that may do nothing special. -/
theorem Moved.divide (hs : s.Ok) (hy : y.Ok s) (hhold : y.hold.count + n = x.hold.count)
    (hrole : y.role = x.role) (hcount : s'.count = s.count) (hremoving : s'.removing = s.removing)
    (hdrained : s'.drained = s.drained) (hdeleted : s'.deleted = s.deleted)
    (hfault : s'.fault = false) : Moved s s' x [y, ⟨.units n, .plain⟩] := by
  constructor <;> grind [Lock.Ok, Share.Ok, Hold.count]

/-- A task that holds nothing is over. -/
theorem Moved.over (hs : s.Ok) (hhold : x.hold.count = 0) (hrole : x.role ≠ .removing)
    (hcount : s'.count = s.count) (hremoving : s'.removing = s.removing)
    (hdrained : s'.drained = s.drained) (hdeleted : s'.deleted = s.deleted)
    (hfault : s'.fault = false) : Moved s s' x [] := by
  constructor <;> grind [Lock.Ok]

/-- Taking the lock once more, which the removal has not closed. -/
theorem Moved.acquired (hs : s.Ok) (hx : Share.Ok s ⟨.units n, role⟩) (hfree : s.removing = false) :
    Moved s { s with count := s.count + 1 } ⟨.units n, role⟩ [⟨.units (n + 1), role⟩] := by
  constructor <;> grind [Lock.Ok, Share.Ok, Hold.count]

/-- Giving it back once. -/
theorem Moved.released (hs : s.Ok) (hx : Share.Ok s ⟨.units (n + 1), role⟩)
    (hle : n + 1 ≤ s.count) :
    Moved s { s with count := s.count - 1, fault := s.fault || s.count == 0 }
      ⟨.units (n + 1), role⟩ [⟨.units n, role⟩] := by
  have hcount : (s.count == 0) = false := beq_eq_false_iff_ne.mpr (by omega)
  rw [hcount, Bool.or_false]
  constructor <;> grind [Lock.Ok, Share.Ok, Hold.count]

/-- The removal lets nobody in any more and waits for those who are in. -/
theorem Moved.closed (hs : s.Ok) (hx : Share.Ok s ⟨.units 1, .removing⟩) (hle : 1 ≤ s.count) :
    Moved s { s with
        count := s.count - 1
        removing := true
        fault := s.fault || s.count == 0 || s.removing }
      ⟨.units 1, .removing⟩ [⟨.draining, .removing⟩] := by
  have hcount : (s.count == 0) = false := beq_eq_false_iff_ne.mpr (by omega)
  have hfree : s.removing = false := Bool.eq_false_iff.mpr fun h =>
    hx.special nofun h 1 rfl
  rw [hcount, hfree, Bool.or_false, Bool.or_false]
  constructor <;> grind [Lock.Ok, Share.Ok, Hold.count]

/-- Nobody is in any more. -/
theorem Moved.emptied (hs : s.Ok) (hx : Share.Ok s ⟨.draining, .removing⟩) (hcount : s.count = 0) :
    Moved s { s with drained := true } ⟨.draining, .removing⟩ [⟨.alone, .removing⟩] := by
  constructor <;> grind [Lock.Ok, Share.Ok, Hold.count]

/-- The removal, once nobody else holds the lock. -/
theorem Moved.deletes (hs : s.Ok) (hx : Share.Ok s ⟨.alone, .removing⟩) :
    Moved s { s with deleted := true, fault := s.fault || !s.drained || s.deleted }
      ⟨.alone, .removing⟩ [⟨.alone, .plain⟩] := by
  rw [hx.alone rfl, hx.due rfl, Bool.not_true, Bool.or_false, Bool.or_false]
  constructor <;> grind [Lock.Ok, Share.Ok, Hold.count]

/-- The removal has not begun while a task that attaches holds the lock. -/
theorem Moved.attached (hs : s.Ok) (hx : Share.Ok s ⟨.units n, .attaching⟩) :
    Moved s { s with count := if s.removing then s.count else s.count + 1 }
      ⟨.units n, .attaching⟩ [⟨.units n, .attaching⟩, ⟨.units 1, .plain⟩] := by
  have hfree : ¬ s.removing = true := fun h => hx.special nofun h n rfl
  rw [if_neg hfree]
  constructor <;> grind [Lock.Ok, Share.Ok, Hold.count]

end Moves

/-- What a step of a task does to the lock and to the task's own share of it. -/
theorem Task.step_spec {hasNext : Bool} {s s' : Lock} {answer : σ} {t : Task σ κ} {x : Share}
    {ts : List (Task σ κ)} (ht : Fits hasNext t x) (hs : s.Ok) (hx : x.Ok s)
    (hle : x.hold.count ≤ s.count) (h : t.step hasNext s answer = some (s', ts)) :
    ∃ xs, List.Forall₂ (Fits hasNext) ts xs ∧ Moved s s' x xs := by
  have hfault := hs.fault
  cases ht with
  | @running irp pnp owned code hold role obeys settled special =>
    cases obeys with
    | ret holds done =>
      obtain ⟨rfl, rfl⟩ := Prod.mk.inj (Option.some.inj h)
      have hnone : hold.count = 0 := by
        rcases holds with rfl | rfl
        · rfl
        · rfl
      exact ⟨[], .nil, .over hs hnone done rfl rfl rfl rfl (by simp [hfault])⟩
    | @acquire granted refused n _ _ left right =>
      simp only [Task.step] at h
      split at h
      · -- refused: the removal has begun, and this is not it
        rename_i hremoving
        obtain ⟨rfl, rfl⟩ := Prod.mk.inj (Option.some.inj h)
        have hrole : role ≠ .removing := by
          rintro rfl
          exact hx.special nofun hremoving n rfl
        exact ⟨_, .cons (.running (right hrole) nofun special) .nil,
          .same hs hx rfl rfl rfl rfl hfault⟩
      · rename_i hfree
        obtain ⟨rfl, rfl⟩ := Prod.mk.inj (Option.some.inj h)
        exact ⟨_, .cons (.running left nofun special) .nil,
          .acquired hs hx (Bool.eq_false_iff.mpr hfree)⟩
    | release rest =>
      obtain ⟨rfl, rfl⟩ := Prod.mk.inj (Option.some.inj h)
      exact ⟨_, .cons (.running rest nofun special) .nil, .released hs hx hle⟩
    | releaseAndWait rest =>
      obtain ⟨rfl, rfl⟩ := Prod.mk.inj (Option.some.inj h)
      exact ⟨_, .cons (.draining rest (special nofun)) .nil, .closed hs hx hle⟩
    | @use what next n _ _ rest =>
      obtain ⟨rfl, rfl⟩ := Prod.mk.inj (Option.some.inj h)
      -- who holds the lock keeps it from being drained
      have hdrained : s.drained = false := Bool.eq_false_iff.mpr fun h => by
        have hzero := (hs.drained h).2
        change n + 1 ≤ s.count at hle
        omega
      exact ⟨_, .cons (.running (rest _) settled special) .nil,
        .same hs hx rfl rfl rfl rfl (by simp [hfault, hdrained])⟩
    | tearDown rest =>
      obtain ⟨rfl, rfl⟩ := Prod.mk.inj (Option.some.inj h)
      exact ⟨_, .cons (.running rest settled special) .nil,
        .same hs hx rfl rfl rfl rfl (by simp [hfault, hx.alone rfl])⟩
    | delete rest =>
      obtain ⟨rfl, rfl⟩ := Prod.mk.inj (Option.some.inj h)
      exact ⟨_, .cons (.running rest settled nofun) .nil, .deletes hs hx⟩
    | attach left rest =>
      obtain ⟨rfl, rfl⟩ := Prod.mk.inj (Option.some.inj h)
      exact ⟨_, .cons (.running rest settled special) (.cons (.running left nofun nofun) .nil),
        .attached hs hx⟩
    | complete rest =>
      obtain ⟨rfl, rfl⟩ := Prod.mk.inj (Option.some.inj h)
      exact ⟨_, .cons (.running rest settled special) .nil,
        .same hs hx rfl rfl rfl rfl (by simp [hfault])⟩
    | pend rest =>
      obtain ⟨rfl, rfl⟩ := Prod.mk.inj (Option.some.inj h)
      exact ⟨_, .cons (.running rest settled special) .nil,
        .same hs hx rfl rfl rfl rfl (by simp [hfault])⟩
    | call device rest =>
      obtain ⟨rfl, rfl⟩ := Prod.mk.inj (Option.some.inj h)
      exact ⟨_, .cons (.running (rest _) settled special) (.cons .below .nil),
        .divide hs hx rfl rfl rfl rfl rfl rfl (by simp [hfault, device])⟩
    | @callWith completion next m n _ device left rest =>
      obtain ⟨rfl, rfl⟩ := Prod.mk.inj (Option.some.inj h)
      have hrest : Share.Ok s ⟨.units n, role⟩ :=
        ⟨nofun, nofun, fun hr hremoving => absurd rfl (hx.special hr hremoving _), hx.due⟩
      exact ⟨_, .cons (.running (rest _) nofun special) (.cons (.completion left) .nil),
        .divide hs hrest (Nat.add_comm n m) rfl rfl rfl rfl rfl (by simp [hfault, device])⟩
    | callAndWait device rest =>
      obtain ⟨rfl, rfl⟩ := Prod.mk.inj (Option.some.inj h)
      exact ⟨_, .cons (.waiting rest settled special) .nil,
        .same hs hx rfl rfl rfl rfl (by simp [hfault, device])⟩
  | draining obeys special =>
    simp only [Task.step] at h
    split at h
    · rename_i hcount
      obtain ⟨rfl, rfl⟩ := Prod.mk.inj (Option.some.inj h)
      exact ⟨_, .cons (.running obeys nofun fun _ => special) .nil, .emptied hs hx hcount⟩
    · cases h
  | waiting obeys settled special =>
    obtain ⟨rfl, rfl⟩ := Prod.mk.inj (Option.some.inj h)
    exact ⟨_, .cons (.running (obeys _) settled special) .nil, .same hs hx rfl rfl rfl rfl hfault⟩
  | below =>
    obtain ⟨rfl, rfl⟩ := Prod.mk.inj (Option.some.inj h)
    exact ⟨[], .nil, .over hs rfl nofun rfl rfl rfl rfl hfault⟩
  | completion obeys =>
    obtain ⟨rfl, rfl⟩ := Prod.mk.inj (Option.some.inj h)
    exact ⟨_, .cons (.running (obeys _) nofun nofun) .nil, .same hs hx rfl rfl rfl rfl hfault⟩

/-! ## The invariant -/

/-- Every task has its share of the lock, and at most one of them may do something special. -/
structure System.Inv (hasNext : Bool) (reserve : ℕ) (s : System σ κ) (shares : List Share) :
    Prop where
  fits : List.Forall₂ (Fits hasNext) s.tasks shares
  ok : s.lock.Ok
  each : ∀ x ∈ shares, x.Ok s.lock
  count : s.lock.count = (shares.map (·.hold.count)).sum + if s.sent then 0 else reserve
  sole : shares.countP (·.role ≠ .plain) ≤ 1
  sent : s.lock.removing = true → s.sent = true
  due : s.sent = true ↔ s.lock.deleted = true ∨ .removing ∈ shares.map Share.role

/-- At the start nobody holds the lock. -/
theorem System.inv_init (hasNext : Bool) (reserve : ℕ) :
    (init reserve : System σ κ).Inv hasNext reserve [] where
  fits := .nil
  ok := ⟨rfl, nofun, nofun⟩
  each := nofun
  count := (Nat.zero_add _).symm
  sole := Nat.zero_le 1
  sent := nofun
  due := ⟨nofun, fun h => h.elim nofun nofun⟩

/-- The others do not notice. -/
theorem Moved.others {s s' : Lock} {x y : Share} {xs : List Share} (h : Moved s s' x xs)
    (hy : y.Ok s) (hplain : x.role = .removing → y.role = .plain) : y.Ok s' where
  draining hhold := h.removing (hy.draining hhold)
  alone hhold := h.drained (hy.alone hhold)
  special hrole hremoving := by
    rcases h.changed with hx | ⟨hsame, -⟩
    · exact absurd (hplain hx) hrole
    · exact hy.special hrole (hsame ▸ hremoving)
  due hrole := by
    rcases h.changed with hx | ⟨-, hsame⟩
    · rw [hplain hx] at hrole
      cases hrole
    · exact hsame.trans (hy.due hrole)

/-- Two lists that match around an element of the first. -/
theorem forall₂_append_cons {α β : Type} {R : α → β → Prop} {front back : List α} {a : α}
    {bs : List β} (h : List.Forall₂ R (front ++ a :: back) bs) :
    ∃ fs b gs, bs = fs ++ b :: gs ∧ List.Forall₂ R front fs ∧ R a b ∧ List.Forall₂ R back gs := by
  induction front generalizing bs with
  | nil =>
    obtain ⟨b, gs, hab, hback, rfl⟩ := List.forall₂_cons_left_iff.mp h
    exact ⟨[], b, gs, rfl, .nil, hab, hback⟩
  | cons c front ih =>
    obtain ⟨d, ds, hcd, hrest, rfl⟩ := List.forall₂_cons_left_iff.mp h
    obtain ⟨fs, b, gs, rfl, hfront, hab, hback⟩ := ih hrest
    exact ⟨d :: fs, b, gs, rfl, .cons hcd hfront, hab, hback⟩

/-- The invariant goes through a step of any task. -/
theorem System.Inv.run {hasNext : Bool} {reserve : ℕ} {s : System σ κ} {shares : List Share}
    (h : s.Inv hasNext reserve shares) {front back ts : List (Task σ κ)} {t : Task σ κ}
    (htasks : s.tasks = front ++ t :: back) {answer : σ} {lock : Lock}
    (hstep : t.step hasNext s.lock answer = some (lock, ts)) :
    ∃ shares, Inv hasNext reserve { s with lock := lock, tasks := front ++ ts ++ back } shares := by
  obtain ⟨hfits, hok, heach, hcount, hsole, hsent, hdue⟩ := h
  rw [htasks] at hfits
  obtain ⟨fs, x, gs, rfl, hfront, hx, hback⟩ := forall₂_append_cons hfits
  simp only [List.map_append, List.map_cons, List.sum_append, List.sum_cons] at hcount
  rw [List.countP_append, List.countP_cons] at hsole
  have hxok : x.Ok s.lock := heach x (List.mem_append_right _ List.mem_cons_self)
  obtain ⟨xs, hts, hmoved⟩ := Task.step_spec hx hok hxok (by omega) hstep
  have hsent' : x.role = .removing → s.sent = true := fun hrole =>
    hdue.mpr (Or.inr (List.mem_map.mpr ⟨x, List.mem_append_right _ List.mem_cons_self, hrole⟩))
  -- if the task removes the device, the others are plain
  have hothers : ∀ y, y ∈ fs ∨ y ∈ gs → y.Ok lock := by
    intro y hy
    refine hmoved.others (heach y ?_) fun hrole => ?_
    · exact List.mem_append.mpr (hy.imp_right (List.mem_cons_of_mem x))
    · rw [if_pos (by rw [hrole]; decide)] at hsole
      have hzero : (fs ++ gs).countP (·.role ≠ .plain) = 0 := by
        rw [List.countP_append]
        omega
      have hplain := List.countP_eq_zero.mp hzero y (List.mem_append.mpr hy)
      simpa using hplain
  have hunits := hmoved.units
  have hsole' := hmoved.sole
  refine ⟨fs ++ xs ++ gs, ?_, hmoved.ok, ?_, ?_, ?_, ?_, ?_, ?_⟩
  · exact List.rel_append (List.rel_append hfront hts) hback
  · intro y hy
    rcases List.mem_append.mp hy with hy | hy
    · rcases List.mem_append.mp hy with hy | hy
      · exact hothers y (Or.inl hy)
      · exact hmoved.each y hy
    · exact hothers y (Or.inr hy)
  · simp only [List.map_append, List.sum_append]
    omega
  · rw [List.countP_append, List.countP_append]
    rw [List.countP_cons, List.countP_nil] at hsole'
    omega
  · intro hremoving
    rcases hmoved.changed with hrole | ⟨hsame, -⟩
    · exact hsent' hrole
    · exact hsent (hsame ▸ hremoving)
  · intro h
    rcases hdue.mp h with hdeleted | hmem
    · left
      rcases hmoved.changed with hrole | ⟨-, hsame⟩
      · rw [hxok.due hrole] at hdeleted
        cases hdeleted
      · exact hsame.trans hdeleted
    · rw [List.map_append, List.map_cons, List.mem_append, List.mem_cons] at hmem
      rw [List.map_append, List.map_append, List.mem_append, List.mem_append]
      rcases hmem with hmem | hrole | hmem
      · exact Or.inr (Or.inl (Or.inl hmem))
      · exact (hmoved.due hrole.symm).imp_right fun hmem => Or.inl (Or.inr hmem)
      · exact Or.inr (Or.inr hmem)
  · rintro (hdeleted | hmem)
    · rcases hmoved.changed with hrole | ⟨-, hsame⟩
      · exact hsent' hrole
      · exact hdue.mpr (Or.inl (hsame ▸ hdeleted))
    · obtain ⟨y, hy, hrole⟩ := List.mem_map.mp hmem
      rcases List.mem_append.mp hy with hy | hy
      · rcases List.mem_append.mp hy with hy | hy
        · exact hdue.mpr (Or.inr (List.mem_map.mpr ⟨y, List.mem_append_left _ hy, hrole⟩))
        · exact hsent' (hmoved.roles y hy hrole)
      · exact hdue.mpr (Or.inr (List.mem_map.mpr
          ⟨y, List.mem_append_right _ (List.mem_cons_of_mem x hy), hrole⟩))

/-- Only a request of the plug-and-play manager removes. -/
theorem Fits.pnp {hasNext : Bool} {t : Task σ κ} {x : Share} (h : Fits hasNext t x)
    (hrole : x.role ≠ .plain) : t.pnp = true := by
  cases h with
  | running _ _ special => exact special hrole
  | draining _ special => exact special
  | waiting _ _ special => exact special hrole
  | below => exact absurd rfl hrole
  | completion _ => exact absurd rfl hrole

/-- Without a request of plug and play on its way, nobody does anything special. -/
theorem countP_of_pnp {hasNext : Bool} {ts : List (Task σ κ)} {xs : List Share}
    (h : List.Forall₂ (Fits hasNext) ts xs) (hpnp : ts.any Task.pnp = false) :
    xs.countP (·.role ≠ .plain) = 0 := by
  induction h with
  | nil => rfl
  | @cons t x ts xs ht hts ih =>
    rw [List.any_cons, Bool.or_eq_false_iff] at hpnp
    have hplain : x.role = .plain := by
      by_contra hrole
      exact Bool.false_ne_true (hpnp.1.symm.trans (ht.pnp hrole))
    rw [List.countP_cons, ih hpnp.2, hplain]
    rfl

/-- A request brings its own share. -/
theorem System.Inv.arrive {hasNext : Bool} {reserve : ℕ} {s t : System σ κ} {shares : List Share}
    (h : s.Inv hasNext reserve shares) {r : Request σ κ} (hr : r.Obeys hasNext reserve)
    (hstep : s.step hasNext (.arrive r) = some t) : ∃ shares, t.Inv hasNext reserve shares := by
  obtain ⟨hfits, hok, heach, hcount, hsole, hsent, hdue⟩ := h
  obtain ⟨role, hobeys, hremoval, hspecial⟩ := hr
  simp only [step, Option.ite_none_left_eq_some, Option.some.injEq] at hstep
  obtain ⟨hguard, rfl⟩ := hstep
  -- a request of plug and play finds none on its way, and no removal
  have hfirst : role ≠ .plain → s.sent = false ∧ s.tasks.any Task.pnp = false := by
    intro hrole
    rw [not_and, not_or, Bool.not_eq_true, Bool.not_eq_true] at hguard
    exact hguard (hspecial hrole)
  have hsome (hrole : role = .removing) : role ≠ .plain := by
    rw [hrole]
    decide
  have hnew : Share.Ok s.lock ⟨.units (if r.removal then reserve else 0), role⟩ := by
    refine ⟨nofun, nofun, fun hrole hremoving => ?_, fun hrole => ?_⟩
    · rw [(hfirst hrole).1] at hsent
      exact absurd (hsent hremoving) Bool.false_ne_true
    · rw [(hfirst (hsome hrole)).1] at hdue
      exact Bool.eq_false_iff.mpr fun hdeleted => Bool.false_ne_true (hdue.mpr (Or.inl hdeleted))
  refine
    ⟨shares ++ [⟨.units (if r.removal then reserve else 0), role⟩], ?_, hok, ?_, ?_, ?_, ?_, ?_⟩
  · exact List.rel_append hfits (.cons (.running hobeys nofun hspecial) .nil)
  · intro y hy
    rcases List.mem_append.mp hy with hy | hy
    · exact heach y hy
    · exact List.mem_singleton.mp hy ▸ hnew
  · simp only [List.map_append, List.sum_append, List.map_cons, List.map_nil, List.sum_cons,
      List.sum_nil, Hold.count_units]
    cases hrem : r.removal with
    | false => simpa using hcount
    | true =>
      rw [(hfirst (hsome (hremoval.mpr hrem))).1] at hcount
      simpa using hcount
  · rw [List.countP_append]
    by_cases hrole : role = .plain
    · rw [hrole]
      exact hsole
    · rw [countP_of_pnp hfits (hfirst hrole).2, Nat.zero_add]
      exact List.countP_le_length
  · intro hremoving
    rw [Bool.or_eq_true]
    exact Or.inl (hsent hremoving)
  · have hboth : (s.sent || r.removal) = true ↔ s.sent = true ∨ role = .removing := by
      rw [Bool.or_eq_true, hremoval]
    refine hboth.trans ?_
    rw [hdue, List.map_append, List.mem_append, List.map_singleton, List.mem_singleton, or_assoc]
    exact or_congr Iff.rfl (or_congr Iff.rfl eq_comm)

/-- Serving a request later changes no share. -/
theorem System.Inv.serve {hasNext : Bool} {reserve : ℕ} {s t : System σ κ} {shares : List Share}
    (h : s.Inv hasNext reserve shares) {j : ℕ} (hstep : s.step hasNext (.serve j) = some t) :
    t.Inv hasNext reserve shares := by
  simp only [step] at hstep
  split at hstep
  · cases hstep
  · cases hstep
    exact ⟨h.fits, ⟨h.ok.fault, h.ok.drained, h.ok.deleted⟩,
      fun x hx => ⟨(h.each x hx).draining, (h.each x hx).alone, (h.each x hx).special,
        (h.each x hx).due⟩, h.count, h.sole, h.sent, h.due⟩

/-- A step of the task with number `i`. -/
theorem System.step_run {hasNext : Bool} {s t : System σ κ} {i : ℕ} {answer : σ}
    (h : s.step hasNext (.run i answer) = some t) :
    ∃ front task back lock ts, s.tasks = front ++ task :: back ∧
      task.step hasNext s.lock answer = some (lock, ts) ∧
      t = { s with lock := lock, tasks := front ++ ts ++ back } := by
  simp only [step] at h
  split at h
  · cases h
  · rename_i task htask
    obtain ⟨⟨lock, ts⟩, hstep, rfl⟩ := Option.map_eq_some_iff.mp h
    obtain ⟨hlt, rfl⟩ := List.getElem?_eq_some_iff.mp htask
    refine ⟨s.tasks.take i, _, s.tasks.drop (i + 1), lock, ts, ?_, hstep, rfl⟩
    rw [List.getElem_cons_drop, List.take_append_drop]

/-- Every step keeps the invariant. -/
theorem System.Inv.step {hasNext : Bool} {reserve : ℕ} {s t : System σ κ} {shares : List Share}
    (h : s.Inv hasNext reserve shares) {a : Act σ κ} (ha : a.Obeys hasNext reserve)
    (hstep : s.step hasNext a = some t) : ∃ shares, t.Inv hasNext reserve shares := by
  cases a with
  | arrive r => exact h.arrive ha hstep
  | run i answer =>
    obtain ⟨front, task, back, lock, ts, htasks, hlocal, rfl⟩ := step_run hstep
    exact h.run htasks hlocal
  | serve j => exact ⟨shares, h.serve hstep⟩

/-- The invariant holds along every run whose requests keep to the protocol. -/
theorem System.inv_run {hasNext : Bool} {reserve : ℕ} {as : List (Act σ κ)} {s : System σ κ}
    (has : ∀ a ∈ as, a.Obeys hasNext reserve)
    (h : Transition.run (System.step hasNext) (init reserve) as = some s) :
    ∃ shares, s.Inv hasNext reserve shares := by
  refine Transition.run_induction (P := fun as s => (∀ a ∈ as, a.Obeys hasNext reserve) →
    ∃ shares, s.Inv hasNext reserve shares) ?_ ?_ h has
  · exact fun _ => ⟨[], inv_init hasNext reserve⟩
  · intro as s a t _ ih hstep has
    obtain ⟨shares, hinv⟩ := ih fun b hb => has b (List.mem_append_left _ hb)
    exact hinv.step (has a (List.mem_append_right _ (List.mem_singleton_self a))) hstep

/-! ## No request is lost -/

/-- A task that runs has its request exactly while it owns it. -/
@[simp]
theorem Task.tokens_run (t : Task σ κ) (owned : Bool) (code : Code σ κ) :
    (t.run owned code).tokens = if owned then {t.irp} else 0 := rfl

/-- Where the requests are. -/
def System.whereabouts (s : System σ κ) : Multiset ℕ :=
  s.lock.completed + s.lock.queued + (s.tasks.map Task.tokens).sum

/-- So between two sections. -/
theorem Task.tokens_running (irp : ℕ) (pnp owned : Bool) (code : Code σ κ) :
    Task.tokens ⟨irp, pnp, .running owned code⟩ = if owned then {irp} else 0 := rfl

/-- So while it drains the lock. -/
theorem Task.tokens_draining (irp : ℕ) (pnp owned : Bool) (code : Code σ κ) :
    Task.tokens ⟨irp, pnp, .draining owned code⟩ = if owned then {irp} else 0 := rfl

/-- A task that waits for an answer has its request. -/
theorem Task.tokens_waiting (irp : ℕ) (pnp : Bool) (next : σ → Code σ κ) :
    Task.tokens ⟨irp, pnp, .waiting next⟩ = {irp} := rfl

/-- A request that is below is still the task's. -/
theorem Task.tokens_below (irp : ℕ) (pnp : Bool) (completion : Option (σ → Code σ κ)) :
    Task.tokens ⟨irp, pnp, .below completion⟩ = {irp} := rfl

/-- Without a fault, a step loses no request and answers none twice. -/
theorem Task.step_tokens {hasNext : Bool} {s s' : Lock} {answer : σ} {t : Task σ κ}
    {ts : List (Task σ κ)} (h : t.step hasNext s answer = some (s', ts))
    (hfault : s'.fault = false) :
    (s'.completed + s'.queued + (ts.map Task.tokens).sum : Multiset ℕ) =
      s.completed + s.queued + t.tokens := by
  obtain ⟨irp, pnp, stage⟩ := t
  have hadd (xs ys : List ℕ) : ((xs ++ ys : List ℕ) : Multiset ℕ) = xs + ys :=
    (Multiset.coe_add xs ys).symm
  cases stage with
  | running owned code =>
    cases code with
    | acquire granted refused =>
      simp only [step] at h
      split at h
      · obtain ⟨rfl, rfl⟩ := Prod.mk.inj (Option.some.inj h)
        simp [tokens_running]
      · obtain ⟨rfl, rfl⟩ := Prod.mk.inj (Option.some.inj h)
        simp [tokens_running]
    | complete status next =>
      -- without a fault the task owned the request, which is now completed
      obtain ⟨rfl, rfl⟩ := Prod.mk.inj (Option.some.inj h)
      obtain rfl : owned = true := by simp_all
      simp only [tokens_running, tokens_run, hadd, List.map_cons, List.map_nil, List.sum_cons,
        List.sum_nil, Bool.false_eq_true, if_false, if_true, add_zero, Multiset.coe_singleton]
      exact add_right_comm _ _ _
    | pend next =>
      -- without a fault the task owned the request, which is now queued
      obtain ⟨rfl, rfl⟩ := Prod.mk.inj (Option.some.inj h)
      obtain rfl : owned = true := by simp_all
      simp only [tokens_running, tokens_run, hadd, List.map_cons, List.map_nil, List.sum_cons,
        List.sum_nil, Bool.false_eq_true, if_false, if_true, add_zero, Multiset.coe_singleton]
      exact (add_assoc _ _ _).symm
    | _ =>
      -- all other steps hand the request from one task to another or keep it
      obtain ⟨rfl, rfl⟩ := Prod.mk.inj (Option.some.inj h)
      simp_all [tokens_running, tokens_draining, tokens_below, tokens_waiting]
  | draining owned code =>
    simp only [step] at h
    split at h
    · obtain ⟨rfl, rfl⟩ := Prod.mk.inj (Option.some.inj h)
      simp [tokens_draining]
    · cases h
  | waiting next =>
    obtain ⟨rfl, rfl⟩ := Prod.mk.inj (Option.some.inj h)
    simp [tokens_waiting]
  | below completion =>
    cases completion with
    | none =>
      -- the driver below completes the request itself
      obtain ⟨rfl, rfl⟩ := Prod.mk.inj (Option.some.inj h)
      rw [hadd, tokens_below, List.map_nil, List.sum_nil, add_zero, Multiset.coe_singleton]
      exact add_right_comm _ _ _
    | some completion =>
      obtain ⟨rfl, rfl⟩ := Prod.mk.inj (Option.some.inj h)
      simp [tokens_below]

/-- A step moves requests and loses none. -/
theorem System.whereabouts_step {hasNext : Bool} {s t : System σ κ} {a : Act σ κ}
    (hstep : s.step hasNext a = some t) (hfault : t.lock.fault = false)
    (h : s.whereabouts = s.arrived) : t.whereabouts = t.arrived := by
  unfold whereabouts at h ⊢
  cases a with
  | arrive r =>
    -- an arriving task brings the request it owns
    simp only [step, Option.ite_none_left_eq_some, Option.some.injEq] at hstep
    obtain ⟨-, rfl⟩ := hstep
    have htokens : Task.tokens ⟨r.irp, r.pnp, .running r.owned r.code⟩ =
        ((if r.owned then [r.irp] else [] : List ℕ) : Multiset ℕ) := by
      cases howned : r.owned with
      | false => rfl
      | true => rfl
    rw [List.map_append, List.sum_append, List.map_singleton, List.sum_singleton, htokens,
      ← add_assoc, h, Multiset.coe_add]
  | run i answer =>
    -- a task's step keeps the requests in its hands, in the queue and completed together
    obtain ⟨front, task, back, lock, ts, htasks, hlocal, rfl⟩ := step_run hstep
    have htokens := Task.step_tokens hlocal hfault
    rw [htasks] at h
    simp only [List.map_append, List.map_cons, List.sum_append, List.sum_cons] at h ⊢
    calc (lock.completed + lock.queued + ((front.map Task.tokens).sum + (ts.map Task.tokens).sum +
          (back.map Task.tokens).sum) : Multiset ℕ)
        = lock.completed + lock.queued + (ts.map Task.tokens).sum +
            ((front.map Task.tokens).sum + (back.map Task.tokens).sum) := by abel
      _ = s.lock.completed + s.lock.queued + task.tokens +
            ((front.map Task.tokens).sum + (back.map Task.tokens).sum) := by rw [htokens]
      _ = s.arrived := by
        rw [← h]
        abel
  | serve j =>
    -- a queued request is completed
    simp only [step] at hstep
    split at hstep
    · cases hstep
    · rename_i irp hirp
      cases hstep
      obtain ⟨hlt, rfl⟩ := List.getElem?_eq_some_iff.mp hirp
      have hqueued : (s.lock.queued : Multiset ℕ) =
          {s.lock.queued[j]} + (s.lock.queued.eraseIdx j : Multiset ℕ) :=
        (Multiset.coe_eq_coe.mpr (List.getElem_cons_eraseIdx_perm hlt)).symm
      rw [← h, hqueued, ← Multiset.coe_add, Multiset.coe_singleton]
      abel

/-! ## The removal ends -/

/-- A task that is not waiting for the others can make a step. -/
theorem Task.step_able (hasNext : Bool) (s : Lock) (answer : σ) (t : Task σ κ)
    (h : (∃ owned code, t.stage = .draining owned code) → s.count = 0) :
    ∃ result, t.step hasNext s answer = some result := by
  obtain ⟨irp, pnp, stage⟩ := t
  cases stage with
  | running owned code =>
    cases code with
    | acquire granted refused =>
      simp only [step]
      split
      · exact ⟨_, rfl⟩
      · exact ⟨_, rfl⟩
    | _ => exact ⟨_, rfl⟩
  | draining owned code =>
    simp only [step]
    rw [if_pos (h ⟨owned, code, rfl⟩)]
    exact ⟨_, rfl⟩
  | waiting next => exact ⟨_, rfl⟩
  | below completion =>
    cases completion with
    | none => exact ⟨_, rfl⟩
    | some completion => exact ⟨_, rfl⟩

/-- Tasks that wait for the others hold nothing. -/
theorem draining_of_stage {hasNext : Bool} {ts : List (Task σ κ)} {xs : List Share}
    (h : List.Forall₂ (Fits hasNext) ts xs)
    (hall : ∀ t ∈ ts, ∃ owned code, t.stage = .draining owned code) :
    (xs.map (·.hold.count)).sum = 0 ∧ ∀ x ∈ xs, x.hold = .draining := by
  induction h with
  | nil => exact ⟨rfl, nofun⟩
  | @cons t x ts xs ht hts ih =>
    obtain ⟨hsum, hrest⟩ := ih fun u hu => hall u (List.mem_cons_of_mem t hu)
    obtain ⟨owned, code, hstage⟩ := hall t List.mem_cons_self
    have hhold : x.hold = .draining := by
      cases ht with
      | draining => rfl
      | running => cases hstage
      | waiting => cases hstage
      | below => cases hstage
      | completion => cases hstage
    refine ⟨?_, fun y hy => ?_⟩
    · rw [List.map_cons, List.sum_cons, hsum, hhold]
      rfl
    · rcases List.mem_cons.mp hy with rfl | hy
      · exact hhold
      · exact hrest y hy

/-- Some task can make a step: if all wait for the others, nobody holds the lock. -/
theorem System.Inv.able {hasNext : Bool} {reserve : ℕ} {s : System σ κ} {shares : List Share}
    (h : s.Inv hasNext reserve shares) (hne : s.tasks ≠ []) (answer : σ) :
    ∃ i t, s.step hasNext (.run i answer) = some t := by
  suffices hable : ∃ task ∈ s.tasks, ∃ result, task.step hasNext s.lock answer = some result by
    obtain ⟨task, hmem, result, hresult⟩ := hable
    obtain ⟨i, hi, rfl⟩ := List.mem_iff_getElem.mp hmem
    refine ⟨i, Option.isSome_iff_exists.mp ?_⟩
    simp only [System.step, List.getElem?_eq_getElem hi, hresult]
    rfl
  by_cases hall : ∀ task ∈ s.tasks, ∃ owned code, task.stage = .draining owned code
  · obtain ⟨hsum, hdraining⟩ := draining_of_stage h.fits hall
    obtain ⟨task, hmem⟩ := List.exists_mem_of_ne_nil _ hne
    have hsent : s.sent = true := by
      have hshares : shares ≠ [] := fun hnil => hne (List.forall₂_nil_right_iff.mp (hnil ▸ h.fits))
      obtain ⟨x, hx⟩ := List.exists_mem_of_ne_nil _ hshares
      exact h.sent ((h.each x hx).draining (hdraining x hx))
    have hzero : s.lock.count = 0 := by
      rw [h.count, hsum, hsent]
      rfl
    exact ⟨task, hmem, Task.step_able hasNext s.lock answer task fun _ => hzero⟩
  · obtain ⟨task, hnot⟩ := not_forall.mp hall
    obtain ⟨hmem, hstage⟩ := Classical.not_imp.mp hnot
    exact ⟨task, hmem, Task.step_able hasNext s.lock answer task fun h => absurd h hstage⟩

/-- A task comes from a step of another. -/
def Task.Next (t' t : Task σ κ) : Prop :=
  ∃ (hasNext : Bool) (s : Lock) (answer : σ) (s' : Lock) (ts : List (Task σ κ)),
    t.step hasNext s answer = some (s', ts) ∧ t' ∈ ts

section Acc

variable {irp : ℕ} {pnp : Bool}

/-- A task ends when all tasks that its step leaves end. -/
theorem Task.acc_of_step {t : Task σ κ}
    (h : ∀ (hasNext : Bool) (s : Lock) (answer : σ) (s' : Lock) (ts : List (Task σ κ)),
      t.step hasNext s answer = some (s', ts) → ∀ t' ∈ ts, Acc Task.Next t') : Acc Task.Next t := by
  refine .intro _ ?_
  rintro t' ⟨hasNext, s, answer, s', ts, hstep, hmem⟩
  exact h hasNext s answer s' ts hstep t' hmem

/-- Draining the lock only puts the end off. -/
theorem Task.acc_draining {code : Code σ κ} {owned : Bool}
    (h : Acc Task.Next (⟨irp, pnp, .running owned code⟩ : Task σ κ)) :
    Acc Task.Next (⟨irp, pnp, .draining owned code⟩ : Task σ κ) := by
  refine acc_of_step fun _ s _ _ _ hstep t' hmem => ?_
  simp only [step] at hstep
  split at hstep
  · obtain ⟨rfl, rfl⟩ := Prod.mk.inj (Option.some.inj hstep)
    exact List.mem_singleton.mp hmem ▸ h
  · cases hstep

/-- A wait ends when every answer leads to an end. -/
theorem Task.acc_waiting {next : σ → Code σ κ}
    (h : ∀ answer, Acc Task.Next (⟨irp, pnp, .running true (next answer)⟩ : Task σ κ)) :
    Acc Task.Next (⟨irp, pnp, .waiting next⟩ : Task σ κ) := by
  refine acc_of_step fun _ _ answer _ _ hstep t' hmem => ?_
  obtain ⟨rfl, rfl⟩ := Prod.mk.inj (Option.some.inj hstep)
  exact List.mem_singleton.mp hmem ▸ h answer

/-- A request below ends when its completion routine does. -/
theorem Task.acc_below {completion : Option (σ → Code σ κ)}
    (h : ∀ code ∈ completion, ∀ answer,
      Acc Task.Next (⟨irp, pnp, .running true (code answer)⟩ : Task σ κ)) :
    Acc Task.Next (⟨irp, pnp, .below completion⟩ : Task σ κ) := by
  refine acc_of_step fun _ _ answer _ _ hstep t' hmem => ?_
  cases completion with
  | none =>
    obtain ⟨rfl, rfl⟩ := Prod.mk.inj (Option.some.inj hstep)
    exact absurd hmem List.not_mem_nil
  | some code =>
    obtain ⟨rfl, rfl⟩ := Prod.mk.inj (Option.some.inj hstep)
    exact List.mem_singleton.mp hmem ▸ h code rfl answer

/-- A routine comes to its end. -/
theorem Task.acc_running (code : Code σ κ) (irp : ℕ) (pnp owned : Bool) :
    Acc Task.Next (⟨irp, pnp, .running owned code⟩ : Task σ κ) := by
  induction code generalizing irp pnp owned with
  | ret =>
    refine acc_of_step fun _ _ _ _ _ hstep t' hmem => ?_
    obtain ⟨rfl, rfl⟩ := Prod.mk.inj (Option.some.inj hstep)
    exact absurd hmem List.not_mem_nil
  | acquire granted refused ihgranted ihrefused =>
    -- the removal may have started, and then the refused branch runs
    refine acc_of_step fun _ s _ _ _ hstep t' hmem => ?_
    simp only [step] at hstep
    split at hstep
    · obtain ⟨rfl, rfl⟩ := Prod.mk.inj (Option.some.inj hstep)
      exact List.mem_singleton.mp hmem ▸ ihrefused irp pnp owned
    · obtain ⟨rfl, rfl⟩ := Prod.mk.inj (Option.some.inj hstep)
      exact List.mem_singleton.mp hmem ▸ ihgranted irp pnp owned
  | release next ih =>
    refine acc_of_step fun _ _ _ _ _ hstep t' hmem => ?_
    obtain ⟨rfl, rfl⟩ := Prod.mk.inj (Option.some.inj hstep)
    exact List.mem_singleton.mp hmem ▸ ih irp pnp owned
  | releaseAndWait next ih =>
    -- the rest runs once the lock has drained
    refine acc_of_step fun _ _ _ _ _ hstep t' hmem => ?_
    obtain ⟨rfl, rfl⟩ := Prod.mk.inj (Option.some.inj hstep)
    exact List.mem_singleton.mp hmem ▸ acc_draining (ih irp pnp owned)
  | use what next ih =>
    refine acc_of_step fun _ _ answer _ _ hstep t' hmem => ?_
    obtain ⟨rfl, rfl⟩ := Prod.mk.inj (Option.some.inj hstep)
    exact List.mem_singleton.mp hmem ▸ ih answer irp pnp owned
  | tearDown what next ih =>
    refine acc_of_step fun _ _ _ _ _ hstep t' hmem => ?_
    obtain ⟨rfl, rfl⟩ := Prod.mk.inj (Option.some.inj hstep)
    exact List.mem_singleton.mp hmem ▸ ih irp pnp owned
  | delete next ih =>
    refine acc_of_step fun _ _ _ _ _ hstep t' hmem => ?_
    obtain ⟨rfl, rfl⟩ := Prod.mk.inj (Option.some.inj hstep)
    exact List.mem_singleton.mp hmem ▸ ih irp pnp owned
  | attach child next ihchild ih =>
    -- the child's routine becomes a task of its own
    refine acc_of_step fun _ _ _ _ _ hstep t' hmem => ?_
    obtain ⟨rfl, rfl⟩ := Prod.mk.inj (Option.some.inj hstep)
    rcases List.mem_pair.mp hmem with rfl | rfl
    · exact ih irp pnp owned
    · exact ihchild irp false false
  | complete status next ih =>
    refine acc_of_step fun _ _ _ _ _ hstep t' hmem => ?_
    obtain ⟨rfl, rfl⟩ := Prod.mk.inj (Option.some.inj hstep)
    exact List.mem_singleton.mp hmem ▸ ih irp pnp false
  | pend next ih =>
    refine acc_of_step fun _ _ _ _ _ hstep t' hmem => ?_
    obtain ⟨rfl, rfl⟩ := Prod.mk.inj (Option.some.inj hstep)
    exact List.mem_singleton.mp hmem ▸ ih irp pnp false
  | call next ih =>
    -- the driver below gets the request, with no completion routine
    refine acc_of_step fun _ _ answer _ _ hstep t' hmem => ?_
    obtain ⟨rfl, rfl⟩ := Prod.mk.inj (Option.some.inj hstep)
    rcases List.mem_pair.mp hmem with rfl | rfl
    · exact ih answer irp pnp false
    · exact acc_below nofun
  | callWith completion next ihcompletion ih =>
    -- the completion routine runs when the driver below is done
    refine acc_of_step fun _ _ answer _ _ hstep t' hmem => ?_
    obtain ⟨rfl, rfl⟩ := Prod.mk.inj (Option.some.inj hstep)
    rcases List.mem_pair.mp hmem with rfl | rfl
    · exact ih answer irp pnp false
    · refine acc_below fun code hcode answer => ?_
      exact Option.some.inj hcode ▸ ihcompletion answer irp pnp true
  | callAndWait next ih =>
    -- the request comes back to this task, which owns it again
    refine acc_of_step fun _ _ _ _ _ hstep t' hmem => ?_
    obtain ⟨rfl, rfl⟩ := Prod.mk.inj (Option.some.inj hstep)
    exact List.mem_singleton.mp hmem ▸ acc_waiting fun answer => ih answer irp pnp true

/-- No task runs for ever. -/
theorem Task.next_wellFounded : WellFounded (Task.Next (σ := σ) (κ := κ)) := by
  refine ⟨?_⟩
  rintro ⟨irp, pnp, stage⟩
  cases stage with
  | running owned code => exact acc_running code irp pnp owned
  | draining owned code => exact acc_draining (acc_running code irp pnp owned)
  | waiting next => exact acc_waiting fun answer => acc_running (next answer) irp pnp true
  | below completion => exact acc_below fun code _ answer => acc_running (code answer) irp pnp true

instance : Std.Irrefl (Task.Next (σ := σ) (κ := κ)) := ⟨Task.next_wellFounded.irrefl.irrefl⟩

end Acc

/-- A step replaces a task by tasks that come from it. -/
theorem System.cutExpand_step {hasNext : Bool} {s t : System σ κ} {i : ℕ} {answer : σ}
    (h : s.step hasNext (.run i answer) = some t) :
    Relation.CutExpand Task.Next (t.tasks : Multiset (Task σ κ)) s.tasks := by
  obtain ⟨front, task, back, lock, ts, htasks, hlocal, rfl⟩ := step_run h
  refine ⟨ts, task, fun t' hmem => ⟨hasNext, _, _, _, _, hlocal, Multiset.mem_coe.mp hmem⟩, ?_⟩
  rw [htasks, ← Multiset.coe_add, ← Multiset.coe_add, ← Multiset.coe_add, ← Multiset.cons_coe,
    ← Multiset.singleton_add]
  abel

/-- When no task is left, the system has settled. -/
theorem System.Inv.settled {hasNext : Bool} {reserve : ℕ} {s : System σ κ} {shares : List Share}
    (h : s.Inv hasNext reserve shares) (hwhere : s.whereabouts = s.arrived) (hnil : s.tasks = []) :
    s.Settled reserve := by
  have hshares : shares = [] := List.forall₂_nil_left_iff.mp (hnil ▸ h.fits)
  obtain ⟨-, -, -, hcount, -, -, hdue⟩ := h
  subst hshares
  refine ⟨hnil, ?_, ?_, ?_⟩
  · unfold whereabouts at hwhere
    rwa [hnil, List.map_nil, List.sum_nil, add_zero] at hwhere
  · rw [hcount, List.map_nil, List.sum_nil, Nat.zero_add]
  · rw [Bool.eq_iff_iff, hdue]
    exact (or_iff_left List.not_mem_nil).symm

/-- Whatever steps are made, everything that is on its way comes to its end. -/
theorem System.Inv.inevitable [Inhabited σ] {hasNext : Bool} {reserve : ℕ} {s : System σ κ}
    {shares : List Share} (h : s.Inv hasNext reserve shares) (hwhere : s.whereabouts = s.arrived) :
    s.Inevitable hasNext (Settled reserve) := by
  have hacc := (Task.next_wellFounded (σ := σ) (κ := κ)).cutExpand.apply
    (s.tasks : Multiset (Task σ κ))
  generalize hm : (s.tasks : Multiset (Task σ κ)) = m at hacc
  induction hacc generalizing s shares with
  | intro m _ ih =>
    subst hm
    by_cases hnil : s.tasks = []
    · exact .here (h.settled hwhere hnil)
    · obtain ⟨i, t, ht⟩ := h.able hnil default
      refine .next ⟨i, default, t, ht⟩ fun j answer u hu => ?_
      have hobeys : Act.Obeys hasNext reserve (.run j answer : Act σ κ) := trivial
      obtain ⟨shares', h'⟩ := h.step hobeys hu
      exact ih _ (cutExpand_step hu) h' (whereabouts_step hu h'.ok.fault hwhere) rfl

/-- In every run, each request that has arrived is in exactly one place. -/
theorem System.whereabouts_run {hasNext : Bool} {reserve : ℕ} {as : List (Act σ κ)}
    {s : System σ κ} (has : ∀ a ∈ as, a.Obeys hasNext reserve)
    (h : Transition.run (System.step hasNext) (init reserve) as = some s) :
    s.whereabouts = s.arrived := by
  refine Transition.run_induction (P := fun as s => (∀ a ∈ as, a.Obeys hasNext reserve) →
    s.whereabouts = s.arrived) ?_ ?_ h has
  · exact fun _ => rfl
  · intro as s a t hs ih hstep has
    have hfirst : ∀ b ∈ as, b.Obeys hasNext reserve := fun b hb => has b (List.mem_append_left _ hb)
    obtain ⟨shares, hinv⟩ := inv_run has (Transition.run_concat.mpr ⟨s, hs, hstep⟩)
    exact whereabouts_step hstep hinv.ok.fault (ih hfirst)

/-- **Routines that keep to the protocol are safe in every interleaving, and they end.** Nothing
goes wrong, every request is at one place, and whatever steps are made next, all requests are
answered in the end, the lock is free, and the device is deleted if that was asked for. -/
theorem System.safe_and_ends [Inhabited σ] {hasNext : Bool} {reserve : ℕ} {as : List (Act σ κ)}
    {s : System σ κ} (has : ∀ a ∈ as, a.Obeys hasNext reserve)
    (h : Transition.run (System.step hasNext) (init reserve) as = some s) :
    s.lock.fault = false ∧ s.whereabouts = s.arrived ∧
      s.Inevitable hasNext (Settled reserve) := by
  obtain ⟨shares, hinv⟩ := inv_run has h
  have hwhere := whereabouts_run has h
  exact ⟨hinv.ok.fault, hwhere, hinv.inevitable hwhere⟩

end RemoveLock
