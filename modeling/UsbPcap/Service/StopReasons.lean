import UsbPcap.Service.TaskStore

/-!
# Why a task was stopped

A stop leaves its reason with the task in the slot, and `finalizeTask` copies it into the task when
the capture has been cancelled. `StopLog` keeps beside the service the last stop that was accepted
for each task before it was finalised, and `explained_iff` says when the tasks record it.

The code reads `stopCode` and `stopMsg` in `finalizeTask` without holding `s.mu`. Here both reads
belong to the one section in which the task is finalised, so that a stop comes before both or after
both of them.
-/

namespace UsbPcap.Service

open Server Transition

/-! ## Accepted stops -/

/-- The reason of both stop requests of a client. -/
def clientStopReason : StopReason where
  code := "CAPTURE_STOPPED"
  message := "capture was stopped"
  hint := "Retry the capture when ready."

/-- The reason that the section stops the task in the slot with, if it stops one. -/
def System.stopReason (s : System) : Act → Option StopReason
  | .stopCapture r => some r
  | .stopCaptureByTaskID id r => if s.activeID = some id then some r else none
  | .monitorStop id =>
    match s.monitor id with
    | .tripped r => some r
    | _ => none
  | _ => none

/-- The section is a stop with reason `r` that is accepted for task `id`. -/
def System.Accepts (s : System) (a : Act) (id : TaskID) (r : StopReason) : Prop :=
  s.activeID = some id ∧ s.stopReason a = some r

/-- The service, and the last stop accepted for each task before it was finalised. -/
structure StopLog where
  system : System
  accepted : TaskID → Option StopReason

namespace StopLog

/-- The service before its first request. -/
def init : StopLog where
  system := .init
  accepted _ := none

/-- The task has been finalised. -/
def isFinal : Phase → Bool
  | .finalised | .ended | .closed => true
  | _ => false

/-- The stops, with the one that the section makes. -/
def note (l : StopLog) (a : Act) : TaskID → Option StopReason := fun id =>
  if l.system.activeID = some id ∧ isFinal (l.system.phase id) = false then
    (l.system.stopReason a).or (l.accepted id)
  else l.accepted id

/-- One section. -/
def step (cfg : Config) (l : StopLog) (a : Act) : Option StopLog :=
  (l.system.step cfg a).map fun t => { system := t, accepted := l.note a }

/-- If the task is stopped, it says so with the reason of the accepted stop. -/
def Explains (o : CaptureTaskState) (accepted : Option StopReason) : Prop :=
  o.task.status = .stopped → ∀ r, accepted = some r →
    o.task.errorCode = r.code ∧ o.task.message = r.message ∧ o.task.hint = r.hint

/-- A stopped task records the last stop that was accepted for it. -/
def Explained (l : StopLog) : Prop :=
  ∀ id, Explains (l.system.server.object id) (l.accepted id)

/-- `finalizeTask` can tell of the stop: it has no hint, and either the task has its key and the
stop a code, or the stop says what `finalizeTask` says without a reason. -/
def Tellable (l : StopLog) (a : Act) : Prop :=
  ∀ id summarize, a = .finalizeTask id summarize →
    l.system.phase id = .returned (.error .canceled) → ∀ r, l.accepted id = some r →
      r.hint = "" ∧
        if id ∈ l.system.server.tasks then r.code ≠ ""
        else r.code = "CAPTURE_STOPPED" ∧ r.message = "capture was stopped"

end StopLog

/-! ## What a section does to a task -/

namespace Server

/-- What a task reports about its end. -/
def report (o : CaptureTaskState) : Status × String × String × String :=
  (o.task.status, o.task.errorCode, o.task.message, o.task.hint)

/-- The reason that a task object holds. -/
def stored (o : CaptureTaskState) : String × String := (o.stopCode, o.stopMsg)

/-- What neither a report nor a reason changes. -/
def record (o : CaptureTaskState) : (Status × String × String × String) × String × String :=
  (report o, stored o)

/-- The task that is stopped gets the reason when the map still has it. -/
theorem cancelActive_object (s : Server) (c : ActiveCapture) (r : StopReason) :
    (s.cancelActive c r).object c.taskID =
      cancel (if c.taskID ∈ s.tasks then stoppedBy r (s.object c.taskID)
        else s.object c.taskID) := by
  rw [cancelActive, updateObject_self]
  split
  · rw [updateObject_self]
  · rfl

end Server

namespace System

/-- What a section does to a task that exists. -/
inductive Touch (s t : System) (a : Act) (i : TaskID) : Prop where
  | untouched (quiet : ∀ r, ¬ s.Accepts a i r)
      (same : record (t.server.object i) = record (s.server.object i))
  | begun (now : Time) (act : a = .beginCapture i now) (h : s.phase i = .registered)
      (object : t.server.object i = started now (s.server.object i))
  | finalised (outcome : Except CaptureError CaptureResult) (summarize : Except String Summary)
      (act : a = .finalizeTask i summarize) (h : s.phase i = .returned outcome)
      (object : t.server.object i = (s.server.finalizeTask i outcome summarize).object i)
  | stopped (r : StopReason) (accepts : s.Accepts a i r)
      (object : t.server.object i =
        cancel (if i ∈ s.server.tasks then stoppedBy r (s.server.object i)
          else s.server.object i))

/-- A stop of the task in the slot touches this task and no other. -/
theorem touch_cancelActive {s t : System} {a : Act} {c : ActiveCapture} {r : StopReason}
    (hc : s.server.active = some c) (hr : s.stopReason a = some r)
    (ht : t.server = s.server.cancelActive c r) (i : TaskID) : Touch s t a i := by
  have hactive : s.activeID = some c.taskID := by
    rw [activeID, hc]
    rfl
  by_cases hi : i = c.taskID
  · subst hi
    refine .stopped r ⟨hactive, hr⟩ ?_
    rw [ht, cancelActive_object]
  · refine .untouched ?_ ?_
    · rintro r' ⟨hslot, -⟩
      exact hi (Option.some.inj (hslot.symm.trans hactive))
    · rw [ht, cancelActive_ne _ hi]

/-- The end of a capture leaves the reason alone. -/
theorem endCapture_record {cfg : Config} (s : Server) (id : TaskID) (finishedAt now : Time)
    (i : TaskID) :
    record ((s.endCapture cfg id finishedAt now).object i) = record (s.object i) := by
  rw [endCapture, recordHistory, cleanupHistory_object]
  exact updateObject_field record _ id (f := finished finishedAt) (fun _ => rfl) i

/-- What one step can do to the reason and to the record of a task. -/
theorem touch {cfg : Config} {s t : System} {a : Act} (hst : Step cfg s a t) (hi : s.Inv)
    {i : TaskID} (hp : s.phase i ≠ .absent) : Touch s t a i := by
  -- no stop, or none of this task
  have quiet : (s.stopReason a = none ∨ s.activeID ≠ some i) →
      record (t.server.object i) = record (s.server.object i) → Touch s t a i := by
    rintro hnone hsame
    refine .untouched (fun r hr => ?_) hsame
    rcases hnone with hnone | hslot
    · exact Option.some_ne_none r (hr.2.symm.trans hnone)
    · exact hslot hr.1
  have hfree : s.server.active = none → s.activeID ≠ some i := by
    intro hactive
    rw [activeID, hactive]
    exact (Option.some_ne_none i).symm
  cases hst with
  | newTask req outputPath =>
    refine quiet (.inl rfl) (congrArg record (newTask_ne _ ?_ req outputPath))
    rintro rfl
    exact hp (hi.fresh _ (Nat.lt_succ_self _))
  | @beginCapture id h free now =>
    by_cases hid : i = id
    · subst hid
      exact .begun now rfl h (updateObject_self _ _ _)
    · exact quiet (.inl rfl) (congrArg record (activate_ne _ hid now))
  | @finalizeTask id outcome h summarize =>
    by_cases hid : i = id
    · subst hid
      exact .finalised outcome summarize rfl h rfl
    · exact quiet (.inl rfl) (congrArg record (finalizeTask_ne _ hid outcome summarize))
  | @endCapture id h finishedAt now =>
    exact quiet (.inl rfl) (endCapture_record s.server id finishedAt now i)
  | @closeDone id h =>
    refine quiet (.inl rfl) ?_
    exact updateObject_field record s.server id (f := fun o => { o with doneClosed := true })
      (fun _ => rfl) i
  | stopIdle free reason => exact quiet (.inr (hfree free)) rfl
  | stopCapture hc reason => exact touch_cancelActive hc rfl rfl i
  | @stopByTaskIDIdle taskID other reason =>
    refine quiet (.inl (if_neg fun hslot => ?_)) rfl
    obtain ⟨c, hc, hid⟩ := Option.map_eq_some_iff.mp hslot
    exact other c hc hid
  | @stopCaptureByTaskID c hc reason =>
    have hslot : s.activeID = some c.taskID := by
      rw [activeID, hc]
      rfl
    have hreason : s.stopReason (.stopCaptureByTaskID c.taskID reason) = some reason :=
      if_pos hslot
    exact touch_cancelActive hc hreason rfl i
  | monitorStopIdle h free => exact quiet (.inr (hfree free)) rfl
  | monitorStop h hc =>
    refine touch_cancelActive hc ?_ rfl i
    rw [stopReason, h]
  | cleanupHistory now =>
    exact quiet (.inl rfl) (congrArg (fun f => record (f i)) (cleanupHistory_object cfg _ now))
  | _ => exact quiet (.inl rfl) rfl

/-- A task that captures keeps its key, or goes on without. -/
theorem mem_tasks_step_of_holds {cfg : Config} {s t : System} {a : Act} (hst : Step cfg s a t)
    (hi : s.Inv) {i : TaskID} (hslot : (s.phase i).holdsSlot)
    (hopen : StopLog.isFinal (s.phase i) = false) :
    i ∈ t.server.tasks ↔ i ∈ s.server.tasks := by
  have hover : ∀ u ∈ s.server.history, u.taskID ≠ i := by
    rintro u hu rfl
    have hend := hi.isOver u hu
    revert hend hslot
    cases s.phase u.taskID <;> simp [Phase.isOver, Phase.holdsSlot]
  have hreg : (s.phase i).isRegistered := by
    revert hslot
    cases s.phase i <;> simp [Phase.isRegistered, Phase.holdsSlot]
  rw [mem_tasks_step_iff hi hst hreg]
  refine and_iff_left ?_
  cases hst with
  | @dropTask id h =>
    rintro rfl
    rw [h] at hslot
    exact hslot
  | @endCapture id h finishedAt now =>
    -- another task would hold the slot as well
    have hid := (hi.slot id).mpr (by rw [h]; trivial)
    obtain rfl : i = id := Option.some.inj (((hi.slot i).mpr hslot).symm.trans hid)
    rw [h] at hopen
    exact absurd hopen (by decide)
  | cleanupHistory now =>
    rintro ⟨-, u, hu, -, hid⟩
    exact hover u hu hid
  | _ => exact id

end System

namespace StopLog

variable {cfg : Config}

/-- The log follows the service and notes what each stop was accepted for. -/
theorem step_eq_some {l m : StopLog} {a : Act} :
    step cfg l a = some m ↔ l.system.step cfg a = some m.system ∧ m.accepted = l.note a := by
  rw [step, Option.map_eq_some_iff]
  constructor
  · rintro ⟨t, ht, rfl⟩
    exact ⟨ht, rfl⟩
  · rintro ⟨ht, hm⟩
    exact ⟨m.system, ht, by rw [← hm]⟩

/-- A log is about a run of the service. -/
theorem reachable_system {l : StopLog} (hr : Reachable (step cfg) init l) :
    Reachable (System.step cfg) System.init l.system :=
  hr.invariant (P := fun l => Reachable (System.step cfg) System.init l.system) (.refl _)
    fun _ _ _ _ hl hst => hl.tail (step_eq_some.mp hst).1

/-- The latest reason that is accepted in time counts. -/
theorem note_of_accepts {l : StopLog} {a : Act} {id : TaskID} {r : StopReason}
    (h : l.system.Accepts a id r) (hopen : isFinal (l.system.phase id) = false) :
    l.note a id = some r := by
  rw [note, if_pos ⟨h.1, hopen⟩, h.2]
  rfl

/-- Other sections leave the note. -/
theorem note_of_not_accepts {l : StopLog} {a : Act} {id : TaskID}
    (h : ∀ r, ¬ l.system.Accepts a id r) : l.note a id = l.accepted id := by
  rw [note]
  split
  · next hslot =>
    cases hr : l.system.stopReason a with
    | none => rfl
    | some r => exact absurd ⟨hslot.1, hr⟩ (h r)
  · rfl

/-- Once the task is finalised, no further reason counts. -/
theorem note_of_final {l : StopLog} {a : Act} {id : TaskID}
    (h : isFinal (l.system.phase id) = true) : l.note a id = l.accepted id := by
  rw [note, if_neg]
  rintro ⟨-, hopen⟩
  exact Bool.false_ne_true (hopen.symm.trans h)

/-! ## The reason in the task object -/

/-- What is known of a task that is not finalised: it has no hint; before it begins, no stop was
accepted for it; then its object holds the last stop if the map has its key, and none otherwise. -/
def Consistent (p : Phase) (o : CaptureTaskState) (keyed : Prop) (accepted : Option StopReason) :
    Prop :=
  match p with
  | .absent => accepted = none
  | .created | .registered | .rejected | .dropped =>
    accepted = none ∧ o.task.hint = "" ∧ o.stopCode = ""
  | .begun | .capturing | .returned _ =>
    o.task.hint = "" ∧ (keyed → ∀ r, accepted = some r → stored o = (r.code, r.message)) ∧
      (¬ keyed → o.stopCode = "")
  | .finalised | .ended | .closed => True

/-- The task is consistent in the log. -/
def ConsistentAt (l : StopLog) (id : TaskID) : Prop :=
  Consistent (l.system.phase id) (l.system.server.object id) (id ∈ l.system.server.tasks)
    (l.accepted id)

/-- Only the hint and the reason of the object matter. -/
theorem Consistent.of_object {p : Phase} {o o' : CaptureTaskState} {keyed : Prop}
    {accepted : Option StopReason} (h : Consistent p o keyed accepted)
    (hhint : o'.task.hint = o.task.hint) (hstored : stored o' = stored o) :
    Consistent p o' keyed accepted := by
  have hcode : o'.stopCode = o.stopCode := congrArg Prod.fst hstored
  unfold Consistent at h ⊢
  rw [hhint, hcode, hstored]
  exact h

/-- What is known between `beginCapture` and `finalizeTask`. -/
theorem consistent_iff {p : Phase} {o : CaptureTaskState} {keyed : Prop}
    {accepted : Option StopReason} (hslot : p.holdsSlot) (hopen : isFinal p = false) :
    Consistent p o keyed accepted ↔ o.task.hint = "" ∧
      (keyed → ∀ r, accepted = some r → stored o = (r.code, r.message)) ∧
        (¬ keyed → o.stopCode = "") := by
  cases p <;> first | exact Iff.rfl | exact hslot.elim | cases hopen

/-- A stop leaves its reason where the map has the key of the task. -/
theorem Consistent.stop {p : Phase} {o : CaptureTaskState} {keyed : Prop} [Decidable keyed]
    {accepted : Option StopReason} (h : Consistent p o keyed accepted) (hslot : p.holdsSlot)
    (hopen : isFinal p = false) (r : StopReason) :
    Consistent p (cancel (if keyed then stoppedBy r o else o)) keyed (some r) := by
  rw [consistent_iff hslot hopen] at h ⊢
  obtain ⟨hhint, -, hcode⟩ := h
  by_cases hkey : keyed
  · rw [if_pos hkey]
    refine ⟨hhint, fun _ r' hr' => ?_, fun hnot => absurd hkey hnot⟩
    obtain rfl := Option.some.inj hr'
    rfl
  · rw [if_neg hkey]
    exact ⟨hhint, fun hyes => absurd hyes hkey, hcode⟩

/-- The task stays, or moves without being finalised. -/
theorem Consistent.move {p q : Phase} {o : CaptureTaskState} {keyed keyed' : Prop}
    {accepted : Option StopReason} (h : Consistent p o keyed accepted) {a : Act} {i : TaskID}
    (hmove : q = p ∨ System.Moves a i p q) (hp : p ≠ .absent)
    (hkey : p.holdsSlot → isFinal p = false → (keyed' ↔ keyed)) :
    Consistent q o keyed' accepted := by
  -- inside an open capture, what is asked for does not depend on the phase
  have hopen : ∀ q : Phase, q.holdsSlot → isFinal q = false → p.holdsSlot → isFinal p = false →
      Consistent q o keyed' accepted := by
    intro q hq hqopen hpslot hpopen
    rw [consistent_iff hq hqopen, hkey hpslot hpopen]
    exact (consistent_iff hpslot hpopen).mp h
  rcases hmove with rfl | hmove
  · cases q with
    | absent => exact absurd rfl hp
    | created => exact h
    | registered => exact h
    | rejected => exact h
    | dropped => exact h
    | begun => exact hopen .begun trivial rfl trivial rfl
      -- the slot is taken with a new state, which has no hint yet
    | capturing => exact hopen .capturing trivial rfl trivial rfl
    | returned outcome => exact hopen (.returned outcome) trivial rfl trivial rfl
    | finalised => trivial
    | ended => trivial
    | closed => trivial
  · cases hmove with
    | created => exact absurd rfl hp
    | registered => exact h
    | rejected => exact h
    | dropped => exact h
    | begun =>
      obtain ⟨hnone, hhint, hcode⟩ := h
      exact ⟨hhint, fun _ r hr => absurd (hnone.symm.trans hr) (Option.some_ne_none r).symm,
        fun _ => hcode⟩
    | capturing => exact hopen .capturing trivial rfl trivial rfl
    | returned => exact hopen (.returned _) trivial rfl trivial rfl
    | finalised => trivial
    | ended => trivial
    | closed => trivial

/-- A new task is consistent. -/
theorem consistentAt_absent {l m : StopLog} {a : Act} (hinv : l.system.Inv) {i : TaskID}
    (habsent : l.system.phase i = .absent) (h : ConsistentAt l i) (hst : step cfg l a = some m) :
    ConsistentAt m i := by
  obtain ⟨hsys, hnote⟩ := step_eq_some.mp hst
  have hquiet : ∀ r, ¬ l.system.Accepts a i r := by
    intro r hr
    have hslot := (hinv.slot i).mp hr.1
    rw [habsent] at hslot
    exact hslot
  have haccepted : m.accepted i = none := by
    rw [ConsistentAt, habsent] at h
    rw [hnote, note_of_not_accepts hquiet]
    exact h
  unfold ConsistentAt
  rcases System.phase_step hinv.toSlots (System.step_cases hsys) i with hsame | hmove
  · rw [hsame, habsent]
    exact haccepted
  · rw [habsent] at hmove
    generalize hq : m.system.phase i = q at hmove
    cases hmove with
    | @created _ req path =>
      have hm := (Option.some.inj hsys).symm
      by_cases hid : i = l.system.server.nextTaskID + 1
      · subst hid
        rw [hm]
        refine ⟨haccepted, ?_, ?_⟩
        all_goals simp [System.advance, Server.newTask]
      · have hkeep := System.advance_phase_ne l.system hid .created
          (l.system.server.newTask req path).2
        rw [hm] at hq
        have hstays := hkeep.symm.trans hq
        rw [habsent] at hstays
        cases hstays

/-- Every section keeps the log consistent. -/
theorem consistentAt_step {l m : StopLog} {a : Act} (hinv : l.system.Inv) {i : TaskID}
    (h : ConsistentAt l i) (hst : step cfg l a = some m) : ConsistentAt m i := by
  by_cases hp : l.system.phase i = .absent
  · exact consistentAt_absent hinv hp h hst
  obtain ⟨hsys, hnote⟩ := step_eq_some.mp hst
  have hstep := System.step_cases hsys
  have hmove := System.phase_step hinv.toSlots hstep i
  have hkey := System.mem_tasks_step_of_holds hstep hinv (i := i)
  unfold ConsistentAt at h ⊢
  rw [hnote]
  cases System.touch hstep hinv hp with
  | untouched quiet same =>
    obtain ⟨hreport, hstored⟩ := Prod.mk.inj same
    rw [note_of_not_accepts quiet]
    exact (h.of_object (congrArg (·.2.2.2) hreport) hstored).move hmove hp hkey
  | begun now act hphase object =>
    have hquiet : ∀ r, ¬ l.system.Accepts a i r := by
      rintro r ⟨-, hr⟩
      rw [act] at hr
      cases hr
    rw [note_of_not_accepts hquiet, object]
    exact (h.of_object rfl rfl).move hmove hp hkey
  | finalised outcome summarize act hphase object =>
    have hfinal : m.system.phase i = .finalised := by
      rw [act, System.step, hphase] at hsys
      rw [← Option.some.inj hsys, System.advance_phase_self]
    rw [hfinal]
    trivial
  | stopped r accepts object =>
    -- the section is a stop, which moves no task
    have hsame : m.system.phase i = l.system.phase i := by
      refine hmove.resolve_right fun hmoves => ?_
      have hreason := accepts.2
      generalize l.system.phase i = p at hmoves
      generalize m.system.phase i = q at hmoves
      cases hmoves <;> cases hreason
    have hslot := (hinv.slot i).mp accepts.1
    rw [hsame]
    cases hopen : isFinal (l.system.phase i) with
    | true =>
      revert hopen
      cases l.system.phase i <;> first | exact fun _ => trivial | exact fun hopen => by cases hopen
    | false =>
      rw [note_of_accepts accepts hopen, hkey hslot hopen, object]
      exact h.stop hslot hopen r

/-- In every reachable state the fields of a task agree with its note. -/
theorem consistentAt_of_reachable {l : StopLog} (hr : Reachable (step cfg) init l) (i : TaskID) :
    ConsistentAt l i := by
  refine hr.invariant (P := fun l => ConsistentAt l i) rfl ?_
  intro l a m hl h hst
  exact consistentAt_step (System.inv_of_reachable (reachable_system hl)) h hst

/-! ## When the reason is recorded -/

/-- Only what is reported matters for an explanation. -/
theorem explains_congr {o o' : CaptureTaskState} {accepted : Option StopReason}
    (h : report o' = report o) : Explains o' accepted ↔ Explains o accepted := by
  obtain ⟨hstatus, hcode, hmessage, hhint⟩ := by simpa [report] using h
  rw [Explains, Explains, hstatus, hcode, hmessage, hhint]

/-- A task that was not stopped needs no explanation. -/
theorem explains_of_status {o : CaptureTaskState} {accepted : Option StopReason}
    (h : o.task.status ≠ .stopped) : Explains o accepted :=
  fun hstopped => absurd hstopped h

/-- Only a cancelled capture is recorded as stopped. -/
theorem finalizeError_not_stopped (o : CaptureTaskState) {err : CaptureError}
    (h : err ≠ .canceled) : (finalizeError o err).task.status ≠ .stopped := by
  cases err with
  | canceled => exact absurd rfl h
  | cmd errorCode message hint => simp only [finalizeError]; split <;> simp
  | other message => simp [finalizeError]

/-- A capture that returns a result does not count as stopped. -/
theorem finalizeResult_not_stopped (o : CaptureTaskState) (resp : CaptureResult)
    (summarize : Except String Summary) :
    (finalizeResult o resp summarize).task.status ≠ .stopped := by
  simp only [finalizeResult]
  repeat' split
  all_goals simp

/-- What `finalizeTask` records of a cancelled capture: the reason in the object, and no hint. -/
theorem finalizeError_canceled (o : CaptureTaskState) :
    report (finalizeError o .canceled) =
      if o.stopCode = "" then (.stopped, "CAPTURE_STOPPED", "capture was stopped", o.task.hint)
      else (.stopped, o.stopCode, o.stopMsg, o.task.hint) := by
  simp only [finalizeError]
  split <;> rfl

/-- A cancelled capture is explained by its code and message exactly when the accepted reason has no
hint, and has a code or the words of the fallback. -/
theorem explains_canceled_iff {o : CaptureTaskState} {keyed : Prop} [Decidable keyed]
    {accepted : Option StopReason}
    (h : Consistent (.returned (.error .canceled)) o keyed accepted) :
    Explains (finalizeError o .canceled) accepted ↔ ∀ r, accepted = some r →
      r.hint = "" ∧
        if keyed then r.code ≠ "" else r.code = "CAPTURE_STOPPED" ∧
          r.message = "capture was stopped" := by
  obtain ⟨hhint, hkeyed, hbare⟩ := h
  have hreport := finalizeError_canceled o
  rw [hhint] at hreport
  refine (forall_prop_of_true rfl).trans (forall_congr' fun r => imp_congr_right fun hr => ?_)
  by_cases hkey : keyed
  · rw [if_pos hkey]
    obtain ⟨hcode, hmessage⟩ := Prod.mk.inj (hkeyed hkey r hr)
    by_cases hempty : o.stopCode = ""
    · -- `finalizeTask` takes the empty code for no reason
      rw [if_pos hempty] at hreport
      obtain ⟨-, hcode', -, -⟩ := by simpa [report] using hreport
      rw [hcode', ← hcode, hempty]
      exact iff_of_false (fun h => absurd h.1 (by decide)) fun h => h.2 rfl
    · rw [if_neg hempty] at hreport
      obtain ⟨-, hcode', hmessage', hhint'⟩ := by simpa [report] using hreport
      rw [hcode', hmessage', hhint', ← hcode, ← hmessage]
      exact ⟨fun h => ⟨h.2.2.symm, hempty⟩, fun h => ⟨rfl, rfl, h.1.symm⟩⟩
  · rw [if_neg hkey]
    rw [if_pos (hbare hkey)] at hreport
    obtain ⟨-, hcode', hmessage', hhint'⟩ := by simpa [report] using hreport
    rw [hcode', hmessage', hhint']
    exact ⟨fun h => ⟨h.2.2.symm, h.1.symm, h.2.1.symm⟩, fun h => ⟨h.2.1.symm, h.2.2.symm, h.1.symm⟩⟩

/-- The section finalises the task. -/
theorem finalizeTask_step {l m : StopLog} {i : TaskID} {summarize : Except String Summary}
    (hst : step cfg l (.finalizeTask i summarize) = some m) :
    ∃ outcome, l.system.phase i = .returned outcome ∧ m.accepted i = l.accepted i ∧
      m.system.server = l.system.server.finalizeTask i outcome summarize := by
  obtain ⟨hsys, hnote⟩ := step_eq_some.mp hst
  have hquiet : ∀ r, ¬ l.system.Accepts (.finalizeTask i summarize) i r := by
    rintro r ⟨-, hr⟩
    cases hr
  generalize hm : m.system = t at hsys
  generalize ha : Act.finalizeTask i summarize = a at hsys
  cases System.step_cases hsys <;> cases ha
  next outcome hphase =>
    refine ⟨outcome, hphase, ?_, rfl⟩
    rw [hnote, note_of_not_accepts hquiet]

/-- In a section that does not finalise it, a task keeps its report and its accepted stop, unless it
is not stopped afterwards. -/
theorem explains_step {l m : StopLog} {a : Act} (hinv : l.system.Inv) {i : TaskID}
    (hcons : ConsistentAt l i) (h : Explains (l.system.server.object i) (l.accepted i))
    (hst : step cfg l a = some m) (ha : ∀ summarize, a ≠ .finalizeTask i summarize) :
    Explains (m.system.server.object i) (m.accepted i) := by
  obtain ⟨hsys, hnote⟩ := step_eq_some.mp hst
  by_cases hp : l.system.phase i = .absent
  · have hquiet : ∀ r, ¬ l.system.Accepts a i r := by
      intro r hr
      have hslot := (hinv.slot i).mp hr.1
      rw [hp] at hslot
      exact hslot
    rw [ConsistentAt, hp] at hcons
    rw [hnote, note_of_not_accepts hquiet, show l.accepted i = none from hcons]
    exact fun _ r hr => absurd hr.symm (Option.some_ne_none r)
  rw [hnote]
  cases System.touch (System.step_cases hsys) hinv hp with
  | untouched quiet same =>
    rw [note_of_not_accepts quiet]
    exact (explains_congr (congrArg Prod.fst same)).mpr h
  | begun now act hphase object =>
    rw [object]
    exact explains_of_status nofun
  | finalised outcome summarize act hphase object => exact absurd act (ha summarize)
  | stopped r accepts object =>
    have hreport : report (m.system.server.object i) = report (l.system.server.object i) := by
      rw [object]
      split <;> rfl
    rw [explains_congr hreport]
    cases hopen : isFinal (l.system.phase i) with
    | true =>
      rw [note_of_final hopen]
      exact h
    | false =>
      -- the task is still running
      have hslot := (hinv.slot i).mp accepts.1
      have hstatus := hinv.status i
      refine explains_of_status ?_
      revert hslot hstatus hopen
      cases l.system.phase i <;> simp +contextual [isFinal, Phase.holdsSlot, Phase.allows]

/-- Every section keeps the tasks explained, up to `finalizeTask` with a stop that it cannot tell
of. -/
theorem explained_step_iff {l m : StopLog} {a : Act} (hr : Reachable (step cfg) init l)
    (h : Explained l) (hst : step cfg l a = some m) : Explained m ↔ Tellable l a := by
  have hinv := System.inv_of_reachable (reachable_system hr)
  refine forall_congr' fun i => ?_
  have hcons := consistentAt_of_reachable hr i
  by_cases ha : ∃ summarize, a = .finalizeTask i summarize
  · obtain ⟨summarize, rfl⟩ := ha
    obtain ⟨outcome, hphase, haccepted, hserver⟩ := finalizeTask_step hst
    rw [haccepted, hserver, Server.finalizeTask, updateObject_self]
    by_cases hcanceled : outcome = .error .canceled
    · subst hcanceled
      rw [ConsistentAt, hphase] at hcons
      refine (explains_canceled_iff hcons).trans ?_
      exact ⟨fun h _ _ _ => h, fun h => h summarize rfl hphase⟩
    · refine iff_of_true (explains_of_status ?_) fun _ _ hphase' => absurd ?_ hcanceled
      · cases outcome with
        | error err => exact finalizeError_not_stopped _ fun herr => hcanceled (herr ▸ rfl)
        | ok resp => exact finalizeResult_not_stopped _ resp summarize
      · exact Phase.returned.inj (hphase.symm.trans hphase')
  · refine iff_of_true (explains_step hinv hcons (h i) hst fun summarize h => ha ⟨summarize, h⟩) ?_
    exact fun summarize h => absurd ⟨summarize, h⟩ ha

/-- Nothing has been stopped before the first request. -/
theorem explained_init : Explained init := fun _ _ _ h => nomatch h

/-- **A stopped task says why it was stopped** in all states of a run exactly when no cancelled
capture is finalised whose last stop has a hint, or has no code, or came without the key of the task
and says other than the defaults. -/
theorem explained_iff (cfg : Config) (as : List Act) {u : StopLog}
    (h : run (step cfg) init as = some u) :
    Always (step cfg) Explained init as ↔ Along (step cfg) Tellable init as :=
  always_iff_along explained_init (fun _ _ _ hr hl hst => explained_step_iff hr hl hst) h

/-- A capture that a client stops. -/
def stoppedByClient : List Act :=
  [.newTask System.plainRequest "first.pcap", .registerTask 1, .beginCapture 1 0, .runStartedTask 1,
    .stopCaptureByTaskID 1 clientStopReason, .captureReturns 1 (.error .canceled),
    .finalizeTask 1 (.error "")]

/-- The task is stopped with the code and the message of the client, and without a hint. -/
theorem stoppedByClient_outcome :
    ((run (step defaultConfig) init stoppedByClient).map fun l =>
      (report (l.system.server.object 1), l.accepted 1)) =
      some ((.stopped, "CAPTURE_STOPPED", "capture was stopped", ""), some clientStopReason) := by
  decide +kernel

/-- The hint of the client's stop is lost. -/
theorem stoppedByClient_unexplained :
    ¬ Always (step defaultConfig) Explained init stoppedByClient := by
  intro h
  obtain ⟨l, hl, hout⟩ := Option.map_eq_some_iff.mp stoppedByClient_outcome
  obtain ⟨hreport, haccepted⟩ := Prod.mk.inj hout
  obtain ⟨hstatus, -, -, hhint⟩ := by simpa [report] using hreport
  have hsays := (h _ l (List.prefix_refl _) hl 1 hstatus _ haccepted).2.2
  rw [hhint] at hsays
  exact absurd hsays (by decide)

/-- The same run does not meet the condition. -/
theorem explained_iff_stoppedByClient :
    Always (step defaultConfig) Explained init stoppedByClient ↔
      Along (step defaultConfig) Tellable init stoppedByClient := by
  obtain ⟨l, hl, -⟩ := Option.map_eq_some_iff.mp stoppedByClient_outcome
  exact explained_iff defaultConfig stoppedByClient hl

end StopLog

end UsbPcap.Service
