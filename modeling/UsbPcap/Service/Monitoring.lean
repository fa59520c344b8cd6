import UsbPcap.Service.Invariant

/-!
# Who cancels a capture

A monitor outlives its capture when the capture ends by itself, because nothing cancels the context
then, and its `stopCapture` names no task. `System.cancelled_on_own_account_iff` says that a stop of
such a monitor is the only way a capture is cancelled on the account of another.
-/

namespace UsbPcap.Service

open Server Transition

/-- One of the task's limits is reached by its output file. -/
def LimitReached (req : Request) (stat : Option FileInfo) (now : Time) : Prop :=
  ∃ info, stat = some info ∧
    (0 < req.maxFileSizeBytes ∧ req.maxFileSizeBytes ≤ info.size ∨
      0 < req.idleTimeoutSeconds ∧
        (req.idleTimeoutSeconds.toNat : ℤ) * 1000000000 < now - info.modTime)

/-- A monitor trips only at a limit of its own request. -/
theorem limitReached_of_tick {req : Request} {stat : Option FileInfo} {now : Time}
    {r : StopReason} (h : Server.monitorTick req stat now = some r) :
    LimitReached req stat now := by
  cases stat with
  | none => cases h
  | some info =>
    refine ⟨info, rfl, ?_⟩
    simp only [Server.monitorTick] at h
    split at h
    · rename_i hsize
      exact Or.inl hsize
    · split at h
      · rename_i hidle
        exact Or.inr hidle
      · cases h

namespace System

/-! ## Requests and contexts -/

/-- No section changes the request of a task. -/
theorem req_step {cfg : Config} {s t : System} {a : Act} (h : s.Slots) (hst : Step cfg s a t)
    {i : TaskID} (hi : s.phase i ≠ .absent) :
    (t.server.object i).req = (s.server.object i).req := by
  cases hst with
  | newTask req outputPath =>
    have hne : i ≠ s.server.nextTaskID + 1 := by
      rintro rfl
      exact hi (h.fresh _ (Nat.lt_succ_self _))
    simp [advance, Server.newTask, hne]
  | @beginCapture id hp hfree now =>
    exact updateObject_field (·.req) s.server id (f := started now) (fun _ => rfl) i
  | finalizeTask hp summarize =>
    exact congrArg (fun x => x.2.1) (finalizeTask_identity _ _ _ _ i)
  | endCapture hp finishedAt now =>
    exact congrArg (fun x => x.2.1) (endCapture_identity _ _ _ _ _ i)
  | closeDone hp => exact congrArg (fun x => x.2.1) (closeDone_identity _ _ i)
  | stopCapture hc reason => exact cancelActive_req ..
  | stopCaptureByTaskID hc reason => exact cancelActive_req ..
  | monitorStop hm hc => exact cancelActive_req ..
  | cleanupHistory now => exact congrArg (fun o => (o i).req) (cleanupHistory_object ..)
  | _ => rfl

/-- Only stop calls cancel, and only the active task. -/
theorem cancel_step {cfg : Config} {s t : System} {a : Act} (hst : Step cfg s a t) {i : TaskID}
    (hs : (s.server.object i).cancelled = some false)
    (ht : (t.server.object i).cancelled = some true) :
    (∃ r, a = .stopCapture r) ∨ (∃ r, a = .stopCaptureByTaskID i r) ∨
      ∃ id r, a = .monitorStop id ∧ s.monitor id = .tripped r := by
  have hactive : ∀ {c : ActiveCapture} {r : StopReason},
      ((s.server.cancelActive c r).object i).cancelled = some true → i = c.taskID := by
    intro c r hc
    by_contra hne
    rw [cancelActive_ne s.server hne, hs] at hc
    cases hc
  have hkeep : ∀ {o : CaptureTaskState}, o.cancelled = (s.server.object i).cancelled →
      o.cancelled ≠ some true := by
    intro o ho hc
    rw [ho, hs] at hc
    cases hc
  cases hst with
  | stopCapture hc reason => exact Or.inl ⟨_, rfl⟩
  | stopCaptureByTaskID hc reason => exact Or.inr (Or.inl ⟨_, by rw [hactive ht]⟩)
  | monitorStop hm hc => exact Or.inr (Or.inr ⟨_, _, rfl, hm⟩)
  | newTask req outputPath =>
    -- a new task is not cancelled, and the others are left alone
    by_cases hi : i = s.server.nextTaskID + 1
    · simp [advance, Server.newTask, hi] at ht
    · exact absurd ht (hkeep (by simp [advance, Server.newTask, hi]))
  | @beginCapture id hp hfree now =>
    -- a task begins with a context of its own
    by_cases hi : i = id
    · subst hi
      simp [advance, activate, started] at ht
    · exact absurd ht (hkeep (congrArg _ (activate_ne _ hi now)))
  | finalizeTask hp summarize =>
    exact absurd ht (hkeep (congrArg (fun x => x.2.2) (finalizeTask_identity _ _ _ _ i)))
  | endCapture hp finishedAt now =>
    exact absurd ht (hkeep (congrArg (fun x => x.2.2) (endCapture_identity _ _ _ _ _ i)))
  | closeDone hp =>
    exact absurd ht (hkeep (congrArg (fun x => x.2.2) (closeDone_identity _ _ i)))
  | cleanupHistory now =>
    exact absurd ht (hkeep (congrArg (fun o => (o i).cancelled) (cleanupHistory_object ..)))
  | _ => exact absurd ht (hkeep rfl)

/-! ## Monitors -/

/-- What the schedule so far says about a monitor: a task that does not exist has none, and a
monitor that is about to stop saw a limit of its own task at a tick. -/
structure Monitored (as : List Act) (s : System) (id : TaskID) : Prop where
  absent : s.phase id = .absent → s.monitor id = .absent
  tripped : ∀ r, s.monitor id = .tripped r → ∃ stat now,
    .monitorTick id stat now ∈ as ∧ LimitReached (s.server.object id).req stat now

/-- The monitor that has acted stands at its new place. -/
theorem advanceMonitor_self (s : System) (id : TaskID) (m : Monitor) (srv : Server) :
    (s.advanceMonitor id m srv).monitor id = m := by
  simp [advanceMonitor]

theorem advanceMonitor_ne (s : System) {id i : TaskID} (h : i ≠ id) (m : Monitor)
    (srv : Server) : (s.advanceMonitor id m srv).monitor i = s.monitor i := by
  simp [advanceMonitor, h]

/-- What a step does to a monitor: nothing, start it, trip it at a tick that reaches a limit, or
let it return. -/
theorem monitor_step {cfg : Config} {s t : System} {a : Act} (hst : Step cfg s a t)
    (i : TaskID) :
    t.monitor i = s.monitor i ∨
      (s.phase i = .begun ∧ t.monitor i = .waiting) ∨
      (s.monitor i = .waiting ∧ ∃ stat now r, a = .monitorTick i stat now ∧
        t.monitor i = .tripped r ∧ LimitReached (s.server.object i).req stat now) ∨
      (s.monitor i ≠ .absent ∧ t.monitor i = .returned) := by
  cases hst with
  | @runStartedTask id hp =>
    by_cases hi : i = id
    · subst hi
      exact Or.inr (Or.inl ⟨hp, advanceMonitor_self ..⟩)
    · exact Or.inl (advanceMonitor_ne _ hi _ _)
  | @monitorTrip id stat now reason hm hreached =>
    by_cases hi : i = id
    · subst hi
      exact Or.inr (Or.inr (Or.inl
        ⟨hm, _, _, _, rfl, advanceMonitor_self .., limitReached_of_tick hreached⟩))
    · exact Or.inl (advanceMonitor_ne _ hi _ _)
  | @monitorStopIdle id reason hm hfree =>
    by_cases hi : i = id
    · subst hi
      exact Or.inr (Or.inr (Or.inr ⟨by rw [hm]; nofun, advanceMonitor_self ..⟩))
    · exact Or.inl (advanceMonitor_ne _ hi _ _)
  | @monitorStop id reason hm c hc =>
    by_cases hi : i = id
    · subst hi
      exact Or.inr (Or.inr (Or.inr ⟨by rw [hm]; nofun, advanceMonitor_self ..⟩))
    · exact Or.inl (advanceMonitor_ne _ hi _ _)
  | @monitorDone id hm hcancelled =>
    by_cases hi : i = id
    · subst hi
      exact Or.inr (Or.inr (Or.inr ⟨by rw [hm]; nofun, advanceMonitor_self ..⟩))
    · exact Or.inl (advanceMonitor_ne _ hi _ _)
  | _ => exact Or.inl rfl

/-- One step keeps the record of which monitors have tripped. -/
theorem Monitored.step {cfg : Config} {as : List Act} {s t : System} {a : Act} {id : TaskID}
    (h : Monitored as s id) (hi : s.Inv) (hst : Step cfg s a t) : Monitored (as ++ [a]) t id := by
  have hphase : t.phase id = .absent → s.phase id = .absent := by
    intro ht
    rcases phase_step hi.toSlots hst id with heq | hmove
    · exact heq ▸ ht
    · rw [ht] at hmove
      generalize s.phase id = p at hmove
      cases hmove
  have hmember : ∀ {r}, s.monitor id = .tripped r → s.phase id ≠ .absent := by
    intro r hm habs
    rw [h.absent habs] at hm
    cases hm
  rcases monitor_step hst id with heq | ⟨hp, ht⟩ | ⟨hm, stat, now, r, rfl, ht, hlim⟩ | ⟨hm, ht⟩
  · refine ⟨fun habs => heq.trans (h.absent (hphase habs)), fun r hr => ?_⟩
    rw [heq] at hr
    obtain ⟨stat, now, hmem, hlim⟩ := h.tripped r hr
    refine ⟨stat, now, List.mem_append_left _ hmem, ?_⟩
    rw [req_step hi.toSlots hst (hmember hr)]
    exact hlim
  · refine ⟨fun habs => ?_, fun r hr => ?_⟩
    · rw [hphase habs] at hp
      cases hp
    · rw [ht] at hr
      cases hr
  · -- the tick itself is the one that reached the limit
    have hpresent : s.phase id ≠ .absent := by
      intro habs
      rw [h.absent habs] at hm
      cases hm
    refine ⟨fun habs => absurd (hphase habs) hpresent, fun r' _ => ⟨stat, now, ?_, ?_⟩⟩
    · exact List.mem_append_right _ (List.mem_singleton.mpr rfl)
    · rw [req_step hi.toSlots hst hpresent]
      exact hlim
  · refine ⟨fun habs => absurd (h.absent (hphase habs)) hm, fun r hr => ?_⟩
    rw [ht] at hr
    cases hr

/-- After a run, a monitor that is about to stop has tripped in it. -/
theorem monitored_run {cfg : Config} {as : List Act} {s : System}
    (h : run (System.step cfg) System.init as = some s) (id : TaskID) : Monitored as s id := by
  refine run_induction (P := fun as s => Monitored as s id) ?_ ?_ h
  · exact ⟨fun _ => rfl, nofun⟩
  · intro as s a t hr hs hst
    exact hs.step (inv_of_reachable (.of_run hr)) (step_cases hst)

/-! ## On whose account -/

/-- The section cancels the active task `id` on its own account: a user's stop, or the stop of its
own monitor after a tick at which its own output file had reached one of its own limits. A user's
stop is judged by the state in which its section runs: it is on the account of the task that is
active there, also where the user meant an earlier one. -/
def OwnAccount (as : List Act) (s : System) (a : Act) (id : TaskID) : Prop :=
  (∃ r, a = .stopCapture r) ∨ (∃ r, a = .stopCaptureByTaskID id r) ∨
    a = .monitorStop id ∧ ∃ stat now,
      .monitorTick id stat now ∈ as ∧ LimitReached (s.server.object id).req stat now

/-- Whenever a schedule cancels the context of the active task, it does so on the task's own
account. -/
def CancelledOnOwnAccount (cfg : Config) (as : List Act) : Prop :=
  ∀ pre a post s t c, as = pre ++ a :: post → run (step cfg) init pre = some s →
    step cfg s a = some t → s.server.active = some c →
    (s.server.object c.taskID).cancelled = some false →
    (t.server.object c.taskID).cancelled = some true → OwnAccount pre s a c.taskID

/-- A monitor that stops finds its own task active, or nothing that it could cancel. -/
def StopsOwn (s : System) (a : Act) : Prop :=
  ∀ id c, a = .monitorStop id → s.server.active = some c →
    (s.server.object c.taskID).cancelled = some false → c.taskID = id

/-- **Captures are only cancelled for others by stale monitors.** In a run, the active task is only
ever cancelled on its own account exactly when no monitor stops while another task, not cancelled
yet, is active. -/
theorem cancelled_on_own_account_iff (cfg : Config) (as : List Act) {u : System}
    (h : run (step cfg) init as = some u) :
    CancelledOnOwnAccount cfg as ↔ Along (step cfg) StopsOwn init as := by
  constructor
  · rintro hown pre a post s has hs id c rfl hc hlive
    rw [has, run_append, hs, Option.bind_some, run_cons] at h
    obtain ⟨t, hst, -⟩ := Option.bind_eq_some_iff.mp h
    -- the stop cancels whatever is in the slot
    have hcancelled : (t.server.object c.taskID).cancelled = some true := by
      cases step_cases hst with
      | monitorStopIdle hm hfree =>
        rw [hfree] at hc
        cases hc
      | monitorStop hm hc' =>
        obtain rfl := Option.some.inj (hc.symm.trans hc')
        exact cancelActive_self ..
    rcases hown pre _ post s t c has hs hst hc hlive hcancelled with
      ⟨r, hr⟩ | ⟨r, hr⟩ | ⟨heq, -⟩
    · cases hr
    · cases hr
    · exact (Act.monitorStop.inj heq).symm
  · intro hstops pre a post s t c has hs hst hc hlive hcancelled
    rcases cancel_step (step_cases hst) hlive hcancelled with hr | hr | ⟨id, r, rfl, hm⟩
    · exact Or.inl hr
    · exact Or.inr (Or.inl hr)
    · obtain rfl := hstops pre _ post s has hs id c rfl hc hlive
      exact Or.inr (Or.inr ⟨rfl, (monitored_run hs _).tripped r hm⟩)

/-! ## A monitor that outlives its capture -/

/-- A capture that stops after five idle seconds. -/
def idleRequest : Request where
  interface := "USBPcap1"
  storeMode := ""
  durationSeconds := 10
  idleTimeoutSeconds := 5
  maxFileSizeBytes := 0

/-- The first capture ends by itself with a packet, a second one begins, and then the monitor of the
first finds the first output file idle. -/
def staleMonitor : List Act :=
  [.newTask idleRequest "first.pcap", .registerTask 1, .beginCapture 1 0, .runStartedTask 1,
    .captureReturns 1 (.ok ⟨some "first.pcap", false, "immediate", 0, [], ""⟩),
    .finalizeTask 1 (.ok ⟨1, 67, 0, 0, [("bulk", 1)], [("0x81", 1)], [("0x02", 1)]⟩),
    .endCapture 1 1000000000 1000000000, .closeDone 1,
    .newTask idleRequest "second.pcap", .registerTask 2, .beginCapture 2 2000000000,
    .monitorTick 1 (some ⟨67, 1000000000⟩) 7000000000]

/-- The first task is completed, the second is active, and its context is live. -/
theorem staleMonitor_outcome :
    ((run (step defaultConfig) init staleMonitor).map fun s =>
      (s.server.active.map ActiveCapture.taskID, (s.server.object 2).cancelled,
        (s.server.object 1).task.status)) =
      some (some 2, some false, .completed) := by decide +kernel

/-- The stop of the stale monitor cancels it. -/
theorem staleMonitor_stop_outcome :
    ((run (step defaultConfig) init (staleMonitor ++ [.monitorStop 1])).map fun s =>
      (s.server.object 2).cancelled) = some (some true) := by decide +kernel

/-- The second capture is cancelled on the account of the first. -/
theorem stale_monitor_cancels_other :
    ¬ CancelledOnOwnAccount defaultConfig (staleMonitor ++ [.monitorStop 1]) := by
  intro hown
  obtain ⟨t, ht, hcancelled⟩ := Option.map_eq_some_iff.mp staleMonitor_stop_outcome
  obtain ⟨s, hs, hst⟩ := run_concat.mp ht
  have hout := staleMonitor_outcome
  rw [hs, Option.map_some, Option.some.injEq, Prod.mk.injEq, Prod.mk.injEq] at hout
  obtain ⟨hactive, hlive, -⟩ := hout
  obtain ⟨c, hc, hid⟩ := Option.map_eq_some_iff.mp hactive
  rcases hown staleMonitor _ [] s t c rfl hs hst hc (hid ▸ hlive) (hid ▸ hcancelled) with
    ⟨r, hr⟩ | ⟨r, hr⟩ | ⟨heq, -⟩
  · cases hr
  · cases hr
  · rw [hid] at heq
    cases heq

/-- The same run does not meet the condition. -/
theorem cancelled_on_own_account_iff_staleMonitor :
    CancelledOnOwnAccount defaultConfig (staleMonitor ++ [.monitorStop 1]) ↔
      Along (step defaultConfig) StopsOwn init (staleMonitor ++ [.monitorStop 1]) := by
  obtain ⟨t, ht, -⟩ := Option.map_eq_some_iff.mp staleMonitor_stop_outcome
  exact cancelled_on_own_account_iff defaultConfig _ ht

end System

end UsbPcap.Service
