import UsbPcap.Service.Invariant

/-!
# The task store

`recordHistory` prunes the task map down to the running and the listed tasks whenever a capture
ends. A task that is registered and has not begun is neither, so it loses its key, although it can
still begin. `System.kept_iff` says that this is the only way to lose a live or listed task.
-/

namespace UsbPcap.Service

open Server Transition

/-- The section ends a capture. -/
def Act.isEndCapture : Act → Prop
  | .endCapture _ _ _ => True
  | _ => False

/-- The task has been put into the map. -/
def Phase.isRegistered : Phase → Prop
  | .absent | .created => False
  | _ => True

namespace System

/-! ## Live and listed tasks -/

/-- The active task and the listed tasks have their keys. -/
def Kept (s : System) : Prop :=
  (∀ c, s.server.active = some c → c.taskID ∈ s.server.tasks) ∧
    ∀ t ∈ s.server.history, t.taskID ∈ s.server.tasks

/-- A task that begins has its key. -/
def BeginsKept (s : System) (a : Act) : Prop :=
  ∀ id now, a = .beginCapture id now → s.server.active = none → id ∈ s.server.tasks

/-- Sections that neither free the slot nor drop a task nor forget one keep the tasks. -/
theorem Kept.of_server {s t : System} (h : s.Kept)
    (hactive : t.server.active = s.server.active) (htasks : s.server.tasks ⊆ t.server.tasks)
    (hhist : t.server.history = s.server.history) : t.Kept := by
  refine ⟨fun c hc => htasks (h.1 c (hactive ▸ hc)), fun u hu => htasks (h.2 u (hhist ▸ hu))⟩

/-- The active task is in a phase that holds the slot. -/
theorem Inv.active_holds {s : System} (h : s.Inv) {c : ActiveCapture}
    (hc : s.server.active = some c) : (s.phase c.taskID).holdsSlot := by
  refine (h.slot c.taskID).mp ?_
  rw [activeID, hc]
  rfl

/-- The active task is not listed. -/
theorem Inv.active_not_listed {s : System} (h : s.Inv) {c : ActiveCapture}
    (hc : s.server.active = some c) : ∀ t ∈ s.server.history, t.taskID ≠ c.taskID := by
  intro t ht hid
  have hover := h.isOver t ht
  have hholds := h.active_holds hc
  rw [hid] at hover
  revert hover hholds
  cases s.phase c.taskID <;> simp [Phase.isOver, Phase.holdsSlot]

/-- A rejected task that is dropped is not active. -/
theorem Kept.dropTask {s : System} (h : s.Kept) (hi : s.Inv) {id : TaskID}
    (hp : s.phase id = .rejected) : (s.advance id .dropped (s.server.dropTask id)).Kept := by
  constructor
  · intro c hc
    refine Finset.mem_erase.mpr ⟨?_, h.1 c hc⟩
    rintro rfl
    have hholds := hi.active_holds hc
    rw [hp] at hholds
    exact hholds
  · intro t ht
    refine Finset.mem_erase.mpr ⟨?_, h.2 t ht⟩
    rintro rfl
    have hover := hi.isOver t ht
    rw [hp] at hover
    exact hover

/-- A capture that ends leaves the slot and enters the history. -/
theorem Kept.endCapture {cfg : Config} {s : System} (h : s.Kept) (hi : s.Inv) {id : TaskID}
    (hp : s.phase id = .finalised) (finishedAt now : Time) :
    (s.advance id .ended (s.server.endCapture cfg id finishedAt now)).Kept := by
  have hname := hi.named id (by simp [hp])
  have hheld : s.activeID = some id := (hi.slot id).mpr (by rw [hp]; trivial)
  obtain ⟨c, hc, hcid⟩ := Option.map_eq_some_iff.mp hheld
  constructor
  · intro d hd
    rw [show (s.advance id .ended (s.server.endCapture cfg id finishedAt now)).server.active = none
      from endCapture_active (hname.symm ▸ hheld) finishedAt now] at hd
    cases hd
  · intro t ht
    refine mem_endCapture_tasks (hi.nodup_historyWith hp cfg finishedAt) ht ?_
    rcases List.mem_cons.mp (List.mem_of_mem_take ((endCapture_history ..).subset ht)) with rfl | ht
    · rw [show (finished finishedAt (s.server.object id)).task.taskID = id from hname, ← hcid]
      exact h.1 c hc
    · exact h.2 t ht

/-- The cleanup drops from the map what it drops from the history. -/
theorem Kept.cleanupHistory {cfg : Config} {s : System} (h : s.Kept) (hi : s.Inv) (now : Time) :
    { s with server := s.server.cleanupHistory cfg now }.Kept := by
  constructor
  · intro c hc
    rw [cleanupHistory_active] at hc
    exact (mem_cleanupHistory_tasks (hi.active_not_listed hc)).mpr (h.1 c hc)
  · intro t ht
    exact mem_cleanupHistory_of_mem hi.nodup ht
      (h.2 t ((cleanupHistory_history ..).subset ht))

/-- A section keeps live and listed tasks exactly when a task that begins in it has its key. -/
theorem kept_step_iff {cfg : Config} {s t : System} {a : Act} (hk : s.Kept) (hi : s.Inv)
    (hst : Step cfg s a t) : t.Kept ↔ s.BeginsKept a := by
  cases hst with
  | @beginCapture id hp hfree now =>
    -- the only section that brings a new live task; every other keeps the live and the listed ones
    have hname := hi.named id (by simp [hp])
    constructor
    · rintro h i now' ⟨⟩ -
      have := h.1 _ rfl
      rwa [hname] at this
    · intro h
      refine ⟨fun c hc => ?_, hk.2⟩
      obtain rfl := Option.some.inj hc
      exact hname.symm ▸ h id now rfl hfree
  | beginRejected hp hbusy now =>
    exact iff_of_true (hk.of_server rfl (Finset.Subset.refl _) rfl)
      fun i now' _ hfree => absurd hfree hbusy
  | newTask req outputPath =>
    exact iff_of_true (hk.of_server rfl (Finset.Subset.refl _) rfl) nofun
  | registerTask hp =>
    exact iff_of_true (hk.of_server rfl (Finset.subset_insert _ _) rfl) nofun
  | dropTask hp => exact iff_of_true (hk.dropTask hi hp) nofun
  | runStartedTask hp =>
    exact iff_of_true (hk.of_server rfl (Finset.Subset.refl _) rfl) nofun
  | captureReturns hp outcome =>
    exact iff_of_true (hk.of_server rfl (Finset.Subset.refl _) rfl) nofun
  | finalizeTask hp summarize =>
    exact iff_of_true (hk.of_server rfl (Finset.Subset.refl _) rfl) nofun
  | endCapture hp finishedAt now =>
    exact iff_of_true (hk.endCapture hi hp finishedAt now) nofun
  | closeDone hp =>
    exact iff_of_true (hk.of_server rfl (Finset.Subset.refl _) rfl) nofun
  | stopIdle hfree reason => exact iff_of_true hk nofun
  | stopCapture hc reason =>
    exact iff_of_true (hk.of_server (cancelActive_active ..) (cancelActive_tasks .. ▸ fun _ => id)
      (cancelActive_history ..)) nofun
  | stopByTaskIDIdle hother reason => exact iff_of_true hk nofun
  | stopCaptureByTaskID hc reason =>
    exact iff_of_true (hk.of_server (cancelActive_active ..) (cancelActive_tasks .. ▸ fun _ => id)
      (cancelActive_history ..)) nofun
  | monitorContinue hm hbelow => exact iff_of_true hk nofun
  | monitorTrip hm hreached =>
    exact iff_of_true (hk.of_server rfl (Finset.Subset.refl _) rfl) nofun
  | monitorStopIdle hm hfree =>
    exact iff_of_true (hk.of_server rfl (Finset.Subset.refl _) rfl) nofun
  | monitorStop hm hc =>
    exact iff_of_true (hk.of_server (cancelActive_active ..) (cancelActive_tasks .. ▸ fun _ => id)
      (cancelActive_history ..)) nofun
  | monitorDone hm hcancelled =>
    exact iff_of_true (hk.of_server rfl (Finset.Subset.refl _) rfl) nofun
  | cleanupHistory now => exact iff_of_true (hk.cleanupHistory hi now) nofun

/-! ## Losing a key -/

/-- The section takes the key of task `id` out of the map, if it is there. -/
def Evicts (cfg : Config) (s : System) (id : TaskID) : Act → Prop
  | .dropTask i => i = id
  | .endCapture i finishedAt now => PushedOut cfg s.server i finishedAt id ∨
      Expires cfg (s.server.historyWith cfg i finishedAt) now id
  | .cleanupHistory now => Expires cfg s.server.history now id
  | _ => False

/-- A task that has been registered keeps its key until a section takes it. -/
theorem mem_tasks_step_iff {cfg : Config} {s t : System} {a : Act} (hi : s.Inv)
    (hst : Step cfg s a t) {id : TaskID} (hs : (s.phase id).isRegistered) :
    id ∈ t.server.tasks ↔ id ∈ s.server.tasks ∧ ¬ s.Evicts cfg id a := by
  cases hst with
  | @registerTask id' hp =>
    have hne : id ≠ id' := by
      rintro rfl
      rw [hp] at hs
      exact hs
    have hname := hi.named id' (by simp [hp])
    simp [advance, registerTask, hname, hne, Evicts]
  | @dropTask id' hp => simp [advance, Server.dropTask, Evicts, and_comm, eq_comm]
  | endCapture hp finishedAt now =>
    rw [Evicts, not_or]
    exact mem_endCapture_tasks_iff
  | cleanupHistory now => exact mem_cleanupHistory_tasks_iff
  | stopCapture hc reason => simp [cancelActive_tasks, Evicts]
  | stopCaptureByTaskID hc reason => simp [cancelActive_tasks, Evicts]
  | monitorStop hm hc => simp [advanceMonitor, cancelActive_tasks, Evicts]
  | newTask req outputPath => simp [advance, Server.newTask, Evicts]
  | beginCapture hp hfree now => simp [advance, activate, updateObject, Evicts]
  | finalizeTask hp summarize => simp [advance, Server.finalizeTask, updateObject, Evicts]
  | closeDone hp => simp [advance, Server.closeDone, updateObject, Evicts]
  | _ => simp [advance, advanceMonitor, Evicts]

/-- A registered task stays registered. -/
theorem isRegistered_step {cfg : Config} {s t : System} {a : Act} (hi : s.Inv)
    (hst : Step cfg s a t) {id : TaskID} (hs : (s.phase id).isRegistered) :
    (t.phase id).isRegistered := by
  rcases phase_step hi.toSlots hst id with heq | hmove
  · exact heq ▸ hs
  · generalize s.phase id = p at hmove hs
    generalize t.phase id = q at hmove
    cases hmove with
    | created => exact hs.elim
    | _ => trivial

/-- Only tasks that have been registered have keys. -/
theorem isRegistered_of_mem {cfg : Config} {s : System} (hr : Reachable (step cfg) init s)
    {id : TaskID} (h : id ∈ s.server.tasks) : (s.phase id).isRegistered := by
  refine hr.invariant (P := fun s => id ∈ s.server.tasks → (s.phase id).isRegistered)
    (fun hmem => absurd hmem (Finset.notMem_empty id)) ?_ h
  intro s a t hr hs hst hmem
  have hi := inv_of_reachable hr
  have hstep := step_cases hst
  by_cases hreg : (s.phase id).isRegistered
  · exact isRegistered_step hi hstep hreg
  · -- it had no key, so the section is its registration
    have hnot : id ∉ s.server.tasks := fun h => hreg (hs h)
    cases hstep with
    | @registerTask i hp =>
      have hname := hi.named i (by simp [hp])
      have hcases : id = i ∨ id ∈ s.server.tasks := by
        simpa [advance, registerTask, hname] using hmem
      obtain rfl := hcases.resolve_right hnot
      rw [advance_phase_self]
      trivial
    | dropTask hp => exact absurd (Finset.mem_of_mem_erase hmem) hnot
    | endCapture hp finishedAt now => exact absurd (mem_endCapture_tasks_iff.mp hmem).1 hnot
    | cleanupHistory now => exact absurd (mem_cleanupHistory_tasks_iff.mp hmem).1 hnot
    | stopCapture hc reason => exact absurd (cancelActive_tasks _ _ _ ▸ hmem) hnot
    | stopCaptureByTaskID hc reason => exact absurd (cancelActive_tasks _ _ _ ▸ hmem) hnot
    | monitorStop hm hc => exact absurd (cancelActive_tasks _ _ _ ▸ hmem) hnot
    | _ => exact absurd hmem hnot

/-! ## When a beginning task has its key -/

/-- A task that waits to begin loses its key in every `endCapture`, and only there. -/
theorem evicts_iff_isEndCapture {cfg : Config} {s t : System} {a : Act} (hi : s.Inv)
    (hst : Step cfg s a t) {id : TaskID} (hs : s.phase id = .registered) :
    s.Evicts cfg id a ↔ a.isEndCapture := by
  have hother : ∀ t ∈ s.server.history, t.taskID ≠ id := by
    rintro u hu rfl
    have hover := hi.isOver u hu
    rw [hs] at hover
    exact hover
  cases hst with
  | @dropTask id' hp =>
    refine iff_of_false ?_ False.elim
    rintro rfl
    rw [hs] at hp
    cases hp
  | @endCapture id' hp finishedAt now =>
    -- it is pending and not listed
    have hstatus := hi.status id
    rw [hs] at hstatus
    have hne : id' ≠ id := by
      rintro rfl
      rw [hs] at hp
      cases hp
    refine iff_of_true (Or.inl ⟨?_, fun t ht => ?_⟩) trivial
    · rw [show (s.server.object id).task.status = .pending from hstatus]
      exact Status.noConfusion
    · rcases List.mem_cons.mp (List.mem_of_mem_take ht) with rfl | ht
      · exact (hi.named id' (by simp [hp])).trans_ne hne
      · exact hother t ht
  | cleanupHistory now =>
    refine iff_of_false ?_ False.elim
    rintro ⟨-, t, ht, -, hid⟩
    exact hother t ht hid
  | _ => exact Iff.rfl

/-- `isEndCapture` picks out the only section that prunes the map. -/
theorem mem_tasks_step {cfg : Config} {s t : System} {a : Act} (hi : s.Inv)
    (hst : Step cfg s a t) {id : TaskID} (hs : s.phase id = .registered) :
    id ∈ t.server.tasks ↔ id ∈ s.server.tasks ∧ ¬ a.isEndCapture := by
  rw [mem_tasks_step_iff hi hst (by rw [hs]; trivial), evicts_iff_isEndCapture hi hst hs]

/-- Where a task's registration stands in the schedule executed so far: not in it before the task
is registered, and in it afterwards; a task that waits to begin has its key exactly when no
capture has ended since. -/
structure Registered (as : List Act) (s : System) (id : TaskID) : Prop where
  before : s.phase id = .absent ∨ s.phase id = .created → .registerTask id ∉ as
  mem : s.phase id = .registered → .registerTask id ∈ as
  key : s.phase id = .registered → ∀ p q, as = p ++ .registerTask id :: q →
    (id ∈ s.server.tasks ↔ ∀ a ∈ q, ¬ a.isEndCapture)

/-- What comes behind an element of an extended list: nothing, or it was there before. -/
theorem split_concat {β : Type*} {as p q : List β} {a b : β} (h : as ++ [a] = p ++ b :: q) :
    (q = [] ∧ a = b ∧ as = p) ∨ ∃ q', q = q' ++ [a] ∧ as = p ++ b :: q' := by
  induction q using List.reverseRecOn with
  | nil =>
    obtain ⟨rfl, hab⟩ := List.append_inj' h rfl
    exact Or.inl ⟨rfl, List.head_eq_of_cons_eq hab, rfl⟩
  | append_singleton q c _ =>
    rw [← List.cons_append, ← List.append_assoc] at h
    obtain ⟨has, hac⟩ := List.append_inj' h rfl
    exact Or.inr ⟨q, by rw [List.head_eq_of_cons_eq hac], has⟩

/-- The registration of a task, as a section. -/
theorem registerTask_step {cfg : Config} {s t : System} {id : TaskID} (hi : s.Inv)
    (hst : Step cfg s (.registerTask id) t) :
    s.phase id = .created ∧ t.phase id = .registered ∧ id ∈ t.server.tasks := by
  cases hst with
  | registerTask hp =>
    have hname := hi.named id (by simp [hp])
    refine ⟨hp, advance_phase_self .., ?_⟩
    simp [advance, registerTask, hname]

/-- One step keeps the record of who was registered. -/
theorem Registered.step {cfg : Config} {as : List Act} {s t : System} {a : Act} {id : TaskID}
    (h : Registered as s id) (hi : s.Inv) (hst : Step cfg s a t) :
    Registered (as ++ [a]) t id := by
  rcases phase_step hi.toSlots hst id with heq | hmove
  · -- the task stays where it was, so the section is not its registration
    have hne : a ≠ .registerTask id := by
      rintro rfl
      obtain ⟨hcreated, hregistered, -⟩ := registerTask_step hi hst
      rw [heq, hcreated] at hregistered
      cases hregistered
    refine ⟨fun hp hmem => ?_, fun hp => ?_, fun hp p q hsplit => ?_⟩
    · rw [heq] at hp
      rcases List.mem_append.mp hmem with hmem | hmem
      · exact h.before hp hmem
      · exact hne (List.mem_singleton.mp hmem).symm
    · exact List.mem_append_left _ (h.mem (heq ▸ hp))
    · rw [heq] at hp
      rcases split_concat hsplit with ⟨-, hab, -⟩ | ⟨q', rfl, has⟩
      · exact absurd hab hne
      · rw [mem_tasks_step hi hst hp, h.key hp p q' has, List.forall_mem_append,
          List.forall_mem_singleton]
  · -- the task moves
    have hreg := h.before
    generalize hs : s.phase id = ps at hmove hreg
    generalize ht : t.phase id = pt at hmove
    cases hmove with
    | created =>
      refine ⟨fun _ hmem => ?_, by simp [ht], by simp [ht]⟩
      rcases List.mem_append.mp hmem with hmem | hmem
      · exact hreg (Or.inl rfl) hmem
      · cases List.mem_singleton.mp hmem
    | registered =>
      refine ⟨by simp [ht], fun _ => List.mem_append_right _ (List.mem_singleton.mpr rfl), ?_⟩
      intro _ p q hsplit
      rcases split_concat hsplit with ⟨rfl, -, -⟩ | ⟨q', -, has⟩
      · exact iff_of_true (registerTask_step hi hst).2.2 nofun
      · refine absurd ?_ (hreg (Or.inr rfl))
        rw [has]
        exact List.mem_append_right _ List.mem_cons_self
    | _ => exact ⟨by simp [ht], by simp [ht], by simp [ht]⟩

/-- After a run, the tasks registered are those with such a section. -/
theorem registered_run {cfg : Config} {as : List Act} {s : System}
    (h : run (System.step cfg) System.init as = some s) (id : TaskID) : Registered as s id := by
  refine run_induction (P := fun as s => Registered as s id) ?_ ?_ h
  · exact ⟨fun _ => List.not_mem_nil, nofun, nofun⟩
  · intro as s a t hr hs hst
    exact hs.step (inv_of_reachable (.of_run hr)) (step_cases hst)

/-- No capture ends between the registration of a task and its successful `beginCapture`. -/
def BeginsUndisturbed (cfg : Config) (as : List Act) : Prop :=
  ∀ pre id now post s, as = pre ++ .beginCapture id now :: post →
    run (step cfg) init pre = some s → s.server.active = none →
      ∃ p q, pre = p ++ .registerTask id :: q ∧ ∀ a ∈ q, ¬ a.isEndCapture

/-- A task that begins has its key exactly when no capture has ended since its registration. -/
theorem along_beginsKept_iff {cfg : Config} {as : List Act} {u : System}
    (h : run (step cfg) init as = some u) :
    Along (step cfg) BeginsKept init as ↔ BeginsUndisturbed cfg as := by
  have hphase : ∀ {pre id now post s}, as = pre ++ Act.beginCapture id now :: post →
      run (step cfg) init pre = some s → s.phase id = .registered := by
    intro pre id now post s has hs
    rw [has, run_append, hs, Option.bind_some, run_cons] at h
    obtain ⟨t, hst, -⟩ := Option.bind_eq_some_iff.mp h
    cases step_cases hst with
    | beginCapture hp _ _ => exact hp
    | beginRejected hp _ _ => exact hp
  constructor
  · intro hkept pre id now post s has hs hfree
    have hreg := registered_run hs id
    have hp := hphase has hs
    obtain ⟨p, q, hsplit⟩ := List.append_of_mem (hreg.mem hp)
    exact ⟨p, q, hsplit, (hreg.key hp p q hsplit).mp (hkept pre _ post s has hs id now rfl hfree)⟩
  · rintro hund pre a post s has hs id now rfl hfree
    obtain ⟨p, q, hsplit, hq⟩ := hund pre id now post s has hs hfree
    exact ((registered_run hs id).key (hphase has hs) p q hsplit).mpr hq

/-- There is no task to keep before the first request. -/
theorem kept_init : init.Kept := ⟨nofun, fun _ h => absurd h List.not_mem_nil⟩

/-- **Tasks are only lost while they wait to begin.** In a run, every state has the keys of its
active task and of all its listed tasks exactly when no capture ends between the registration of a
task and its successful `beginCapture`. -/
theorem kept_iff (cfg : Config) (as : List Act) {u : System}
    (h : run (step cfg) init as = some u) :
    Always (step cfg) Kept init as ↔ BeginsUndisturbed cfg as := by
  rw [← along_beginsKept_iff h]
  refine always_iff_along kept_init ?_ h
  intro s a t hr hs hst
  exact kept_step_iff hs (inv_of_reachable hr) (step_cases hst)

/-! ## Two overlapping requests -/

/-- A capture of ten seconds without limits. -/
def plainRequest : Request where
  interface := "USBPcap1"
  storeMode := ""
  durationSeconds := 10
  idleTimeoutSeconds := 0
  maxFileSizeBytes := 0

/-- The second request registers its task while the first capture runs, and begins when it has
ended. -/
def overlapping : List Act :=
  [.newTask plainRequest "first.pcap", .registerTask 1, .beginCapture 1 0, .runStartedTask 1,
    .newTask plainRequest "second.pcap", .registerTask 2,
    .captureReturns 1 (.error .canceled), .finalizeTask 1 (.error ""), .endCapture 1 10 10,
    .beginCapture 2 11]

/-- The second task runs without its key. -/
theorem overlapping_outcome :
    ((run (step defaultConfig) init overlapping).map fun s =>
      (s.server.active.map ActiveCapture.taskID, decide (2 ∈ s.server.tasks))) =
      some (some 2, false) := by decide +kernel

/-- The running task is no longer in the map. -/
theorem overlapping_loses_task : ¬ Always (step defaultConfig) Kept init overlapping := by
  intro h
  obtain ⟨s, hs, hout⟩ := Option.map_eq_some_iff.mp overlapping_outcome
  obtain ⟨hactive, hkey⟩ := Prod.mk.inj hout
  obtain ⟨c, hc, hid⟩ := Option.map_eq_some_iff.mp hactive
  have hmem := (h _ s (List.prefix_refl _) hs).1 c hc
  rw [hid] at hmem
  exact of_decide_eq_false hkey hmem

/-- The same run does not meet the condition. -/
theorem kept_iff_overlapping :
    Always (step defaultConfig) Kept init overlapping ↔
      BeginsUndisturbed defaultConfig overlapping := by
  obtain ⟨s, hs, -⟩ := Option.map_eq_some_iff.mp overlapping_outcome
  exact kept_iff defaultConfig overlapping hs

end System

end UsbPcap.Service
