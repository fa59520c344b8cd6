import UsbPcap.Service.System

/-!
# The invariant of the capture service

The slot `active` names exactly the task whose goroutine is between a successful `beginCapture` and
its `endCapture`. The status of a task follows its phase, and the history lists tasks that have
ended, each once. The end of a task and the close of its channel show in its object.
-/

namespace UsbPcap.Service

open Server

/-! ## Phases -/

/-- The task has begun and not ended. -/
def Phase.holdsSlot : Phase → Prop
  | .begun | .capturing | .returned _ | .finalised => True
  | _ => False

/-- The task has ended. -/
def Phase.isOver : Phase → Prop
  | .ended | .closed => True
  | _ => False

/-- The statuses that a task can have in a phase. -/
def Phase.allows : Phase → Status → Prop
  | .begun, st | .capturing, st | .returned _, st => st = .running
  | .finalised, st | .ended, st | .closed, st => st ≠ .pending ∧ st ≠ .running
  | _, st => st = .pending

namespace System

/-- The task that holds the slot. -/
def activeID (s : System) : Option TaskID := s.server.active.map ActiveCapture.taskID

/-- The slot and the names of the tasks. -/
structure Slots (s : System) : Prop where
  fresh : ∀ id, s.server.nextTaskID < id → s.phase id = .absent
  named : ∀ id, s.phase id ≠ .absent → (s.server.object id).task.taskID = id
  slot : ∀ id, s.activeID = some id ↔ (s.phase id).holdsSlot

/-- The statuses and the history. -/
structure Listed (s : System) : Prop where
  status : ∀ id, (s.phase id).allows (s.server.object id).task.status
  nodup : (s.server.history.map CaptureTask.taskID).Nodup
  isOver : ∀ t ∈ s.server.history, (s.phase t.taskID).isOver

/-- The invariant. -/
structure Inv (s : System) : Prop extends Slots s, Listed s

@[simp] theorem advance_phase_self (s : System) (id : TaskID) (p : Phase) (srv : Server) :
    (s.advance id p srv).phase id = p := by
  simp [advance]

theorem advance_phase_ne (s : System) {id i : TaskID} (h : i ≠ id) (p : Phase) (srv : Server) :
    (s.advance id p srv).phase i = s.phase i := by
  simp [advance, h]

/-! ## The slot -/

/-- A section that moves its own task keeps the slot right, when it leaves the slot as the phases
say. -/
theorem Slots.advance {s : System} (h : s.Slots) {id : TaskID} {p : Phase} {srv : Server}
    (hid : s.phase id ≠ .absent) (hnext : srv.nextTaskID = s.server.nextTaskID)
    (hname : ∀ i, (srv.object i).task.taskID = (s.server.object i).task.taskID)
    (hself : srv.active.map ActiveCapture.taskID = some id ↔ p.holdsSlot)
    (hother : ∀ i ≠ id, srv.active.map ActiveCapture.taskID = some i ↔ (s.phase i).holdsSlot) :
    (s.advance id p srv).Slots := by
  refine ⟨fun i hi => ?_, fun i hi => ?_, fun i => ?_⟩
  · have hne : i ≠ id := by
      rintro rfl
      exact hid (h.fresh i (hnext ▸ hi))
    rw [advance_phase_ne s hne]
    exact h.fresh i (hnext ▸ hi)
  · refine (hname i).trans ?_
    by_cases hi' : i = id
    · rw [hi']
      exact h.named id hid
    · rw [advance_phase_ne s hi'] at hi
      exact h.named i hi
  · by_cases hi' : i = id
    · rw [hi', advance_phase_self]
      exact hself
    · rw [advance_phase_ne s hi']
      exact hother i hi'

/-- A section between two phases that agree on the slot leaves it alone. -/
theorem Slots.advance_keep {s : System} (h : s.Slots) {id : TaskID} {p : Phase} {srv : Server}
    (hid : s.phase id ≠ .absent) (hnext : srv.nextTaskID = s.server.nextTaskID)
    (hname : ∀ i, (srv.object i).task.taskID = (s.server.object i).task.taskID)
    (hactive : srv.active = s.server.active) (hp : p.holdsSlot ↔ (s.phase id).holdsSlot) :
    (s.advance id p srv).Slots := by
  refine h.advance hid hnext hname ?_ fun i _ => ?_
  · rw [hactive, hp]
    exact h.slot id
  · rw [hactive]
    exact h.slot i

/-- A section that only changes the server keeps the slot, when it changes neither the slot nor
names. -/
theorem Slots.of_server {s t : System} (h : s.Slots) (hphase : t.phase = s.phase)
    (hnext : t.server.nextTaskID = s.server.nextTaskID)
    (hname : ∀ i, (t.server.object i).task.taskID = (s.server.object i).task.taskID)
    (hactive : t.server.active = s.server.active) : t.Slots := by
  refine ⟨fun i hi => ?_, fun i hi => ?_, fun i => ?_⟩
  · rw [hphase]
    exact h.fresh i (hnext ▸ hi)
  · rw [hphase] at hi
    exact (hname i).trans (h.named i hi)
  · rw [hphase, activeID, hactive]
    exact h.slot i

/-- A request adds an object that does not capture yet. -/
theorem Slots.newTask {s : System} (h : s.Slots) (req : Request) (outputPath : String) :
    (s.advance (s.server.nextTaskID + 1) .created
      (s.server.newTask req outputPath).2).Slots := by
  have habsent : s.phase (s.server.nextTaskID + 1) = .absent := h.fresh _ (Nat.lt_succ_self _)
  refine ⟨fun i hi => ?_, fun i hi => ?_, fun i => ?_⟩
  · change s.server.nextTaskID + 1 < i at hi
    rw [advance_phase_ne s (Nat.ne_of_gt hi)]
    exact h.fresh i (Nat.lt_of_succ_lt hi)
  · by_cases hi' : i = s.server.nextTaskID + 1
    · subst hi'
      simp [System.advance, Server.newTask]
    · rw [advance_phase_ne s hi'] at hi
      simpa [System.advance, Server.newTask, hi'] using h.named i hi
  · by_cases hi' : i = s.server.nextTaskID + 1
    · rw [hi', advance_phase_self]
      refine iff_of_false (fun hact => ?_) id
      have := (h.slot _).mp hact
      rw [habsent] at this
      exact this
    · rw [advance_phase_ne s hi']
      exact h.slot i

/-- Every section keeps the slot right. -/
theorem Slots.step {cfg : Config} {s t : System} {a : Act} (h : s.Slots) (hst : Step cfg s a t) :
    t.Slots := by
  cases hst with
  | newTask req outputPath => exact h.newTask req outputPath
  | registerTask hp =>
    exact h.advance_keep (by simp [hp]) rfl (fun _ => rfl) rfl (by rw [hp]; exact Iff.rfl)
  | @beginCapture id hp hfree now =>
    -- the slot was free, so no other task holds it
    have hnone : ∀ i, ¬ (s.phase i).holdsSlot := fun i hi => by
      have hact := (h.slot i).mpr hi
      rw [activeID, hfree] at hact
      cases hact
    have hname := h.named id (by simp [hp])
    refine h.advance (by simp [hp]) rfl (activate_taskID _ _ _) ?_ fun i hi => ?_
    · rw [activate_active, hname]
      exact iff_of_true rfl trivial
    · rw [activate_active, hname]
      exact iff_of_false (fun he => hi (Option.some.inj he).symm) (hnone i)
  | beginRejected hp hbusy now =>
    exact h.advance_keep (by simp [hp]) rfl (fun _ => rfl) rfl (by rw [hp]; exact Iff.rfl)
  | dropTask hp =>
    exact h.advance_keep (by simp [hp]) rfl (fun _ => rfl) rfl (by rw [hp]; exact Iff.rfl)
  | runStartedTask hp =>
    have hslots : (s.advance _ .capturing s.server).Slots :=
      h.advance_keep (by rw [hp]; exact Phase.noConfusion) rfl (fun _ => rfl) rfl
        (by rw [hp]; exact Iff.rfl)
    exact hslots.of_server rfl rfl (fun _ => rfl) rfl
  | captureReturns hp outcome =>
    exact h.advance_keep (by simp [hp]) rfl (fun _ => rfl) rfl (by rw [hp]; exact Iff.rfl)
  | finalizeTask hp summarize =>
    exact h.advance_keep (by simp [hp]) rfl (finalizeTask_taskID _ _ _ _) rfl
      (by rw [hp]; exact Iff.rfl)
  | @endCapture id hp finishedAt now =>
    -- the task that ends is the one in the slot
    have hheld : s.activeID = some id := (h.slot id).mpr (by rw [hp]; trivial)
    have hname := h.named id (by simp [hp])
    have hfree : (s.server.endCapture cfg id finishedAt now).active = none :=
      endCapture_active (hname.symm ▸ hheld) finishedAt now
    refine h.advance (by simp [hp]) (endCapture_nextTaskID ..) (endCapture_taskID _ _ _ _ _)
      ?_ fun i hi => ?_
    · rw [hfree]
      exact iff_of_false nofun False.elim
    · rw [hfree]
      refine iff_of_false nofun fun hheld' => hi ?_
      exact Option.some.inj (((h.slot i).mpr hheld').symm.trans hheld)
  | closeDone hp =>
    exact h.advance_keep (by simp [hp]) rfl
      (updateObject_field (·.task.taskID) _ _ (fun _ => rfl)) rfl (by rw [hp]; exact Iff.rfl)
  | stopIdle hfree reason => exact h
  | stopCapture hc reason =>
    exact h.of_server rfl (cancelActive_nextTaskID ..)
      (fun i => congrArg (·.taskID) (cancelActive_task _ _ _ i)) (cancelActive_active ..)
  | stopByTaskIDIdle hother reason => exact h
  | stopCaptureByTaskID hc reason =>
    exact h.of_server rfl (cancelActive_nextTaskID ..)
      (fun i => congrArg (·.taskID) (cancelActive_task _ _ _ i)) (cancelActive_active ..)
  | monitorContinue hm hbelow => exact h
  | monitorTrip hm hreached => exact h.of_server rfl rfl (fun _ => rfl) rfl
  | monitorStopIdle hm hfree => exact h.of_server rfl rfl (fun _ => rfl) rfl
  | monitorStop hm hc =>
    exact h.of_server rfl (cancelActive_nextTaskID ..)
      (fun i => congrArg (·.taskID) (cancelActive_task _ _ _ i)) (cancelActive_active ..)
  | monitorDone hm hcancelled => exact h.of_server rfl rfl (fun _ => rfl) rfl
  | cleanupHistory now =>
    exact h.of_server rfl (cleanupHistory_nextTaskID ..)
      (fun i => by rw [cleanupHistory_object]) (cleanupHistory_active ..)

/-- Before the first request the slot is free. -/
theorem Slots.init : init.Slots :=
  ⟨fun _ _ => rfl, fun _ h => absurd rfl h, fun _ => iff_of_false nofun id⟩

/-! ## How phases move -/

/-- The moves that sections make, with the section that makes them. -/
inductive Moves : Act → TaskID → Phase → Phase → Prop where
  | created {i req path} : Moves (.newTask req path) i .absent .created
  | registered {i} : Moves (.registerTask i) i .created .registered
  | begun {i now} : Moves (.beginCapture i now) i .registered .begun
  | rejected {i now} : Moves (.beginCapture i now) i .registered .rejected
  | dropped {i} : Moves (.dropTask i) i .rejected .dropped
  | capturing {i} : Moves (.runStartedTask i) i .begun .capturing
  | returned {i o} : Moves (.captureReturns i o) i .capturing (.returned o)
  | finalised {i o m} : Moves (.finalizeTask i m) i (.returned o) .finalised
  | ended {i f now} : Moves (.endCapture i f now) i .finalised .ended
  | closed {i} : Moves (.closeDone i) i .ended .closed

/-- A section moves the phase of its own task and no other one. -/
theorem advance_phase_cases {s : System} {a : Act} {id : TaskID} {p : Phase} (srv : Server)
    (h : Moves a id (s.phase id) p) (i : TaskID) :
    (i = id ∧ Moves a i (s.phase i) ((s.advance id p srv).phase i)) ∨
      (i ≠ id ∧ (s.advance id p srv).phase i = s.phase i) := by
  by_cases hi : i = id
  · subst hi
    rw [advance_phase_self]
    exact Or.inl ⟨rfl, h⟩
  · exact Or.inr ⟨hi, advance_phase_ne s hi p srv⟩

/-- In a step, the phase of a task stays or moves. -/
theorem phase_step {cfg : Config} {s t : System} {a : Act} (h : s.Slots) (hst : Step cfg s a t)
    (i : TaskID) : t.phase i = s.phase i ∨ Moves a i (s.phase i) (t.phase i) := by
  have key : ∀ {id : TaskID} {p : Phase} (srv : Server), Moves a id (s.phase id) p →
      (s.advance id p srv).phase i = s.phase i ∨
        Moves a i (s.phase i) ((s.advance id p srv).phase i) := by
    intro id p srv hm
    rcases advance_phase_cases srv hm i with ⟨-, h⟩ | ⟨-, h⟩
    · exact Or.inr h
    · exact Or.inl h
  cases hst with
  | newTask req outputPath =>
    exact key _ (by rw [h.fresh _ (Nat.lt_succ_self _)]; exact .created)
  | registerTask hp => exact key _ (hp ▸ .registered)
  | beginCapture hp hfree now => exact key _ (hp ▸ .begun)
  | beginRejected hp hbusy now => exact key _ (hp ▸ .rejected)
  | dropTask hp => exact key _ (hp ▸ .dropped)
  | runStartedTask hp => exact key s.server (hp ▸ .capturing)
  | captureReturns hp outcome => exact key _ (hp ▸ .returned)
  | finalizeTask hp summarize => exact key _ (hp ▸ .finalised)
  | endCapture hp finishedAt now => exact key _ (hp ▸ .ended)
  | closeDone hp => exact key _ (hp ▸ .closed)
  | stopIdle hfree reason => exact Or.inl rfl
  | stopCapture hc reason => exact Or.inl rfl
  | stopByTaskIDIdle hother reason => exact Or.inl rfl
  | stopCaptureByTaskID hc reason => exact Or.inl rfl
  | monitorContinue hm hbelow => exact Or.inl rfl
  | monitorTrip hm hreached => exact Or.inl rfl
  | monitorStopIdle hm hfree => exact Or.inl rfl
  | monitorStop hm hc => exact Or.inl rfl
  | monitorDone hm hcancelled => exact Or.inl rfl
  | cleanupHistory now => exact Or.inl rfl

/-! ## The history -/

/-- What the history and the statuses say stays right when a section moves its own task forward,
and every listed task is an old one or the task itself. -/
theorem Listed.advance {s : System} (h : s.Listed) {id : TaskID} {p : Phase} {srv : Server}
    (hself : p.allows (srv.object id).task.status)
    (hother : ∀ i ≠ id, (srv.object i).task.status = (s.server.object i).task.status)
    (hover : (s.phase id).isOver → p.isOver)
    (hnodup : (srv.history.map CaptureTask.taskID).Nodup)
    (hhist : ∀ t ∈ srv.history, t ∈ s.server.history ∨ t.taskID = id ∧ p.isOver) :
    (s.advance id p srv).Listed := by
  refine ⟨fun i => ?_, hnodup, fun t ht => ?_⟩
  · by_cases hi : i = id
    · subst hi
      rw [advance_phase_self]
      exact hself
    · rw [advance_phase_ne s hi]
      have hst := h.status i
      rw [← hother i hi] at hst
      exact hst
  · by_cases hi : t.taskID = id
    · rw [hi, advance_phase_self]
      rcases hhist t ht with hold | ⟨-, hp⟩
      · exact hover (hi ▸ h.isOver t hold)
      · exact hp
    · rw [advance_phase_ne s hi]
      exact h.isOver t ((hhist t ht).resolve_right fun hc => hi hc.1)

/-- A section that leaves tasks and history alone. -/
theorem Listed.advance_keep {s : System} (h : s.Listed) {id : TaskID} {p : Phase} {srv : Server}
    (hstatus : ∀ i, (srv.object i).task.status = (s.server.object i).task.status)
    (hhist : srv.history = s.server.history)
    (hallows : ∀ st, (s.phase id).allows st → p.allows st)
    (hover : (s.phase id).isOver → p.isOver) : (s.advance id p srv).Listed := by
  refine h.advance ?_ (fun i _ => hstatus i) hover (hhist ▸ h.nodup) fun t ht => ?_
  · rw [hstatus]
    exact hallows _ (h.status id)
  · exact Or.inl (hhist ▸ ht)

/-- A section that only changes the server and shortens the history at most. -/
theorem Listed.of_server {s t : System} (h : s.Listed) (hphase : t.phase = s.phase)
    (hstatus : ∀ i, (t.server.object i).task.status = (s.server.object i).task.status)
    (hhist : t.server.history.Sublist s.server.history) : t.Listed := by
  refine ⟨fun i => ?_, h.nodup.sublist (hhist.map _), fun u hu => ?_⟩
  · rw [hphase, hstatus]
    exact h.status i
  · rw [hphase]
    exact h.isOver u (hhist.subset hu)

/-- The history that `endCapture` leaves lists every task once. -/
theorem Inv.nodup_historyWith {s : System} (h : s.Inv) {id : TaskID}
    (hp : s.phase id = .finalised) (cfg : Config) (finishedAt : Time) :
    ((s.server.historyWith cfg id finishedAt).map CaptureTask.taskID).Nodup := by
  have hname := h.named id (by simp [hp])
  refine List.Nodup.sublist ((List.take_sublist _ _).map _) ?_
  rw [List.map_cons, List.nodup_cons]
  refine ⟨fun hmem => ?_, h.nodup⟩
  obtain ⟨t, ht, hid⟩ := List.mem_map.mp hmem
  -- a listed task is over, and this one is not yet
  have hover := h.isOver t ht
  rw [hid, show (finished finishedAt (s.server.object id)).task.taskID = id from hname, hp] at hover
  exact hover

/-- What the map and the history list has been registered, behind every step too. -/
theorem Inv.listed_step {cfg : Config} {s t : System} {a : Act} (h : s.Inv)
    (hst : Step cfg s a t) : t.Listed := by
  have hl := h.toListed
  cases hst with
  | newTask req outputPath =>
    -- the id is fresh, so no task of that id is in the history
    have habsent : s.phase (s.server.nextTaskID + 1) = .absent :=
      h.fresh _ (Nat.lt_succ_self _)
    refine hl.advance ?_ (fun i hi => ?_) (by rw [habsent]; exact id) hl.nodup
      fun t ht => Or.inl ht
    · simp [Server.newTask, Phase.allows]
    · simp [Server.newTask, hi]
  | registerTask hp =>
    exact hl.advance_keep (fun _ => rfl) rfl (by rw [hp]; exact fun _ => id) (by rw [hp]; exact id)
  | @beginCapture id hp hfree now =>
    -- the started task is not in the history yet
    refine hl.advance (activate_status _ _ _) (fun i hi => ?_) (by rw [hp]; exact False.elim)
      hl.nodup fun t ht => Or.inl ht
    rw [activate_ne _ hi]
  | beginRejected hp hbusy now =>
    exact hl.advance_keep (fun _ => rfl) rfl (by rw [hp]; exact fun _ => id) (by rw [hp]; exact id)
  | dropTask hp =>
    exact hl.advance_keep (fun _ => rfl) rfl (by rw [hp]; exact fun _ => id) (by rw [hp]; exact id)
  | runStartedTask hp =>
    have hlisted : (s.advance _ .capturing s.server).Listed :=
      hl.advance_keep (fun _ => rfl) rfl (by rw [hp]; exact fun _ => id) (by rw [hp]; exact id)
    exact hlisted.of_server rfl (fun _ => rfl) (List.Sublist.refl _)
  | captureReturns hp outcome =>
    exact hl.advance_keep (fun _ => rfl) rfl (by rw [hp]; exact fun _ => id) (by rw [hp]; exact id)
  | finalizeTask hp summarize =>
    refine hl.advance (finalizeTask_status _ _ _ _) (fun i hi => ?_) (by rw [hp]; exact id)
      hl.nodup fun t ht => Or.inl ht
    rw [finalizeTask, updateObject_ne _ hi]
  | @endCapture id hp finishedAt now =>
    -- the one step that adds to the history: the finished task in front, the rest cut short
    have hname := h.named id (by simp [hp])
    have hsub := endCapture_history cfg s.server id finishedAt now
    refine hl.advance ?_ (fun i _ => endCapture_status ..) (by rw [hp]; exact False.elim)
      ((h.nodup_historyWith hp cfg finishedAt).sublist (hsub.map _)) fun t ht => ?_
    · rw [endCapture_status]
      have hstatus := hl.status id
      rw [hp] at hstatus
      exact hstatus
    · rcases List.mem_cons.mp (List.mem_of_mem_take (hsub.subset ht)) with rfl | hold
      · exact Or.inr ⟨hname, trivial⟩
      · exact Or.inl hold
  | closeDone hp =>
    exact hl.advance_keep (updateObject_field (·.task.status) _ _ (fun _ => rfl)) rfl
      (by rw [hp]; exact fun _ => id) (by rw [hp]; exact id)
  | stopIdle hfree reason => exact hl
  | stopCapture hc reason =>
    exact hl.of_server rfl (fun i => congrArg (·.status) (cancelActive_task _ _ _ i))
      (cancelActive_history_sublist ..)
  | stopByTaskIDIdle hother reason => exact hl
  | stopCaptureByTaskID hc reason =>
    exact hl.of_server rfl (fun i => congrArg (·.status) (cancelActive_task _ _ _ i))
      (cancelActive_history_sublist ..)
  | monitorContinue hm hbelow => exact hl
  | monitorTrip hm hreached => exact hl.of_server rfl (fun _ => rfl) (List.Sublist.refl _)
  | monitorStopIdle hm hfree => exact hl.of_server rfl (fun _ => rfl) (List.Sublist.refl _)
  | monitorStop hm hc =>
    exact hl.of_server rfl (fun i => congrArg (·.status) (cancelActive_task _ _ _ i))
      (cancelActive_history_sublist ..)
  | monitorDone hm hcancelled => exact hl.of_server rfl (fun _ => rfl) (List.Sublist.refl _)
  | cleanupHistory now =>
    -- the cleanup only drops entries
    exact hl.of_server rfl (fun i => by rw [cleanupHistory_object])
      (cleanupHistory_history ..)

/-- Every section keeps the invariant. -/
theorem Inv.step {cfg : Config} {s t : System} {a : Act} (h : s.Inv) (hst : Step cfg s a t) :
    t.Inv := ⟨h.toSlots.step hst, h.listed_step hst⟩

/-- The invariant holds of a service without tasks. -/
theorem Inv.init : init.Inv :=
  ⟨Slots.init, fun _ => rfl, List.nodup_nil, fun _ h => absurd h List.not_mem_nil⟩

/-- The invariant holds in every reachable state. -/
theorem inv_of_reachable {cfg : Config} {s : System}
    (h : Transition.Reachable (System.step cfg) System.init s) : s.Inv :=
  h.invariant Inv.init fun _ _ _ _ hs hst => hs.step (step_cases hst)

/-! ## What a task object shows -/

/-- The end of a task and the close of its channel show in its object. -/
structure Marked (s : System) : Prop where
  finishedAt : ∀ id, (s.server.object id).task.finishedAt.isSome = true ↔ (s.phase id).isOver
  doneClosed : ∀ id, (s.server.object id).doneClosed = true ↔ s.phase id = .closed

/-- What the two marks of a task object are. -/
def marks (o : CaptureTaskState) : Option Time × Bool := (o.task.finishedAt, o.doneClosed)

/-- A section that moves its own task keeps the marks right, when it sets those that the new phase
asks for. -/
theorem Marked.advance {s : System} (h : s.Marked) {id : TaskID} {p : Phase} {srv : Server}
    (hfinished : (srv.object id).task.finishedAt.isSome = true ↔ p.isOver)
    (hdone : (srv.object id).doneClosed = true ↔ p = .closed)
    (hother : ∀ i ≠ id, marks (srv.object i) = marks (s.server.object i)) :
    (s.advance id p srv).Marked := by
  refine ⟨fun i => ?_, fun i => ?_⟩
  · by_cases hi : i = id
    · subst hi
      rw [advance_phase_self]
      exact hfinished
    · rw [advance_phase_ne s hi]
      have hmarks := congrArg Prod.fst (hother i hi)
      rw [← h.finishedAt i]
      exact (congrArg (fun f : Option Time => f.isSome = true) hmarks).to_iff
  · by_cases hi : i = id
    · subst hi
      rw [advance_phase_self]
      exact hdone
    · rw [advance_phase_ne s hi]
      have hmarks := congrArg Prod.snd (hother i hi)
      rw [← h.doneClosed i]
      exact (congrArg (· = true) hmarks).to_iff

/-- A section that sets no mark. -/
theorem Marked.advance_keep {s : System} (h : s.Marked) {id : TaskID} {p : Phase} {srv : Server}
    (hmarks : ∀ i, marks (srv.object i) = marks (s.server.object i))
    (hover : (s.phase id).isOver ↔ p.isOver) (hclosed : s.phase id = .closed ↔ p = .closed) :
    (s.advance id p srv).Marked := by
  have hself := hmarks id
  simp only [marks, Prod.mk.injEq] at hself
  refine h.advance ?_ ?_ fun i _ => hmarks i
  · rw [hself.1, h.finishedAt, hover]
  · rw [hself.2, h.doneClosed, hclosed]

/-- A section outside the requests. -/
theorem Marked.of_server {s t : System} (h : s.Marked) (hphase : t.phase = s.phase)
    (hmarks : ∀ i, marks (t.server.object i) = marks (s.server.object i)) : t.Marked := by
  refine ⟨fun i => ?_, fun i => ?_⟩
  · rw [hphase, ← h.finishedAt i]
    exact (congrArg (fun f : Option Time => f.isSome = true) (congrArg Prod.fst (hmarks i))).to_iff
  · rw [hphase, ← h.doneClosed i]
    exact (congrArg (· = true) (congrArg Prod.snd (hmarks i))).to_iff

/-- `finalizeTask` neither ends a capture nor closes a channel. -/
theorem finalizeTask_marks (s : Server) (id : TaskID)
    (outcome : Except CaptureError CaptureResult) (summarize : Except String Summary)
    (i : TaskID) : marks ((s.finalizeTask id outcome summarize).object i) = marks (s.object i) := by
  refine updateObject_field marks s id (fun o => ?_) i
  cases outcome with
  | error err =>
    cases err with
    | canceled =>
      simp only [finalizeError]
      split <;> rfl
    | cmd errorCode message hint =>
      simp only [finalizeError]
      split <;> rfl
    | other message => rfl
  | ok resp =>
    simp only [finalizeResult]
    repeat' split
    all_goals rfl

/-- Every section keeps the marks right: only `endCapture` and `closeDone` set one. -/
theorem Marked.step {cfg : Config} {s t : System} {a : Act} (h : s.Marked)
    (hst : Step cfg s a t) : t.Marked := by
  cases hst with
  | newTask req outputPath =>
    -- the new object has neither mark, and no other object changes
    refine h.advance ?_ ?_ fun i hne => congrArg marks (newTask_ne s.server hne req outputPath)
    · simp [Server.newTask, Phase.isOver]
    · simp [Server.newTask]
  | registerTask hp => exact h.advance_keep (fun _ => rfl) (by rw [hp]; rfl) (by simp [hp])
  | @beginCapture id hp hfree now =>
    refine h.advance_keep (fun i => ?_) (by rw [hp]; rfl) (by simp [hp])
    exact updateObject_field marks s.server id (f := started now) (fun _ => rfl) i
  | beginRejected hp hbusy now =>
    exact h.advance_keep (fun _ => rfl) (by rw [hp]; rfl) (by simp [hp])
  | dropTask hp => exact h.advance_keep (fun _ => rfl) (by rw [hp]; rfl) (by simp [hp])
  | runStartedTask hp =>
    have hmarked : (s.advance _ .capturing s.server).Marked :=
      h.advance_keep (fun _ => rfl) (by rw [hp]; rfl) (by simp [hp])
    exact hmarked.of_server rfl fun _ => rfl
  | captureReturns hp outcome =>
    exact h.advance_keep (fun _ => rfl) (by rw [hp]; rfl) (by simp [hp])
  | finalizeTask hp summarize =>
    exact h.advance_keep (finalizeTask_marks _ _ _ _) (by rw [hp]; rfl) (by simp [hp])
  | @endCapture id hp finishedAt now =>
    -- the finish time is set here, while the channel is still open
    have hopen : (s.server.object id).doneClosed = false := by
      rw [← Bool.not_eq_true, h.doneClosed, hp]
      exact Phase.noConfusion
    refine h.advance ?_ ?_ fun i hne => congrArg marks (endCapture_ne hne finishedAt now)
    · rw [endCapture_self]
      exact iff_of_true rfl trivial
    · rw [endCapture_doneClosed, hopen]
      exact iff_of_false Bool.false_ne_true Phase.noConfusion
  | @closeDone id hp =>
    -- the finish time was set by `endCapture`, which has run before
    refine h.advance ?_ (by simp [Server.closeDone]) fun i hne =>
      congrArg marks (closeDone_ne _ hne)
    have hfinished := h.finishedAt id
    rw [hp] at hfinished
    simpa [Server.closeDone, Phase.isOver] using hfinished
  | stopIdle hfree reason => exact h
  | stopCapture hc reason =>
    exact h.of_server rfl (cancelActive_field marks _ _ _ (fun _ => rfl) fun _ => rfl)
  | stopByTaskIDIdle hother reason => exact h
  | stopCaptureByTaskID hc reason =>
    exact h.of_server rfl (cancelActive_field marks _ _ _ (fun _ => rfl) fun _ => rfl)
  | monitorContinue hm hbelow => exact h
  | monitorTrip hm hreached => exact h.of_server rfl fun _ => rfl
  | monitorStopIdle hm hfree => exact h.of_server rfl fun _ => rfl
  | monitorStop hm hc =>
    exact h.of_server rfl (cancelActive_field marks _ _ _ (fun _ => rfl) fun _ => rfl)
  | monitorDone hm hcancelled => exact h.of_server rfl fun _ => rfl
  | cleanupHistory now => exact h.of_server rfl fun i => by rw [cleanupHistory_object]

/-- In every reachable state the marks of a task say how far it has come. -/
theorem marked_of_reachable {cfg : Config} {s : System}
    (h : Transition.Reachable (System.step cfg) System.init s) : s.Marked :=
  h.invariant ⟨fun _ => iff_of_false Bool.false_ne_true id,
      fun _ => iff_of_false Bool.false_ne_true Phase.noConfusion⟩
    fun _ _ _ _ hs hst => hs.step (step_cases hst)

end System

end UsbPcap.Service
