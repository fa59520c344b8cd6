import UsbPcap.Service.Invariant

/-!
# The goroutines of the capture requests

`Code` is what the goroutine of a request has left to do, one call after the other; `finalizeTask`
calls `endCapture` in each of its four exits and closes the task's channel when it returns. A step
of `Goroutines` lets one goroutine make its next call, or a stop, a monitor or the periodic cleanup
come in between. By `Goroutines.reachable_simulated` the sections come in the order that `Phase`
prescribes, so what holds in every state of `System` holds of the service that runs these programs.
-/

namespace UsbPcap.Service

open Server Transition

/-! ## The programs -/

/-- What a goroutine has left to do: its next call, and what follows when that returns. -/
inductive Code where
  | ret
  | registerTask (rest : Code)
  | beginCapture (rest : Except String Unit → Code)
  | dropTask (rest : Code)
  | monitorCapture (rest : Code)
  | captureContext (rest : Except CaptureError CaptureResult → Code)
  | summarize (rest : Except String Summary → Code)
  | record (f : CaptureTaskState → CaptureTaskState) (rest : Code)
  | endCapture (rest : Code)
  | cleanupCaptureFiles (rest : Code)
  | closeDone (rest : Code)

namespace Code

/-- A body with a deferred call, which is made where the body returns. -/
def defer (deferred : Code) : Code → Code
  | .ret => deferred
  | .registerTask rest => .registerTask (defer deferred rest)
  | .beginCapture rest => .beginCapture fun r => defer deferred (rest r)
  | .dropTask rest => .dropTask (defer deferred rest)
  | .monitorCapture rest => .monitorCapture (defer deferred rest)
  | .captureContext rest => .captureContext fun r => defer deferred (rest r)
  | .summarize rest => .summarize fun r => defer deferred (rest r)
  | .record f rest => .record f (defer deferred rest)
  | .endCapture rest => .endCapture (defer deferred rest)
  | .cleanupCaptureFiles rest => .cleanupCaptureFiles (defer deferred rest)
  | .closeDone rest => .closeDone (defer deferred rest)

/-- The task object of a capture that matched nothing. -/
def noMatch (resp : CaptureResult) (o : CaptureTaskState) : CaptureTaskState :=
  { o with task := { o.task with
      triggered := resp.triggered
      matchedDevices := resp.matchedDevices
      storeMode := resp.storeMode
      status := .noMatch
      message := trimSpace resp.reason } }

/-- `finalizeTask`. What an exit writes into the task is one section here. -/
def finalizeTask (outcome : Except CaptureError CaptureResult) : Code :=
  defer (.closeDone .ret) <|
    match outcome with
    | .error err =>
      .record (finalizeError · err) <| .endCapture <| .cleanupCaptureFiles .ret
    | .ok resp =>
      if resp.output = none ∧ resp.triggered = false then
        .record (noMatch resp) <| .endCapture <| .cleanupCaptureFiles .ret
      else
        .summarize fun
          | .error message =>
            .record (finalizeResult · resp (.error message)) <| .endCapture <|
              .cleanupCaptureFiles .ret
          | .ok summary =>
            .record (finalizeResult · resp (.ok summary)) <| .endCapture <|
              .cleanupCaptureFiles .ret

/-- `runStartedTask` -/
def runStartedTask : Code := .monitorCapture <| .captureContext finalizeTask

/-- What follows `beginCapture`: the request drops its task, or `runStartedTask` is started. -/
def afterBegin : Except String Unit → Code
  | .error _ => .dropTask .ret
  | .ok () => runStartedTask

/-- The way of a task from its registration on. A request that waits for the task waits for its
channel and takes no section meanwhile. -/
def startTask : Code := .registerTask <| .beginCapture afterBegin

end Code

/-- The requests that capture. -/
inductive CaptureTool where
  | captureOnce
  | startCapture
  | smartCapture
  | profileDevice

/-- What the request does with its new task: the four paths agree. -/
def CaptureTool.code : CaptureTool → Code
  | .captureOnce => Code.startTask
  | .startCapture => Code.startTask
  | .smartCapture => Code.startTask
  | .profileDevice => Code.startTask

/-! ## The steps -/

/-- The service and what its goroutines have left to do. `panicked` says that a closed channel was
closed again, which ends the process. -/
structure Goroutines where
  server : Server
  code : TaskID → Code
  monitor : TaskID → Monitor
  panicked : Bool

/-- What a call reads from outside: the clock, the capture's outcome, the summary. -/
structure Input where
  finishedAt : Time
  now : Time
  outcome : Except CaptureError CaptureResult
  summary : Except String Summary

/-- The section belongs to no request: a stop, a monitor, the periodic cleanup. -/
def Act.isOutside : Act → Bool
  | .stopCapture _ | .stopCaptureByTaskID _ _ | .monitorTick _ _ _ | .monitorStop _
  | .monitorDone _ | .cleanupHistory _ => true
  | _ => false

namespace Goroutines

/-- What may happen: a request makes its task, a goroutine makes its next call, or a section of
`System` outside the requests is executed. -/
inductive Act where
  | request (tool : CaptureTool) (req : Request) (outputPath : String)
  | goroutine (id : TaskID) (input : Input)
  | outside (a : Service.Act)

/-- The service before its first request. -/
def init : Goroutines where
  server := newServer
  code := fun _ => .ret
  monitor := fun _ => .absent
  panicked := false

/-- The goroutine of task `id` has made a call and has `rest` left. -/
def goOn (s : Goroutines) (id : TaskID) (rest : Code) (server : Server) : Goroutines :=
  { s with server := server, code := Function.update s.code id rest }

/-- The next call of task `id`'s goroutine. -/
def exec (cfg : Config) (s : Goroutines) (id : TaskID) (input : Input) : Option Goroutines :=
  match s.code id with
  | .ret => none
  | .registerTask rest => some (s.goOn id rest (s.server.registerTask id))
  | .beginCapture rest =>
    match s.server.beginCapture id input.now with
    | .ok server => some (s.goOn id (rest (.ok ())) server)
    | .error message => some (s.goOn id (rest (.error message)) s.server)
  | .dropTask rest => some (s.goOn id rest (s.server.dropTask id))
  | .monitorCapture rest =>
    some { s.goOn id rest s.server with monitor := Function.update s.monitor id .waiting }
  | .captureContext rest => some (s.goOn id (rest input.outcome) s.server)
  | .summarize rest => some (s.goOn id (rest input.summary) s.server)
  | .record f rest => some (s.goOn id rest (s.server.updateObject id f))
  | .endCapture rest =>
    some (s.goOn id rest (s.server.endCapture cfg id input.finishedAt input.now))
  -- the capture files on the disk are no part of the server
  | .cleanupCaptureFiles rest => some (s.goOn id rest s.server)
  | .closeDone rest =>
    if (s.server.object id).doneClosed then some { s with panicked := true }
    else some (s.goOn id rest (s.server.closeDone id))

/-- The service as `System` sees it, with the requests standing at `phase`. -/
def withPhase (s : Goroutines) (phase : TaskID → Phase) : System where
  server := s.server
  phase := phase
  monitor := s.monitor

/-- One step. Sections outside the requests look at no phase. -/
def step (cfg : Config) (s : Goroutines) (a : Act) : Option Goroutines :=
  if s.panicked then none
  else
    match a with
    | .request tool req outputPath =>
      let r := s.server.newTask req outputPath
      some (s.goOn r.1 tool.code r.2)
    | .goroutine id input => exec cfg s id input
    | .outside a =>
      if a.isOutside then
        (System.step cfg (s.withPhase fun _ => .absent) a).map fun t =>
          { s with server := t.server, monitor := t.monitor }
      else none

end Goroutines

/-! ## The goroutines against the phases -/

namespace Code

/-- What is left once the result has been recorded. -/
def ending : Code := .endCapture <| .cleanupCaptureFiles <| .closeDone .ret

/-- `f` writes what `Server.finalizeTask` writes for this outcome. -/
def Records (outcome : Except CaptureError CaptureResult)
    (f : CaptureTaskState → CaptureTaskState) : Prop :=
  ∃ summarize, ∀ (s : Server) id, s.updateObject id f = s.finalizeTask id outcome summarize

/-- The code is inside `finalizeTask` and has not recorded the outcome. -/
inductive Finalizing (outcome : Except CaptureError CaptureResult) : Code → Prop where
  | record {f} (h : Records outcome f) : Finalizing outcome (.record f ending)
  | summarize {rest : Except String Summary → Code}
      {f : Except String Summary → CaptureTaskState → CaptureTaskState}
      (h : ∀ summary, rest summary = .record (f summary) ending ∧ Records outcome (f summary)) :
    Finalizing outcome (.summarize rest)

/-- Every exit of `finalizeTask` records the outcome, ends the task and closes its channel. -/
theorem finalizeTask_finalizing (outcome : Except CaptureError CaptureResult) :
    Finalizing outcome (finalizeTask outcome) := by
  cases outcome with
  | error err => exact .record ⟨.error "", fun _ _ => rfl⟩
  | ok resp =>
    by_cases hmatch : resp.output = none ∧ resp.triggered = false
    · have hcode : finalizeTask (.ok resp) = .record (noMatch resp) ending := by
        simp only [finalizeTask, if_pos hmatch]
        rfl
      rw [hcode]
      refine .record ⟨.error "", fun s id => ?_⟩
      refine congrArg (s.updateObject id) (funext fun o => ?_)
      simp only [finalizeResult, if_pos hmatch]
      rfl
    · have hcode : finalizeTask (.ok resp) = .summarize fun summary =>
          .record (finalizeResult · resp summary) ending := by
        simp only [finalizeTask, if_neg hmatch, defer]
        refine congrArg _ (funext fun summary => ?_)
        cases summary <;> rfl
      rw [hcode]
      exact .summarize fun summary => ⟨rfl, summary, fun _ _ => rfl⟩

/-- The code that a goroutine in a phase has left. -/
inductive Stands : Phase → Code → Prop where
  | absent : Stands .absent .ret
  | created : Stands .created startTask
  | registered : Stands .registered (.beginCapture afterBegin)
  | rejected : Stands .rejected (.dropTask .ret)
  | dropped : Stands .dropped .ret
  | begun : Stands .begun runStartedTask
  | capturing : Stands .capturing (.captureContext finalizeTask)
  | returned {outcome code} (h : Finalizing outcome code) : Stands (.returned outcome) code
  | finalised : Stands .finalised ending
  | cleaning : Stands .ended (.cleanupCaptureFiles <| .closeDone .ret)
  | ended : Stands .ended (.closeDone .ret)
  | closed : Stands .closed .ret

/-- The calls that a task's goroutine makes once. -/
inductive Call where
  | record
  | endCapture
  | closeDone
deriving DecidableEq

/-- The next call, where it is one of these. -/
def call : Code → Option Call
  | .record _ _ => some .record
  | .endCapture _ => some .endCapture
  | .closeDone _ => some .closeDone
  | _ => none

/-- The calls that are left at most. -/
def size : Code → ℕ
  | .monitorCapture _ => 7
  | .captureContext _ => 6
  | .summarize _ => 5
  | .record _ _ => 4
  | .endCapture _ => 3
  | .cleanupCaptureFiles _ => 2
  | .closeDone _ => 1
  | _ => 0

end Code

/-! ## Progress of a task that has begun -/

/-- How far a task that has begun has come. -/
def Phase.progress : Phase → ℕ
  | .begun => 1
  | .capturing => 2
  | .returned _ => 3
  | .finalised => 4
  | .ended => 5
  | .closed => 6
  | _ => 0

/-- The task whose goroutine executes the section after `beginCapture`, and the stage of its
progress that the section reaches. -/
def Act.stage : Act → Option (TaskID × ℕ)
  | .runStartedTask id => some (id, 2)
  | .captureReturns id _ => some (id, 3)
  | .finalizeTask id _ => some (id, 4)
  | .endCapture id _ _ => some (id, 5)
  | .closeDone id => some (id, 6)
  | _ => none

namespace System

/-- A task never goes back. -/
theorem progress_step {cfg : Config} {s t : System} {a : Act} (hi : s.Inv)
    (hst : Step cfg s a t) (id : TaskID) : (s.phase id).progress ≤ (t.phase id).progress := by
  rcases phase_step hi.toSlots hst id with heq | hmove
  · rw [heq]
  · generalize s.phase id = p at hmove
    generalize t.phase id = q at hmove
    cases hmove <;> simp [Phase.progress]

/-- A section of the task's goroutine brings it to the next stage. -/
theorem stage_step {cfg : Config} {s t : System} {a : Act} {id : TaskID} {k : ℕ}
    (hst : Step cfg s a t) (ha : a.stage = some (id, k)) :
    (s.phase id).progress + 1 = k ∧ (t.phase id).progress = k := by
  cases hst with
  | runStartedTask hp =>
    cases ha
    simp [advanceMonitor, advance, hp, Phase.progress]
  | captureReturns hp outcome =>
    cases ha
    simp [advance, hp, Phase.progress]
  | finalizeTask hp summarize =>
    cases ha
    simp [advance, hp, Phase.progress]
  | endCapture hp finishedAt now =>
    cases ha
    simp [advance, hp, Phase.progress]
  | closeDone hp =>
    cases ha
    simp [advance, hp, Phase.progress]
  | _ => cases ha

/-- Only such a section brings the task to a later stage. -/
theorem stage_iff {cfg : Config} {s t : System} {a : Act} (hi : s.Inv) (hst : Step cfg s a t)
    (id : TaskID) {k : ℕ} (hk : 2 ≤ k) :
    a.stage = some (id, k) ↔ ¬ k ≤ (s.phase id).progress ∧ k ≤ (t.phase id).progress := by
  constructor
  · intro ha
    have := stage_step hst ha
    omega
  · rintro ⟨hs, ht⟩
    rcases phase_step hi.toSlots hst id with heq | hmove
    · rw [heq] at ht
      exact absurd ht hs
    · generalize s.phase id = p at hmove hs
      generalize t.phase id = q at hmove ht
      cases hmove
      all_goals
        simp only [Phase.progress] at hs ht
        first | omega | (simp only [Act.stage, Option.some.injEq, Prod.mk.injEq, true_and]; omega)

end System

/-! ## The simulation -/

/-- The stage of a task's progress that the call reaches. -/
def Code.Call.stage : Code.Call → ℕ
  | .record => 4
  | .endCapture => 5
  | .closeDone => 6

namespace Goroutines

/-- The step makes call `c` for task `id`. -/
def makes (c : Code.Call) (id : TaskID) (s : Goroutines) : Act → Bool
  | .goroutine i _ => decide (i = id ∧ (s.code i).call = some c)
  | _ => false

/-- The goroutines have left what the phases say. -/
structure Simulates (s : Goroutines) (σ : System) : Prop where
  server : σ.server = s.server
  monitor : σ.monitor = s.monitor
  stands : ∀ id, Code.Stands (σ.phase id) (s.code id)
  alive : s.panicked = false

/-- At the start neither system has a task. -/
theorem Simulates.init : Simulates init System.init :=
  ⟨rfl, rfl, fun _ => .absent, rfl⟩

/-- A goroutine that makes a call moves its task from one phase to another. -/
theorem Simulates.goOn {s : Goroutines} {σ : System} (h : Simulates s σ) (id : TaskID)
    {p : Phase} {rest : Code} (hp : Code.Stands p rest) (server : Server) :
    Simulates (s.goOn id rest server) (σ.advance id p server) := by
  refine ⟨rfl, h.monitor, fun i => ?_, h.alive⟩
  by_cases hi : i = id
  · subst hi
    rw [System.advance_phase_self]
    simpa [Goroutines.goOn] using hp
  · rw [System.advance_phase_ne σ hi]
    simpa [Goroutines.goOn, hi] using h.stands i

/-- What answers a step: nothing, and then the step makes none of the three calls, or a section that
reaches the stage of the call that the step makes. -/
def Answers (cfg : Config) (s : Goroutines) (a : Act) (t : Goroutines) (σ : System) : Prop :=
  (Simulates t σ ∧ ∀ c id, makes c id s a = false) ∨
    ∃ b τ, System.step cfg σ b = some τ ∧ Simulates t τ ∧
      ∀ c id, makes c id s a = true ↔ b.stage = some (id, c.stage)

/-- Every call of a goroutine is the section that follows its phase. -/
theorem Simulates.exec {cfg : Config} {s t : Goroutines} {σ : System} {id : TaskID}
    {input : Input} (h : Simulates s σ) (hm : σ.Marked) (hst : exec cfg s id input = some t) :
    Answers cfg s (.goroutine id input) t σ := by
  have hstands := h.stands id
  generalize hp : σ.phase id = p at hstands
  generalize hc : s.code id = code at hstands
  have hmakes : ∀ c i, makes c i s (.goroutine id input) = decide (id = i ∧ code.call = some c) :=
    fun c i => by rw [makes, hc]
  have hopen : p ≠ .closed → (s.server.object id).doneClosed = false := fun hne => by
    rw [← h.server, ← Bool.not_eq_true, hm.doneClosed, hp]
    exact hne
  unfold Answers
  simp only [hmakes]
  unfold Goroutines.exec at hst
  rw [hc] at hst
  cases hstands with
  | absent => cases hst
  | created =>
    obtain rfl := Option.some.inj hst
    refine Or.inr ⟨.registerTask id, σ.advance id .registered (σ.server.registerTask id),
      by simp only [System.step, hp], ?_, ?_⟩
    · rw [h.server]
      exact h.goOn id .registered _
    · intro c i
      simp [Code.startTask, Code.call, Service.Act.stage]
  | registered =>
    simp only [Server.beginCapture] at hst
    refine Or.inr ⟨.beginCapture id input.now, ?_⟩
    simp only [System.step, hp, Server.beginCapture, h.server]
    by_cases hfree : s.server.active = none
    · rw [if_pos hfree] at hst ⊢
      obtain rfl := Option.some.inj hst
      refine ⟨_, rfl, h.goOn id .begun _, fun c i => ?_⟩
      simp [Code.call, Service.Act.stage]
    · rw [if_neg hfree] at hst ⊢
      obtain rfl := Option.some.inj hst
      refine ⟨_, rfl, h.goOn id .rejected _, fun c i => ?_⟩
      simp [Code.call, Service.Act.stage]
  | rejected =>
    obtain rfl := Option.some.inj hst
    refine Or.inr ⟨.dropTask id, σ.advance id .dropped (σ.server.dropTask id),
      by simp only [System.step, hp], ?_, ?_⟩
    · rw [h.server]
      exact h.goOn id .dropped _
    · intro c i
      simp [Code.call, Service.Act.stage]
  | dropped => cases hst
  | begun =>
    obtain rfl := Option.some.inj hst
    refine Or.inr ⟨.runStartedTask id,
      (σ.advance id .capturing σ.server).advanceMonitor id .waiting σ.server,
      by simp only [System.step, hp], ?_, ?_⟩
    · have hgo := h.goOn id .capturing s.server
      exact ⟨h.server, by rw [System.advanceMonitor, ← h.monitor]; rfl, hgo.stands, h.alive⟩
    · intro c i
      cases c <;> simp [Code.runStartedTask, Code.call, Service.Act.stage, Code.Call.stage]
  | capturing =>
    obtain rfl := Option.some.inj hst
    refine Or.inr ⟨.captureReturns id input.outcome,
      σ.advance id (.returned input.outcome) σ.server,
      by simp only [System.step, hp], ?_, ?_⟩
    · rw [h.server]
      exact h.goOn id (.returned (Code.finalizeTask_finalizing _)) _
    · intro c i
      cases c <;> simp [Code.call, Service.Act.stage, Code.Call.stage]
  | @returned outcome code hfinal =>
    cases hfinal with
    | record hrecords =>
      obtain ⟨summarize, hrecords⟩ := hrecords
      obtain rfl := Option.some.inj hst
      refine Or.inr ⟨.finalizeTask id summarize,
        σ.advance id .finalised (σ.server.finalizeTask id outcome summarize),
        by simp only [System.step, hp], ?_, ?_⟩
      · rw [h.server, ← hrecords]
        exact h.goOn id .finalised _
      · intro c i
        cases c <;> simp [Code.call, Service.Act.stage, Code.Call.stage]
    | @summarize rest f hrest =>
      -- the summary is read and nothing else happens
      obtain rfl := Option.some.inj hst
      refine Or.inl ⟨⟨h.server, h.monitor, fun i => ?_, h.alive⟩, fun c i => ?_⟩
      · by_cases hi : i = id
        · subst hi
          obtain ⟨hcode, hrecords⟩ := hrest input.summary
          rw [hp, Goroutines.goOn]
          simp only [Function.update_self, hcode]
          exact .returned (.record hrecords)
        · simpa [Goroutines.goOn, hi] using h.stands i
      · simp [Code.call]
  | finalised =>
    obtain rfl := Option.some.inj hst
    refine Or.inr ⟨.endCapture id input.finishedAt input.now,
      σ.advance id .ended (σ.server.endCapture cfg id input.finishedAt input.now),
      by simp only [System.step, hp], ?_, ?_⟩
    · rw [h.server]
      exact h.goOn id .cleaning _
    · intro c i
      cases c <;> simp [Code.ending, Code.call, Service.Act.stage, Code.Call.stage]
  | cleaning =>
    -- the files are removed, which the server does not show
    obtain rfl := Option.some.inj hst
    refine Or.inl ⟨⟨h.server, h.monitor, fun i => ?_, h.alive⟩, fun c i => by simp [Code.call]⟩
    by_cases hi : i = id
    · subst hi
      rw [hp, Goroutines.goOn]
      simp only [Function.update_self]
      exact .ended
    · simpa [Goroutines.goOn, hi] using h.stands i
  | ended =>
    simp only [hopen Phase.noConfusion, Bool.false_eq_true, if_false] at hst
    obtain rfl := Option.some.inj hst
    refine Or.inr ⟨.closeDone id, σ.advance id .closed (σ.server.closeDone id),
      by simp only [System.step, hp], ?_, ?_⟩
    · rw [h.server]
      exact h.goOn id .closed _
    · intro c i
      cases c <;> simp [Code.call, Service.Act.stage, Code.Call.stage]
  | closed => cases hst

/-- A section outside the requests is the same wherever the requests stand. -/
theorem step_outside {cfg : Config} {s : Goroutines} {a : Service.Act} {t : System}
    (ha : a.isOutside = true) {q : TaskID → Phase} (h : System.step cfg (s.withPhase q) a = some t)
    (phase : TaskID → Phase) :
    System.step cfg (s.withPhase phase) a = some { t with phase := phase } := by
  cases a with
  | stopCapture reason =>
    -- the stops read the active capture, not the phases
    obtain rfl := Option.some.inj h
    rfl
  | stopCaptureByTaskID taskID reason =>
    obtain rfl := Option.some.inj h
    rfl
  | monitorTick id stat now =>
    -- the monitors read their own state and the file
    simp only [System.step, withPhase] at h ⊢
    split at h
    · split at h
      · obtain rfl := Option.some.inj h
        rfl
      · obtain rfl := Option.some.inj h
        rfl
    · cases h
  | monitorStop id =>
    simp only [System.step, withPhase] at h ⊢
    split at h
    · obtain rfl := Option.some.inj h
      rfl
    · cases h
  | monitorDone id =>
    -- the cancelled context is in the task's object
    cases System.step_cases h with
    | monitorDone hwaiting hcancelled =>
      change (s.withPhase phase).monitor id = .waiting at hwaiting
      simp only [System.step, hwaiting]
      exact if_pos hcancelled
  | cleanupHistory now =>
    obtain rfl := Option.some.inj h
    rfl
  | _ => cases ha

/-- A section of no goroutine makes no call. -/
theorem stage_outside {a : Service.Act} (ha : a.isOutside = true) : a.stage = none := by
  cases a <;> first | rfl | cases ha

/-- Every step is answered. -/
theorem Simulates.step {cfg : Config} {s t : Goroutines} {σ : System} {a : Act}
    (h : Simulates s σ) (hm : σ.Marked) (hst : step cfg s a = some t) : Answers cfg s a t σ := by
  unfold Goroutines.step at hst
  rw [if_neg (by rw [h.alive]; exact Bool.false_ne_true)] at hst
  cases a with
  | request tool req outputPath =>
    obtain rfl := Option.some.inj hst
    have hcode : Code.Stands .created tool.code := by
      cases tool <;> exact .created
    refine Or.inr ⟨.newTask req outputPath, _, rfl, ?_, fun c i => ?_⟩
    · rw [h.server]
      exact h.goOn _ hcode _
    · simp [makes, Service.Act.stage]
  | goroutine id input => exact h.exec hm hst
  | outside a =>
    simp only at hst
    split at hst
    · rename_i ha
      obtain ⟨u, hu, rfl⟩ := Option.map_eq_some_iff.mp hst
      have hσ : σ = s.withPhase σ.phase := by
        rw [withPhase, ← h.server, ← h.monitor]
      refine Or.inr ⟨a, { u with phase := σ.phase }, ?_, ⟨rfl, rfl, h.stands, h.alive⟩,
        fun c i => ?_⟩
      · conv_lhs => rw [hσ]
        exact step_outside ha hu σ.phase
      · simp [makes, stage_outside ha]
    · cases hst

/-- The programs refine the system of sections: every reachable state of the service that runs them
is a reachable state of `System`, with each goroutine where its phase says. -/
theorem reachable_simulated {cfg : Config} {s : Goroutines} (h : Reachable (step cfg) init s) :
    ∃ σ, Reachable (System.step cfg) System.init σ ∧ Simulates s σ := by
  refine h.simulated .init fun s a t σ hr hsim hst => ?_
  rcases hsim.step (System.marked_of_reachable hr) hst with ⟨hstay, -⟩ | ⟨b, τ, hb, hτ, -⟩
  · exact Or.inl hstay
  · exact Or.inr ⟨b, τ, hb, hτ⟩

end Goroutines

end UsbPcap.Service
