import UsbPcap.Lib.Transition
import UsbPcap.Service.Server

/-!
# The capture service as a transition system

Every request goroutine, every monitor goroutine and the periodic cleanup take their critical
sections one at a time, in any order. `Phase` is where the goroutine of a task stands and `Monitor`
where the task's monitor stands; an action names the section that is executed and what it reads
from outside: the clock, the result of the capture, the file information, the summary.
-/

namespace UsbPcap.Service

open Server

/-- Where the request that made a task stands. -/
inductive Phase where
  | absent
  | created
  | registered
  | rejected
  | dropped
  | begun
  | capturing
  | returned (outcome : Except CaptureError CaptureResult)
  | finalised
  | ended
  | closed

/-- Where the monitor of a task stands. -/
inductive Monitor where
  | absent
  | waiting
  | tripped (reason : StopReason)
  | returned

/-- The service and the positions of its goroutines. -/
structure System where
  server : Server
  phase : TaskID → Phase
  monitor : TaskID → Monitor

/-- The sections that goroutines execute. -/
inductive Act where
  | newTask (req : Request) (outputPath : String)
  | registerTask (id : TaskID)
  | beginCapture (id : TaskID) (now : Time)
  | dropTask (id : TaskID)
  | runStartedTask (id : TaskID)
  | captureReturns (id : TaskID) (outcome : Except CaptureError CaptureResult)
  | finalizeTask (id : TaskID) (summarize : Except String Summary)
  | endCapture (id : TaskID) (finishedAt now : Time)
  | closeDone (id : TaskID)
  | stopCapture (reason : StopReason)
  | stopCaptureByTaskID (taskID : TaskID) (reason : StopReason)
  | monitorTick (id : TaskID) (stat : Option FileInfo) (now : Time)
  | monitorStop (id : TaskID)
  | monitorDone (id : TaskID)
  | cleanupHistory (now : Time)

namespace System

/-- The service before its first request. -/
def init : System where
  server := newServer
  phase := fun _ => .absent
  monitor := fun _ => .absent

/-- The goroutine of task `id` has executed a section and stands at `p`. -/
def advance (s : System) (id : TaskID) (p : Phase) (server : Server) : System :=
  { s with server := server, phase := Function.update s.phase id p }

/-- The monitor of task `id` has executed a section and stands at `m`. -/
def advanceMonitor (s : System) (id : TaskID) (m : Monitor) (server : Server) : System :=
  { s with server := server, monitor := Function.update s.monitor id m }

/-- One section. -/
def step (cfg : Config) (s : System) : Act → Option System
  | .newTask req outputPath =>
    let r := s.server.newTask req outputPath
    some (s.advance r.1 .created r.2)
  | .registerTask id =>
    match s.phase id with
    | .created => some (s.advance id .registered (s.server.registerTask id))
    | _ => none
  | .beginCapture id now =>
    match s.phase id with
    | .registered =>
      match s.server.beginCapture id now with
      | .ok server => some (s.advance id .begun server)
      | .error _ => some (s.advance id .rejected s.server)
    | _ => none
  | .dropTask id =>
    match s.phase id with
    | .rejected => some (s.advance id .dropped (s.server.dropTask id))
    | _ => none
  | .runStartedTask id =>
    match s.phase id with
    | .begun => some ((s.advance id .capturing s.server).advanceMonitor id .waiting s.server)
    | _ => none
  | .captureReturns id outcome =>
    match s.phase id with
    | .capturing => some (s.advance id (.returned outcome) s.server)
    | _ => none
  | .finalizeTask id summarize =>
    match s.phase id with
    | .returned outcome =>
      some (s.advance id .finalised (s.server.finalizeTask id outcome summarize))
    | _ => none
  | .endCapture id finishedAt now =>
    match s.phase id with
    | .finalised => some (s.advance id .ended (s.server.endCapture cfg id finishedAt now))
    | _ => none
  | .closeDone id =>
    match s.phase id with
    | .ended => some (s.advance id .closed (s.server.closeDone id))
    | _ => none
  | .stopCapture reason => some { s with server := (s.server.stopCapture reason).2 }
  | .stopCaptureByTaskID taskID reason =>
    some { s with server := (s.server.stopCaptureByTaskID taskID reason).2 }
  | .monitorTick id stat now =>
    match s.monitor id with
    | .waiting =>
      match Server.monitorTick (s.server.object id).req stat now with
      | none => some s
      | some reason => some (s.advanceMonitor id (.tripped reason) s.server)
    | _ => none
  | .monitorStop id =>
    match s.monitor id with
    | .tripped reason => some (s.advanceMonitor id .returned (s.server.stopCapture reason).2)
    | _ => none
  | .monitorDone id =>
    match s.monitor id with
    | .waiting =>
      if (s.server.object id).cancelled = some true then
        some (s.advanceMonitor id .returned s.server)
      else none
    | _ => none
  | .cleanupHistory now => some { s with server := s.server.cleanupHistory cfg now }

/-- What a step can do, one constructor for each section and branch. -/
inductive Step (cfg : Config) (s : System) : Act → System → Prop where
  | newTask (req : Request) (outputPath : String) :
    Step cfg s (.newTask req outputPath)
      (s.advance (s.server.nextTaskID + 1) .created (s.server.newTask req outputPath).2)
  | registerTask {id : TaskID} (h : s.phase id = .created) :
    Step cfg s (.registerTask id) (s.advance id .registered (s.server.registerTask id))
  | beginCapture {id : TaskID} (h : s.phase id = .registered) (free : s.server.active = none)
      (now : Time) :
    Step cfg s (.beginCapture id now) (s.advance id .begun (s.server.activate id now))
  | beginRejected {id : TaskID} (h : s.phase id = .registered) (busy : s.server.active ≠ none)
      (now : Time) :
    Step cfg s (.beginCapture id now) (s.advance id .rejected s.server)
  | dropTask {id : TaskID} (h : s.phase id = .rejected) :
    Step cfg s (.dropTask id) (s.advance id .dropped (s.server.dropTask id))
  | runStartedTask {id : TaskID} (h : s.phase id = .begun) :
    Step cfg s (.runStartedTask id)
      ((s.advance id .capturing s.server).advanceMonitor id .waiting s.server)
  | captureReturns {id : TaskID} (h : s.phase id = .capturing)
      (outcome : Except CaptureError CaptureResult) :
    Step cfg s (.captureReturns id outcome) (s.advance id (.returned outcome) s.server)
  | finalizeTask {id : TaskID} {outcome : Except CaptureError CaptureResult}
      (h : s.phase id = .returned outcome) (summarize : Except String Summary) :
    Step cfg s (.finalizeTask id summarize)
      (s.advance id .finalised (s.server.finalizeTask id outcome summarize))
  | endCapture {id : TaskID} (h : s.phase id = .finalised) (finishedAt now : Time) :
    Step cfg s (.endCapture id finishedAt now)
      (s.advance id .ended (s.server.endCapture cfg id finishedAt now))
  | closeDone {id : TaskID} (h : s.phase id = .ended) :
    Step cfg s (.closeDone id) (s.advance id .closed (s.server.closeDone id))
  | stopIdle (free : s.server.active = none) (reason : StopReason) :
    Step cfg s (.stopCapture reason) s
  | stopCapture {c : ActiveCapture} (h : s.server.active = some c) (reason : StopReason) :
    Step cfg s (.stopCapture reason) { s with server := s.server.cancelActive c reason }
  | stopByTaskIDIdle {taskID : TaskID} (other : ∀ c, s.server.active = some c → c.taskID ≠ taskID)
      (reason : StopReason) :
    Step cfg s (.stopCaptureByTaskID taskID reason) s
  | stopCaptureByTaskID {c : ActiveCapture} (h : s.server.active = some c) (reason : StopReason) :
    Step cfg s (.stopCaptureByTaskID c.taskID reason)
      { s with server := s.server.cancelActive c reason }
  | monitorContinue {id : TaskID} {stat : Option FileInfo} {now : Time}
      (h : s.monitor id = .waiting)
      (below : Server.monitorTick (s.server.object id).req stat now = none) :
    Step cfg s (.monitorTick id stat now) s
  | monitorTrip {id : TaskID} {stat : Option FileInfo} {now : Time} {reason : StopReason}
      (h : s.monitor id = .waiting)
      (reached : Server.monitorTick (s.server.object id).req stat now = some reason) :
    Step cfg s (.monitorTick id stat now) (s.advanceMonitor id (.tripped reason) s.server)
  | monitorStopIdle {id : TaskID} {reason : StopReason} (h : s.monitor id = .tripped reason)
      (free : s.server.active = none) :
    Step cfg s (.monitorStop id) (s.advanceMonitor id .returned s.server)
  | monitorStop {id : TaskID} {reason : StopReason} (h : s.monitor id = .tripped reason)
      {c : ActiveCapture} (active : s.server.active = some c) :
    Step cfg s (.monitorStop id)
      (s.advanceMonitor id .returned (s.server.cancelActive c reason))
  | monitorDone {id : TaskID} (h : s.monitor id = .waiting)
      (cancelled : (s.server.object id).cancelled = some true) :
    Step cfg s (.monitorDone id) (s.advanceMonitor id .returned s.server)
  | cleanupHistory (now : Time) :
    Step cfg s (.cleanupHistory now) { s with server := s.server.cleanupHistory cfg now }

/-- Inversion of `step`. -/
theorem step_cases {cfg : Config} {s t : System} {a : Act} (h : step cfg s a = some t) :
    Step cfg s a t := by
  cases a with
  | newTask req outputPath =>
    obtain rfl := Option.some.inj h
    exact .newTask req outputPath
  | registerTask id =>
    simp only [step] at h
    split at h
    · rename_i hp
      obtain rfl := Option.some.inj h
      exact .registerTask hp
    · cases h
  | beginCapture id now =>
    -- the section's own check: a capture that is already active rejects the task
    simp only [step, Server.beginCapture] at h
    split at h
    · rename_i hp
      by_cases hfree : s.server.active = none
      · rw [if_pos hfree] at h
        obtain rfl := Option.some.inj h
        exact .beginCapture hp hfree now
      · rw [if_neg hfree] at h
        obtain rfl := Option.some.inj h
        exact .beginRejected hp hfree now
    · cases h
  | dropTask id =>
    simp only [step] at h
    split at h
    · rename_i hp
      obtain rfl := Option.some.inj h
      exact .dropTask hp
    · cases h
  | runStartedTask id =>
    simp only [step] at h
    split at h
    · rename_i hp
      obtain rfl := Option.some.inj h
      exact .runStartedTask hp
    · cases h
  | captureReturns id outcome =>
    simp only [step] at h
    split at h
    · rename_i hp
      obtain rfl := Option.some.inj h
      exact .captureReturns hp outcome
    · cases h
  | finalizeTask id summarize =>
    simp only [step] at h
    split at h
    · rename_i hp
      obtain rfl := Option.some.inj h
      exact .finalizeTask hp summarize
    · cases h
  | endCapture id finishedAt now =>
    simp only [step] at h
    split at h
    · rename_i hp
      obtain rfl := Option.some.inj h
      exact .endCapture hp finishedAt now
    · cases h
  | closeDone id =>
    simp only [step] at h
    split at h
    · rename_i hp
      obtain rfl := Option.some.inj h
      exact .closeDone hp
    · cases h
  | stopCapture reason =>
    simp only [step, Server.stopCapture, Option.some.injEq] at h
    cases hc : s.server.active with
    | none =>
      simp only [hc] at h
      subst h
      exact .stopIdle hc reason
    | some c =>
      simp only [hc] at h
      subst h
      exact .stopCapture hc reason
  | stopCaptureByTaskID taskID reason =>
    -- a stop by task id passes over an active capture of another task
    simp only [step, Server.stopCaptureByTaskID, Option.some.injEq] at h
    cases hc : s.server.active with
    | none =>
      simp only [hc] at h
      subst h
      exact .stopByTaskIDIdle (by simp [hc]) reason
    | some c =>
      simp only [hc] at h
      by_cases hid : c.taskID ≠ taskID
      · rw [if_pos hid] at h
        subst h
        exact .stopByTaskIDIdle (by simpa [hc] using hid) reason
      · rw [if_neg hid] at h
        obtain rfl := not_not.mp hid
        subst h
        exact .stopCaptureByTaskID hc reason
  | monitorTick id stat now =>
    simp only [step] at h
    split at h
    · rename_i hm
      split at h
      · rename_i hbelow
        obtain rfl := Option.some.inj h
        exact .monitorContinue hm hbelow
      · rename_i hreached
        obtain rfl := Option.some.inj h
        exact .monitorTrip hm hreached
    · cases h
  | monitorStop id =>
    -- the monitor's stop names no task and cancels whichever capture is active
    simp only [step, Server.stopCapture] at h
    split at h
    · rename_i hm
      cases hc : s.server.active with
      | none =>
        simp only [hc, Option.some.injEq] at h
        subst h
        exact .monitorStopIdle hm hc
      | some c =>
        simp only [hc, Option.some.injEq] at h
        subst h
        exact .monitorStop hm hc
    · cases h
  | monitorDone id =>
    -- the monitor ends only once the context of its own task is cancelled
    simp only [step] at h
    split at h
    · rename_i hm
      split at h
      · rename_i hcancelled
        obtain rfl := Option.some.inj h
        exact .monitorDone hm hcancelled
      · cases h
    · cases h
  | cleanupHistory now =>
    obtain rfl := Option.some.inj h
    exact .cleanupHistory now

end System

end UsbPcap.Service
