import Mathlib.Data.Finset.Image
import Mathlib.Data.Int.ModEq
import Mathlib.Tactic.Common

/-!
# The capture service

The data of the capture service and its critical sections: `registerTask`, `beginCapture`,
`endCapture` with `recordHistory` and `cleanupHistory`, the two stop calls, `dropTask`, and the
parts of `finalizeTask` and `monitorCapture` between them. Task objects are shared between the map
`tasks` and the goroutines that work on them, so they live in `object`, and `tasks` is the set of
keys of the map. A task id is the number behind `capture-`; times are in nanoseconds.
-/

namespace UsbPcap.Service

abbrev TaskID := ℕ

abbrev Time := ℤ

/-! ## Data -/

/-- The fields of `Config` that the task store reads, as `Config.Validate` leaves them. -/
structure Config where
  maxHistoryTasks : ℕ
  historyTaskTTLMinutes : ℤ
  maxHistoryTasks_pos : 0 < maxHistoryTasks

/-- `DefaultConfig` -/
def defaultConfig : Config where
  maxHistoryTasks := 20
  historyTaskTTLMinutes := 60
  maxHistoryTasks_pos := by decide

/-- The fields of a sanitised `ipc.Request` that the capture machinery reads. -/
structure Request where
  interface : String
  storeMode : String
  durationSeconds : UInt32
  idleTimeoutSeconds : UInt32
  maxFileSizeBytes : ℤ
deriving DecidableEq, Repr, Inhabited

/-- The values of `CaptureTask.Status`. -/
inductive Status where
  | pending
  | running
  | stopped
  | failed
  | noDevice
  | noMatch
  | completed
  | idle
deriving DecidableEq, Repr, Inhabited

/-- `ipc.MatchedDevice` -/
structure MatchedDevice where
  interface : String
  address : UInt16
  vendorID : String
  productID : String
deriving DecidableEq, Repr

/-- `ipc.Summary` -/
structure Summary where
  packetCount : UInt64
  sizeBytes : ℤ
  durationMS : UInt64
  droppedPackets : UInt64
  transferTypes : List (String × UInt64)
  endpointDistribution : List (String × UInt64)
  deviceDistribution : List (String × UInt64)
deriving DecidableEq, Repr

/-- `ipc.CaptureTask`; a zero time is `none`. -/
structure CaptureTask where
  taskID : TaskID
  status : Status
  interface : String
  outputPath : String
  storeMode : String := ""
  startedAt : Option Time := none
  finishedAt : Option Time := none
  durationSeconds : UInt32 := 0
  errorCode : String := ""
  message : String := ""
  hint : String := ""
  triggered : Bool := false
  matchedDevices : List MatchedDevice := []
  summary : Option Summary := none
deriving DecidableEq, Repr, Inhabited

/-- `captureTaskState`. The context behind `cancel` is `none` before `beginCapture`, and otherwise
says whether it has been cancelled. -/
structure CaptureTaskState where
  task : CaptureTask
  req : Request
  cancelled : Option Bool := none
  stopCode : String := ""
  stopMsg : String := ""
  stopHint : String := ""
  doneClosed : Bool := false
deriving DecidableEq, Repr, Inhabited

/-- `activeCapture` -/
structure ActiveCapture where
  taskID : TaskID
  interfaceName : String
  outputPath : String
  storeMode : String
  durationSec : UInt32
  startedAt : Time
deriving DecidableEq, Repr

/-- `Server`, with the task objects. -/
structure Server where
  active : Option ActiveCapture
  tasks : Finset TaskID
  history : List CaptureTask
  nextTaskID : TaskID
  object : TaskID → CaptureTaskState

/-- `usbpcapcmd.CaptureResult` -/
structure CaptureResult where
  output : Option String
  triggered : Bool
  storeMode : String
  droppedPackets : UInt64
  matchedDevices : List MatchedDevice
  reason : String
deriving DecidableEq, Repr

/-- The errors of `runner.CaptureContext`, as `finalizeTask` tells them apart. -/
inductive CaptureError where
  | canceled
  | cmd (errorCode message hint : String)
  | other (message : String)
deriving DecidableEq, Repr

/-- What `os.Stat` says about the output file. -/
structure FileInfo where
  size : ℤ
  modTime : Time
deriving DecidableEq, Repr

/-- `NewServer` -/
def newServer : Server where
  active := none
  tasks := ∅
  history := []
  nextTaskID := 0
  object := default

namespace Server

/-- Apply `f` to a task object. -/
def updateObject (s : Server) (id : TaskID) (f : CaptureTaskState → CaptureTaskState) : Server :=
  { s with object := Function.update s.object id (f (s.object id)) }

/-! ## Starting -/

/-- `newTask`, with the id that `nextID` draws. -/
def newTask (s : Server) (req : Request) (outputPath : String) : TaskID × Server :=
  let id := s.nextTaskID + 1
  (id,
    { s with
      nextTaskID := id
      object := Function.update s.object id
        { task := { taskID := id, status := .pending, interface := req.interface
                    outputPath := outputPath }
          req := req } })

/-- `registerTask` -/
def registerTask (s : Server) (id : TaskID) : Server :=
  { s with tasks := insert (s.object id).task.taskID s.tasks }

/-- The store mode of a task that starts. -/
def startMode (req : Request) : String :=
  if req.storeMode = "" then "immediate" else req.storeMode

/-- The task object after `beginCapture`. -/
def started (now : Time) (o : CaptureTaskState) : CaptureTaskState :=
  { o with
    cancelled := some false
    task := { o.task with
      status := .running
      storeMode := startMode o.req
      durationSeconds := o.req.durationSeconds
      startedAt := some now } }

/-- What `beginCapture` does when the slot is free. -/
def activate (s : Server) (id : TaskID) (now : Time) : Server :=
  { s.updateObject id (started now) with
    active := some
      { taskID := (s.object id).task.taskID
        interfaceName := (s.object id).req.interface
        outputPath := (s.object id).task.outputPath
        storeMode := startMode (s.object id).req
        durationSec := (s.object id).req.durationSeconds
        startedAt := now } }

/-- `beginCapture` -/
def beginCapture (s : Server) (id : TaskID) (now : Time) : Except String Server :=
  if s.active = none then .ok (s.activate id now) else .error "capture already in progress"

/-- `dropTask` -/
def dropTask (s : Server) (id : TaskID) : Server :=
  { s with tasks := s.tasks.erase id }

/-! ## Ending -/

/-- `-time.Duration(ttlMinutes) * time.Minute`, a 64-bit product. -/
def ttlDuration (ttlMinutes : ℤ) : ℤ := (-ttlMinutes * 60000000000).bmod (2 ^ 64)

/-- `t.FinishedAt.IsZero() || t.FinishedAt.After(cutoff)` -/
def keptInHistory (cutoff : Time) (t : CaptureTask) : Bool :=
  match t.finishedAt with
  | none => true
  | some f => decide (cutoff < f)

/-- `!t.FinishedAt.IsZero() && t.FinishedAt.Before(cutoff)` -/
def expired (cutoff : Time) (t : CaptureTask) : Bool :=
  match t.finishedAt with
  | none => false
  | some f => decide (f < cutoff)

/-- `cleanupHistory` -/
def cleanupHistory (cfg : Config) (s : Server) (now : Time) : Server :=
  if cfg.historyTaskTTLMinutes ≤ 0 then s
  else
    let cutoff := now + ttlDuration cfg.historyTaskTTLMinutes
    { s with
      history := s.history.filter (keptInHistory cutoff)
      tasks := s.tasks.filter fun id =>
        ∀ t ∈ s.history, expired cutoff t = true → t.taskID ≠ id }

/-- `recordHistory` -/
def recordHistory (cfg : Config) (s : Server) (task : CaptureTask) (now : Time) : Server :=
  let history := (task :: s.history).take cfg.maxHistoryTasks
  let tasks := s.tasks.filter fun id =>
    (s.object id).task.status = .running ∨ ∃ t ∈ history, t.taskID = id
  cleanupHistory cfg { s with history := history, tasks := tasks } now

/-- The task object with the time of its end. -/
def finished (finishedAt : Time) (o : CaptureTaskState) : CaptureTaskState :=
  { o with task := { o.task with finishedAt := some finishedAt } }

/-- `endCapture`; the clock is read for `FinishedAt` and again for the cutoff. -/
def endCapture (cfg : Config) (s : Server) (id : TaskID) (finishedAt now : Time) : Server :=
  let active :=
    match s.active with
    | some c => if c.taskID = (s.object id).task.taskID then none else some c
    | none => none
  let s := { s with active := active }.updateObject id (finished finishedAt)
  recordHistory cfg s (s.object id).task now

/-- Unicode's white space, as `strings.TrimSpace` sees it. -/
def isSpace (c : Char) : Bool :=
  c.toNat ∈ [0x09, 0x0A, 0x0B, 0x0C, 0x0D, 0x20, 0x85, 0xA0, 0x1680, 0x2028, 0x2029, 0x202F,
    0x205F, 0x3000] || (0x2000 ≤ c.toNat && c.toNat ≤ 0x200A)

/-- `strings.TrimSpace` -/
def trimSpace (s : String) : String :=
  .ofList ((s.toList.dropWhile isSpace).reverse.dropWhile isSpace).reverse

/-- What `finalizeTask` records for a capture that failed. -/
def finalizeError (o : CaptureTaskState) : CaptureError → CaptureTaskState
  | .canceled =>
    let o := if o.stopCode = "" then
        { o with stopCode := "CAPTURE_STOPPED", stopMsg := "capture was stopped" }
      else o
    { o with task := { o.task with
        status := .stopped, errorCode := o.stopCode, message := o.stopMsg } }
  | .cmd errorCode message hint =>
    let task := { o.task with errorCode := errorCode, message := message, hint := hint }
    { o with task :=
        if errorCode = "NO_MATCHED_DEVICE" then
          { task with
            status := .noDevice
            hint := "Connect the device or verify VID/PID and retry." }
        else { task with status := .failed } }
  | .other message =>
    { o with task := { o.task with
        status := .failed, errorCode := "CAPTURE_FAILED", message := message } }

/-- What `finalizeTask` records for a capture that returned a result. `summarize` is what
`pcap.Summarize` returns for the output file. -/
def finalizeResult (o : CaptureTaskState) (resp : CaptureResult)
    (summarize : Except String Summary) : CaptureTaskState :=
  let task : CaptureTask := { o.task with
    triggered := resp.triggered
    matchedDevices := resp.matchedDevices
    storeMode := resp.storeMode }
  if resp.output = none ∧ resp.triggered = false then
    { o with task := { task with status := .noMatch, message := trimSpace resp.reason } }
  else
    match summarize with
    | .error message =>
      { o with task := { task with
          status := .failed, errorCode := "SUMMARY_FAILED", message := message } }
    | .ok summary =>
      let summary : Summary := { summary with droppedPackets := resp.droppedPackets }
      let task : CaptureTask := { task with summary := some summary, status := .completed }
      if summary.packetCount = 0 then
        if 0 < task.matchedDevices.length then
          { o with task := { task with
              status := .idle
              message := "Device(s) found but no traffic captured. Device may be idle."
              hint := "Trigger device activity (e.g. GUI capture) or restart the device." } }
        else
          { o with task := { task with
              status := .idle
              message := "Capture completed with 0 packets. No matching device traffic seen."
              hint := "Check device connection or use a different interface." } }
      else { o with task := task }

/-- What `finalizeTask` records. The call of `endCapture` in each of its exits and the deferred
close of the channel are in `Code.finalizeTask`. -/
def finalizeTask (s : Server) (id : TaskID) (outcome : Except CaptureError CaptureResult)
    (summarize : Except String Summary) : Server :=
  s.updateObject id fun o =>
    match outcome with
    | .error err => finalizeError o err
    | .ok resp => finalizeResult o resp summarize

/-- `close(task.done)` -/
def closeDone (s : Server) (id : TaskID) : Server :=
  s.updateObject id fun o => { o with doneClosed := true }

/-! ## Stopping -/

/-- The arguments of the stop calls. -/
structure StopReason where
  code : String
  message : String
  hint : String
deriving DecidableEq, Repr

/-- The task object with the reason of a stop call. -/
def stoppedBy (r : StopReason) (o : CaptureTaskState) : CaptureTaskState :=
  { o with stopCode := r.code, stopMsg := r.message, stopHint := r.hint }

/-- The task object after its `cancel`. -/
def cancel (o : CaptureTaskState) : CaptureTaskState := { o with cancelled := some true }

/-- Both stop calls leave the reason with the active task, if the map has it, and cancel its
context. -/
def cancelActive (s : Server) (c : ActiveCapture) (r : StopReason) : Server :=
  let s := if c.taskID ∈ s.tasks then s.updateObject c.taskID (stoppedBy r) else s
  s.updateObject c.taskID cancel

/-- `stopCapture` -/
def stopCapture (s : Server) (r : StopReason) : Bool × Server :=
  match s.active with
  | none => (false, s)
  | some c => (true, s.cancelActive c r)

/-- `stopCaptureByTaskID` -/
def stopCaptureByTaskID (s : Server) (taskID : TaskID) (r : StopReason) :
    Except String Bool × Server :=
  match s.active with
  | none => (.ok false, s)
  | some c =>
    if c.taskID ≠ taskID then
      (.error ("task capture-" ++ toString taskID ++ " is not the active capture"), s)
    else (.ok true, s.cancelActive c r)

/-- The reasons that `monitorCapture` stops with. -/
def maxFileSizeReason : StopReason where
  code := "CAPTURE_MAX_FILE_SIZE"
  message := "capture stopped after reaching maxFileSizeBytes"
  hint := "Increase maxFileSizeBytes or shorten durationSeconds."

/-- The reasons that `monitorCapture` stops with. -/
def idleTimeoutReason : StopReason where
  code := "CAPTURE_IDLE_TIMEOUT"
  message := "capture stopped after idle timeout"
  hint := "Relax filters or increase idleTimeoutSeconds."

/-- One tick of `monitorCapture`: the reason to stop, if one of the task's limits is reached. -/
def monitorTick (req : Request) (stat : Option FileInfo) (now : Time) : Option StopReason :=
  match stat with
  | none => none
  | some info =>
    if 0 < req.maxFileSizeBytes ∧ req.maxFileSizeBytes ≤ info.size then some maxFileSizeReason
    else if 0 < req.idleTimeoutSeconds ∧
        (req.idleTimeoutSeconds.toNat : ℤ) * 1000000000 < now - info.modTime then
      some idleTimeoutReason
    else none

/-! ## What the sections change -/

@[simp] theorem updateObject_self (s : Server) (id : TaskID) (f) :
    (s.updateObject id f).object id = f (s.object id) := by
  simp [updateObject]

/-- A section that works on one task object leaves the other ones alone. -/
theorem updateObject_ne (s : Server) {id i : TaskID} (h : i ≠ id) (f) :
    (s.updateObject id f).object i = s.object i := by
  simp [updateObject, h]

/-- Changing an object keeps a field of all objects that the change keeps. -/
theorem updateObject_field {β : Type*} (g : CaptureTaskState → β) (s : Server) (id : TaskID)
    {f : CaptureTaskState → CaptureTaskState} (hf : ∀ o, g (f o) = g o) (i : TaskID) :
    g ((s.updateObject id f).object i) = g (s.object i) := by
  by_cases h : i = id
  · rw [h, updateObject_self, hf]
  · rw [updateObject_ne s h]

/-- The task that begins gets the slot. -/
@[simp] theorem activate_active (s : Server) (id : TaskID) (now : Time) :
    (s.activate id now).active.map ActiveCapture.taskID = some (s.object id).task.taskID := rfl

/-- No object changes its name. -/
theorem activate_taskID (s : Server) (id : TaskID) (now : Time) (i : TaskID) :
    ((s.activate id now).object i).task.taskID = (s.object i).task.taskID :=
  updateObject_field (·.task.taskID) s id (f := started now) (fun _ => rfl) i

/-- What has begun is running. -/
theorem activate_status (s : Server) (id : TaskID) (now : Time) :
    ((s.activate id now).object id).task.status = .running := by
  simp [activate, started]

theorem activate_ne (s : Server) {id i : TaskID} (h : i ≠ id) (now : Time) :
    (s.activate id now).object i = s.object i :=
  updateObject_ne s h (started now)

/-- A request makes a new object and touches no old one. -/
theorem newTask_ne (s : Server) {i : TaskID} (h : i ≠ s.nextTaskID + 1) (req : Request)
    (outputPath : String) : (s.newTask req outputPath).2.object i = s.object i := by
  simp [newTask, h]

theorem finalizeTask_ne (s : Server) {id i : TaskID} (h : i ≠ id)
    (outcome : Except CaptureError CaptureResult) (summarize : Except String Summary) :
    (s.finalizeTask id outcome summarize).object i = s.object i :=
  updateObject_ne s h _

theorem closeDone_ne (s : Server) {id i : TaskID} (h : i ≠ id) :
    (s.closeDone id).object i = s.object i :=
  updateObject_ne s h _

/-- What stays fixed while a task ends: its name, its request and its context. -/
def identity (o : CaptureTaskState) : TaskID × Request × Option Bool :=
  (o.task.taskID, o.req, o.cancelled)

/-- A failure is recorded beside the fields that identify the task. -/
theorem finalizeError_identity (o : CaptureTaskState) (err : CaptureError) :
    identity (finalizeError o err) = identity o := by
  cases err with
  | canceled => simp only [finalizeError]; split <;> rfl
  | cmd errorCode message hint => simp only [finalizeError]; split <;> rfl
  | other message => rfl

/-- So is a result. -/
theorem finalizeResult_identity (o : CaptureTaskState) (resp : CaptureResult)
    (summarize : Except String Summary) :
    identity (finalizeResult o resp summarize) = identity o := by
  simp only [finalizeResult]
  repeat' split
  all_goals rfl

/-- `finalizeTask` changes neither names nor requests nor contexts. -/
theorem finalizeTask_identity (s : Server) (id : TaskID)
    (outcome : Except CaptureError CaptureResult) (summarize : Except String Summary)
    (i : TaskID) :
    identity ((s.finalizeTask id outcome summarize).object i) = identity (s.object i) := by
  refine updateObject_field identity s id (fun o => ?_) i
  cases outcome with
  | error err => exact finalizeError_identity o err
  | ok resp => exact finalizeResult_identity o resp summarize

/-- No object changes its name when one is finalised. -/
theorem finalizeTask_taskID (s : Server) (id : TaskID)
    (outcome : Except CaptureError CaptureResult) (summarize : Except String Summary)
    (i : TaskID) :
    ((s.finalizeTask id outcome summarize).object i).task.taskID = (s.object i).task.taskID :=
  congrArg Prod.fst (finalizeTask_identity s id outcome summarize i)

/-- A failed capture is not left pending or running. -/
theorem finalizeError_status (o : CaptureTaskState) (err : CaptureError) :
    (finalizeError o err).task.status ≠ .pending ∧
      (finalizeError o err).task.status ≠ .running := by
  cases err with
  | canceled => exact ⟨nofun, nofun⟩
  | cmd errorCode message hint => simp only [finalizeError]; split <;> exact ⟨nofun, nofun⟩
  | other message => exact ⟨nofun, nofun⟩

/-- Neither is one that returned a result. -/
theorem finalizeResult_status (o : CaptureTaskState) (resp : CaptureResult)
    (summarize : Except String Summary) :
    (finalizeResult o resp summarize).task.status ≠ .pending ∧
      (finalizeResult o resp summarize).task.status ≠ .running := by
  simp only [finalizeResult]
  repeat' split
  all_goals exact ⟨nofun, nofun⟩

/-- Every exit of `finalizeTask` leaves a final status. -/
theorem finalizeTask_status (s : Server) (id : TaskID)
    (outcome : Except CaptureError CaptureResult) (summarize : Except String Summary) :
    ((s.finalizeTask id outcome summarize).object id).task.status ≠ .pending ∧
      ((s.finalizeTask id outcome summarize).object id).task.status ≠ .running := by
  rw [finalizeTask, updateObject_self]
  cases outcome with
  | error err => exact finalizeError_status _ err
  | ok resp => exact finalizeResult_status _ resp summarize

/-- A stop changes the reason and the context of the active task, and no other field. -/
theorem cancelActive_field {β : Type*} (g : CaptureTaskState → β) (s : Server) (c : ActiveCapture)
    (r : StopReason) (hcancel : ∀ o, g (cancel o) = g o) (hreason : ∀ o, g (stoppedBy r o) = g o)
    (i : TaskID) : g ((s.cancelActive c r).object i) = g (s.object i) := by
  rw [cancelActive]
  refine (updateObject_field g _ c.taskID hcancel i).trans ?_
  split
  · exact updateObject_field g s c.taskID hreason i
  · rfl

/-- A stop writes beside the task that clients see. -/
theorem cancelActive_task (s : Server) (c : ActiveCapture) (r : StopReason) (i : TaskID) :
    ((s.cancelActive c r).object i).task = (s.object i).task :=
  cancelActive_field (·.task) s c r (fun _ => rfl) (fun _ => rfl) i

theorem cancelActive_req (s : Server) (c : ActiveCapture) (r : StopReason) (i : TaskID) :
    ((s.cancelActive c r).object i).req = (s.object i).req :=
  cancelActive_field (·.req) s c r (fun _ => rfl) (fun _ => rfl) i

/-- A stop cancels the context of the active task. -/
theorem cancelActive_self (s : Server) (c : ActiveCapture) (r : StopReason) :
    ((s.cancelActive c r).object c.taskID).cancelled = some true := by
  rw [cancelActive, updateObject_self]
  rfl

/-- A stop cancels no other context. -/
theorem cancelActive_ne (s : Server) {c : ActiveCapture} {i : TaskID} (h : i ≠ c.taskID)
    (r : StopReason) : (s.cancelActive c r).object i = s.object i := by
  rw [cancelActive, updateObject_ne _ h]
  split
  · rw [updateObject_ne _ h]
  · rfl

/-- The stopped capture keeps the slot until it ends. -/
theorem cancelActive_active (s : Server) (c : ActiveCapture) (r : StopReason) :
    (s.cancelActive c r).active = s.active := by
  rw [cancelActive]
  split <;> rfl

/-- A stop neither registers a task nor drops one. -/
theorem cancelActive_tasks (s : Server) (c : ActiveCapture) (r : StopReason) :
    (s.cancelActive c r).tasks = s.tasks := by
  rw [cancelActive]
  split <;> rfl

/-- The history does not hear of a stop. -/
theorem cancelActive_history (s : Server) (c : ActiveCapture) (r : StopReason) :
    (s.cancelActive c r).history = s.history := by
  rw [cancelActive]
  split <;> rfl

theorem cancelActive_history_sublist (s : Server) (c : ActiveCapture) (r : StopReason) :
    (s.cancelActive c r).history.Sublist s.history := by
  rw [cancelActive_history]

theorem cancelActive_nextTaskID (s : Server) (c : ActiveCapture) (r : StopReason) :
    (s.cancelActive c r).nextTaskID = s.nextTaskID := by
  rw [cancelActive]
  split <;> rfl

/-- The cleanup is about finished tasks only. -/
theorem cleanupHistory_active (cfg : Config) (s : Server) (now : Time) :
    (s.cleanupHistory cfg now).active = s.active := by
  rw [cleanupHistory]
  split <;> rfl

theorem cleanupHistory_object (cfg : Config) (s : Server) (now : Time) :
    (s.cleanupHistory cfg now).object = s.object := by
  rw [cleanupHistory]
  split <;> rfl

theorem cleanupHistory_nextTaskID (cfg : Config) (s : Server) (now : Time) :
    (s.cleanupHistory cfg now).nextTaskID = s.nextTaskID := by
  rw [cleanupHistory]
  split <;> rfl

/-- The cleanup only takes entries out. -/
theorem cleanupHistory_history (cfg : Config) (s : Server) (now : Time) :
    (s.cleanupHistory cfg now).history.Sublist s.history := by
  rw [cleanupHistory]
  split
  · exact List.Sublist.refl _
  · exact List.filter_sublist

/-- The test that `cleanupHistory` keeps an entry by. -/
def survives (cfg : Config) (now : Time) (t : CaptureTask) : Bool :=
  decide (cfg.historyTaskTTLMinutes ≤ 0) ||
    keptInHistory (now + ttlDuration cfg.historyTaskTTLMinutes) t

/-- A cleanup keeps the entries that pass this test, in order. -/
theorem cleanupHistory_history_eq (cfg : Config) (s : Server) (now : Time) :
    (s.cleanupHistory cfg now).history = s.history.filter (survives cfg now) := by
  unfold cleanupHistory survives
  split
  · rename_i httl
    simp [httl]
  · rename_i httl
    simp [httl]

/-- A cleanup at `now` finds an entry of task `id` in `history` older than the TTL. -/
def Expires (cfg : Config) (history : List CaptureTask) (now : Time) (id : TaskID) : Prop :=
  0 < cfg.historyTaskTTLMinutes ∧ ∃ t ∈ history,
    expired (now + ttlDuration cfg.historyTaskTTLMinutes) t = true ∧ t.taskID = id

/-- The cleanup removes the keys of the tasks that it finds too old. -/
theorem mem_cleanupHistory_tasks_iff {cfg : Config} {s : Server} {now : Time} {id : TaskID} :
    id ∈ (s.cleanupHistory cfg now).tasks ↔ id ∈ s.tasks ∧ ¬ Expires cfg s.history now id := by
  rw [cleanupHistory, Expires]
  split
  · rename_i httl
    exact ⟨fun h => ⟨h, fun hexp => httl.not_gt hexp.1⟩, And.left⟩
  · rename_i httl
    simp [not_le.mp httl]

/-- The cleanup only removes keys of tasks that it looks at. -/
theorem mem_cleanupHistory_tasks {cfg : Config} {s : Server} {now : Time} {id : TaskID}
    (h : ∀ t ∈ s.history, t.taskID ≠ id) :
    id ∈ (s.cleanupHistory cfg now).tasks ↔ id ∈ s.tasks := by
  rw [mem_cleanupHistory_tasks_iff, and_iff_left]
  rintro ⟨-, t, ht, -, hid⟩
  exact h t ht hid

/-- A task that stays in the history keeps its key, when no other entry has its id. -/
theorem mem_cleanupHistory_of_mem {cfg : Config} {s : Server} {now : Time} {t : CaptureTask}
    (hn : (s.history.map CaptureTask.taskID).Nodup)
    (ht : t ∈ (s.cleanupHistory cfg now).history) (hk : t.taskID ∈ s.tasks) :
    t.taskID ∈ (s.cleanupHistory cfg now).tasks := by
  rw [cleanupHistory] at ht ⊢
  split at ht
  · rename_i httl
    rw [if_pos httl]
    exact hk
  · rename_i httl
    rw [if_neg httl]
    obtain ⟨hmem, hkept⟩ := List.mem_filter.mp ht
    refine Finset.mem_filter.mpr ⟨hk, fun u hu hexp hid => ?_⟩
    obtain rfl := List.inj_on_of_nodup_map hn hu hmem hid
    -- an entry is not both after and before the cutoff
    rw [keptInHistory] at hkept
    rw [expired] at hexp
    split at hkept
    · rename_i hzero
      simp [hzero] at hexp
    · rename_i f hf
      simp only [hf, decide_eq_true_eq] at hexp hkept
      exact lt_asymm hkept hexp

/-- Closing the channel changes nothing that identifies the task. -/
theorem closeDone_identity (s : Server) (id i : TaskID) :
    identity ((s.closeDone id).object i) = identity (s.object i) :=
  updateObject_field identity s id (f := fun o => { o with doneClosed := true }) (fun _ => rfl) i

/-- Ending a capture changes neither names nor requests nor contexts. -/
theorem endCapture_identity (cfg : Config) (s : Server) (id : TaskID) (finishedAt now : Time)
    (i : TaskID) :
    identity ((s.endCapture cfg id finishedAt now).object i) = identity (s.object i) := by
  rw [endCapture, recordHistory, cleanupHistory_object]
  exact updateObject_field identity _ id (f := finished finishedAt) (fun _ => rfl) i

/-- No object changes its name when a capture ends. -/
theorem endCapture_taskID (cfg : Config) (s : Server) (id : TaskID) (finishedAt now : Time)
    (i : TaskID) :
    ((s.endCapture cfg id finishedAt now).object i).task.taskID = (s.object i).task.taskID :=
  congrArg Prod.fst (endCapture_identity cfg s id finishedAt now i)

/-- `endCapture` records the status that `finalizeTask` has set. -/
theorem endCapture_status (cfg : Config) (s : Server) (id : TaskID) (finishedAt now : Time)
    (i : TaskID) :
    ((s.endCapture cfg id finishedAt now).object i).task.status = (s.object i).task.status := by
  rw [endCapture, recordHistory, cleanupHistory_object]
  exact updateObject_field (·.task.status) _ id (f := finished finishedAt) (fun _ => rfl) i

/-- The channel stays as it is, since the deferred close comes later. -/
theorem endCapture_doneClosed (cfg : Config) (s : Server) (id : TaskID) (finishedAt now : Time)
    (i : TaskID) :
    ((s.endCapture cfg id finishedAt now).object i).doneClosed = (s.object i).doneClosed := by
  rw [endCapture, recordHistory, cleanupHistory_object]
  exact updateObject_field (·.doneClosed) _ id (f := finished finishedAt) (fun _ => rfl) i

/-- A task that ends gets the time of its end. -/
theorem endCapture_self (cfg : Config) (s : Server) (id : TaskID) (finishedAt now : Time) :
    (s.endCapture cfg id finishedAt now).object id = finished finishedAt (s.object id) := by
  rw [endCapture, recordHistory, cleanupHistory_object]
  exact updateObject_self ..

/-- The end of a task changes no other. -/
theorem endCapture_ne {cfg : Config} {s : Server} {id i : TaskID} (h : i ≠ id)
    (finishedAt now : Time) :
    (s.endCapture cfg id finishedAt now).object i = s.object i := by
  rw [endCapture, recordHistory, cleanupHistory_object]
  exact updateObject_ne _ h (finished finishedAt)

/-- Only a request takes a new number. -/
theorem endCapture_nextTaskID (cfg : Config) (s : Server) (id : TaskID) (finishedAt now : Time) :
    (s.endCapture cfg id finishedAt now).nextTaskID = s.nextTaskID := by
  rw [endCapture, recordHistory, cleanupHistory_nextTaskID]
  rfl

/-- The active task frees the slot when it ends. -/
theorem endCapture_active {cfg : Config} {s : Server} {id : TaskID}
    (h : s.active.map ActiveCapture.taskID = some (s.object id).task.taskID)
    (finishedAt now : Time) : (s.endCapture cfg id finishedAt now).active = none := by
  obtain ⟨c, hc, hid⟩ := Option.map_eq_some_iff.mp h
  rw [endCapture, recordHistory, cleanupHistory_active]
  change (match s.active with
    | some c => if c.taskID = (s.object id).task.taskID then none else some c
    | none => none) = none
  rw [hc]
  exact if_pos hid

/-- The history after a task has ended, before the cleanup. -/
def historyWith (cfg : Config) (s : Server) (id : TaskID) (finishedAt : Time) :
    List CaptureTask :=
  ((finished finishedAt (s.object id)).task :: s.history).take cfg.maxHistoryTasks

/-- Behind an ended capture the history is the recorded one or less. -/
theorem endCapture_history (cfg : Config) (s : Server) (id : TaskID) (finishedAt now : Time) :
    (s.endCapture cfg id finishedAt now).history.Sublist (s.historyWith cfg id finishedAt) := by
  rw [endCapture, recordHistory]
  refine (cleanupHistory_history cfg _ now).trans ?_
  simp [historyWith, updateObject]

/-- The task that ends goes to the front of the history, which is cut at its limit and cleaned. -/
theorem endCapture_history_eq (cfg : Config) (s : Server) (id : TaskID) (finishedAt now : Time) :
    (s.endCapture cfg id finishedAt now).history =
      (s.historyWith cfg id finishedAt).filter (survives cfg now) := by
  rw [endCapture, recordHistory, cleanupHistory_history_eq]
  simp [historyWith, updateObject]

/-- When task `ending` has ended, task `id` neither runs nor is among the newest entries. -/
def PushedOut (cfg : Config) (s : Server) (ending : TaskID) (finishedAt : Time) (id : TaskID) :
    Prop :=
  (s.object id).task.status ≠ .running ∧ ∀ t ∈ s.historyWith cfg ending finishedAt, t.taskID ≠ id

/-- The end of a task removes the keys of the tasks that are pushed out and of those that the
cleanup finds too old. -/
theorem mem_endCapture_tasks_iff {cfg : Config} {s : Server} {id i : TaskID}
    {finishedAt now : Time} :
    i ∈ (s.endCapture cfg id finishedAt now).tasks ↔
      i ∈ s.tasks ∧ ¬ PushedOut cfg s id finishedAt i ∧
        ¬ Expires cfg (s.historyWith cfg id finishedAt) now i := by
  have hstatus := updateObject_field (·.task.status) s id (f := finished finishedAt)
    (fun _ => rfl) i
  rw [endCapture, recordHistory, mem_cleanupHistory_tasks_iff, Finset.mem_filter, and_assoc]
  refine and_congr Iff.rfl (and_congr ?_ ?_)
  · change ((s.updateObject id (finished finishedAt)).object i).task.status = .running ∨ _ ↔ _
    rw [hstatus, PushedOut, not_and_or, not_not]
    simp [historyWith, updateObject]
  · simp [historyWith, updateObject]

/-- A listed task keeps its key when a task ends. -/
theorem mem_endCapture_tasks {cfg : Config} {s : Server} {id : TaskID} {finishedAt now : Time}
    {t : CaptureTask} (hn : ((s.historyWith cfg id finishedAt).map CaptureTask.taskID).Nodup)
    (ht : t ∈ (s.endCapture cfg id finishedAt now).history) (hk : t.taskID ∈ s.tasks) :
    t.taskID ∈ (s.endCapture cfg id finishedAt now).tasks := by
  have hmem : t ∈ s.historyWith cfg id finishedAt :=
    (endCapture_history cfg s id finishedAt now).subset ht
  rw [endCapture, recordHistory] at ht ⊢
  refine mem_cleanupHistory_of_mem ?_ ht ?_
  · simpa [historyWith, updateObject] using hn
  · refine Finset.mem_filter.mpr ⟨hk, Or.inr ⟨t, ?_, rfl⟩⟩
    simpa [historyWith, updateObject] using hmem

end Server

end UsbPcap.Service
