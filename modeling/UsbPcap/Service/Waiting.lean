import UsbPcap.Service.Admission
import UsbPcap.Service.TaskStore

/-!
# Waiting for a task

`handleWaitCaptureTask` finds a task under the lock, waits for its channel without it, and looks the
task up again. In between, other captures end and cleanups run. A request that the channel woke is
answered with the task's result exactly when none of them has taken the task's key since it was
found, see `Waits.served_iff`; otherwise it is told that the task is lost.
-/

namespace UsbPcap.Service

open Server Transition

/-! ## Tasks that have ended -/

namespace System

/-- A closed channel belongs to a task that has ended. -/
theorem closed_of_doneClosed {cfg : Config} {s : System} (hr : Reachable (step cfg) init s)
    {id : TaskID} (h : (s.server.object id).doneClosed = true) : s.phase id = .closed :=
  ((marked_of_reachable hr).doneClosed id).mp h

/-- A task that has ended stays as it is. -/
theorem closed_step {cfg : Config} {s t : System} {a : Act} (hi : s.Inv) (hst : Step cfg s a t)
    {id : TaskID} (h : s.phase id = .closed) :
    t.phase id = .closed ∧ (t.server.object id).task = (s.server.object id).task := by
  constructor
  · rcases phase_step hi.toSlots hst id with heq | hmove
    · exact heq.trans h
    · rw [h] at hmove
      cases hmove
  · have hne : ∀ {i p}, s.phase i = p → p ≠ .closed → id ≠ i := by
      rintro i p hi hp rfl
      exact hp (hi.symm.trans h)
    cases hst with
    | newTask req outputPath =>
      have hid := hne (hi.fresh _ (Nat.lt_succ_self _)) nofun
      exact congrArg CaptureTaskState.task (newTask_ne _ hid ..)
    | beginCapture hp hfree now =>
      exact congrArg CaptureTaskState.task (activate_ne _ (hne hp nofun) _)
    | finalizeTask hp summarize =>
      exact congrArg CaptureTaskState.task (finalizeTask_ne _ (hne hp nofun) ..)
    | endCapture hp finishedAt now =>
      exact congrArg CaptureTaskState.task (endCapture_ne (hne hp nofun) ..)
    | closeDone hp => exact congrArg CaptureTaskState.task (closeDone_ne _ (hne hp nofun))
    | stopCapture hc reason => exact cancelActive_task ..
    | stopCaptureByTaskID hc reason => exact cancelActive_task ..
    | monitorStop hm hc => exact cancelActive_task ..
    | cleanupHistory now => exact congrArg (fun f => (f id).task) (cleanupHistory_object ..)
    | _ => rfl

end System

/-! ## Looking a task up -/

/-- The id that `nextID` writes. -/
def taskName (id : TaskID) : String := "capture-" ++ toString id

/-- The number can be read back from the name of a task. -/
theorem ofDigitChars_taskName (id : TaskID) :
    Nat.ofDigitChars 10 ((taskName id).toList.drop 8) 0 = id := by
  rw [taskName, Nat.toString_eq_repr, String.toList_append, Nat.toList_repr]
  exact Nat.ofDigitChars_ten_toDigits

/-- Different tasks have different names. -/
theorem taskName_injective : Function.Injective taskName := fun i j h => by
  rw [← ofDigitChars_taskName i, h, ofDigitChars_taskName]

namespace Server

/-- `s.tasks[taskID]` -/
def lookup (s : Server) (taskID : String) : Option TaskID :=
  let id := Nat.ofDigitChars 10 (taskID.toList.drop 8) 0
  if taskName id = taskID ∧ id ∈ s.tasks then some id else none

/-- A name is found exactly when it is that of a task in the map. -/
theorem lookup_eq_some_iff {s : Server} {taskID : String} {id : TaskID} :
    s.lookup taskID = some id ↔ taskName id = taskID ∧ id ∈ s.tasks := by
  rw [lookup]
  constructor
  · intro h
    obtain ⟨hfound, hid⟩ := Option.ite_none_right_eq_some.mp h
    obtain rfl := Option.some.inj hid
    exact hfound
  · rintro ⟨rfl, hmem⟩
    rw [ofDigitChars_taskName]
    exact if_pos ⟨rfl, hmem⟩

/-- `taskByID` -/
def taskByID (s : Server) (taskID : String) : Option CaptureTask :=
  (s.lookup taskID).map fun id => (s.object id).task

/-- A task is found by its name exactly while the map has its key. -/
theorem taskByID_taskName (s : Server) (id : TaskID) :
    s.taskByID (taskName id) = if id ∈ s.tasks then some (s.object id).task else none := by
  rw [taskByID]
  split
  · rename_i hmem
    rw [lookup_eq_some_iff.mpr ⟨rfl, hmem⟩]
    rfl
  · rename_i hmem
    rw [Option.map_eq_none_iff, Option.eq_none_iff_forall_ne_some]
    intro i hi
    obtain ⟨hname, hi⟩ := lookup_eq_some_iff.mp hi
    exact hmem (taskName_injective hname ▸ hi)

end Server

/-! ## Responses -/

/-- The values of `CaptureTask.Status`, as the source writes them. -/
def Status.text : Status → String
  | .pending => "pending"
  | .running => "running"
  | .stopped => "stopped"
  | .failed => "failed"
  | .noDevice => "no_device"
  | .noMatch => "no_match"
  | .completed => "completed"
  | .idle => "idle"

/-- The values in the arguments of a next action. -/
inductive ArgumentValue where
  | text (value : String)
  | number (value : ℕ)
deriving DecidableEq

/-- `ipc.NextAction` -/
structure NextAction where
  tool : String
  arguments : List (String × ArgumentValue)
deriving DecidableEq

/-- `nextActionForTool` -/
def nextActionForTool (tool : String) (arguments : List (String × ArgumentValue)) : NextAction where
  tool := tool
  arguments := arguments

/-- `computeNextAction` -/
def computeNextAction (task : CaptureTask) : Option NextAction :=
  match task.status with
  | .completed => some (nextActionForTool "usbpcap_analyze" [("pcapPath", .text task.outputPath)])
  | .idle => some (nextActionForTool "usbpcap_capture_status" [])
  | .noDevice | .noMatch => some (nextActionForTool "usbpcap_probe_device" [])
  | _ => none

/-- The fields of a response to a wait request. -/
structure WaitResponse where
  status : String
  message : String := ""
  pcapPath : String := ""
  matchedDevices : List MatchedDevice := []
  summary : Option Summary := none
  task : CaptureTask
  nextAction : Option NextAction := none
deriving DecidableEq

/-- The refusal of a request without a task id. -/
def taskIDRequired : Refusal :=
  errorResponse "invalid_request" "TASK_ID_REQUIRED" "taskId is required"
    "Pass the taskId returned by startCapture."

/-- The refusal of a request for an unknown task. -/
def taskNotFound : Refusal :=
  errorResponse "task_not_found" "TASK_NOT_FOUND" "capture task not found"
    "Use listCaptureTasks to inspect recent history."

/-- The refusal of a request whose task has gone. -/
def taskLost : Refusal :=
  errorResponse "internal_error" "TASK_LOST" "task completed but could not be retrieved" ""

/-- The response where `s.tasks` did not have the task. -/
def absentResponse : Option CaptureTask → Except Refusal WaitResponse
  | none => .error taskNotFound
  | some task => .ok
    { status := task.status.text
      task := task
      nextAction := computeNextAction task }

/-- The response where the timer was first. -/
def timeoutResponse (taskID : String) : Option CaptureTask → Except Refusal WaitResponse
  | none => .error
    { status := "timeout"
      error := "timeout"
      errorCode := "WAIT_TIMEOUT"
      message := "wait timed out but task may still be running"
      hint := "Call getCaptureTask to check status." }
  | some task => .ok <|
    if task.status = .running ∨ task.status = .pending then
      { status := "timeout"
        task := task
        message := "Task is still running. Retry wait or use getCaptureTask."
        nextAction := some (nextActionForTool "usbpcap_wait_capture_task"
          [("taskId", .text taskID), ("timeoutSeconds", .number 60)]) }
    else
      { status := "timeout"
        task := task }

/-- The response that carries the result of a task. -/
def resultResponse (task : CaptureTask) : WaitResponse :=
  let resp : WaitResponse :=
    { status := task.status.text
      task := task
      nextAction := computeNextAction task }
  if task.status = .completed then
    { resp with
      pcapPath := task.outputPath
      summary := task.summary
      matchedDevices := task.matchedDevices }
  else resp

/-- The response where the task's channel was first. -/
def doneResponse : Option CaptureTask → Except Refusal WaitResponse
  | none => .error taskLost
  | some task => .ok (resultResponse task)

/-! ## Requests among the sections of the service -/

/-- Where a wait request stands. A request that has its response remembers the task whose channel
woke it, if one did. -/
inductive Waiter where
  | idle
  | absent (taskID : String)
  | selecting (taskID : String) (id : TaskID)
  | woken (taskID : String) (id : TaskID)
  | timedOut (taskID : String)
  | answered (channel : Option TaskID) (resp : Except Refusal WaitResponse)

/-- The task whose channel woke the request. -/
def Waiter.channel : Waiter → Option TaskID
  | .woken _ id => some id
  | .answered channel _ => channel
  | _ => none

/-- The service and its wait requests. -/
structure Waits where
  system : System
  waiter : ℕ → Waiter

/-- A section of the service, or one of wait request `w`: it looks at `s.tasks`, `select` takes the
channel or the timer, and it calls `taskByID`. -/
inductive WaitAct where
  | service (a : Act)
  | wait (w : ℕ) (taskID : String)
  | taskDone (w : ℕ)
  | timeout (w : ℕ)
  | taskByID (w : ℕ)

namespace Waits

/-- The service before its first request. -/
def init : Waits where
  system := System.init
  waiter := fun _ => .idle

/-- Wait request `w` has executed a section and stands at `p`. -/
def move (s : Waits) (w : ℕ) (p : Waiter) : Waits :=
  { s with waiter := Function.update s.waiter w p }

/-- The tasks of the service. -/
def server (s : Waits) : Server := s.system.server

/-- Where a request stands that has looked at `s.tasks`. -/
def firstLook (s : Server) (taskID : String) : Waiter :=
  if trimSpace taskID = "" then .answered none (.error taskIDRequired)
  else
    match s.lookup taskID with
    | some id => .selecting taskID id
    | none => .absent taskID

/-- One section. The timer is only taken while the channel is open: a request in `select` leaves
it when the channel is closed. -/
def step (cfg : Config) (s : Waits) : WaitAct → Option Waits
  | .service a => (s.system.step cfg a).map fun system => { s with system := system }
  | .wait w taskID =>
    match s.waiter w with
    | .idle => some (s.move w (firstLook s.server taskID))
    | _ => none
  | .taskDone w =>
    match s.waiter w with
    | .selecting taskID id =>
      if (s.server.object id).doneClosed then some (s.move w (.woken taskID id)) else none
    | _ => none
  | .timeout w =>
    match s.waiter w with
    | .selecting taskID id =>
      if (s.server.object id).doneClosed then none else some (s.move w (.timedOut taskID))
    | _ => none
  | .taskByID w =>
    match s.waiter w with
    | .absent taskID =>
      some (s.move w (.answered none (absentResponse (s.server.taskByID taskID))))
    | .woken taskID id =>
      some (s.move w (.answered (some id) (doneResponse (s.server.taskByID taskID))))
    | .timedOut taskID =>
      some (s.move w (.answered none (timeoutResponse taskID (s.server.taskByID taskID))))
    | _ => none

/-- What a section of request `w` can do, one constructor for each section and branch. -/
inductive Moves (s : Waits) (w : ℕ) : WaitAct → Waiter → Prop where
  | wait (h : s.waiter w = .idle) (taskID : String) :
    Moves s w (.wait w taskID) (firstLook s.server taskID)
  | taskDone {taskID : String} {id : TaskID} (h : s.waiter w = .selecting taskID id)
      (closed : (s.server.object id).doneClosed = true) :
    Moves s w (.taskDone w) (.woken taskID id)
  | timeout {taskID : String} {id : TaskID} (h : s.waiter w = .selecting taskID id)
      (stillOpen : (s.server.object id).doneClosed = false) :
    Moves s w (.timeout w) (.timedOut taskID)
  | answerAbsent {taskID : String} (h : s.waiter w = .absent taskID) :
    Moves s w (.taskByID w) (.answered none (absentResponse (s.server.taskByID taskID)))
  | answerWoken {taskID : String} {id : TaskID} (h : s.waiter w = .woken taskID id) :
    Moves s w (.taskByID w) (.answered (some id) (doneResponse (s.server.taskByID taskID)))
  | answerTimedOut {taskID : String} (h : s.waiter w = .timedOut taskID) :
    Moves s w (.taskByID w)
      (.answered none (timeoutResponse taskID (s.server.taskByID taskID)))

/-- What a step can do. -/
inductive Step (cfg : Config) (s : Waits) : WaitAct → Waits → Prop where
  | service {a : Act} {system : System} (h : s.system.step cfg a = some system) :
    Step cfg s (.service a) { s with system := system }
  | request {w : ℕ} {a : WaitAct} {p : Waiter} (h : s.Moves w a p) : Step cfg s a (s.move w p)

/-- Inversion of `step`. -/
theorem step_cases {cfg : Config} {s t : Waits} {a : WaitAct} (h : step cfg s a = some t) :
    Step cfg s a t := by
  cases a with
  | service a =>
    obtain ⟨system, hsystem, rfl⟩ := Option.map_eq_some_iff.mp h
    exact .service hsystem
  | wait w taskID =>
    simp only [step] at h
    split at h
    · rename_i hw
      obtain rfl := Option.some.inj h
      exact .request (.wait hw taskID)
    · cases h
  | taskDone w =>
    simp only [step] at h
    split at h
    · rename_i hw
      obtain ⟨hclosed, ht⟩ := Option.ite_none_right_eq_some.mp h
      obtain rfl := Option.some.inj ht
      exact .request (.taskDone hw hclosed)
    · cases h
  | timeout w =>
    simp only [step] at h
    split at h
    · rename_i hw
      obtain ⟨hopen, ht⟩ := Option.ite_none_left_eq_some.mp h
      obtain rfl := Option.some.inj ht
      exact .request (.timeout hw (Bool.not_eq_true _ ▸ hopen))
    · cases h
  | taskByID w =>
    simp only [step] at h
    split at h
    · rename_i hw
      obtain rfl := Option.some.inj h
      exact .request (.answerAbsent hw)
    · rename_i hw
      obtain rfl := Option.some.inj h
      exact .request (.answerWoken hw)
    · rename_i hw
      obtain rfl := Option.some.inj h
      exact .request (.answerTimedOut hw)
    · cases h

@[simp] theorem move_self (s : Waits) (w : ℕ) (p : Waiter) : (s.move w p).waiter w = p := by
  simp [move]

theorem move_ne (s : Waits) {w v : ℕ} (h : v ≠ w) (p : Waiter) :
    (s.move w p).waiter v = s.waiter v := by
  simp [move, h]

/-! ## Runs with requests -/

variable {cfg : Config}

/-- Without its requests, a run is a run of the service. -/
theorem reachable_system {s : Waits} (hr : Reachable (step cfg) init s) :
    Reachable (System.step cfg) System.init s.system := by
  refine hr.invariant (P := fun s => Reachable (System.step cfg) System.init s.system)
    (.refl _) ?_
  intro s a t _ hs hst
  cases step_cases hst with
  | service h => exact hs.tail h
  | _ => exact hs

/-- A waiter selects on the channel of the task that it has found. -/
theorem firstLook_selecting {s : Server} {name taskID : String} {id : TaskID}
    (h : firstLook s name = .selecting taskID id) :
    name = taskID ∧ s.lookup taskID = some id := by
  unfold firstLook at h
  split at h
  · cases h
  · split at h
    · rename_i hfound
      cases h
      exact ⟨rfl, hfound⟩
    · cases h

/-- A first look receives nothing yet. -/
theorem firstLook_channel (s : Server) (taskID : String) : (firstLook s taskID).channel = none := by
  unfold firstLook
  split
  · rfl
  · split <;> rfl

/-- The task whose channel woke a request has ended. -/
theorem closed_of_channel {s : Waits} (hr : Reachable (step cfg) init s) {w : ℕ} {id : TaskID}
    (h : (s.waiter w).channel = some id) : s.system.phase id = .closed := by
  refine hr.invariant
    (P := fun s => (s.waiter w).channel = some id → s.system.phase id = .closed) nofun ?_ h
  intro s a t hr hs hst hch
  have hsys := reachable_system hr
  cases step_cases hst with
  | service h =>
    exact (System.closed_step (System.inv_of_reachable hsys) (System.step_cases h) (hs hch)).1
  | @request v _ p hmove =>
    by_cases hv : w = v
    · subst hv
      rw [move_self] at hch
      cases hmove with
      | wait hw taskID =>
        rw [firstLook_channel] at hch
        cases hch
      | taskDone hw hclosed =>
        obtain rfl := Option.some.inj hch
        exact System.closed_of_doneClosed hsys hclosed
      | answerWoken hw =>
        refine hs ?_
        rw [hw]
        exact hch
      | _ => cases hch
    · rw [move_ne s hv] at hch
      exact hs hch

/-- A request that waits for a task, or was woken by its channel, has found it. -/
theorem found_of_waiting {as : List WaitAct} {s : Waits} (h : run (step cfg) init as = some s)
    {w : ℕ} {taskID : String} {id : TaskID}
    (hw : s.waiter w = .selecting taskID id ∨ s.waiter w = .woken taskID id) :
    ∃ p q r, as = p ++ .wait w taskID :: q ∧ run (step cfg) init p = some r ∧
      r.server.lookup taskID = some id := by
  refine run_induction (P := fun as s => s.waiter w = .selecting taskID id ∨
    s.waiter w = .woken taskID id → ∃ p q r, as = p ++ .wait w taskID :: q ∧
      run (step cfg) init p = some r ∧ r.server.lookup taskID = some id) (by simp [init]) ?_ h hw
  intro as s a t hr hs hst hw
  -- a waiter that waited before the step has its call further back in the run
  have earlier : (s.waiter w = .selecting taskID id ∨ s.waiter w = .woken taskID id) →
      ∃ p q r, as ++ [a] = p ++ .wait w taskID :: q ∧ run (step cfg) init p = some r ∧
        r.server.lookup taskID = some id := by
    intro hw
    obtain ⟨p, q, r, rfl, hp, hfound⟩ := hs hw
    exact ⟨p, q ++ [a], r, by simp, hp, hfound⟩
  cases step_cases hst with
  | service h => exact earlier hw
  | @request v _ pos hmove =>
    by_cases hv : w = v
    · subst hv
      rw [move_self] at hw
      cases hmove with
      | wait hidle name =>
        -- the call itself: the look-up is this step's
        rcases hw with hw | hw
        · obtain ⟨rfl, hfound⟩ := firstLook_selecting hw
          exact ⟨as, [], s, rfl, hr, hfound⟩
        · have hch := firstLook_channel s.server name
          rw [hw] at hch
          cases hch
      | taskDone hsel hclosed =>
        -- waking up keeps the task that was found
        rcases hw with hw | hw
        · cases hw
        · cases hw
          exact earlier (Or.inl hsel)
      | _ => rcases hw with hw | hw <;> cases hw
    · rw [move_ne s hv] at hw
      exact earlier hw

/-! ## Answers -/

/-- The requests that the channel of a task woke are answered with the result of that task. -/
def Served (s : Waits) : Prop :=
  ∀ w id resp, s.waiter w = .answered (some id) resp →
    s.system.phase id = .closed ∧ resp = .ok (resultResponse (s.server.object id).task)

/-- A request that was woken finds the task's key again. -/
def FindsKey (s : Waits) (a : WaitAct) : Prop :=
  ∀ w taskID id, a = .taskByID w → s.waiter w = .woken taskID id → id ∈ s.server.tasks

/-- The section does not take the key of task `id`. -/
def Spares (cfg : Config) (id : TaskID) (s : Waits) (a : WaitAct) : Prop :=
  ∀ b, a = .service b → ¬ s.system.Evicts cfg id b

/-- Between finding its task and looking it up again after the task's channel has woken it, no
request has its task's key taken. -/
def Undisturbed (cfg : Config) (as : List WaitAct) : Prop :=
  ∀ pre w post s taskID id, as = pre ++ .taskByID w :: post → run (step cfg) init pre = some s →
    s.waiter w = .woken taskID id →
      ∃ p q r, pre = p ++ .wait w taskID :: q ∧ run (step cfg) init p = some r ∧
        r.server.lookup taskID = some id ∧
        Along (step cfg) (Spares cfg id) r (.wait w taskID :: q)

/-- A step of a request that is not answered by it keeps the others served. -/
theorem Served.move {s : Waits} (h : s.Served) {w : ℕ} {p : Waiter}
    (hp : ∀ id resp, p = .answered (some id) resp → s.system.phase id = .closed ∧
      resp = .ok (resultResponse (s.server.object id).task)) : (s.move w p).Served := by
  intro v id resp hv
  by_cases hvw : v = w
  · rw [hvw, move_self] at hv
    exact hp id resp hv
  · rw [move_ne s hvw] at hv
    exact h v id resp hv

/-- A waiter that has received nothing cannot be served wrongly. -/
theorem Served.move_none {s : Waits} (h : s.Served) {w : ℕ} {p : Waiter}
    (hp : p.channel = none) : (s.move w p).Served := by
  refine h.move fun id resp hans => ?_
  rw [hans] at hp
  cases hp

/-- A section of the service leaves every waiter with what it has. -/
theorem Served.service {s : Waits} {system : System} {a : Act} (h : s.Served)
    (hr : Reachable (step cfg) init s) (hst : s.system.step cfg a = some system) :
    { s with system := system }.Served := by
  intro w id resp hw
  obtain ⟨hclosed, rfl⟩ := h w id resp hw
  have hi := System.inv_of_reachable (reachable_system hr)
  obtain ⟨hclosed', htask⟩ := System.closed_step hi (System.step_cases hst) hclosed
  exact ⟨hclosed', congrArg (fun task => Except.ok (resultResponse task)) htask.symm⟩

/-- The task a request waits for has the name that the request gave. -/
theorem taskName_of_woken {s : Waits} (hr : Reachable (step cfg) init s) {w : ℕ} {taskID : String}
    {id : TaskID} (hw : s.waiter w = .woken taskID id) : taskName id = taskID := by
  obtain ⟨as, has⟩ := hr
  obtain ⟨p, q, r, -, -, hfound⟩ := found_of_waiting has (Or.inr hw)
  exact (lookup_eq_some_iff.mp hfound).1

/-- The second look gives the result exactly when the task is still in the map. -/
theorem doneResponse_eq_iff {s : Server} {id : TaskID} :
    doneResponse (s.taskByID (taskName id)) = .ok (resultResponse (s.object id).task) ↔
      id ∈ s.tasks := by
  rw [taskByID_taskName]
  split
  · rename_i hmem
    exact iff_of_true rfl hmem
  · rename_i hmem
    exact iff_of_false nofun hmem

/-- A section keeps the requests served exactly when a woken request that looks its task up in it
finds the key. -/
theorem served_step_iff {s t : Waits} {a : WaitAct} (h : s.Served)
    (hr : Reachable (step cfg) init s) (hst : Step cfg s a t) : t.Served ↔ s.FindsKey a := by
  cases hst with
  | service hsys => exact iff_of_true (h.service hr hsys) nofun
  | @request w _ p hmove =>
    cases hmove with
    | @answerWoken taskID id hw =>
      -- the one answer that looks the task up again, under a name that may be gone by now
      have hname := taskName_of_woken hr hw
      have hclosed := closed_of_channel hr (congrArg Waiter.channel hw)
      subst hname
      constructor
      · rintro hserved v name i ⟨⟩ hi
        obtain ⟨-, rfl⟩ := Waiter.woken.inj (hw.symm.trans hi)
        exact doneResponse_eq_iff.mp (hserved w id _ (move_self ..)).2
      · intro hfinds
        refine h.move fun i resp hans => ?_
        obtain ⟨hi, rfl⟩ := Waiter.answered.inj hans
        obtain rfl := Option.some.inj hi
        exact ⟨hclosed, doneResponse_eq_iff.mpr (hfinds w _ id rfl hw)⟩
    | wait hw name =>
      exact iff_of_true (h.move_none (firstLook_channel ..)) fun _ _ _ => WaitAct.noConfusion
    | taskDone hw hclosed =>
      exact iff_of_true (h.move fun _ _ => Waiter.noConfusion) fun _ _ _ => WaitAct.noConfusion
    | timeout hw hopen => exact iff_of_true (h.move_none rfl) fun _ _ _ => WaitAct.noConfusion
    | answerAbsent hw =>
      refine iff_of_true (h.move_none rfl) ?_
      rintro v name i ⟨⟩ hi
      cases hw.symm.trans hi
    | answerTimedOut hw =>
      refine iff_of_true (h.move_none rfl) ?_
      rintro v name i ⟨⟩ hi
      cases hw.symm.trans hi

/-! ## Keys while a request waits -/

/-- A registered task stays in the map exactly when the section spares it. -/
theorem mem_tasks_step_iff {s t : Waits} {a : WaitAct} {id : TaskID}
    (hr : Reachable (step cfg) init s) (hs : (s.system.phase id).isRegistered)
    (hst : Step cfg s a t) :
    id ∈ t.server.tasks ↔ id ∈ s.server.tasks ∧ Spares cfg id s a := by
  cases hst with
  | @service b _ hsys =>
    have hi := System.inv_of_reachable (reachable_system hr)
    refine (System.mem_tasks_step_iff hi (System.step_cases hsys) hs).trans ?_
    refine and_congr Iff.rfl ⟨fun h b' hb => ?_, fun h => h b rfl⟩
    obtain rfl := WaitAct.service.inj hb
    exact h
  | request hmove =>
    have hspares : Spares cfg id s a := by
      rintro b rfl
      cases hmove
    exact (and_iff_left hspares).symm

/-- The key of a task that a request has found is there as long as no section takes it. -/
theorem mem_tasks_iff_along {r s : Waits} {as : List WaitAct} {id : TaskID}
    (hr : Reachable (step cfg) init r) (hmem : id ∈ r.server.tasks)
    (h : run (step cfg) r as = some s) :
    id ∈ s.server.tasks ↔ Along (step cfg) (Spares cfg id) r as := by
  have hreg := System.isRegistered_of_mem (reachable_system hr) hmem
  refine (run_iff_along (P := fun s => id ∈ s.server.tasks)
    (Q := fun s => Reachable (step cfg) init s ∧ (s.system.phase id).isRegistered)
    ⟨hr, hreg⟩ ?_ ?_ h).trans (and_iff_right hmem)
  · rintro s a t ⟨hrs, hs⟩ hst
    refine ⟨hrs.tail hst, ?_⟩
    cases step_cases hst with
    | service hsys =>
      exact System.isRegistered_step (System.inv_of_reachable (reachable_system hrs))
        (System.step_cases hsys) hs
    | request hmove => exact hs
  · rintro s a t ⟨hrs, hs⟩ hst
    exact mem_tasks_step_iff hrs hs (step_cases hst)

/-- Woken requests find their keys exactly when none is taken while they wait. -/
theorem along_findsKey_iff {as : List WaitAct} :
    Along (step cfg) FindsKey init as ↔ Undisturbed cfg as := by
  have since : ∀ {p q w taskID id r s}, run (step cfg) init p = some r →
      run (step cfg) init (p ++ WaitAct.wait w taskID :: q) = some s →
      r.server.lookup taskID = some id →
      (id ∈ s.server.tasks ↔
        Along (step cfg) (Spares cfg id) r (.wait w taskID :: q)) := by
    intro p q w taskID id r s hp hs hfound
    rw [run_append, hp, Option.bind_some] at hs
    exact mem_tasks_iff_along (.of_run hp) (lookup_eq_some_iff.mp hfound).2 hs
  constructor
  · intro hfinds pre w post s taskID id has hs hw
    obtain ⟨p, q, r, rfl, hp, hfound⟩ := found_of_waiting hs (Or.inr hw)
    exact ⟨p, q, r, rfl, hp, hfound,
      (since hp hs hfound).mp (hfinds _ _ post s has hs w taskID id rfl hw)⟩
  · rintro hund pre a post s has hs w taskID id rfl hw
    obtain ⟨p, q, r, rfl, hp, hfound, hspared⟩ := hund pre w post s taskID id has hs hw
    exact (since hp hs hfound).mpr hspared

/-- Nobody waits before the first request. -/
theorem served_init : init.Served := fun _ _ _ => Waiter.noConfusion

/-- **Waiters lose their task only to the history.** In a run, every request that the channel of a
task wakes is answered with the final task exactly when no section takes that task's key between
the request's two looks at it. -/
theorem served_iff (cfg : Config) (as : List WaitAct) {u : Waits}
    (h : run (step cfg) init as = some u) :
    Always (step cfg) Served init as ↔ Undisturbed cfg as := by
  rw [← along_findsKey_iff]
  refine always_iff_along served_init ?_ h
  intro s a t hr hs hst
  exact served_step_iff hs hr (step_cases hst)

/-! ## A history of one task -/

/-- A history of one task. -/
def oneEntry : Config where
  maxHistoryTasks := 1
  historyTaskTTLMinutes := 60
  maxHistoryTasks_pos := by decide

/-- The channel of the first task wakes a request; before it looks the task up, a second capture
ends. -/
def evicting : List WaitAct :=
  [.service (.newTask System.plainRequest "first.pcap"), .service (.registerTask 1),
    .service (.beginCapture 1 0), .service (.runStartedTask 1), .wait 0 "capture-1",
    .service (.captureReturns 1 (.error .canceled)), .service (.finalizeTask 1 (.error "")),
    .service (.endCapture 1 10 10), .service (.closeDone 1), .taskDone 0,
    .service (.newTask System.plainRequest "second.pcap"), .service (.registerTask 2),
    .service (.beginCapture 2 11), .service (.runStartedTask 2),
    .service (.captureReturns 2 (.error .canceled)), .service (.finalizeTask 2 (.error "")),
    .service (.endCapture 2 20 20), .taskByID 0]

/-- The task that woke a request, and the error code of its response. -/
def refusalOf : Waiter → Option (TaskID × String)
  | .answered (some id) (.error refusal) => some (id, refusal.errorCode)
  | _ => none

/-- The request is told that its task is lost. -/
theorem evicting_outcome :
    ((run (step oneEntry) init evicting).map fun s => refusalOf (s.waiter 0)) =
      some (some (1, "TASK_LOST")) := by decide +kernel

/-- The waiter of an evicted task gets an error for a finished capture. -/
theorem evicting_loses_result : ¬ Always (step oneEntry) Served init evicting := by
  intro h
  obtain ⟨s, hs, hout⟩ := Option.map_eq_some_iff.mp evicting_outcome
  have hserved := h _ s (List.prefix_refl _) hs
  unfold refusalOf at hout
  split at hout
  · rename_i id refusal hw
    have hresp := (hserved 0 id _ hw).2
    cases hresp
  · cases hout

/-- The same run does not meet the condition. -/
theorem served_iff_evicting :
    Always (step oneEntry) Served init evicting ↔ Undisturbed oneEntry evicting := by
  obtain ⟨s, hs, -⟩ := Option.map_eq_some_iff.mp evicting_outcome
  exact served_iff oneEntry evicting hs

end Waits

end UsbPcap.Service
