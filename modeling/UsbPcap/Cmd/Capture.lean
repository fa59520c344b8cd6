import UsbPcap.Cmd.Chunking
import UsbPcap.Cmd.Matching
import UsbPcap.Cmd.Pending
import UsbPcap.Service.Server

/-!
# A run of `start_capture` and its result

`start_capture` opens the output itself when the process is elevated, and otherwise has an elevated
worker process do it. Either way the output is created with `CREATE_NEW`, at the start or at the
first match. At the end `start_capture` looks whether the file is there, and where it is, the file
counts as created. `usbpcapcmd_main` prints the result and the capture service takes it over.

A file system says what is at each name. What a run writes is kept apart from it, in `written`.
-/

namespace UsbPcap.Cmd

open Format

/-! ## Data -/

/-- What is at each name: `none` where nothing is. A directory counts as something that is there:
`CREATE_NEW` fails on it and `PathFileExistsA` finds it as they do for a file. -/
abbrev FileSystem := String → Option (List UInt8)

/-- No files. -/
def FileSystem.empty : FileSystem := fun _ => none

/-- The file system with the files of `written` in it. -/
def FileSystem.after (fs written : FileSystem) : FileSystem := fun name =>
  (written name).or (fs name)

/-- What the system and the driver decide in the elevated branch of `start_capture`: whether
`CreateFileA` succeeds there where the name is free, what `descriptors_generate_pcap` returns,
whether the thread starts, and the thread's environment and reads. The thread of an invalid read
handle has no reads; a process that is killed is one whose later writes fail. -/
structure ThreadRun where
  createAtStart : Bool
  descriptors : List UInt8
  createThread : Bool
  env : Env
  fuel : ℕ
  reads : List (List UInt8)

/-- The limits of a job, as `start_capture` tells them apart. -/
inductive JobLimits where
  | killOnJobClose
  | breakawayOk
  | unhandled
deriving DecidableEq, Repr

/-- The worker process: `ShellExecuteExW` or `CreateProcessW` fails, or the process starts and has,
unless it ends before, a capture of its own. -/
inductive Worker where
  | notStarted
  | started (capture : Option (CaptureData × ThreadRun))

/-- What the system decides in a run of `start_capture`. `job` is `none` outside any job, and
`some none` where `QueryInformationJobObject` fails. -/
structure Os where
  elevated : Bool
  thread : ThreadRun
  commandLine : Bool
  job : Option (Option JobLimits)
  createJobObject : Bool
  assignProcess : Bool
  worker : Worker

/-- The thread's data and the files that the run has created, with what it wrote to them. -/
structure CaptureOutcome where
  data : ThreadData
  written : FileSystem

/-- `start_capture` calls `exit` or returns. -/
inductive CaptureEnd where
  | exited
  | returned (ret : ℤ) (outcome : CaptureOutcome)

/-! ## The elevated branch -/

/-- `thread_data` as `usbpcapcmd_main` hands it over. -/
def CaptureData.threadData (data : CaptureData) (filename : CStr) : ThreadData where
  filename := .ofList filename
  process := data.process
  writeHandle := .invalid
  descriptors := ⟨[], List.replicate sizeofPcapHdr 0, 0⟩
  storeMode := data.storeMode
  triggered := false
  outputCreated := false
  droppedPackets := 0
  appFilter := data.appFilter
  deviceMetadata := data.deviceMetadata

/-- `CREATE_NEW` fails where there is a file. -/
def Env.on (env : Env) (fs : FileSystem) (name : String) : Env :=
  { env with createFile := env.createFile && (fs name).isNone }

/-- How the elevated branch opens the output. -/
def openAtStart (fs : FileSystem) (r : ThreadRun) (data : ThreadData) : ThreadData :=
  if data.filename = "-" then
    { data with
      writeHandle := if r.env.stdoutValid then .stdout else .invalid
      outputCreated := r.env.stdoutValid }
  else if data.storeMode = storeModeOnMatch then { data with writeHandle := .invalid }
  else
    let created := r.createAtStart && (fs data.filename).isNone
    { data with
      writeHandle := if created then .file else .invalid
      outputCreated := created }

/-- The file that a thread has created. -/
def State.files (s : State) : FileSystem := fun name =>
  if s.data.writeHandle = .file ∧ name = s.data.filename then some s.output else none

/-- The thread from its start to its end. -/
def runThread (fs : FileSystem) (r : ThreadRun) (data : ThreadData) : Except Fault State :=
  if r.createThread then
    readThread (r.env.on fs data.filename) r.fuel (.start data) r.reads
  else .ok (.start { data with process := false })

/-- The branch of `start_capture` in an elevated process. -/
def elevatedCapture (fs : FileSystem) (r : ThreadRun) (injectDescriptors : Bool)
    (data : ThreadData) : Except Fault CaptureOutcome :=
  let data := openAtStart fs r data
  let data :=
    if injectDescriptors then
      { data with descriptors := { data.descriptors with descriptors := r.descriptors } }
    else data
  match runThread fs r data with
  | .error fault => .error fault
  | .ok s => .ok { data := s.data, written := s.files }

/-! ## The branch with a worker -/

/-- The files that the worker creates. It is elevated, and its capture is its own. -/
def Worker.files (fs : FileSystem) : Option (CaptureData × ThreadRun) → Except Fault FileSystem
  | none => .ok .empty
  | some (data, r) =>
    match startCapture data, data.filename with
    | some data, some filename =>
      match elevatedCapture fs r data.injectDescriptors (data.threadData filename) with
      | .error fault => .error fault
      | .ok o => .ok o.written
    | _, _ => .ok .empty

/-- What comes of the job objects. -/
inductive JobStep where
  | exit
  | failed
  | ready
deriving DecidableEq, Repr

/-- From `IsProcessInJob` to `AssignProcessToJobObject`. -/
def Os.jobStep (os : Os) : JobStep :=
  let newJob (needsBreakaway : Bool) : JobStep :=
    if os.createJobObject = false then .failed
    else if needsBreakaway = false ∧ os.assignProcess = false then .exit
    else .ready
  match os.job with
  | none => newJob false
  | some none => .exit
  | some (some .killOnJobClose) => .ready
  | some (some .breakawayOk) => newJob true
  | some (some .unhandled) => .ready

/-- Starting the worker and, for standard output, the thread that reads the worker's pipe. -/
def workerCapture (fs : FileSystem) (os : Os) (data : ThreadData) : Except Fault CaptureOutcome :=
  match os.worker with
  | .notStarted => .ok { data := { data with process := false }, written := .empty }
  | .started capture =>
    match Worker.files fs capture with
    | .error fault => .error fault
    | .ok written =>
      if data.filename = "-" then
        let handle := if os.thread.env.stdoutValid then .stdout else .invalid
        match runThread fs os.thread { data with writeHandle := handle } with
        | .error fault => .error fault
        | .ok s => .ok { data := s.data, written := written }
      else .ok { data := { data with writeHandle := .invalid }, written := written }

/-! ## `start_capture` -/

/-- The existence test at the end of `start_capture`, and its return value. -/
def finishCapture (fs : FileSystem) (o : CaptureOutcome) : CaptureEnd :=
  let data :=
    if o.data.outputCreated = false ∧ o.data.filename ≠ "-" ∧
        (fs.after o.written o.data.filename).isSome then
      { o.data with outputCreated := true }
    else o.data
  .returned (if data.outputCreated ∨ data.storeMode = storeModeImmediate then 0 else 1)
    { o with data := data }

/-- `start_capture`; `usbpcapcmd_main` calls it with a file name. -/
def runCapture (fs : FileSystem) (os : Os) (data : CaptureData) : Except Fault CaptureEnd :=
  match data.filename with
  | none => .error .outOfBounds
  | some filename =>
    let thread := data.threadData filename
    match startCapture data with
    | none => .ok (.returned (-1) { data := thread, written := .empty })
    | some data =>
      if os.elevated then (elevatedCapture fs os.thread data.injectDescriptors thread).map
        (finishCapture fs)
      else if os.commandLine = false then
        .ok (finishCapture fs { data := { thread with process := false }, written := .empty })
      else
        match os.jobStep with
        | .exit => .ok .exited
        | .failed =>
          .ok (.returned (-1) { data := { thread with process := false }, written := .empty })
        | .ready => (workerCapture fs os thread).map (finishCapture fs)

/-- `start_capture` ends before the existence test. -/
def EndsEarly (os : Os) (data : CaptureData) : Prop :=
  startCapture data = none ∨
    os.elevated = false ∧ os.commandLine = true ∧ os.jobStep ≠ .ready

/-! ## The result and the service -/

/-- What `0x%04x` prints. -/
def hex4 (n : UInt16) : String :=
  .ofList ('0' :: 'x' :: (Nat.toDigits 16 n.toNat).leftpad 4 '0')

/-- The flag `triggered` as `usbpcapcmd_main` completes it. -/
def ThreadData.reportsTriggered (data : ThreadData) : Bool :=
  data.triggered || decide (data.storeMode = storeModeImmediate) ||
    decide (data.storeMode = storeModeOnMatch) && data.outputCreated

/-- The result that `usbpcapcmd_main` prints, which always says that it is `ok`. -/
def captureResult (device : CStr) (found : MatchList) (data : ThreadData) :
    Service.CaptureResult where
  output := if data.outputCreated then some data.filename else none
  triggered := data.reportsTriggered
  storeMode := if data.storeMode = storeModeOnMatch then "on-match" else "immediate"
  droppedPackets := data.droppedPackets.toUInt64
  matchedDevices := found.items.map fun d =>
    ⟨.ofList device, d.address, hex4 d.vendorId, hex4 d.productId⟩
  reason :=
    if data.storeMode = storeModeOnMatch ∧ data.reportsTriggered = false then
      "No packet matched trigger conditions before capture ended."
    else ""

/-- The exit code of `usbpcapcmd_main`. -/
def exitCode (ret : ℤ) (data : ThreadData) : ℤ :=
  if ret = 1 ∧ data.storeMode = storeModeOnMatch then 0 else ret

/-- The result of a run, where one is printed. -/
def CaptureEnd.result (device : CStr) (found : MatchList) :
    CaptureEnd → Option Service.CaptureResult
  | .exited => none
  | .returned _ o => some (captureResult device found o.data)

/-- What the service's `CaptureContext` makes of a run: an exit code other than zero is an error,
with `message`, also next to an `ok` result. -/
def CaptureEnd.captureContext (device : CStr) (found : MatchList) (message : String) :
    CaptureEnd → Except Service.CaptureError Service.CaptureResult
  | .exited => .error (.other message)
  | .returned ret o =>
    if exitCode ret o.data ≠ 0 then .error (.other message)
    else .ok (captureResult device found o.data)

/-- The files after a run. -/
def CaptureEnd.files (fs : FileSystem) : CaptureEnd → FileSystem
  | .exited => fs
  | .returned _ o => fs.after o.written

/-- `pcap.Summarize`: `os.Stat`, and then what `read` makes of the contents. -/
def summarize (read : List UInt8 → Except String Service.Summary) (missing : String)
    (fs : FileSystem) (path : String) : Except String Service.Summary :=
  match fs path with
  | none => .error missing
  | some bytes => read bytes

/-! ## What the thread leaves alone -/

/-- A property of the thread's data that no step of the thread breaks. -/
structure Kept (env : Env) (P : ThreadData → Prop) : Prop where
  stop {d : ThreadData} : P d → P { d with process := false }
  trigger {d : ThreadData} : P d → P { d with triggered := true }
  drop {d : ThreadData} (n : UInt32) : P d → P { d with droppedPackets := n }
  collect {d : ThreadData} (descriptors : InjectDescriptors) :
    P d → P { d with descriptors := descriptors }
  opens {d : ThreadData} : P d → P (openOutputHandleIfNeeded env d).2

namespace Kept

variable {env : Env} {P : ThreadData → Prop} {s t : State}

/-- Writing keeps what is kept. -/
theorem writeData (hk : Kept env P) (hs : P s.data) (buffer : List UInt8) :
    P (writeData env s buffer).data := by
  unfold Cmd.writeData
  dsimp only
  split
  · exact hk.stop hs
  · split
    · exact hs
    · split
      · exact hk.stop hs
      · exact hs
    · exact hs
    · exact hk.stop hs

/-- So does the header. -/
theorem writeHeader (hk : Kept env P) (hs : P s.data) (hdr : List UInt8) :
    P (writeHeader env s hdr).data := by
  unfold Cmd.writeHeader
  dsimp only
  split
  · exact hk.writeData (hk.writeData hs _) _
  · exact hk.writeData hs _

/-- So does the begin of the output. -/
theorem beginOutputStream (hk : Kept env P) (hs : P s.data) :
    P (beginOutputStream env s).2.data := by
  unfold Cmd.beginOutputStream
  have hopen := hk.opens hs
  split
  · exact hs
  · split
    · exact hs
    · split
      · rename_i data heq
        rw [heq] at hopen
        exact hk.stop hopen
      · rename_i data heq
        rw [heq] at hopen
        exact hk.trigger (hk.writeHeader (s := { s with data := data }) hopen _)

/-- `begin_output_stream` where a condition asks for it. -/
theorem beginOutputStream_if (hk : Kept env P) (hs : P s.data) (p : Prop) [Decidable p] :
    P (if p then Cmd.beginOutputStream env s else (true, s)).2.data := by
  split
  · exact hk.beginOutputStream hs
  · exact hs

/-- So does taking the global header. -/
theorem takePcapHeader (hk : Kept env P) (hs : P s.data) : P (takePcapHeader env s).2.data := by
  unfold Cmd.takePcapHeader
  dsimp only
  split
  · exact hk.beginOutputStream hs
  · exact hs

/-- So does a record. -/
theorem writeRecord (hk : Kept env P) (hs : P s.data) (totalLength : UInt32) :
    P (writeRecord env s totalLength).2.data := by
  unfold Cmd.writeRecord
  have hbegin := hk.beginOutputStream_if hs
    (s.data.storeMode = storeModeImmediate ∧ s.parser.wrotePcapHeader = false)
  revert hbegin
  generalize (if s.data.storeMode = storeModeImmediate ∧ s.parser.wrotePcapHeader = false then
    Cmd.beginOutputStream env s else (true, s)) = r
  intro hbegin
  dsimp only
  split
  · split
    · exact hbegin
    · exact hk.writeData hbegin _
  · exact hs

/-- Also where it is only looked at. -/
theorem processRecord (hk : Kept env P) (hs : P s.data) {totalLength : UInt32}
    {go : Bool × State} (h : processRecord env s totalLength = .ok go) : P go.2.data := by
  unfold Cmd.processRecord at h
  have hbegin := hk.beginOutputStream_if hs
    (s.data.storeMode = storeModeOnMatch ∧ s.data.triggered = false)
  revert h hbegin
  generalize (if s.data.storeMode = storeModeOnMatch ∧ s.data.triggered = false then
    Cmd.beginOutputStream env s else (true, s)) = r
  intro h hbegin
  split at h
  · cases h
  · cases h
    exact hk.drop _ hs
  · dsimp only at h
    split at h
    · cases h
      exact hbegin
    · cases h
      exact hk.writeRecord hbegin _

/-- So does the loop over the records. -/
theorem parseLoop (hk : Kept env P) {fuel : ℕ} (hs : P s.data)
    (h : parseLoop env fuel s = .ok t) : P t.data := by
  induction fuel generalizing s with
  | zero => cases h
  | succ fuel ih =>
    unfold Cmd.parseLoop at h
    have hhdr : P (if s.parser.havePcapHeader = false ∧ 24 ≤ s.parser.pendingLen then
        Cmd.takePcapHeader env s else (true, s)).2.data := by
      split
      · exact hk.takePcapHeader hs
      · exact hs
    -- the loop goes on from here, whether the header has just arrived or was there
    revert h hhdr
    generalize (if s.parser.havePcapHeader = false ∧ 24 ≤ s.parser.pendingLen then
      Cmd.takePcapHeader env s else (true, s)) = r
    intro h hhdr
    dsimp only at h
    split at h
    · cases h
      exact hs
    split at h
    · cases h
      exact hhdr
    split at h
    · cases h
      exact hhdr
    split at h
    · cases h
      exact hhdr
    split at h
    · cases h
      exact hhdr
    split at h
    · cases h
    · rename_i hrec
      cases h
      exact hk.processRecord hhdr hrec
    · rename_i u hrec
      exact ih (s := { u with parser := discardPending u.parser _ })
        (hk.processRecord hhdr hrec) h

/-- So does a stream that is not parsed. -/
theorem passThrough (hk : Kept env P) (hs : P s.data) (buffer : List UInt8) :
    P (passThrough env s buffer).data := by
  unfold Cmd.passThrough
  dsimp only
  have hcollect := hk.collect (s.data.descriptors.collect (buffer.take
    (min (sizeofPcapHdr - s.data.descriptors.bufWritten) buffer.length))) hs
  split
  · split
    · split
      · exact hk.writeHeader hcollect _
      · exact hcollect
    · split
      · exact hk.writeData (hk.writeHeader hcollect _) _
      · exact hk.writeData hcollect _
  · exact hk.writeData hs _

/-- Whatever comes is kept. -/
theorem processData (hk : Kept env P) {fuel : ℕ} (hs : P s.data) {buffer : List UInt8}
    (h : processData env fuel s buffer = .ok t) : P t.data := by
  unfold Cmd.processData at h
  split at h
  · cases h
    exact hk.passThrough hs buffer
  · split at h
    · cases h
    · cases h
      exact hk.stop hs
    · rename_i parser _
      split at h
      · cases h
      · exact hk.parseLoop (s := { s with parser := appendPending parser buffer }) hs h

/-- What every step keeps, the thread keeps. -/
theorem readThread (hk : Kept env P) {fuel : ℕ} {buffers : List (List UInt8)} (hs : P s.data)
    (h : readThread env fuel s buffers = .ok t) : P t.data := by
  induction buffers generalizing s with
  | nil =>
    cases h
    exact hs
  | cons buffer buffers ih =>
    unfold Cmd.readThread at h
    split at h
    · cases h
      exact hs
    · split at h
      · cases h
      · rename_i u hu
        exact ih (hk.processData hs hu) h

end Kept

/-! ## Files are created new -/

variable {fs : FileSystem}

/-- A file is open only where none was, and but for standard output, an output that counts as
created is open. -/
structure ThreadData.Creates (fs : FileSystem) (name : String) (d : ThreadData) : Prop where
  filename : d.filename = name
  created : name ≠ "-" → d.outputCreated = true → d.writeHandle = .file
  free : d.writeHandle = .file → fs name = none

/-- The thread opens its output with `CREATE_NEW`. -/
theorem kept_creates (env : Env) (fs : FileSystem) (name : String) :
    Kept (env.on fs name) (ThreadData.Creates fs name) where
  stop h := ⟨h.filename, h.created, h.free⟩
  trigger h := ⟨h.filename, h.created, h.free⟩
  drop _ h := ⟨h.filename, h.created, h.free⟩
  collect _ h := ⟨h.filename, h.created, h.free⟩
  opens {d} h := by
    unfold openOutputHandleIfNeeded
    split
    · exact h
    split
    · rename_i hdash
      have hname : name = "-" := h.filename.symm.trans hdash
      split
      · exact ⟨h.filename, fun hne => absurd hname hne, fun hstd => by cases hstd⟩
      · exact ⟨h.filename, fun hne => absurd hname hne, h.free⟩
    split
    · rename_i hcreate
      have hfree : (fs name).isNone = true := (Bool.and_eq_true_iff.mp hcreate).2
      exact ⟨h.filename, fun _ _ => rfl, fun _ => Option.isNone_iff_eq_none.mp hfree⟩
    · exact h

/-- The start creates the file or leaves the name free. -/
theorem creates_openAtStart (r : ThreadRun) {data : ThreadData}
    (hclosed : data.outputCreated = false) :
    (openAtStart fs r data).Creates fs data.filename := by
  unfold openAtStart
  split
  · rename_i hdash
    refine ⟨rfl, fun hne => absurd hdash hne, fun hfile => ?_⟩
    dsimp only at hfile
    split at hfile
    · cases hfile
    · cases hfile
  split
  · refine ⟨rfl, fun _ hcreated => ?_, fun hfile => by cases hfile⟩
    exact absurd (hclosed.symm.trans hcreated) Bool.false_ne_true
  · refine ⟨rfl, fun _ hcreated => if_pos hcreated, fun hfile => ?_⟩
    dsimp only at hfile
    split at hfile
    · rename_i hcreate
      exact Option.isNone_iff_eq_none.mp (Bool.and_eq_true_iff.mp hcreate).2
    · cases hfile

/-- The thread's data keep their name, an output that counts as created is among the files
written, and no file is written that was there. -/
structure CaptureOutcome.CreatesNew (fs : FileSystem) (name : String) (o : CaptureOutcome) :
    Prop where
  filename : o.data.filename = name
  created : name ≠ "-" → o.data.outputCreated = true → (o.written name).isSome
  new : ∀ n, (o.written n).isSome → fs n = none

/-- A thread creates no file but its output. -/
theorem State.files_isSome {s : State} {n : String} (h : (s.files n).isSome) :
    s.data.writeHandle = .file ∧ n = s.data.filename := by
  unfold State.files at h
  split at h
  · assumption
  · cases h

/-- So does its whole run. -/
theorem runThread_creates {r : ThreadRun} {data : ThreadData} {s : State}
    (hdata : data.Creates fs data.filename) (h : runThread fs r data = .ok s) :
    s.data.Creates fs data.filename := by
  unfold runThread at h
  split at h
  · exact (kept_creates r.env fs data.filename).readThread (s := .start data) hdata h
  · cases h
    exact ⟨rfl, hdata.created, hdata.free⟩

/-- The elevated branch creates at most the output, and only where nothing was there. -/
theorem elevatedCapture_createsNew {r : ThreadRun} {inject : Bool} {data : ThreadData}
    {o : CaptureOutcome} (hclosed : data.outputCreated = false)
    (h : elevatedCapture fs r inject data = .ok o) : o.CreatesNew fs data.filename := by
  unfold elevatedCapture at h
  dsimp only at h
  have hstart : (if inject then { openAtStart fs r data with
      descriptors := { (openAtStart fs r data).descriptors with descriptors := r.descriptors } }
      else openAtStart fs r data).Creates fs data.filename := by
    have hopen : (openAtStart fs r data).Creates fs data.filename := creates_openAtStart r hclosed
    split
    · exact ⟨hopen.filename, hopen.created, hopen.free⟩
    · exact hopen
  revert h hstart
  generalize (if inject then { openAtStart fs r data with
    descriptors := { (openAtStart fs r data).descriptors with descriptors := r.descriptors } }
    else openAtStart fs r data) = d
  intro h hstart
  split at h
  · cases h
  · rename_i s hs
    cases h
    have hrun := runThread_creates (hstart.filename ▸ hstart) hs
    rw [hstart.filename] at hrun
    refine ⟨hrun.filename, fun hne hcreated => ?_, fun n hn => ?_⟩
    · -- what the flag reports is there
      change (State.files s data.filename).isSome
      unfold State.files
      rw [if_pos ⟨hrun.created hne hcreated, hrun.filename.symm⟩]
      rfl
    · obtain ⟨hfile, rfl⟩ := State.files_isSome hn
      rw [hrun.filename]
      exact hrun.free hfile

/-- The worker writes no file that was there. -/
theorem Worker.files_new {capture : Option (CaptureData × ThreadRun)} {written : FileSystem}
    (h : Worker.files fs capture = .ok written) {n : String} (hn : (written n).isSome) :
    fs n = none := by
  unfold Worker.files at h
  split at h
  · cases h
    cases hn
  · split at h
    · split at h
      · cases h
      · rename_i o ho
        cases h
        exact (elevatedCapture_createsNew rfl ho).new n hn
    · cases h
      cases hn

/-- So does a worker. -/
theorem workerCapture_createsNew {os : Os} {data : ThreadData} {o : CaptureOutcome}
    (hclosed : data.outputCreated = false) (h : workerCapture fs os data = .ok o) :
    o.CreatesNew fs data.filename := by
  have hno {P : Prop} (hcreated : data.outputCreated = true) : P :=
    absurd (hclosed.symm.trans hcreated) Bool.false_ne_true
  unfold workerCapture at h
  split at h
  · cases h
    exact ⟨rfl, fun _ => hno, fun n hn => by cases hn⟩
  · split at h
    · cases h
    · rename_i written hfiles
      split at h
      · -- the worker sends its capture through a pipe to standard output
        rename_i hdash
        dsimp only at h
        split at h
        · cases h
        · rename_i s hs
          cases h
          have hstart : ({ data with
              writeHandle := if os.thread.env.stdoutValid then .stdout else .invalid } :
                ThreadData).Creates fs data.filename := by
            refine ⟨rfl, fun _ => hno, fun hfile => ?_⟩
            dsimp only at hfile
            split at hfile
            · cases hfile
            · cases hfile
          have hrun := runThread_creates hstart hs
          exact ⟨hrun.filename, fun hne => absurd hdash hne, fun n => Worker.files_new hfiles⟩
      · cases h
        exact ⟨rfl, fun _ => hno, fun n => Worker.files_new hfiles⟩

/-- A run ends before the existence test, without a file, or reaches it with what it created. -/
theorem runCapture_cases {os : Os} {data : CaptureData} {filename : CStr} {e : CaptureEnd}
    (hname : data.filename = some filename) (h : runCapture fs os data = .ok e) :
    (EndsEarly os data ∧
      (e = .exited ∨
        ∃ t : ThreadData, t.outputCreated = false ∧ e = .returned (-1) ⟨t, .empty⟩)) ∨
    (¬ EndsEarly os data ∧ ∃ o : CaptureOutcome, o.CreatesNew fs (.ofList filename) ∧
      e = finishCapture fs o) := by
  unfold runCapture at h
  rw [hname] at h
  dsimp only at h
  split at h
  · -- the selection is refused, and no capture starts
    rename_i hrefused
    cases h
    exact Or.inl ⟨Or.inl hrefused, Or.inr ⟨_, rfl, rfl⟩⟩
  rename_i started hstarted
  have hnot : startCapture data ≠ none := by
    rw [hstarted]
    exact Option.some_ne_none started
  split at h
  · -- elevated: the thread runs in this process
    rename_i helevated
    refine Or.inr ⟨fun hearly => ?_, ?_⟩
    · rcases hearly with hrefused | ⟨hno, -⟩
      · exact hnot hrefused
      · exact absurd (hno.symm.trans helevated) Bool.false_ne_true
    · cases hrun : elevatedCapture fs os.thread started.injectDescriptors
        (data.threadData filename) with
      | error fault =>
        rw [hrun] at h
        cases h
      | ok o =>
        rw [hrun] at h
        cases h
        exact ⟨o, elevatedCapture_createsNew rfl hrun, rfl⟩
  rename_i helevated
  rw [Bool.not_eq_true] at helevated
  split at h
  · -- no command line, so no worker: the test finds what was there before
    rename_i hline
    cases h
    refine Or.inr ⟨fun hearly => ?_, _, ⟨rfl, fun _ hcreated => ?_, fun n hn => ?_⟩, rfl⟩
    · rcases hearly with hrefused | ⟨-, hgood, -⟩
      · exact hnot hrefused
      · exact absurd (hline.symm.trans hgood) Bool.false_ne_true
    · cases hcreated
    · cases hn
  rename_i hline
  rw [Bool.not_eq_false] at hline
  have hearly {step : JobStep} (hstep : os.jobStep = step) (hready : step ≠ .ready) :
      EndsEarly os data := Or.inr ⟨helevated, hline, hstep ▸ hready⟩
  split at h
  · -- the job fails, and no worker is created
    rename_i hstep
    cases h
    exact Or.inl ⟨hearly hstep JobStep.noConfusion, Or.inl rfl⟩
  · rename_i hstep
    cases h
    exact Or.inl ⟨hearly hstep JobStep.noConfusion, Or.inr ⟨_, rfl, rfl⟩⟩
  · rename_i hstep
    refine Or.inr ⟨fun hearly => ?_, ?_⟩
    · rcases hearly with hrefused | ⟨-, -, hbad⟩
      · exact hnot hrefused
      · exact hbad hstep
    · cases hrun : workerCapture fs os (data.threadData filename) with
      | error fault =>
        rw [hrun] at h
        cases h
      | ok o =>
        rw [hrun] at h
        cases h
        exact ⟨o, workerCapture_createsNew rfl hrun, rfl⟩

/-! ## The report -/

/-- What a run has written. -/
def CaptureEnd.written : CaptureEnd → FileSystem
  | .exited => .empty
  | .returned _ o => o.written

/-- The file at `name` is the run's own: none was there, and what is there now is what the run
wrote. -/
def CaptureEnd.Owns (fs : FileSystem) (e : CaptureEnd) (name : String) : Prop :=
  fs name = none ∧ ∃ bytes, e.written name = some bytes ∧ e.files fs name = some bytes

/-- A file that the result names, and a file that the service summarises for a task that is then
completed or idle, is the run's own. -/
structure CaptureEnd.Truthful (fs : FileSystem) (name : String) (e : CaptureEnd) : Prop where
  reported : ∀ device found resp path,
    e.result device found = some resp → resp.output = some path → e.Owns fs path
  summarised : ∀ (s : Service.Server) (id : Service.TaskID) device found message read missing,
    ((s.finalizeTask id (e.captureContext device found message)
      (summarize read missing (e.files fs) name)).object id).task.status ∈
        [Service.Status.completed, Service.Status.idle] → e.Owns fs name

/-- The service completes a task only for a result and with a summary. -/
theorem finalizeTask_done {s : Service.Server} {id : Service.TaskID}
    {outcome : Except Service.CaptureError Service.CaptureResult}
    {summary : Except String Service.Summary}
    (h : ((s.finalizeTask id outcome summary).object id).task.status ∈
      [Service.Status.completed, Service.Status.idle]) :
    (∃ resp, outcome = .ok resp) ∧ ∃ sum, summary = .ok sum := by
  unfold Service.Server.finalizeTask at h
  rw [Service.Server.updateObject_self] at h
  cases outcome with
  | error err =>
    exfalso
    cases err with
    | canceled => simp [Service.Server.finalizeError] at h
    | cmd errorCode message hint =>
      simp only [Service.Server.finalizeError] at h
      split at h <;> simp at h
    | other message => simp [Service.Server.finalizeError] at h
  | ok resp =>
    refine ⟨⟨resp, rfl⟩, ?_⟩
    cases summary with
    | error message =>
      exfalso
      simp only [Service.Server.finalizeResult] at h
      split at h <;> simp at h
    | ok sum => exact ⟨sum, rfl⟩

/-- Where no file was at `name`, a file that is there after a run is the run's own. -/
theorem CaptureEnd.owns_of_free {e : CaptureEnd} {name : String} (hfree : fs name = none)
    (hthere : (e.files fs name).isSome) : e.Owns fs name := by
  obtain ⟨bytes, hbytes⟩ := Option.isSome_iff_exists.mp hthere
  refine ⟨hfree, bytes, ?_, hbytes⟩
  cases e with
  | exited =>
    have hnone : fs name = some bytes := hbytes
    rw [hfree] at hnone
    cases hnone
  | returned ret o =>
    change (o.written name).or (fs name) = some bytes at hbytes
    rwa [hfree, Option.or_none] at hbytes

/-- A file that is summarised is there. -/
theorem summarize_ok {read : List UInt8 → Except String Service.Summary} {missing path : String}
    {sum : Service.Summary} (h : summarize read missing fs path = .ok sum) : (fs path).isSome := by
  unfold summarize at h
  split at h
  · cases h
  · rename_i bytes hbytes
    rw [hbytes]
    rfl

/-- A run that ends before the existence test reports nothing and fails. -/
theorem truthful_of_endsEarly {name : String} {e : CaptureEnd}
    (he : e = .exited ∨
      ∃ t : ThreadData, t.outputCreated = false ∧ e = .returned (-1) ⟨t, .empty⟩) :
    e.Truthful fs name := by
  rcases he with rfl | ⟨t, ht, rfl⟩
  · refine ⟨fun device found resp path hresp => ?_,
      fun s id device found message read missing hdone => ?_⟩
    · cases hresp
    · obtain ⟨⟨resp, hresp⟩, -⟩ := finalizeTask_done hdone
      cases hresp
  · refine ⟨fun device found resp path hresp hout => ?_,
      fun s id device found message read missing hdone => ?_⟩
    · obtain rfl := Option.some.inj hresp
      change (if t.outputCreated then some t.filename else none) = some path at hout
      rw [ht] at hout
      cases hout
    · obtain ⟨⟨resp, hresp⟩, -⟩ := finalizeTask_done hdone
      have hcode : exitCode (-1) t ≠ 0 := by
        unfold exitCode
        rw [if_neg fun h => absurd h.1 (by decide)]
        decide
      unfold CaptureEnd.captureContext at hresp
      dsimp only at hresp
      rw [if_pos hcode] at hresp
      cases hresp

/-- The existence test: behind it, the output counts as created exactly where it is there. -/
theorem finishCapture_spec {name : String} (hdash : name ≠ "-") {o : CaptureOutcome}
    (ho : o.CreatesNew fs name) :
    ∃ ret data, finishCapture fs o = .returned ret ⟨data, o.written⟩ ∧ data.filename = name ∧
      (data.outputCreated = true ↔ (fs.after o.written name).isSome) := by
  obtain rfl := ho.filename
  unfold finishCapture
  dsimp only
  split
  · rename_i htest
    exact ⟨_, _, rfl, rfl, fun _ => htest.2.2, fun _ => rfl⟩
  · rename_i htest
    refine ⟨_, _, rfl, rfl, fun hcreated => ?_, fun hthere => ?_⟩
    · unfold FileSystem.after
      rw [Option.isSome_or, ho.created hdash hcreated, Bool.true_or]
    · by_contra hno
      rw [Bool.not_eq_true] at hno
      exact htest ⟨hno, hdash, hthere⟩

/-- A run tells the truth about its output exactly when nothing was at the output's name before, or
it ends before the existence test. -/
theorem capture_truthful_iff {os : Os} {data : CaptureData} {filename : CStr} {e : CaptureEnd}
    (hname : data.filename = some filename) (hdash : String.ofList filename ≠ "-")
    (hrun : runCapture fs os data = .ok e) :
    e.Truthful fs (.ofList filename) ↔ fs (.ofList filename) = none ∨ EndsEarly os data := by
  rcases runCapture_cases hname hrun with ⟨hearly, he⟩ | ⟨hearly, o, ho, rfl⟩
  · exact ⟨fun _ => Or.inr hearly, fun _ => truthful_of_endsEarly he⟩
  obtain ⟨ret, d, hfinish, hfile, hcreated⟩ := finishCapture_spec hdash ho
  rw [hfinish]
  constructor
  · intro htrue
    -- were there a file, the test would find it and the result would name it
    by_contra hocc
    have hthere : (fs (.ofList filename)).isSome :=
      Option.isSome_iff_ne_none.mpr fun hfree => hocc (Or.inl hfree)
    have hout : d.outputCreated = true := by
      refine hcreated.mpr ?_
      unfold FileSystem.after
      rw [Option.isSome_or, hthere, Bool.or_true]
    have hown := htrue.reported [] .zero _ (.ofList filename) rfl (by
      change (if d.outputCreated then some d.filename else none) = _
      rw [if_pos hout, hfile])
    exact hocc (Or.inl hown.1)
  · rintro (hfree | hno)
    · refine ⟨fun device found resp path hresp hout => ?_,
        fun s id device found message read missing hdone => ?_⟩
      · obtain rfl := Option.some.inj hresp
        change (if d.outputCreated then some d.filename else none) = some path at hout
        split at hout
        · rename_i hset
          obtain rfl := Option.some.inj hout
          rw [hfile]
          exact CaptureEnd.owns_of_free hfree (hcreated.mp hset)
        · cases hout
      · obtain ⟨-, sum, hsum⟩ := finalizeTask_done hdone
        exact CaptureEnd.owns_of_free hfree (summarize_ok hsum)
    · exact absurd hno hearly

/-! ## A second profile run -/

/-- The capture of a profile, from all devices of an interface. -/
def profileData : CaptureData :=
  { Settings.initial.data with
    device := some "\\\\.\\USBPcap1".toList
    filename := some "profile-USBPcap1.pcap".toList
    captureAll := true
    process := true }

/-- An elevated process whose capture reads nothing. -/
def idleOs : Os where
  elevated := true
  thread := ⟨true, [], true, .reliable, 1, []⟩
  commandLine := true
  job := none
  createJobObject := true
  assignProcess := true
  worker := .notStarted

/-- The file system after an earlier profile run of the interface. -/
def profiledBefore : FileSystem := fun name =>
  if name = "profile-USBPcap1.pcap" then some [0xD4, 0xC3, 0xB2, 0xA1] else none

/-- What the second profile run creates: nothing. It reports the first one's file. -/
theorem earlier_file_reported :
    ¬ ∀ (fs : FileSystem) (os : Os) (data : CaptureData) (filename : CStr) (e : CaptureEnd),
      data.filename = some filename → String.ofList filename ≠ "-" →
      runCapture fs os data = .ok e → e.Truthful fs (.ofList filename) := by
  intro h
  have htrue := h profiledBefore idleOs profileData "profile-USBPcap1.pcap".toList _ rfl
    (by decide) rfl
  have hown := htrue.reported [] .zero _ "profile-USBPcap1.pcap" rfl rfl
  have hbefore : profiledBefore "profile-USBPcap1.pcap" = some [0xD4, 0xC3, 0xB2, 0xA1] := rfl
  rw [hown.1] at hbefore
  cases hbefore

/-- One whose thread reads the global header and a packet. -/
def readingOs : Os :=
  { idleOs with thread := ⟨true, [], true, .reliable, 100, [sampleHdr ++ sampleRecord 0x81]⟩ }

/-- The run where the name is free. The file is there with what was read, and the result names
it. -/
theorem capture_truthful_iff_first : ∃ e, runCapture .empty readingOs profileData = .ok e ∧
    e.Truthful .empty "profile-USBPcap1.pcap" ∧
    e.files .empty "profile-USBPcap1.pcap" = some (sampleHdr ++ sampleRecord 0x81) ∧
    ∃ resp, e.result [] .zero = some resp ∧ resp.output = some "profile-USBPcap1.pcap" := by
  have hname : profileData.filename = some "profile-USBPcap1.pcap".toList := rfl
  obtain ⟨e, hrun, hfiles⟩ : ∃ e, runCapture .empty readingOs profileData = .ok e ∧
      e.files .empty "profile-USBPcap1.pcap" = some (sampleHdr ++ sampleRecord 0x81) ∧
      ∃ resp, e.result [] .zero = some resp ∧ resp.output = some "profile-USBPcap1.pcap" :=
    ⟨_, rfl, rfl, _, rfl, rfl⟩
  exact ⟨e, hrun, (capture_truthful_iff hname (by decide) hrun).mpr (Or.inl rfl), hfiles⟩

end UsbPcap.Cmd
