import UsbPcap.Cmd.Chunking
import UsbPcap.Lib.Transition

/-!
# The two threads of a capture

`start_capture` waits for a reason to stop while `read_thread` waits for the events of its
operations and processes what has been read. The threads share `data->process` and an event. A state
has both threads and the operations that are under way, and between two tests of `data->process`
everything else may happen. `capture_ends` says that a capture that is to end does so within six
steps of the two threads, whatever the system does in between, unless it never ends a write that
`write_data` waits for.
-/

namespace UsbPcap.Cmd

/-- `data->process = FALSE` -/
def State.halt (s : State) : State := { s with data := { s.data with process := false } }

namespace EventLoop

open Format Transition

/-! ## `thread.c` and `cmd.c` -/

/-- An overlapped operation: there is none, it is under way, or its event is signaled. -/
inductive Overlapped (α : Type*) where
  | idle
  | pending
  | signaled (result : α)
deriving DecidableEq

/-- The system signals the event of an operation. -/
def Overlapped.complete {α : Type*} (result : α) : Overlapped α → Option (Overlapped α)
  | pending => some (signaled result)
  | idle | signaled _ => none

/-- What has been transferred, once the event is signaled. -/
def Overlapped.result {α : Type*} : Overlapped α → Option α
  | signaled result => some result
  | idle | pending => none

/-- `CancelIo`. What has been transferred already stays unfetched. -/
def Overlapped.cancel {α : Type*} : Overlapped α → Overlapped α
  | pending | idle => idle
  | signaled result => signaled result

/-- Where `read_thread` is: at the test of `data->process` in its loop, in
`WaitForMultipleObjects`, at the test in the loop of `process_data`, behind its loop, or where the
model does not follow it. -/
inductive Place where
  | head
  | waiting
  | parsing
  | left
  | faulted (fault : Fault)
deriving DecidableEq

/-- Where `start_capture` is: in `wait_for_exit_signal`, behind `data->process = FALSE`, behind
`SetEvent`, or behind the wait for the thread. -/
inductive Main where
  | waiting
  | cleared
  | signaled
  | joined
deriving DecidableEq

/-- The threads, what they share, and the operations: the reads of packets, the connection of the
pipe that they may come through, and the reads that detect whether the output's pipe is broken.
`write` and `exit` are the events of the writes and `exit_event`. `blocked` says that `read_thread`
is in the `GetOverlappedResult` of `write_data`: a write of its last step is pending. Nobody else
looks at what that step changes, so it counts as made. -/
structure System where
  thread : State
  place : Place
  main : Main
  read : Overlapped (List UInt8)
  connect : Overlapped Unit
  peer : Overlapped Bool
  write : Bool
  exit : Bool
  blocked : Bool

/-- The end of `read_thread`. -/
def finish (s : System) : System := { s with place := .left, read := s.read.cancel, exit := true }

/-- The body of the loop of `process_data`; `false` where it leaves the loop. -/
def parseTurn (env : Env) (s : State) : Except Fault (Bool × State) :=
  let (go, s) :=
    if s.parser.havePcapHeader = false ∧ 24 ≤ s.parser.pendingLen then takePcapHeader env s
    else (true, s)
  if go = false then .ok (false, s)
  else if s.parser.havePcapHeader = false then .ok (false, s)
  else if s.parser.pendingLen < 16 then .ok (false, s)
  else
    let totalLength := 16 + UInt32.ofNat (inclLen s.parser.pending)
    if s.parser.pendingLen < totalLength then .ok (false, s)
    else
      match processRecord env s totalLength with
      | .error fault => .error fault
      | .ok (false, s) => .ok (false, s)
      | .ok (true, s) => .ok (true, { s with parser := discardPending s.parser totalLength })

/-- Behind `process_data`: start the next read. -/
def restart (s : System) : System := { s with place := .head, read := .pending }

/-- `process_data` up to its loop, on the bytes that have been read. -/
def fetch (env : Env) (fuel : ℕ) (s : System) (buffer : List UInt8) : System :=
  if s.thread.data.passesThrough then
    restart { s with thread := passThrough env s.thread buffer }
  else
    match ensurePendingCapacity env fuel s.thread.parser (UInt32.ofNat buffer.length) with
    | .error fault => { s with place := .faulted fault, read := .idle }
    | .ok (false, parser) =>
      restart { s with thread := { s.thread.halt with parser := parser } }
    | .ok (true, parser) =>
      if parser.pending.length < parser.pendingLen.toNat + buffer.length then
        { s with place := .faulted .outOfBounds, read := .idle }
      else
        { s with
          place := .parsing
          read := .idle
          thread := { s.thread with parser := appendPending parser buffer } }

/-- One return of `WaitForMultipleObjects`, which looks at the events in the order of the table;
`none` as long as none of them is signaled. -/
def dispatch (env : Env) (fuel : ℕ) (s : System) : Option System :=
  match s.read.result with
  | some buffer => some (fetch env fuel s buffer)
  | none =>
    if s.write then some { s with place := .head, write := false }
    else
      match s.peer.result with
      | some true => some { s with place := .head, peer := .idle, thread := s.thread.halt }
      | some false => some { s with place := .head, peer := .pending }
      | none =>
        if s.exit then some { s with place := .head, thread := s.thread.halt }
        else
          match s.connect.result with
          | some () => some { restart s with connect := .idle }
          | none => none

/-- The next step of `read_thread`, when it does not wait for a write. -/
def threadStep (env : Env) (fuel : ℕ) (s : System) : Option System :=
  match s.place with
  | .head => some (if s.thread.data.process then { s with place := .waiting } else finish s)
  | .waiting => dispatch env fuel s
  | .parsing =>
    if s.thread.data.process = false then some (restart s)
    else
      match parseTurn env s.thread with
      | .error fault => some { s with place := .faulted fault }
      | .ok (false, thread) => some (restart { s with thread := thread })
      | .ok (true, thread) => some { s with thread := thread }
  | .left | .faulted _ => none

/-- The same step with a write that the system leaves pending. -/
def blockedStep (env : Env) (fuel : ℕ) (s : System) : Option System :=
  match threadStep env fuel s with
  | some t => if t.thread.writes = s.thread.writes then none else some { t with blocked := true }
  | none => none

/-- `wait_for_exit_signal` returns. -/
def leaveWait (s : System) : System := { s with main := .cleared, thread := s.thread.halt }

/-- The next step of `start_capture`, which waits for `exit_event` here. -/
def mainStep (s : System) : Option System :=
  match s.main with
  | .waiting => if s.exit then some (leaveWait s) else none
  | .cleared => some { s with main := .signaled, exit := true }
  | .signaled => if s.place = .left then some { s with main := .joined } else none
  | .joined => none

/-- What may happen: a step of a thread, `WaitForMultipleObjects` failing, another reason to stop
(the key, the timer, the worker), and what the system does with the operations. `threadBlocks` is a
step of `read_thread` that makes a write which stays pending, up to `writeEnds`. -/
inductive Act where
  | thread
  | threadBlocks
  | main
  | waitFails
  | quit
  | complete (buffer : List UInt8)
  | refuse
  | connected
  | peer (broken : Bool)
  | written
  | writeEnds
deriving DecidableEq

/-- A step of one of the two threads. -/
def Act.isProgram : Act → Bool
  | thread | threadBlocks | main | waitFails => true
  | quit | complete _ | refuse | connected | peer _ | written | writeEnds => false

/-- One step of the threads or of the system. -/
def step (env : Env) (fuel : ℕ) (s : System) : Act → Option System
  | .thread => if s.blocked then none else threadStep env fuel s
  | .threadBlocks => if s.blocked then none else blockedStep env fuel s
  | .main => mainStep s
  | .waitFails => if s.place = .waiting ∧ s.blocked = false then some (finish s) else none
  | .quit => if s.main = .waiting then some (leaveWait s) else none
  | .complete buffer => (s.read.complete buffer).map fun read => { s with read := read }
  | .refuse => if s.read = .pending then some { s with read := .idle } else none
  | .connected => (s.connect.complete ()).map fun connect => { s with connect := connect }
  | .peer broken => (s.peer.complete broken).map fun peer => { s with peer := peer }
  | .written => some { s with write := true }
  | .writeEnds => if s.blocked then some { s with blocked := false } else none

/-- What `ConnectNamedPipe` returns. With a client that was there before, it signals nothing. -/
inductive ConnectResult where
  | pending
  | connected
  | failed
deriving DecidableEq

/-- What `read_thread` finds: memory for its buffer, a read handle, which may be a pipe, and
whether the output is a pipe. -/
structure Setup where
  buffer : Bool
  readHandle : Bool
  connect : Option ConnectResult
  peer : Bool

/-- The two threads when `read_thread` comes to its loop, or past it. -/
def start (setup : Setup) (thread : State) : System :=
  let s : System :=
    { thread := thread, place := .head, main := .waiting, read := .idle, connect := .idle,
      peer := if setup.peer then .pending else .idle, write := false, exit := false,
      blocked := false }
  if setup.buffer = false ∨ setup.readHandle = false ∨ (thread.data.writeHandle = .invalid ∧
      thread.data.storeMode ≠ storeModeImmediate ∧ thread.data.storeMode ≠ storeModeOnMatch ∧
      thread.data.filename ≠ "-") then
    { s with place := .left, peer := .idle, exit := true }
  else
    match setup.connect with
    | none => { s with read := .pending }
    | some .pending => { s with connect := .pending }
    | some .connected => s
    | some .failed => { s with thread := s.thread.halt }

/-! ## Steps -/

section Steps

variable {env : Env} {fuel : ℕ} {s t : System}

/-- Only a pending operation completes. -/
theorem Overlapped.complete_eq_some {α : Type*} {result : α} {o o' : Overlapped α} :
    o.complete result = some o' ↔ o = .pending ∧ o' = .signaled result := by
  cases o with
  | pending => simp [complete, eq_comm]
  | idle => simp [complete]
  | signaled r => simp [complete]

/-- Only a finished operation has a result. -/
theorem Overlapped.result_eq_some {α : Type*} {result : α} {o : Overlapped α} :
    o.result = some result ↔ o = .signaled result := by
  cases o with
  | signaled r => simp [Overlapped.result]
  | idle => simp [Overlapped.result]
  | pending => simp [Overlapped.result]

/-- Writing does not start a stopped thread again. -/
theorem process_writeData (env : Env) (s : State) (buffer : List UInt8)
    (h : s.data.process = false) : (writeData env s buffer).data.process = false := by
  unfold writeData
  dsimp only
  split
  · rfl
  · split
    · exact h
    · split
      · rfl
      · exact h
    · exact h
    · rfl

/-- Neither does the header. -/
theorem process_writeHeader (env : Env) (s : State) (hdr : List UInt8)
    (h : s.data.process = false) : (writeHeader env s hdr).data.process = false := by
  unfold writeHeader
  dsimp only
  split
  · exact process_writeData env _ _ (process_writeData env s hdr h)
  · exact process_writeData env s hdr h

/-- Passing bytes through does not take a request to stop back. -/
theorem process_passThrough (env : Env) (s : State) (buffer : List UInt8)
    (h : s.data.process = false) : (passThrough env s buffer).data.process = false := by
  unfold passThrough
  split
  · dsimp only
    split
    · split
      · exact process_writeHeader env _ _ h
      · exact h
    · refine process_writeData env _ _ ?_
      split
      · exact process_writeHeader env _ _ h
      · exact h
  · exact process_writeData env s buffer h

/-- What `process_data` does up to its loop: it comes to the loop, or the next read is started. A
request to stop stays. -/
theorem fetch_cases (env : Env) (fuel : ℕ) (s : System) (buffer : List UInt8) :
    ∃ thread : State, (s.thread.data.process = false → thread.data.process = false) ∧
      (fetch env fuel s buffer = restart { s with thread := thread } ∨
        fetch env fuel s buffer = { s with place := .parsing, read := .idle, thread := thread } ∨
        ∃ fault, fetch env fuel s buffer = { s with place := .faulted fault, read := .idle }) := by
  unfold fetch
  split
  · exact ⟨_, process_passThrough env s.thread buffer, Or.inl rfl⟩
  · split
    · exact ⟨s.thread, id, Or.inr (Or.inr ⟨_, rfl⟩)⟩
    · exact ⟨_, fun _ => rfl, Or.inl rfl⟩
    · split
      · exact ⟨s.thread, id, Or.inr (Or.inr ⟨_, rfl⟩)⟩
      · rename_i parser _ _
        exact ⟨{ s.thread with parser := appendPending parser buffer }, id, Or.inr (Or.inl rfl)⟩

/-- What a return of `WaitForMultipleObjects` leads to. -/
theorem dispatch_cases (h : dispatch env fuel s = some t) :
    (∃ buffer, s.read = .signaled buffer ∧ t = fetch env fuel s buffer) ∨
      (∃ thread write peer, (thread = s.thread ∨ thread = s.thread.halt) ∧
        t = { s with place := .head, thread := thread, write := write, peer := peer }) ∨
      s.connect = .signaled () ∧ t = { restart s with connect := .idle } := by
  unfold dispatch at h
  split at h
  · rename_i buffer hread
    exact Or.inl ⟨buffer, Overlapped.result_eq_some.mp hread, (Option.some.inj h).symm⟩
  · split at h
    · exact Or.inr (Or.inl ⟨_, _, _, Or.inl rfl, (Option.some.inj h).symm⟩)
    · split at h
      · exact Or.inr (Or.inl ⟨_, _, _, Or.inr rfl, (Option.some.inj h).symm⟩)
      · exact Or.inr (Or.inl ⟨_, _, _, Or.inl rfl, (Option.some.inj h).symm⟩)
      · split at h
        · exact Or.inr (Or.inl ⟨_, _, _, Or.inr rfl, (Option.some.inj h).symm⟩)
        · split at h
          · rename_i hconnect
            exact Or.inr (Or.inr ⟨Overlapped.result_eq_some.mp hconnect, (Option.some.inj h).symm⟩)
          · cases h

/-- The exit event ends the wait. -/
theorem dispatch_of_exit (h : s.exit = true) : (dispatch env fuel s).isSome := by
  unfold dispatch
  split
  · rfl
  · split
    · rfl
    · split
      · rfl
      · rfl
      · rfl

/-- What a turn of the loop of `process_data` leads to. -/
theorem parsing_cases (hplace : s.place = .parsing) (h : threadStep env fuel s = some t) :
    (∃ thread, (s.thread.data.process = false → thread = s.thread) ∧
        t = restart { s with thread := thread }) ∨
      s.thread.data.process = true ∧
        ((∃ thread, parseTurn env s.thread = .ok (true, thread) ∧
            t = { s with place := .parsing, thread := thread }) ∨
          ∃ fault, t = { s with place := .faulted fault }) := by
  unfold threadStep at h
  rw [hplace] at h
  dsimp only at h
  split at h
  · exact Or.inl ⟨s.thread, fun _ => rfl, (Option.some.inj h).symm⟩
  · rename_i hprocess
    have hrunning := Bool.not_eq_false _ ▸ hprocess
    split at h
    · exact Or.inr ⟨hrunning, Or.inr ⟨_, (Option.some.inj h).symm⟩⟩
    · exact Or.inl ⟨_, fun hstop => absurd hstop hprocess, (Option.some.inj h).symm⟩
    · rename_i thread hturn
      exact Or.inr ⟨hrunning, Or.inl ⟨thread, hturn, (Option.some.inj h).symm⟩⟩

/-! ## The end of a capture -/

/-- How many steps `read_thread` still takes once it is to stop. -/
def Place.rank : Place → ℕ
  | waiting => 3
  | parsing => 2
  | head => 1
  | left | faulted _ => 0

def Main.rank : Main → ℕ
  | waiting => 3
  | cleared => 2
  | signaled => 1
  | joined => 0

def System.rank (s : System) : ℕ := s.place.rank + s.main.rank

/-- The capture is to end: somebody has asked for it, or the thread has left its loop. -/
def System.Ending (s : System) : Prop := s.thread.data.process = false ∨ s.place = .left

/-- Both threads are through. -/
def System.Over (s : System) : Prop := s.place = .left ∧ s.main = .joined

/-- What the threads tell each other. -/
structure System.Synced (s : System) : Prop where
  left : s.place = .left → s.exit = true
  waiting : s.place = .waiting → s.thread.data.process = false → s.main ≠ .waiting
  cleared : s.main ≠ .waiting → s.thread.data.process = false
  signaled : s.main = .signaled ∨ s.main = .joined → s.exit = true
  joined : s.main = .joined → s.place = .left

/-- What a step of `read_thread` keeps. A thread that is to stop comes nearer to its end. -/
structure ThreadStep (s t : System) : Prop where
  running : s.place ≠ .left
  main : t.main = s.main
  exit : s.exit = true → t.exit = true
  left : t.place = .left → t.exit = true
  waits : t.place = .waiting → t.thread.data.process = true
  stopping : s.thread.data.process = false →
    t.thread.data.process = false ∧ t.place ≠ .waiting ∧ t.place.rank < s.place.rank

/-- A step that neither ends nor enters the wait. -/
theorem ThreadStep.of_place (p q : Place) (hs : s.place = p) (ht : t.place = q)
    (hq : q ≠ .left ∧ q ≠ .waiting) (hrank : q.rank < p.rank) (hmain : t.main = s.main)
    (hexit : t.exit = s.exit)
    (hstop : s.thread.data.process = false → t.thread.data.process = false) : ThreadStep s t where
  running h := absurd ((hs.symm.trans h) ▸ hrank) (Nat.not_lt_zero _)
  main := hmain
  exit h := hexit.trans h
  left h := absurd (ht.symm.trans h) hq.1
  waits h := absurd (ht.symm.trans h) hq.2
  stopping h := ⟨hstop h, ht ▸ hq.2, ht ▸ hs ▸ hrank⟩

/-- What a step of `read_thread` does, and which of its fields it leaves alone. -/
theorem threadStep_spec (h : threadStep env fuel s = some t) : ThreadStep s t := by
  cases hplace : s.place with
  | head =>
    -- the loop condition reads `process`
    unfold threadStep at h
    rw [hplace] at h
    dsimp only at h
    split at h
    · rename_i hprocess
      obtain rfl := Option.some.inj h
      exact ⟨hplace ▸ Place.noConfusion, rfl, id, Place.noConfusion, fun _ => hprocess,
        fun hstop => absurd (hstop.symm.trans hprocess) Bool.false_ne_true⟩
    · obtain rfl := Option.some.inj h
      exact ⟨hplace ▸ Place.noConfusion, rfl, fun _ => rfl, fun _ => rfl, Place.noConfusion,
        fun hstop => ⟨hstop, Place.noConfusion, hplace ▸ Nat.zero_lt_one⟩⟩
  | waiting =>
    -- a finished read, a finished wait on the pipe, or a signal of its own
    have hdispatch : dispatch env fuel s = some t := by
      unfold threadStep at h
      rwa [hplace] at h
    rcases dispatch_cases hdispatch with ⟨buffer, -, rfl⟩ | ⟨thread, write, peer, hthread, rfl⟩ |
      ⟨-, rfl⟩
    · obtain ⟨thread, hstop, hfetch | hfetch | ⟨fault, hfetch⟩⟩ :=
        fetch_cases env fuel s buffer
      · rw [hfetch]
        exact .of_place .waiting .head hplace rfl (by decide) (by decide) rfl rfl hstop
      · rw [hfetch]
        exact .of_place .waiting .parsing hplace rfl (by decide) (by decide) rfl rfl hstop
      · rw [hfetch]
        exact .of_place .waiting (.faulted fault) hplace rfl
          ⟨Place.noConfusion, Place.noConfusion⟩ (Nat.zero_lt_succ 2) rfl rfl id
    · refine .of_place .waiting .head hplace rfl (by decide) (by decide) rfl rfl fun hstop => ?_
      rcases hthread with rfl | rfl
      · exact hstop
      · rfl
    · exact .of_place .waiting .head hplace rfl (by decide) (by decide) rfl rfl id
  | parsing =>
    -- the parser may clear `process` (a limit is reached), but never sets it
    rcases parsing_cases hplace h with ⟨thread, hstop, rfl⟩ | ⟨hprocess, hnext⟩
    · exact .of_place .parsing .head hplace rfl (by decide) (by decide) rfl rfl
        fun h => (congrArg (fun u => u.data.process) (hstop h)).trans h
    · have hrunning : s.thread.data.process ≠ false := hprocess ▸ Bool.true_eq_false.mp
      rcases hnext with ⟨thread, -, rfl⟩ | ⟨fault, rfl⟩
      · exact ⟨hplace ▸ Place.noConfusion, rfl, id, Place.noConfusion, Place.noConfusion,
          fun h => absurd h hrunning⟩
      · exact ⟨hplace ▸ Place.noConfusion, rfl, id, Place.noConfusion, Place.noConfusion,
          fun h => absurd h hrunning⟩
  | left =>
    unfold threadStep at h
    rw [hplace] at h
    cases h
  | faulted fault =>
    unfold threadStep at h
    rw [hplace] at h
    cases h

/-- A step with a pending write is a step, and one that makes a write. -/
theorem blockedStep_eq_some :
    blockedStep env fuel s = some t ↔ ∃ u, threadStep env fuel s = some u ∧
      u.thread.writes ≠ s.thread.writes ∧ t = { u with blocked := true } := by
  unfold blockedStep
  split
  · rename_i u hu
    rw [Option.ite_none_left_eq_some, hu]
    constructor
    · rintro ⟨hwrites, ht⟩
      exact ⟨u, rfl, hwrites, (Option.some.inj ht).symm⟩
    · rintro ⟨v, hv, hwrites, rfl⟩
      obtain rfl := Option.some.inj hv
      exact ⟨hwrites, rfl⟩
  · rename_i hnone
    rw [hnone]
    constructor
    · intro h
      cases h
    · rintro ⟨u, hu, -, -⟩
      cases hu

/-- A step of the thread, with or without a pending write. -/
theorem step_thread {a : Act} (ha : a = .thread ∨ a = .threadBlocks)
    (h : step env fuel s a = some t) : ∃ u blocked, threadStep env fuel s = some u ∧
      t = { u with blocked := blocked } := by
  rcases ha with rfl | rfl
  · obtain ⟨-, hu⟩ := Option.ite_none_left_eq_some.mp h
    exact ⟨t, t.blocked, hu, rfl⟩
  · obtain ⟨-, hu⟩ := Option.ite_none_left_eq_some.mp h
    obtain ⟨u, hstep, -, rfl⟩ := blockedStep_eq_some.mp hu
    exact ⟨u, true, hstep, rfl⟩

/-- Waiting for a write changes neither what the threads do next nor what they tell each other. -/
theorem ThreadStep.withBlocked (h : ThreadStep s t) (blocked : Bool) :
    ThreadStep s { t with blocked := blocked } :=
  ⟨h.running, h.main, h.exit, h.left, h.waits, h.stopping⟩

/-- The acts of the system change neither thread. -/
theorem step_other {a : Act} (ha : a.isProgram = false) (hquit : a ≠ .quit)
    (h : step env fuel s a = some t) :
    t.thread = s.thread ∧ t.place = s.place ∧ t.main = s.main ∧ t.exit = s.exit := by
  cases a with
  | thread | threadBlocks | main | waitFails => cases ha
  | quit => exact absurd rfl hquit
  | complete buffer =>
    obtain ⟨read, -, rfl⟩ := Option.map_eq_some_iff.mp h
    exact ⟨rfl, rfl, rfl, rfl⟩
  | connected =>
    obtain ⟨connect, -, rfl⟩ := Option.map_eq_some_iff.mp h
    exact ⟨rfl, rfl, rfl, rfl⟩
  | peer broken =>
    obtain ⟨peer, -, rfl⟩ := Option.map_eq_some_iff.mp h
    exact ⟨rfl, rfl, rfl, rfl⟩
  | refuse =>
    obtain ⟨-, ht⟩ := Option.ite_none_right_eq_some.mp h
    obtain rfl := Option.some.inj ht
    exact ⟨rfl, rfl, rfl, rfl⟩
  | written =>
    obtain rfl := Option.some.inj h
    exact ⟨rfl, rfl, rfl, rfl⟩
  | writeEnds =>
    obtain ⟨-, ht⟩ := Option.ite_none_right_eq_some.mp h
    obtain rfl := Option.some.inj ht
    exact ⟨rfl, rfl, rfl, rfl⟩

/-- A thread that ends stays in step with the main thread. -/
theorem System.Synced.finish (h : s.Synced) : (finish s).Synced where
  left _ := rfl
  waiting h := Place.noConfusion h
  cleared := h.cleared
  signaled _ := rfl
  joined _ := rfl

/-- So does one that leaves its wait. -/
theorem System.Synced.leaveWait (h : s.Synced) : (leaveWait s).Synced where
  left := h.left
  waiting _ _ := Main.noConfusion
  cleared _ := rfl
  signaled h := h.elim Main.noConfusion Main.noConfusion
  joined h := Main.noConfusion h

/-- So does every turn of the thread. -/
theorem System.Synced.thread (h : s.Synced) (hstep : ThreadStep s t) : t.Synced where
  left := hstep.left
  waiting hplace hstop := absurd ((hstep.waits hplace).symm.trans hstop) Bool.true_eq_false.mp
  cleared hmain := (hstep.stopping (h.cleared (hstep.main ▸ hmain))).1
  signaled hmain := hstep.exit (h.signaled (hstep.main ▸ hmain))
  joined hmain := absurd (h.joined (hstep.main ▸ hmain)) hstep.running

/-- And every step of the main thread. -/
theorem System.Synced.main (h : s.Synced) (hstep : mainStep s = some t) : t.Synced := by
  unfold mainStep at hstep
  split at hstep
  · obtain ⟨-, ht⟩ := Option.ite_none_right_eq_some.mp hstep
    obtain rfl := Option.some.inj ht
    exact h.leaveWait
  · rename_i hmain
    obtain rfl := Option.some.inj hstep
    exact ⟨fun _ => rfl, fun _ _ => Main.noConfusion,
      fun _ => h.cleared (hmain ▸ Main.noConfusion), fun _ => rfl, Main.noConfusion⟩
  · rename_i hmain
    obtain ⟨hplace, ht⟩ := Option.ite_none_right_eq_some.mp hstep
    obtain rfl := Option.some.inj ht
    exact ⟨h.left, fun _ _ => Main.noConfusion, fun _ => h.cleared (hmain ▸ Main.noConfusion),
      fun _ => h.signaled (Or.inl hmain), fun _ => hplace⟩
  · cases hstep

/-- Every step keeps the two in step. -/
theorem System.Synced.of_step (h : s.Synced) {a : Act} (hstep : step env fuel s a = some t) :
    t.Synced := by
  by_cases hother : a.isProgram = false ∧ a ≠ .quit
  · obtain ⟨hthread, hplace, hmain, hexit⟩ := step_other hother.1 hother.2 hstep
    constructor
    · rw [hplace, hexit]
      exact h.left
    · rw [hplace, hthread, hmain]
      exact h.waiting
    · rw [hmain, hthread]
      exact h.cleared
    · rw [hmain, hexit]
      exact h.signaled
    · rw [hmain, hplace]
      exact h.joined
  · cases a with
    | thread =>
      obtain ⟨u, blocked, hu, rfl⟩ := step_thread (.inl rfl) hstep
      exact h.thread ((threadStep_spec hu).withBlocked blocked)
    | threadBlocks =>
      obtain ⟨u, blocked, hu, rfl⟩ := step_thread (.inr rfl) hstep
      exact h.thread ((threadStep_spec hu).withBlocked blocked)
    | main => exact h.main hstep
    | waitFails =>
      obtain ⟨-, ht⟩ := Option.ite_none_right_eq_some.mp hstep
      obtain rfl := Option.some.inj ht
      exact h.finish
    | quit =>
      obtain ⟨-, ht⟩ := Option.ite_none_right_eq_some.mp hstep
      obtain rfl := Option.some.inj ht
      exact h.leaveWait
    | _ => exact absurd ⟨rfl, Act.noConfusion⟩ hother

/-- The main thread moves on, and leaves the other where it is. -/
theorem mainStep_spec (h : mainStep s = some t) :
    t.place = s.place ∧ (s.thread.data.process = false → t.thread.data.process = false) ∧
      t.main.rank < s.main.rank := by
  unfold mainStep at h
  split at h
  · rename_i hmain
    obtain ⟨-, ht⟩ := Option.ite_none_right_eq_some.mp h
    obtain rfl := Option.some.inj ht
    exact ⟨rfl, fun _ => rfl, hmain ▸ (by decide : Main.cleared.rank < Main.waiting.rank)⟩
  · rename_i hmain
    obtain rfl := Option.some.inj h
    exact ⟨rfl, id, hmain ▸ (by decide : Main.signaled.rank < Main.cleared.rank)⟩
  · rename_i hmain
    obtain ⟨-, ht⟩ := Option.ite_none_right_eq_some.mp h
    obtain rfl := Option.some.inj ht
    exact ⟨rfl, id, hmain ▸ (by decide : Main.joined.rank < Main.signaled.rank)⟩
  · cases h

/-- A step of the thread takes a capture that is to end nearer to its end. -/
theorem System.Ending.of_threadStep (hend : s.Ending) (hspec : ThreadStep s t) :
    t.Ending ∧ t.rank + 1 ≤ s.rank := by
  obtain ⟨hstop, -, hrank⟩ := hspec.stopping (hend.resolve_right hspec.running)
  refine ⟨Or.inl hstop, ?_⟩
  change t.place.rank + t.main.rank + 1 ≤ s.place.rank + s.main.rank
  rw [hspec.main]
  omega

/-- A capture that is to end stays so, and each step of the threads takes it nearer to its end. -/
theorem System.Ending.of_step (hend : s.Ending) {a : Act} (h : step env fuel s a = some t) :
    t.Ending ∧ t.rank + (if a.isProgram then 1 else 0) ≤ s.rank := by
  by_cases hother : a.isProgram = false ∧ a ≠ .quit
  · obtain ⟨hthread, hplace, hmain, -⟩ := step_other hother.1 hother.2 h
    -- what the driver and the pipe do leaves both threads where they are
    rw [System.Ending, System.rank, hthread, hplace, hmain, hother.1]
    exact ⟨hend, Nat.le_refl _⟩
  · cases a with
    | thread =>
      obtain ⟨u, blocked, hu, rfl⟩ := step_thread (.inl rfl) h
      exact hend.of_threadStep ((threadStep_spec hu).withBlocked blocked)
    | threadBlocks =>
      obtain ⟨u, blocked, hu, rfl⟩ := step_thread (.inr rfl) h
      exact hend.of_threadStep ((threadStep_spec hu).withBlocked blocked)
    | main =>
      obtain ⟨hplace, hstop, hrank⟩ := mainStep_spec h
      refine ⟨hend.imp hstop hplace.trans, ?_⟩
      change t.place.rank + t.main.rank + 1 ≤ s.place.rank + s.main.rank
      rw [hplace]
      omega
    | waitFails =>
      obtain ⟨⟨hplace, -⟩, ht⟩ := Option.ite_none_right_eq_some.mp h
      obtain rfl := Option.some.inj ht
      refine ⟨Or.inr rfl, ?_⟩
      change 0 + s.main.rank + 1 ≤ s.place.rank + s.main.rank
      rw [hplace]
      change 0 + s.main.rank + 1 ≤ 3 + s.main.rank
      omega
    | quit =>
      obtain ⟨hmain, ht⟩ := Option.ite_none_right_eq_some.mp h
      obtain rfl := Option.some.inj ht
      refine ⟨Or.inl rfl, ?_⟩
      change s.place.rank + 2 ≤ s.place.rank + s.main.rank
      rw [hmain]
      change s.place.rank + 2 ≤ s.place.rank + 3
      omega
    | _ => exact absurd ⟨rfl, Act.noConfusion⟩ hother

/-- Behind the loop of the thread, `start_capture` goes on to its end. -/
theorem mainStep_isSome (h : s.Synced) (hleft : s.place = .left) (hmain : s.main ≠ .joined) :
    (mainStep s).isSome := by
  unfold mainStep
  split
  · rw [if_pos (h.left hleft)]
    rfl
  · rfl
  · rw [if_pos hleft]
    rfl
  · rename_i hjoined
    exact absurd hjoined hmain

/-- A thread that is to stop can go on, or it waits for `start_capture`, which sets the event
next. -/
theorem isSome_of_stopped (h : s.Synced) (hstop : s.thread.data.process = false)
    (hleft : s.place ≠ .left) (hfault : ∀ fault, s.place ≠ .faulted fault) :
    (threadStep env fuel s).isSome ∨ (mainStep s).isSome := by
  unfold threadStep
  split
  · exact Or.inl rfl
  · rename_i hplace
    unfold mainStep
    split
    · rename_i hmain
      exact absurd hmain (h.waiting hplace hstop)
    · exact Or.inr rfl
    · rename_i hmain
      exact Or.inl (dispatch_of_exit (h.signaled (Or.inl hmain)))
    · rename_i hmain
      exact absurd (h.joined hmain) hleft
  · rw [if_pos hstop]
    exact Or.inl rfl
  · rename_i hplace
    exact absurd hplace hleft
  · rename_i fault hplace
    exact absurd hplace (hfault fault)

/-- Until both threads are through, one of them can go on, unless the thread waits for a write. -/
theorem System.Ending.enabled (hend : s.Ending) (h : s.Synced) :
    s.Over ∨ (∃ fault, s.place = .faulted fault) ∨ s.blocked = true ∨
      ∃ a : Act, a.isProgram = true ∧ (step env fuel s a).isSome := by
  by_cases hover : s.Over
  · exact Or.inl hover
  by_cases hfault : ∃ fault, s.place = .faulted fault
  · exact Or.inr (Or.inl hfault)
  by_cases hblocked : s.blocked = true
  · exact Or.inr (Or.inr (Or.inl hblocked))
  · refine Or.inr (Or.inr (Or.inr ?_))
    by_cases hleft : s.place = .left
    · exact ⟨.main, rfl, mainStep_isSome h hleft fun hmain => hover ⟨hleft, hmain⟩⟩
    · rcases isSome_of_stopped h (hend.resolve_right hleft) hleft
        (fun fault hplace => hfault ⟨fault, hplace⟩) with hthread | hmain
      · refine ⟨.thread, rfl, ?_⟩
        rw [step, if_neg hblocked]
        exact hthread
      · exact ⟨.main, rfl, hmain⟩

/-- A thread that reads from a device and writes to a file. -/
def sampleSetup : Setup where
  buffer := true
  readHandle := true
  connect := none
  peer := false

end Steps

end EventLoop

end UsbPcap.Cmd
