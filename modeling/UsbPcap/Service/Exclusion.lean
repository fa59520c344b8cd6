import UsbPcap.Service.Goroutine

/-!
# Mutual exclusion of captures

At most one task captures at a time, and it is the one in the slot. The goroutine of a task that has
begun records the outcome, calls `endCapture` and closes `task.done` once each, whatever its capture
returns and whatever other goroutines do in between; then the slot is free again. Each call is told
from what it leaves in the task object: a final status, the time of the end, a closed channel.
-/

namespace UsbPcap.Service

open Server Transition

namespace Code

/-- The goroutine is between `beginCapture` and the end of `runner.CaptureContext`. -/
def inCapture : Code → Prop
  | .monitorCapture _ | .captureContext _ => True
  | _ => False

/-- The next call belongs to a request that does not begin a capture: it registers its task, is
rejected because the slot is taken, or drops its task. -/
def isRequest (busy : Prop) : Code → Prop
  | .registerTask _ | .dropTask _ => True
  | .beginCapture _ => busy
  | _ => False

/-- The task object shows that the call has been made. -/
def Call.Made : Call → CaptureTaskState → Prop
  | .record, o => o.task.status ≠ .pending ∧ o.task.status ≠ .running
  | .endCapture, o => o.task.finishedAt.isSome = true
  | .closeDone, o => o.doneClosed = true

instance (c : Call) (o : CaptureTaskState) : Decidable (c.Made o) := by
  cases c
  · exact inferInstanceAs (Decidable (_ ∧ _))
  · exact inferInstanceAs (Decidable (_ = true))
  · exact inferInstanceAs (Decidable (_ = true))

/-- Only a task in `finalised` has `endCapture` as its next call. -/
theorem Stands.finalised_of_call {p : Phase} {code : Code} (h : Stands p code)
    (hcall : code.call = some .endCapture) : p = .finalised ∧ code = ending := by
  cases h with
  | finalised => exact ⟨rfl, rfl⟩
  | returned hfinal => cases hfinal <;> cases hcall
  | _ => cases hcall

/-- A task is in its capture in two phases. -/
theorem Stands.holdsSlot {p : Phase} {code : Code} (h : Stands p code) (hc : code.inCapture) :
    p.holdsSlot := by
  cases h with
  | begun => trivial
  | capturing => trivial
  | returned hfinal => trivial
  | _ => exact hc.elim

/-- A goroutine that has begun and has nothing left is through. -/
theorem Stands.closed_of_ret {p : Phase} (h : Stands p .ret) (hp : 1 ≤ p.progress) :
    p = .closed := by
  cases h with
  | closed => rfl
  | returned hfinal => cases hfinal
  | absent => exact absurd hp (by decide)
  | dropped => exact absurd hp (by decide)

/-- From `finalizeTask` on there are five calls at most. -/
theorem Finalizing.size_le {outcome : Except CaptureError CaptureResult} {code : Code}
    (h : Finalizing outcome code) : code.size ≤ 5 := by
  cases h with
  | record hrecords => exact Nat.le_succ 4
  | summarize hrest => exact Nat.le_refl 5

end Code

namespace Goroutines

open Code

/-- The task that holds the slot. -/
def activeID (s : Goroutines) : Option TaskID := s.server.active.map ActiveCapture.taskID

/-- Task `id` has got the slot. -/
def Begun (s : Goroutines) (id : TaskID) : Prop := (s.server.object id).task.status ≠ .pending

/-! ## What the task objects show -/

/-- A task has begun when its phase is one of those after `beginCapture`. -/
theorem begun_iff {s : Goroutines} {σ : System} (h : Simulates s σ) (hi : σ.Inv) (id : TaskID) :
    s.Begun id ↔ 1 ≤ (σ.phase id).progress := by
  have hstatus := hi.status id
  rw [h.server] at hstatus
  rw [Begun]
  cases hp : σ.phase id <;> rw [hp] at hstatus <;> simp_all [Phase.allows, Phase.progress]

/-- A call has been made when the phase is behind it. -/
theorem made_iff {s : Goroutines} {σ : System} (h : Simulates s σ) (hi : σ.Inv) (hm : σ.Marked)
    (c : Call) (id : TaskID) :
    c.Made (s.server.object id) ↔ c.stage ≤ (σ.phase id).progress := by
  cases c with
  | record =>
    have hstatus := hi.status id
    rw [h.server] at hstatus
    cases hp : σ.phase id <;> rw [hp] at hstatus <;>
      simp_all [Phase.allows, Phase.progress, Call.Made, Call.stage]
  | endCapture =>
    rw [Call.Made, ← h.server, hm.finishedAt]
    cases σ.phase id <;> simp [Phase.isOver, Phase.progress, Call.stage]
  | closeDone =>
    rw [Call.Made, ← h.server, hm.doneClosed]
    cases σ.phase id <;> simp [Phase.progress, Call.stage]

/-- A step makes a call exactly when the task object shows it from then on. -/
theorem makes_iff {cfg : Config} {s t : Goroutines} {a : Act} (hr : Reachable (step cfg) init s)
    (hst : step cfg s a = some t) (c : Call) (id : TaskID) :
    makes c id s a = true ↔ ¬ c.Made (s.server.object id) ∧ c.Made (t.server.object id) := by
  obtain ⟨σ, hσ, hsim⟩ := reachable_simulated hr
  have hi := System.inv_of_reachable hσ
  have hm := System.marked_of_reachable hσ
  rw [made_iff hsim hi hm]
  rcases hsim.step hm hst with ⟨hstay, hmakes⟩ | ⟨b, τ, hb, hτ, hmakes⟩
  · rw [made_iff hstay hi hm, hmakes]
    exact iff_of_false Bool.false_ne_true fun h => h.1 h.2
  · have hreach := hσ.tail hb
    rw [made_iff hτ (System.inv_of_reachable hreach) (System.marked_of_reachable hreach), hmakes]
    exact System.stage_iff hi (System.step_cases hb) id (by cases c <;> decide)

/-- What is behind a task stays behind it. -/
theorem progress_keep {cfg : Config} {s t : Goroutines} {a : Act}
    (hr : Reachable (step cfg) init s) (hst : step cfg s a = some t) (id : TaskID) :
    (s.Begun id → t.Begun id) ∧
      ∀ c : Call, c.Made (s.server.object id) → c.Made (t.server.object id) := by
  obtain ⟨σ, hσ, hsim⟩ := reachable_simulated hr
  have hi := System.inv_of_reachable hσ
  have hm := System.marked_of_reachable hσ
  rcases hsim.step hm hst with ⟨hstay, -⟩ | ⟨b, τ, hb, hτ, -⟩
  · simp only [begun_iff hsim hi, begun_iff hstay hi, made_iff hsim hi hm, made_iff hstay hi hm]
    exact ⟨fun h => h, fun _ h => h⟩
  · have hreach := hσ.tail hb
    have hi' := System.inv_of_reachable hreach
    have hm' := System.marked_of_reachable hreach
    have hle := System.progress_step hi (System.step_cases hb) id
    simp only [begun_iff hsim hi, begun_iff hτ hi', made_iff hsim hi hm, made_iff hτ hi' hm']
    exact ⟨hle.trans', fun _ => hle.trans'⟩

/-- The calls come in order, and a goroutine that is through has made them all. -/
theorem made_order {cfg : Config} {s : Goroutines} (hr : Reachable (step cfg) init s)
    (id : TaskID) :
    (Call.Made .closeDone (s.server.object id) → Call.Made .endCapture (s.server.object id)) ∧
      (Call.Made .endCapture (s.server.object id) → Call.Made .record (s.server.object id)) ∧
      (s.code id = .ret → s.Begun id → ∀ c : Call, c.Made (s.server.object id)) := by
  obtain ⟨σ, hσ, hsim⟩ := reachable_simulated hr
  have hi := System.inv_of_reachable hσ
  have hm := System.marked_of_reachable hσ
  simp only [made_iff hsim hi hm, begun_iff hsim hi]
  refine ⟨(Nat.le_trans (by decide) ·), (Nat.le_trans (by decide) ·), fun hret hbegun c => ?_⟩
  have hstands := hsim.stands id
  rw [hret] at hstands
  rw [hstands.closed_of_ret hbegun]
  cases c <;> decide

/-- In a finite run, a call was made once if the task object shows it, and not at all before. -/
theorem count_makes {cfg : Config} {as : List Act} {s : Goroutines}
    (h : run (step cfg) init as = some s) (c : Call) (id : TaskID) :
    countSteps (step cfg) (makes c id) init as = if c.Made (s.server.object id) then 1 else 0 := by
  refine run_countSteps (P := fun s => c.Made (s.server.object id)) ?_ ?_ ?_ h
  · cases c with
    | record => exact fun h => h.1 rfl
    | endCapture => exact Bool.false_ne_true
    | closeDone => exact Bool.false_ne_true
  · exact fun s a t hr hs hst => (progress_keep hr hst id).2 c hs
  · exact fun s a t hr hst => makes_iff hr hst c id

/-! ## Fair runs -/

/-- The goroutine of a task that has begun is never stuck for ever: as long as it has a call left,
it makes one sometime. (For a running capture this says that `runner.CaptureContext` returns.) -/
def Fair {cfg : Config} (path : Path (step cfg)) : Prop :=
  ∀ n id, (path.state n).Begun id → (path.state n).code id ≠ .ret →
    ∃ m, n ≤ m ∧ ∃ input, path.act m = .goroutine id input

/-- A call of one goroutine leaves the others where they are. -/
theorem exec_code_ne {cfg : Config} {s t : Goroutines} {id i : TaskID} {input : Input}
    (h : exec cfg s i input = some t) (hne : id ≠ i) : t.code id = s.code id := by
  unfold exec at h
  split at h
  case h_1 => cases h
  case h_3 =>
    split at h
    all_goals
      obtain rfl := Option.some.inj h
      exact Function.update_of_ne hne ..
  case h_11 =>
    split at h
    · obtain rfl := Option.some.inj h
      rfl
    · obtain rfl := Option.some.inj h
      exact Function.update_of_ne hne ..
  all_goals
    obtain rfl := Option.some.inj h
    exact Function.update_of_ne hne ..

/-- A call of a task that has begun leaves fewer calls. -/
theorem exec_size {cfg : Config} {s t : Goroutines} {σ : System} {id : TaskID} {input : Input}
    (h : Simulates s σ) (hm : σ.Marked) (hbegun : 1 ≤ (σ.phase id).progress)
    (hst : exec cfg s id input = some t) : (t.code id).size < (s.code id).size := by
  have hstands := h.stands id
  have hdone := hm.doneClosed id
  rw [h.server] at hdone
  generalize σ.phase id = p at hstands hbegun hdone
  generalize hc : s.code id = code at hstands
  unfold exec at hst
  rw [hc] at hst
  have hself : ∀ (rest : Code) (srv : Server), (s.goOn id rest srv).code id = rest :=
    fun rest srv => Function.update_self ..
  cases hstands with
  | begun =>
    obtain rfl := Option.some.inj hst
    change ((s.goOn id _ s.server).code id).size < _
    rw [hself]
    decide
  | capturing =>
    obtain rfl := Option.some.inj hst
    rw [hself]
    exact Nat.lt_succ_of_le (finalizeTask_finalizing input.outcome).size_le
  | returned hfinal =>
    -- `finalizeTask` either records an outcome, or first reads the summary
    cases hfinal with
    | record hrecords =>
      obtain rfl := Option.some.inj hst
      rw [hself]
      exact Nat.lt_succ_self 3
    | summarize hrest =>
      obtain rfl := Option.some.inj hst
      rw [hself, (hrest input.summary).1]
      exact Nat.lt_succ_self 4
  | finalised =>
    obtain rfl := Option.some.inj hst
    rw [hself]
    decide
  | cleaning =>
    obtain rfl := Option.some.inj hst
    rw [hself]
    decide
  | ended =>
    -- the deferred close runs once, as the channel is still open
    simp only [hdone.not.mpr Phase.noConfusion, Bool.false_eq_true, if_false] at hst
    obtain rfl := Option.some.inj hst
    rw [hself]
    decide
  | closed => cases hst
  | _ => exact absurd hbegun (by decide)

/-- A step leaves a task that has begun no more calls than it had, and fewer when its own goroutine
makes one. -/
theorem size_step {cfg : Config} {s t : Goroutines} {a : Act} (hr : Reachable (step cfg) init s)
    (hst : step cfg s a = some t) {id : TaskID} (hbegun : s.Begun id) :
    (t.code id).size ≤ (s.code id).size ∧
      ∀ input, a = .goroutine id input → (t.code id).size < (s.code id).size := by
  obtain ⟨σ, hσ, hsim⟩ := reachable_simulated hr
  have hi := System.inv_of_reachable hσ
  rw [begun_iff hsim hi] at hbegun
  unfold step at hst
  rw [if_neg (by rw [hsim.alive]; exact Bool.false_ne_true)] at hst
  cases a with
  | request tool req outputPath =>
    obtain rfl := Option.some.inj hst
    refine ⟨?_, fun _ => Act.noConfusion⟩
    have hne : id ≠ s.server.nextTaskID + 1 := by
      rintro rfl
      rw [hi.fresh _ (by rw [hsim.server]; exact Nat.lt_succ_self _)] at hbegun
      exact absurd hbegun (by decide)
    exact le_of_eq (congrArg size (Function.update_of_ne hne ..))
  | goroutine i input =>
    by_cases hi : id = i
    · subst hi
      have hlt := exec_size hsim (System.marked_of_reachable hσ) hbegun hst
      exact ⟨hlt.le, fun _ _ => hlt⟩
    · refine ⟨(congrArg size (exec_code_ne hst hi)).le, fun input' he => ?_⟩
      cases he
      exact absurd rfl hi
  | outside a =>
    simp only at hst
    split at hst
    · obtain ⟨u, -, rfl⟩ := Option.map_eq_some_iff.mp hst
      exact ⟨Nat.le_refl _, fun _ => Act.noConfusion⟩
    · cases hst

/-- Every state of a path from the start is reachable. -/
theorem reachable_path {cfg : Config} (path : Path (step cfg)) (h0 : path.state 0 = init)
    (n : ℕ) : Reachable (step cfg) init (path.state n) :=
  path.reachable (h0 ▸ Reachable.refl _) n

/-- On a fair run, the goroutine of a task that has begun gets through. -/
theorem eventually_ret {cfg : Config} {path : Path (step cfg)} (h0 : path.state 0 = init)
    (hfair : Fair path) {id : TaskID} {start : ℕ} (hbegun : (path.state start).Begun id) :
    ∃ n, start ≤ n ∧ (path.state n).code id = .ret ∧ (path.state n).Begun id := by
  have hkeep : ∀ {n}, start ≤ n → (path.state n).Begun id := fun hn =>
    path.stable (P := fun s => s.Begun id)
      (fun m => (progress_keep (reachable_path path h0 m) (path.next m) id).1) hn hbegun
  have hsize : ∀ {m n}, start ≤ m → m ≤ n →
      ((path.state n).code id).size ≤ ((path.state m).code id).size := by
    intro m n hm hmn
    induction hmn with
    | refl => exact Nat.le_refl _
    | @step n hmn ih =>
      have hstep := (size_step (reachable_path path h0 n) (path.next n) (hkeep (hm.trans hmn))).1
      exact hstep.trans ih
  obtain ⟨n, hn, hret⟩ := path.eventually_of_rank (P := fun s => s.code id = .ret)
    (fun s => (s.code id).size) start fun n hn hopen => by
      obtain ⟨m, hnm, input, ha⟩ := hfair n id (hkeep hn) hopen
      have hlt :=
        (size_step (reachable_path path h0 m) (path.next m) (hkeep (hn.trans hnm))).2 input ha
      exact ⟨m + 1, Nat.lt_succ_of_le hnm, hlt.trans_le (hsize hn hnm)⟩
  exact ⟨n, hn, hret, hkeep hn⟩

/-- On a fair run, the goroutine of a task that has begun makes each call exactly once. -/
theorem existsUnique_makes {cfg : Config} {path : Path (step cfg)} (h0 : path.state 0 = init)
    (hfair : Fair path) {id : TaskID} {start : ℕ} (hbegun : (path.state start).Begun id)
    (c : Call) : ∃! n, makes c id (path.state n) (path.act n) = true := by
  refine path.existsUnique_of_progress (P := fun s => c.Made (s.server.object id)) ?_ ?_ ?_ ?_
  · rw [h0]
    cases c with
    | record => exact fun h => h.1 rfl
    | endCapture => exact Bool.false_ne_true
    | closeDone => exact Bool.false_ne_true
  · obtain ⟨n, -, hret, hn⟩ := eventually_ret h0 hfair hbegun
    exact ⟨n, (made_order (reachable_path path h0 n) id).2.2 hret hn c⟩
  · exact fun n => (progress_keep (reachable_path path h0 n) (path.next n) id).2 c
  · exact fun n => makes_iff (reachable_path path h0 n) (path.next n) c id

/-! ## Rejected requests -/

/-- The step belongs to task `id`'s request and does not begin a capture: the request makes or
registers its task, is rejected, or drops its task. -/
def RequestSection (s : Goroutines) (id : TaskID) : Act → Prop
  | .request _ _ _ => id = s.server.nextTaskID + 1
  | .goroutine i _ => i = id ∧ (s.code i).isRequest (s.server.active ≠ none)
  | .outside _ => False

/-- The slot, the history and the other tasks are the same. -/
structure SameExcept (id : TaskID) (s t : Goroutines) : Prop where
  active : t.server.active = s.server.active
  history : t.server.history = s.server.history
  object : ∀ i ≠ id, t.server.object i = s.server.object i
  key : ∀ i ≠ id, (i ∈ t.server.tasks ↔ i ∈ s.server.tasks)
  code : ∀ i ≠ id, t.code i = s.code i
  monitor : t.monitor = s.monitor

/-- A task that has been made carries its id. -/
theorem taskID_of_code {s : Goroutines} {σ : System} (h : Simulates s σ) (hi : σ.Inv)
    (id : TaskID) (hcode : s.code id ≠ .ret) : (s.server.object id).task.taskID = id := by
  rw [← h.server]
  refine hi.named id fun habsent => hcode ?_
  have hstands := h.stands id
  rw [habsent] at hstands
  generalize s.code id = code at hstands
  cases hstands
  rfl

/-- A rejected request touches nothing but its own task. -/
theorem requestSection_frame {cfg : Config} {s t : Goroutines} {a : Act} {id : TaskID}
    (hr : Reachable (step cfg) init s) (hst : step cfg s a = some t)
    (ha : s.RequestSection id a) : SameExcept id s t := by
  obtain ⟨σ, hσ, hsim⟩ := reachable_simulated hr
  have hi := System.inv_of_reachable hσ
  unfold step at hst
  rw [if_neg (by rw [hsim.alive]; exact Bool.false_ne_true)] at hst
  cases a with
  | request tool req outputPath =>
    obtain rfl := Option.some.inj hst
    obtain rfl : id = _ := ha
    exact ⟨rfl, rfl, fun i hne => newTask_ne s.server hne req outputPath, fun i _ => Iff.rfl,
      fun i hne => Function.update_of_ne hne .., rfl⟩
  | goroutine j input =>
    obtain ⟨rfl, hrequest⟩ := ha
    have hname := taskID_of_code hsim hi j
    have hcode : ∀ i ≠ j, t.code i = s.code i := fun i hne => exec_code_ne hst hne
    unfold exec at hst
    cases hc : s.code j with
    -- two sections touch the task table only, and the third is a rejected begin
    | registerTask rest =>
      simp only [hc] at hst
      obtain rfl := Option.some.inj hst
      refine ⟨rfl, rfl, fun i _ => rfl, fun i hne => ?_, hcode, rfl⟩
      simp [goOn, Server.registerTask, hname (by rw [hc]; exact Code.noConfusion), hne]
    | dropTask rest =>
      simp only [hc] at hst
      obtain rfl := Option.some.inj hst
      refine ⟨rfl, rfl, fun i _ => rfl, fun i hne => ?_, hcode, rfl⟩
      simp [goOn, Server.dropTask, hne]
    | beginCapture rest =>
      rw [hc] at hrequest
      have hbusy : s.server.active ≠ none := hrequest
      simp only [hc, Server.beginCapture, if_neg hbusy] at hst
      obtain rfl := Option.some.inj hst
      exact ⟨rfl, rfl, fun i _ => rfl, fun i _ => Iff.rfl, hcode, rfl⟩
    | _ =>
      rw [hc] at hrequest
      exact hrequest.elim
  | outside a => exact ha.elim

/-! ## The next capture -/

/-- With the slot free, `beginCapture` succeeds. -/
theorem begin_of_free {cfg : Config} {s : Goroutines} (hr : Reachable (step cfg) init s)
    {id : TaskID} {rest : Except String Unit → Code} (hcode : s.code id = .beginCapture rest)
    (hfree : s.server.active = none) (input : Input) :
    ∃ t, step cfg s (.goroutine id input) = some t ∧ t.code id = rest (.ok ()) ∧
      t.activeID = some id := by
  obtain ⟨σ, hσ, hsim⟩ := reachable_simulated hr
  have hname := taskID_of_code hsim (System.inv_of_reachable hσ) id
    (by rw [hcode]; exact Code.noConfusion)
  refine ⟨s.goOn id (rest (.ok ())) (s.server.activate id input.now), ?_, ?_, ?_⟩
  · unfold step exec
    rw [if_neg (by rw [hsim.alive]; exact Bool.false_ne_true)]
    simp only [hcode, Server.beginCapture, if_pos hfree]
  · exact Function.update_self ..
  · exact (activate_active ..).trans (congrArg some hname)

/-- `endCapture` finds its task in the slot, frees the slot and puts the task in front of the
history. -/
theorem endCapture_step {cfg : Config} {s t : Goroutines} (hr : Reachable (step cfg) init s)
    {id : TaskID} {input : Input} (hst : step cfg s (.goroutine id input) = some t)
    (hcall : (s.code id).call = some .endCapture) :
    s.activeID = some id ∧ t.server.active = none ∧
      t.server.history = (((t.server.object id).task :: s.server.history).take
        cfg.maxHistoryTasks).filter (survives cfg input.now) := by
  obtain ⟨σ, hσ, hsim⟩ := reachable_simulated hr
  have hi := System.inv_of_reachable hσ
  obtain ⟨hp, hcode⟩ := (hsim.stands id).finalised_of_call hcall
  have hname := taskID_of_code hsim hi id (by rw [hcode]; exact Code.noConfusion)
  have hheld : s.activeID = some id := by
    rw [activeID, ← hsim.server]
    exact (hi.slot id).mpr (by rw [hp]; trivial)
  unfold step exec at hst
  rw [if_neg (by rw [hsim.alive]; exact Bool.false_ne_true)] at hst
  simp only [hcode, ending] at hst
  obtain rfl := Option.some.inj hst
  refine ⟨hheld, endCapture_active (hname.symm ▸ hheld) _ _, ?_⟩
  change (s.server.endCapture cfg id input.finishedAt input.now).history =
    List.filter _ (List.take _ (((s.server.endCapture cfg id input.finishedAt
      input.now).object id).task :: _))
  rw [endCapture_history_eq, endCapture_self]
  rfl

/-- **Captures are mutually exclusive.** In every reachable state no closed channel has been closed
again, a task that is between `beginCapture` and the end of its capture is the one in the slot, so
there is at most one, and the sections of a rejected request leave the slot, the history and the
other tasks alone. `endCapture` finds its task in the slot, frees the slot and records the task, and
the next `beginCapture` succeeds. In every run the goroutine of a task has recorded its outcome,
ended it and closed its channel at most once each: once exactly when the task object shows it, in
this order, and all of them when the goroutine is through. In a fair run every goroutine of a task
that begins gets through, and makes each of the three calls exactly once. -/
theorem captures_exclusive (cfg : Config) :
    (∀ s, Reachable (step cfg) init s →
      s.panicked = false ∧
      (∀ id, (s.code id).inCapture → s.activeID = some id) ∧
      (∀ id id', (s.code id).inCapture → (s.code id').inCapture → id = id') ∧
      (∀ id a t, step cfg s a = some t → s.RequestSection id a → SameExcept id s t) ∧
      ∀ id input t, step cfg s (.goroutine id input) = some t →
        (s.code id).call = some .endCapture →
        (s.activeID = some id ∧ t.server.active = none ∧
          t.server.history = (((t.server.object id).task :: s.server.history).take
            cfg.maxHistoryTasks).filter (survives cfg input.now)) ∧
        ∀ i rest input', t.code i = .beginCapture rest →
          ∃ u, step cfg t (.goroutine i input') = some u ∧ u.code i = rest (.ok ()) ∧
            u.activeID = some i) ∧
    (∀ as s id, run (step cfg) init as = some s →
      (∀ c : Call, countSteps (step cfg) (makes c id) init as =
        if c.Made (s.server.object id) then 1 else 0) ∧
      (Call.Made .closeDone (s.server.object id) → Call.Made .endCapture (s.server.object id)) ∧
      (Call.Made .endCapture (s.server.object id) → Call.Made .record (s.server.object id)) ∧
      (s.code id = .ret → s.Begun id → ∀ c : Call, c.Made (s.server.object id))) ∧
    ∀ path : Path (step cfg), path.state 0 = init → Fair path →
      ∀ id n, (path.state n).Begun id →
        (∀ c : Call, ∃! m, makes c id (path.state m) (path.act m) = true) ∧
        ∃ m, n ≤ m ∧ (path.state m).code id = .ret ∧
          ∀ c : Call, c.Made ((path.state m).server.object id) := by
  refine ⟨fun s hr => ?_, fun as s id h => ?_, fun path h0 hfair id n hbegun => ?_⟩
  · obtain ⟨σ, hσ, hsim⟩ := reachable_simulated hr
    -- the slot belongs to whoever is inside a capture
    have hslot : ∀ id, (s.code id).inCapture → s.activeID = some id := fun id hid => by
      rw [activeID, ← hsim.server]
      exact ((System.inv_of_reachable hσ).slot id).mpr ((hsim.stands id).holdsSlot hid)
    refine ⟨hsim.alive, hslot, fun id id' hid hid' => ?_, fun id a t hst => ?_,
      fun id input t hst hcall => ?_⟩
    · exact Option.some.inj ((hslot id hid).symm.trans (hslot id' hid'))
    · exact requestSection_frame hr hst
    · have hend := endCapture_step hr hst hcall
      exact ⟨hend, fun i rest input' hcode => begin_of_free (hr.tail hst) hcode hend.2.1 input'⟩
  · exact ⟨fun c => count_makes h c id, made_order (.of_run h) id⟩
  · refine ⟨existsUnique_makes h0 hfair hbegun, ?_⟩
    obtain ⟨m, hnm, hret, hm⟩ := eventually_ret h0 hfair hbegun
    exact ⟨m, hnm, hret, (made_order (reachable_path path h0 m) id).2.2 hret hm⟩

/-! ## A fair run -/

/-- What the calls of the run below read. -/
def soloInput : Input where
  finishedAt := 4
  now := 5
  outcome := .ok
    { output := some "solo.pcap", triggered := false, storeMode := "immediate"
      droppedPackets := 0, matchedDevices := [], reason := "" }
  summary := .ok ⟨3, 200, 7, 0, [], [], []⟩

/-- A capture, a second request that comes while it runs, and a stop. -/
def soloCapture : List Act :=
  [.request .captureOnce default "solo.pcap", .goroutine 1 soloInput, .goroutine 1 soloInput,
    .request .startCapture default "late.pcap", .goroutine 2 soloInput, .goroutine 2 soloInput,
    .goroutine 2 soloInput, .goroutine 1 soloInput,
    .outside (.stopCapture ⟨"CAPTURE_STOPPED", "", ""⟩), .goroutine 1 soloInput,
    .goroutine 1 soloInput, .goroutine 1 soloInput, .goroutine 1 soloInput,
    .goroutine 1 soloInput, .goroutine 1 soloInput]

/-- The capture, and then only the periodic cleanup. -/
def soloAct (n : ℕ) : Act := (soloCapture[n]?).getD (.outside (.cleanupHistory 0))

/-- The states of that run. -/
def soloState : ℕ → Goroutines
  | 0 => init
  | n + 1 => (step defaultConfig (soloState n) (soloAct n)).getD (soloState n)

/-- Once the only request is served, the service only cleans up. -/
theorem soloAct_tail {n : ℕ} (h : 15 ≤ n) : soloAct n = .outside (.cleanupHistory 0) := by
  rw [soloAct, List.getElem?_eq_none h]
  rfl

/-- Behind the capture neither the task objects nor the goroutines change. -/
theorem soloState_tail {n : ℕ} (h : 15 ≤ n) :
    (soloState n).panicked = false ∧ (soloState n).code = (soloState 15).code ∧
      (soloState n).server.object = (soloState 15).server.object := by
  induction h with
  | refl => exact ⟨by decide +kernel, rfl, rfl⟩
  | @step n hn ih =>
    obtain ⟨halive, hcode, hobject⟩ := ih
    have hstep : step defaultConfig (soloState n) (.outside (.cleanupHistory 0)) =
        some { soloState n with
          server := (soloState n).server.cleanupHistory defaultConfig 0 } := by
      unfold step
      rw [if_neg (by rw [halive]; exact Bool.false_ne_true)]
      rfl
    rw [soloState, soloAct_tail hn, hstep]
    exact ⟨halive, hcode, (cleanupHistory_object ..).trans hobject⟩

/-- Each of these sections can run when its turn comes. -/
theorem soloState_enabled (n : ℕ) : (step defaultConfig (soloState n) (soloAct n)).isSome := by
  by_cases h : 15 ≤ n
  · rw [soloAct_tail h, step, (soloState_tail h).1]
    rfl
  · have hall : ∀ m < 15, (step defaultConfig (soloState m) (soloAct m)).isSome = true := by
      decide +kernel
    exact hall n (by omega)

/-- The run of the capture. -/
def soloPath : Path (step defaultConfig) where
  state := soloState
  act := soloAct
  next n := by
    obtain ⟨t, ht⟩ := Option.isSome_iff_exists.mp (soloState_enabled n)
    rw [soloState, ht]
    rfl

/-- Two tasks are made, and only the first ever begins. -/
theorem soloState_pending : ∀ n < 16, (soloState n).server.nextTaskID ≤ 2 ∧
    ¬ (soloState n).Begun 0 ∧ ¬ (soloState n).Begun 2 := by
  unfold Begun
  decide +kernel

/-- There is one task in this path. -/
theorem soloState_begun {n : ℕ} {id : TaskID} (h : (soloState n).Begun id) : id = 1 := by
  by_contra hne
  have hpending : ∀ m < 16, ¬ (soloState m).Begun id := by
    intro m hm hbegun
    obtain ⟨hnext, hzero, htwo⟩ := soloState_pending m hm
    obtain ⟨σ, hσ, hsim⟩ := reachable_simulated (reachable_path soloPath rfl m)
    have hi := System.inv_of_reachable hσ
    rcases Nat.lt_or_ge 2 id with hlt | hge
    · rw [show (soloState m).Begun id ↔ _ from begun_iff hsim hi id,
        hi.fresh id (by rw [hsim.server]; exact hnext.trans_lt hlt)] at hbegun
      exact absurd hbegun (by decide)
    · have hcases : ∀ k : ℕ, k ≤ 2 → k = 0 ∨ k = 1 ∨ k = 2 := fun k hk => by omega
      rcases hcases id hge with rfl | rfl | rfl
      · exact hzero hbegun
      · exact hne rfl
      · exact htwo hbegun
  rcases Nat.lt_or_ge n 16 with hn | hn
  · exact hpending n hn h
  · refine hpending 15 (by decide) ?_
    rw [Begun, (soloState_tail (Nat.le_of_succ_le hn)).2.2] at h
    exact h

/-- The goroutine of that task gets its turns. -/
theorem soloPath_fair : Fair soloPath := by
  intro n id hbegun hopen
  obtain rfl := soloState_begun hbegun
  have hn : n < 15 := by
    by_contra hge
    refine hopen ?_
    change (soloState n).code 1 = .ret
    rw [(soloState_tail (by omega)).2.1]
    rfl
  exact ⟨14, by omega, soloInput, rfl⟩

/-- The capture gets the slot, a second request is rejected, the capture is stopped, finalised with
its summary and listed, and each call is made once. -/
theorem captures_exclusive_solo :
    ((∀ c : Call, ∃! m, makes c 1 (soloState m) (soloAct m) = true) ∧
      ∃ m, 3 ≤ m ∧ (soloState m).code 1 = .ret ∧
        ∀ c : Call, c.Made ((soloState m).server.object 1)) ∧
      SameExcept 2 (soloState 5) (soloState 6) ∧
      (soloState 12).activeID = some 1 ∧ (soloState 13).server.active = none ∧
      (soloState 13).server.history.map (fun t => (t.taskID, t.status, t.finishedAt)) =
        [(1, .completed, some 4)] := by
  obtain ⟨hstates, -, hpaths⟩ := captures_exclusive defaultConfig
  have hreach := reachable_path soloPath rfl
  have hend := (hstates _ (hreach 12)).2.2.2.2 1 soloInput _ (soloPath.next 12) rfl
  have hbegun : (soloState 3).Begun 1 := by
    unfold Begun
    decide +kernel
  have hbusy : (soloState 5).server.active ≠ none := by decide +kernel
  exact ⟨hpaths soloPath rfl soloPath_fair 1 3 hbegun,
    (hstates _ (hreach 5)).2.2.2.1 2 _ _ (soloPath.next 5) ⟨rfl, hbusy⟩, hend.1.1, hend.1.2.1,
    by decide +kernel⟩

end Goroutines

end UsbPcap.Service
