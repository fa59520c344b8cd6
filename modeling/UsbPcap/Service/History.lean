import UsbPcap.Lib.Recency
import UsbPcap.Service.ConfigFile
import UsbPcap.Service.Invariant
import Mathlib.Tactic.Ring

/-!
# The task history

A ledger is the service together with its clock and with the tasks that its history has received,
newest first. The history is always the front part of what it has received, in order and without
repetitions. It loses a task to newer ones or to the cleanup, and the cleanup is right about the age
of what it removes exactly when `Timely` holds of its steps.
-/

namespace UsbPcap.Service

open Server Transition

/-! ## Receiving -/

/-- The clock readings of a section. -/
def Act.readings : Act → List Time
  | .beginCapture _ now => [now]
  | .endCapture _ finishedAt now => [finishedAt, now]
  | .monitorTick _ _ now => [now]
  | .cleanupHistory now => [now]
  | _ => []

/-- When a task in the history has finished. -/
def CaptureTask.finishTime (t : CaptureTask) : Time := t.finishedAt.getD 0

/-- What `endCapture` hands over to `recordHistory`. -/
def System.receipt (s : System) : Act → List CaptureTask
  | .endCapture id finishedAt _ => [(finished finishedAt (s.server.object id)).task]
  | _ => []

/-- The service, its clock and the tasks that its history has received, newest first. -/
structure Ledger where
  system : System
  clock : Time
  received : List CaptureTask

namespace Server

/-! ## The age of an entry -/

/-- An entry does not survive at an age from the TTL on, as the cleanup computes it. -/
theorem survives_eq_false {cfg : Config} {now : Time} {t : CaptureTask}
    (ht : t.finishedAt.isSome) :
    survives cfg now t = false ↔ 0 < cfg.historyTaskTTLMinutes ∧
      -ttlDuration cfg.historyTaskTTLMinutes ≤ now - t.finishTime := by
  obtain ⟨f, hf⟩ := Option.isSome_iff_exists.mp ht
  simp only [survives, keptInHistory, CaptureTask.finishTime, hf, Bool.or_eq_false_iff,
    decide_eq_false_iff_not, Option.getD_some, not_le, not_lt]
  -- `f ≤ now + ttl` and `-ttl ≤ now - f`
  rw [neg_le_sub_iff_le_add, add_comm]

/-- The older of two entries does not survive alone. -/
theorem survives_of_older {cfg : Config} {now : Time} {newer older : CaptureTask}
    (hn : newer.finishedAt.isSome) (ho : older.finishedAt.isSome)
    (hle : older.finishTime ≤ newer.finishTime) (h : survives cfg now older = true) :
    survives cfg now newer = true := by
  by_contra hc
  obtain ⟨httl, hage⟩ := (survives_eq_false hn).mp (Bool.eq_false_iff.mpr hc)
  have hgone : survives cfg now older = false :=
    (survives_eq_false ho).mpr ⟨httl, hage.trans (sub_le_sub_left hle now)⟩
  rw [h] at hgone
  cases hgone

end Server

namespace System

/-- What a step does to the history: a task ends, a cleanup runs, or nothing. -/
theorem history_cases {cfg : Config} {s t : System} {a : Act} (hst : Step cfg s a t) :
    (∃ id finishedAt now, a = .endCapture id finishedAt now ∧ s.phase id = .finalised ∧
      t = s.advance id .ended (s.server.endCapture cfg id finishedAt now)) ∨
    (∃ now, a = .cleanupHistory now ∧
      t = { s with server := s.server.cleanupHistory cfg now }) ∨
    ((∀ id finishedAt now, a ≠ .endCapture id finishedAt now) ∧ (∀ now, a ≠ .cleanupHistory now) ∧
      t.server.history = s.server.history) := by
  cases hst with
  | endCapture hp finishedAt now => exact Or.inl ⟨_, finishedAt, now, rfl, hp, rfl⟩
  | cleanupHistory now => exact Or.inr (Or.inl ⟨now, rfl, rfl⟩)
  | stopCapture hc reason => exact Or.inr (Or.inr ⟨nofun, nofun, cancelActive_history ..⟩)
  | stopCaptureByTaskID hc reason => exact Or.inr (Or.inr ⟨nofun, nofun, cancelActive_history ..⟩)
  | monitorStop hm hc => exact Or.inr (Or.inr ⟨nofun, nofun, cancelActive_history ..⟩)
  | _ => exact Or.inr (Or.inr ⟨nofun, nofun, rfl⟩)

/-- Only the end of a capture is received. -/
theorem receipt_of_ne {a : Act} (h : ∀ id finishedAt now, a ≠ .endCapture id finishedAt now)
    (s : System) : s.receipt a = [] := by
  cases a with
  | endCapture id finishedAt now => exact absurd rfl (h id finishedAt now)
  | _ => rfl

/-- Only the end of a task makes it over. -/
theorem isOver_of_ne {cfg : Config} {s t : System} {a : Act} (hi : s.Inv) (hst : Step cfg s a t)
    (h : ∀ id finishedAt now, a ≠ .endCapture id finishedAt now) (i : TaskID) :
    (t.phase i).isOver ↔ (s.phase i).isOver := by
  rcases phase_step hi.toSlots hst i with heq | hmove
  · rw [heq]
  · generalize s.phase i = p at hmove
    generalize t.phase i = q at hmove
    cases hmove with
    | ended => exact absurd rfl (h _ _ _)
    | _ => exact Iff.rfl

end System

namespace Ledger

/-- The service before its first request, with its clock at `t₀`. -/
def init (t₀ : Time) : Ledger where
  system := System.init
  clock := t₀
  received := []

/-- One section under a monotone clock. -/
def step (cfg : Config) (l : Ledger) (a : Act) : Option Ledger :=
  if (l.clock :: a.readings).IsChain (· ≤ ·) then
    (l.system.step cfg a).map fun t =>
      { system := t
        clock := a.readings.getLastD l.clock
        received := l.system.receipt a ++ l.received }
  else none

/-- A step of the ledger is a step of the service that the clock allows. -/
theorem step_eq_some {cfg : Config} {l m : Ledger} {a : Act} :
    step cfg l a = some m ↔ (l.clock :: a.readings).IsChain (· ≤ ·) ∧
      l.system.step cfg a = some m.system ∧ m.clock = a.readings.getLastD l.clock ∧
        m.received = l.system.receipt a ++ l.received := by
  rw [step]
  split
  · rename_i hclock
    rw [Option.map_eq_some_iff]
    constructor
    · rintro ⟨t, ht, rfl⟩
      exact ⟨hclock, ht, rfl, rfl⟩
    · rintro ⟨-, ht, hc, hr⟩
      refine ⟨m.system, ht, ?_⟩
      rw [← hc, ← hr]
  · rename_i hclock
    exact iff_of_false nofun fun h => hclock h.1

/-- Two lists of readings are in order together when the second goes on from the first. -/
theorem chain_append (c : Time) (r rest : List Time) :
    (c :: (r ++ rest)).IsChain (· ≤ ·) ↔
      (c :: r).IsChain (· ≤ ·) ∧ (r.getLastD c :: rest).IsChain (· ≤ ·) := by
  induction r generalizing c with
  | nil => simp
  | cons x r ih =>
    rw [List.cons_append, List.isChain_cons_cons, List.isChain_cons_cons, ih, List.getLastD_cons,
      and_assoc]

/-- The clock does not go back. -/
theorem le_getLastD {c : Time} {r : List Time} (h : (c :: r).IsChain (· ≤ ·)) :
    c ≤ r.getLastD c := by
  induction r generalizing c with
  | nil => exact le_refl c
  | cons x r ih =>
    obtain ⟨hx, hr⟩ := List.isChain_cons_cons.mp h
    rw [List.getLastD_cons]
    exact hx.trans (ih hr)

/-- The runs of the ledger are the runs of the service in which the clock is monotone. -/
theorem run_iff {cfg : Config} {l : Ledger} {as : List Act} {s : System} :
    (∃ m, run (step cfg) l as = some m ∧ m.system = s) ↔
      run (System.step cfg) l.system as = some s ∧
        (l.clock :: as.flatMap Act.readings).IsChain (· ≤ ·) := by
  induction as generalizing l with
  | nil => simp
  | cons a as ih =>
    rw [run_cons, run_cons, List.flatMap_cons, chain_append]
    constructor
    · rintro ⟨m, hm, hs⟩
      obtain ⟨k, hk, hm⟩ := Option.bind_eq_some_iff.mp hm
      obtain ⟨hclock, hstep, hc, -⟩ := step_eq_some.mp hk
      obtain ⟨hrun, hrest⟩ := ih.mp ⟨m, hm, hs⟩
      exact ⟨Option.bind_eq_some_iff.mpr ⟨_, hstep, hrun⟩, hclock, hc ▸ hrest⟩
    · rintro ⟨hrun, hclock, hrest⟩
      obtain ⟨t, hstep, hrun⟩ := Option.bind_eq_some_iff.mp hrun
      obtain ⟨m, hm, hs⟩ := @ih ⟨t, a.readings.getLastD l.clock, l.system.receipt a ++ l.received⟩
        |>.mpr ⟨hrun, hrest⟩
      exact ⟨m, Option.bind_eq_some_iff.mpr ⟨_, step_eq_some.mpr ⟨hclock, hstep, rfl, rfl⟩, hm⟩,
        hs⟩

/-! ## What a history has received -/

/-- What the history has received: the tasks that are over, once each, newest first. The history
itself is the front part of it. -/
structure Recorded (l : Ledger) : Prop where
  inv : l.system.Inv
  nodup : (l.received.map CaptureTask.taskID).Nodup
  isOver : ∀ id, id ∈ l.received.map CaptureTask.taskID ↔ (l.system.phase id).isOver
  dated : ∀ t ∈ l.received, t.finishedAt.isSome
  newestFirst : l.received.Pairwise fun newer older => older.finishTime ≤ newer.finishTime
  past : ∀ t ∈ l.received, t.finishTime ≤ l.clock
  front : l.system.server.history <+: l.received

/-- The cleanup passes everything in front of what it passes. -/
theorem pairwise_survives {received : List CaptureTask}
    (hdated : ∀ t ∈ received, t.finishedAt.isSome)
    (hnewest : received.Pairwise fun newer older => older.finishTime ≤ newer.finishTime)
    (cfg : Config) (now : Time) :
    received.Pairwise fun newer older =>
      survives cfg now older = true → survives cfg now newer = true :=
  hnewest.imp_of_mem fun hn ho hle => survives_of_older (hdated _ hn) (hdated _ ho) hle

/-- An entry never outlives a newer one. -/
theorem Recorded.pairwise_survives {l : Ledger} (h : l.Recorded) (cfg : Config) (now : Time) :
    l.received.Pairwise fun newer older =>
      survives cfg now older = true → survives cfg now newer = true :=
  Ledger.pairwise_survives h.dated h.newestFirst cfg now

/-- Nothing has been received before the first request. -/
theorem recorded_init (t₀ : Time) : (init t₀).Recorded where
  inv := System.Inv.init
  nodup := List.nodup_nil
  isOver _ := iff_of_false List.not_mem_nil id
  dated _ h := absurd h List.not_mem_nil
  newestFirst := List.Pairwise.nil
  past _ h := absurd h List.not_mem_nil
  front := List.prefix_refl _

/-- A task that ends is new to the history, and the newest in it. -/
theorem Recorded.push {cfg : Config} {l : Ledger} (h : l.Recorded) {id : TaskID}
    (hp : l.system.phase id = .finalised) {finishedAt now : Time} (hf : l.clock ≤ finishedAt)
    (hn : finishedAt ≤ now) {t : System} (ht : t.Inv)
    (hphase : t.phase = Function.update l.system.phase id .ended)
    (hhist : t.server.history =
      (l.system.server.historyWith cfg id finishedAt).filter (survives cfg now)) :
    Recorded ⟨t, now, (finished finishedAt (l.system.server.object id)).task :: l.received⟩ := by
  have hname : (finished finishedAt (l.system.server.object id)).task.taskID = id :=
    h.inv.named id (by simp [hp])
  have hdated : ∀ u ∈ (finished finishedAt (l.system.server.object id)).task :: l.received,
      u.finishedAt.isSome := List.forall_mem_cons.mpr ⟨rfl, h.dated⟩
  have hnewest : ((finished finishedAt (l.system.server.object id)).task ::
      l.received).Pairwise fun newer older => older.finishTime ≤ newer.finishTime :=
    List.pairwise_cons.mpr ⟨fun u hu => (h.past u hu).trans hf, h.newestFirst⟩
  refine ⟨ht, List.nodup_cons.mpr ⟨fun hmem => ?_, h.nodup⟩, fun i => ?_, hdated, hnewest,
    List.forall_mem_cons.mpr ⟨hn, fun u hu => (h.past u hu).trans (hf.trans hn)⟩, ?_⟩
  · have hover := (h.isOver _).mp hmem
    rw [hname, hp] at hover
    exact hover
  · rw [List.map_cons, List.mem_cons, h.isOver, hphase, hname]
    by_cases hi : i = id
    · rw [hi, Function.update_self]
      exact iff_of_true (Or.inl rfl) trivial
    · rw [Function.update_of_ne hi]
      exact or_iff_right hi
  · rw [hhist]
    have hfront : l.system.server.historyWith cfg id finishedAt <+:
        (finished finishedAt (l.system.server.object id)).task :: l.received :=
      (List.take_prefix _ _).trans ((List.prefix_cons_inj _).mpr h.front)
    have hage := Ledger.pairwise_survives hdated hnewest cfg now
    exact (Recency.filter_front (hage.sublist hfront.sublist)).trans hfront

/-- Every section keeps the record right. -/
theorem Recorded.step {cfg : Config} {l m : Ledger} {a : Act} (h : l.Recorded)
    (hst : step cfg l a = some m) : m.Recorded := by
  obtain ⟨hclock, hstep, hc, hr⟩ := step_eq_some.mp hst
  have hcases := System.step_cases hstep
  have hinv := h.inv.step hcases
  have hpast := fun t ht => (h.past t ht).trans (le_getLastD hclock)
  obtain ⟨t, clock, received⟩ := m
  dsimp only at hcases hc hr hinv
  subst hc hr
  rcases System.history_cases hcases with
    ⟨id, finishedAt, now, rfl, hp, rfl⟩ | ⟨now, rfl, rfl⟩ | ⟨hend, -, hhist⟩
  · obtain ⟨hf, hn⟩ := List.isChain_cons_cons.mp hclock
    exact h.push hp hf (List.isChain_cons_cons.mp hn).1 hinv rfl (endCapture_history_eq ..)
  · refine ⟨hinv, h.nodup, h.isOver, h.dated, h.newestFirst, hpast, ?_⟩
    have hage := h.pairwise_survives cfg now
    change (l.system.server.cleanupHistory cfg now).history <+: l.received
    rw [cleanupHistory_history_eq]
    exact (Recency.filter_front (hage.sublist h.front.sublist)).trans h.front
  · rw [System.receipt_of_ne hend]
    refine ⟨hinv, h.nodup, fun i => ?_, h.dated, h.newestFirst, hpast, ?_⟩
    · exact (h.isOver i).trans (System.isOver_of_ne h.inv hcases hend i).symm
    · exact hhist.symm ▸ h.front

/-- What is received is recorded in every reachable state. -/
theorem recorded_of_reachable {cfg : Config} {t₀ : Time} {l : Ledger}
    (h : Reachable (step cfg) (init t₀) l) : l.Recorded :=
  h.invariant (recorded_init t₀) fun _ _ _ _ hl hst => hl.step hst

/-! ## What a history loses -/

/-- The entry is older than the configured TTL. -/
def Outlived (cfg : Config) (clock : Time) (t : CaptureTask) : Prop :=
  0 < cfg.historyTaskTTLMinutes ∧ cfg.historyTaskTTLMinutes * 60000000000 < clock - t.finishTime

/-- The history is ordered newest finished first, lists no task twice and is never longer than
`MaxHistoryTasks`. It has received every finished task exactly once, and what it does not list any
more has `MaxHistoryTasks` newer tasks in front of it or is older than the TTL. -/
structure WellFormed (cfg : Config) (l : Ledger) : Prop where
  newestFirst : l.system.server.history.Pairwise
    fun newer older => older.finishTime ≤ newer.finishTime
  dated : ∀ t ∈ l.system.server.history, t.finishedAt.isSome
  nodup : (l.system.server.history.map CaptureTask.taskID).Nodup
  bounded : l.system.server.history.length ≤ cfg.maxHistoryTasks
  listed : ∀ t ∈ l.system.server.history, t ∈ l.received
  receivedOnce : (l.received.map CaptureTask.taskID).Nodup
  receivedAll : ∀ id, id ∈ l.received.map CaptureTask.taskID ↔ (l.system.phase id).isOver
  lost : ∀ newer t older, l.received = newer ++ t :: older → t ∉ l.system.server.history →
    cfg.maxHistoryTasks ≤ newer.length ∨ Outlived cfg l.clock t

/-- The cleanup looks at an entry whose age is between the TTL that the 64-bit product gives and the
configured one. -/
def Misjudged (cfg : Config) (now : Time) (t : CaptureTask) : Prop :=
  0 < cfg.historyTaskTTLMinutes ∧
    -ttlDuration cfg.historyTaskTTLMinutes ≤ now - t.finishTime ∧
    now - t.finishTime ≤ cfg.historyTaskTTLMinutes * 60000000000

instance (cfg : Config) (now : Time) (t : CaptureTask) : Decidable (Misjudged cfg now t) :=
  inferInstanceAs (Decidable (_ ∧ _ ∧ _))

/-- No cleanup misjudges the age of an entry that it looks at. -/
def Timely (cfg : Config) (l : Ledger) : Act → Prop
  | .endCapture id finishedAt now =>
    ∀ t ∈ l.system.server.historyWith cfg id finishedAt, ¬ Misjudged cfg now t
  | .cleanupHistory now => ∀ t ∈ l.system.server.history, ¬ Misjudged cfg now t
  | _ => True

/-- An entry that is too old stays too old. -/
theorem Outlived.mono {cfg : Config} {clock clock' : Time} {t : CaptureTask}
    (h : Outlived cfg clock t) (hle : clock ≤ clock') : Outlived cfg clock' t :=
  ⟨h.1, h.2.trans_le (sub_le_sub_right hle _)⟩

/-- Removing an entry is right unless its age is misjudged. -/
theorem outlived_of_gone_iff {cfg : Config} {now : Time} {t : CaptureTask}
    (ht : t.finishedAt.isSome) :
    (survives cfg now t = false → Outlived cfg now t) ↔ ¬ Misjudged cfg now t := by
  rw [survives_eq_false ht, Outlived, Misjudged]
  constructor
  · rintro h ⟨httl, hage, hle⟩
    exact absurd (h ⟨httl, hage⟩).2 (not_lt_of_ge hle)
  · rintro h ⟨httl, hage⟩
    exact ⟨httl, lt_of_not_ge fun hle => h ⟨httl, hage, hle⟩⟩

/-- A TTL of up to 292 years is misjudged only at an age of exactly the TTL. -/
theorem misjudged_iff {cfg : Config} (hpos : 0 < cfg.historyTaskTTLMinutes)
    (hle : cfg.historyTaskTTLMinutes ≤ 153722867) {now : Time} {t : CaptureTask} :
    Misjudged cfg now t ↔ now - t.finishTime = cfg.historyTaskTTLMinutes * 60000000000 := by
  have httl : -ttlDuration cfg.historyTaskTTLMinutes =
      cfg.historyTaskTTLMinutes * 60000000000 := by
    rw [ttlDuration, Int.bmod_eq_of_le (by omega) (by omega)]
    ring
  rw [Misjudged, httl]
  exact ⟨fun h => le_antisymm h.2.2 h.2.1, fun h => ⟨hpos, h.ge, h.le⟩⟩

/-! ## When a history loses no task too early -/

/-- Well-formedness is what the abstract history keeps. -/
theorem wellFormed_iff_keeps {cfg : Config} {l : Ledger} (h : l.Recorded) :
    WellFormed cfg l ↔ Recency.Keeps cfg.maxHistoryTasks (Outlived cfg l.clock) l.received
      l.system.server.history := by
  have hnodup : l.received.Nodup := h.nodup.of_map _
  constructor
  · intro hw
    refine ⟨h.front, hw.bounded, fun newer t older hlog hlen => hw.lost newer t older hlog ?_⟩
    exact fun hmem =>
      Nat.not_lt.mpr hlen (Recency.length_lt_of_mem hnodup h.front hlog hmem)
  · intro hk
    exact
      { newestFirst := h.newestFirst.sublist h.front.sublist
        dated := fun t ht => h.dated t (h.front.subset ht)
        nodup := h.nodup.sublist (h.front.sublist.map _)
        bounded := hk.bounded
        listed := fun t ht => h.front.subset ht
        receivedOnce := h.nodup
        receivedAll := h.isOver
        lost := fun newer t older hlog ht => hk.lost newer t older hlog
          (Nat.le_of_not_lt fun hlt => ht (Recency.mem_of_length_lt h.front hlog hlt)) }

/-- What the cleanup leaves of a good history is good exactly when it misjudges no entry. -/
theorem keeps_cleanup_iff {cfg : Config} {now : Time} {received history : List CaptureTask}
    (hnodup : received.Nodup) (hdated : ∀ t ∈ received, t.finishedAt.isSome)
    (hnewest : received.Pairwise fun newer older => older.finishTime ≤ newer.finishTime)
    (hk : Recency.Keeps cfg.maxHistoryTasks (Outlived cfg now) received history) :
    Recency.Keeps cfg.maxHistoryTasks (Outlived cfg now) received
        (history.filter (survives cfg now)) ↔ ∀ t ∈ history, ¬ Misjudged cfg now t := by
  rw [hk.filter_iff (pairwise_survives hdated hnewest cfg now) hnodup]
  exact forall₂_congr fun t ht => outlived_of_gone_iff (hdated t (hk.front.subset ht))

/-- A section keeps the history good exactly when its cleanup misjudges no entry. -/
theorem keeps_step_iff {cfg : Config} {l m : Ledger} {a : Act} (h : l.Recorded)
    (hk : Recency.Keeps cfg.maxHistoryTasks (Outlived cfg l.clock) l.received
      l.system.server.history) (hst : step cfg l a = some m) :
    Recency.Keeps cfg.maxHistoryTasks (Outlived cfg m.clock) m.received
      m.system.server.history ↔ Timely cfg l a := by
  have hm := h.step hst
  obtain ⟨hclock, hstep, hc, hr⟩ := step_eq_some.mp hst
  have hcases := System.step_cases hstep
  have hk' := hk.mono fun t ht => Outlived.mono ht (hc ▸ le_getLastD hclock)
  obtain ⟨t, clock, received⟩ := m
  dsimp only at hcases hc hr hk' ⊢
  rcases System.history_cases hcases with
    ⟨id, finishedAt, now, rfl, hp, rfl⟩ | ⟨now, rfl, rfl⟩ | ⟨hend, hclean, hhist⟩
  · obtain rfl : clock = now := hc
    -- `endCapture`: the new entry in front, then the sweep at this time
    obtain rfl : received =
      (finished finishedAt (l.system.server.object id)).task :: l.received := hr
    change Recency.Keeps _ _ _ (l.system.server.endCapture cfg id finishedAt clock).history ↔ _
    rw [endCapture_history_eq]
    exact keeps_cleanup_iff (hm.nodup.of_map _) hm.dated hm.newestFirst
      (hk'.push cfg.maxHistoryTasks_pos _)
  · obtain rfl : clock = now := hc
    -- the periodic sweep
    obtain rfl : received = l.received := hr
    change Recency.Keeps _ _ _ (l.system.server.cleanupHistory cfg clock).history ↔ _
    rw [cleanupHistory_history_eq]
    exact keeps_cleanup_iff (hm.nodup.of_map _) hm.dated hm.newestFirst hk'
  · rw [System.receipt_of_ne hend, List.nil_append] at hr
    -- no other step touches the history
    rw [hr, hhist]
    refine iff_of_true hk' ?_
    cases a with
    | endCapture id finishedAt now => exact absurd rfl (hend id finishedAt now)
    | cleanupHistory now => exact absurd rfl (hclean now)
    | _ => trivial

/-- **The history is well-formed.** In a run under a monotone clock, every state has a well-formed
history exactly when no cleanup misjudges the age of an entry. -/
theorem history_wellFormed_iff (cfg : Config) (t₀ : Time) (as : List Act) {u : Ledger}
    (h : run (step cfg) (init t₀) as = some u) :
    Always (step cfg) (WellFormed cfg) (init t₀) as ↔
      Along (step cfg) (Timely cfg) (init t₀) as := by
  refine always_iff_along ((wellFormed_iff_keeps (recorded_init t₀)).mpr ?_) ?_ h
  · exact Recency.Keeps.nil _ _
  · intro l a m hr hl hst
    have hrec := recorded_of_reachable hr
    rw [wellFormed_iff_keeps (hrec.step hst)]
    exact keeps_step_iff hrec ((wellFormed_iff_keeps hrec).mp hl) hst

/-! ## An hour of captures -/

instance (cfg : Config) : ∀ l a, Decidable (Timely cfg l a)
  | l, .endCapture id finishedAt now => inferInstanceAs
      (Decidable (∀ t ∈ l.system.server.historyWith cfg id finishedAt, ¬ Misjudged cfg now t))
  | l, .cleanupHistory now =>
    inferInstanceAs (Decidable (∀ t ∈ l.system.server.history, ¬ Misjudged cfg now t))
  | _, .newTask _ _ | _, .registerTask _ | _, .beginCapture _ _ | _, .dropTask _
  | _, .runStartedTask _ | _, .captureReturns _ _ | _, .finalizeTask _ _ | _, .closeDone _
  | _, .stopCapture _ | _, .stopCaptureByTaskID _ _ | _, .monitorTick _ _ _ | _, .monitorStop _
  | _, .monitorDone _ => inferInstanceAs (Decidable True)

/-- A capture that is started and finished at the given times. -/
def captureOf (id : TaskID) (started finished : Time) : List Act :=
  [.newTask default "usb.pcap", .registerTask id, .beginCapture id started, .runStartedTask id,
    .captureReturns id (.error .canceled), .finalizeTask id (.error ""),
    .endCapture id finished finished]

/-- Three captures, and a periodic cleanup an hour and five nanoseconds after the first of them. -/
def threeCaptures : List Act :=
  captureOf 1 0 10 ++ captureOf 2 10 20 ++ captureOf 3 20 30 ++ [.cleanupHistory 3600000000015]

/-- What is left of the three, and what was received. -/
theorem threeCaptures_outcome :
    (run (step defaultConfig) (init 0) threeCaptures).map (fun l =>
      (l.system.server.history.map CaptureTask.taskID, l.received.map CaptureTask.taskID)) =
      some ([3, 2], [3, 2, 1]) := by decide +kernel

/-- The cleanup takes the first capture out of the history, and leaves the two younger ones. -/
theorem history_wellFormed_threeCaptures :
    Always (step defaultConfig) (WellFormed defaultConfig) (init 0) threeCaptures ∧
      (run (step defaultConfig) (init 0) threeCaptures).map (fun l =>
        (l.system.server.history.map CaptureTask.taskID, l.received.map CaptureTask.taskID)) =
        some ([3, 2], [3, 2, 1]) := by
  obtain ⟨u, hu, -⟩ := Option.map_eq_some_iff.mp threeCaptures_outcome
  exact ⟨(history_wellFormed_iff defaultConfig 0 threeCaptures hu).mpr
    (along_of_checkAlong (by decide +kernel)), threeCaptures_outcome⟩

/-! ## A history that forgets at once -/

/-- The configuration that the service comes with, but the history is meant to keep its entries for
some 380 years. -/
def longTTL : Config :=
  { ConfigFile.withIdleTimeout 30 with historyTaskTTLMinutes := 200000000 }
    |>.store (show ConfigFile.validate ConfigFile.samplePaths _ = none by decide)

/-- With the long TTL the task is gone as soon as it has ended. -/
theorem longTTL_outcome :
    (run (step longTTL) (init 0) (captureOf 1 0 10)).map (fun l =>
      (l.system.server.history, l.received.map CaptureTask.finishTime, l.clock)) =
      some ([], [10], 10) := by decide +kernel

/-- So the history has lost a task that is neither old nor one of many. -/
theorem longTTL_forgets :
    ¬ Always (step longTTL) (WellFormed longTTL) (init 0) (captureOf 1 0 10) := by
  intro h
  obtain ⟨l, hl, hout⟩ := Option.map_eq_some_iff.mp longTTL_outcome
  simp only [Prod.mk.injEq] at hout
  obtain ⟨hhist, hreceived, hclock⟩ := hout
  obtain ⟨t, rest, hsplit, htime, -⟩ := List.map_eq_cons_iff.mp hreceived
  rcases (h _ l (List.prefix_refl _) hl).lost [] t rest hsplit
    (hhist ▸ List.not_mem_nil) with hfull | ⟨-, hage⟩
  · exact absurd hfull (by decide)
  · rw [hclock, htime] at hage
    exact absurd hage (by decide)

end Ledger

end UsbPcap.Service
