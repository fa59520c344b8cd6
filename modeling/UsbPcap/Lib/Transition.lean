import Mathlib.Data.List.Induction
import Mathlib.Order.WellFounded
import Mathlib.Data.Nat.Find
import Mathlib.Tactic.Common

/-!
# Runs of labelled transition systems

A system is a partial step function: `step s a` is `none` when action `a` is not enabled in `s`.
`run` executes a schedule of actions, `Reachable` collects the states schedules lead to, and
`Always` states a property of every state a schedule passes through. The induction rules carry an
invariant over whole runs, also when only the steps that satisfy a guard are known to keep it.

Infinite runs are `Path`s. `Path.eventually_of_rank` turns a ranking function and a fairness
assumption into termination, and `Path.existsUnique_of_progress` counts steps that the state itself
records, as `run_countSteps` does for finite runs. `Reachable.simulated` carries one system's
reachable states over to another.
-/

namespace Transition

variable {σ α : Type*}

/-! ## Finite runs -/

/-- Execute a schedule; `none` when one of its actions is not enabled where it is tried. -/
def run (step : σ → α → Option σ) : σ → List α → Option σ
  | s, [] => some s
  | s, a :: as => (step s a).bind fun t => run step t as

section Finite

variable {step : σ → α → Option σ}

/-- No step leaves the state. -/
@[simp] theorem run_nil (s : σ) : run step s [] = some s := rfl

/-- A schedule is its first step and then the rest. -/
theorem run_cons (s : σ) (a : α) (as : List α) :
    run step s (a :: as) = (step s a).bind fun t => run step t as := rfl

/-- A schedule may be cut anywhere. -/
theorem run_append (s : σ) (as bs : List α) :
    run step s (as ++ bs) = (run step s as).bind fun t => run step t bs := by
  induction as generalizing s with
  | nil => rfl
  | cons a as ih =>
    rw [List.cons_append, run_cons, run_cons]
    cases step s a with
    | none => rfl
    | some t => exact ih t

/-- The last step of a run. -/
theorem run_concat {s u : σ} {as : List α} {a : α} :
    run step s (as ++ [a]) = some u ↔ ∃ t, run step s as = some t ∧ step t a = some u := by
  rw [run_append, Option.bind_eq_some_iff]
  simp only [run_cons, run_nil, Option.bind_fun_some]

/-- The states that schedules lead to from `init`. -/
def Reachable (step : σ → α → Option σ) (init s : σ) : Prop :=
  ∃ as, run step init as = some s

/-- The start is reachable. -/
theorem Reachable.refl (init : σ) : Reachable step init init := ⟨[], rfl⟩

/-- Where a run ends is reachable. -/
theorem Reachable.of_run {init s : σ} {as : List α} (h : run step init as = some s) :
    Reachable step init s := ⟨as, h⟩

/-- And so is the state after one step more. -/
theorem Reachable.tail {init s t : σ} {a : α} (hs : Reachable step init s)
    (h : step s a = some t) : Reachable step init t := by
  obtain ⟨as, has⟩ := hs
  exact ⟨as ++ [a], run_concat.mpr ⟨s, has, h⟩⟩

/-- Run induction: what holds initially and is kept by every step holds after every run. The
property may mention the schedule executed so far. -/
theorem run_induction {init : σ} {P : List α → σ → Prop} (base : P [] init)
    (next : ∀ as s a t, run step init as = some s → P as s → step s a = some t → P (as ++ [a]) t)
    {as : List α} {s : σ} (h : run step init as = some s) : P as s := by
  induction as using List.reverseRecOn generalizing s with
  | nil => obtain rfl := Option.some.inj h; exact base
  | append_singleton as a ih =>
    obtain ⟨t, ht, hs⟩ := run_concat.mp h
    exact next as t a s ht (ih ht) hs

/-- Invariants hold in every reachable state. -/
theorem Reachable.invariant {init s : σ} {P : σ → Prop} (h : Reachable step init s)
    (base : P init)
    (next : ∀ s a t, Reachable step init s → P s → step s a = some t → P t) : P s := by
  obtain ⟨as, has⟩ := h
  exact run_induction (P := fun _ s => P s) base
    (fun _ s a t hr hp hst => next s a t ⟨_, hr⟩ hp hst) has

/-! ## Properties of every step and of every state of a run -/

/-- Every step of the schedule is taken from a state and with an action that satisfy `ok`. -/
def Along (step : σ → α → Option σ) (ok : σ → α → Prop) (init : σ) (as : List α) : Prop :=
  ∀ pre a post s, as = pre ++ a :: post → run step init pre = some s → ok s a

/-- Every state that the schedule passes through satisfies `P`. -/
def Always (step : σ → α → Option σ) (P : σ → Prop) (init : σ) (as : List α) : Prop :=
  ∀ pre s, pre <+: as → run step init pre = some s → P s

/-- No step, no condition. -/
theorem Along.nil {ok : σ → α → Prop} {init : σ} : Along step ok init [] :=
  fun pre a post s has _ => absurd has (by simp)

/-- A schedule meets the condition when its first step and the rest do. -/
theorem Along.cons {ok : σ → α → Prop} {init t : σ} {a : α} {as : List α} (ha : ok init a)
    (hstep : step init a = some t) (has : Along step ok t as) :
    Along step ok init (a :: as) := by
  intro pre b post s hsplit hs
  rcases pre with _ | ⟨c, pre⟩
  · obtain ⟨rfl, rfl⟩ := List.cons.inj hsplit
    obtain rfl := Option.some.inj hs
    exact ha
  · obtain ⟨rfl, rfl⟩ := List.cons.inj hsplit
    rw [run_cons, hstep] at hs
    exact has pre b post s rfl hs

/-- A schedule is checked step by step; behind a step that is not enabled there is nothing left. -/
def checkAlong (step : σ → α → Option σ) (ok : σ → α → Prop) [∀ s a, Decidable (ok s a)] :
    σ → List α → Bool
  | _, [] => true
  | s, a :: as => decide (ok s a) && (step s a).all fun t => checkAlong step ok t as

/-- The check is sound. -/
theorem along_of_checkAlong {ok : σ → α → Prop} [∀ s a, Decidable (ok s a)] {init : σ}
    {as : List α} (h : checkAlong step ok init as = true) : Along step ok init as := by
  induction as generalizing init with
  | nil => exact Along.nil
  | cons a as ih =>
    rw [checkAlong, Bool.and_eq_true, decide_eq_true_iff] at h
    obtain ⟨ha, hrest⟩ := h
    cases hstep : step init a with
    | some t =>
      rw [hstep, Option.all_some] at hrest
      exact Along.cons ha hstep (ih hrest)
    | none =>
      -- only the first step is ever tried
      intro pre b post s hsplit hs
      rcases pre with _ | ⟨c, pre⟩
      · obtain ⟨rfl, rfl⟩ := List.cons.inj hsplit
        obtain rfl := Option.some.inj hs
        exact ha
      · obtain ⟨rfl, rfl⟩ := List.cons.inj hsplit
        rw [run_cons, hstep] at hs
        cases hs

/-- What holds along a schedule holds along its beginning. -/
theorem Along.of_append {ok : σ → α → Prop} {init : σ} {as bs : List α}
    (h : Along step ok init (as ++ bs)) : Along step ok init as := by
  intro pre a post s has hs
  exact h pre a (post ++ bs) s (by rw [has, List.append_assoc, List.cons_append]) hs

/-- And along its end, from the state in between. -/
theorem Along.drop {ok : σ → α → Prop} {init t : σ} {as bs : List α}
    (h : Along step ok init (as ++ bs)) (ht : run step init as = some t) :
    Along step ok t bs := by
  intro pre a post s hbs hs
  refine h (as ++ pre) a post s (by rw [hbs, List.append_assoc]) ?_
  rw [run_append, ht]
  exact hs

/-- Run induction along a guarded schedule: the steps only need to keep the property where the
guard holds. -/
theorem Along.run_induction {ok : σ → α → Prop} {init : σ} {P : σ → Prop} (base : P init)
    (next : ∀ s a t, Reachable step init s → P s → ok s a → step s a = some t → P t)
    {as : List α} {s : σ} (hok : Along step ok init as) (h : run step init as = some s) : P s := by
  induction as using List.reverseRecOn generalizing s with
  | nil => obtain rfl := Option.some.inj h; exact base
  | append_singleton as a ih =>
    obtain ⟨t, ht, hs⟩ := run_concat.mp h
    exact next t a s ⟨as, ht⟩ (ih hok.of_append ht) (hok as a [] t rfl ht) hs

/-- A guarded schedule satisfies the invariant in every state it passes through. -/
theorem Along.always {ok : σ → α → Prop} {init : σ} {P : σ → Prop} (base : P init)
    (next : ∀ s a t, Reachable step init s → P s → ok s a → step s a = some t → P t)
    {as : List α} (hok : Along step ok init as) : Always step P init as := by
  rintro pre s ⟨post, rfl⟩ hs
  exact hok.of_append.run_induction base next hs

/-- It holds along one step more when it holds of that step. -/
theorem Along.concat {ok : σ → α → Prop} {init : σ} {as : List α} {a : α}
    (h : Along step ok init as) (ha : ∀ s, run step init as = some s → ok s a) :
    Along step ok init (as ++ [a]) := by
  intro pre b post s has hs
  rcases List.eq_nil_or_concat post with rfl | ⟨post, c, rfl⟩
  · obtain ⟨rfl, hb⟩ := List.append_inj' has rfl
    obtain rfl := List.singleton_inj.mp hb
    exact ha s hs
  · have hsplit : as ++ [a] = (pre ++ b :: post) ++ [c] := by simpa using has
    exact h pre b post s (List.append_inj' hsplit rfl).1 hs

/-- The same for a beginning that can be run. -/
theorem along_concat_iff {ok : σ → α → Prop} {init s : σ} {as : List α} {a : α}
    (h : run step init as = some s) :
    Along step ok init (as ++ [a]) ↔ Along step ok init as ∧ ok s a := by
  constructor
  · exact fun hok => ⟨hok.of_append, hok as a [] s rfl h⟩
  · rintro ⟨hok, ha⟩
    refine hok.concat fun t ht => ?_
    obtain rfl := Option.some.inj (h.symm.trans ht)
    exact ha

/-- A property that steps never regain, and lose exactly where the guard fails, holds after a run
exactly when it held before and all steps satisfy the guard. -/
theorem run_iff_along {ok : σ → α → Prop} {init u : σ} {P Q : σ → Prop} (base : Q init)
    (keep : ∀ s a t, Q s → step s a = some t → Q t)
    (next : ∀ s a t, Q s → step s a = some t → (P t ↔ P s ∧ ok s a))
    {as : List α} (h : run step init as = some u) : P u ↔ P init ∧ Along step ok init as := by
  have hboth : Q u ∧ (P u ↔ P init ∧ Along step ok init as) := by
    refine run_induction (P := fun as u => Q u ∧ (P u ↔ P init ∧ Along step ok init as)) ?_ ?_ h
    · exact ⟨base, (and_iff_left Along.nil).symm⟩
    · rintro as s a t hs ⟨hq, hp⟩ hst
      refine ⟨keep s a t hq hst, ?_⟩
      rw [next s a t hq hst, hp, along_concat_iff hs, and_assoc]
  exact hboth.2

/-- What holds always holds during the beginning. -/
theorem Always.of_append {P : σ → Prop} {init : σ} {as bs : List α}
    (h : Always step P init (as ++ bs)) : Always step P init as :=
  fun pre s hpre hs => h pre s (hpre.trans (List.prefix_append as bs)) hs

/-- A run stays good exactly when all its steps satisfy the guard, if there is an invariant `Q` that
guarded steps keep, that makes a state good, and from which a step to a good state is guarded. -/
theorem always_iff_along_of_inv {ok : σ → α → Prop} {init u : σ} {P Q : σ → Prop} (base : Q init)
    (good : ∀ s, Q s → P s)
    (only : ∀ s a t, Reachable step init s → Q s → step s a = some t → P t → ok s a)
    (keep : ∀ s a t, Reachable step init s → Q s → ok s a → step s a = some t → Q t)
    {as : List α} (h : run step init as = some u) :
    Always step P init as ↔ Along step ok init as := by
  constructor
  · intro hall
    induction as using List.reverseRecOn generalizing u with
    | nil => exact Along.nil
    | append_singleton as a ih =>
      obtain ⟨t, ht, htu⟩ := run_concat.mp h
      have hok := ih ht hall.of_append
      refine hok.concat fun s hs => ?_
      obtain rfl := Option.some.inj (ht.symm.trans hs)
      exact only t a u (.of_run ht) (hok.run_induction base keep ht) htu
        (hall _ u (List.prefix_refl _) h)
  · intro hok pre s hpre hs
    exact good s (hok.always base keep pre s hpre hs)

/-- When a step from a good state leads to a good state exactly where the guard holds, a run stays
good exactly when all its steps satisfy the guard. -/
theorem always_iff_along {ok : σ → α → Prop} {init u : σ} {P : σ → Prop} (base : P init)
    (next : ∀ s a t, Reachable step init s → P s → step s a = some t → (P t ↔ ok s a))
    {as : List α} (h : run step init as = some u) :
    Always step P init as ↔ Along step ok init as :=
  always_iff_along_of_inv base (fun _ hp => hp)
    (fun s a t hr hp hst ht => (next s a t hr hp hst).mp ht)
    (fun s a t hr hp ha hst => (next s a t hr hp hst).mpr ha) h

/-- How many steps of a run `q` picks, by the state a step starts from and its action. -/
def countSteps (step : σ → α → Option σ) (q : σ → α → Bool) : σ → List α → ℕ
  | _, [] => 0
  | s, a :: as =>
    (if q s a then 1 else 0) + ((step s a).map fun t => countSteps step q t as).getD 0

/-- The last step counts when it is one of them. -/
theorem countSteps_concat {q : σ → α → Bool} {init s : σ} {as : List α} {a : α}
    (h : run step init as = some s) :
    countSteps step q init (as ++ [a]) =
      countSteps step q init as + if q s a then 1 else 0 := by
  induction as generalizing init with
  | nil =>
    obtain rfl := Option.some.inj h
    rw [List.nil_append, countSteps, countSteps, Nat.zero_add]
    cases step init a with
    | none => rfl
    | some t => rfl
  | cons b as ih =>
    rw [run_cons] at h
    obtain ⟨t, ht, hrest⟩ := Option.bind_eq_some_iff.mp h
    rw [List.cons_append, countSteps, countSteps, ht, Option.map_some, Option.map_some,
      Option.getD_some, Option.getD_some, ih hrest, Nat.add_assoc]

/-- Count steps that the state records: they are exactly those that make `P` true, and `P` stays
true, so there was one of them if `P` holds by now and none otherwise. -/
theorem run_countSteps {init : σ} {P : σ → Prop} [DecidablePred P] {q : σ → α → Bool}
    (base : ¬ P init)
    (keep : ∀ s a t, Reachable step init s → P s → step s a = some t → P t)
    (record : ∀ s a t, Reachable step init s → step s a = some t → (q s a = true ↔ ¬ P s ∧ P t))
    {as : List α} {s : σ} (h : run step init as = some s) :
    countSteps step q init as = if P s then 1 else 0 := by
  refine run_induction (P := fun as s => countSteps step q init as = if P s then 1 else 0) ?_ ?_ h
  · rw [if_neg base]
    rfl
  · intro as s a t hr hs hst
    have hrec := record s a t (.of_run hr) hst
    rw [countSteps_concat hr, hs]
    by_cases hp : P s
    · rw [if_pos hp, if_pos (keep s a t (.of_run hr) hp hst), if_neg fun hq => (hrec.mp hq).1 hp]
    · by_cases ht : P t
      · rw [if_neg hp, if_pos ht, if_pos (hrec.mpr ⟨hp, ht⟩)]
      · rw [if_neg hp, if_neg ht, if_neg fun hq => ht (hrec.mp hq).2]

/-! ## Simulation -/

/-- Forward simulation: when every step of one system stutters or is answered by a step of another,
every state it reaches is related to one that the other reaches. -/
theorem Reachable.simulated {τ β : Type*} {step' : τ → β → Option τ} {init s : σ} {init' : τ}
    {R : σ → τ → Prop} (base : R init init')
    (next : ∀ s a t s', Reachable step' init' s' → R s s' → step s a = some t →
      R t s' ∨ ∃ b t', step' s' b = some t' ∧ R t t')
    (h : Reachable step init s) : ∃ s', Reachable step' init' s' ∧ R s s' := by
  refine h.invariant (P := fun s => ∃ s', Reachable step' init' s' ∧ R s s')
    ⟨init', .refl _, base⟩ ?_
  rintro s a t - ⟨s', hs', hr⟩ hst
  rcases next s a t s' hs' hr hst with hstay | ⟨b, t', hst', ht⟩
  · exact ⟨s', hs', hstay⟩
  · exact ⟨t', hs'.tail hst', ht⟩

end Finite

/-! ## Infinite runs -/

/-- An infinite run. -/
structure Path (step : σ → α → Option σ) where
  state : ℕ → σ
  act : ℕ → α
  next : ∀ n, step (state n) (act n) = some (state (n + 1))

namespace Path

variable {step : σ → α → Option σ} (path : Path step)

/-- What every step keeps, once true, stays true. -/
theorem stable {P : σ → Prop} (keep : ∀ n, P (path.state n) → P (path.state (n + 1))) {m n : ℕ}
    (hmn : m ≤ n) (hm : P (path.state m)) : P (path.state n) := by
  induction hmn with
  | refl => exact hm
  | step _ ih => exact keep _ ih

/-- States of a path that starts in a reachable state are reachable. -/
theorem reachable {init : σ} (h : Reachable step init (path.state 0)) (n : ℕ) :
    Reachable step init (path.state n) := by
  induction n with
  | zero => exact h
  | succ n ih => exact ih.tail (path.next n)

/-- A rank that falls again and again as long as `P` fails forces `P`: look at a point where the
rank is least. -/
theorem eventually_of_rank {P : σ → Prop} (rank : σ → ℕ) (start : ℕ)
    (progress : ∀ n, start ≤ n → ¬ P (path.state n) →
      ∃ m, n < m ∧ rank (path.state m) < rank (path.state n)) :
    ∃ n, start ≤ n ∧ P (path.state n) := by
  obtain ⟨n, hn, hmin⟩ := (measure fun n => rank (path.state n)).wf.has_min
    {n | start ≤ n} ⟨start, Nat.le_refl start⟩
  refine ⟨n, hn, by_contra fun hp => ?_⟩
  obtain ⟨m, hnm, hlt⟩ := progress n hn hp
  exact hmin m (Nat.le_trans hn (Nat.le_of_lt hnm)) hlt

/-- The steps that make `P` true, where `P` stays true, are exactly one on a path on which `P` comes
true. -/
theorem existsUnique_of_progress {P : σ → Prop} {Q : ℕ → Prop} (base : ¬ P (path.state 0))
    (final : ∃ n, P (path.state n))
    (keep : ∀ n, P (path.state n) → P (path.state (n + 1)))
    (record : ∀ n, Q n ↔ ¬ P (path.state n) ∧ P (path.state (n + 1))) : ∃! n, Q n := by
  classical
  obtain ⟨n, hn⟩ : ∃ n, Nat.find final = n + 1 := by
    refine Nat.exists_eq_succ_of_ne_zero fun hzero => base ?_
    exact hzero ▸ Nat.find_spec final
  have hfirst : ¬ P (path.state n) := Nat.find_min final (by omega)
  have hnext : P (path.state (n + 1)) := hn ▸ Nat.find_spec final
  refine ⟨n, (record n).mpr ⟨hfirst, hnext⟩, fun m hm => ?_⟩
  obtain ⟨hbefore, hafter⟩ := (record m).mp hm
  by_contra hne
  rcases Nat.lt_or_gt_of_ne hne with hlt | hgt
  -- a second step that makes `P` true lies before the first one or behind it
  · exact hfirst (path.stable keep (by omega) hafter)
  · exact hbefore (path.stable keep (by omega) hnext)

end Path

end Transition
