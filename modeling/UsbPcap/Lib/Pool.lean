import Mathlib.Data.List.Nodup
import Mathlib.Logic.Function.Basic
import Mathlib.Tactic.Common

/-!
# Accounts of a pool

A pool hands out handles and takes them back; it remembers how often each handle was given back.
`Owes p q held` is the account of what happened between two states of a pool: every handle handed
out since `p` was given back exactly once, but for those in `held`, which were not given back at
all, and no older handle was given back. With nothing held the account is settled.
-/

/-- The next handle of a pool, and how often each handle has been given back. -/
structure Pool where
  next : ℕ
  frees : ℕ → ℕ

namespace Pool

/-- Hand out a handle, if there is one. -/
def allocate (p : Pool) (available : Bool) : Option ℕ × Pool :=
  if available then (some p.next, { p with next := p.next + 1 }) else (none, p)

/-- Take a handle back. -/
def free (p : Pool) (b : ℕ) : Pool :=
  { p with frees := Function.update p.frees b (p.frees b + 1) }

/-- Take a handle back, if there is one. -/
def freeOption (p : Pool) (b : Option ℕ) : Pool := b.elim p p.free

/-- The account between two states of a pool. -/
structure Owes (p q : Pool) (held : List ℕ) : Prop where
  le : p.next ≤ q.next
  nodup : held.Nodup
  since : ∀ b ∈ held, p.next ≤ b ∧ b < q.next
  frees : ∀ b, q.frees b = p.frees b + if p.next ≤ b ∧ b < q.next ∧ b ∉ held then 1 else 0

theorem Owes.refl (p : Pool) : p.Owes p [] := by
  refine ⟨Nat.le_refl _, List.nodup_nil, nofun, fun b => ?_⟩
  rw [if_neg (by omega), Nat.add_zero]

/-- Every handle handed out since `p` has been given back exactly once, and no other one has. -/
structure Settled (p q : Pool) : Prop where
  le : p.next ≤ q.next
  once : ∀ b, p.next ≤ b → b < q.next → q.frees b = p.frees b + 1
  others : ∀ b, ¬ (p.next ≤ b ∧ b < q.next) → q.frees b = p.frees b

theorem owes_nil_iff {p q : Pool} : p.Owes q [] ↔ p.Settled q := by
  constructor
  · intro h
    refine ⟨h.le, fun b hlo hhi => ?_, fun b hb => ?_⟩
    · rw [h.frees, if_pos ⟨hlo, hhi, List.not_mem_nil⟩]
    · rw [h.frees, if_neg fun hc => hb ⟨hc.1, hc.2.1⟩, Nat.add_zero]
  · intro h
    refine ⟨h.le, List.nodup_nil, nofun, fun b => ?_⟩
    by_cases hb : p.next ≤ b ∧ b < q.next
    · rw [if_pos ⟨hb.1, hb.2, List.not_mem_nil⟩, h.once b hb.1 hb.2]
    · rw [if_neg fun hc => hb ⟨hc.1, hc.2.1⟩, h.others b hb, Nat.add_zero]

/-- A handle that is handed out is held. -/
theorem Owes.allocate {p q : Pool} {held : List ℕ} (h : p.Owes q held) (available : Bool) :
    p.Owes (q.allocate available).2 ((q.allocate available).1.toList ++ held) := by
  cases available with
  | false => exact h
  | true =>
    refine ⟨Nat.le_succ_of_le h.le, ?_, ?_, fun b => ?_⟩
    · refine List.nodup_cons.mpr ⟨fun hmem => ?_, h.nodup⟩
      exact Nat.lt_irrefl _ (h.since _ hmem).2
    · refine List.forall_mem_cons.mpr ⟨⟨h.le, Nat.lt_succ_self _⟩, fun b hb => ?_⟩
      exact ⟨(h.since b hb).1, Nat.lt_succ_of_lt (h.since b hb).2⟩
    · refine (h.frees b).trans (congrArg (p.frees b + ·) (if_congr ?_ rfl rfl))
      change _ ↔ p.next ≤ b ∧ b < q.next + 1 ∧ b ∉ q.next :: held
      rw [List.mem_cons, not_or]
      constructor
      · rintro ⟨hlo, hhi, hnot⟩
        exact ⟨hlo, Nat.lt_succ_of_lt hhi, Nat.ne_of_lt hhi, hnot⟩
      · rintro ⟨hlo, hhi, hne, hnot⟩
        exact ⟨hlo, by omega, hnot⟩

/-- A handle that is given back is not held any more. -/
theorem Owes.free {p q : Pool} {front back : List ℕ} {b : ℕ} (h : p.Owes q (front ++ b :: back)) :
    p.Owes (q.free b) (front ++ back) := by
  have hnodup := List.nodup_middle.mp h.nodup
  obtain ⟨hb, hrest⟩ := List.nodup_cons.mp hnodup
  have hsince := h.since b (by simp)
  refine ⟨h.le, hrest, fun c hc => h.since c ?_, fun c => ?_⟩
  · rcases List.mem_append.mp hc with hc | hc <;> simp [hc]
  · have hfrees := h.frees c
    by_cases hcb : c = b
    · subst hcb
      rw [if_neg (by simp)] at hfrees
      rw [if_pos ⟨hsince.1, hsince.2, hb⟩]
      simp [Pool.free, hfrees]
    · have hmem : c ∈ front ++ b :: back ↔ c ∈ front ++ back := by simp [hcb]
      simp only [hmem] at hfrees
      simpa [Pool.free, hcb] using hfrees

theorem Owes.freeOption {p q : Pool} {front back : List ℕ} {b : Option ℕ}
    (h : p.Owes q (front ++ b.toList ++ back)) : p.Owes (q.freeOption b) (front ++ back) := by
  cases b with
  | none => simpa [Pool.freeOption] using h
  | some b => exact Owes.free (by simpa using h)

end Pool
