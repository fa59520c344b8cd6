import Mathlib.Data.List.Basic
import Mathlib.Data.List.Infix
import Mathlib.Data.List.TakeWhile
import Mathlib.Data.List.Nodup
import Mathlib.Tactic.Common

/-!
# The newest entries of a log

A log has its newest entry in front. A bounded view of it forgets entries for two reasons: it is
full of newer ones, or they have expired. `Keeps` says that the view is the front part of the log
and that every entry behind it was forgotten for one of the reasons. Pushing an entry onto the log
and the view keeps this right, and so does filtering the view by age, exactly when the filter
removes expired entries only.
-/

namespace Recency

variable {α : Type*}

/-- Filtering a list by a test that passes everything in front of what it passes leaves a front
part of the list. -/
theorem filter_front {p : α → Bool} {l : List α}
    (h : l.Pairwise fun newer older => p older = true → p newer = true) : l.filter p <+: l := by
  have htake : l.filter p = l.takeWhile p := by
    induction l with
    | nil => rfl
    | cons x l ih =>
      obtain ⟨hx, hl⟩ := List.pairwise_cons.mp h
      cases hp : p x with
      | true => rw [List.filter_cons_of_pos hp, List.takeWhile_cons_of_pos hp, ih hl]
      | false =>
        -- nothing behind `x` passes either
        have hnone : l.filter p = [] :=
          List.filter_eq_nil_iff.mpr fun y hy hpy => by simp [hx y hy hpy] at hp
        rw [List.filter_cons_of_neg (by simp [hp]), List.takeWhile_cons_of_neg (by simp [hp]),
          hnone]
  rw [htake]
  exact List.takeWhile_prefix p

/-- An entry of the log is in the view if fewer entries are in front of it than the view has. -/
theorem mem_of_length_lt {log kept newer older : List α} {x : α} (h : kept <+: log)
    (hlog : log = newer ++ x :: older) (hlt : newer.length < kept.length) : x ∈ kept := by
  have hx : kept[newer.length] = x := by
    rw [h.getElem hlt]
    simp [hlog]
  exact hx ▸ List.getElem_mem hlt

/-- An entry of the view has its place in the log. -/
theorem exists_split {log kept : List α} {x : α} (h : kept <+: log) (hx : x ∈ kept) :
    ∃ newer older, log = newer ++ x :: older ∧ newer.length < kept.length := by
  obtain ⟨newer, rest, rfl⟩ := List.append_of_mem hx
  obtain ⟨tail, rfl⟩ := h
  exact ⟨newer, rest ++ tail, by simp, by simp⟩

/-- In a log without repetitions an entry of the view is in front of everything that is not. -/
theorem length_lt_of_mem {log kept newer older : List α} {x : α} (hnodup : log.Nodup)
    (h : kept <+: log) (hlog : log = newer ++ x :: older) (hx : x ∈ kept) :
    newer.length < kept.length := by
  obtain ⟨newer', older', hlog', hlt⟩ := exists_split h hx
  have hi : newer.length < log.length := by simp [hlog]
  have hi' : newer'.length < log.length := by simp [hlog']
  have hsame : log[newer.length] = log[newer'.length] := by
    simp only [hlog, List.getElem_append_right, Nat.le_refl, Nat.sub_self, List.getElem_cons_zero]
    simp only [← hlog]
    simp [hlog']
  rw [(hnodup.getElem_inj_iff).mp hsame]
  exact hlt

/-- `kept` is the front part of `log`, with at most `limit` entries, and whatever it lacks has
`limit` newer entries in front of it or has expired. -/
structure Keeps (limit : ℕ) (expired : α → Prop) (log kept : List α) : Prop where
  front : kept <+: log
  bounded : kept.length ≤ limit
  lost : ∀ newer x older, log = newer ++ x :: older → kept.length ≤ newer.length →
    limit ≤ newer.length ∨ expired x

namespace Keeps

variable {limit : ℕ} {expired : α → Prop} {log kept : List α}

theorem nil (limit : ℕ) (expired : α → Prop) : Keeps limit expired [] [] :=
  ⟨List.prefix_refl _, Nat.zero_le _, fun newer x older h => by simp at h⟩

/-- More entries may have expired. -/
theorem mono {expired' : α → Prop} (h : Keeps limit expired log kept)
    (himp : ∀ x, expired x → expired' x) : Keeps limit expired' log kept :=
  ⟨h.front, h.bounded, fun newer x older hlog hlen =>
    (h.lost newer x older hlog hlen).imp_right (himp x)⟩

/-- A new entry goes in front and pushes out what is beyond the limit. -/
theorem push (h : Keeps limit expired log kept) (hpos : 0 < limit) (x : α) :
    Keeps limit expired (x :: log) ((x :: kept).take limit) := by
  refine ⟨(List.take_prefix _ _).trans ((List.prefix_cons_inj x).mpr h.front),
    List.length_take_le _ _, fun newer y older hlog hlen => ?_⟩
  cases newer with
  | nil =>
    -- the new entry itself is kept
    simp only [List.length_take, List.length_cons, List.length_nil] at hlen
    omega
  | cons z newer =>
    obtain ⟨-, hlog⟩ := List.cons.inj hlog
    simp only [List.length_take, List.length_cons] at hlen ⊢
    by_cases hfull : limit ≤ newer.length + 1
    · exact Or.inl hfull
    · rcases h.lost newer y older hlog (by omega) with hlimit | hexp
      · exact Or.inl (by omega)
      · exact Or.inr hexp

/-- A filter by age keeps the view right exactly when what it removes has expired. -/
theorem filter_iff (h : Keeps limit expired log kept) {p : α → Bool}
    (hage : log.Pairwise fun newer older => p older = true → p newer = true)
    (hnodup : log.Nodup) :
    Keeps limit expired log (kept.filter p) ↔ ∀ x ∈ kept, p x = false → expired x := by
  have hfront : kept.filter p <+: log :=
    (filter_front (hage.sublist h.front.sublist)).trans h.front
  constructor
  · intro hk x hx hp
    obtain ⟨newer, older, hlog, hlt⟩ := exists_split h.front hx
    have hnot : x ∉ kept.filter p := by simp [hp]
    have hlen : (kept.filter p).length ≤ newer.length :=
      Nat.le_of_not_lt fun hc => hnot (mem_of_length_lt hfront hlog hc)
    exact (hk.lost newer x older hlog hlen).resolve_left
      (Nat.not_le_of_lt (hlt.trans_le h.bounded))
  · intro hexp
    refine ⟨hfront, (List.length_filter_le _ _).trans h.bounded, fun newer x older hlog hlen => ?_⟩
    by_cases hx : x ∈ kept
    · refine Or.inr (hexp x hx ?_)
      by_contra hp
      have hmem : x ∈ kept.filter p := List.mem_filter.mpr ⟨hx, by simpa using hp⟩
      exact Nat.not_lt.mpr hlen (length_lt_of_mem hnodup hfront hlog hmem)
    · exact h.lost newer x older hlog
        (Nat.le_of_not_lt fun hc => hx (mem_of_length_lt h.front hlog hc))

end Keeps

end Recency
