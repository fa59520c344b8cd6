import Mathlib.Data.List.Basic
import Mathlib.Tactic.Common

/-!
# Self-delimiting frames

A `Framing` recognises the first complete frame of a stream from a prefix of it. `split` cuts a
stream greedily into its complete frames and the unfinished rest. Splitting is compatible with
concatenation (`split_append`), which is why a stream may be cut anywhere and split piecewise, and
a concatenation of frames splits into exactly these frames (`split_flatten_append`).
-/

/-- A way to tell the length of the first complete frame of a stream. -/
structure Framing (α : Type*) where
  frameLen : List α → Option ℕ
  pos : ∀ {xs n}, frameLen xs = some n → 0 < n
  le_length : ∀ {xs n}, frameLen xs = some n → n ≤ xs.length
  append : ∀ {xs n} ys, frameLen xs = some n → frameLen (xs ++ ys) = some n
  take : ∀ {xs n}, frameLen xs = some n → frameLen (xs.take n) = some n

namespace Framing

variable {α : Type*} (F : Framing α)

/-- One complete frame and nothing else. -/
def IsFrame (f : List α) : Prop := F.frameLen f = some f.length

/-- The complete frames of a stream in order, and the unfinished rest. -/
def split (xs : List α) : List (List α) × List α :=
  match _h : F.frameLen xs with
  | none => ([], xs)
  | some n => (xs.take n :: (split (xs.drop n)).1, (split (xs.drop n)).2)
termination_by xs.length
decreasing_by
  all_goals
    have := F.pos _h
    have := F.le_length _h
    simp only [List.length_drop]
    omega

/-- The stream is a concatenation of complete frames. -/
def Whole (xs : List α) : Prop := ∃ fs : List (List α), (∀ f ∈ fs, F.IsFrame f) ∧ xs = fs.flatten

variable {F}

theorem split_of_none {xs : List α} (h : F.frameLen xs = none) : F.split xs = ([], xs) := by
  rw [split]
  split
  · rfl
  · rename_i hm
    cases h.symm.trans hm

theorem split_of_some {xs : List α} {n : ℕ} (h : F.frameLen xs = some n) :
    F.split xs = (xs.take n :: (F.split (xs.drop n)).1, (F.split (xs.drop n)).2) := by
  rw [split]
  split
  · rename_i hm
    cases h.symm.trans hm
  · rename_i m hm
    obtain rfl : n = m := Option.some.inj (h.symm.trans hm)
    rfl

/-- Induction along the frames of a stream. -/
theorem split_induction {P : List α → Prop}
    (stuck : ∀ xs, F.frameLen xs = none → P xs)
    (frame : ∀ xs n, F.frameLen xs = some n → P (xs.drop n) → P xs) (xs : List α) : P xs := by
  induction h : xs.length using Nat.strongRecOn generalizing xs with
  | _ k ih =>
    cases hf : F.frameLen xs with
    | none => exact stuck xs hf
    | some n =>
      have hpos := F.pos hf
      have hle := F.le_length hf
      exact frame xs n hf (ih (xs.drop n).length (by rw [List.length_drop]; omega) _ rfl)

/-- Nothing is lost or reordered by splitting. -/
theorem flatten_split (xs : List α) : (F.split xs).1.flatten ++ (F.split xs).2 = xs := by
  induction xs using F.split_induction with
  | stuck xs h => rw [split_of_none h]; rfl
  | frame xs n h ih =>
    rw [split_of_some h]
    simp only [List.flatten_cons, List.append_assoc, ih, List.take_append_drop]

/-- Every piece cut off is one complete frame. -/
theorem isFrame_of_mem {xs f : List α} (hf : f ∈ (F.split xs).1) : F.IsFrame f := by
  induction xs using F.split_induction with
  | stuck xs h => rw [split_of_none h] at hf; exact absurd hf List.not_mem_nil
  | frame xs n h ih =>
    rw [split_of_some h] at hf
    rcases List.mem_cons.mp hf with rfl | hf
    · rw [IsFrame, F.take h, List.length_take, Nat.min_eq_left (F.le_length h)]
    · exact ih hf

/-- The rest does not start with a complete frame. -/
theorem frameLen_rest (xs : List α) : F.frameLen (F.split xs).2 = none := by
  induction xs using F.split_induction with
  | stuck xs h => rwa [split_of_none h]
  | frame xs n h ih => rwa [split_of_some h]

/-- Splitting is compatible with concatenation: only the rest of the first part is looked at
again. -/
theorem split_append (xs ys : List α) :
    F.split (xs ++ ys) =
      ((F.split xs).1 ++ (F.split ((F.split xs).2 ++ ys)).1,
        (F.split ((F.split xs).2 ++ ys)).2) := by
  induction xs using F.split_induction with
  | stuck xs h => rw [split_of_none h]; rfl
  | frame xs n h ih =>
    have hle := F.le_length h
    rw [split_of_some h, split_of_some (F.append ys h), List.drop_append_of_le_length hle,
      List.take_append_of_le_length hle, ih]
    rfl

/-- A concatenation of frames splits into these frames. -/
theorem split_flatten_append {fs : List (List α)} (h : ∀ f ∈ fs, F.IsFrame f) (rest : List α) :
    F.split (fs.flatten ++ rest) = (fs ++ (F.split rest).1, (F.split rest).2) := by
  induction fs with
  | nil => rfl
  | cons f fs ih =>
    have hf : F.frameLen (f ++ (fs.flatten ++ rest)) = some f.length :=
      F.append _ (h f List.mem_cons_self)
    rw [List.flatten_cons, List.append_assoc, split_of_some hf, List.take_left', List.drop_left',
      ih fun g hg => h g (List.mem_cons_of_mem f hg)]
    · rfl
    · rfl
    · rfl

/-- A stream is whole exactly when splitting leaves no rest. -/
theorem whole_iff_rest_nil (hnil : F.frameLen [] = none) (xs : List α) :
    F.Whole xs ↔ (F.split xs).2 = [] := by
  constructor
  · rintro ⟨fs, hfs, rfl⟩
    have h := split_flatten_append hfs []
    rw [List.append_nil, split_of_none hnil] at h
    rw [h]
  · intro h
    refine ⟨(F.split xs).1, fun f hf => isFrame_of_mem hf, ?_⟩
    have := F.flatten_split xs
    rw [h, List.append_nil] at this
    exact this.symm

theorem Whole.nil : F.Whole ([] : List α) := ⟨[], by simp, rfl⟩

/-- Appending a frame keeps a stream whole. -/
theorem Whole.concat {xs f : List α} (hx : F.Whole xs) (hf : F.IsFrame f) : F.Whole (xs ++ f) := by
  obtain ⟨fs, hfs, rfl⟩ := hx
  refine ⟨fs ++ [f], fun g hg => ?_, by simp⟩
  rcases List.mem_append.mp hg with hg | hg
  · exact hfs g hg
  · rwa [List.mem_singleton.mp hg]

/-- Behind whole frames, a stream is whole exactly when the rest is. -/
theorem Whole.append_iff (hnil : F.frameLen [] = none) {xs ys : List α} (hx : F.Whole xs) :
    F.Whole (xs ++ ys) ↔ F.Whole ys := by
  rw [whole_iff_rest_nil hnil, whole_iff_rest_nil hnil, split_append,
    (whole_iff_rest_nil hnil xs).mp hx, List.nil_append]

end Framing
