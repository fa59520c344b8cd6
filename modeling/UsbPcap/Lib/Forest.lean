import Mathlib.Data.List.Basic
import Mathlib.Data.List.Range
import Mathlib.Tactic.Common

/-!
# Forests

Finite forests by their first trees: a value, the forest below it and the forest beside it. `places`
lists the values in depth-first order, each with where it stands.
-/

/-- A finite forest. -/
inductive Forest (α : Type*) where
  | nil
  | cons (value : α) (children siblings : Forest α)

namespace Forest

variable {α : Type*}

/-- The number of values. -/
def size : Forest α → ℕ
  | nil => 0
  | cons _ children siblings => 1 + children.size + siblings.size

/-- The number of values one below the other. -/
def height : Forest α → ℕ
  | nil => 0
  | cons _ children siblings => max (1 + children.height) siblings.height

/-- The number of values beside each other at the top. -/
def breadth : Forest α → ℕ
  | nil => 0
  | cons _ _ siblings => siblings.breadth + 1

/-- The values in depth-first order. -/
def values : Forest α → List α
  | nil => []
  | cons v children siblings => v :: (children.values ++ siblings.values)

/-- Where a value stands: the value above it, its depth, its position among the values beside it,
its number and the number of the value above it. Depths, positions and numbers begin with one, and
nothing is numbered zero. -/
@[ext]
structure Spot (α : Type*) where
  up : Option α
  depth : ℕ
  index : ℕ
  number : ℕ
  parent : ℕ

namespace Spot

/-- Where the first value of a forest stands. -/
def top : Spot α where
  up := none
  depth := 1
  index := 1
  number := 1
  parent := 0

/-- The first place below the value. -/
def down (a : Spot α) (v : α) : Spot α where
  up := some v
  depth := a.depth + 1
  index := 1
  number := a.number + 1
  parent := a.number

/-- The next place beside a value with `n` values below it. -/
def next (a : Spot α) (n : ℕ) : Spot α :=
  { a with index := a.index + 1, number := a.number + 1 + n }

end Spot

/-- The values in depth-first order, with where they stand. -/
def places : Spot α → Forest α → List (α × Spot α)
  | _, nil => []
  | a, cons v children siblings =>
    (v, a) :: (places (a.down v) children ++ places (a.next children.size) siblings)

theorem map_fst_places (a : Spot α) (f : Forest α) : (f.places a).map Prod.fst = f.values := by
  induction f generalizing a with
  | nil => rfl
  | cons v children siblings ihchildren ihsiblings =>
    simp [places, values, ihchildren, ihsiblings]

/-- The numbers are the positions in depth-first order. -/
theorem map_number_places (a : Spot α) (f : Forest α) :
    (f.places a).map (fun p => p.2.number) = List.range' a.number f.size := by
  induction f generalizing a with
  | nil => rfl
  | cons v children siblings ihchildren ihsiblings =>
    rw [places, List.map_cons, List.map_append, ihchildren, ihsiblings, size, Nat.add_assoc,
      Nat.add_comm 1, List.range'_succ]
    exact congrArg _ List.range'_append_1

/-- What stands above a place: what stands above the forest, or the place with its parent's number,
which is one less deep. -/
theorem exists_up (a : Spot α) (f : Forest α) {p : α × Spot α} (hp : p ∈ f.places a) :
    (p.2.up = a.up ∧ p.2.parent = a.parent ∧ p.2.depth = a.depth) ∨
      ∃ q ∈ f.places a, p.2.up = some q.1 ∧ p.2.parent = q.2.number ∧
        p.2.depth = q.2.depth + 1 := by
  induction f generalizing a with
  | nil => exact absurd hp List.not_mem_nil
  | cons v children siblings ihchildren ihsiblings =>
    rw [places] at hp ⊢
    rcases List.mem_cons.mp hp with rfl | hp
    · exact .inl ⟨rfl, rfl, rfl⟩
    rcases List.mem_append.mp hp with hp | hp
    · refine .inr ?_
      rcases ihchildren _ hp with hup | ⟨q, hq, hup⟩
      · exact ⟨(v, a), List.mem_cons_self, hup⟩
      · exact ⟨q, List.mem_cons_of_mem _ (List.mem_append_left _ hq), hup⟩
    · rcases ihsiblings _ hp with hup | ⟨q, hq, hup⟩
      · exact .inl hup
      · exact .inr ⟨q, List.mem_cons_of_mem _ (List.mem_append_right _ hq), hup⟩

/-- A relation between every value and the one above it, which is `up` at the top. -/
def Linked (r : α → α → Prop) : Forest α → α → Prop
  | nil, _ => True
  | cons v children siblings, up => r v up ∧ children.Linked r v ∧ siblings.Linked r up

theorem Linked.of_mem_places {r : α → α → Prop} {root : α} {a : Spot α} {f : Forest α}
    (h : f.Linked r (a.up.getD root)) {p : α × Spot α} (hp : p ∈ f.places a) :
    r p.1 (p.2.up.getD root) := by
  induction f generalizing a with
  | nil => exact absurd hp List.not_mem_nil
  | cons v children siblings ihchildren ihsiblings =>
    obtain ⟨hv, hchildren, hsiblings⟩ := h
    rw [places] at hp
    rcases List.mem_cons.mp hp with rfl | hp
    · exact hv
    rcases List.mem_append.mp hp with hp | hp
    · exact ihchildren (a := a.down v) hchildren hp
    · exact ihsiblings (a := a.next children.size) hsiblings hp

end Forest
