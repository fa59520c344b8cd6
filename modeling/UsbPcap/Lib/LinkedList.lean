import Mathlib.Data.List.Basic
import Mathlib.Tactic.Common

/-!
# Singly linked lists

Nodes in a heap, a list of cells addressed by position, with a pointer to the next node. `Segment`
reads a list off the pointers, and `Linked` says that it ends in a given last node. The lemmas are
about linking a new node behind the last one.
-/

namespace LinkedList

variable {α : Type*}

/-- A value and the address of the next node. -/
structure Node (α : Type*) where
  value : α
  next : Option ℕ
deriving DecidableEq, Repr

/-- From `p`, the pointers lead through the values `l` to `q`, by addresses below `bound`. -/
def Segment (heap : List (Node α)) (bound : ℕ) : Option ℕ → List α → Option ℕ → Prop
  | p, [], q => p = q
  | p, x :: l, q =>
    ∃ a next, p = some a ∧ a < bound ∧ heap[a]? = some ⟨x, next⟩ ∧ Segment heap bound next l q

/-- From `p`, the pointers lead through the values `l`, the last of which is in the last node. -/
def Linked (heap : List (Node α)) (p : Option ℕ) (l : List α) (last : ℕ) : Prop :=
  ∃ front x, l = front ++ [x] ∧ last + 1 = heap.length ∧ heap[last]? = some ⟨x, none⟩ ∧
    Segment heap last p front (some last)

/-- A segment is read off the cells below its bound. -/
theorem Segment.congr {heap heap' : List (Node α)} {bound : ℕ} {p q : Option ℕ} {l : List α}
    (h : Segment heap bound p l q) (hheap : ∀ a < bound, heap'[a]? = heap[a]?) :
    Segment heap' bound p l q := by
  induction l generalizing p with
  | nil => exact h
  | cons x l ih =>
    obtain ⟨a, next, hp, ha, hnode, hrest⟩ := h
    exact ⟨a, next, hp, ha, (hheap a ha).trans hnode, ih hrest⟩

/-- One more node. -/
theorem Segment.concat {heap : List (Node α)} {bound last : ℕ} {p q : Option ℕ} {l : List α}
    {x : α} (h : Segment heap bound p l (some last)) (hbound : bound ≤ last)
    (hnode : heap[last]? = some ⟨x, q⟩) : Segment heap (last + 1) p (l ++ [x]) q := by
  induction l generalizing p with
  | nil => exact ⟨last, q, h, Nat.lt_succ_self last, hnode, rfl⟩
  | cons y l ih =>
    obtain ⟨a, next, hp, ha, hcell, hrest⟩ := h
    exact ⟨a, next, hp, by omega, hcell, ih hrest⟩

/-- The whole list ends in the null pointer. -/
theorem Linked.segment {heap : List (Node α)} {p : Option ℕ} {l : List α} {last : ℕ}
    (h : Linked heap p l last) : Segment heap heap.length p l none := by
  obtain ⟨front, x, rfl, hlast, hnode, hsegment⟩ := h
  rw [← hlast]
  exact hsegment.concat (Nat.le_refl _) hnode

/-- A list of one node. -/
theorem linked_singleton (x : α) : Linked [Node.mk x none] (some 0) [x] 0 :=
  ⟨[], x, rfl, rfl, rfl, rfl⟩

/-- A new node behind the last one. -/
theorem Linked.insert {heap : List (Node α)} {p : Option ℕ} {l : List α} {last : ℕ}
    (h : Linked heap p l last) (y : α) :
    Linked
      ((heap ++ [Node.mk y none]).modify last fun node => { node with next := some heap.length })
      p (l ++ [y]) heap.length := by
  obtain ⟨front, x, rfl, hlast, hnode, hsegment⟩ := h
  have hbelow : ∀ a < last,
      ((heap ++ [Node.mk y none]).modify last fun node =>
        { node with next := some heap.length })[a]? = heap[a]? := by
    intro a ha
    rw [List.getElem?_modify_ne _ _ (by omega), List.getElem?_append_left (by omega)]
  refine ⟨front ++ [x], y, rfl, ?_, ?_, ?_⟩
  · rw [List.length_modify, List.length_append, List.length_singleton]
  · rw [List.getElem?_modify_ne _ _ (by omega), List.getElem?_append_right (Nat.le_refl _),
      Nat.sub_self]
    rfl
  · have hwhole := (hsegment.congr hbelow).concat (x := x) (q := some heap.length)
      (Nat.le_refl _) (by
        rw [List.getElem?_modify_eq, List.getElem?_append_left (by omega), hnode]
        rfl)
    rwa [hlast] at hwhole

end LinkedList
