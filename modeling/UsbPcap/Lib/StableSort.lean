import Mathlib.Data.List.Rotate

/-!
# Stable sorting and ties

A stable sort by a total preorder puts a list into an order that depends on the order of its input
exactly when two different elements of the list are tied. Rotations of the input are enough to
show it.
-/

namespace StableSort

variable {α : Type*} {le : α → α → Bool}

/-- The order does not tell the two apart. -/
def tied (le : α → α → Bool) (a b : α) : Bool := le a b && le b a

/-- No two different elements of the list are tied. -/
def NoTies (le : α → α → Bool) (l : List α) : Prop :=
  ∀ a ∈ l, ∀ b ∈ l, le a b = true → le b a = true → a = b

section

variable (trans : ∀ a b c, le a b = true → le b c = true → le a c = true)
  (total : ∀ a b, (le a b || le b a) = true)
include trans total

/-- Elements tied with one element stay in their order. -/
theorem filter_mergeSort (l : List α) (a : α) :
    (l.mergeSort le).filter (tied le a) = l.filter (tied le a) := by
  have hpairwise : (l.filter (tied le a)).Pairwise (le · · = true) := by
    refine List.pairwise_of_forall_mem_list fun b hb c hc => ?_
    have hba := (Bool.and_eq_true_iff.mp (List.mem_filter.mp hb).2).2
    have hac := (Bool.and_eq_true_iff.mp (List.mem_filter.mp hc).2).1
    exact trans b a c hba hac
  have hsub := (List.sublist_mergeSort trans total hpairwise List.filter_sublist).filter (tied le a)
  rw [List.filter_filter] at hsub
  simp only [Bool.and_self] at hsub
  refine (hsub.eq_of_length ?_).symm
  exact (((List.mergeSort_perm l le).filter (tied le a)).length_eq).symm

/-- Without ties the result depends only on the elements. -/
theorem mergeSort_eq_of_perm {l l' : List α} (hperm : l'.Perm l) (hties : NoTies le l) :
    l'.mergeSort le = l.mergeSort le := by
  have hsorted := List.pairwise_mergeSort trans total
  refine List.Perm.eq_of_pairwise ?_ (hsorted l') (hsorted l)
    ((List.mergeSort_perm l' le).trans (hperm.trans (List.mergeSort_perm l le).symm))
  intro a b ha hb
  exact hties a (hperm.mem_iff.mp (List.mem_mergeSort.mp ha)) b (List.mem_mergeSort.mp hb)

/-- A sort that no rotation changes finds no ties. -/
theorem noTies_of_mergeSort_rotate {l : List α}
    (h : ∀ k, (l.rotate k).mergeSort le = l.mergeSort le) : NoTies le l := by
  intro a ha b hb hab hba
  have hself : ∀ c, le c c = true := fun c => by
    have hcc := total c c
    rwa [Bool.or_self] at hcc
  -- every element tied with `a` can be rotated to the front of those that are
  have hhead : ∀ c ∈ l, tied le a c = true → (l.filter (tied le a)).head? = some c := by
    intro c hc htied
    obtain ⟨front, back, rfl⟩ := List.append_of_mem hc
    have hrotate := congrArg (List.filter (tied le a)) (h front.length)
    rw [filter_mergeSort trans total, filter_mergeSort trans total,
      List.rotate_append_length_eq, List.cons_append, List.filter_cons_of_pos htied] at hrotate
    rw [← hrotate]
    rfl
  have haa : tied le a a = true := Bool.and_eq_true_iff.mpr ⟨hself a, hself a⟩
  have hb' : tied le a b = true := Bool.and_eq_true_iff.mpr ⟨hab, hba⟩
  exact Option.some.inj ((hhead a ha haa).symm.trans (hhead b hb hb'))

end

end StableSort
