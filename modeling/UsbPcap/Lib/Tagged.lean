import Mathlib.Data.List.Nodup
import Mathlib.Tactic.Common

/-!
# Records saved as named values

A record is saved as the names and values of its fields, without the empty ones of the fields that
are tagged so, and loaded by assigning named values to a record of defaults, one after the other. On
the way from saving to loading, values may change. `load_save_iff` says when a record comes back: a
value that was saved has to survive the way, one that was left out has to be the default.
-/

namespace Tagged

variable {R V : Type}

/-- A field of the records in `R`. `set` fails on a value that the field cannot hold. -/
structure Field (R V : Type) where
  name : String
  omitEmpty : Bool
  get : R → V
  set : V → R → Option R

/-- The field of `x` is saved. -/
def Field.Saved (isEmpty : V → Bool) (f : Field R V) (x : R) : Prop :=
  ¬ (f.omitEmpty = true ∧ isEmpty (f.get x) = true)

instance (isEmpty : V → Bool) (f : Field R V) (x : R) : Decidable (f.Saved isEmpty x) :=
  inferInstanceAs (Decidable (¬ _))

/-- The names and values that are saved of `x`. -/
def save (isEmpty : V → Bool) (fields : List (Field R V)) (x : R) : List (String × V) :=
  fields.filterMap fun f => if f.Saved isEmpty x then some (f.name, f.get x) else none

/-- The field that a name means: the one with the name, else one that `folds` takes for it. -/
def lookup (folds : String → String → Bool) (fields : List (Field R V)) (name : String) :
    Option (Field R V) :=
  (fields.find? (·.name = name)).or (fields.find? fun f => folds f.name name)

/-- Assign named values to a record. Names that mean no field are skipped. -/
def load (folds : String → String → Bool) (fields : List (Field R V)) :
    List (String × V) → R → Option R
  | [], r => some r
  | (name, v) :: members, r =>
    match lookup folds fields name with
    | none => load folds fields members r
    | some f =>
      match f.set v r with
      | none => none
      | some r => load folds fields members r

/-- The fields have different names, together they are the record, and what is saved of a field can
be assigned to it again, as it then is, without changing another field. -/
structure Lawful (through : V → V) (fields : List (Field R V)) : Prop where
  nodup : (fields.map (·.name)).Nodup
  ext : ∀ r r' : R, (∀ f ∈ fields, f.get r = f.get r') → r = r'
  set : ∀ f ∈ fields, ∀ x r : R, ∃ r', f.set (through (f.get x)) r = some r' ∧
    f.get r' = through (f.get x) ∧ ∀ g ∈ fields, g.name ≠ f.name → g.get r' = g.get r

variable {isEmpty : V → Bool} {folds : String → String → Bool} {through : V → V}
  {fields : List (Field R V)}

/-- A field's own name means the field. -/
theorem lookup_name (hnodup : (fields.map (·.name)).Nodup) {f : Field R V} (hf : f ∈ fields) :
    lookup folds fields f.name = some f := by
  have hfind : fields.find? (·.name = f.name) = some f := by
    induction fields with
    | nil => exact absurd hf List.not_mem_nil
    | cons g fields ih =>
      rw [List.map_cons, List.nodup_cons] at hnodup
      by_cases hname : g.name = f.name
      · rcases List.mem_cons.mp hf with rfl | hmem
        · exact List.find?_cons_of_pos (decide_eq_true rfl)
        · have hin : f.name ∈ fields.map (·.name) := List.mem_map_of_mem hmem
          rw [← hname] at hin
          exact absurd hin hnodup.1
      · rw [List.find?_cons_of_neg (by rw [decide_eq_true_iff]; exact hname)]
        refine ih hnodup.2 (List.mem_of_ne_of_mem ?_ hf)
        rintro rfl
        exact hname rfl
  rw [lookup, hfind]
  rfl

theorem save_cons_saved {f : Field R V} {part : List (Field R V)} {x : R}
    (h : f.Saved isEmpty x) :
    save isEmpty (f :: part) x = (f.name, f.get x) :: save isEmpty part x :=
  List.filterMap_cons_some (if_pos h)

theorem save_cons_left_out {f : Field R V} {part : List (Field R V)} {x : R}
    (h : ¬ f.Saved isEmpty x) : save isEmpty (f :: part) x = save isEmpty part x :=
  List.filterMap_cons_none (if_neg h)

/-- Loading what was saved of a part of the fields sets the saved ones among these. -/
theorem load_save_part (hlawful : Lawful through fields) (x : R) {part : List (Field R V)}
    (hpart : ∀ f ∈ part, f ∈ fields) (hnodup : (part.map (·.name)).Nodup) (r : R) :
    ∃ r', load folds fields ((save isEmpty part x).map fun m => (m.1, through m.2)) r = some r' ∧
      ∀ g ∈ fields, g.get r' =
        if g.name ∈ part.map (·.name) ∧ g.Saved isEmpty x then through (g.get x)
        else g.get r := by
  induction part generalizing r with
  | nil =>
    refine ⟨r, rfl, fun g _ => ?_⟩
    rw [if_neg fun h => List.not_mem_nil h.1]
  | cons f part ih =>
    obtain ⟨hf, hrest⟩ := List.forall_mem_cons.mp hpart
    rw [List.map_cons, List.nodup_cons] at hnodup
    by_cases hsaved : f.Saved isEmpty x
    · obtain ⟨r₁, hset, hself, hframe⟩ := hlawful.set f hf x r
      obtain ⟨r', hload, hget⟩ := ih hrest hnodup.2 r₁
      refine ⟨r', ?_, fun g hg => ?_⟩
      · rw [save_cons_saved hsaved, List.map_cons, load, lookup_name hlawful.nodup hf]
        dsimp only
        rw [hset]
        exact hload
      · rw [hget g hg]
        by_cases hname : g.name = f.name
        · obtain rfl := List.inj_on_of_nodup_map hlawful.nodup hg hf hname
          rw [if_neg fun h => hnodup.1 h.1, if_pos ⟨List.mem_cons_self, hsaved⟩, hself]
        · simp only [hframe g hg hname, List.map_cons, List.mem_cons, hname, false_or]
    · obtain ⟨r', hload, hget⟩ := ih hrest hnodup.2 r
      refine ⟨r', ?_, fun g hg => ?_⟩
      · rw [save_cons_left_out hsaved]
        exact hload
      · rw [hget g hg]
        by_cases hname : g.name = f.name
        · obtain rfl := List.inj_on_of_nodup_map hlawful.nodup hg hf hname
          rw [if_neg fun h => hsaved h.2, if_neg fun h => hsaved h.2]
        · simp only [List.map_cons, List.mem_cons, hname, false_or]

/-- A record comes back if and only if what was saved of it survives the way and what was left out
is the default. -/
theorem load_save_iff (hlawful : Lawful through fields) (x d : R) :
    load folds fields ((save isEmpty fields x).map fun m => (m.1, through m.2)) d = some x ↔
      ∀ f ∈ fields,
        if f.Saved isEmpty x then through (f.get x) = f.get x else f.get d = f.get x := by
  obtain ⟨r, hload, hget⟩ :=
    @load_save_part _ _ isEmpty folds _ _ hlawful x fields (fun f hf => hf) hlawful.nodup d
  have hfield : ∀ f ∈ fields, f.get r =
      if f.Saved isEmpty x then through (f.get x) else f.get d := by
    intro f hf
    have hin : f.name ∈ fields.map (·.name) := List.mem_map_of_mem hf
    simp only [hget f hf, hin, true_and]
  rw [hload, Option.some.injEq]
  constructor
  · rintro rfl f hf
    have h := hfield f hf
    split at h
    · rename_i hsaved
      rw [if_pos hsaved]
      exact h.symm
    · rename_i hleft
      rw [if_neg hleft]
      exact h.symm
  · intro h
    apply hlawful.ext
    intro f hf
    have hf' := h f hf
    rw [hfield f hf]
    split at hf'
    · rename_i hsaved
      rw [if_pos hsaved, hf']
    · rename_i hleft
      rw [if_neg hleft, hf']

end Tagged
