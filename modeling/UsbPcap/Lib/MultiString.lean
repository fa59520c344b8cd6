import Mathlib.Algebra.Order.Ring.Nat
import Mathlib.Data.List.Basic
import Mathlib.Data.List.TakeWhile
import Mathlib.Tactic.Common

/-!
# Multi-strings

Terminated strings over any alphabet with a zero, and lists of them in one block: each string is
followed by a zero, and the last one by another zero. A string in the block is given by where it
starts.
-/

namespace MultiString

variable {α : Type*} [Zero α] [DecidableEq α]

/-- The string in front of the first zero. -/
def terminated (block : List α) : List α := block.takeWhile (· ≠ 0)

/-- The strings, each with its zero, and the last zero. -/
def encode (strings : List (List α)) : List α := strings.flatMap (· ++ [0]) ++ [0]

/-- Where the strings start in a block whose first string starts at `offset`. -/
def starts : ℕ → List (List α) → List ℕ
  | _, [] => []
  | offset, s :: strings => offset :: starts (offset + s.length + 1) strings

omit [DecidableEq α] in
theorem encode_cons (s : List α) (strings : List (List α)) :
    encode (s :: strings) = s ++ 0 :: encode strings := by
  rw [encode, List.flatMap_cons, List.append_assoc, List.append_assoc]
  rfl

omit [DecidableEq α] in
theorem length_encode (strings : List (List α)) :
    (encode strings).length = (strings.map fun s => s.length + 1).sum + 1 := by
  rw [encode, List.length_append, List.length_flatMap]
  simp only [List.length_append, List.length_singleton]

omit [Zero α] [DecidableEq α] in
theorem length_starts (offset : ℕ) (strings : List (List α)) :
    (starts offset strings).length = strings.length := by
  induction strings generalizing offset with
  | nil => rfl
  | cons s strings ih => rw [starts, List.length_cons, ih, List.length_cons]

theorem terminated_eq_self {s : List α} (h : 0 ∉ s) : terminated s = s :=
  List.takeWhile_eq_self_iff.mpr fun _ hc => decide_eq_true fun hzero => h (hzero ▸ hc)

/-- A string without zeros is what stands in front of its zero. -/
theorem terminated_append {s : List α} (h : 0 ∉ s) (rest : List α) :
    terminated (s ++ 0 :: rest) = s := by
  have hne : ∀ c ∈ s, decide (c ≠ 0) = true := fun _ hc =>
    decide_eq_true fun hzero => h (hzero ▸ hc)
  rw [terminated, List.takeWhile_append_of_pos hne, List.takeWhile_cons_of_neg (by simp),
    List.append_nil]

/-- The starts lead to the strings, whatever stands in front and behind. -/
theorem map_terminated_starts {strings : List (List α)} (h : ∀ s ∈ strings, 0 ∉ s)
    (front behind : List α) :
    (starts front.length strings).map
        (fun start => terminated ((front ++ (encode strings ++ behind)).drop start)) =
      strings := by
  induction strings generalizing front with
  | nil => rfl
  | cons s strings ih =>
    have hsplit : front ++ (encode (s :: strings) ++ behind) =
        (front ++ (s ++ [0])) ++ (encode strings ++ behind) := by
      simp only [encode_cons, List.append_assoc, List.cons_append, List.nil_append]
    have hlength : (front ++ (s ++ [0])).length = front.length + s.length + 1 := by
      simp only [List.length_append, List.length_singleton, Nat.add_assoc]
    have hrest := ih (fun s hs => h s (List.mem_cons_of_mem _ hs)) (front ++ (s ++ [0]))
    rw [hlength, ← hsplit] at hrest
    rw [starts, List.map_cons, hrest, List.drop_left, encode_cons, List.append_assoc]
    exact congrArg (· :: strings) (terminated_append (h s List.mem_cons_self) _)

omit [DecidableEq α] in
/-- A block of strings in another alphabet. -/
theorem map_encode {β : Type*} [Zero β] {f : α → β} (h : f 0 = 0) (strings : List (List α)) :
    (encode strings).map f = encode (strings.map (List.map f)) := by
  induction strings with
  | nil => exact congrArg (fun c => [c]) h
  | cons s strings ih =>
    rw [encode_cons, List.map_append, List.map_cons, ih, h, List.map_cons, encode_cons]

omit [DecidableEq α] in
/-- A block is longer than each of its strings. -/
theorem length_lt_encode {s : List α} {strings : List (List α)} (h : s ∈ strings) :
    s.length + 1 < (encode strings).length := by
  induction strings with
  | nil => exact absurd h List.not_mem_nil
  | cons t strings ih =>
    rw [encode_cons, List.length_append, List.length_cons]
    rcases List.mem_cons.mp h with rfl | hmem
    · have hpos : 0 < (encode strings).length := List.length_pos_of_ne_nil (by simp [encode])
      omega
    · have hrest := ih hmem
      omega

omit [DecidableEq α] in
/-- A block has at least as many zeros as strings. -/
theorem count_lt_encode (strings : List (List α)) : strings.length < (encode strings).length := by
  induction strings with
  | nil => exact Nat.zero_lt_one
  | cons s strings ih =>
    rw [encode_cons, List.length_append, List.length_cons, List.length_cons]
    omega

/-! ## Reading a block -/

/-- The strings that end at a zero of the block, the first one with `s` in front. -/
def piecesFrom : {s : List α // 0 ∉ s} → List α → List {s : List α // 0 ∉ s}
  | _, [] => []
  | s, c :: block =>
    if h : c = 0 then s :: piecesFrom ⟨[], List.not_mem_nil⟩ block
    else
      piecesFrom ⟨s.1 ++ [c], fun hmem => (List.mem_append.mp hmem).elim s.2 fun hc =>
        h (List.mem_singleton.mp hc).symm⟩ block

/-- The strings of a block in front of its last zero. -/
def pieces (block : List α) : List {s : List α // 0 ∉ s} :=
  piecesFrom ⟨[], List.not_mem_nil⟩ block.dropLast

theorem piecesFrom_append (s : {s : List α // 0 ∉ s}) {t : List α} (h : 0 ∉ t) (block : List α) :
    (piecesFrom s (t ++ 0 :: block)).map Subtype.val =
      (s.1 ++ t) :: (piecesFrom ⟨[], List.not_mem_nil⟩ block).map Subtype.val := by
  induction t generalizing s with
  | nil =>
    rw [List.nil_append, piecesFrom, dif_pos rfl, List.map_cons, List.append_nil]
  | cons c t ih =>
    rw [List.mem_cons, not_or] at h
    rw [List.cons_append, piecesFrom, dif_neg (Ne.symm h.1), ih _ h.2, List.append_assoc]
    rfl

/-- A block of strings is read as these strings. -/
theorem map_pieces_encode {strings : List (List α)} (h : ∀ s ∈ strings, 0 ∉ s) :
    (pieces (encode strings)).map Subtype.val = strings := by
  rw [pieces, encode, List.dropLast_concat]
  induction strings with
  | nil => rfl
  | cons s strings ih =>
    rw [List.flatMap_cons, List.append_assoc, List.singleton_append,
      piecesFrom_append _ (h s List.mem_cons_self), List.nil_append,
      ih fun t ht => h t (List.mem_cons_of_mem s ht)]

end MultiString
