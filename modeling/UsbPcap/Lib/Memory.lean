import Mathlib.Data.List.Basic
import Mathlib.Tactic.Common

/-!
# Copies into blocks and cyclic windows

A block is a list of cells. `copyInto` is a bounded memory copy into a block, and `window` reads
consecutive cells of a block as if its last cell were followed by its first one. The lemmas say how
a window splits when part of it is consumed and how it grows when cells behind it are written,
which is all a circular buffer needs.
-/

namespace Memory

variable {α : Type*}

/-! ## Bounded copies -/

/-- Overwrite the cells of `dst` from offset `off` on with `src`. -/
def copyInto (dst : List α) (off : ℕ) (src : List α) : List α :=
  dst.take off ++ src ++ dst.drop (off + src.length)

/-- A copy that stays inside the block keeps the block's size. -/
theorem length_copyInto {dst src : List α} {off : ℕ} (h : off + src.length ≤ dst.length) :
    (copyInto dst off src).length = dst.length := by
  simp only [copyInto, List.length_append, List.length_take, List.length_drop]
  omega

/-- A cell after an in-bounds copy: the copied cell inside the target range, the old one outside. -/
theorem getElem?_copyInto {dst src : List α} {off : ℕ} (h : off + src.length ≤ dst.length)
    (i : ℕ) :
    (copyInto dst off src)[i]? =
      if off ≤ i ∧ i < off + src.length then src[i - off]? else dst[i]? := by
  rw [copyInto, List.append_assoc, List.getElem?_append, List.getElem?_append,
    List.getElem?_take, List.getElem?_drop, List.length_take, Nat.min_eq_left (by omega)]
  by_cases hlo : i < off
  · rw [if_pos hlo, if_pos hlo, if_neg (by omega)]
  · rw [if_neg hlo]
    by_cases hhi : i - off < src.length
    · rw [if_pos hhi, if_pos (by omega)]
    · rw [if_neg hhi, if_neg (by omega)]
      congr 1
      omega

/-- Copying nothing changes nothing. -/
@[simp] theorem copyInto_nil (dst : List α) (off : ℕ) : copyInto dst off [] = dst := by
  simp [copyInto]

/-- A copy to the start of a block leaves the copied cells in front. -/
theorem take_copyInto_zero (dst src : List α) : (copyInto dst 0 src).take src.length = src := by
  simp [copyInto]

/-- The cells in front of the copied range are untouched. -/
theorem take_copyInto {dst src : List α} {off : ℕ} (h : off ≤ dst.length) :
    (copyInto dst off src).take (off + src.length) = dst.take off ++ src := by
  have hlen : (dst.take off ++ src).length = off + src.length := by
    rw [List.length_append, List.length_take, Nat.min_eq_left h]
  rw [copyInto, List.take_append_of_le_length (by omega), List.take_of_length_le (by omega)]

/-- Two copies, the second right behind the first, are one copy. -/
theorem copyInto_copyInto {dst xs : List α} (h : xs.length ≤ dst.length) (ys : List α) :
    copyInto (copyInto dst 0 xs) xs.length ys = copyInto dst 0 (xs ++ ys) := by
  have hlen : (xs ++ dst.drop xs.length).length = dst.length := by
    rw [List.length_append, List.length_drop]
    omega
  simp only [copyInto, List.take_zero, List.nil_append, Nat.zero_add]
  rw [List.take_left, List.drop_append, List.drop_drop, List.drop_of_length_le (by omega),
    List.nil_append, Nat.add_sub_cancel_left, List.length_append]

/-- Writing one cell and copying the rest behind it is one copy. -/
theorem copyInto_cons {dst : List α} {off : ℕ} (h : off < dst.length) (x : α) (xs : List α) :
    copyInto (dst.set off x) (off + 1) xs = copyInto dst off (x :: xs) := by
  have htake : (dst.set off x).take (off + 1) = dst.take off ++ [x] := by
    rw [List.take_set, List.take_succ_eq_append_getElem h,
      List.set_append_right _ _ (by rw [List.length_take]; omega)]
    simp only [List.length_take, Nat.min_eq_left (Nat.le_of_lt h), Nat.sub_self, List.set_cons_zero]
  have hdrop : (dst.set off x).drop (off + 1 + xs.length) = dst.drop (off + (x :: xs).length) := by
    rw [List.drop_set_of_lt (by omega), List.length_cons, Nat.add_assoc, Nat.add_comm 1]
  rw [copyInto, htake, hdrop, copyInto, List.append_assoc (dst.take off), List.singleton_append]

/-- A copy of the whole block's length replaces it. -/
theorem copyInto_whole {dst src : List α} (h : src.length = dst.length) :
    copyInto dst 0 src = src := by
  simp [copyInto, h]

/-! ## Cyclic windows -/

/-- The `n` cells that follow position `start`, going on from the first cell after the last. -/
def window (buf : List α) (start n : ℕ) : List α :=
  ((buf ++ buf).drop start).take n

/-- A window shorter than the block has the requested length. -/
theorem length_window {buf : List α} {start n : ℕ} (hs : start ≤ buf.length)
    (hn : n ≤ buf.length) : (window buf start n).length = n := by
  simp only [window, List.length_take, List.length_drop, List.length_append]
  omega

@[simp] theorem window_zero (buf : List α) (start : ℕ) : window buf start 0 = [] := by
  simp [window]

/-- Cell `i` of a window: the index wraps at most once. -/
theorem getElem?_window {buf : List α} {start n : ℕ} (i : ℕ) :
    (window buf start n)[i]? =
      if i < n then
        if start + i < buf.length then buf[start + i]? else buf[start + i - buf.length]?
      else none := by
  simp only [window, List.getElem?_take, List.getElem?_drop, List.getElem?_append]

/-- A window that does not reach the end of the block is a plain slice. -/
theorem window_eq_slice {buf : List α} {start n : ℕ} (h : start + n ≤ buf.length) :
    window buf start n = (buf.drop start).take n := by
  rw [window, List.drop_append_of_le_length (by omega),
    List.take_append_of_le_length (by simp; omega)]

/-- A window that goes past the end of the block is its tail followed by its first cells. -/
theorem window_eq_wrapped {buf : List α} {start n : ℕ} (hs : start ≤ buf.length)
    (h : buf.length ≤ start + n) :
    window buf start n = buf.drop start ++ buf.take (start + n - buf.length) := by
  rw [window, List.drop_append_of_le_length hs, List.take_append, List.length_drop,
    List.take_of_length_le (by simp; omega)]
  congr 2
  omega

/-- Consuming `k` cells splits a window at the advanced start, reduced modulo the block size. -/
theorem window_add {buf : List α} {start k m : ℕ} (hs : start < buf.length)
    (h : k + m ≤ buf.length) :
    window buf start (k + m) =
      window buf start k ++ window buf ((start + k) % buf.length) m := by
  apply List.ext_getElem?
  intro i
  have hlen : (window buf start k).length = k := length_window (by omega) (by omega)
  rw [List.getElem?_append, hlen]
  simp only [getElem?_window]
  by_cases hik : i < k
  · rw [if_pos hik, if_pos hik, if_pos (by omega)]
  · rw [if_neg hik]
    by_cases him : i < k + m
    · rw [if_pos him, if_pos (show i - k < m by omega)]
      by_cases hwrap : start + k < buf.length
      · rw [Nat.mod_eq_of_lt hwrap, show start + k + (i - k) = start + i from by omega]
      · have hmod : (start + k) % buf.length = start + k - buf.length := by
          rw [Nat.mod_eq_sub_mod (by omega), Nat.mod_eq_of_lt (by omega)]
        rw [hmod, if_neg (by omega), if_pos (by omega)]
        congr 1
        omega
    · rw [if_neg him, if_neg (show ¬ i - k < m by omega)]

/-- Writing `src` in one piece right behind a window appends `src` to the window. -/
theorem window_copyInto {buf src : List α} {start n : ℕ} (hs : start < buf.length)
    (hfit : n + src.length < buf.length)
    (hroom : (start + n) % buf.length + src.length ≤ buf.length) :
    window (copyInto buf ((start + n) % buf.length) src) start (n + src.length) =
      window buf start n ++ src := by
  have hsize : (copyInto buf ((start + n) % buf.length) src).length = buf.length :=
    length_copyInto hroom
  apply List.ext_getElem?
  intro i
  have hlen : (window buf start n).length = n := length_window (by omega) (by omega)
  rw [List.getElem?_append, hlen]
  simp only [getElem?_window, getElem?_copyInto hroom, hsize]
  have hmod : (start + n) % buf.length =
      if start + n < buf.length then start + n else start + n - buf.length := by
    split
    · exact Nat.mod_eq_of_lt ‹_›
    · rw [Nat.mod_eq_sub_mod (by omega), Nat.mod_eq_of_lt (by omega)]
  rw [hmod] at hroom ⊢
  by_cases hin : i < n
  · rw [if_pos hin, if_pos (show i < n + src.length by omega), if_pos hin]
    -- an old cell: the written range starts behind it
    split <;> (rw [if_neg]; split at hroom <;> split <;> omega)
  · rw [if_neg hin]
    by_cases hsrc : i < n + src.length
    · rw [if_pos hsrc]
      -- a new cell: it lies in the written range, before or after the wrap
      by_cases hw : start + n < buf.length
      · rw [if_pos hw] at hroom
        simp only [if_pos hw]
        rw [if_pos (by omega), if_pos (by omega)]
        congr 1
        omega
      · simp only [if_neg hw]
        rw [if_neg (by omega), if_pos (by omega)]
        congr 1
        omega
    · rw [if_neg hsrc, List.getElem?_eq_none (by omega)]

end Memory
