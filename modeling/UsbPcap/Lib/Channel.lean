import Mathlib.Data.List.Basic
import Mathlib.Tactic.Common

/-!
# Bounded channels with their history

What a bounded first-in first-out buffer is for: everything written to it comes out once and in
order. A `Channel` carries the history of its writes and reads and, as fields, that its contents
fit its capacity and that nothing written was lost, duplicated or reordered. Its operations are the
only ways to build one, so a program state that refines a channel inherits both facts.
-/

/-- A bounded channel: what it holds, what was written to it and what was read from it. -/
structure Channel (α : Type*) where
  capacity : ℕ
  items : List α
  written : List α
  delivered : List α
  fits : items.length ≤ capacity
  conserved : delivered ++ items = written

namespace Channel

variable {α : Type*}

/-- A new channel that already holds `data`. -/
def start (capacity : ℕ) (data : List α) (h : data.length ≤ capacity) : Channel α where
  capacity := capacity
  items := data
  written := data
  delivered := []
  fits := h
  conserved := rfl

/-- Write `data` behind what the channel holds. -/
def write (c : Channel α) (data : List α) (h : c.items.length + data.length ≤ c.capacity) :
    Channel α where
  capacity := c.capacity
  items := c.items ++ data
  written := c.written ++ data
  delivered := c.delivered
  fits := by rwa [List.length_append]
  conserved := by rw [← List.append_assoc, c.conserved]

/-- Read up to `n` items. -/
def read (c : Channel α) (n : ℕ) : Channel α where
  capacity := c.capacity
  items := c.items.drop n
  written := c.written
  delivered := c.delivered ++ c.items.take n
  fits := by
    have := c.fits
    rw [List.length_drop]
    omega
  conserved := by rw [List.append_assoc, List.take_append_drop, c.conserved]

/-- Change the capacity; what the channel holds must fit. -/
def resize (c : Channel α) (capacity : ℕ) (h : c.items.length ≤ capacity) : Channel α where
  capacity := capacity
  items := c.items
  written := c.written
  delivered := c.delivered
  fits := h
  conserved := c.conserved

end Channel
