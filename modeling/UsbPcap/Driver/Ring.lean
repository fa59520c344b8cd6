import UsbPcap.Driver.Buffer

/-!
# The capture buffer is a ring

`RingOk` is the shape of a state with a buffer, and `unread` its contents: the bytes from
`readOffset` up to `writeOffset`, going on at the start of the block after its end. One lemma for
each function of the driver says what it does to the shape and to the contents; the later modules
use these and never look at offsets again.
-/

namespace UsbPcap.Driver

open Memory Format

/-- A buffer of `bufferSize` bytes with both offsets inside it. -/
structure RingOk (p : RootHubData) : Prop where
  block : ∃ b, p.buffer = some b ∧ b.length = p.bufferSize
  read_lt : p.readOffset < p.bufferSize
  write_lt : p.writeOffset < p.bufferSize

/-- The bytes written and not yet read, in order. -/
def unread (p : RootHubData) : List UInt8 :=
  window (p.buffer.getD []) p.readOffset (getBufferAllocated p)

namespace RingOk

variable {p : RootHubData}

theorem length_buffer (h : RingOk p) : (p.buffer.getD []).length = p.bufferSize := by
  obtain ⟨b, hb, hlen⟩ := h.block
  rw [hb]
  exact hlen

theorem buffer_ne_none (h : RingOk p) : p.buffer ≠ none := by
  obtain ⟨b, hb, -⟩ := h.block
  rw [hb]
  exact Option.some_ne_none b

/-! ## Counting -/

/-- The ring is never filled completely: equal offsets always mean empty. -/
theorem allocated_lt (h : RingOk p) : getBufferAllocated p < p.bufferSize := by
  obtain ⟨-, hr, hw⟩ := h
  rw [getBufferAllocated]
  split
  · omega
  · split <;> omega

theorem free_add_allocated (h : RingOk p) :
    getBufferFree p + getBufferAllocated p = p.bufferSize - 1 := by
  have hb := h.buffer_ne_none
  obtain ⟨-, hr, hw⟩ := h
  rw [getBufferFree, if_neg hb, getBufferAllocated]
  split
  · omega
  · split <;> omega

/-- The unread bytes end at `writeOffset`. -/
theorem read_add_allocated (h : RingOk p) :
    (p.readOffset + getBufferAllocated p) % p.bufferSize = p.writeOffset := by
  obtain ⟨-, hr, hw⟩ := h
  rw [getBufferAllocated]
  split
  · rename_i heq
    rw [Nat.add_zero, heq, Nat.mod_eq_of_lt hw]
  · split
    · rw [show p.readOffset + (p.bufferSize - p.readOffset + p.writeOffset)
          = p.writeOffset + p.bufferSize from by omega, Nat.add_mod_right, Nat.mod_eq_of_lt hw]
    · rw [show p.readOffset + (p.writeOffset - p.readOffset) = p.writeOffset from by omega,
        Nat.mod_eq_of_lt hw]

theorem length_unread (h : RingOk p) : (unread p).length = getBufferAllocated p :=
  length_window (by rw [h.length_buffer]; exact h.read_lt.le)
    (by rw [h.length_buffer]; exact h.allocated_lt.le)

/-- Offsets that lie `n` bytes apart allocate `n` bytes. -/
theorem allocated_of_offset {n : ℕ} (hr : p.readOffset < p.bufferSize) (hn : n < p.bufferSize)
    (hw : p.writeOffset = (p.readOffset + n) % p.bufferSize) : getBufferAllocated p = n := by
  rw [getBufferAllocated, hw]
  by_cases hwrap : p.readOffset + n < p.bufferSize
  · rw [Nat.mod_eq_of_lt hwrap]
    split
    · omega
    · split <;> omega
  · rw [Nat.mod_eq_sub_mod (by omega), Nat.mod_eq_of_lt (by omega)]
    split
    · omega
    · split <;> omega

end RingOk

/-! ## Writing -/

/-- What a write of `data` does to a ring: the contents grow by `data`, nothing else moves. -/
structure Appends (p : RootHubData) (data : List UInt8) (q : RootHubData) : Prop where
  ring : RingOk q
  unread_eq : unread q = unread p ++ data
  bufferSize_eq : q.bufferSize = p.bufferSize
  snaplen_eq : q.snaplen = p.snaplen

theorem Appends.refl {p : RootHubData} (h : RingOk p) : Appends p [] p :=
  ⟨h, (List.append_nil _).symm, rfl, rfl⟩

theorem Appends.trans {p q r : RootHubData} {xs ys : List UInt8} (h : Appends p xs q)
    (h' : Appends q ys r) : Appends p (xs ++ ys) r where
  ring := h'.ring
  unread_eq := by rw [h'.unread_eq, h.unread_eq, List.append_assoc]
  bufferSize_eq := h'.bufferSize_eq.trans h.bufferSize_eq
  snaplen_eq := h'.snaplen_eq.trans h.snaplen_eq

/-- A write that ends before or at the end of the block. -/
theorem appends_of_contiguous {p : RootHubData} (h : RingOk p) {data : List UInt8}
    (hfree : data.length ≤ getBufferFree p) (hroom : data.length ≤ p.bufferSize - p.writeOffset) :
    Appends p data
      { p with
        buffer := some (copyInto (p.buffer.getD []) p.writeOffset data)
        writeOffset := (p.writeOffset + data.length) % p.bufferSize } := by
  have hlen := h.length_buffer
  have hcount := h.free_add_allocated
  have hsize : 0 < p.bufferSize := lt_of_le_of_lt (Nat.zero_le _) h.read_lt
  have hw := h.read_add_allocated
  have hwlt := h.write_lt
  set q : RootHubData :=
    { p with
      buffer := some (copyInto (p.buffer.getD []) p.writeOffset data)
      writeOffset := (p.writeOffset + data.length) % p.bufferSize } with hq
  have hcopy : (copyInto (p.buffer.getD []) p.writeOffset data).length = p.bufferSize := by
    rw [length_copyInto (by omega), hlen]
  -- the bytes come behind the unread ones, and one byte stays free
  have halloc : getBufferAllocated q = getBufferAllocated p + data.length := by
    refine RingOk.allocated_of_offset (p := q) h.read_lt (show _ < p.bufferSize by omega) ?_
    change (p.writeOffset + data.length) % p.bufferSize = _
    rw [← hw, Nat.mod_add_mod, Nat.add_assoc]
  refine ⟨⟨⟨_, rfl, hcopy⟩, h.read_lt, Nat.mod_lt _ hsize⟩, ?_, rfl, rfl⟩
  rw [unread, halloc]
  change window (copyInto (p.buffer.getD []) p.writeOffset data) p.readOffset _ = _
  rw [← hw, ← hlen]
  rw [← hlen] at hw
  exact window_copyInto (by rw [hlen]; exact h.read_lt) (by omega) (by omega)

/-- `USBPcapBufferWriteUnsafe` appends its data when there is room, also across the end of the
block: a wrapping write is two contiguous ones, the second at offset 0. -/
theorem bufferWriteUnsafe_appends {p : RootHubData} (h : RingOk p) {data : List UInt8}
    (hfree : data.length ≤ getBufferFree p) : Appends p data (bufferWriteUnsafe p data) := by
  rw [bufferWriteUnsafe]
  split
  · rename_i hroom
    exact appends_of_contiguous h hfree hroom
  · rename_i hroom
    have hcount := h.free_add_allocated
    have hlt := h.write_lt
    set tmp := p.bufferSize - p.writeOffset with htmp
    have hsplit : data.take tmp ++ data.drop tmp = data := List.take_append_drop tmp data
    have htake : (data.take tmp).length = tmp := by
      rw [List.length_take]
      omega
    have hdrop : (data.drop tmp).length = data.length - tmp := List.length_drop
    have hfirst := appends_of_contiguous h (show (data.take tmp).length ≤ _ by omega) (by omega)
    have hzero : (p.writeOffset + (data.take tmp).length) % p.bufferSize = 0 := by
      rw [htake, htmp, Nat.add_sub_cancel' hlt.le, Nat.mod_self]
    rw [hzero] at hfirst
    have hcount' := hfirst.ring.free_add_allocated
    have halloc' := hfirst.ring.length_unread
    rw [hfirst.unread_eq, List.length_append, h.length_unread, htake] at halloc'
    have hsize := hfirst.bufferSize_eq
    have hsecond := appends_of_contiguous hfirst.ring
      (show (data.drop tmp).length ≤ _ by omega) (by simp only; omega)
    have hboth := hfirst.trans hsecond
    rw [hsplit] at hboth
    have hoff : (0 + (data.drop tmp).length) % p.bufferSize = data.length - tmp := by
      rw [Nat.zero_add, hdrop, Nat.mod_eq_of_lt (by omega)]
    simp only [Option.getD_some, hoff] at hboth
    exact hboth

/-! ## Reading -/

/-- What a read of at most `n` bytes does to a ring: the first unread bytes go out. -/
structure Takes (p : RootHubData) (n : ℕ) (data : List UInt8) (q : RootHubData) : Prop where
  ring : RingOk q
  data_eq : data = (unread p).take n
  unread_eq : unread q = (unread p).drop n
  bufferSize_eq : q.bufferSize = p.bufferSize
  snaplen_eq : q.snaplen = p.snaplen

/-- Moving `readOffset` by `k` unread bytes, modulo the size of the block. -/
theorem takes_of_advance {p : RootHubData} (h : RingOk p) {k : ℕ}
    (hk : k ≤ getBufferAllocated p) :
    Takes p k (window (p.buffer.getD []) p.readOffset k)
      { p with readOffset := (p.readOffset + k) % p.bufferSize } := by
  have hlen := h.length_buffer
  have hlt := h.allocated_lt
  have hsize : 0 < p.bufferSize := lt_of_le_of_lt (Nat.zero_le _) h.read_lt
  set q : RootHubData := { p with readOffset := (p.readOffset + k) % p.bufferSize } with hq
  have hqr : q.readOffset < q.bufferSize := Nat.mod_lt _ hsize
  have halloc : getBufferAllocated q = getBufferAllocated p - k := by
    refine RingOk.allocated_of_offset (p := q) hqr (show _ < p.bufferSize by omega) ?_
    change p.writeOffset = ((p.readOffset + k) % p.bufferSize + _) % p.bufferSize
    rw [Nat.mod_add_mod, show p.readOffset + k + (getBufferAllocated p - k)
      = p.readOffset + getBufferAllocated p from by omega, h.read_add_allocated]
  -- the window splits into what is read and what stays
  have hsplit : unread p = window (p.buffer.getD []) p.readOffset k ++ unread q := by
    rw [unread, unread, halloc]
    have hwindow := window_add (show p.readOffset < (p.buffer.getD []).length by
      rw [hlen]; exact h.read_lt) (show k + (getBufferAllocated p - k) ≤ _ by omega)
    rw [hlen, Nat.add_sub_cancel' hk] at hwindow
    exact hwindow
  have hread : (window (p.buffer.getD []) p.readOffset k).length = k :=
    length_window (by rw [hlen]; exact h.read_lt.le) (by omega)
  refine ⟨⟨h.block, hqr, h.write_lt⟩, ?_, ?_, rfl, rfl⟩
  · rw [hsplit, List.take_left' hread]
  · rw [hsplit, List.drop_left' hread]

theorem takes_nil {p : RootHubData} (h : RingOk p) {n : ℕ}
    (hn : getBufferAllocated p = 0 ∨ n = 0) : Takes p n [] p := by
  have hlen := h.length_unread
  refine ⟨h, ?_, ?_, rfl, rfl⟩
  all_goals
    rcases hn with hn | rfl
    · rw [List.eq_nil_of_length_eq_zero (hlen.trans hn)]
      simp
    · simp

/-- `USBPcapBufferRead` takes the first `destBufferSize` unread bytes, or all there are. -/
theorem bufferRead_takes {p : RootHubData} (h : RingOk p) (n : ℕ) :
    Takes p n (bufferRead p n).1 (bufferRead p n).2 := by
  have hlen := h.length_buffer
  have hlt := h.allocated_lt
  have hwlt := h.write_lt
  have hrlt := h.read_lt
  rw [bufferRead]
  split
  · rename_i hnone
    exact takes_nil h hnone
  · rename_i hsome
    set toRead := if n < getBufferAllocated p then n else getBufferAllocated p with htoRead
    have hle : toRead ≤ getBufferAllocated p := by
      rw [htoRead]
      split <;> omega
    have hadv := takes_of_advance h hle
    -- reading `toRead` bytes is reading `n`: both stop at the last unread byte
    have hmin : ∀ {data q}, Takes p toRead data q → Takes p n data q := by
      intro data q ht
      have hu := h.length_unread
      refine ⟨ht.ring, ?_, ?_, ht.bufferSize_eq, ht.snaplen_eq⟩
      · rw [ht.data_eq, htoRead]
        split
        · rfl
        · rw [List.take_of_length_le (by omega), List.take_of_length_le (by omega)]
      · rw [ht.unread_eq, htoRead]
        split
        · rfl
        · rw [List.drop_of_length_le (by omega), List.drop_of_length_le (by omega)]
    apply hmin
    split
    · rename_i hlin
      have halloc : getBufferAllocated p = p.writeOffset - p.readOffset := by
        rw [getBufferAllocated, if_neg (by omega), if_neg (by omega)]
      rw [window_eq_slice (by omega)] at hadv
      exact hadv
    · rename_i hlin
      dsimp only
      split
      · rename_i htail
        rw [window_eq_slice (by omega)] at hadv
        exact hadv
      · rename_i htail
        rw [window_eq_wrapped (by omega) (by omega), hlen] at hadv
        have hmod : (p.readOffset + toRead) % p.bufferSize
            = toRead - (p.bufferSize - p.readOffset) := by
          rw [Nat.mod_eq_sub_mod (by omega), Nat.mod_eq_of_lt (by omega)]
          omega
        rw [hmod] at hadv
        have hall : ((p.buffer.getD []).drop p.readOffset).take (p.bufferSize - p.readOffset)
            = (p.buffer.getD []).drop p.readOffset :=
          List.take_of_length_le (by rw [List.length_drop, hlen])
        rw [show p.readOffset + toRead - p.bufferSize = toRead - (p.bufferSize - p.readOffset)
          from by omega, ← hall] at hadv
        exact hadv

/-- A read never frees or replaces the block. -/
theorem bufferRead_buffer (p : RootHubData) (n : ℕ) : (bufferRead p n).2.buffer = p.buffer := by
  unfold bufferRead
  dsimp only
  repeat' split
  all_goals rfl

theorem bufferRead_snaplen (p : RootHubData) (n : ℕ) : (bufferRead p n).2.snaplen = p.snaplen := by
  unfold bufferRead
  dsimp only
  repeat' split
  all_goals rfl

end UsbPcap.Driver
