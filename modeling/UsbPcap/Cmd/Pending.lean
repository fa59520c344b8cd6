import UsbPcap.Cmd.Thread

/-!
# The parser's buffer

The pending bytes are the used part of an allocated block. With an allocator that never fails and
less than 2^31 bytes in all, `ensure_pending_capacity` makes room without a wrap-around, and
appending to and discarding from the block are appending and dropping on the pending bytes.
-/

namespace UsbPcap.Cmd

open Format Memory

/-- Every write takes all its bytes. -/
def Env.WritesSucceed (env : Env) : Prop :=
  ∀ index bytes, env.writeFile index bytes = .done ∨ env.writeFile index bytes = .pending bytes

/-- Every write takes all its bytes, and every allocation succeeds. -/
structure Env.Stores (env : Env) : Prop where
  writes : env.WritesSucceed
  realloc : ∀ b n, env.realloc b n ≠ none

/-- The output can be opened. -/
structure Env.Opens (env : Env) : Prop where
  stdout : env.stdoutValid = true
  createFile : env.createFile = true

/-- Everything the thread asks for succeeds. -/
structure Env.Succeeds (env : Env) : Prop extends env.Stores, env.Opens

/-- Writes end at once and `realloc` extends the block with zeros. -/
def Env.reliable : Env where
  stdoutValid := true
  createFile := true
  writeFile _ _ := .done
  realloc b n := some ((b ++ List.replicate n 0).take n)
  realloc_spec {b n b'} h := by
    obtain rfl := Option.some.inj h
    constructor
    · rw [List.length_take, List.length_append, List.length_replicate]
      omega
    · rw [List.take_take, Nat.min_eq_left (Nat.min_le_right _ _), Nat.min_comm,
        List.take_append_of_le_length (Nat.min_le_right _ _), ← List.take_eq_take_min]

/-- The reliable environment always succeeds. -/
theorem Env.reliable_succeeds : Env.reliable.Succeeds where
  writes _ _ := Or.inl rfl
  realloc _ _ := Option.some_ne_none _
  stdout := rfl
  createFile := rfl

/-- An allocator that is out of memory. -/
def Env.exhausted : Env where
  stdoutValid := true
  createFile := true
  writeFile _ _ := .done
  realloc _ _ := none
  realloc_spec h := by cases h

/-- The pending bytes. -/
def PacketParserContext.bytes (ctx : PacketParserContext) : List UInt8 :=
  ctx.pending.take ctx.pendingLen.toNat

/-- The block is as large as its recorded capacity, and the bytes in use fit. -/
structure BufferOk (ctx : PacketParserContext) : Prop where
  block : ctx.pending.length = ctx.pendingCapacity.toNat
  fits : ctx.pendingLen.toNat ≤ ctx.pendingCapacity.toNat

/-- A buffer without a block is sound. -/
theorem bufferOk_zero : BufferOk .zero := ⟨rfl, Nat.le_refl _⟩

/-- A sound buffer has as many pending bytes as it says. -/
theorem BufferOk.length_bytes {ctx : PacketParserContext} (h : BufferOk ctx) :
    ctx.bytes.length = ctx.pendingLen.toNat := by
  unfold PacketParserContext.bytes
  rw [List.length_take, h.block]
  exact Nat.min_eq_left h.fits

/-! ## Making room -/

/-- Doubling reaches a requirement below 2^31 before it wraps around. -/
theorem growCapacity_ok {fuel : ℕ} {capacity required : UInt32} (hpos : 0 < capacity.toNat)
    (hlt : required.toNat < 2 ^ 31) (hfuel : 0 < fuel)
    (henough : required.toNat < fuel + capacity.toNat) :
    ∃ c, growCapacity fuel capacity required = .ok c ∧ required.toNat ≤ c.toNat := by
  induction fuel generalizing capacity with
  | zero => omega
  | succ fuel ih =>
    unfold growCapacity
    by_cases h : capacity < required
    · rw [if_pos h]
      rw [UInt32.lt_iff_toNat_lt] at h
      have hdouble : (capacity * 2).toNat = capacity.toNat * 2 := by
        rw [UInt32.toNat_mul]
        apply Nat.mod_eq_of_lt
        change capacity.toNat * 2 < 2 ^ 32
        omega
      apply ih
      · omega
      · omega
      · omega
    · rw [if_neg h]
      rw [UInt32.lt_iff_toNat_lt] at h
      exact ⟨capacity, rfl, by omega⟩

/-- Growing touches no byte. -/
theorem growCapacity_ne_outOfBounds (fuel : ℕ) (capacity required : UInt32) :
    growCapacity fuel capacity required ≠ .error .outOfBounds := by
  induction fuel generalizing capacity with
  | zero =>
    intro h
    cases h
  | succ fuel ih =>
    unfold growCapacity
    split
    · exact ih _
    · intro h
      cases h

/-- Where the doubling loop ends, the requirement is met. -/
theorem growCapacity_le {fuel : ℕ} {capacity required c : UInt32}
    (h : growCapacity fuel capacity required = .ok c) : required.toNat ≤ c.toNat := by
  induction fuel generalizing capacity with
  | zero => cases h
  | succ fuel ih =>
    unfold growCapacity at h
    split at h
    · exact ih h
    · rename_i hle
      rw [UInt32.lt_iff_toNat_lt] at hle
      rw [← Except.ok.inj h]
      omega

/-- The size that a call of `ensure_pending_capacity` asks for when it needs a larger block. -/
def enlargedCapacity (fuel : ℕ) (ctx : PacketParserContext) (additional : UInt32) :
    Except Fault UInt32 :=
  if ctx.pendingCapacity = 0 then .ok (ctx.pendingLen + additional)
  else growCapacity fuel ctx.pendingCapacity (ctx.pendingLen + additional)

/-- What the call returns once it has asked for `size` bytes. -/
def grant (env : Env) (ctx : PacketParserContext) (size : UInt32) : Bool × PacketParserContext :=
  match env.realloc ctx.pending size.toNat with
  | none => (false, { ctx with pendingCapacity := size })
  | some tmp => (true, { ctx with pendingCapacity := size, pending := tmp })

section Call

variable {env : Env} {ctx : PacketParserContext} {additional : UInt32}

/-- A call that finds the 32-bit sum within the recorded capacity changes nothing. -/
theorem ensurePendingCapacity_fits (h : ctx.pendingLen + additional ≤ ctx.pendingCapacity)
    (fuel : ℕ) : ensurePendingCapacity env fuel ctx additional = .ok (true, ctx) := by
  rw [ensurePendingCapacity]
  exact if_pos h

/-- Any other call ends with the answer of `realloc`, if the doubling ends. -/
theorem ensurePendingCapacity_grows (h : ¬ ctx.pendingLen + additional ≤ ctx.pendingCapacity)
    (fuel : ℕ) : ensurePendingCapacity env fuel ctx additional =
      (enlargedCapacity fuel ctx additional).map (grant env ctx) := by
  rw [ensurePendingCapacity, if_neg h, enlargedCapacity]
  generalize (if ctx.pendingCapacity = 0 then Except.ok (ctx.pendingLen + additional)
    else growCapacity fuel ctx.pendingCapacity (ctx.pendingLen + additional)) = grown
  cases grown with
  | error fault => rfl
  | ok capacity =>
    rw [Except.map, grant]
    dsimp only
    cases env.realloc ctx.pending capacity.toNat with
    | none => rfl
    | some tmp => rfl

/-- The sum does not wrap. -/
theorem toNat_sum (h : ctx.pendingLen.toNat + additional.toNat < 2 ^ 32) :
    (ctx.pendingLen + additional).toNat = ctx.pendingLen.toNat + additional.toNat := by
  rw [UInt32.toNat_add]
  exact Nat.mod_eq_of_lt h

/-- The new capacity is enough. -/
theorem enlargedCapacity_le {fuel : ℕ} {c : UInt32}
    (h : enlargedCapacity fuel ctx additional = .ok c) :
    (ctx.pendingLen + additional).toNat ≤ c.toNat := by
  rw [enlargedCapacity] at h
  split at h
  · rw [Except.ok.inj h]
  · exact growCapacity_le h

/-- Below 2^31 bytes the size is only missing when the fuel is. -/
theorem enlargedCapacity_error {fuel : ℕ} {fault : Fault}
    (hlt : (ctx.pendingLen + additional).toNat < 2 ^ 31)
    (h : enlargedCapacity fuel ctx additional = .error fault) :
    fault = .outOfFuel ∧ fuel ≤ (ctx.pendingLen + additional).toNat := by
  rw [enlargedCapacity] at h
  split at h
  · cases h
  · rename_i hzero
    have hpos : 0 < ctx.pendingCapacity.toNat :=
      Nat.pos_of_ne_zero fun hnat => hzero (UInt32.toNat_inj.mp hnat)
    cases fault with
    | outOfFuel =>
      refine ⟨rfl, ?_⟩
      by_contra hfuel
      obtain ⟨c, hc, -⟩ := @growCapacity_ok fuel _ _ hpos hlt (by omega) (by omega)
      rw [h] at hc
      cases hc
    | outOfBounds => exact absurd h (growCapacity_ne_outOfBounds _ _ _)

end Call

/-- `ctx` with a block that has room for `n` bytes and still holds the pending ones. -/
def HasRoom (ctx : PacketParserContext) (n : ℕ) (block : List UInt8) (capacity : UInt32) : Prop :=
  block.length = capacity.toNat ∧ n ≤ capacity.toNat ∧
    block.take ctx.pendingLen.toNat = ctx.bytes

/-- A larger block has the old one in front, and so the pending bytes. -/
theorem BufferOk.hasRoom_of_realloc {env : Env} {ctx : PacketParserContext} (h : BufferOk ctx)
    {n : ℕ} {capacity : UInt32} {block : List UInt8}
    (hblock : env.realloc ctx.pending capacity.toNat = some block)
    (hold : ctx.pendingCapacity.toNat ≤ capacity.toNat) (hle : n ≤ capacity.toNat) :
    HasRoom ctx n block capacity := by
  obtain ⟨hlen, htake⟩ := env.realloc_spec hblock
  have hlength := h.block
  have hfits := h.fits
  refine ⟨hlen, hle, ?_⟩
  rw [Nat.min_eq_left (by omega), List.take_of_length_le (l := ctx.pending) (by omega)] at htake
  unfold PacketParserContext.bytes
  rw [← htake, List.take_take, Nat.min_eq_left (by omega)]

/-- Everything a call of `ensure_pending_capacity` can do: not end, fail to allocate, or make
room. -/
theorem ensurePendingCapacity_cases {env : Env} {ctx : PacketParserContext} (hb : BufferOk ctx)
    {additional : UInt32} (hlt : ctx.pendingLen.toNat + additional.toNat < 2 ^ 31) (fuel : ℕ) :
    (ensurePendingCapacity env fuel ctx additional = .error .outOfFuel ∧
      fuel ≤ ctx.pendingLen.toNat + additional.toNat) ∨
    (∃ capacity : UInt32, env.realloc ctx.pending capacity.toNat = none ∧
      ensurePendingCapacity env fuel ctx additional =
        .ok (false, { ctx with pendingCapacity := capacity })) ∨
    (∃ block capacity, HasRoom ctx (ctx.pendingLen.toNat + additional.toNat) block capacity ∧
      ensurePendingCapacity env fuel ctx additional =
        .ok (true, { ctx with pending := block, pendingCapacity := capacity })) := by
  have hsum := @toNat_sum ctx additional (by omega)
  by_cases hroom : ctx.pendingLen + additional ≤ ctx.pendingCapacity
  · rw [ensurePendingCapacity_fits hroom]
    rw [UInt32.le_iff_toNat_le, hsum] at hroom
    exact Or.inr (Or.inr ⟨ctx.pending, ctx.pendingCapacity, ⟨hb.block, hroom, rfl⟩, rfl⟩)
  · rw [ensurePendingCapacity_grows hroom]
    rw [UInt32.le_iff_toNat_le, hsum] at hroom
    cases hgrow : enlargedCapacity fuel ctx additional with
    | error fault =>
      obtain ⟨rfl, hfuel⟩ := enlargedCapacity_error (hsum ▸ hlt) hgrow
      exact Or.inl ⟨rfl, hsum ▸ hfuel⟩
    | ok capacity =>
      right
      have hle := enlargedCapacity_le hgrow
      rw [hsum] at hle
      change (∃ c, _ ∧ Except.ok (grant env ctx capacity) = _) ∨
        ∃ block c, _ ∧ Except.ok (grant env ctx capacity) = _
      rw [grant]
      cases hblock : env.realloc ctx.pending capacity.toNat with
      | none => exact Or.inl ⟨capacity, hblock, rfl⟩
      | some block =>
        exact Or.inr ⟨block, capacity, hb.hasRoom_of_realloc hblock (by omega) hle, rfl⟩

/-- `ensure_pending_capacity` finds a block for all the bytes and keeps those that are pending. -/
theorem ensurePendingCapacity_ok {env : Env} (he : env.Stores) {ctx : PacketParserContext}
    (hb : BufferOk ctx) {additional : UInt32} {fuel : ℕ}
    (hlt : ctx.pendingLen.toNat + additional.toNat < 2 ^ 31)
    (hfuel : ctx.pendingLen.toNat + additional.toNat < fuel) :
    ∃ block capacity,
      ensurePendingCapacity env fuel ctx additional =
        .ok (true, { ctx with pending := block, pendingCapacity := capacity }) ∧
      block.length = capacity.toNat ∧
      ctx.pendingLen.toNat + additional.toNat ≤ capacity.toNat ∧
      block.take ctx.pendingLen.toNat = ctx.bytes := by
  rcases @ensurePendingCapacity_cases env _ hb _ hlt fuel with
    ⟨-, hshort⟩ | ⟨c, hnone, -⟩ | ⟨block, c, hroom, hok⟩
  · omega
  · exact absurd hnone (he.realloc _ _)
  · exact ⟨block, c, hok, hroom⟩

/-! ## Appending and discarding -/

/-- With room, the bytes are appended. -/
theorem appendPending_ok {ctx : PacketParserContext} (hb : BufferOk ctx) {buffer : List UInt8}
    (hlt : ctx.pendingLen.toNat + buffer.length < 2 ^ 31)
    (hroom : ctx.pendingLen.toNat + buffer.length ≤ ctx.pending.length) :
    BufferOk (appendPending ctx buffer) ∧
      (appendPending ctx buffer).bytes = ctx.bytes ++ buffer := by
  have hlen : (ctx.pendingLen + UInt32.ofNat buffer.length).toNat =
      ctx.pendingLen.toNat + buffer.length := by
    rw [UInt32.toNat_add, UInt32.toNat_ofNat']
    omega
  have hblock := hb.block
  refine ⟨⟨?_, ?_⟩, ?_⟩
  · exact (length_copyInto hroom).trans hblock
  · change (ctx.pendingLen + UInt32.ofNat buffer.length).toNat ≤ ctx.pendingCapacity.toNat
    omega
  · change (copyInto _ _ _).take (ctx.pendingLen + UInt32.ofNat buffer.length).toNat = _
    rw [hlen, take_copyInto (by omega)]
    rfl

/-- Discarding drops them from the front. -/
theorem discardPending_ok {ctx : PacketParserContext} (hb : BufferOk ctx) {n : UInt32}
    (hn : n.toNat ≤ ctx.pendingLen.toNat) :
    BufferOk (discardPending ctx n) ∧ (discardPending ctx n).bytes = ctx.bytes.drop n.toNat := by
  have hsub : (ctx.pendingLen - n).toNat = ctx.pendingLen.toNat - n.toNat :=
    UInt32.toNat_sub_of_le _ _ (UInt32.le_iff_toNat_le.mpr hn)
  have hblock := hb.block
  have hfits := hb.fits
  have hrest : ((ctx.pending.drop n.toNat).take (ctx.pendingLen - n).toNat).length =
      (ctx.pendingLen - n).toNat := by
    rw [List.length_take, List.length_drop]
    omega
  refine ⟨⟨?_, ?_⟩, ?_⟩
  · exact (length_copyInto (by omega)).trans hblock
  · change (ctx.pendingLen - n).toNat ≤ ctx.pendingCapacity.toNat
    omega
  · change (copyInto ctx.pending 0 _).take (ctx.pendingLen - n).toNat = _
    have htake := take_copyInto_zero ctx.pending
      ((ctx.pending.drop n.toNat).take (ctx.pendingLen - n).toNat)
    rw [hrest] at htake
    unfold PacketParserContext.bytes
    rw [htake, hsub, List.drop_take]

end UsbPcap.Cmd
