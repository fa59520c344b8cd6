import UsbPcap.Cmd.Pending

/-!
# The recorded capacity

`ensure_pending_capacity` adds and doubles in 32 bits and records the new capacity before it knows
whether `realloc` grants it. A sum that wraps is not noticed, a capacity that is doubled past the
32 bits may never reach the sum, and after a failed `realloc` the recorded capacity is larger than
the block. This file says for every call, also for those that `Cmd/Pending` leaves out, what it
returns, and when the block is as large as it is recorded to be.
-/

namespace UsbPcap.Cmd

open Memory

/-! ## Doubling in 32 bits -/

/-- The capacity after `k` doublings. -/
def doubled (capacity : UInt32) : ℕ → UInt32
  | 0 => capacity
  | k + 1 => doubled (capacity * 2) k

theorem toNat_doubled (capacity : UInt32) (k : ℕ) :
    (doubled capacity k).toNat = capacity.toNat * 2 ^ k % 2 ^ 32 := by
  induction k generalizing capacity with
  | zero =>
    rw [pow_zero, Nat.mul_one]
    exact (Nat.mod_eq_of_lt capacity.toNat_lt).symm
  | succ k ih =>
    have htwice : (capacity * 2).toNat = capacity.toNat * 2 % 2 ^ 32 := UInt32.toNat_mul _ _
    rw [doubled, ih, htwice, Nat.mod_mul_mod, Nat.mul_assoc, ← Nat.pow_succ']

/-- The first doubling of `capacity`, in 32 bits, that is at least `required` is `size`. -/
def FirstDoubling (capacity required size : ℕ) : Prop :=
  ∃ k, size = capacity * 2 ^ k % 2 ^ 32 ∧ required ≤ size ∧
    ∀ j < k, capacity * 2 ^ j % 2 ^ 32 < required

/-- The doubling loop ends with the first doubling that meets the requirement, given fuel for the
doublings before it. -/
theorem growCapacity_eq_ok_iff {fuel : ℕ} {capacity required c : UInt32} :
    growCapacity fuel capacity required = .ok c ↔
      ∃ k < fuel, c = doubled capacity k ∧ required ≤ c ∧
        ∀ j < k, doubled capacity j < required := by
  induction fuel generalizing capacity with
  | zero =>
    constructor
    · intro h
      cases h
    · rintro ⟨k, hk, -⟩
      exact absurd hk (Nat.not_lt_zero k)
  | succ fuel ih =>
    rw [growCapacity]
    by_cases hlt : capacity < required
    · rw [if_pos hlt, ih]
      -- one doubling more, and the induction counts from the doubled capacity
      constructor
      · rintro ⟨k, hk, hc, hle, hbefore⟩
        refine ⟨k + 1, Nat.succ_lt_succ hk, hc, hle, fun j hj => ?_⟩
        cases j with
        | zero => exact hlt
        | succ j => exact hbefore j (Nat.lt_of_succ_lt_succ hj)
      · rintro ⟨k, hk, hc, hle, hbefore⟩
        cases k with
        | zero =>
          rw [hc] at hle
          exact absurd hlt (UInt32.not_lt.mpr hle)
        | succ k =>
          exact ⟨k, Nat.lt_of_succ_lt_succ hk, hc, hle,
            fun j hj => hbefore (j + 1) (Nat.succ_lt_succ hj)⟩
    · rw [if_neg hlt, Except.ok.injEq]
      -- large enough already, so no doubling
      constructor
      · rintro rfl
        exact ⟨0, Nat.succ_pos fuel, rfl, UInt32.not_lt.mp hlt,
          fun j hj => absurd hj (Nat.not_lt_zero j)⟩
      · rintro ⟨k, -, hc, -, hbefore⟩
        cases k with
        | zero => exact hc.symm
        | succ k => exact absurd (hbefore 0 (Nat.succ_pos k)) hlt

theorem growCapacity_firstDoubling {fuel : ℕ} {capacity required c : UInt32}
    (h : growCapacity fuel capacity required = .ok c) :
    FirstDoubling capacity.toNat required.toNat c.toNat := by
  obtain ⟨k, -, rfl, hle, hbefore⟩ := growCapacity_eq_ok_iff.mp h
  refine ⟨k, toNat_doubled _ _, UInt32.le_iff_toNat_le.mp hle, fun j hj => ?_⟩
  rw [← toNat_doubled]
  exact UInt32.lt_iff_toNat_lt.mp (hbefore j hj)

theorem FirstDoubling.growCapacity {capacity required : UInt32} {size : ℕ}
    (h : FirstDoubling capacity.toNat required.toNat size) :
    ∃ n, ∀ fuel, n ≤ fuel → growCapacity fuel capacity required = .ok (UInt32.ofNat size) := by
  obtain ⟨k, rfl, hle, hbefore⟩ := h
  simp only [← toNat_doubled] at hle hbefore ⊢
  refine ⟨k + 1, fun fuel hfuel => growCapacity_eq_ok_iff.mpr ⟨k, hfuel, ?_, ?_, ?_⟩⟩
  · exact UInt32.ofNat_toNat
  · rw [UInt32.ofNat_toNat]
    exact UInt32.le_iff_toNat_le.mpr hle
  · exact fun j hj => UInt32.lt_iff_toNat_lt.mpr (hbefore j hj)

/-- Up to 2^31 bytes, doubling a positive capacity never wraps before it is enough. -/
theorem exists_firstDoubling {capacity required : ℕ} (hpos : 0 < capacity)
    (hlt : capacity < 2 ^ 32) (hle : required ≤ 2 ^ 31) :
    ∃ size, FirstDoubling capacity required size := by
  classical
  have hreach : ∃ k, required ≤ capacity * 2 ^ k :=
    ⟨required, Nat.le_trans Nat.lt_two_pow_self.le (Nat.le_mul_of_pos_left _ hpos)⟩
  have hbefore : ∀ j < Nat.find hreach, capacity * 2 ^ j < required :=
    fun j hj => Nat.lt_of_not_le (Nat.find_min hreach hj)
  have hsmall : capacity * 2 ^ Nat.find hreach < 2 ^ 32 := by
    cases hk : Nat.find hreach with
    | zero => rwa [pow_zero, Nat.mul_one]
    | succ k =>
      have hlast := hbefore k (by omega)
      rw [Nat.pow_succ, ← Nat.mul_assoc]
      omega
  refine ⟨_, Nat.find hreach, rfl, ?_, fun j hj => ?_⟩
  · rw [Nat.mod_eq_of_lt hsmall]
    exact Nat.find_spec hreach
  · exact Nat.lt_of_le_of_lt (Nat.mod_le _ _) (hbefore j hj)

/-! ## The size asked for -/

/-- The size that a call asks `realloc` for when `sum` bytes do not fit. -/
def Requests (ctx : PacketParserContext) (sum size : ℕ) : Prop :=
  (ctx.pendingCapacity = 0 ∧ size = sum) ∨
    (ctx.pendingCapacity ≠ 0 ∧ FirstDoubling ctx.pendingCapacity.toNat sum size)

variable {env : Env} {ctx : PacketParserContext} {additional : UInt32}

/-- A sum that wraps is smaller than the number of pending bytes. -/
theorem toNat_sum_wrapped (h : 2 ^ 32 ≤ ctx.pendingLen.toNat + additional.toNat) :
    (ctx.pendingLen + additional).toNat ≤ ctx.pendingLen.toNat := by
  have hlen := ctx.pendingLen.toNat_lt
  have hadditional := additional.toNat_lt
  rw [UInt32.toNat_add]
  omega

/-- The size that a call asks for, if the doubling ends. -/
theorem requests_of_enlarged {fuel : ℕ} {size : UInt32}
    (h : enlargedCapacity fuel ctx additional = .ok size) :
    Requests ctx (ctx.pendingLen + additional).toNat size.toNat := by
  rw [enlargedCapacity] at h
  split at h
  · rename_i hzero
    exact Or.inl ⟨hzero, congrArg UInt32.toNat (Except.ok.inj h).symm⟩
  · rename_i hzero
    exact Or.inr ⟨hzero, growCapacity_firstDoubling h⟩

theorem Requests.enlarged {size : ℕ} (h : Requests ctx (ctx.pendingLen + additional).toNat size) :
    ∃ n, ∀ fuel, n ≤ fuel → enlargedCapacity fuel ctx additional = .ok (.ofNat size) := by
  rcases h with ⟨hzero, rfl⟩ | ⟨hzero, hfirst⟩
  · refine ⟨0, fun fuel _ => ?_⟩
    rw [enlargedCapacity, if_pos hzero, UInt32.ofNat_toNat]
  · obtain ⟨n, hn⟩ := hfirst.growCapacity
    refine ⟨n, fun fuel hfuel => ?_⟩
    rw [enlargedCapacity, if_neg hzero]
    exact hn fuel hfuel

/-- The call ends with what `realloc` answers for a size that it asks for. -/
theorem Requests.returns {size : ℕ} (h : ¬ ctx.pendingLen + additional ≤ ctx.pendingCapacity)
    (hr : Requests ctx (ctx.pendingLen + additional).toNat size) :
    ∃ n, ∀ fuel, n ≤ fuel →
      ensurePendingCapacity env fuel ctx additional = .ok (grant env ctx (.ofNat size)) := by
  obtain ⟨n, hn⟩ := hr.enlarged
  refine ⟨n, fun fuel hfuel => ?_⟩
  rw [ensurePendingCapacity_grows h, hn fuel hfuel]
  rfl

/-- A call that ends without having found room has asked for a size. -/
theorem requests_of_returns {fuel : ℕ} {result : Bool × PacketParserContext}
    (h : ¬ ctx.pendingLen + additional ≤ ctx.pendingCapacity)
    (hok : ensurePendingCapacity env fuel ctx additional = .ok result) :
    ∃ size : UInt32, result = grant env ctx size ∧
      Requests ctx (ctx.pendingLen + additional).toNat size.toNat := by
  rw [ensurePendingCapacity_grows h] at hok
  cases hsize : enlargedCapacity fuel ctx additional with
  | error fault =>
    rw [hsize] at hok
    cases hok
  | ok size =>
    rw [hsize] at hok
    exact ⟨size, (Except.ok.inj hok).symm, requests_of_enlarged hsize⟩

theorem Requests.sum_le {sum size : ℕ} (h : Requests ctx sum size) : sum ≤ size := by
  rcases h with ⟨-, rfl⟩ | ⟨-, k, -, hle, -⟩
  · exact Nat.le_refl _
  · exact hle

theorem Requests.lt {sum size : ℕ} (h : Requests ctx sum size) (hlt : sum < 2 ^ 32) :
    size < 2 ^ 32 := by
  rcases h with ⟨-, rfl⟩ | ⟨-, k, rfl, -, -⟩
  · exact hlt
  · exact Nat.mod_lt _ (Nat.two_pow_pos 32)

/-- After the allocator's answer the recorded capacity is right if it was granted, or if the block
was that large before. -/
theorem grant_keeps_iff (env : Env) (ctx : PacketParserContext) (size : UInt32) :
    (grant env ctx size).2.pendingCapacity.toNat ≤ (grant env ctx size).2.pending.length ↔
      env.realloc ctx.pending size.toNat ≠ none ∨ size.toNat ≤ ctx.pending.length := by
  rw [grant]
  cases hblock : env.realloc ctx.pending size.toNat with
  | none => exact ⟨Or.inr, fun h => h.resolve_left fun hne => hne rfl⟩
  | some tmp =>
    exact ⟨fun _ => Or.inl (Option.some_ne_none tmp), fun _ => (env.realloc_spec hblock).1.ge⟩

/-- Success means that the new block has the size asked for. -/
theorem grant_success {size : UInt32} (h : (grant env ctx size).1 = true) :
    (grant env ctx size).2.pending.length = size.toNat := by
  rw [grant] at h ⊢
  cases hblock : env.realloc ctx.pending size.toNat with
  | none =>
    rw [hblock] at h
    cases h
  | some tmp => exact (env.realloc_spec hblock).1

/-! ## When the buffer stays consistent -/

/-- A call ends, reports success only with room for the exact sum, and leaves a recorded capacity
that the block has. -/
def KeepsCapacity (env : Env) (ctx : PacketParserContext) (additional : UInt32) : Prop :=
  ∃ ok ctx',
    (∃ n, ∀ fuel, n ≤ fuel → ensurePendingCapacity env fuel ctx additional = .ok (ok, ctx')) ∧
    (ok = true → ctx.pendingLen.toNat + additional.toNat ≤ ctx'.pending.length) ∧
    ctx'.pendingCapacity.toNat ≤ ctx'.pending.length

/-- The sum fits 32 bits, and so does a doubling of the capacity that covers it; the allocator
grants that size, or the block has it already. A sum that does not fit 32 bits is only covered by
a block that large. -/
def CanHold (env : Env) (ctx : PacketParserContext) (additional : UInt32) : Prop :=
  let sum := ctx.pendingLen.toNat + additional.toNat
  if sum < 2 ^ 32 then
    sum ≤ ctx.pendingCapacity.toNat ∨
      ∃ size, Requests ctx sum size ∧
        (env.realloc ctx.pending size ≠ none ∨ size ≤ ctx.pending.length)
  else sum ≤ ctx.pending.length

/-- `ensure_pending_capacity` keeps the buffer consistent exactly when its block can hold the
sum. -/
theorem keepsCapacity_iff (env : Env) (ctx : PacketParserContext) (additional : UInt32)
    (hlen : ctx.pendingLen ≤ ctx.pendingCapacity)
    (hcap : ctx.pendingCapacity.toNat ≤ ctx.pending.length) :
    KeepsCapacity env ctx additional ↔ CanHold env ctx additional := by
  rw [UInt32.le_iff_toNat_le] at hlen
  by_cases hlt : ctx.pendingLen.toNat + additional.toNat < 2 ^ 32
  · have hsum := toNat_sum hlt
    rw [CanHold, if_pos hlt]
    by_cases hfits : ctx.pendingLen + additional ≤ ctx.pendingCapacity
    · have hle := UInt32.le_iff_toNat_le.mp hfits
      rw [hsum] at hle
      exact ⟨fun _ => Or.inl hle, fun _ =>
        ⟨true, ctx, ⟨0, fun fuel _ => ensurePendingCapacity_fits hfits fuel⟩,
          fun _ => Nat.le_trans hle hcap, hcap⟩⟩
    · have hnot : ¬ ctx.pendingLen.toNat + additional.toNat ≤ ctx.pendingCapacity.toNat := by
        rwa [UInt32.le_iff_toNat_le, hsum] at hfits
      constructor
      · rintro ⟨ok, ctx', ⟨n, hn⟩, -, hkept⟩
        obtain ⟨size, hresult, hr⟩ := requests_of_returns hfits (hn n (Nat.le_refl n))
        obtain ⟨rfl, rfl⟩ := Prod.mk.inj hresult
        exact Or.inr ⟨size.toNat, hsum ▸ hr, (grant_keeps_iff env ctx size).mp hkept⟩
      · intro h
        obtain ⟨size, hr, hgranted⟩ := h.resolve_left hnot
        have hsize : (UInt32.ofNat size).toNat = size :=
          UInt32.toNat_ofNat_of_lt' (hr.lt hlt)
        rw [← hsum] at hr
        refine ⟨(grant env ctx (.ofNat size)).1, (grant env ctx (.ofNat size)).2,
          hr.returns hfits, fun hok => ?_, ?_⟩
        · rw [grant_success hok, hsize, ← hsum]
          exact hr.sum_le
        · rw [grant_keeps_iff, hsize]
          exact hgranted
  · -- the wrapped sum is small, so the call reports success and changes nothing
    have hfits : ctx.pendingLen + additional ≤ ctx.pendingCapacity :=
      UInt32.le_iff_toNat_le.mpr (Nat.le_trans (toNat_sum_wrapped (Nat.le_of_not_lt hlt)) hlen)
    rw [CanHold, if_neg hlt]
    constructor
    · rintro ⟨ok, ctx', ⟨n, hn⟩, hroom, -⟩
      have hresult := Except.ok.inj
        ((hn n (Nat.le_refl n)).symm.trans (ensurePendingCapacity_fits hfits n))
      obtain ⟨rfl, rfl⟩ := Prod.mk.inj hresult
      exact hroom rfl
    · exact fun hroom => ⟨true, ctx, ⟨0, fun fuel _ => ensurePendingCapacity_fits hfits fuel⟩,
        fun _ => hroom, hcap⟩

/-- Up to 2^31 bytes, only the allocator can leave the buffer inconsistent. -/
theorem canHold_of_grants (henv : ∀ size, env.realloc ctx.pending size ≠ none)
    (hle : ctx.pendingLen.toNat + additional.toNat ≤ 2 ^ 31) : CanHold env ctx additional := by
  rw [CanHold, if_pos (by omega)]
  by_cases hzero : ctx.pendingCapacity = 0
  · exact Or.inr ⟨_, Or.inl ⟨hzero, rfl⟩, Or.inl (henv _)⟩
  · have hpos : 0 < ctx.pendingCapacity.toNat :=
      Nat.pos_of_ne_zero fun h => hzero (UInt32.toNat_inj.mp h)
    obtain ⟨size, hsize⟩ := exists_firstDoubling hpos ctx.pendingCapacity.toNat_lt hle
    exact Or.inr ⟨size, Or.inr ⟨hzero, hsize⟩, Or.inl (henv size)⟩

/-- A block of 16 bytes, all in use. -/
def PacketParserContext.full : PacketParserContext :=
  { PacketParserContext.zero with
    pending := List.replicate 16 0, pendingLen := 16, pendingCapacity := 16 }

theorem keepsCapacity_full :
    KeepsCapacity .reliable .full 16 :=
  (keepsCapacity_iff .reliable .full 16 (by decide) (by decide)).mpr <| Or.inr
    ⟨32, Or.inr ⟨by decide, 1, by decide, by decide, by decide⟩, Or.inl (Option.some_ne_none _)⟩

/-- When `realloc` fails, the capacity stays doubled over a block of the old size. -/
theorem not_keepsCapacity_exhausted :
    PacketParserContext.full.pendingLen ≤ PacketParserContext.full.pendingCapacity ∧
      PacketParserContext.full.pendingCapacity.toNat ≤
        PacketParserContext.full.pending.length ∧
      ¬ KeepsCapacity .exhausted .full 16 := by
  refine ⟨by decide, by decide, ?_⟩
  rintro ⟨ok, ctx', ⟨n, hn⟩, -, hkept⟩
  have hcall : ensurePendingCapacity .exhausted (n + 2) .full 16 =
      .ok (false, { PacketParserContext.full with pendingCapacity := 32 }) := rfl
  have hresult := Except.ok.inj ((hn (n + 2) (Nat.le_add_right n 2)).symm.trans hcall)
  obtain ⟨-, rfl⟩ := Prod.mk.inj hresult
  revert hkept
  decide

end UsbPcap.Cmd
