import Mathlib.Data.Nat.ModEq
import Mathlib.Data.Int.GCD
import Mathlib.Dynamics.PeriodicPts.Defs
import Mathlib.Logic.Equiv.Basic
import Mathlib.Tactic.Common
import Mathlib.Tactic.Ring

/-!
# Moving contents along cycles

An array is permuted in place by following the cycles of the permutation: a walk starts at a
leader, goes from place to place and exchanges each place's content with the leader's. `Moved` says
what such walks do: along their cycles the contents go one place on, elsewhere they stay.

Two neighbouring blocks of an array change places in this way. The cycles of this permutation are
the residue classes of the greatest common divisor of the two lengths.
-/

namespace CycleLeader

/-! ## Walks -/

section Walk

variable {ι α : Type} [DecidableEq ι]

/-- The contents, with those of two places exchanged. -/
def exchange (f : ι → α) (i j : ι) : ι → α := fun x => f (Equiv.swap i j x)

/-- One step of a walk: to the next place, whose content is exchanged with the leader's. -/
def step (next : ι → ι) (leader : ι) (s : ι × (ι → α)) : ι × (ι → α) :=
  (next s.1, exchange s.2 (next s.1) leader)

/-- A walk of `k` steps. -/
def walk (next : ι → ι) (leader : ι) (k : ℕ) (f : ι → α) : ι × (ι → α) :=
  (step next leader)^[k] (leader, f)

/-- The places that a walk can reach. -/
def orbit (next : ι → ι) (leader : ι) : Set ι := {x | ∃ j, next^[j] leader = x}

/-- The contents of `s` have gone one place on, and the others have stayed. -/
structure Moved (next : ι → ι) (s : Set ι) (f g : ι → α) : Prop where
  inside : ∀ x ∈ s, g (next x) = f x
  outside : ∀ x, x ∉ s → g x = f x

variable {next : ι → ι} {leader : ι} {f g h : ι → α}

theorem walk_succ (k : ℕ) :
    walk next leader (k + 1) f = step next leader (walk next leader k f) :=
  Function.iterate_succ_apply' _ _ _

theorem walk_fst (k : ℕ) : (walk next leader k f).1 = next^[k] leader := by
  induction k with
  | zero => rfl
  | succ k ih =>
    rw [walk_succ, Function.iterate_succ_apply', ← ih]
    rfl

/-- A walk that is not yet back: the leader has the content of the place it stands at, and the
places it has passed have those of their predecessors. -/
theorem walk_snd {k : ℕ} (hk : k < Function.minimalPeriod next leader) :
    (walk next leader k f).2 leader = f (next^[k] leader) ∧
      (∀ j < k, (walk next leader k f).2 (next^[j + 1] leader) = f (next^[j] leader)) ∧
      ∀ x, (∀ j ≤ k, next^[j] leader ≠ x) → (walk next leader k f).2 x = f x := by
  induction k with
  | zero => exact ⟨rfl, fun j hj => absurd hj (Nat.not_lt_zero j), fun _ _ => rfl⟩
  | succ k ih =>
    obtain ⟨hleader, hpassed, hrest⟩ := ih (Nat.lt_of_succ_lt hk)
    have hne {i j : ℕ} (hij : i ≠ j) (hi : i ≤ k + 1) (hj : j ≤ k + 1) :
        next^[i] leader ≠ next^[j] leader := fun heq =>
      hij ((Function.iterate_eq_iterate_iff_of_lt_minimalPeriod (hi.trans_lt hk)
        (hj.trans_lt hk)).mp heq)
    have hplace : next (walk next leader k f).1 = next^[k + 1] leader := by
      rw [walk_fst, Function.iterate_succ_apply']
    rw [walk_succ]
    unfold step exchange
    dsimp only
    rw [hplace]
    refine ⟨?_, ?_, ?_⟩
    · -- the leader takes the content of the new place, which nothing has changed yet
      rw [Equiv.swap_apply_right]
      exact hrest _ fun j hj => hne (by omega) (by omega) le_rfl
    · intro j hj
      by_cases hlast : j = k
      · rw [hlast, Equiv.swap_apply_left]
        exact hleader
      · have hback : next^[j + 1] leader ≠ leader :=
          hne (Nat.succ_ne_zero j) (by omega) (Nat.zero_le _)
        rw [Equiv.swap_apply_of_ne_of_ne (hne (by omega) (by omega) le_rfl) hback]
        exact hpassed j (by omega)
    · intro x hx
      have hleader : leader ≠ x := hx 0 (Nat.zero_le _)
      rw [Equiv.swap_apply_of_ne_of_ne (hx (k + 1) le_rfl).symm hleader.symm]
      exact hrest x fun j hj => hx j (by omega)

/-- A walk around its whole cycle moves the contents of the cycle. -/
theorem moved_walk (hpos : 0 < Function.minimalPeriod next leader) :
    Moved next (orbit next leader) f
      (walk next leader (Function.minimalPeriod next leader) f).2 := by
  obtain ⟨k, hk⟩ : ∃ k, Function.minimalPeriod next leader = k + 1 :=
    ⟨_, (Nat.succ_pred_eq_of_pos hpos).symm⟩
  have hlt : k < Function.minimalPeriod next leader := by
    rw [hk]
    exact Nat.lt_succ_self k
  obtain ⟨hleader, hpassed, hrest⟩ := walk_snd (f := f) hlt
  have hback : next^[k + 1] leader = leader := by
    rw [← hk]
    exact Function.iterate_minimalPeriod
  have hlast : (walk next leader (k + 1) f).2 = (walk next leader k f).2 := by
    -- the last step is back at the leader
    rw [walk_succ]
    unfold step exchange
    dsimp only
    rw [walk_fst, ← Function.iterate_succ_apply' next k leader, hback]
    funext x
    rw [Equiv.swap_self]
    rfl
  rw [hk, hlast]
  refine ⟨?_, ?_⟩
  · rintro x ⟨j, rfl⟩
    rw [← Function.iterate_mod_minimalPeriod_eq, hk, ← Function.iterate_succ_apply' next _ leader]
    have hj : j % (k + 1) < k + 1 := Nat.mod_lt _ (Nat.succ_pos k)
    rcases Nat.lt_succ_iff_lt_or_eq.mp hj with hlt | heq
    · exact hpassed _ hlt
    · rw [heq, hback]
      exact hleader
  · intro x hx
    exact hrest x fun j _ hj => hx ⟨j, hj⟩

omit [DecidableEq ι] in
theorem next_mem_orbit {x : ι} (hx : x ∈ orbit next leader) : next x ∈ orbit next leader := by
  obtain ⟨j, rfl⟩ := hx
  exact ⟨j + 1, Function.iterate_succ_apply' next j leader⟩

omit [DecidableEq ι] in
theorem Moved.refl : Moved next ∅ f f where
  inside _ hx := absurd hx (Set.notMem_empty _)
  outside _ _ := rfl

omit [DecidableEq ι] in
/-- Walks along disjoint cycles do not disturb each other. -/
theorem Moved.trans {s t : Set ι} (hs : Moved next s f g) (ht : Moved next t g h)
    (hsnext : ∀ x ∈ s, next x ∈ s) (hdisj : ∀ x ∈ s, x ∉ t) : Moved next (s ∪ t) f h where
  inside := by
    rintro x (hx | hx)
    · rw [ht.outside _ (hdisj _ (hsnext x hx)), hs.inside x hx]
    · rw [ht.inside x hx, hs.outside x fun h => hdisj x h hx]
  outside := by
    intro x hx
    rw [ht.outside x fun h => hx (Or.inr h), hs.outside x fun h => hx (Or.inl h)]

end Walk

/-! ## Neighbouring blocks -/

section Blocks

variable {α : Type}

/-- Where the content of a place goes when the blocks of lengths `m` and `n` from `s` on change
places. -/
def across (s m n x : ℕ) : ℕ := if s + m ≤ x then x - m else x + n

/-- The two blocks. -/
def blocks (s m n : ℕ) : Set ℕ := {x | s ≤ x ∧ x < s + m + n}

variable {s m n : ℕ}

theorem across_add {r : ℕ} (hr : r < m + n) :
    across s m n (s + r) = s + (r + n) % (m + n) := by
  unfold across
  by_cases h : m ≤ r
  · have hmod : (r + n) % (m + n) = r - m := by
      rw [Nat.mod_eq_sub_mod (by omega), Nat.mod_eq_of_lt (by omega)]
      omega
    rw [if_pos (by omega), hmod]
    omega
  · rw [if_neg (by omega), Nat.mod_eq_of_lt (by omega)]
    omega

theorem iterate_across {r : ℕ} (hr : r < m + n) (j : ℕ) :
    (across s m n)^[j] (s + r) = s + (r + j * n) % (m + n) := by
  induction j with
  | zero => rw [Function.iterate_zero_apply, Nat.zero_mul, Nat.add_zero, Nat.mod_eq_of_lt hr]
  | succ j ih =>
    have hlt : (r + j * n) % (m + n) < m + n := Nat.mod_lt _ (by omega)
    rw [Function.iterate_succ_apply', ih, across_add hlt, Nat.mod_add_mod, Nat.succ_mul,
      Nat.add_assoc]

/-- All cycles have the length that the C code computes. -/
theorem minimalPeriod_across {r : ℕ} (hr : r < m + n) :
    Function.minimalPeriod (across s m n) (s + r) = (m + n) / m.gcd n := by
  have hgcd : m.gcd n = (m + n).gcd n := (Nat.gcd_add_self_left n m).symm
  have hpos : 0 < (m + n).gcd n := Nat.gcd_pos_of_pos_left n (by omega)
  have hperiodic (j : ℕ) : Function.IsPeriodicPt (across s m n) j (s + r) ↔
      (m + n) / (m + n).gcd n ∣ j := by
    have hshift : (r + j * n) % (m + n) = r ↔ m + n ∣ j * n := by
      rw [← Nat.modEq_zero_iff_dvd]
      constructor
      · intro h
        have : r + j * n ≡ r + 0 [MOD m + n] := by
          rw [Nat.ModEq, h, Nat.add_zero, Nat.mod_eq_of_lt hr]
        exact Nat.ModEq.add_left_cancel' r this
      · intro h
        have : r + j * n ≡ r + 0 [MOD m + n] := Nat.ModEq.add_left r h
        rw [this, Nat.add_zero, Nat.mod_eq_of_lt hr]
    have hcoprime : Nat.Coprime ((m + n) / (m + n).gcd n) (n / (m + n).gcd n) :=
      Nat.coprime_div_gcd_div_gcd hpos
    unfold Function.IsPeriodicPt Function.IsFixedPt
    rw [iterate_across hr, Nat.add_right_inj, hshift, ← hcoprime.dvd_mul_right,
      Nat.div_dvd_iff_dvd_mul (Nat.gcd_dvd_left _ _) hpos, Nat.mul_left_comm,
      Nat.mul_div_cancel' (Nat.gcd_dvd_right _ _)]
  rw [hgcd]
  apply Nat.dvd_antisymm
  · exact ((hperiodic _).mpr dvd_rfl).minimalPeriod_dvd
  · exact (hperiodic _).mp (Function.isPeriodicPt_minimalPeriod _ _)

theorem across_mem_blocks {x : ℕ} (hx : x ∈ blocks s m n) : across s m n x ∈ blocks s m n := by
  obtain ⟨hle, hlt⟩ := hx
  unfold across blocks
  split
  · exact ⟨by omega, by omega⟩
  · exact ⟨by omega, by omega⟩

/-- A cycle is a residue class: every difference that the greatest common divisor divides is a
number of steps of length `n` around `m + n` places. -/
theorem orbit_across {i : ℕ} (hm : 0 < m) (hn : 0 < n) (hi : i < m.gcd n) :
    orbit (across s m n) (s + m + i) = {x ∈ blocks s m n | (x - s) % m.gcd n = i} := by
  have hgn : m.gcd n ∣ n := Nat.gcd_dvd_right m n
  have hgm : m.gcd n ∣ m := Nat.gcd_dvd_left m n
  have hgmn : m.gcd n ∣ m + n := Nat.dvd_add hgm hgn
  have hle : m.gcd n ≤ n := Nat.le_of_dvd hn hgn
  have hr : m + i < m + n := by omega
  have hmod : (m + i) % m.gcd n = i := by
    rw [Nat.add_mod, Nat.mod_eq_zero_of_dvd hgm, Nat.zero_add, Nat.mod_mod, Nat.mod_eq_of_lt hi]
  ext x
  rw [Nat.add_assoc]
  constructor
  · rintro ⟨j, rfl⟩
    rw [iterate_across hr]
    have hlt : (m + i + j * n) % (m + n) < m + n := Nat.mod_lt _ (by omega)
    refine ⟨⟨by omega, by omega⟩, ?_⟩
    rw [Nat.add_sub_cancel_left, Nat.mod_mod_of_dvd _ hgmn, Nat.add_mod,
      Nat.mod_eq_zero_of_dvd (hgn.mul_left j), Nat.add_zero, Nat.mod_mod, hmod]
  · rintro ⟨⟨hsx, hx⟩, hxi⟩
    obtain ⟨u, -, hu⟩ : ∃ u < m + n, n * u % (m + n) = n.gcd (m + n) :=
      Nat.exists_mul_mod_eq_gcd (by rw [Nat.gcd_add_self_right, Nat.gcd_comm]; omega)
    rw [Nat.gcd_add_self_right, Nat.gcd_comm] at hu
    -- the difference, made positive by a whole turn
    obtain ⟨t, ht⟩ : m.gcd n ∣ x - s + (m + n) - (m + i) := by
      apply (Nat.modEq_iff_dvd' (by omega)).mp
      rw [Nat.ModEq, hmod, Nat.add_mod, Nat.mod_eq_zero_of_dvd hgmn, Nat.add_zero, Nat.mod_mod, hxi]
    refine ⟨u * t, ?_⟩
    have hturn : (m + i + u * t * n) % (m + n) = x - s := by
      calc (m + i + u * t * n) % (m + n) = (m + i + n * u % (m + n) * t) % (m + n) := by
            rw [show u * t * n = n * u * t by ring, Nat.add_mod (m + i) (n * u * t),
              Nat.mul_mod (n * u) t, Nat.add_mod (m + i) (n * u % (m + n) * t),
              Nat.mul_mod (n * u % (m + n)) t, Nat.mod_mod]
        _ = (x - s + (m + n)) % (m + n) := by rw [hu, ← ht, Nat.add_sub_cancel' (by omega)]
        _ = x - s := by rw [Nat.add_mod_right, Nat.mod_eq_of_lt (by omega)]
    rw [iterate_across hr, hturn]
    omega

/-- The walks along the first `k` cycles. -/
def cycles (s m n : ℕ) : ℕ → (ℕ → α) → ℕ → α
  | 0, f => f
  | k + 1, f => (walk (across s m n) (s + m + k) ((m + n) / m.gcd n) (cycles s m n k f)).2

theorem moved_cycles {k : ℕ} (hm : 0 < m) (hn : 0 < n) (hk : k ≤ m.gcd n) (f : ℕ → α) :
    Moved (across s m n) {x ∈ blocks s m n | (x - s) % m.gcd n < k} f (cycles s m n k f) := by
  induction k with
  | zero =>
    have hempty : {x ∈ blocks s m n | (x - s) % m.gcd n < 0} = ∅ := by
      ext x
      exact ⟨fun h => absurd h.2 (Nat.not_lt_zero _), fun h => absurd h (Set.notMem_empty x)⟩
    rw [hempty]
    exact Moved.refl
  | succ k ih =>
    have hle : m.gcd n ≤ n := Nat.le_of_dvd hn (Nat.gcd_dvd_right m n)
    have hperiod := minimalPeriod_across (s := s) (show m + k < m + n by omega)
    have hpos : 0 < (m + n) / m.gcd n :=
      Nat.div_pos (hle.trans (Nat.le_add_left n m)) (Nat.gcd_pos_of_pos_left n hm)
    have hwalk : Moved (across s m n) (orbit (across s m n) (s + m + k)) (cycles s m n k f)
        (cycles s m n (k + 1) f) := by
      rw [cycles, ← hperiod, ← Nat.add_assoc]
      rw [← hperiod, ← Nat.add_assoc] at hpos
      exact moved_walk hpos
    rw [orbit_across hm hn hk] at hwalk
    have hunion : {x ∈ blocks s m n | (x - s) % m.gcd n < k + 1} =
        {x ∈ blocks s m n | (x - s) % m.gcd n < k} ∪
          {x ∈ blocks s m n | (x - s) % m.gcd n = k} := by
      ext x
      rw [Set.mem_union, Set.mem_sep_iff, Set.mem_sep_iff, Set.mem_sep_iff, ← and_or_left,
        Nat.lt_succ_iff_lt_or_eq]
    rw [hunion]
    refine (ih (Nat.le_of_succ_le hk)).trans hwalk ?_ ?_
    · rintro x ⟨hx, hlt⟩
      -- a class is closed, as an orbit
      have hi : (x - s) % m.gcd n < m.gcd n := hlt.trans (Nat.lt_of_succ_le hk)
      have horbit : x ∈ orbit (across s m n) (s + m + (x - s) % m.gcd n) := by
        rw [orbit_across hm hn hi]
        exact ⟨hx, rfl⟩
      have hnext := next_mem_orbit horbit
      rw [orbit_across hm hn hi] at hnext
      exact ⟨hnext.1, hnext.2.trans_lt hlt⟩
    · exact fun x h h' => (Nat.ne_of_lt h.2) h'.2

/-- The walks along all cycles let the blocks change places. -/
theorem moved_blocks (hm : 0 < m) (hn : 0 < n) (f : ℕ → α) :
    Moved (across s m n) (blocks s m n) f (cycles s m n (m.gcd n) f) := by
  have hall : {x ∈ blocks s m n | (x - s) % m.gcd n < m.gcd n} = blocks s m n := by
    ext x
    exact ⟨fun h => h.1, fun h => ⟨h, Nat.mod_lt _ (Nat.gcd_pos_of_pos_left n hm)⟩⟩
  have h := moved_cycles (s := s) hm hn le_rfl f
  rwa [hall] at h

/-- The contents of four segments, and what is left when the two in the middle change places. -/
theorem Moved.getElem? {front left right rest : List α} {g : ℕ → Option α}
    (h : Moved (across front.length left.length right.length)
      (blocks front.length left.length right.length)
      (fun x => (front ++ left ++ right ++ rest)[x]?) g) (x : ℕ) :
    g x = (front ++ right ++ left ++ rest)[x]? := by
  by_cases hx : x ∈ blocks front.length left.length right.length
  · obtain ⟨hle, hlt⟩ := hx
    by_cases hright : x < front.length + right.length
    · -- the place `x` has got what stood behind the left block
      have hin : x + left.length ∈ blocks front.length left.length right.length :=
        ⟨by omega, by omega⟩
      have hgo : across front.length left.length right.length (x + left.length) = x := by
        unfold across
        rw [if_pos (by omega), Nat.add_sub_cancel]
      have hin' := h.inside _ hin
      rw [hgo] at hin'
      rw [hin']
      grind
    · have hin : x - right.length ∈ blocks front.length left.length right.length :=
        ⟨by omega, by omega⟩
      have hgo : across front.length left.length right.length (x - right.length) = x := by
        unfold across
        rw [if_neg (by omega), Nat.sub_add_cancel (by omega)]
      have hin' := h.inside _ hin
      rw [hgo] at hin'
      rw [hin']
      grind
  · rw [h.outside x hx]
    have hor : x < front.length ∨ front.length + left.length + right.length ≤ x := by
      by_contra hc
      push Not at hc
      exact hx hc
    grind

end Blocks

end CycleLeader
