import Mathlib.Algebra.BigOperators.Group.List.Basic
import Mathlib.Algebra.Order.Ring.Nat
import Mathlib.Data.List.AList
import Mathlib.Data.List.Dedup

/-!
# Tables of counts

A map of a programming language is Mathlib's `AList` with one type of values. `sumOver` adds up a
weight of its entries, `add` is `m[k] += n`, and `regroup` and `rekey` are the two loops that
rewrite a table of counts under other keys. Each operation has one lemma that says what it does to
the sum; what several tables fed from one source have in common follows from these.
-/

/-- A map with one type of values. -/
abbrev Table (κ ν : Type*) := AList (fun _ : κ => ν)

namespace Table

variable {κ κ' ν : Type*}

/-- The sum over all entries. -/
def sumOver (w : κ → ν → ℕ) (m : Table κ ν) : ℕ := (m.entries.map fun e => w e.1 e.2).sum

/-- The sum of all counts, each multiplied by the weight of its key. -/
def weighted (w : κ → ℕ) (m : Table κ ℕ) : ℕ := sumOver (fun k n => w k * n) m

/-- The sum of all counts. -/
def total (m : Table κ ℕ) : ℕ := sumOver (fun _ n => n) m

theorem total_eq_weighted (m : Table κ ℕ) : total m = weighted (fun _ => 1) m := by
  simp only [total, weighted, Nat.one_mul]

@[simp] theorem weighted_empty (w : κ → ℕ) : weighted w (∅ : Table κ ℕ) = 0 := rfl

/-- The sum over the entries in any order. -/
theorem sum_map_perm {m : Table κ ν} {es : List (Σ _ : κ, ν)} (h : es.Perm m.entries)
    (w : κ → ν → ℕ) : (es.map fun e => w e.1 e.2).sum = sumOver w m :=
  (h.map _).sum_eq

/-- A loop that adds `δ a` to a measure for every `a`. -/
theorem measure_foldl {σ α : Type*} (f : σ → α → σ) (μ : σ → ℕ) {δ : α → ℕ}
    (h : ∀ s a, μ (f s a) = μ s + δ a) (s : σ) (l : List α) :
    μ (l.foldl f s) = μ s + (l.map δ).sum := by
  induction l generalizing s with
  | nil => rfl
  | cons a l ih =>
    rw [List.foldl_cons, ih, h, List.map_cons, List.sum_cons, Nat.add_assoc]

/-- A loop that counts the elements with a property. -/
theorem measure_foldl_countP {σ α : Type*} (f : σ → α → σ) (μ : σ → ℕ) {p : α → Bool}
    (h : ∀ s a, μ (f s a) = μ s + (p a).toNat) (s : σ) (l : List α) :
    μ (l.foldl f s) = μ s + l.countP p := by
  rw [measure_foldl f μ h]
  congr 1
  induction l with
  | nil => rfl
  | cons a l ih =>
    rw [List.map_cons, List.sum_cons, ih, List.countP_cons, Nat.add_comm]
    cases p a <;> rfl

/-- A loop that counts everything. -/
theorem measure_foldl_length {σ α : Type*} (f : σ → α → σ) (μ : σ → ℕ)
    (h : ∀ s a, μ (f s a) = μ s + 1) (s : σ) (l : List α) :
    μ (l.foldl f s) = μ s + l.length := by
  rw [measure_foldl_countP f μ (p := fun _ => true) h, List.countP_true]

/-! ## Assignments -/

variable [DecidableEq κ]

theorem sum_kerase (w : κ → ν → ℕ) (k : κ) (es : List (Σ _ : κ, ν)) :
    ((es.kerase k).map fun e => w e.1 e.2).sum + (es.dlookup k).elim 0 (w k) =
      (es.map fun e => w e.1 e.2).sum := by
  induction es with
  | nil => rfl
  | cons e es ih =>
    obtain ⟨k', v⟩ := e
    by_cases hk : k = k'
    · subst hk
      have hcons : List.kerase k ((⟨k, v⟩ : Σ _ : κ, ν) :: es) = es := List.kerase_cons_eq rfl
      rw [hcons, List.dlookup_cons_eq, List.map_cons, List.sum_cons]
      exact Nat.add_comm _ _
    · rw [List.kerase_cons_ne hk, List.dlookup_cons_ne _ _ hk, List.map_cons, List.map_cons,
        List.sum_cons, List.sum_cons, Nat.add_assoc, ih]

/-- `m[k] = v` replaces what `k` contributed. -/
theorem sumOver_insert (w : κ → ν → ℕ) (m : Table κ ν) (k : κ) (v : ν) :
    sumOver w (m.insert k v) + (m.lookup k).elim 0 (w k) = sumOver w m + w k v := by
  rw [sumOver, sumOver, AList.entries_insert, List.map_cons, List.sum_cons, Nat.add_assoc,
    Nat.add_comm]
  exact congrArg (· + w k v) (sum_kerase w k m.entries)

/-! ## Counting -/

/-- `m[k] += n` -/
def add (m : Table κ ℕ) (k : κ) (n : ℕ) : Table κ ℕ := m.insert k ((m.lookup k).getD 0 + n)

theorem weighted_add (w : κ → ℕ) (m : Table κ ℕ) (k : κ) (n : ℕ) :
    weighted w (m.add k n) = weighted w m + w k * n := by
  have h := sumOver_insert (fun k n => w k * n) m k ((m.lookup k).getD 0 + n)
  rw [weighted, weighted, add]
  cases hk : m.lookup k with
  | none =>
    rw [hk] at h
    simpa using h
  | some c =>
    rw [hk] at h
    simp only [Option.elim_some, Option.getD_some, Nat.mul_add] at h ⊢
    omega

theorem total_add (m : Table κ ℕ) (k : κ) (n : ℕ) : total (m.add k n) = total m + n := by
  rw [total_eq_weighted, weighted_add, ← total_eq_weighted, Nat.one_mul]

/-! ## Grouping -/

section Collect

variable {α : Type*} (key : α → κ) (new : α → ν) (step : ν → α → ν)

/-- `for _, a := range l { m[key(a)] = step(m[key(a)], a) }`, where `new` makes the value of a key
that is not yet in the table. -/
def collect (m : Table κ ν) (l : List α) : Table κ ν :=
  l.foldl (fun m a => m.insert (key a) (step ((m.lookup (key a)).getD (new a)) a)) m

/-- Under a key stands the fold over the elements with that key. -/
theorem lookup_collect (k : κ) (m : Table κ ν) (l : List α) :
    (collect key new step m l).lookup k =
      (l.filter (key · = k)).foldl (fun v a => some (step (v.getD (new a)) a)) (m.lookup k) := by
  induction l generalizing m with
  | nil => rfl
  | cons a l ih =>
    refine (ih _).trans ?_
    dsimp only
    by_cases hk : key a = k
    · rw [List.filter_cons_of_pos (by simpa using hk), List.foldl_cons, hk, AList.lookup_insert]
    · rw [List.filter_cons_of_neg (by simpa using hk), AList.lookup_insert_ne (Ne.symm hk)]

/-- The fold from nothing over a list that is not empty. -/
theorem foldl_some (v : ν) (l : List α) :
    l.foldl (fun v a => some (step (v.getD (new a)) a)) (some v) = some (l.foldl step v) := by
  induction l generalizing v with
  | nil => rfl
  | cons a l ih => exact ih _

/-- The table of all elements has one entry for each key that occurs. -/
theorem entries_collect_perm (l : List α) (value : κ → ν)
    (h : ∀ k a rest, l.filter (key · = k) = a :: rest → value k = (a :: rest).foldl step (new a)) :
    (collect key new step ∅ l).entries.Perm ((l.map key).dedup.map fun k => ⟨k, value k⟩) := by
  have hinj : Function.Injective fun k : κ => (⟨k, value k⟩ : Σ _ : κ, ν) := fun k k' heq =>
    congrArg Sigma.fst heq
  refine (List.perm_ext_iff_of_nodup (collect key new step ∅ l).nodupKeys.nodup
    ((List.nodup_dedup _).map hinj)).mpr ?_
  rintro ⟨k, v⟩
  rw [← AList.mem_lookup_iff, lookup_collect, AList.lookup_empty]
  -- the elements with key `k` decide on both sides
  cases hl : l.filter (key · = k) with
  | nil =>
    refine iff_of_false (Option.not_mem_none v) fun hmem => ?_
    obtain ⟨k', hk', heq⟩ := List.mem_map.mp hmem
    obtain rfl : k' = k := congrArg Sigma.fst heq
    obtain ⟨a, ha, hkey⟩ := List.mem_map.mp (List.mem_dedup.mp hk')
    exact List.filter_eq_nil_iff.mp hl a ha (by simpa using hkey)
  | cons a rest =>
    have ha : a ∈ l.filter (key · = k) := hl ▸ List.mem_cons_self
    obtain ⟨hal, hkey⟩ := List.mem_filter.mp ha
    have hk : k ∈ (l.map key).dedup :=
      List.mem_dedup.mpr (List.mem_map.mpr ⟨a, hal, by simpa using hkey⟩)
    rw [List.foldl_cons, Option.getD_none, foldl_some, ← List.foldl_cons, ← h k a rest hl,
      Option.mem_some_iff]
    constructor
    · rintro rfl
      exact List.mem_map.mpr ⟨k, hk, rfl⟩
    · intro hmem
      obtain ⟨k', -, heq⟩ := List.mem_map.mp hmem
      obtain ⟨rfl, hv⟩ := Sigma.mk.inj heq
      exact eq_of_heq hv

end Collect

/-! ## Loops over a table -/

variable {κ : Type*} [DecidableEq κ']

/-- `for k, n := range m { m'[g(k)] += n }` -/
def regroup (g : κ → κ') (es : List (Σ _ : κ, ℕ)) : Table κ' ℕ :=
  es.foldl (fun m e => m.add (g e.1) e.2) ∅

theorem weighted_regroup (w : κ' → ℕ) (g : κ → κ') (es : List (Σ _ : κ, ℕ)) :
    weighted w (regroup g es) = (es.map fun e => w (g e.1) * e.2).sum := by
  have h := measure_foldl _ (weighted w) (fun m e => weighted_add w m (g e.1) e.2)
    (∅ : Table κ' ℕ) es
  rw [weighted_empty, Nat.zero_add] at h
  exact h

theorem total_regroup (g : κ → κ') (es : List (Σ _ : κ, ℕ)) :
    total (regroup g es) = (es.map fun e => e.2).sum := by
  rw [total_eq_weighted, weighted_regroup]
  simp only [Nat.one_mul]

/-- `for k, n := range m { m'[g(k)] = n }` -/
def rekey (g : κ → κ') (es : List (Σ _ : κ, ℕ)) : Table κ' ℕ :=
  es.foldl (fun m e => m.insert (g e.1) e.2) ∅

/-- Under distinct new keys no assignment overwrites another. -/
theorem weighted_rekey (w : κ' → ℕ) {g : κ → κ'} (hg : Function.Injective g)
    {es : List (Σ _ : κ, ℕ)} (hes : es.NodupKeys) :
    weighted w (rekey g es) = (es.map fun e => w (g e.1) * e.2).sum := by
  -- the keys still to come are not yet in the table
  have hloop : ∀ (es : List (Σ _ : κ, ℕ)) (m : Table κ' ℕ), es.NodupKeys →
      (∀ e ∈ es, m.lookup (g e.1) = none) →
      weighted w (es.foldl (fun m e => m.insert (g e.1) e.2) m) =
        weighted w m + (es.map fun e => w (g e.1) * e.2).sum := by
    intro es
    induction es with
    | nil =>
      intro m _ _
      rfl
    | cons e es ih =>
      intro m hes hnew
      rw [List.nodupKeys_cons] at hes
      have hstep := sumOver_insert (fun k n => w k * n) m (g e.1) e.2
      rw [hnew e List.mem_cons_self] at hstep
      rw [List.foldl_cons, ih _ hes.2, List.map_cons, List.sum_cons, ← Nat.add_assoc]
      · exact congrArg (· + _) hstep
      · intro e' he'
        rw [AList.lookup_insert_ne]
        · exact hnew e' (List.mem_cons_of_mem e he')
        · intro heq
          refine hes.1 ?_
          rw [← hg heq]
          exact List.mem_keys_of_mem he'
  have h := hloop es ∅ hes fun _ _ => rfl
  rw [weighted_empty, Nat.zero_add] at h
  exact h

theorem total_rekey {g : κ → κ'} (hg : Function.Injective g) {es : List (Σ _ : κ, ℕ)}
    (hes : es.NodupKeys) : total (rekey g es) = (es.map fun e => e.2).sum := by
  rw [total_eq_weighted, weighted_rekey _ hg hes]
  simp only [Nat.one_mul]

/-! ## The order of a loop -/

/-- The same value under every key. -/
def Same {ν : Type*} (m m' : Table κ' ν) : Prop := ∀ k, m.lookup k = m'.lookup k

/-- Adding up needs no order. -/
theorem same_regroup (g : κ → κ') {es es' : List (Σ _ : κ, ℕ)} (h : es.Perm es') :
    Same (regroup g es) (regroup g es') := by
  intro k
  have hloop : ∀ es : List (Σ _ : κ, ℕ), (regroup g es).lookup k =
      (es.filter (g ·.1 = k)).foldl (fun v e => some (v.getD 0 + e.2)) none := fun es =>
    lookup_collect (fun e : Σ _ : κ, ℕ => g e.1) (fun _ => 0) (fun n e => n + e.2) k ∅ es
  have hcomm : RightCommutative fun (v : Option ℕ) (e : Σ _ : κ, ℕ) => some (v.getD 0 + e.2) :=
    ⟨fun v e e' => congrArg some (Nat.add_right_comm _ _ _)⟩
  rw [hloop, hloop]
  exact (h.filter _).foldl_eq none

/-- Under distinct new keys no order matters. -/
theorem same_rekey {g : κ → κ'} (hg : Function.Injective g) {es es' : List (Σ _ : κ, ℕ)}
    (hes : es.NodupKeys) (h : es.Perm es') : Same (rekey g es) (rekey g es') := by
  intro k
  have hloop : ∀ es : List (Σ _ : κ, ℕ), (rekey g es).lookup k =
      (es.filter (g ·.1 = k)).foldl (fun _ e => some e.2) none := fun es =>
    lookup_collect (fun e : Σ _ : κ, ℕ => g e.1) (fun _ => 0) (fun _ e => e.2) k ∅ es
  rw [hloop, hloop]
  have hperm := h.filter fun e => g e.1 = k
  -- at most one entry goes under the key `k`
  match hfound : es.filter (g ·.1 = k) with
  | [] =>
    rw [hfound] at hperm
    rw [hfound, hperm.symm.eq_nil]
  | [e] =>
    rw [hfound] at hperm
    rw [hfound, List.perm_singleton.mp hperm.symm]
  | e :: e' :: rest =>
    have hsub : List.Sublist [e, e'] es :=
      (List.Sublist.cons_cons e (List.Sublist.cons_cons e' (List.nil_sublist rest))).trans
        (hfound ▸ List.filter_sublist)
    have hkeys : ∀ x ∈ es.filter (g ·.1 = k), g x.1 = k := fun x hx =>
      of_decide_eq_true (List.mem_filter.mp hx).2
    rw [hfound] at hkeys
    have hsame : e.1 = e'.1 := hg ((hkeys e List.mem_cons_self).trans
      (hkeys e' (List.mem_cons_of_mem e List.mem_cons_self)).symm)
    have hnodup : [e.1, e'.1].Nodup := List.Nodup.sublist (hsub.map Sigma.fst) hes
    exact absurd hsame (List.ne_of_not_mem_cons (List.nodup_cons.mp hnodup).1)

end Table
