import UsbPcap.Lib.Transition
import Mathlib.Logic.Function.Basic

/-!
# The children of a hub

On every `BusRelations` query a hub attaches a filter device to each child that is not among the
children it remembers from the query before. When the copy of the list cannot be allocated it
remembers none, and the next query takes every child for a new one: `HubChildren.attached_once_iff`.
-/

namespace UsbPcap.Driver

/-- `PDEVICE_OBJECT` of a child. -/
abbrev Pdo := ℕ

/-- What happens on the way to an attached filter device: whether `IoCreateDevice` succeeds and sets
the object, whether `USBPcapAllocateDeviceData` succeeds and whether the device stack takes the
filter. -/
structure AttachResult where
  created : Bool
  objectSet : Bool
  dataAllocated : Bool
  stacked : Bool
deriving DecidableEq, Repr

/-- `DkCreateAndAttachTgt`: whether it leaves a filter device attached. -/
def createAndAttachTgt (r : AttachResult) : Bool :=
  if r.created = false then false
  else if r.objectSet = false then false
  else if r.dataAllocated = false then false
  else r.stacked

/-- A hub's device data that remembers its children, with the filter devices that are attached to
each child, and whether an attachment to it was attempted while it had one. -/
structure HubChildren where
  previousChildren : Option (List Pdo)
  filters : Pdo → ℕ
  again : Pdo → Bool

/-- A query: the relations that the lower driver reports, if it succeeds and reports any, each with
what would come of an attachment, and whether the copy of the list can be allocated. -/
structure RelationsQuery where
  relations : Option (List (Pdo × AttachResult))
  copyAllocated : Bool

namespace HubChildren

/-- The search for a child among the previous ones. -/
def isPrevious (previousChildren : Option (List Pdo)) (child : Pdo) : Bool :=
  match previousChildren with
  | none => false
  | some children => children.contains child

/-- One call of `DkCreateAndAttachTgt`. -/
def attach (s : HubChildren) (child : Pdo) (r : AttachResult) : HubChildren :=
  { s with
    filters :=
      if createAndAttachTgt r then Function.update s.filters child (s.filters child + 1)
      else s.filters
    again := Function.update s.again child (s.again child || s.filters child ≠ 0) }

/-- The loop over the relations. -/
def attachNew (s : HubChildren) : List (Pdo × AttachResult) → HubChildren
  | [] => s
  | (child, r) :: rest =>
    if isPrevious s.previousChildren child then s.attachNew rest
    else (s.attach child r).attachNew rest

/-- Children that are not reported any more are removed with their filter devices. -/
def depart (s : HubChildren) (children : List Pdo) : HubChildren :=
  { s with filters := fun child => if child ∈ children then s.filters child else 0 }

/-- `DkHubFltPnpHandleQryDevRels` for `BusRelations`. -/
def handleQryDevRels (s : HubChildren) (q : RelationsQuery) : HubChildren :=
  match q.relations with
  | none => s
  | some relations =>
    let children := relations.map Prod.fst
    let s := (s.depart children).attachNew relations
    { s with
      previousChildren :=
        if 0 < children.length ∧ q.copyAllocated then some children else none }

/-- A hub to which no child has been reported. -/
def init : HubChildren where
  previousChildren := none
  filters _ := 0
  again _ := false

/-- Every query is possible. -/
def step (s : HubChildren) (q : RelationsQuery) : Option HubChildren := some (s.handleQryDevRels q)

/-- No child has two filter devices, and none with a filter device was attached to again. -/
def Good (s : HubChildren) : Prop := ∀ c, s.filters c ≤ 1 ∧ s.again c = false

/-- When no children are remembered, none of the reported ones has a filter device; and the lower
driver reports a new child only once, or the first attachment fails. -/
def Remembers (s : HubChildren) (q : RelationsQuery) : Prop :=
  ∀ relations, q.relations = some relations →
    (s.previousChildren = none → ∀ x ∈ relations, s.filters x.1 = 0) ∧
    relations.Pairwise fun x y =>
      x.1 = y.1 → isPrevious s.previousChildren x.1 = false → createAndAttachTgt x.2 = false

/-! ## The loop -/

@[simp] theorem attach_previousChildren (s : HubChildren) (c : Pdo) (r : AttachResult) :
    (s.attach c r).previousChildren = s.previousChildren := rfl

/-- The loop leaves children alone that are not reported. -/
theorem attachNew_other {s : HubChildren} {relations : List (Pdo × AttachResult)} {c : Pdo}
    (hc : c ∉ relations.map Prod.fst) : (s.attachNew relations).filters c = s.filters c := by
  induction relations generalizing s with
  | nil => rfl
  | cons x rest ih =>
    obtain ⟨child, r⟩ := x
    rw [List.map_cons, List.mem_cons, not_or] at hc
    rw [attachNew]
    split
    · exact ih hc.2
    · rw [ih hc.2, attach]
      dsimp only
      split
      · rw [Function.update_of_ne hc.1]
      · rfl

/-- A second attachment is remembered. -/
theorem attachNew_again {s : HubChildren} {c : Pdo} (hc : s.again c = true)
    (relations : List (Pdo × AttachResult)) : (s.attachNew relations).again c = true := by
  induction relations generalizing s with
  | nil => exact hc
  | cons x rest ih =>
    obtain ⟨child, r⟩ := x
    rw [attachNew]
    split
    · exact ih hc
    · refine ih ?_
      rw [attach]
      by_cases hcc : c = child
      · subst hcc
        simp only [Function.update_self, hc, Bool.true_or]
      · simp only [Function.update_of_ne hcc, hc]

/-- One attachment to a child without a filter device keeps the state good. -/
theorem Good.attach {s : HubChildren} (h : Good s) {child : Pdo} (hzero : s.filters child = 0)
    (r : AttachResult) : Good (s.attach child r) := by
  intro c
  obtain ⟨hle, hagain⟩ := h c
  by_cases hc : c = child
  · subst hc
    simp only [HubChildren.attach, hzero, Function.update_self, hagain]
    split
    · simp
    · simp [hzero]
  · simp only [HubChildren.attach, Function.update_of_ne hc]
    split
    · rw [Function.update_of_ne hc]
      exact ⟨hle, hagain⟩
    · exact ⟨hle, hagain⟩

theorem attach_filters_eq_zero {s : HubChildren} {child : Pdo} (hzero : s.filters child = 0)
    (r : AttachResult) (c : Pdo) : (s.attach child r).filters c = 0 ↔
      s.filters c = 0 ∧ (child = c → createAndAttachTgt r = false) := by
  simp only [HubChildren.attach]
  by_cases hc : c = child
  · subst hc
    split
    · rename_i hok
      simp [hok]
    · rename_i hno
      simpa [hzero] using hno
  · split
    · simp [Function.update_of_ne hc, Ne.symm hc]
    · simp [Ne.symm hc]

/-- From a good state the loop leads to a good state exactly when no child it attaches to has a
filter device by then. -/
theorem good_attachNew_iff {s : HubChildren} (h : Good s) (relations : List (Pdo × AttachResult)) :
    Good (s.attachNew relations) ↔
      (∀ x ∈ relations, isPrevious s.previousChildren x.1 = false → s.filters x.1 = 0) ∧
      relations.Pairwise fun x y =>
        x.1 = y.1 → isPrevious s.previousChildren x.1 = false → createAndAttachTgt x.2 = false := by
  induction relations generalizing s with
  | nil => simpa [attachNew] using h
  | cons x rest ih =>
    obtain ⟨child, r⟩ := x
    rw [attachNew, List.forall_mem_cons, List.pairwise_cons]
    split
    · rename_i hprev
      rw [ih h]
      simp [hprev]
    · rename_i hnew
      rw [Bool.not_eq_true] at hnew
      by_cases hzero : s.filters child = 0
      · -- a new child: the rest is about the state in which it has its filter device
        rw [ih (h.attach hzero r), attach_previousChildren]
        simp only [attach_filters_eq_zero hzero]
        constructor
        · rintro ⟨hrest, hpair⟩
          refine ⟨⟨fun _ => hzero, fun x hx hxnew => (hrest x hx hxnew).1⟩,
            fun y hy heq _ => ?_, hpair⟩
          exact (hrest y hy (heq ▸ hnew)).2 heq
        · rintro ⟨⟨-, hrest⟩, hfirst, hpair⟩
          exact ⟨fun x hx hxnew => ⟨hrest x hx hxnew, fun heq => hfirst x hx heq hnew⟩, hpair⟩
      · -- the child has a filter device already
        have hagain : (s.attach child r).again child = true := by
          simp [HubChildren.attach, hzero]
        refine iff_of_false (fun hgood => ?_) fun hall => hzero (hall.1.1 hnew)
        exact absurd (attachNew_again hagain rest) (by simp [(hgood child).2])

/-! ## Whole runs -/

/-- What the children have that are not reported any more. -/
theorem good_depart {s : HubChildren} (h : Good s) (children : List Pdo) :
    Good (s.depart children) := by
  intro c
  refine ⟨?_, (h c).2⟩
  simp only [depart]
  split
  · exact (h c).1
  · exact Nat.zero_le 1

/-- The invariant: with remembered children, a child with a filter device is one of them. -/
def Remembered (s : HubChildren) : Prop :=
  ∀ children, s.previousChildren = some children → ∀ c, s.filters c ≠ 0 → c ∈ children

theorem remembered_step {s : HubChildren} (h : Remembered s) (q : RelationsQuery) :
    Remembered (s.handleQryDevRels q) := by
  unfold handleQryDevRels
  cases q.relations with
  | none => exact h
  | some relations =>
    intro children hchildren c hc
    dsimp only at hchildren hc
    split at hchildren
    · obtain rfl := Option.some.inj hchildren
      by_contra hnot
      refine hc ?_
      rw [attachNew_other hnot, depart]
      exact if_neg hnot
    · cases hchildren

/-- From a good state a query leads to a good state exactly when the hub remembers what it needs. -/
theorem good_step_iff {s : HubChildren} (h : Good s) (hrem : Remembered s) (q : RelationsQuery) :
    Good (s.handleQryDevRels q) ↔ s.Remembers q := by
  unfold handleQryDevRels Remembers
  cases hq : q.relations with
  | none => simpa using h
  | some relations =>
    have hiff := good_attachNew_iff (good_depart h (relations.map Prod.fst)) relations
    have hfirst : (∀ x ∈ relations, isPrevious s.previousChildren x.1 = false →
        (s.depart (relations.map Prod.fst)).filters x.1 = 0) ↔
        (s.previousChildren = none → ∀ x ∈ relations, s.filters x.1 = 0) := by
      have hkeep : ∀ x ∈ relations,
          (s.depart (relations.map Prod.fst)).filters x.1 = s.filters x.1 :=
        fun x hx => if_pos (List.mem_map_of_mem hx)
      cases hprev : s.previousChildren with
      | none =>
        refine ⟨fun hall _ x hx => ?_, fun hall x hx _ => ?_⟩
        · exact (hkeep x hx).symm.trans (hall x hx rfl)
        · exact (hkeep x hx).trans (hall rfl x hx)
      | some children =>
        refine iff_of_true (fun x hx hnew => ?_) nofun
        -- a remembered child is found
        rw [hkeep x hx]
        by_contra hne
        have hmem := hrem children hprev x.1 hne
        simp [isPrevious, hmem] at hnew
    refine (Iff.rfl.trans hiff).trans ?_
    constructor
    · rintro ⟨hzero, hpair⟩ relations' hsome
      obtain rfl := Option.some.inj hsome
      exact ⟨hfirst.mp hzero, hpair⟩
    · intro hall
      exact ⟨hfirst.mpr (hall relations rfl).1, (hall relations rfl).2⟩

theorem run_total (s : HubChildren) (qs : List RelationsQuery) :
    ∃ t, Transition.run step s qs = some t := by
  induction qs generalizing s with
  | nil => exact ⟨s, rfl⟩
  | cons q qs ih => exact ih (s.handleQryDevRels q)

/-- **Each child has one filter device as long as the hub remembers its children.** In a run of
queries no child that stays present ever has two filter devices, and none that has one is attached
to again, exactly when no query that comes without remembered children reports a child with a filter
device, and no new child is reported again in the query that attaches its filter device. -/
theorem attached_once_iff (qs : List RelationsQuery) :
    Transition.Always step Good init qs ↔ Transition.Along step Remembers init qs := by
  obtain ⟨t, ht⟩ := run_total init qs
  have hremembered : ∀ s, Transition.Reachable step init s → Remembered s := by
    intro s hs
    refine hs.invariant (P := Remembered) nofun fun u q v _ hu huv => ?_
    obtain rfl := Option.some.inj huv
    exact remembered_step hu q
  refine Transition.always_iff_along (fun _ => ⟨Nat.zero_le 1, rfl⟩) ?_ ht
  intro s q u hs hgood hst
  obtain rfl := Option.some.inj hst
  exact good_step_iff hgood (hremembered s hs) q

/-- An attachment that succeeds. -/
def attachSucceeds : AttachResult where
  created := true
  objectSet := true
  dataAllocated := true
  stacked := true

/-- One child, reported twice; the first time the copy of the list cannot be allocated. -/
def forgottenChild : List RelationsQuery :=
  [⟨some [(1, attachSucceeds)], false⟩, ⟨some [(1, attachSucceeds)], true⟩]

theorem forgotten_child_attached_twice : ¬ Transition.Always step Good init forgottenChild := by
  intro h
  have hgood := h forgottenChild _ (List.prefix_refl _) rfl 1
  exact absurd hgood.1 (by decide)

end HubChildren

end UsbPcap.Driver
