import Mathlib.Data.List.Basic
import Mathlib.Data.List.Forall2
import Mathlib.Data.List.Infix
import Mathlib.Tactic.Common

/-!
# Paths

A path is a volume, a root or none, and elements. Cleaning resolves the elements that name the
current or the parent directory; the path of one directory relative to another goes up over what the
two do not share, and then down.
-/

namespace FilePath

/-- A path by its elements. -/
@[ext]
structure Path (α : Type*) where
  volume : List α
  rooted : Bool
  elems : List (List α)

variable {α β : Type*}

/-! ## Cleaning -/

section Clean

variable [DecidableEq α] (dot : α)

/-- The name of the parent directory. -/
def parent : List α := [dot, dot]

/-- The parent of the path on a stack of elements. There is nothing above the root. -/
def up (rooted : Bool) : List (List α) → List (List α)
  | [] => if rooted then [] else [parent dot]
  | top :: below => if top = parent dot then parent dot :: top :: below else below

/-- One more element on a stack of elements. -/
def push (rooted : Bool) (stack : List (List α)) (e : List α) : List (List α) :=
  if e = [] ∨ e = [dot] then stack
  else if e = parent dot then up dot rooted stack
  else e :: stack

/-- The path without empty elements, current directories and parents of elements. -/
def Path.clean (p : Path α) : Path α :=
  { p with elems := (p.elems.foldl (push dot p.rooted) []).reverse }

variable {dot}

/-- Going up adds at most a parent element. -/
theorem mem_up {rooted : Bool} {stack : List (List α)} {x : List α}
    (h : x ∈ up dot rooted stack) : x ∈ stack ∨ x = parent dot := by
  cases stack with
  | nil =>
    rw [up] at h
    split at h
    · exact .inl h
    · exact .inr (List.mem_singleton.mp h)
  | cons top below =>
    rw [up] at h
    split at h
    · exact (List.mem_cons.mp h).symm
    · exact .inl (List.mem_cons_of_mem _ h)

/-- What is on the stack is what was there and the element, if it is proper. -/
theorem mem_push {rooted : Bool} {stack : List (List α)} {e x : List α}
    (h : x ∈ push dot rooted stack e) : x ∈ stack ∨ (x = e ∧ e ≠ [] ∧ e ≠ [dot]) := by
  unfold push at h
  split at h
  · exact .inl h
  · next hproper =>
    have hproper := not_or.mp hproper
    split at h
    · next he => exact (mem_up h).imp_right fun hx => ⟨hx.trans he.symm, hproper⟩
    · exact (List.mem_cons.mp h).symm.imp_right fun hx => ⟨hx, hproper⟩

/-- Cleaning makes no new elements and keeps only proper ones. -/
theorem mem_clean {p : Path α} {x : List α} (h : x ∈ (p.clean dot).elems) :
    x ∈ p.elems ∧ x ≠ [] ∧ x ≠ [dot] := by
  have hfold : ∀ (elems stack : List (List α)), x ∈ elems.foldl (push dot p.rooted) stack →
      x ∈ stack ∨ (x ∈ elems ∧ x ≠ [] ∧ x ≠ [dot]) := by
    intro elems
    induction elems with
    | nil => exact fun _ hx => .inl hx
    | cons e elems ih =>
      intro stack hx
      rcases ih _ hx with hx | ⟨hx, hproper⟩
      · rcases mem_push hx with hx | ⟨rfl, hproper⟩
        · exact .inl hx
        · exact .inr ⟨List.mem_cons_self, hproper⟩
      · exact .inr ⟨List.mem_cons_of_mem _ hx, hproper⟩
  exact (hfold _ _ (List.mem_reverse.mp h)).resolve_left List.not_mem_nil

variable (dot) in
/-- The elements that go up stand in front of those that go down. -/
def Descends (elems : List (List α)) : Prop :=
  ∃ n names, elems = List.replicate n (parent dot) ++ names ∧ parent dot ∉ names

/-- Going up leaves all parent elements in front. -/
theorem up_descends {rooted : Bool} {stack : List (List α)} (h : Descends dot stack.reverse) :
    Descends dot (up dot rooted stack).reverse := by
  obtain ⟨n, names, hstack, hnames⟩ := h
  cases stack with
  | nil =>
    rw [up]
    split
    · exact ⟨0, [], rfl, List.not_mem_nil⟩
    · exact ⟨1, [], rfl, List.not_mem_nil⟩
  | cons top below =>
    rw [List.reverse_cons] at hstack
    rw [up]
    rcases List.eq_nil_or_concat names with rfl | ⟨names, last, rfl⟩
    · -- the stack goes up only
      rw [List.append_nil] at hstack
      have htop : top = parent dot := by
        refine List.eq_of_mem_replicate (n := n) ?_
        rw [← hstack]
        exact List.mem_append_right _ List.mem_cons_self
      rw [if_pos htop]
      refine ⟨n + 1, [], ?_, List.not_mem_nil⟩
      rw [List.reverse_cons, List.reverse_cons, hstack, List.append_nil, List.replicate_succ']
    · rw [List.concat_eq_append, ← List.append_assoc] at hstack
      rw [List.concat_eq_append] at hnames
      obtain ⟨hbelow, hlast⟩ := List.append_inj' hstack rfl
      have hlast := List.head_eq_of_cons_eq hlast
      rw [List.mem_append, not_or] at hnames
      rw [if_neg fun htop => hnames.2 (List.mem_singleton.mpr (htop.symm.trans hlast))]
      exact ⟨n, names, hbelow, hnames.1⟩

/-- And so does every other element. -/
theorem push_descends {rooted : Bool} {stack : List (List α)} (h : Descends dot stack.reverse)
    (e : List α) : Descends dot (push dot rooted stack e).reverse := by
  unfold push
  split
  · exact h
  split
  · exact up_descends h
  · next he =>
    obtain ⟨n, names, hstack, hnames⟩ := h
    refine ⟨n, names ++ [e], ?_, ?_⟩
    · rw [List.reverse_cons, hstack, List.append_assoc]
    · rw [List.mem_append, not_or]
      exact ⟨hnames, fun hmem => he (List.mem_singleton.mp hmem).symm⟩

/-- A clean path goes up first. -/
theorem clean_descends (p : Path α) : Descends dot (p.clean dot).elems := by
  have hfold : ∀ (elems stack : List (List α)), Descends dot stack.reverse →
      Descends dot (elems.foldl (push dot p.rooted) stack).reverse := by
    intro elems
    induction elems with
    | nil => exact fun _ h => h
    | cons e elems ih => exact fun _ h => ih _ (push_descends h e)
  exact hfold p.elems [] ⟨0, [], rfl, List.not_mem_nil⟩

omit [DecidableEq α] in
/-- Behind a part of a descending list, a parent can only come first. -/
theorem Descends.head_eq_parent {front rest : List (List α)} (h : Descends dot (front ++ rest))
    (hmem : parent dot ∈ rest) : ∃ tail, rest = parent dot :: tail := by
  obtain ⟨n, names, heq, hnames⟩ := h
  cases rest with
  | nil => exact absurd hmem List.not_mem_nil
  | cons e tail =>
    rcases List.append_eq_append_iff.mp heq with ⟨mid, hups, hrest⟩ | ⟨mid, hfront, hdown⟩
    · cases mid with
      | nil =>
        rw [List.nil_append] at hrest
        exact absurd (hrest ▸ hmem) hnames
      | cons m mid =>
        obtain ⟨rfl, -⟩ := List.cons.inj hrest
        refine ⟨tail, congrArg (· :: tail) (List.eq_of_mem_replicate (n := n) ?_)⟩
        rw [hups]
        exact List.mem_append_right _ List.mem_cons_self
    · exact absurd (hdown ▸ List.mem_append_right _ hmem) hnames

end Clean

/-! ## Relative paths -/

/-- What is left of two lists without what they share in front. -/
def diverge (same : β → β → Bool) : List β → List β → List β × List β
  | b :: base, t :: target =>
    if same b t then diverge same base target else (b :: base, t :: target)
  | base, target => (base, target)

/-- One path lies below another when nothing of the other is left. -/
theorem diverge_eq_nil_iff {same : β → β → Bool} {base target rest : List β} :
    diverge same base target = ([], rest) ↔
      ∃ front, target = front ++ rest ∧ List.Forall₂ (fun b t => same b t = true) base front := by
  induction base generalizing target with
  | nil =>
    -- elements of the base are left over, so the target does not begin with it
    rw [show diverge same [] target = ([], target) by cases target <;> rfl]
    constructor
    · rintro ⟨⟩
      exact ⟨[], rfl, .nil⟩
    · rintro ⟨front, rfl, hfront⟩
      cases hfront
      rfl
  | cons b base ih =>
    cases target with
    | nil =>
      refine iff_of_false (fun h => by cases h) ?_
      rintro ⟨front, hfront, hsame⟩
      cases hsame
      cases hfront
    | cons t target =>
      rw [diverge]
      split
      -- the first elements agree, and the rest is the induction's
      · next hbt =>
        rw [ih]
        constructor
        · rintro ⟨front, rfl, hsame⟩
          exact ⟨t :: front, rfl, .cons hbt hsame⟩
        · rintro ⟨front, hfront, hsame⟩
          cases hsame with
          | cons _ hsame =>
            obtain ⟨-, htarget⟩ := List.cons.inj hfront
            exact ⟨_, htarget, hsame⟩
      · next hbt =>
        refine iff_of_false (fun h => by cases h) ?_
        rintro ⟨front, hfront, hsame⟩
        cases hsame with
        | cons hbt' _ =>
          obtain ⟨rfl, -⟩ := List.cons.inj hfront
          exact hbt hbt'

section Relative

variable [DecidableEq α] (dot : α) (same : List α → List α → Bool)

/-- The way from one clean path to another: none between two volumes, and none out of a parent
directory whose name is not known. -/
def relative (base target : Path α) : Option (List (List α)) :=
  if base.rooted = target.rooted ∧ same base.volume target.volume then
    let left := diverge same base.elems target.elems
    if left.1.head? = some (parent dot) then none
    else some (List.replicate left.1.length (parent dot) ++ left.2)
  else none

/-- The path continues the other one downwards with `rest`. -/
structure Below (base target : Path α) (rest : List (List α)) : Prop where
  rooted : base.rooted = target.rooted
  volume : same base.volume target.volume = true
  elems : ∃ front, target.elems = front ++ rest ∧
    List.Forall₂ (fun b t => same b t = true) base.elems front
  down : parent dot ∉ rest

variable {dot same} in
omit [DecidableEq α] in
/-- There is one way down. -/
theorem Below.unique {base target : Path α} {rest rest' : List (List α)}
    (h : Below dot same base target rest) (h' : Below dot same base target rest') :
    rest = rest' := by
  obtain ⟨front, htarget, hsame⟩ := h.elems
  obtain ⟨front', htarget', hsame'⟩ := h'.elems
  have hlength : front.length = front'.length := hsame.length_eq.symm.trans hsame'.length_eq
  exact (List.append_inj (htarget.symm.trans htarget') hlength).2

/-- The text of a relative path. -/
def text (sep : α) (elems : List (List α)) : List α :=
  if elems = [] then [dot] else [sep].intercalate elems

variable {dot same}

omit [DecidableEq α] in
/-- The text begins with the two dots of a parent when its first element does. -/
theorem parent_isPrefix_text {sep : α} (hsep : sep ≠ dot) {elems : List (List α)} :
    parent dot <+: text dot sep elems ↔ ∃ name tail, elems = (dot :: dot :: name) :: tail := by
  have hfirst : ∀ (e behind : List α), (∀ c ∈ behind.head?, c = sep) →
      (parent dot <+: e ++ behind ↔ ∃ name, e = dot :: dot :: name) := by
    intro e behind hbehind
    rcases e with _ | ⟨a, _ | ⟨b, name⟩⟩
    · rcases behind with _ | ⟨c, behind⟩
      · simp [parent]
      · obtain rfl := hbehind c rfl
        simp [parent, hsep.symm]
    · rcases behind with _ | ⟨c, behind⟩
      · simp [parent]
      · obtain rfl := hbehind c rfl
        simp [parent, hsep.symm]
    · simp [parent, eq_comm]
  rcases elems with _ | ⟨e, _ | ⟨e', tail⟩⟩
  · simp [text, parent]
  · have := hfirst e [] (by simp)
    rw [List.append_nil] at this
    simpa [text] using this
  · have := hfirst e (sep :: [sep].intercalate (e' :: tail)) (by simp)
    simpa [text, List.intercalate_cons_cons] using this

/-- Below the base, the relative path is what follows the base. -/
theorem relative_of_below {base target : Path α} {rest : List (List α)}
    (h : Below dot same base target rest) : relative dot same base target = some rest := by
  rw [relative, if_pos ⟨h.rooted, h.volume⟩, diverge_eq_nil_iff.mpr h.elems]
  rfl

/-- The way down is the way that does not begin with two dots, unless it leads through an element
that begins with two dots and is not the parent. -/
theorem relative_descends_iff {sep : α} (hsep : sep ≠ dot) {base target : Path α}
    (hclean : Descends dot target.elems) :
    (∃ elems, relative dot same base target = some elems ∧ ¬ parent dot <+: text dot sep elems) ↔
      ∃ rest, Below dot same base target rest ∧
        ∀ name tail, rest ≠ (dot :: dot :: name) :: tail := by
  constructor
  · rintro ⟨elems, hrel, hdots⟩
    rw [parent_isPrefix_text hsep] at hdots
    unfold relative at hrel
    split at hrel
    · next hplace =>
      obtain ⟨hrooted, hvolume⟩ := hplace
      rcases hleft : diverge same base.elems target.elems with ⟨left, rest⟩
      rw [hleft] at hrel
      dsimp only at hrel
      split at hrel
      · cases hrel
      · obtain rfl := Option.some.inj hrel
        cases left with
        | nil =>
          obtain ⟨front, htarget, hsame⟩ := diverge_eq_nil_iff.mp hleft
          refine ⟨rest, ⟨hrooted, hvolume, ⟨front, htarget, hsame⟩, fun hmem => hdots ?_⟩, ?_⟩
          · obtain ⟨tail, rfl⟩ := Descends.head_eq_parent (htarget ▸ hclean) hmem
            exact ⟨[], tail, rfl⟩
          · rintro name tail rfl
            exact hdots ⟨name, tail, rfl⟩
        | cons b left => exact absurd ⟨[], _, rfl⟩ hdots
    · cases hrel
  · rintro ⟨rest, hrest, hdots⟩
    refine ⟨rest, relative_of_below hrest, fun hfront => ?_⟩
    obtain ⟨name, tail, rfl⟩ := (parent_isPrefix_text hsep).mp hfront
    exact hdots name tail rfl

end Relative

/-! ## Texts with drive letters -/

/-- How texts write paths: the dot of the special elements, the separator and what is read as one,
and the drives, a letter and a colon each. -/
structure Syntax (α : Type*) where
  dot : α
  sep : α
  colon : α
  isSep : α → Bool
  isLetter : α → Bool
  isSep_sep : isSep sep = true
  isSep_dot : isSep dot = false
  isSep_colon : isSep colon = false
  isSep_letter : ∀ c, isLetter c = true → isSep c = false
  isLetter_dot : isLetter dot = false

namespace Syntax

variable [DecidableEq α] (x : Syntax α)

/-- The character with one spelling of the separator. -/
def slashed (c : α) : α := if x.isSep c then x.sep else c

/-- The drive at the front of a text. -/
def drive : List α → List α
  | l :: c :: _ => if x.isLetter l ∧ c = x.colon then [l, c] else []
  | _ => []

/-- The elements of a text between its separators. -/
def elemsOf (t : List α) : List (List α) :=
  (t.splitOn x.sep).filter fun e => e ≠ [] ∧ e ≠ [x.dot]

/-- The path that a text writes. -/
def read (t : List α) : Path α :=
  let t := t.map x.slashed
  let rest := t.drop (x.drive t).length
  { volume := x.drive t, rooted := rest.head? = some x.sep, elems := x.elemsOf rest }

/-- The text of a path behind its volume. -/
def body (p : Path α) : List α :=
  if p.rooted then x.sep :: [x.sep].intercalate p.elems else text x.dot x.sep p.elems

/-- The text of a path. A first element does not become a drive. -/
def write (p : Path α) : List α :=
  if p.volume = [] ∧ x.drive (x.body p) ≠ [] then x.dot :: x.sep :: x.body p
  else p.volume ++ x.body p

/-- The clean text of the same file. -/
def clean (t : List α) : List α := x.write ((x.read t).clean x.dot)

/-- What a text can write: a drive or none, and proper elements without separators. -/
structure Writable (p : Path α) : Prop where
  volume : x.drive p.volume = p.volume
  proper : ∀ e ∈ p.elems, e ≠ [] ∧ e ≠ [x.dot]
  plain : ∀ e ∈ p.elems, ∀ c ∈ e, x.isSep c = false

variable {x}

omit [DecidableEq α] in
/-- The separator is a separator. -/
theorem sep_ne {c : α} (h : x.isSep c = false) : c ≠ x.sep := by
  rintro rfl
  exact Bool.false_ne_true (h.symm.trans x.isSep_sep)

omit [DecidableEq α] in
/-- A text that knows one separator is not changed. -/
theorem map_slashed_of_plain {t : List α} (h : ∀ c ∈ t, x.isSep c = true → c = x.sep) :
    t.map x.slashed = t := by
  refine (List.map_congr_left fun c hc => ?_).trans (List.map_id t)
  rw [slashed]
  split
  · next hsep => exact (h c hc hsep).symm
  · rfl

/-- A drive is a letter and a colon. -/
theorem drive_eq_or (t : List α) :
    x.drive t = [] ∨ ∃ l rest, x.isLetter l = true ∧ x.drive t = [l, x.colon] ∧
      t = l :: x.colon :: rest := by
  rcases t with _ | ⟨l, _ | ⟨c, rest⟩⟩
  · exact .inl rfl
  · exact .inl rfl
  · rw [drive]
    split
    · next h => exact .inr ⟨l, rest, h.1, by rw [h.2], by rw [h.2]⟩
    · exact .inl rfl

/-- The elements of a text are its parts that say something. -/
theorem mem_elemsOf {t e : List α} (h : e ∈ x.elemsOf t) :
    e ∈ t.splitOn x.sep ∧ e ≠ [] ∧ e ≠ [x.dot] := by
  simpa [elemsOf] using h

/-- The elements of a text are made of its characters other than the separator. -/
theorem mem_of_mem_splitOn {t e : List α} (h : e ∈ t.splitOn x.sep) {c : α} (hc : c ∈ e) :
    c ∈ t ∧ c ≠ x.sep := by
  induction t generalizing e with
  | nil =>
    rw [List.splitOn_nil] at h
    obtain rfl := List.mem_singleton.mp h
    exact absurd hc List.not_mem_nil
  | cons a t ih =>
    rw [List.splitOn_cons_eq_if_modifyHead] at h
    split at h
    · rcases List.mem_cons.mp h with rfl | h
      · exact absurd hc List.not_mem_nil
      · exact (ih h hc).imp_left (List.mem_cons_of_mem _)
    · next hne =>
      cases hsplit : t.splitOn x.sep with
      | nil => exact absurd hsplit (List.splitOn_ne_nil _ _)
      | cons first others =>
        rw [hsplit] at h ih
        rcases List.mem_cons.mp h with rfl | h
        · rcases List.mem_cons.mp hc with rfl | hc
          · exact ⟨List.mem_cons_self, by simpa using hne⟩
          · exact (ih List.mem_cons_self hc).imp_left (List.mem_cons_of_mem _)
        · exact (ih (List.mem_cons_of_mem _ h) hc).imp_left (List.mem_cons_of_mem _)

/-- What has been read can be written. -/
theorem writable_read (t : List α) : x.Writable (x.read t) := by
  refine ⟨?_, fun e he => (mem_elemsOf he).2, fun e he c hc => ?_⟩
  · change x.drive (x.drive (t.map x.slashed)) = x.drive (t.map x.slashed)
    rcases x.drive_eq_or (t.map x.slashed) with h | ⟨l, rest, hl, h, -⟩
    · rw [h]
      rfl
    · rw [h]
      exact if_pos ⟨hl, rfl⟩
  · obtain ⟨hmem, hne⟩ := mem_of_mem_splitOn (mem_elemsOf he).1 hc
    obtain ⟨a, -, rfl⟩ := List.mem_map.mp (List.mem_of_mem_drop hmem)
    rw [slashed] at hne ⊢
    split at hne
    · exact absurd rfl hne
    · next ha => simp [ha]

/-- Cleaning leaves a path that can be written. -/
theorem Writable.clean {p : Path α} (h : x.Writable p) : x.Writable (p.clean x.dot) :=
  ⟨h.volume, fun _ he => (mem_clean he).2, fun e he => h.plain e (mem_clean he).1⟩

/-- The elements of the body are the elements of the path. -/
theorem elemsOf_body {p : Path α} (h : x.Writable p) : x.elemsOf (x.body p) = p.elems := by
  have hproper : p.elems.filter (fun e => decide (e ≠ [] ∧ e ≠ [x.dot])) = p.elems :=
    List.filter_eq_self.mpr fun e he => decide_eq_true (h.proper e he)
  have hfree : ∀ e ∈ p.elems, x.sep ∉ e := fun e he hmem => sep_ne (h.plain e he _ hmem) rfl
  have hdot : x.sep ∉ [x.dot] := by
    rw [List.mem_singleton]
    exact (sep_ne x.isSep_dot).symm
  rw [elemsOf, body]
  by_cases hnil : p.elems = []
  · rw [hnil]
    split
    · simp [List.splitOn_cons_eq_if_modifyHead]
    · rw [text, if_pos rfl, List.splitOn_eq_singleton hdot]
      simp
  · split
    · rw [show x.sep :: [x.sep].intercalate p.elems = [] ++ x.sep :: [x.sep].intercalate p.elems
        from rfl, List.splitOn_append_cons_self_of_not_mem List.not_mem_nil,
        List.splitOn_intercalate _ hfree hnil]
      simpa using hproper
    · rw [text, if_neg hnil, List.splitOn_intercalate _ hfree hnil, hproper]

/-- The body begins with a separator when the path is rooted. -/
theorem head_body {p : Path α} (h : x.Writable p) :
    (x.body p).head? = some x.sep ↔ p.rooted = true := by
  rw [body]
  split
  · next hrooted => exact iff_of_true rfl hrooted
  · next hrooted =>
    refine iff_of_false (fun hhead => ?_) hrooted
    rcases hp : p.elems with _ | ⟨_ | ⟨c, e⟩, elems⟩
    · rw [hp, text, if_pos rfl] at hhead
      exact sep_ne x.isSep_dot (Option.some.inj hhead)
    · exact (h.proper [] (hp ▸ List.mem_cons_self)).1 rfl
    · have hc := h.plain (c :: e) (hp ▸ List.mem_cons_self) c List.mem_cons_self
      rw [hp, text, if_neg (List.cons_ne_nil _ _)] at hhead
      cases elems <;> exact sep_ne hc (Option.some.inj hhead)

omit [DecidableEq α] in
/-- Joined elements know one separator. -/
theorem plain_intercalate {elems : List (List α)}
    (h : ∀ e ∈ elems, ∀ c ∈ e, x.isSep c = false) :
    ∀ c ∈ [x.sep].intercalate elems, x.isSep c = true → c = x.sep := by
  intro c hc hsep
  induction elems with
  | nil => exact absurd hc List.not_mem_nil
  | cons e elems ih =>
    have hplain : c ∉ e := fun hce =>
      Bool.false_ne_true ((h e List.mem_cons_self c hce).symm.trans hsep)
    cases elems with
    | nil => exact absurd (by simpa using hc) hplain
    | cons e' elems =>
      rw [List.intercalate_cons_cons, List.append_assoc, List.mem_append, List.mem_append] at hc
      rcases hc with hc | hc | hc
      · exact absurd hc hplain
      · exact List.mem_singleton.mp hc
      · exact ih (fun e he => h e (List.mem_cons_of_mem _ he)) hc

/-- The text has one spelling of the separator. -/
theorem plain_body {p : Path α} (h : x.Writable p) :
    ∀ c ∈ x.body p, x.isSep c = true → c = x.sep := by
  intro c hc hsep
  rw [body] at hc
  split at hc
  · rcases List.mem_cons.mp hc with rfl | hc
    · rfl
    · exact plain_intercalate h.plain c hc hsep
  · rw [text] at hc
    split at hc
    · rw [List.mem_singleton.mp hc, x.isSep_dot] at hsep
      cases hsep
    · exact plain_intercalate h.plain c hc hsep

/-- So does what is written. -/
theorem plain_write {p : Path α} (h : x.Writable p) :
    ∀ c ∈ x.write p, x.isSep c = true → c = x.sep := by
  intro c hc hsep
  rw [write] at hc
  split at hc
  · rcases List.mem_cons.mp hc with rfl | hc
    · rw [x.isSep_dot] at hsep
      cases hsep
    rcases List.mem_cons.mp hc with rfl | hc
    · rfl
    · exact plain_body h c hc hsep
  · rcases List.mem_append.mp hc with hc | hc
    · exfalso
      rw [← h.volume] at hc
      rcases x.drive_eq_or p.volume with hdrive | ⟨l, rest, hl, hdrive, -⟩
      · rw [hdrive] at hc
        exact List.not_mem_nil hc
      · rw [hdrive] at hc
        rcases List.mem_cons.mp hc with rfl | hc
        · exact Bool.false_ne_true ((x.isSep_letter c hl).symm.trans hsep)
        · rw [List.mem_singleton.mp hc, x.isSep_colon] at hsep
          cases hsep
    · exact plain_body h c hc hsep

/-- A drive is not rooted. -/
theorem head_of_drive {t : List α} (h : x.drive t ≠ []) : t.head? ≠ some x.sep := by
  rcases x.drive_eq_or t with hdrive | ⟨l, rest, hl, -, rfl⟩
  · exact absurd hdrive h
  · exact fun hhead => sep_ne (x.isSep_letter l hl) (Option.some.inj hhead)

/-- A text behind its drive is read as the drive and the elements. -/
theorem read_append {v rest : List α} (hplain : ∀ c ∈ v ++ rest, x.isSep c = true → c = x.sep)
    (hv : x.drive (v ++ rest) = v) :
    x.read (v ++ rest) =
      { volume := v, rooted := rest.head? = some x.sep, elems := x.elemsOf rest } := by
  simp only [read, map_slashed_of_plain hplain, hv, List.drop_left]

/-- A text that was written is read back. -/
theorem read_write {p : Path α} (h : x.Writable p) : x.read (x.write p) = p := by
  have hplain := plain_write h
  rw [write] at hplain ⊢
  split at hplain
  · next hguard =>
    -- the body looks like a drive, so the text begins with the current directory
    obtain ⟨hvolume, hdrive⟩ := hguard
    have hrooted : p.rooted = false :=
      Bool.eq_false_iff.mpr fun hr => head_of_drive hdrive ((head_body h).mpr hr)
    have hfront : x.drive (x.dot :: x.sep :: x.body p) = [] := by
      rw [drive, if_neg]
      rintro ⟨hletter, -⟩
      exact Bool.false_ne_true (x.isLetter_dot.symm.trans hletter)
    have hdot : x.sep ∉ [x.dot] := by
      rw [List.mem_singleton]
      exact (sep_ne x.isSep_dot).symm
    have helems : x.elemsOf ([x.dot] ++ x.sep :: x.body p) = p.elems := by
      rw [← elemsOf_body h, elemsOf, List.splitOn_append_cons_self_of_not_mem hdot]
      simp [elemsOf]
    rw [if_pos ⟨hvolume, hdrive⟩]
    refine (read_append (v := []) hplain hfront).trans (Path.ext hvolume.symm ?_ helems)
    rw [hrooted]
    exact decide_eq_false fun hhead => sep_ne x.isSep_dot (Option.some.inj hhead)
  · next hguard =>
    rw [if_neg hguard]
    have hdrive : x.drive (p.volume ++ x.body p) = p.volume := by
      rcases x.drive_eq_or p.volume with hvolume | ⟨l, rest, hl, hvolume, -⟩
      · rw [h.volume] at hvolume
        rw [hvolume]
        exact not_not.mp fun hdrive => hguard ⟨hvolume, hdrive⟩
      · rw [h.volume] at hvolume
        rw [hvolume]
        exact if_pos ⟨hl, rfl⟩
    refine (read_append hplain hdrive).trans (Path.ext rfl ?_ (elemsOf_body h))
    exact Bool.eq_iff_iff.mpr (by simpa using head_body h)

/-- Cleaning a text cleans the path that it writes. -/
theorem read_clean (t : List α) : x.read (x.clean t) = (x.read t).clean x.dot :=
  read_write (writable_read t).clean

end Syntax

end FilePath
