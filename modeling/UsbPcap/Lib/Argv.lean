import Mathlib.Algebra.Order.Ring.Nat
import Mathlib.Data.List.Basic
import Mathlib.Tactic.Common

/-!
# Splitting a Windows command line

`split` cuts a command line into arguments as the C runtime does. Blanks separate arguments outside
quotes; an even number of backslashes before a quote leaves half of them and the quote opens or
closes, an odd number leaves half of them and the quote itself; two quotes inside quotes are one.

`split_word` is for words, `countP_split_lt` says that every quote in the line costs a character,
`countP_split_le` that no other character gets more frequent, and `isBlank_of_mem_split` that
without quotes no argument holds a blank.
-/

namespace Argv

/-! ## Definitions -/

/-- What separates arguments. -/
def isBlank (c : Char) : Bool := c = ' ' || c = '\t'

/-- The characters with a meaning inside an argument. -/
def isSpecial (c : Char) : Bool := c = '"' || c = '\\'

/-- Outside or inside quotes, or behind a quote that closes unless a second one follows. -/
inductive Quoting where
  | outside
  | inside
  | closing
deriving DecidableEq, Repr

/-- An argument that is being read, with the number of backslashes at its end that are held back. -/
structure Arg where
  quoting : Quoting
  text : List Char
  slashes : ℕ
deriving DecidableEq, Repr

/-- Nothing read yet. -/
def Arg.empty : Arg where
  quoting := .outside
  text := []
  slashes := 0

/-- The argument, if it ends here. -/
def Arg.finish (a : Arg) : List Char := a.text ++ List.replicate a.slashes '\\'

/-- A quote that has closed. -/
def Quoting.settle : Quoting → Quoting
  | .closing => .outside
  | q => q

/-- The argument with a quote behind it. -/
def Arg.quote (a : Arg) : Arg :=
  let text := a.text ++ List.replicate (a.slashes / 2) '\\'
  if a.slashes % 2 = 1 then ⟨a.quoting, text ++ ['"'], 0⟩
  else
    match a.quoting with
    | .outside => ⟨.inside, text, 0⟩
    | .inside => ⟨.closing, text, 0⟩
    | .closing => ⟨.inside, text ++ ['"'], 0⟩

/-- The argument with another character behind it. -/
def Arg.push (a : Arg) (c : Char) : Arg :=
  if c = '"' then a.quote
  else if c = '\\' then ⟨a.quoting.settle, a.text, a.slashes + 1⟩
  else ⟨a.quoting.settle, a.finish ++ [c], 0⟩

/-- The character ends the argument. -/
def Arg.ends (a : Arg) (c : Char) : Bool := a.quoting ≠ .inside && isBlank c

/-- The arguments in the rest of a line, the first of them begun or not. -/
def splitFrom : Option Arg → List Char → List (List Char)
  | none, [] => []
  | some a, [] => [a.finish]
  | none, c :: cs => if isBlank c then splitFrom none cs else splitFrom (some (Arg.empty.push c)) cs
  | some a, c :: cs =>
    if a.ends c then a.finish :: splitFrom none cs else splitFrom (some (a.push c)) cs

/-- The arguments in a line. -/
def split (line : List Char) : List (List Char) := splitFrom none line

/-! ## Words -/

/-- Neither a blank nor a quote. -/
def IsPlain (text : List Char) : Prop := ∀ c ∈ text, isBlank c = false ∧ c ≠ '"'

/-- A text that is an argument as it stands. -/
def IsWord (text : List Char) : Prop := text ≠ [] ∧ IsPlain text

instance (text : List Char) : Decidable (IsPlain text) :=
  inferInstanceAs (Decidable (∀ c ∈ text, _))

instance (text : List Char) : Decidable (IsWord text) := inferInstanceAs (Decidable (_ ∧ _))

/-- The argument, if there is one. -/
def wordOf (text : List Char) : List (List Char) := if text = [] then [] else [text]

/-- Outside quotes a plain character is added as it is. -/
theorem Arg.push_plain {a : Arg} (ha : a.quoting = .outside) {c : Char} (hc : c ≠ '"') :
    (a.push c).quoting = .outside ∧ (a.push c).finish = a.finish ++ [c] := by
  unfold Arg.push
  rw [if_neg hc, ha]
  split
  · rename_i hslash
    refine ⟨rfl, ?_⟩
    unfold Arg.finish
    rw [hslash, List.append_assoc, ← List.replicate_succ']
  · refine ⟨rfl, ?_⟩
    unfold Arg.finish
    rw [List.replicate_zero, List.append_nil]

/-- The rest of a word goes to the argument, whatever the word's end is. -/
theorem splitFrom_plain {a : Arg} (ha : a.quoting = .outside) {text : List Char}
    (htext : IsPlain text) (rest : List Char) :
    ∃ b : Arg, b.quoting = .outside ∧ b.finish = a.finish ++ text ∧
      splitFrom (some a) (text ++ rest) = splitFrom (some b) rest := by
  induction text generalizing a with
  | nil => exact ⟨a, ha, (List.append_nil _).symm, rfl⟩
  | cons c text ih =>
    obtain ⟨hblank, hquote⟩ := htext c List.mem_cons_self
    obtain ⟨hout, hfin⟩ := a.push_plain ha hquote
    obtain ⟨b, hb, hbfin, hsplit⟩ := ih hout fun d hd => htext d (List.mem_cons_of_mem c hd)
    refine ⟨b, hb, ?_, ?_⟩
    · rw [hbfin, hfin, List.append_assoc]
      rfl
    · rw [List.cons_append, splitFrom, if_neg, hsplit]
      unfold Arg.ends
      rw [hblank, Bool.and_false]
      exact Bool.false_ne_true

/-- A word in front of a blank, and no argument where there is nothing. -/
theorem split_word {text : List Char} (htext : IsPlain text) (rest : List Char) :
    split (text ++ ' ' :: rest) = wordOf text ++ split rest := by
  cases text with
  | nil => rfl
  | cons c text =>
    obtain ⟨hblank, hquote⟩ := htext c List.mem_cons_self
    obtain ⟨hout, hfin⟩ := Arg.empty.push_plain rfl hquote
    obtain ⟨b, hb, hbfin, hsplit⟩ := splitFrom_plain hout
      (fun d hd => htext d (List.mem_cons_of_mem c hd)) (' ' :: rest)
    have hends : b.ends ' ' = true := by
      unfold Arg.ends
      rw [hb]
      rfl
    unfold split
    rw [List.cons_append, splitFrom, if_neg (by rw [hblank]; exact Bool.false_ne_true), hsplit,
      splitFrom, if_pos hends, hbfin, hfin]
    rfl

/-- The last word. -/
theorem split_last {text : List Char} (htext : IsPlain text) : split text = wordOf text := by
  cases text with
  | nil => rfl
  | cons c text =>
    obtain ⟨hblank, hquote⟩ := htext c List.mem_cons_self
    obtain ⟨hout, hfin⟩ := Arg.empty.push_plain rfl hquote
    obtain ⟨b, -, hbfin, hsplit⟩ := splitFrom_plain hout
      (fun d hd => htext d (List.mem_cons_of_mem c hd)) []
    unfold split
    rw [splitFrom, if_neg (by rw [hblank]; exact Bool.false_ne_true), ← List.append_nil text,
      hsplit, splitFrom, hbfin, hfin]
    rw [List.append_nil]
    rfl

/-- A text that is not empty is one argument. -/
theorem wordOf_word {text : List Char} (h : text ≠ []) : wordOf text = [text] := if_neg h

/-! ## Quotes cost characters -/

/-- Quotes and backslashes in the argument. -/
def Arg.weight (a : Arg) : ℕ := a.text.countP isSpecial + a.slashes

/-- Backslashes are special. -/
theorem countP_replicate_slash (n : ℕ) :
    (List.replicate n '\\').countP isSpecial = n := by
  rw [List.countP_replicate, if_pos (by decide)]

/-- The finished argument has the special characters that have been counted. -/
theorem Arg.countP_finish (a : Arg) : a.finish.countP isSpecial = a.weight := by
  unfold Arg.finish Arg.weight
  rw [List.countP_append, countP_replicate_slash]

/-- The weight counts the pending backslashes too. -/
theorem Arg.weight_mk (q : Quoting) (text : List Char) (slashes : ℕ) :
    (Arg.mk q text slashes).weight = text.countP isSpecial + slashes := rfl

/-- A quote adds at most itself, and nothing unless it is the second of two. -/
theorem Arg.weight_quote (a : Arg) :
    a.quote.weight ≤ a.weight + 1 ∧ (a.quoting ≠ .closing → a.quote.weight ≤ a.weight) := by
  have hhalf : (a.text ++ List.replicate (a.slashes / 2) '\\').countP isSpecial =
      a.text.countP isSpecial + a.slashes / 2 := by
    rw [List.countP_append, countP_replicate_slash]
  have hquote : (a.text ++ List.replicate (a.slashes / 2) '\\' ++ ['"']).countP isSpecial =
      a.text.countP isSpecial + a.slashes / 2 + 1 := by
    rw [List.countP_append, hhalf]
    rfl
  have hweight : a.weight = a.text.countP isSpecial + a.slashes := rfl
  unfold Arg.quote
  dsimp only
  split
  · rw [Arg.weight_mk, hquote, hweight]
    constructor
    · omega
    · intro _
      omega
  · split
    · rw [Arg.weight_mk, hhalf, hweight]
      constructor
      · omega
      · intro _
        omega
    · rw [Arg.weight_mk, hhalf, hweight]
      constructor
      · omega
      · intro _
        omega
    · rename_i hclosing
      rw [Arg.weight_mk, hquote, hweight]
      exact ⟨by omega, fun hne => absurd hclosing hne⟩

/-- A character adds itself at most. -/
theorem Arg.weight_push (a : Arg) (c : Char) :
    (a.push c).weight ≤ a.weight + [c].countP isSpecial := by
  unfold Arg.push
  split
  · rename_i hc
    subst hc
    exact a.weight_quote.1
  split
  · rename_i hc
    subst hc
    change a.text.countP isSpecial + (a.slashes + 1) ≤
      a.text.countP isSpecial + a.slashes + ['\\'].countP isSpecial
    rw [show ['\\'].countP isSpecial = 1 by decide]
    omega
  · change (a.finish ++ [c]).countP isSpecial + 0 ≤ _
    rw [List.countP_append, a.countP_finish, Nat.add_zero]

/-- The count of a text is that of its characters. -/
theorem countP_special_cons (c : Char) (cs : List Char) :
    (c :: cs).countP isSpecial = [c].countP isSpecial + cs.countP isSpecial := by
  rw [← List.countP_append]
  rfl

/-- What is being read. -/
def weightFrom : Option Arg → ℕ
  | none => 0
  | some a => a.weight

/-- No quote is open to be doubled. -/
def NotClosing (o : Option Arg) : Prop := ∀ a, o = some a → a.quoting ≠ .closing

/-- Only a quote can be the first of two. -/
theorem Arg.quoting_push {a : Arg} {c : Char} (hc : c ≠ '"') :
    (a.push c).quoting ≠ .closing := by
  have hsettle : a.quoting.settle ≠ .closing := by
    cases a.quoting with
    | outside => exact Quoting.noConfusion
    | inside => exact Quoting.noConfusion
    | closing => exact Quoting.noConfusion
  unfold Arg.push
  rw [if_neg hc]
  split
  · exact hsettle
  · exact hsettle

/-- One character finishes the argument or goes into it. It adds at most itself; a quote adds
nothing unless it is the second of two, and only behind a quote is one open to be doubled. -/
theorem splitFrom_cons (o : Option Arg) (c : Char) (cs : List Char) :
    ∃ front next, splitFrom o (c :: cs) = front ++ splitFrom next cs ∧
      front.flatten.countP isSpecial + weightFrom next ≤ weightFrom o + [c].countP isSpecial ∧
      (c = '"' → NotClosing o →
        front.flatten.countP isSpecial + weightFrom next ≤ weightFrom o) ∧
      (c ≠ '"' → NotClosing next) := by
  have hpushed {a : Arg} (hc : c ≠ '"') : NotClosing (some (a.push c)) := by
    intro b hb
    obtain rfl := Option.some.inj hb
    exact Arg.quoting_push hc
  have hquoted {a : Arg} (hc : c = '"') (ha : a.quoting ≠ .closing) :
      (a.push c).weight ≤ a.weight := by
    subst hc
    exact a.weight_quote.2 ha
  have hnone : NotClosing none := by
    intro a ha
    cases ha
  cases o with
  | none =>
    -- between two words: a blank is skipped, any other character begins a word
    rw [splitFrom]
    split
    · exact ⟨[], none, rfl, Nat.zero_le _, fun _ _ => Nat.le_refl 0, fun _ => hnone⟩
    · have hpush := Arg.empty.weight_push c
      refine ⟨[], some (Arg.empty.push c), rfl, ?_, fun hc _ => ?_, hpushed⟩
      · change 0 + (Arg.empty.push c).weight ≤ _
        rw [Nat.zero_add]
        exact hpush
      · change 0 + (Arg.empty.push c).weight ≤ 0
        rw [Nat.zero_add]
        exact hquoted hc Quoting.noConfusion
  | some a =>
    -- inside a word: an unquoted blank ends it, any other character joins it
    rw [splitFrom]
    split
    · have hfin : [a.finish].flatten.countP isSpecial = a.weight := by
        rw [List.flatten_singleton, a.countP_finish]
      refine ⟨[a.finish], none, rfl, ?_, fun _ _ => ?_, fun _ => hnone⟩
      · rw [hfin]
        exact Nat.le_add_right _ _
      · rw [hfin]
        exact Nat.le_refl _
    · refine ⟨[], some (a.push c), rfl, ?_, fun hc ho => ?_, hpushed⟩
      · change 0 + (a.push c).weight ≤ _
        rw [Nat.zero_add]
        exact a.weight_push c
      · change 0 + (a.push c).weight ≤ _
        rw [Nat.zero_add]
        exact hquoted hc (ho a rfl)

/-- The arguments have no more quotes and backslashes than the line. -/
theorem countP_splitFrom (o : Option Arg) (line : List Char) :
    (splitFrom o line).flatten.countP isSpecial ≤ weightFrom o + line.countP isSpecial := by
  induction line generalizing o with
  | nil =>
    cases o with
    | none => exact Nat.le_refl 0
    | some a =>
      rw [splitFrom, List.flatten_singleton, a.countP_finish]
      exact Nat.le_refl _
  | cons c cs ih =>
    obtain ⟨front, next, hsplit, hcount, -⟩ := splitFrom_cons o c cs
    have hrest := ih next
    rw [hsplit, List.flatten_append, List.countP_append, countP_special_cons]
    omega

/-- With a quote in the line, the arguments have fewer: the first quote opens, or is escaped by a
backslash. -/
theorem countP_splitFrom_lt {o : Option Arg} (ho : NotClosing o) {line : List Char}
    (hquote : '"' ∈ line) :
    (splitFrom o line).flatten.countP isSpecial < weightFrom o + line.countP isSpecial := by
  induction line generalizing o with
  | nil => cases hquote
  | cons c cs ih =>
    obtain ⟨front, next, hsplit, hcount, hfirst, hnext⟩ := splitFrom_cons o c cs
    rw [hsplit, List.flatten_append, List.countP_append, countP_special_cons]
    by_cases hc : c = '"'
    · -- the quote counts in the line and adds nothing
      have hone : [c].countP isSpecial = 1 := by
        rw [hc]
        rfl
      have hadded := hfirst hc ho
      have hrest := countP_splitFrom next cs
      omega
    · have hin : '"' ∈ cs := (List.mem_cons.mp hquote).resolve_left (Ne.symm hc)
      have hrest := ih (hnext hc) hin
      omega

/-- A quote in the line is missing in the arguments, or costs a backslash. -/
theorem countP_split_lt {line : List Char} (hquote : '"' ∈ line) :
    (split line).flatten.countP isSpecial < line.countP isSpecial := by
  have h := countP_splitFrom_lt (o := none) (fun a ha => by cases ha) hquote
  change _ < 0 + _ at h
  rwa [Nat.zero_add] at h

/-! ## Other characters -/

/-- A character with no meaning of its own is in the argument as often as it was added. -/
theorem Arg.countP_push {p : Char → Bool} (hp : ∀ c, isSpecial c = true → p c = false) (a : Arg)
    (c : Char) : (a.push c).finish.countP p = a.finish.countP p + [c].countP p := by
  have hslashes (n : ℕ) : (List.replicate n '\\').countP p = 0 := by
    rw [List.countP_replicate, hp '\\' rfl]
    rfl
  have hfinish (b : Arg) : b.finish.countP p = b.text.countP p := by
    unfold Arg.finish
    rw [List.countP_append, hslashes, Nat.add_zero]
  rw [hfinish, hfinish]
  unfold Arg.push
  split
  · rename_i hc
    subst hc
    have hquote : ['"'].countP p = 0 := by
      rw [List.countP_singleton, hp '"' rfl]
      rfl
    have htext : (a.text ++ List.replicate (a.slashes / 2) '\\').countP p = a.text.countP p := by
      rw [List.countP_append, hslashes, Nat.add_zero]
    unfold Arg.quote
    dsimp only
    split
    · rw [List.countP_append, htext]
    · split
      · rw [htext, hquote, Nat.add_zero]
      · rw [htext, hquote, Nat.add_zero]
      · rw [List.countP_append, htext]
  · split
    · rename_i hc
      subst hc
      rw [List.countP_singleton, hp '\\' rfl]
      rfl
    · rw [List.countP_append, hfinish]

/-- The arguments hold no character more often than the line, quotes and backslashes apart. -/
theorem countP_splitFrom_le {p : Char → Bool} (hp : ∀ c, isSpecial c = true → p c = false)
    (o : Option Arg) (line : List Char) :
    (splitFrom o line).flatten.countP p ≤
      (o.elim 0 fun a => a.finish.countP p) + line.countP p := by
  induction line generalizing o with
  | nil =>
    cases o with
    | none => exact Nat.zero_le _
    | some a =>
      rw [splitFrom, List.flatten_cons, List.flatten_nil, List.append_nil]
      exact Nat.le_add_right _ _
  | cons c cs ih =>
    have hcons : (c :: cs).countP p = [c].countP p + cs.countP p := by
      rw [← List.countP_append]
      rfl
    cases o with
    | none =>
      rw [splitFrom, hcons]
      split
      · have hrest := ih none
        exact hrest.trans (Nat.add_le_add_left (Nat.le_add_left _ _) _)
      · have hrest := ih (some (Arg.empty.push c))
        rw [Option.elim_some, Arg.countP_push hp] at hrest
        change _ ≤ (0 + _) + _ at hrest
        change _ ≤ 0 + (_ + _)
        omega
    | some a =>
      rw [splitFrom, hcons, Option.elim_some]
      split
      · have hrest := ih none
        rw [List.flatten_cons, List.countP_append]
        change _ ≤ 0 + _ at hrest
        omega
      · have hrest := ih (some (a.push c))
        rw [Option.elim_some, Arg.countP_push hp] at hrest
        omega

/-- Splitting adds no character of any other kind. -/
theorem countP_split_le {p : Char → Bool} (hp : ∀ c, isSpecial c = true → p c = false)
    (line : List Char) : (split line).flatten.countP p ≤ line.countP p := by
  have h := countP_splitFrom_le hp none line
  rwa [Option.elim_none, Nat.zero_add] at h

/-! ## No quotes, no blanks -/

/-- Outside quotes and without quotes to come, the arguments hold no blank. -/
theorem isBlank_of_mem_splitFrom {o : Option Arg}
    (ho : ∀ a, o = some a → a.quoting = .outside ∧ ∀ c ∈ a.finish, isBlank c = false)
    {line : List Char} (hquote : '"' ∉ line) :
    ∀ arg ∈ splitFrom o line, ∀ c ∈ arg, isBlank c = false := by
  induction line generalizing o with
  | nil =>
    cases o with
    | none =>
      intro arg harg
      cases harg
    | some a =>
      intro arg harg
      rw [List.mem_singleton.mp harg]
      exact (ho a rfl).2
  | cons d ds ih =>
    have hd : d ≠ '"' := fun h => hquote (h ▸ List.mem_cons_self)
    have hds : '"' ∉ ds := fun h => hquote (List.mem_cons_of_mem d h)
    have hnone : ∀ arg ∈ splitFrom none ds, ∀ c ∈ arg, isBlank c = false :=
      ih (fun a ha => by cases ha) hds
    -- a character that does not end the argument is no blank
    have hsome {a : Arg} (ha : a.quoting = .outside) (hfin : ∀ c ∈ a.finish, isBlank c = false)
        (hblank : isBlank d = false) :
        ∀ arg ∈ splitFrom (some (a.push d)) ds, ∀ c ∈ arg, isBlank c = false := by
      refine ih (fun b hb => ?_) hds
      obtain rfl := Option.some.inj hb
      obtain ⟨hout, hpush⟩ := a.push_plain ha hd
      refine ⟨hout, fun c hc => ?_⟩
      rw [hpush, List.mem_append, List.mem_singleton] at hc
      rcases hc with hc | rfl
      · exact hfin c hc
      · exact hblank
    cases o with
    | none =>
      rw [splitFrom]
      split
      · exact hnone
      · rename_i hblank
        rw [Bool.not_eq_true] at hblank
        exact hsome rfl (fun c hc => by cases hc) hblank
    | some a =>
      obtain ⟨hout, hfin⟩ := ho a rfl
      rw [splitFrom]
      split
      · intro arg harg
        rcases List.mem_cons.mp harg with rfl | harg
        · exact hfin
        · exact hnone arg harg
      · rename_i hends
        unfold Arg.ends at hends
        rw [hout, Bool.not_eq_true] at hends
        exact hsome hout hfin hends

/-- Without quotes, no argument holds a blank. -/
theorem isBlank_of_mem_split {line : List Char} (hquote : '"' ∉ line) :
    ∀ arg ∈ split line, ∀ c ∈ arg, isBlank c = false :=
  isBlank_of_mem_splitFrom (fun a ha => by cases ha) hquote

end Argv
