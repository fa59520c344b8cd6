import Mathlib.Data.List.Basic
import Mathlib.Tactic.Common

/-!
# `getopt_long`

`getopt` is what repeated calls of `getopt_long` find in the arguments behind the program's name:
short options, which may share an argument, long options, which may be shortened to a prefix that
no other option has, and their arguments. Operands are skipped; `--` ends the options.

`getopt_flag` and `getopt_value` are for the two forms in which options are usually written;
`texts_getopt` says that the arguments of options are cut out of the command line's arguments, and
`keys_getopt` that every option found is asked for by one of them.
-/

namespace Getopt

variable {κ : Type}

/-! ## Definitions -/

/-- The values of `has_arg`. -/
inductive HasArg where
  | noArgument
  | requiredArgument
  | optionalArgument
deriving DecidableEq, Repr

/-- `struct option`. Two options with the same key have the same `flag` and `val`. -/
structure LongOption (κ : Type) where
  name : List Char
  hasArg : HasArg
  key : κ

/-- The short options, with whether they take an argument, and the long ones. -/
structure Spec (κ : Type) where
  short : Char → Option (κ × Bool)
  long : List (LongOption κ)

/-- What a call returns: an option and `optarg`, or `?`. -/
inductive Found (κ : Type) where
  | option (key : κ) (optarg : Option (List Char))
  | invalid
deriving DecidableEq, Repr

/-- What one argument says: it is no option, it ends the options, it holds options, or it holds
options of which the last one takes the next argument. -/
inductive Element (κ : Type) where
  | operand
  | stop
  | options (found : List (Found κ))
  | wantsArg (found : List (Found κ)) (key : κ)
deriving DecidableEq, Repr

/-- The loop of `parse_long_options` over the long options: the exact match, or the match of a
prefix unless it is ambiguous. -/
def matchLong [DecidableEq κ] (name : List Char) :
    Option (LongOption κ) → Bool → List (LongOption κ) → Option (LongOption κ)
  | found, ambiguous, [] => if ambiguous then none else found
  | found, ambiguous, o :: os =>
    if name.isPrefixOf o.name = false then matchLong name found ambiguous os
    else if o.name.length = name.length then some o
    else
      match found with
      | none => matchLong name (some o) ambiguous os
      | some f =>
        matchLong name (some f) (ambiguous || !(o.hasArg = f.hasArg && o.key = f.key)) os

/-- `parse_long_options` on what follows the hyphens. -/
def Spec.longElement [DecidableEq κ] (spec : Spec κ) (text : List Char) : Element κ :=
  match matchLong (text.takeWhile (· ≠ '=')) none false spec.long with
  | none => .options [.invalid]
  | some o =>
    match o.hasArg, text.dropWhile (· ≠ '=') with
    | .noArgument, [] => .options [.option o.key none]
    | .noArgument, _ :: _ => .options [.invalid]
    | .requiredArgument, [] => .wantsArg [] o.key
    | .optionalArgument, [] => .options [.option o.key none]
    | _, _ :: value => .options [.option o.key (some value)]

/-- The element with an option in front. -/
def Element.cons (f : Found κ) : Element κ → Element κ
  | .options found => .options (f :: found)
  | .wantsArg found key => .wantsArg (f :: found) key
  | e => e

/-- `getopt_internal` on what follows the first hyphen; a hyphen here starts a long option. -/
def Spec.cluster [DecidableEq κ] (spec : Spec κ) : List Char → Element κ
  | [] => .options []
  | c :: cs =>
    if c = '-' then spec.longElement cs
    else
      match spec.short c with
      | none => .options [.invalid]
      | some (key, false) => (spec.cluster cs).cons (.option key none)
      | some (key, true) => if cs = [] then .wantsArg [] key else .options [.option key (some cs)]

/-- What an argument says. -/
def Spec.element [DecidableEq κ] (spec : Spec κ) : List Char → Element κ
  | [] => .operand
  | c :: text =>
    if c ≠ '-' ∨ text = [] then .operand
    else if text = ['-'] then .stop
    else spec.cluster text

/-- What `getopt_long` finds, one call after the other. -/
def Spec.getopt [DecidableEq κ] (spec : Spec κ) : List (List Char) → List (Found κ)
  | [] => []
  | arg :: args =>
    match spec.element arg with
    | .operand => spec.getopt args
    | .stop => []
    | .options found => found ++ spec.getopt args
    | .wantsArg found key =>
      match args with
      | [] => found ++ [.invalid]
      | value :: args => found ++ .option key (some value) :: spec.getopt args

/-! ## The usual forms -/

variable [DecidableEq κ] {spec : Spec κ}

theorem element_operand {text : List Char} (h : text.head? ≠ some '-') :
    spec.element text = .operand := by
  cases text with
  | nil => rfl
  | cons c text =>
    rw [Spec.element, if_pos]
    left
    intro hc
    exact h (congrArg some hc)

theorem getopt_operand {text : List Char} (h : text.head? ≠ some '-') (args : List (List Char)) :
    spec.getopt (text :: args) = spec.getopt args := by
  rw [Spec.getopt, element_operand h]

/-- An option without an argument, alone. -/
theorem getopt_flag {name : List Char} {found : List (Found κ)}
    (h : spec.element name = .options found) (args : List (List Char)) :
    spec.getopt (name :: args) = found ++ spec.getopt args := by
  rw [Spec.getopt, h]

/-- An option, and its argument behind it. -/
theorem getopt_value {name : List Char} {key : κ} (h : spec.element name = .wantsArg [] key)
    (value : List Char) (args : List (List Char)) :
    spec.getopt (name :: value :: args) = .option key (some value) :: spec.getopt args := by
  rw [Spec.getopt, h]
  rfl

/-! ## Where the arguments come from -/

/-- The text of an option's argument. -/
def Found.text : Found κ → List Char
  | .option _ (some value) => value
  | _ => []

/-- The texts of the arguments that an element holds itself. -/
def Element.texts : Element κ → List Char
  | .options found => found.flatMap Found.text
  | .wantsArg found _ => found.flatMap Found.text
  | _ => []

omit [DecidableEq κ] in
theorem Element.texts_cons (key : κ) (e : Element κ) :
    (e.cons (.option key none)).texts = e.texts := by
  cases e with
  | operand => rfl
  | stop => rfl
  | options found => rfl
  | wantsArg found key => rfl

theorem texts_longElement (text : List Char) : (spec.longElement text).texts.Sublist text := by
  have hdrop : (text.dropWhile (· ≠ '=')).Sublist text := List.dropWhile_sublist _
  unfold Spec.longElement
  split
  · exact List.nil_sublist text
  · rename_i o _
    cases hvalue : text.dropWhile (· ≠ '=') with
    | nil =>
      cases o.hasArg with
      | noArgument => exact List.nil_sublist text
      | requiredArgument => exact List.nil_sublist text
      | optionalArgument => exact List.nil_sublist text
    | cons c value =>
      rw [hvalue] at hdrop
      have hfound : (value ++ []).Sublist text := by
        rw [List.append_nil]
        exact (List.sublist_cons_self c value).trans hdrop
      cases o.hasArg with
      | noArgument => exact List.nil_sublist text
      | requiredArgument => exact hfound
      | optionalArgument => exact hfound

theorem texts_cluster (text : List Char) : (spec.cluster text).texts.Sublist text := by
  induction text with
  | nil => exact List.Sublist.slnil
  | cons c cs ih =>
    unfold Spec.cluster
    split
    · exact (texts_longElement cs).cons c
    · split
      · exact List.nil_sublist _
      · rw [Element.texts_cons]
        exact ih.cons c
      · split
        · exact List.nil_sublist _
        · change (cs ++ []).Sublist (c :: cs)
          rw [List.append_nil]
          exact List.sublist_cons_self c cs

theorem texts_element (text : List Char) : (spec.element text).texts.Sublist text := by
  cases text with
  | nil => exact List.Sublist.slnil
  | cons c text =>
    rw [Spec.element]
    split
    · exact List.nil_sublist _
    · split
      · exact List.nil_sublist _
      · exact List.Sublist.cons c (texts_cluster text)

theorem texts_of_element {arg : List Char} {e : Element κ} (h : spec.element arg = e) :
    e.texts.Sublist arg := by
  rw [← h]
  exact texts_element arg

/-- The arguments of the options are cut out of the command line's arguments. -/
theorem texts_getopt (args : List (List Char)) :
    ((spec.getopt args).flatMap Found.text).Sublist args.flatten := by
  induction args using Spec.getopt.induct spec with
  | case1 => exact List.Sublist.slnil
  | case2 arg args h ih =>
    rw [Spec.getopt, h]
    exact ih.trans (List.sublist_append_right arg args.flatten)
  | case3 arg args h =>
    rw [Spec.getopt, h]
    exact List.nil_sublist _
  | case4 arg args found h ih =>
    have helem := texts_of_element h
    rw [Spec.getopt, h]
    dsimp only
    rw [List.flatMap_append, List.flatten_cons]
    exact helem.append ih
  | case5 arg found key h =>
    have helem := texts_of_element h
    rw [Spec.getopt, h]
    dsimp only
    rw [List.flatMap_append, List.flatten_cons]
    exact helem.append List.Sublist.slnil
  | case6 arg found key h value args ih =>
    have helem := texts_of_element h
    rw [Spec.getopt, h]
    dsimp only
    rw [List.flatMap_append, List.flatten_cons, List.flatMap_cons, List.flatten_cons]
    exact helem.append ((List.Sublist.refl value).append ih)

/-! ## Which options are found -/

/-- The key of an option. -/
def Found.key? : Found κ → Option κ
  | .option key _ => some key
  | .invalid => none

/-- The keys of the options that an element holds. -/
def Element.keys : Element κ → List κ
  | .options found => found.filterMap Found.key?
  | .wantsArg found key => found.filterMap Found.key? ++ [key]
  | _ => []

/-- Every option that is found is in one of the arguments. -/
theorem keys_getopt {args : List (List Char)} {f : Found κ} {key : κ} (hf : f ∈ spec.getopt args)
    (hkey : f.key? = some key) : ∃ arg ∈ args, key ∈ (spec.element arg).keys := by
  induction args using Spec.getopt.induct spec with
  | case1 => cases hf
  | case2 arg args h ih =>
    rw [Spec.getopt, h] at hf
    obtain ⟨a, ha, hin⟩ := ih hf
    exact ⟨a, List.mem_cons_of_mem arg ha, hin⟩
  | case3 arg args h =>
    rw [Spec.getopt, h] at hf
    cases hf
  | case4 arg args found h ih =>
    rw [Spec.getopt, h] at hf
    rcases List.mem_append.mp hf with hf | hf
    · refine ⟨arg, List.mem_cons_self, ?_⟩
      rw [h]
      exact List.mem_filterMap.mpr ⟨f, hf, hkey⟩
    · obtain ⟨a, ha, hin⟩ := ih hf
      exact ⟨a, List.mem_cons_of_mem arg ha, hin⟩
  | case5 arg found key' h =>
    -- the value is missing, and the option that wants it is reported as invalid
    rw [Spec.getopt, h] at hf
    refine ⟨arg, List.mem_cons_self, ?_⟩
    rw [h]
    rcases List.mem_append.mp hf with hf | hf
    · exact List.mem_append_left _ (List.mem_filterMap.mpr ⟨f, hf, hkey⟩)
    · rw [List.mem_singleton.mp hf] at hkey
      cases hkey
  | case6 arg found key' h value args ih =>
    -- the element's own options, or one of a later argument behind the value
    rw [Spec.getopt, h] at hf
    have hhere (hin : f ∈ found ++ [.option key' (some value)]) :
        key ∈ (spec.element arg).keys := by
      rw [h]
      rcases List.mem_append.mp hin with hin | hin
      · exact List.mem_append_left _ (List.mem_filterMap.mpr ⟨f, hin, hkey⟩)
      · rw [List.mem_singleton.mp hin] at hkey
        obtain rfl := Option.some.inj hkey
        exact List.mem_append_right _ (List.mem_singleton_self _)
    rcases List.mem_append.mp hf with hf | hf
    · exact ⟨arg, List.mem_cons_self, hhere (List.mem_append_left _ hf)⟩
    rcases List.mem_cons.mp hf with rfl | hf
    · exact ⟨arg, List.mem_cons_self, hhere (List.mem_append_right _ (List.mem_singleton_self _))⟩
    · obtain ⟨a, ha, hin⟩ := ih hf
      exact ⟨a, List.mem_cons_of_mem arg (List.mem_cons_of_mem value ha), hin⟩

end Getopt
