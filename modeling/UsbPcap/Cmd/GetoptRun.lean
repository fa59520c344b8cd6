import UsbPcap.Cmd.GetoptLong
import UsbPcap.Cmd.WorkerLine
import UsbPcap.Lib.GetoptScan

/-!
# `getopt_long`, called until it returns `-1`

The argument vector at any time: options that have been read, operands that have been passed,
options that have been read since, and arguments that are still to come. `Pending` relates the
variables of `getopt.c` to what `Spec.scan` still finds; one call finds one option and keeps the
relation (`pending_call`), and `calls_getoptLong` is the whole run.
-/

namespace UsbPcap.Cmd

open Getopt

variable {φ : Type} [DecidableEq φ]

/-! ## Definitions -/

/-- A long option, with what a call returns or stores as its key. -/
def OptionEntry.toLong (o : OptionEntry φ) : LongOption (Option φ × ℤ) :=
  ⟨o.name, o.hasArg, (o.flag, o.val)⟩

/-- The options of a call: a letter is an option when it is in the text, with an argument when a
colon follows it. -/
def getoptSpec (options : CStr) (table : List (OptionEntry φ)) : Spec (Option φ × ℤ) where
  short c :=
    if c = ':' ∨ c = '-' then none
    else (strchr options c).map fun oli => ((none, charInt c), oli[1]? = some ':')
  long := table.map OptionEntry.toLong

/-- Options without the extensions that a leading `+`, `-` or `:`, two colons or a `W;` stand for,
none of which is taken for `?` or the end. -/
structure PlainOptions (options : CStr) (table : List (OptionEntry φ)) : Prop where
  head : options.head? ≠ some '+' ∧ options.head? ≠ some ':'
  letters : options.all fun c => c ≠ '-' && c ≠ 'W' && c ≠ '?' && c.toNat < 128
  colons : ∀ c, ∀ oli, strchr options c = some oli → oli[2]? = some ':' → oli[1]? ≠ some ':'
  vals : ∀ o ∈ table, o.flag = none → o.val ≠ -1 ∧ o.val ≠ badch

/-- What a call has found. -/
def Returned.found (r : Returned φ) (s : Scanner) : Found (Option φ × ℤ) :=
  if r.code = badch then .invalid
  else
    match r.stored with
    | some (f, val) => .option (some f, val) s.optarg
    | none => .option (none, r.code) s.optarg

/-- The calls until one returns `-1`, and what those before it have found. -/
inductive GetoptCalls (call : Scanner → Returned φ × Scanner) :
    Scanner → List (Found (Option φ × ℤ)) → Scanner → Prop
  | done {s : Scanner} (h : (call s).1.code = -1) : GetoptCalls call s [] (call s).2
  | more {s t : Scanner} {found : List (Found (Option φ × ℤ))} (h : (call s).1.code ≠ -1)
      (rest : GetoptCalls call (call s).2 found t) :
      GetoptCalls call s ((call s).1.found (call s).2 :: found) t

/-- The argument vector between two calls: `front` has been read, the operands in `passed` wait for
their exchange with the options in `opts`, and `rest` is to come. -/
structure Layout (s : Scanner) (front passed opts rest : List CStr) : Prop where
  nargv : s.nargv = front ++ passed ++ opts ++ rest
  optind : s.optind = front.length + passed.length + opts.length
  front_ne : front ≠ []
  optreset : s.optreset = false
  atStart : s.placeAtStart = false
  start : s.nonoptStart = if passed = [] then none else some front.length
  stop : s.nonoptEnd = none ∧ (passed = [] ∨ opts = []) ∨
    passed ≠ [] ∧ s.nonoptEnd = some (front.length + passed.length)

/-- What is still to be found, between two arguments or within one. -/
inductive Pending (spec : Spec (Option φ × ℤ)) (s : Scanner) : Scan (Option φ × ℤ) → Prop
  | next {front passed opts rest : List CStr} (layout : Layout s front passed opts rest)
      (place : s.place = []) (ready : opts = [] → s.nonoptEnd = none) :
      Pending spec s ((spec.scan rest).behind (front ++ opts) passed)
  | inside {front passed opts : List CStr} {arg : CStr} {args : List CStr}
      (layout : Layout s front passed opts (arg :: args)) (place : s.place ≠ [])
      (marked : passed ≠ [] → s.nonoptEnd ≠ none) :
      Pending spec s
        ((spec.scanFrom (spec.letters s.place) arg args).behind (front ++ opts) passed)

/-! ## Long options -/

/-- The loop over the long options finds what the specification's finds, unless a single letter is
not to be taken for an abbreviation. -/
theorem matchLong_eq (name : CStr) (i : ℕ) (found : Option (ℕ × OptionEntry φ)) (ambiguous : Bool)
    (table : List (OptionEntry φ)) :
    matchLong name (found.map fun f => f.2.toLong) ambiguous (table.map OptionEntry.toLong) =
      if (matchLongOptions name false i found ambiguous table).2 then none
      else (matchLongOptions name false i found ambiguous table).1.map fun f => f.2.toLong := by
  induction table generalizing i found ambiguous with
  | nil => rfl
  | cons o os ih =>
    rw [List.map_cons]
    unfold matchLong matchLongOptions
    change (if name.isPrefixOf o.name = false then _
      else if o.name.length = name.length then _ else _) = _
    by_cases hprefix : name.isPrefixOf o.name = false
    · rw [if_pos hprefix, if_pos hprefix]
      exact ih _ _ _
    rw [if_neg hprefix, if_neg hprefix]
    by_cases hexact : o.name.length = name.length
    · rw [if_pos hexact, if_pos hexact]
      rfl
    rw [if_neg hexact, if_neg hexact, Bool.false_and, if_neg Bool.false_ne_true]
    cases found with
    | none => exact ih _ (some (i, o)) _
    | some f =>
      obtain ⟨j, f⟩ := f
      have hsame : (decide (o.toLong.hasArg = f.toLong.hasArg) &&
            decide (o.toLong.key = f.toLong.key)) =
          (decide (o.hasArg = f.hasArg) && decide (o.flag = f.flag) && decide (o.val = f.val)) := by
        unfold OptionEntry.toLong
        simp [Prod.ext_iff, Bool.and_assoc]
      dsimp only [Option.map_some]
      rw [hsame]
      exact ih _ (some (j, f)) _

/-- The option that is found is in the table. -/
theorem mem_of_matchLongOptions {name : CStr} {i j : ℕ} {found : Option (ℕ × OptionEntry φ)}
    {ambiguous b : Bool} {os table : List (OptionEntry φ)} {o : OptionEntry φ}
    (hfound : ∀ f ∈ found, f.2 ∈ table) (hos : ∀ o ∈ os, o ∈ table)
    (h : matchLongOptions name false i found ambiguous os = (some (j, o), b)) : o ∈ table := by
  induction os generalizing i found ambiguous with
  | nil =>
    obtain ⟨rfl, -⟩ := Prod.mk.inj h
    exact hfound _ rfl
  | cons f os ih =>
    have hrest : ∀ o ∈ os, o ∈ table := fun o ho => hos o (List.mem_cons_of_mem f ho)
    have hf : f ∈ table := hos f List.mem_cons_self
    unfold matchLongOptions at h
    split at h
    · exact ih hfound hrest h
    · split at h
      · cases h
        exact hf
      · rw [Bool.false_and, if_neg Bool.false_ne_true] at h
        split at h
        · refine ih ?_ hrest h
          rintro g hg
          cases hg
          exact hf
        · exact ih hfound hrest h

/-- The variables that a call does not touch while it reads an argument. -/
structure Frame (s t : Scanner) : Prop where
  nargv : t.nargv = s.nargv
  optreset : t.optreset = s.optreset
  nonoptStart : t.nonoptStart = s.nonoptStart
  nonoptEnd : t.nonoptEnd = s.nonoptEnd

/-- What a call makes of an element that it has read to its end. -/
inductive CallOutcome (s : Scanner) : Element (Option φ × ℤ) → Returned φ × Scanner → Prop
  | found {r : Returned φ} {t : Scanner} {f : Found (Option φ × ℤ)} (code : r.code ≠ -1)
      (frame : Frame s t) (optind : t.optind = s.optind + 1) (found : r.found t = f) :
      CallOutcome s (.options [f]) (r, t)
  | value {r : Returned φ} {t : Scanner} {key : Option φ × ℤ} {value : CStr} (code : r.code ≠ -1)
      (frame : Frame s t) (optind : t.optind = s.optind + 2)
      (next : s.nargv[s.optind + 1]? = some value)
      (optarg : r.found t = .option key (some value)) : CallOutcome s (.wantsArg [] key) (r, t)
  | missing {r : Returned φ} {t : Scanner} {key : Option φ × ℤ} (code : r.code ≠ -1)
      (frame : Frame s t) (optind : t.optind = s.optind + 1)
      (next : s.nargv[s.optind + 1]? = none) (invalid : r.found t = .invalid) :
      CallOutcome s (.wantsArg [] key) (r, t)

omit [DecidableEq φ] in
/-- An error is not the end. -/
theorem plain_badch_ne : (Returned.plain badch : Returned φ).code ≠ -1 := by
  change (63 : ℤ) ≠ -1
  decide

omit [DecidableEq φ] in
/-- An unknown option is one invalid option. -/
theorem outcome_invalid {s t : Scanner} (frame : Frame s t) (optind : t.optind = s.optind + 1) :
    CallOutcome s (.options [.invalid]) ((.plain badch : Returned φ), t) :=
  .found plain_badch_ne frame optind rfl

omit [DecidableEq φ] in
/-- What is returned for an option says which one it is. -/
theorem found_returned {options : CStr} {table : List (OptionEntry φ)}
    (hplain : PlainOptions options table) {o : OptionEntry φ} (ho : o ∈ table) (i : ℕ)
    (s : Scanner) :
    (o.returned i).code ≠ -1 ∧ (o.returned i).found s = .option (o.flag, o.val) s.optarg := by
  have hvals := hplain.vals o ho
  unfold OptionEntry.returned
  cases hflag : o.flag with
  | some f =>
    refine ⟨?_, rfl⟩
    change (0 : ℤ) ≠ -1
    decide
  | none =>
    obtain ⟨hend, hmark⟩ := hvals hflag
    exact ⟨hend, if_neg hmark⟩

/-- A long option that has been found, with its argument or without. -/
theorem foundLongOption_outcome {a : GetoptArgs φ} {options : CStr} {table : List (OptionEntry φ)}
    (hplain : PlainOptions options table) (hbad : a.badarg = badch) {s : Scanner}
    (hoptarg : s.optarg = none) {o : OptionEntry φ} (ho : o ∈ table) (i : ℕ)
    (hmatch : matchLong (s.place.takeWhile (· ≠ '=')) none false (getoptSpec options table).long =
      some o.toLong) :
    CallOutcome s ((getoptSpec options table).longElement s.place)
      (foundLongOption a i o (s.place.takeWhile (· ≠ '=')) (s.place.dropWhile (· ≠ '=')).tail?
        { s with optind := s.optind + 1 }) := by
  unfold Spec.longElement
  rw [hmatch]
  dsimp only
  have hfound (t : Scanner) := found_returned hplain ho i t
  unfold foundLongOption OptionEntry.toLong
  dsimp only
  cases hvalue : s.place.dropWhile (· ≠ '=') with
  | nil =>
    -- `--name`: a required argument is the next word
    cases harg : o.hasArg with
    | noArgument =>
      obtain ⟨hcode, hkey⟩ := hfound { s with optind := s.optind + 1 }
      exact .found hcode ⟨rfl, rfl, rfl, rfl⟩ rfl (hkey.trans (congrArg _ hoptarg))
    | requiredArgument =>
      cases hnext : s.nargv[s.optind + 1]? with
      | none =>
        rw [hbad]
        exact .missing plain_badch_ne ⟨rfl, rfl, rfl, rfl⟩ rfl hnext rfl
      | some value =>
        obtain ⟨hcode, hkey⟩ := hfound { s with optarg := some value, optind := s.optind + 2 }
        exact .value hcode ⟨rfl, rfl, rfl, rfl⟩ rfl hnext hkey
    | optionalArgument =>
      obtain ⟨hcode, hkey⟩ := hfound { s with optind := s.optind + 1 }
      exact .found hcode ⟨rfl, rfl, rfl, rfl⟩ rfl (hkey.trans (congrArg _ hoptarg))
  | cons c value =>
    -- `--name=value`: an option without argument refuses it
    obtain ⟨hcode, hkey⟩ := hfound { s with optarg := some value, optind := s.optind + 1 }
    cases harg : o.hasArg with
    | noArgument =>
      rw [hbad]
      exact outcome_invalid ⟨rfl, rfl, rfl, rfl⟩ rfl
    | requiredArgument => exact .found hcode ⟨rfl, rfl, rfl, rfl⟩ rfl hkey
    | optionalArgument => exact .found hcode ⟨rfl, rfl, rfl, rfl⟩ rfl hkey

/-- `parse_long_options` -/
theorem parseLongOptions_outcome {a : GetoptArgs φ} {options : CStr}
    {table : List (OptionEntry φ)} (hplain : PlainOptions options table) (hbad : a.badarg = badch)
    {s : Scanner} (hoptarg : s.optarg = none) :
    CallOutcome s ((getoptSpec options table).longElement s.place)
      (parseLongOptions a table false s) := by
  have hmatch := matchLong_eq (s.place.takeWhile (· ≠ '=')) 0 none false table
  unfold parseLongOptions
  dsimp only
  cases hresult : matchLongOptions (s.place.takeWhile (· ≠ '=')) false 0 none false table with
  | mk found ambiguous =>
    rw [hresult] at hmatch
    have hnone (h : (if ambiguous then none else found.map fun f => f.2.toLong) = none) :
        (getoptSpec options table).longElement s.place = .options [.invalid] := by
      have hlong : matchLong (s.place.takeWhile (· ≠ '=')) none false
          (getoptSpec options table).long = none := hmatch.trans h
      unfold Spec.longElement
      rw [hlong]
    cases ambiguous with
    | true =>
      rw [hnone rfl]
      exact outcome_invalid ⟨rfl, rfl, rfl, rfl⟩ rfl
    | false =>
      cases found with
      | none =>
        rw [hnone rfl]
        exact outcome_invalid ⟨rfl, rfl, rfl, rfl⟩ rfl
      | some f =>
        obtain ⟨i, o⟩ := f
        have ho : o ∈ table :=
          mem_of_matchLongOptions (fun _ h => absurd h (Option.not_mem_none _)) (fun _ h => h)
            hresult
        exact foundLongOption_outcome hplain hbad hoptarg ho i hmatch

/-! ## Short options -/

omit [DecidableEq φ] in
/-- A letter of the options' text is neither `?` nor taken for the end. -/
theorem charInt_of_plain {options : CStr} {table : List (OptionEntry φ)}
    (hplain : PlainOptions options table) {c : Char} {oli : CStr}
    (hc : strchr options c = some oli) : c ≠ 'W' ∧ charInt c ≠ -1 ∧ charInt c ≠ badch := by
  have hmem : c ∈ options := by
    by_contra hnot
    have hall : ∀ x ∈ options, decide (x ≠ c) = true := fun x hx =>
      decide_eq_true fun h => hnot (h ▸ hx)
    unfold strchr at hc
    rw [List.dropWhile_eq_nil_iff.mpr hall] at hc
    cases hc
  have hletter := List.all_eq_true.mp hplain.letters c hmem
  simp only [Bool.and_eq_true, decide_eq_true_eq] at hletter
  obtain ⟨⟨⟨-, hW⟩, hmark⟩, hascii⟩ := hletter
  refine ⟨hW, ?_, ?_⟩
  · unfold charInt
    rw [if_pos hascii]
    omega
  · unfold charInt badch
    rw [if_pos hascii]
    intro h
    exact hmark (Char.toNat_inj.mp (by exact_mod_cast h))

/-- A letter that is not the last one of its argument: the next call goes on behind it. -/
structure Letter (spec : Spec (Option φ × ℤ)) (s : Scanner) (c : Char) (rest : CStr)
    (r : Returned φ × Scanner) : Prop where
  code : r.1.code ≠ -1
  frame : Frame s r.2
  optind : r.2.optind = s.optind
  place : r.2.place = rest
  atStart : r.2.placeAtStart = false
  rest_ne : rest ≠ []
  letters : spec.letters (c :: rest) = (spec.letters rest).cons (r.1.found r.2)

/-- A letter without an argument. -/
theorem letter_or_outcome {spec : Spec (Option φ × ℤ)} {s t : Scanner} {c : Char} {rest : CStr}
    {r : Returned φ} (hcode : r.code ≠ -1) (hframe : Frame s t) (hplace : t.place = rest)
    (hstart : t.placeAtStart = false)
    (hoptind : t.optind = if rest = [] then s.optind + 1 else s.optind)
    (hletters : spec.letters (c :: rest) = (spec.letters rest).cons (r.found t)) :
    Letter spec s c rest (r, t) ∨
      CallOutcome s (spec.letters (c :: rest)) (r, t) ∧ t.leave = t := by
  by_cases hrest : rest = []
  · right
    rw [if_pos hrest] at hoptind
    refine ⟨?_, ?_⟩
    · rw [hletters, hrest]
      exact .found hcode hframe hoptind rfl
    · unfold Scanner.leave
      rw [← hstart, ← hrest, ← hplace]
  · left
    rw [if_neg hrest] at hoptind
    exact ⟨hcode, hframe, hoptind, hplace, hstart, hrest, hletters⟩

/-- `getopt_internal` on a letter. -/
theorem shortOption_outcome {a : GetoptArgs φ} {options : CStr} {table : List (OptionEntry φ)}
    (hplain : PlainOptions options table) (ha : a.options = options) (hbad : a.badarg = badch)
    {s : Scanner} {c : Char} {rest : CStr} (hplace : s.place = c :: rest) (hc : c ≠ '-')
    (hoptarg : s.optarg = none) :
    Letter (getoptSpec options table) s c rest (shortOption a s) ∨
      CallOutcome s ((getoptSpec options table).letters (c :: rest)) (shortOption a s) ∧
        (shortOption a s).2.leave = (shortOption a s).2 := by
  have holi : (if c = ':' ∨ (c = '-' ∧ rest ≠ []) then none else strchr a.options c) =
      if c = ':' ∨ c = '-' then none else strchr options c := by
    rw [ha]
    simp only [hc, false_and]
  have hshort : (getoptSpec options table).short c =
      (if c = ':' ∨ c = '-' then none else strchr options c).map fun oli =>
        ((none, charInt c), decide (oli[1]? = some ':')) := by
    unfold getoptSpec
    dsimp only
    split
    · rfl
    · rfl
  unfold shortOption
  rw [hplace]
  dsimp only
  rw [holi]
  cases hfind : if c = ':' ∨ c = '-' then none else strchr options c with
  | none =>
    -- an unknown letter: `badch` is returned and the scan goes on behind it
    rw [hfind] at hshort
    have hletters : (getoptSpec options table).letters (c :: rest) =
        ((getoptSpec options table).letters rest).cons .invalid := by
      rw [Spec.letters, if_neg hc, hshort]
      rfl
    dsimp only
    rw [if_neg fun h => hc h.1]
    refine letter_or_outcome plain_badch_ne ?_ ?_ ?_ ?_ hletters
    · split <;> exact ⟨rfl, rfl, rfl, rfl⟩
    · split <;> rfl
    · split <;> rfl
    · split <;> rfl
  | some oli =>
    -- a known letter, with or without a colon behind it in the options
    have hstr : strchr options c = some oli := by
      split at hfind
      · cases hfind
      · exact hfind
    obtain ⟨hW, hend, hmark⟩ := charInt_of_plain hplain hstr
    have hfound (t : Scanner) :
        (Returned.plain (charInt c) : Returned φ).found t = .option (none, charInt c) t.optarg :=
      if_neg hmark
    rw [hfind] at hshort
    dsimp only
    rw [if_neg fun h => hW h.1]
    by_cases harg : oli[1]? = some ':'
    · rw [Option.map_some, decide_eq_true harg] at hshort
      rw [if_neg (not_not_intro harg)]
      right
      -- the argument is the rest of the word, or else the next word
      by_cases hrest : rest = []
      · have hletters : (getoptSpec options table).letters (c :: rest) =
            .wantsArg [] (none, charInt c) := by
          rw [Spec.letters, if_neg hc, hshort]
          exact if_pos hrest
        have hone : oli[2]? ≠ some ':' := fun h => hplain.colons c oli hstr h harg
        rw [if_neg (not_not_intro hrest), if_pos hone, hletters]
        -- at the end of the command line `badarg` is returned
        cases hnext : s.nargv[s.optind + 1]? with
        | none =>
          rw [hbad]
          exact ⟨.missing plain_badch_ne ⟨rfl, rfl, rfl, rfl⟩ rfl hnext rfl, rfl⟩
        | some value =>
          exact ⟨.value hend ⟨rfl, rfl, rfl, rfl⟩ rfl hnext (hfound _), rfl⟩
      · have hletters : (getoptSpec options table).letters (c :: rest) =
            .options [.option (none, charInt c) (some rest)] := by
          rw [Spec.letters, if_neg hc, hshort]
          exact if_neg hrest
        rw [if_pos hrest, hletters]
        exact ⟨.found hend ⟨rfl, rfl, rfl, rfl⟩ rfl (hfound _), rfl⟩
    -- the letter takes no argument, so the scan goes on behind it
    · rw [Option.map_some, decide_eq_false harg] at hshort
      rw [if_pos harg]
      refine letter_or_outcome hend ?_ ?_ ?_ ?_ ?_
      · split <;> exact ⟨rfl, rfl, rfl, rfl⟩
      · split <;> rfl
      · split <;> rfl
      · split <;> rfl
      · have hletters : (getoptSpec options table).letters (c :: rest) =
            ((getoptSpec options table).letters rest).cons (.option (none, charInt c) none) := by
          rw [Spec.letters, if_neg hc, hshort]
        rw [hletters, hfound]
        congr 2
        split <;> exact hoptarg.symm

/-! ## One call -/

omit [DecidableEq φ] in
/-- What is to come stands at `optind`. -/
theorem Layout.get {s : Scanner} {front passed opts rest : List CStr}
    (h : Layout s front passed opts rest) (k : ℕ) : s.nargv[s.optind + k]? = rest[k]? := by
  have hlen : (front ++ passed ++ opts).length = s.optind := by
    rw [h.optind, List.length_append, List.length_append]
  rw [h.nargv, ← hlen, List.getElem?_append_right (Nat.le_add_right _ k), Nat.add_sub_cancel_left]

omit [DecidableEq φ] in
/-- What is left are the arguments that have not been looked at. -/
theorem Layout.left {s : Scanner} {front passed opts rest : List CStr}
    (h : Layout s front passed opts rest) : s.nargv.length - s.optind = rest.length := by
  rw [h.nargv, h.optind, List.length_append, List.length_append, List.length_append,
    Nat.add_sub_cancel_left]

omit [DecidableEq φ] in
/-- The next arguments have been read as options. -/
theorem Layout.read {s t : Scanner} {front passed opts args rest : List CStr}
    (h : Layout s front passed opts (args ++ rest)) (marked : passed ≠ [] → s.nonoptEnd ≠ none)
    (frame : Frame s t) (hoptind : t.optind = s.optind + args.length) :
    Layout t.leave front passed (opts ++ args) rest where
  nargv := by
    change t.nargv = _
    rw [frame.nargv, h.nargv]
    simp only [List.append_assoc]
  optind := by
    change t.optind = _
    rw [hoptind, h.optind, List.length_append, Nat.add_assoc]
  front_ne := h.front_ne
  optreset := frame.optreset.trans h.optreset
  atStart := rfl
  start := frame.nonoptStart.trans h.start
  stop := by
    change t.nonoptEnd = none ∧ _ ∨ passed ≠ [] ∧ t.nonoptEnd = _
    rw [frame.nonoptEnd]
    rcases h.stop with ⟨hnone, -⟩ | hsome
    · by_cases hpassed : passed = []
      · exact Or.inl ⟨hnone, Or.inl hpassed⟩
      · exact absurd hnone (marked hpassed)
    · exact Or.inr hsome

/-- An element that is read to its end. -/
theorem CallOutcome.pending (spec : Spec (Option φ × ℤ)) {s : Scanner} {e : Element (Option φ × ℤ)}
    {r : Returned φ × Scanner} (h : CallOutcome s e r) {front passed opts : List CStr} {arg : CStr}
    {args : List CStr} (layout : Layout s front passed opts (arg :: args))
    (marked : passed ≠ [] → s.nonoptEnd ≠ none) :
    r.1.code ≠ -1 ∧ ∃ scan, Pending spec r.2.leave scan ∧
      (spec.scanFrom e arg args).behind (front ++ opts) passed =
        scan.push [r.1.found r.2] [] := by
  have hnext := layout.get 1
  cases h with
  | found code frame optind found =>
    have hlayout : Layout _ front passed (opts ++ [arg]) args := layout.read marked frame optind
    refine ⟨code, _, .next hlayout rfl ?_, ?_⟩
    · intro hnil
      exact absurd hnil (List.append_ne_nil_of_right_ne_nil _ (List.cons_ne_nil _ _))
    · rw [found]
      simp only [Spec.scanFrom, Scan.behind, Scan.push, List.append_assoc, List.nil_append]
  | value code frame optind next optarg =>
    rw [next] at hnext
    cases args with
    | nil => cases hnext
    | cons value args =>
      obtain rfl := Option.some.inj hnext
      have hlayout : Layout _ front passed (opts ++ [arg, _]) args :=
        layout.read marked frame optind
      refine ⟨code, _, .next hlayout rfl ?_, ?_⟩
      · intro hnil
        exact absurd hnil (List.append_ne_nil_of_right_ne_nil _ (List.cons_ne_nil _ _))
      · rw [optarg]
        simp only [Spec.scanFrom, Scan.behind, Scan.push, List.append_assoc, List.nil_append]
  | missing code frame optind next invalid =>
    rw [next] at hnext
    cases args with
    | cons value args => cases hnext
    | nil =>
      have hlayout : Layout _ front passed (opts ++ [arg]) [] := layout.read marked frame optind
      refine ⟨code, _, .next hlayout rfl ?_, ?_⟩
      · intro hnil
        exact absurd hnil (List.append_ne_nil_of_right_ne_nil _ (List.cons_ne_nil _ _))
      · rw [invalid]
        simp only [Spec.scanFrom, Spec.scan, Scan.behind, Scan.push, List.append_assoc,
          List.nil_append, List.append_nil]

/-- `getopt_internal` within an argument. -/
theorem scanPlace_pending {a : GetoptArgs φ} {options : CStr} {table : List (OptionEntry φ)}
    (hplain : PlainOptions options table) (ha : a.options = options)
    (htable : a.longOptions = some table) (hlong : a.longonly = false) (hbad : a.badarg = badch)
    {s : Scanner} (hoptarg : s.optarg = none) {front passed opts : List CStr} {arg : CStr}
    {args : List CStr} (layout : Layout s front passed opts (arg :: args)) (hplace : s.place ≠ [])
    (marked : passed ≠ [] → s.nonoptEnd ≠ none) :
    (scanPlace a s).1.code ≠ -1 ∧ ∃ scan,
      Pending (getoptSpec options table) (scanPlace a s).2 scan ∧
      ((getoptSpec options table).scanFrom ((getoptSpec options table).letters s.place) arg
          args).behind (front ++ opts) passed =
        scan.push [(scanPlace a s).1.found (scanPlace a s).2] [] := by
  obtain ⟨c, rest, hcons⟩ := List.exists_cons_of_ne_nil hplace
  unfold scanPlace
  rw [htable]
  dsimp only
  by_cases hc : c = '-'
  · -- a long option
    have hhead : s.place.head? = some '-' := by rw [hcons, hc]; rfl
    have hshort : (s.place.head?.any fun c => c ≠ '-' && c ≠ ':' && c ∈ a.options) = false := by
      rw [hhead]
      rfl
    rw [if_pos ⟨layout.atStart, Or.inl hhead⟩, hshort, if_pos hhead]
    have hout := parseLongOptions_outcome hplain hbad (a := a)
      (s := { s with place := s.place.drop 1 }) hoptarg
    have hletters : (getoptSpec options table).letters s.place =
        (getoptSpec options table).longElement (s.place.drop 1) := by
      rw [hcons, Spec.letters, if_pos hc]
      rfl
    have hlayout : Layout { s with place := s.place.drop 1 } front passed opts (arg :: args) :=
      ⟨layout.nargv, layout.optind, layout.front_ne, layout.optreset, layout.atStart, layout.start,
        layout.stop⟩
    obtain ⟨hcode, scan, hpending, hscan⟩ :=
      hout.pending (getoptSpec options table) hlayout marked
    rw [if_pos hcode, hletters]
    exact ⟨hcode, scan, hpending, hscan⟩
  · have hhead : ¬ (s.place.head? = some '-' ∨ a.longonly) := by
      rw [hcons, hlong]
      rintro (h | h)
      · exact hc (Option.some.inj h)
      · cases h
    rw [if_neg fun h => hhead h.2]
    rcases shortOption_outcome hplain ha hbad hcons hc hoptarg with hletter | ⟨hout, hleave⟩
    · have hframe := hletter.frame
      have hlayout : Layout (shortOption a s).2 front passed opts (arg :: args) :=
        ⟨hframe.nargv.trans layout.nargv, hletter.optind.trans layout.optind,
          layout.front_ne, hframe.optreset.trans layout.optreset, hletter.atStart,
          hframe.nonoptStart.trans layout.start, by
            rw [hframe.nonoptEnd]
            exact layout.stop⟩
      refine ⟨hletter.code, _, .inside hlayout ?_ ?_, ?_⟩
      · rw [hletter.place]
        exact hletter.rest_ne
      · rw [hletter.frame.nonoptEnd]
        exact marked
      · rw [hcons, hletter.letters, hletter.place,
          scanFrom_cons (isOptions_letters _ _)]
        rfl
    · obtain ⟨hcode, scan, hpending, hscan⟩ := hout.pending (getoptSpec options table) layout marked
      rw [hleave] at hpending
      rw [hcons]
      exact ⟨hcode, scan, hpending, hscan⟩

/-! ## From one argument to the next -/

/-- The end: everything has been found, and the operands stand behind the options. -/
structure Finished (s : Scanner) (scan : Scan (Option φ × ℤ)) : Prop where
  found : scan.found = []
  nargv : s.nargv = scan.consumed ++ scan.operands
  optind : s.optind = scan.consumed.length

omit [DecidableEq φ] in
/-- `finish` exchanges the operands that have been passed with the options behind them. -/
theorem Layout.finish {s : Scanner} {front passed opts rest : List CStr}
    (h : Layout s front passed opts rest) (ready : opts = [] → s.nonoptEnd = none)
    (hend : passed ≠ [] → s.nonoptEnd ≠ none) :
    s.finish.nargv = front ++ opts ++ passed ++ rest ∧
      s.finish.optind = front.length + opts.length := by
  unfold Scanner.finish
  by_cases hpassed : passed = []
  · rw [h.start, if_pos hpassed]
    dsimp only
    rw [h.nargv, h.optind, hpassed]
    simp only [List.append_nil, List.length_nil, Nat.add_zero, and_self]
  · have hstop : s.nonoptEnd = some (front.length + passed.length) := by
      rcases h.stop with ⟨hnone, -⟩ | ⟨-, hsome⟩
      · exact absurd hnone (hend hpassed)
      · exact hsome
    have hopts : opts ≠ [] := fun hnil => by
      rw [ready hnil] at hstop
      cases hstop
    rw [h.start, if_neg hpassed, hstop]
    dsimp only
    refine ⟨?_, ?_⟩
    · rw [h.nargv, h.optind]
      exact permuteArgs_append front rest hpassed hopts
    · rw [h.optind]
      omega

/-- What `passOperand` does not touch. -/
theorem passOperand_frame (s : Scanner) :
    s.passOperand.place = s.place ∧ s.passOperand.placeAtStart = s.placeAtStart ∧
      s.passOperand.optreset = s.optreset ∧ s.passOperand.optarg = s.optarg := by
  unfold Scanner.passOperand
  cases s.nonoptStart with
  | none => exact ⟨rfl, rfl, rfl, rfl⟩
  | some start =>
    cases s.nonoptEnd with
    | none => exact ⟨rfl, rfl, rfl, rfl⟩
    | some stop => exact ⟨rfl, rfl, rfl, rfl⟩

omit [DecidableEq φ] in
/-- An operand is passed; those before it go behind the options that have been read since. -/
theorem Layout.passOperand {s : Scanner} {front passed opts rest : List CStr} {arg : CStr}
    (h : Layout s front passed opts (arg :: rest)) (ready : opts = [] → s.nonoptEnd = none) :
    Layout s.passOperand (front ++ opts) (passed ++ [arg]) [] rest ∧
      s.passOperand.nonoptEnd = none := by
  obtain ⟨-, hatStart, hoptreset, -⟩ := passOperand_frame s
  have hne : passed ++ [arg] ≠ [] := List.append_ne_nil_of_right_ne_nil _ (List.cons_ne_nil _ _)
  suffices hmoved : s.passOperand.nargv = front ++ opts ++ (passed ++ [arg]) ++ rest ∧
      s.passOperand.optind = (front ++ opts).length + (passed ++ [arg]).length ∧
      s.passOperand.nonoptStart = some (front ++ opts).length ∧
      s.passOperand.nonoptEnd = none by
    obtain ⟨hnargv, hoptind, hstart, hend⟩ := hmoved
    exact ⟨⟨by rw [hnargv, List.append_nil], hoptind,
      List.append_ne_nil_of_left_ne_nil h.front_ne opts, hoptreset.trans h.optreset,
      hatStart.trans h.atStart, hstart.trans (if_neg hne).symm, Or.inl ⟨hend, Or.inr rfl⟩⟩, hend⟩
  unfold Scanner.passOperand
  rw [h.start]
  by_cases hpassed : passed = []
  · -- the first operand
    have hnone : s.nonoptEnd = none := by
      rcases h.stop with ⟨hnone, -⟩ | ⟨hsome, -⟩
      · exact hnone
      · exact absurd hpassed hsome
    rw [if_pos hpassed]
    dsimp only
    rw [h.nargv, h.optind, hpassed, hnone]
    simp only [List.append_nil, List.nil_append, List.length_nil, Nat.add_zero,
      List.length_append, List.length_singleton, List.append_assoc, List.singleton_append, and_self]
  · rw [if_neg hpassed]
    rcases h.stop with ⟨hnone, hopts | hopts⟩ | ⟨-, hsome⟩
    · exact absurd hopts hpassed
    · -- another operand behind the last one
      rw [hnone]
      dsimp only
      rw [h.nargv, h.optind, hopts]
      simp only [List.append_nil, List.length_nil, Nat.add_zero, List.length_append,
        List.length_singleton, List.append_assoc, List.singleton_append, Nat.add_assoc]
      exact ⟨trivial, trivial, h.start.trans (if_neg hpassed), hnone⟩
    · -- options in between
      have hopts : opts ≠ [] := fun hnil => by
        rw [ready hnil] at hsome
        cases hsome
      rw [hsome]
      dsimp only
      rw [h.nargv, h.optind, permuteArgs_append _ _ hpassed hopts]
      simp only [List.length_append, List.length_singleton, List.append_assoc,
        List.singleton_append, true_and, and_true, Option.some.injEq]
      omega

/-- The two exchanges of the end can be made in either order. -/
theorem finish_leave (s : Scanner) : s.finish.leave = s.leave.finish := by
  unfold Scanner.finish Scanner.leave
  cases s.nonoptStart with
  | none => rfl
  | some start =>
    cases s.nonoptEnd with
    | none => rfl
    | some stop => rfl

omit [DecidableEq φ] in
/-- Marking an operand leaves the arguments where they are. -/
theorem Layout.mark {s : Scanner} {front passed opts rest : List CStr}
    (h : Layout s front passed opts rest) :
    Layout s.mark front passed opts rest ∧ (passed ≠ [] → s.mark.nonoptEnd ≠ none) ∧
      s.mark.optarg = s.optarg := by
  unfold Scanner.mark
  split
  · rename_i hmark
    obtain ⟨hsome, hnone⟩ := hmark
    have hpassed : passed ≠ [] := fun hnil => by
      rw [h.start, if_pos hnil] at hsome
      cases hsome
    have hopts : opts = [] := by
      rcases h.stop with ⟨-, hnil | hnil⟩ | ⟨-, hstop⟩
      · exact absurd hnil hpassed
      · exact hnil
      · rw [hnone] at hstop
        cases hstop
    refine ⟨⟨h.nargv, h.optind, h.front_ne, h.optreset, h.atStart, h.start, ?_⟩,
      fun _ => Option.some_ne_none _, rfl⟩
    right
    refine ⟨hpassed, ?_⟩
    change some s.optind = _
    rw [h.optind, hopts]
    rfl
  · rename_i hmark
    refine ⟨h, fun hpassed hnone => hmark ⟨?_, hnone⟩, rfl⟩
    rw [h.start, if_neg hpassed]
    rfl

/-- What does not begin with a dash is an operand. -/
theorem reading_operand {spec : Spec (Option φ × ℤ)} {options arg : CStr}
    (h : arg.head? ≠ some '-' ∨ (arg.length = 1 ∧ '-' ∉ options)) :
    spec.reading arg = .operand := by
  cases arg with
  | nil => rfl
  | cons c text =>
    rw [Spec.reading, if_pos]
    rcases h with h | ⟨h, -⟩
    · exact Or.inl fun hc => h (congrArg some hc)
    · exact Or.inr (List.length_eq_zero_iff.mp (Nat.succ.inj h))

/-- An argument that is no operand. -/
theorem exists_letters {options arg : CStr} (hhyphen : '-' ∉ options)
    (h : ¬ (arg.head? ≠ some '-' ∨ (arg.length = 1 ∧ '-' ∉ options))) :
    ∃ c text, arg = '-' :: c :: text := by
  push Not at h
  obtain ⟨hhead, hlen⟩ := h
  cases arg with
  | nil => cases hhead
  | cons c text =>
    obtain rfl := Option.some.inj hhead
    cases text with
    | nil => exact absurd (hlen rfl) hhyphen
    | cons c text => exact ⟨c, text, rfl⟩

/-- `getopt_internal` from `start` on: operands are passed until there is an option, or the end. -/
theorem updatePlace_pending {a : GetoptArgs φ} (hhyphen : '-' ∉ a.options)
    (hall : a.allargs = false) (hpermute : a.permute = true) (spec : Spec (Option φ × ℤ))
    {rest : List CStr} {s : Scanner} {front passed opts : List CStr}
    (layout : Layout s front passed opts rest) (ready : opts = [] → s.nonoptEnd = none) :
    ((updatePlace a rest.length s).1 = some (-1) ∧
      Finished (updatePlace a rest.length s).2
        ((spec.scan rest).behind (front ++ opts) passed)) ∨
    ((updatePlace a rest.length s).1 = none ∧
      (updatePlace a rest.length s).2.optarg = s.optarg ∧
      ∃ front' passed' opts' arg args,
        Layout (updatePlace a rest.length s).2 front' passed' opts' (arg :: args) ∧
        (updatePlace a rest.length s).2.place ≠ [] ∧
        (passed' ≠ [] → (updatePlace a rest.length s).2.nonoptEnd ≠ none) ∧
        (spec.scanFrom (spec.letters (updatePlace a rest.length s).2.place) arg args).behind
            (front' ++ opts') passed' =
          (spec.scan rest).behind (front ++ opts) passed) := by
  induction rest generalizing s front passed opts with
  | nil =>
    left
    rw [List.length_nil]
    unfold updatePlace
    split
    · rename_i hskipped
      obtain ⟨hnone, hsome⟩ := hskipped
      have hpassed : passed ≠ [] := fun hnil => by
        rw [layout.start, if_pos hnil] at hsome
        cases hsome
      have hopts : opts = [] := by
        rcases layout.stop with ⟨-, hnil | hnil⟩ | ⟨-, hstop⟩
        · exact absurd hnil hpassed
        · exact hnil
        · rw [hnone] at hstop
          cases hstop
      refine ⟨rfl, rfl, ?_, ?_⟩
      · unfold Scanner.finish
        rw [layout.start, if_neg hpassed, hnone]
        change s.nargv = _
        rw [layout.nargv, hopts]
        simp only [Spec.scan, Scan.behind, List.append_nil]
      · unfold Scanner.finish
        rw [layout.start, if_neg hpassed, hnone, hopts]
        simp only [Spec.scan, Scan.behind, List.append_nil]
        rfl
    · rename_i hskipped
      have hend : passed ≠ [] → s.nonoptEnd ≠ none := fun hpassed hnone => hskipped ⟨hnone, by
        rw [layout.start, if_neg hpassed]
        rfl⟩
      obtain ⟨hnargv, hoptind⟩ := layout.finish ready hend
      refine ⟨rfl, rfl, hnargv.trans ?_, hoptind.trans ?_⟩
      · simp only [Spec.scan, Scan.behind, List.append_nil]
      · simp only [Spec.scan, Scan.behind, List.append_nil, List.length_append]
  | cons arg rest ih =>
    have hget : s.nargv.getD s.optind [] = arg := by
      rw [List.getD_eq_getElem?_getD]
      exact congrArg (·.getD []) (layout.get 0)
    rw [List.length_cons]
    unfold updatePlace
    dsimp only
    rw [hget]
    by_cases hoperand : arg.head? ≠ some '-' ∨ (arg.length = 1 ∧ '-' ∉ a.options)
    · rw [if_pos hoperand, hall, if_neg Bool.false_ne_true, hpermute,
        if_neg (fun h => Bool.noConfusion h)]
      have hleave : Layout s.leave front passed opts (arg :: rest) :=
        ⟨layout.nargv, layout.optind, layout.front_ne, layout.optreset, rfl, layout.start,
          layout.stop⟩
      obtain ⟨hlayout, hend⟩ := hleave.passOperand ready
      have hscan : (spec.scan (arg :: rest)).behind (front ++ opts) passed =
          (spec.scan rest).behind ((front ++ opts) ++ []) (passed ++ [arg]) := by
        rw [scan_cons, reading_operand hoperand]
        simp only [Spec.scanFrom, Scan.behind, List.append_nil, List.append_assoc,
          List.singleton_append]
      have hoptarg : s.leave.passOperand.optarg = s.optarg := (passOperand_frame s.leave).2.2.2
      rw [hscan, ← hoptarg]
      exact ih hlayout fun _ => hend
    · rw [if_neg hoperand]
      obtain ⟨c, text, rfl⟩ := exists_letters hhyphen hoperand
      obtain ⟨hmark, hmarked, hoptarg⟩ := layout.mark
      by_cases hstop : '-' :: c :: text = ['-', '-']
      · -- `--`
        left
        rw [if_pos hstop, finish_leave]
        have hlayout : Layout ({ s.mark with optind := s.mark.optind + 1 } : Scanner).leave front
            passed (opts ++ ['-' :: c :: text]) rest :=
          hmark.read hmarked ⟨rfl, rfl, rfl, rfl⟩ rfl
        have hne : opts ++ ['-' :: c :: text] ≠ [] :=
          List.append_ne_nil_of_right_ne_nil _ (List.cons_ne_nil _ _)
        obtain ⟨hnargv, hoptind⟩ := hlayout.finish (fun h => absurd h hne) hmarked
        have hreading : spec.reading ('-' :: c :: text) = .stop := by
          rw [hstop]
          rfl
        rw [scan_cons, hreading]
        refine ⟨rfl, rfl, hnargv.trans ?_, hoptind.trans ?_⟩
        · simp only [Spec.scanFrom, Scan.behind, List.append_assoc]
        · simp only [Spec.scanFrom, Scan.behind, List.length_append, Nat.add_assoc]
      · right
        have hlen : ¬ ('-' :: c :: text).length = 1 := by
          rw [List.length_cons, List.length_cons]
          omega
        have hreading : spec.reading ('-' :: c :: text) = spec.letters (c :: text) := by
          rw [Spec.reading, if_neg, if_neg]
          · intro h
            exact hstop (congrArg ('-' :: ·) h)
          · rintro (h | h)
            · exact h rfl
            · cases h
        rw [if_neg hstop, if_neg hlen, scan_cons, hreading]
        exact ⟨rfl, hoptarg, front, passed, opts, _, _, ⟨hmark.nargv, hmark.optind, hmark.front_ne,
          hmark.optreset, rfl, hmark.start, hmark.stop⟩, List.cons_ne_nil _ _, hmarked, rfl⟩

omit [DecidableEq φ] in
/-- These options and this environment leave the arguments as they are. -/
theorem normalize_plain {a : GetoptArgs φ} (hplus : a.options.head? ≠ some '+')
    (hhyphen : '-' ∉ a.options) (hposix : a.posixlyCorrect = false) : a.normalize = a := by
  have hhead : a.options.head? ≠ some '-' := fun h => hhyphen (List.mem_of_mem_head? h)
  have hkeep : ¬ (a.posixlyCorrect = true ∨ a.options.head? = some '+') := by
    rw [hposix]
    exact fun h => h.elim Bool.false_ne_true hplus
  have hstrip : ¬ (a.options.head? = some '+' ∨ a.options.head? = some '-') :=
    fun h => h.elim hplus hhead
  unfold GetoptArgs.normalize
  dsimp only
  rw [if_neg hhead, if_neg hkeep, if_neg hstrip]

/-- Inside a cluster the scan is not at its start. -/
theorem Pending.start {spec : Spec (Option φ × ℤ)} {s : Scanner} {scan : Scan (Option φ × ℤ)}
    (h : Pending spec s scan) : s.optind ≠ 0 ∧ s.optreset = false := by
  cases h with
  | next layout =>
    have hpos := List.length_pos_of_ne_nil layout.front_ne
    have hoptind := layout.optind
    exact ⟨by omega, layout.optreset⟩
  | inside layout =>
    have hpos := List.length_pos_of_ne_nil layout.front_ne
    have hoptind := layout.optind
    exact ⟨by omega, layout.optreset⟩

/-- One call of `getopt_long`: it finds what is to be found next, or comes to the end. -/
theorem pending_call {options : CStr} {table : List (OptionEntry φ)}
    (hplain : PlainOptions options table) {s : Scanner} {scan : Scan (Option φ × ℤ)}
    (h : Pending (getoptSpec options table) s scan) :
    ((getoptLong options table false s).1.code = -1 ∧
      Finished (getoptLong options table false s).2 scan) ∨
    ((getoptLong options table false s).1.code ≠ -1 ∧ ∃ scan',
      Pending (getoptSpec options table) (getoptLong options table false s).2 scan' ∧
        scan = scan'.push
          [(getoptLong options table false s).1.found (getoptLong options table false s).2]
          []) := by
  obtain ⟨hoptind, hoptreset⟩ := h.start
  -- plain options permute the arguments: none of `-`, `+` and `:` leads them
  have hhyphen : '-' ∉ options := fun hmem => by
    have hletter := List.all_eq_true.mp hplain.letters '-' hmem
    cases hletter
  have hbad : (GetoptArgs.long options table false).badarg = badch := if_neg hplain.head.2
  unfold getoptLong getoptInternal
  rw [if_neg hoptind, normalize_plain hplain.head.1 hhyphen rfl]
  dsimp only
  rw [hoptreset, if_neg Bool.false_ne_true]
  cases h with
  | next layout hplace ready =>
    -- the call begins with a new element of `argv`
    rw [if_pos (Or.inr hplace), layout.left]
    have hlayout : Layout { s with optarg := none, optreset := false } _ _ _ _ :=
      ⟨layout.nargv, layout.optind, layout.front_ne, rfl, layout.atStart, layout.start,
        layout.stop⟩
    rcases updatePlace_pending (a := .long options table false) hhyphen rfl rfl
        (getoptSpec options table) hlayout ready with
      ⟨hend, hfinished⟩ | ⟨hgo, hoptarg, front, passed, opts, arg, args, hlayout, hplace, hmarked,
        hscan⟩
    · left
      rw [hend]
      exact ⟨rfl, hfinished⟩
    · right
      rw [hgo, ← hscan]
      exact scanPlace_pending hplain rfl rfl rfl hbad hoptarg hlayout hplace hmarked
  | inside layout hplace marked =>
    -- the call goes on inside a word of several letters
    right
    rw [if_neg (fun h => h.elim Bool.false_ne_true hplace)]
    have hlayout : Layout { s with optarg := none, optreset := false } _ _ _ _ :=
      ⟨layout.nargv, layout.optind, layout.front_ne, rfl, layout.atStart,
        layout.start, layout.stop⟩
    exact scanPlace_pending hplain rfl rfl rfl hbad
      (s := { s with optarg := none, optreset := false }) rfl hlayout hplace marked

end UsbPcap.Cmd
