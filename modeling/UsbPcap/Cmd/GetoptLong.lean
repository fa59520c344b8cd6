import UsbPcap.Cmd.Options
import UsbPcap.Lib.CycleLeader
import UsbPcap.Lib.Getopt

/-!
# `getopt.c`

`getopt_internal` keeps its place in static variables and reorders the argument vector while it
goes: operands that have been passed are exchanged with the options behind them, but only when the
next operand or the end is reached. `permuteArgs_append` is the exchange of two blocks by
`permute_args`.

An argument vector is a list, `nargc` its length, and a read behind its end gives `NULL`. Characters
are bytes. `-1` in `nonopt_start` and `nonopt_end` is `none`.
-/

namespace UsbPcap.Cmd

open Getopt (HasArg)

variable {φ : Type}

/-! ## Data -/

/-- `struct option`. The variables that `flag` can point to have names. -/
structure OptionEntry (φ : Type) where
  name : CStr
  hasArg : HasArg
  flag : Option φ
  val : ℤ

/-- The arguments of `getopt_internal` but the vector, with `opterr` and the environment variable
that it looks at. -/
structure GetoptArgs (φ : Type) where
  options : CStr
  longOptions : Option (List (OptionEntry φ))
  permute : Bool
  allargs : Bool
  longonly : Bool
  posixlyCorrect : Bool
  opterr : Bool

/-- The variables of `getopt.c`, and the argument vector. `placeAtStart` says that `place` is the
pointer `nargv[optind]`. -/
structure Scanner where
  nargv : List CStr
  optind : ℕ
  optopt : ℤ
  optarg : Option CStr
  optreset : Bool
  place : CStr
  placeAtStart : Bool
  nonoptStart : Option ℕ
  nonoptEnd : Option ℕ
  /-- what `warnx` has printed, without the program's name -/
  warnings : List CStr

/-- What a call returns, what it assigns through `idx`, and what through `flag`; it returns 0 when
it does the latter. -/
structure Returned (φ : Type) where
  code : ℤ
  index : Option ℕ
  stored : Option (φ × ℤ)
  code_stored : stored.isSome → code = 0

/-- The variables before the first call. -/
def Scanner.initial (argv : List CStr) : Scanner where
  nargv := argv
  optind := 1
  optopt := 63
  optarg := none
  optreset := false
  place := []
  placeAtStart := false
  nonoptStart := none
  nonoptEnd := none
  warnings := []

/-- `BADCH` -/
def badch : ℤ := 63

/-- `INORDER` -/
def inorder : ℤ := 1

/-- A `char` as an `int`. -/
def charInt (c : Char) : ℤ := if c.toNat < 128 then c.toNat else (c.toNat : ℤ) - 256

/-- A call that returns `code` and assigns nothing. -/
def Returned.plain (code : ℤ) : Returned φ := ⟨code, none, none, Bool.noConfusion⟩

/-- `PRINT_ERROR` -/
def GetoptArgs.printError (a : GetoptArgs φ) : Bool := a.opterr && a.options.head? ≠ some ':'

/-- `BADARG` -/
def GetoptArgs.badarg (a : GetoptArgs φ) : ℤ := if a.options.head? = some ':' then 58 else 63

/-- `warnx` -/
def Scanner.warn (a : GetoptArgs φ) (text : String) (arg : CStr) (s : Scanner) : Scanner :=
  { s with warnings :=
      if a.printError then s.warnings ++ [text.toList ++ arg] else s.warnings }

/-- `strchr`: the text from the first `c` on. -/
def strchr (text : CStr) (c : Char) : Option CStr :=
  match text.dropWhile (· ≠ c) with
  | [] => none
  | rest => some rest

/-! ## `permute_args` -/

/-- `gcd` -/
def gcd (a b : ℕ) : ℕ := if a % b = 0 then b else gcd b (a % b)
termination_by if b = 0 then a + 1 else b
decreasing_by
  rename_i h
  rw [if_neg h]
  split
  · rename_i hb
    rw [hb, Nat.mod_zero]
    exact Nat.lt_succ_self a
  · exact Nat.mod_lt a (Nat.pos_of_ne_zero ‹_›)

/-- The inner loop of `permute_args`, from its `j`-th last round on. -/
def permuteCycle (panonoptEnd nnonopts nopts cstart : ℕ) :
    ℕ → ℕ → List CStr → List CStr
  | 0, _, nargv => nargv
  | j + 1, pos, nargv =>
    let pos := if panonoptEnd ≤ pos then pos - nnonopts else pos + nopts
    let swap := nargv.getD pos []
    permuteCycle panonoptEnd nnonopts nopts cstart j pos
      ((nargv.set pos (nargv.getD cstart [])).set cstart swap)

/-- `permute_args` -/
def permuteArgs (panonoptStart panonoptEnd optEnd : ℕ) (nargv : List CStr) : List CStr :=
  let nnonopts := panonoptEnd - panonoptStart
  let nopts := optEnd - panonoptEnd
  let ncycle := gcd nnonopts nopts
  let cyclelen := (optEnd - panonoptStart) / ncycle
  (List.range ncycle).foldl (fun nargv i =>
    permuteCycle panonoptEnd nnonopts nopts (panonoptEnd + i) cyclelen (panonoptEnd + i) nargv)
    nargv

theorem gcd_eq {a b : ℕ} (hb : 0 < b) : gcd a b = a.gcd b := by
  induction a, b using gcd.induct with
  | case1 a b h =>
    unfold gcd
    rw [if_pos h]
    exact (Nat.gcd_eq_right (Nat.dvd_of_mod_eq_zero h)).symm
  | case2 a b h ih =>
    unfold gcd
    rw [if_neg h, ih (Nat.pos_of_ne_zero h), Nat.gcd_comm b, ← Nat.gcd_rec, Nat.gcd_comm]

open CycleLeader

/-- Exchanging two entries exchanges the contents of their places. -/
theorem getElem?_swap {nargv : List CStr} {pos cstart : ℕ} (hpos : pos < nargv.length)
    (hcstart : cstart < nargv.length) :
    (fun x => ((nargv.set pos (nargv.getD cstart [])).set cstart (nargv.getD pos []))[x]?) =
      exchange (fun x => nargv[x]?) pos cstart := by
  funext x
  unfold exchange
  rw [Equiv.swap_apply_def, List.getD_eq_getElem _ _ hpos, List.getD_eq_getElem _ _ hcstart]
  dsimp only
  grind

theorem permuteCycle_succ (s m n cstart j pos : ℕ) (nargv : List CStr) :
    permuteCycle (s + m) m n cstart (j + 1) pos nargv =
      permuteCycle (s + m) m n cstart j (across s m n pos)
        ((nargv.set (across s m n pos) (nargv.getD cstart [])).set cstart
          (nargv.getD (across s m n pos) [])) := rfl

/-- The inner loop of `permute_args` is a walk. -/
theorem permuteCycle_eq {s m n cstart : ℕ} (hcstart : cstart ∈ blocks s m n) {j pos : ℕ}
    {nargv : List CStr} (hpos : pos ∈ blocks s m n) (hlen : s + m + n ≤ nargv.length) :
    (fun x => (permuteCycle (s + m) m n cstart j pos nargv)[x]?) =
        ((step (across s m n) cstart)^[j] (pos, fun x => nargv[x]?)).2 ∧
      (permuteCycle (s + m) m n cstart j pos nargv).length = nargv.length := by
  induction j generalizing pos nargv with
  | zero => exact ⟨rfl, rfl⟩
  | succ j ih =>
    have hnext := across_mem_blocks hpos
    have hlt : across s m n pos < nargv.length := hnext.2.trans_le hlen
    rw [permuteCycle_succ]
    have hlen' : s + m + n ≤ ((nargv.set (across s m n pos) (nargv.getD cstart [])).set cstart
        (nargv.getD (across s m n pos) [])).length := by
      rwa [List.length_set, List.length_set]
    obtain ⟨hcontent, hlength⟩ := ih hnext hlen'
    refine ⟨?_, ?_⟩
    · rw [hcontent, getElem?_swap hlt (hcstart.2.trans_le hlen), Function.iterate_succ_apply]
      rfl
    · rw [hlength, List.length_set, List.length_set]

/-- The comment above `permute_args`: the two blocks are exchanged, and the order in each of them
is kept. -/
theorem permuteArgs_append (front : List CStr) {left right : List CStr} (rest : List CStr)
    (hleft : left ≠ []) (hright : right ≠ []) :
    permuteArgs front.length (front.length + left.length)
        (front.length + left.length + right.length) (front ++ left ++ right ++ rest) =
      front ++ right ++ left ++ rest := by
  have hm : 0 < left.length := List.length_pos_of_ne_nil hleft
  have hn : 0 < right.length := List.length_pos_of_ne_nil hright
  have hle : left.length.gcd right.length ≤ right.length :=
    Nat.le_of_dvd hn (Nat.gcd_dvd_right _ _)
  -- the first `k` cycles of the loop move exactly the elements of these cycles
  have hloop (k : ℕ) (hk : k ≤ left.length.gcd right.length) (nargv : List CStr)
      (hlen : front.length + left.length + right.length ≤ nargv.length) :
      (fun x => ((List.range k).foldl (fun nargv i =>
          permuteCycle (front.length + left.length) left.length right.length
            (front.length + left.length + i)
            ((left.length + right.length) / left.length.gcd right.length)
            (front.length + left.length + i) nargv) nargv)[x]?) =
        cycles front.length left.length right.length k (fun x => nargv[x]?) ∧
      ((List.range k).foldl (fun nargv i =>
          permuteCycle (front.length + left.length) left.length right.length
            (front.length + left.length + i)
            ((left.length + right.length) / left.length.gcd right.length)
            (front.length + left.length + i) nargv) nargv).length = nargv.length := by
    induction k with
    | zero => exact ⟨rfl, rfl⟩
    | succ k ih =>
      obtain ⟨hcontent, hlength⟩ := ih (Nat.le_of_succ_le hk)
      have hstart : front.length + left.length + k ∈
          blocks front.length left.length right.length := ⟨by omega, by omega⟩
      rw [List.range_succ, List.foldl_append, List.foldl_cons, List.foldl_nil]
      obtain ⟨hcycle, hsame⟩ := permuteCycle_eq hstart
        (j := (left.length + right.length) / left.length.gcd right.length) hstart
        (hlen.trans_eq hlength.symm)
      exact ⟨by rw [hcycle, hcontent]; rfl, hsame.trans hlength⟩
  have hlen : front.length + left.length + right.length ≤
      (front ++ left ++ right ++ rest).length := by
    simp only [List.length_append]
    omega
  -- all cycles together are the whole of both blocks
  obtain ⟨hcontent, -⟩ := hloop _ le_rfl _ hlen
  have hmoved := moved_blocks (s := front.length) hm hn
    (fun x => (front ++ left ++ right ++ rest)[x]?)
  rw [← hcontent] at hmoved
  unfold permuteArgs
  dsimp only
  rw [Nat.add_sub_cancel_left, Nat.add_sub_cancel_left, gcd_eq hn,
    show front.length + left.length + right.length - front.length = left.length + right.length by
      omega]
  apply List.ext_getElem?
  intro x
  exact hmoved.getElem? x

/-- `permute_args` on any vector. -/
theorem permuteArgs_eq {start stop optEnd : ℕ} {nargv : List CStr} (hstart : start < stop)
    (hstop : stop < optEnd) (hend : optEnd ≤ nargv.length) :
    permuteArgs start stop optEnd nargv =
      nargv.take start ++ (nargv.take optEnd).drop stop ++ (nargv.take stop).drop start ++
        nargv.drop optEnd := by
  have hfront : (nargv.take start).length = start := List.length_take_of_le (by omega)
  have hleft : ((nargv.take stop).drop start).length = stop - start := by
    rw [List.length_drop, List.length_take_of_le (by omega)]
  have hright : ((nargv.take optEnd).drop stop).length = optEnd - stop := by
    rw [List.length_drop, List.length_take_of_le hend]
  have hone : nargv.take start ++ (nargv.take stop).drop start = nargv.take stop := by
    have h := List.take_append_drop start (nargv.take stop)
    rwa [List.take_take, Nat.min_eq_left hstart.le] at h
  have htwo : nargv.take stop ++ (nargv.take optEnd).drop stop = nargv.take optEnd := by
    have h := List.take_append_drop stop (nargv.take optEnd)
    rwa [List.take_take, Nat.min_eq_left hstop.le] at h
  have hall : nargv.take start ++ (nargv.take stop).drop start ++ (nargv.take optEnd).drop stop ++
      nargv.drop optEnd = nargv := by
    rw [hone, htwo, List.take_append_drop]
  have hleft_ne : (nargv.take stop).drop start ≠ [] := List.ne_nil_of_length_pos (by omega)
  have hright_ne : (nargv.take optEnd).drop stop ≠ [] := List.ne_nil_of_length_pos (by omega)
  have happend := permuteArgs_append (nargv.take start) (nargv.drop optEnd) hleft_ne hright_ne
  rw [hfront, hleft, hright, hall, Nat.add_sub_cancel' hstart.le, Nat.add_sub_cancel' hstop.le]
    at happend
  exact happend

/-- Two operands and one option. -/
theorem permuteArgs_eq_operands :
    permuteArgs 1 3 4 ["p".toList, "a".toList, "b".toList, "-h".toList, "c".toList] =
      ["p".toList, "-h".toList, "a".toList, "b".toList, "c".toList] :=
  permuteArgs_eq (by decide) (by decide) (by decide)

/-! ## `parse_long_options` -/

/-- The loop over the long options from the `i`-th on, with `match` and `ambiguous`. -/
def matchLongOptions [DecidableEq φ] (name : CStr) (shortToo : Bool) :
    ℕ → Option (ℕ × OptionEntry φ) → Bool → List (OptionEntry φ) →
      Option (ℕ × OptionEntry φ) × Bool
  | _, found, ambiguous, [] => (found, ambiguous)
  | i, found, ambiguous, o :: os =>
    if name.isPrefixOf o.name = false then matchLongOptions name shortToo (i + 1) found ambiguous os
    else if o.name.length = name.length then (some (i, o), false)
    -- a known short option is no abbreviation
    else if shortToo && name.length = 1 then
      matchLongOptions name shortToo (i + 1) found ambiguous os
    else
      match found with
      | none => matchLongOptions name shortToo (i + 1) (some (i, o)) ambiguous os
      | some (j, f) =>
        matchLongOptions name shortToo (i + 1) (some (j, f))
          (ambiguous || !(o.hasArg = f.hasArg && o.flag = f.flag && o.val = f.val)) os

/-- `optopt` after an option that lacks its argument, or has one that it does not take. -/
def OptionEntry.optopt (o : OptionEntry φ) : ℤ := if o.flag.isNone then o.val else 0

/-- An option with a `flag` is stored there, any other is returned. -/
def OptionEntry.returned (o : OptionEntry φ) (i : ℕ) : Returned φ :=
  match o.flag with
  | some f => ⟨0, some i, some (f, o.val), fun _ => rfl⟩
  | none => ⟨o.val, some i, none, Bool.noConfusion⟩

/-- `parse_long_options` once the `i`-th option is found: `name` and `hasEqual` are what stands in
front of and behind a `=` in `place`, and `optind` is behind the argument. -/
def foundLongOption (a : GetoptArgs φ) (i : ℕ) (o : OptionEntry φ) (name : CStr)
    (hasEqual : Option CStr) (s : Scanner) : Returned φ × Scanner :=
  if o.hasArg = .noArgument ∧ hasEqual.isSome then
    (.plain a.badarg,
      { s.warn a "option doesn't take an argument -- " name with optopt := o.optopt })
  else
    let s :=
      if o.hasArg = .noArgument then s
      else if hasEqual.isSome then { s with optarg := hasEqual }
      -- an optional argument does not use the next one
      else if o.hasArg = .requiredArgument then
        { s with optarg := s.nargv[s.optind]?, optind := s.optind + 1 }
      else s
    if o.hasArg = .requiredArgument ∧ s.optarg = none then
      (.plain a.badarg, { s.warn a "option requires an argument -- " s.place with
        optopt := o.optopt, optind := s.optind - 1 })
    else (o.returned i, s)

/-- `parse_long_options` from `place` on. -/
def parseLongOptions [DecidableEq φ] (a : GetoptArgs φ) (table : List (OptionEntry φ))
    (shortToo : Bool) (s : Scanner) : Returned φ × Scanner :=
  let name := s.place.takeWhile (· ≠ '=')
  let hasEqual := (s.place.dropWhile (· ≠ '=')).tail?
  let s := { s with optind := s.optind + 1 }
  match matchLongOptions name shortToo 0 none false table with
  | (_, true) => (.plain badch, { s.warn a "ambiguous option -- " name with optopt := 0 })
  | (none, false) =>
    if shortToo then (.plain (-1), { s with optind := s.optind - 1 })
    else (.plain badch, { s.warn a "unknown option -- " s.place with optopt := 0 })
  | (some (i, o), false) => foundLongOption a i o name hasEqual s

/-! ## `getopt_internal` -/

/-- `place = EMSG` -/
def Scanner.leave (s : Scanner) : Scanner := { s with place := [], placeAtStart := false }

/-- The end of the options: operands that have been passed go behind them. -/
def Scanner.finish (s : Scanner) : Scanner :=
  let s :=
    match s.nonoptStart, s.nonoptEnd with
    | some start, some stop =>
      { s with
        nargv := permuteArgs start stop s.optind s.nargv
        optind := s.optind - (stop - start) }
    | _, _ => s
  { s with nonoptStart := none, nonoptEnd := none }

/-- An operand is passed. -/
def Scanner.passOperand (s : Scanner) : Scanner :=
  let s :=
    match s.nonoptStart, s.nonoptEnd with
    | none, _ => { s with nonoptStart := some s.optind }
    | some _, none => s
    | some start, some stop =>
      { s with
        nargv := permuteArgs start stop s.optind s.nargv
        nonoptStart := some (s.optind - (stop - start))
        nonoptEnd := none }
  { s with optind := s.optind + 1 }

/-- The operands that have been passed end where an option is found. -/
def Scanner.mark (s : Scanner) : Scanner :=
  if s.nonoptStart.isSome ∧ s.nonoptEnd = none then { s with nonoptEnd := some s.optind } else s

/-- `getopt_internal` from `start` on, with `n` arguments left; the call returns here or goes on at
`place`. -/
def updatePlace (a : GetoptArgs φ) : ℕ → Scanner → Option ℤ × Scanner
  | 0, s =>
    -- operands that no option follows stay where they are
    if s.nonoptEnd = none ∧ s.nonoptStart.isSome then
      (some (-1), ({ s with optind := s.nonoptStart.getD 0 }.finish).leave)
    else (some (-1), s.finish.leave)
  | n + 1, s =>
    let arg := s.nargv.getD s.optind []
    if arg.head? ≠ some '-' ∨ (arg.length = 1 ∧ '-' ∉ a.options) then
      let s := s.leave
      if a.allargs then (some inorder, { s with optarg := some arg, optind := s.optind + 1 })
      else if a.permute = false then (some (-1), s)
      else updatePlace a n s.passOperand
    else
      let s := s.mark
      if arg = ['-', '-'] then (some (-1), ({ s with optind := s.optind + 1 }.finish).leave)
      else if arg.length = 1 then (none, { s with place := arg, placeAtStart := true })
      else (none, { s with place := arg.drop 1, placeAtStart := false })

/-- `getopt_internal` on a short option. -/
def shortOption [DecidableEq φ] (a : GetoptArgs φ) (s : Scanner) : Returned φ × Scanner :=
  match s.place with
  | [] => (.plain 0, s)
  | c :: rest =>
    let s := { s with place := rest, placeAtStart := false }
    let oli := if c = ':' ∨ (c = '-' ∧ rest ≠ []) then none else strchr a.options c
    match oli with
    | none =>
      if c = '-' ∧ rest = [] then (.plain (-1), s)
      else
        let s := if rest = [] then { s with optind := s.optind + 1 } else s
        (.plain badch, { s.warn a "unknown option -- " [c] with optopt := charInt c })
    | some oli =>
      if c = 'W' ∧ oli[1]? = some ';' ∧ a.longOptions.isSome then
        if rest ≠ [] then
          let r := parseLongOptions a (a.longOptions.getD []) false s
          (r.1, r.2.leave)
        else
          let s := { s with optind := s.optind + 1 }
          match s.nargv[s.optind]? with
          | none =>
            (.plain a.badarg, { s.leave.warn a "option requires an argument -- " [c] with
              optopt := charInt c })
          | some arg =>
            let r := parseLongOptions a (a.longOptions.getD []) false { s with place := arg }
            (r.1, r.2.leave)
      else if oli[1]? ≠ some ':' then
        (.plain (charInt c), if rest = [] then { s with optind := s.optind + 1 } else s)
      else if rest ≠ [] then
        (.plain (charInt c), { s.leave with optarg := some rest, optind := s.optind + 1 })
      else if oli[2]? ≠ some ':' then
        let s := { s with optind := s.optind + 1 }
        match s.nargv[s.optind]? with
        | none =>
          (.plain a.badarg, { s.leave.warn a "option requires an argument -- " [c] with
            optopt := charInt c })
        | some arg =>
          (.plain (charInt c), { s.leave with optarg := some arg, optind := s.optind + 1 })
      else (.plain (charInt c), { s.leave with optarg := none, optind := s.optind + 1 })

/-- `getopt_internal` on what is at `place`. -/
def scanPlace [DecidableEq φ] (a : GetoptArgs φ) (s : Scanner) : Returned φ × Scanner :=
  match a.longOptions with
  | none => shortOption a s
  | some table =>
    if s.placeAtStart = false ∧ (s.place.head? = some '-' ∨ a.longonly) then
      let long := s.place.head? = some '-'
      let shortToo := s.place.head?.any fun c => c ≠ '-' && c ≠ ':' && c ∈ a.options
      let r := parseLongOptions a table shortToo
        (if long then { s with place := s.place.drop 1 } else s)
      if r.1.code ≠ -1 then (r.1, r.2.leave) else shortOption a r.2
    else shortOption a s

/-- The flags and the options as a `+` or `-` in front of them, and the environment, change them. -/
def GetoptArgs.normalize (a : GetoptArgs φ) : GetoptArgs φ :=
  let head := a.options.head?
  let a :=
    if head = some '-' then { a with allargs := true }
    else if a.posixlyCorrect ∨ head = some '+' then { a with permute := false }
    else a
  if head = some '+' ∨ head = some '-' then { a with options := a.options.drop 1 } else a

/-- `getopt_internal` -/
def getoptInternal [DecidableEq φ] (a : GetoptArgs φ) (s : Scanner) : Returned φ × Scanner :=
  let s := if s.optind = 0 then { s with optind := 1, optreset := true } else s
  let a := a.normalize
  let s := { s with optarg := none }
  let s := if s.optreset then { s with nonoptStart := none, nonoptEnd := none } else s
  if s.optreset ∨ s.place = [] then
    let r := updatePlace a (s.nargv.length - s.optind) { s with optreset := false }
    match r.1 with
    | some code => (.plain code, r.2)
    | none => scanPlace a r.2
  else scanPlace a s

/-- What `getopt_long` passes to `getopt_internal`. -/
def GetoptArgs.long (options : CStr) (longOptions : List (OptionEntry φ)) (posixlyCorrect : Bool) :
    GetoptArgs φ where
  options := options
  longOptions := some longOptions
  permute := true
  allargs := false
  longonly := false
  posixlyCorrect := posixlyCorrect
  opterr := true

/-- `getopt_long` -/
def getoptLong [DecidableEq φ] (options : CStr) (longOptions : List (OptionEntry φ))
    (posixlyCorrect : Bool) (s : Scanner) : Returned φ × Scanner :=
  getoptInternal (.long options longOptions posixlyCorrect) s

end UsbPcap.Cmd
