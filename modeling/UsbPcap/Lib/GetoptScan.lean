import UsbPcap.Lib.Getopt

/-!
# The whole of the arguments

`Spec.scan` says what repeated calls of `getopt_long` do to the arguments: what they find, which
arguments are options or their values, and which are operands. It goes on behind an unknown letter,
where `Spec.getopt` stops reading the argument; up to the first `?` they find the same.
-/

namespace Getopt

variable {κ : Type}

/-- What is found, the arguments that are used up, and the operands. -/
structure Scan (κ : Type) where
  found : List (Found κ)
  consumed : List (List Char)
  operands : List (List Char)

/-- What is found in front of a scan, and the arguments it is found in. -/
def Scan.push (found : List (Found κ)) (args : List (List Char)) (r : Scan κ) : Scan κ :=
  ⟨found ++ r.found, args ++ r.consumed, r.operands⟩

/-- A scan behind arguments that have been read. -/
def Scan.behind (front passed : List (List Char)) (r : Scan κ) : Scan κ :=
  ⟨r.found, front ++ r.consumed, passed ++ r.operands⟩

/-- The letters behind a hyphen; an unknown one is one finding. -/
def Spec.letters [DecidableEq κ] (spec : Spec κ) : List Char → Element κ
  | [] => .options []
  | c :: cs =>
    if c = '-' then spec.longElement cs
    else
      match spec.short c with
      | none => (spec.letters cs).cons .invalid
      | some (key, false) => (spec.letters cs).cons (.option key none)
      | some (key, true) => if cs = [] then .wantsArg [] key else .options [.option key (some cs)]

/-- What an argument says, all its letters read. -/
def Spec.reading [DecidableEq κ] (spec : Spec κ) : List Char → Element κ
  | [] => .operand
  | c :: text =>
    if c ≠ '-' ∨ text = [] then .operand
    else if text = ['-'] then .stop
    else spec.letters text

/-- What repeated calls of `getopt_long` make of the arguments. -/
def Spec.scan [DecidableEq κ] (spec : Spec κ) : List (List Char) → Scan κ
  | [] => ⟨[], [], []⟩
  | arg :: args =>
    match spec.reading arg with
    | .operand =>
      let r := spec.scan args
      { r with operands := arg :: r.operands }
    | .stop => ⟨[], [arg], args⟩
    | .options found => (spec.scan args).push found [arg]
    | .wantsArg found key =>
      match args with
      | [] => ⟨found ++ [.invalid], [arg], []⟩
      | value :: args => (spec.scan args).push (found ++ [.option key (some value)]) [arg, value]

/-- The scan of an argument that says `e`, and of those behind it. -/
def Spec.scanFrom [DecidableEq κ] (spec : Spec κ) (e : Element κ) (arg : List Char)
    (args : List (List Char)) : Scan κ :=
  match e with
  | .operand =>
    let r := spec.scan args
    { r with operands := arg :: r.operands }
  | .stop => ⟨[], [arg], args⟩
  | .options found => (spec.scan args).push found [arg]
  | .wantsArg found key =>
    match args with
    | [] => ⟨found ++ [.invalid], [arg], []⟩
    | value :: args => (spec.scan args).push (found ++ [.option key (some value)]) [arg, value]

/-- Up to the first `?`. -/
def untilInvalid : List (Found κ) → List (Found κ)
  | [] => []
  | .invalid :: _ => [.invalid]
  | .option key optarg :: found => .option key optarg :: untilInvalid found

variable [DecidableEq κ] {spec : Spec κ}

/-- The first argument says how the scan goes on. -/
theorem scan_cons (arg : List Char) (args : List (List Char)) :
    spec.scan (arg :: args) = spec.scanFrom (spec.reading arg) arg args := by
  cases h : spec.reading arg with
  | operand => rw [Spec.scan, h, Spec.scanFrom]
  | stop => rw [Spec.scan, h, Spec.scanFrom]
  | options found => rw [Spec.scan, h, Spec.scanFrom]
  | wantsArg found key =>
    cases args with
    | nil => rw [Spec.scan, h, Spec.scanFrom]
    | cons value args => rw [Spec.scan, h, Spec.scanFrom]

/-! ## The arguments -/

/-- Letters are options, the last of which may want an argument. -/
def Element.IsOptions : Element κ → Prop
  | .options _ | .wantsArg _ _ => True
  | .operand | .stop => False

omit [DecidableEq κ] in
/-- One option more in front leaves an element of options. -/
theorem Element.IsOptions.cons {e : Element κ} (h : e.IsOptions) (f : Found κ) :
    (e.cons f).IsOptions := by
  cases e with
  | operand => exact h
  | stop => exact h
  | options found => trivial
  | wantsArg found key => trivial

/-- A long option is an element of options. -/
theorem isOptions_longElement (text : List Char) : (spec.longElement text).IsOptions := by
  unfold Spec.longElement
  split
  · trivial
  · split <;> trivial

/-- So is a cluster of letters. -/
theorem isOptions_letters (spec : Spec κ) (text : List Char) : (spec.letters text).IsOptions := by
  induction text with
  | nil => trivial
  | cons c cs ih =>
    unfold Spec.letters
    split
    · exact isOptions_longElement cs
    · split
      · exact ih.cons _
      · exact ih.cons _
      · split
        · trivial
        · trivial

/-- An option in front of an element is found first. -/
theorem scanFrom_cons {e : Element κ} (h : e.IsOptions) (f : Found κ) (arg : List Char)
    (args : List (List Char)) :
    spec.scanFrom (e.cons f) arg args = (spec.scanFrom e arg args).push [f] [] := by
  cases e with
  | operand => exact h.elim
  | stop => exact h.elim
  | options found => rfl
  | wantsArg found key =>
    cases args with
    | nil => rfl
    | cons value args => rfl

/-! ## Up to the first `?` -/

omit [DecidableEq κ] in
/-- What is found in front of equal beginnings is equal. -/
theorem untilInvalid_append {f g g' : List (Found κ)} (h : untilInvalid g = untilInvalid g') :
    untilInvalid (f ++ g) = untilInvalid (f ++ g') := by
  induction f with
  | nil => exact h
  | cons a f ih =>
    cases a with
    | invalid => rfl
    | option key optarg => exact congrArg (Found.option key optarg :: ·) ih

omit [DecidableEq κ] in
/-- Behind an invalid option nothing counts. -/
theorem untilInvalid_absorb {f g : List (Found κ)} (h : Found.invalid ∈ f) :
    untilInvalid (f ++ g) = untilInvalid f := by
  induction f with
  | nil => cases h
  | cons a f ih =>
    cases a with
    | invalid => rfl
    | option key optarg =>
      have hmem : Found.invalid ∈ f := by
        rcases List.mem_cons.mp h with h | h
        · cases h
        · exact h
      exact congrArg (Found.option key optarg :: ·) (ih hmem)

/-- The elements find the same, or both find a `?` and the same before it. -/
def Element.Agree (e e' : Element κ) : Prop :=
  e = e' ∨ ∃ found rest, e' = .options (found ++ [.invalid]) ∧
    (e = .options (found ++ .invalid :: rest) ∨
      ∃ key, e = .wantsArg (found ++ .invalid :: rest) key)

omit [DecidableEq κ] in
/-- Elements that agree still agree with one option more in front. -/
theorem Element.Agree.cons {e e' : Element κ} (h : e.Agree e') (f : Found κ) :
    (e.cons f).Agree (e'.cons f) := by
  rcases h with rfl | ⟨found, rest, rfl, rfl | ⟨key, rfl⟩⟩
  · exact Or.inl rfl
  · exact Or.inr ⟨f :: found, rest, rfl, Or.inl rfl⟩
  · exact Or.inr ⟨f :: found, rest, rfl, Or.inr ⟨key, rfl⟩⟩

/-- Reading the letters one by one agrees with reading the cluster. -/
theorem agree_letters (text : List Char) : (spec.letters text).Agree (spec.cluster text) := by
  induction text with
  | nil => exact Or.inl rfl
  | cons c cs ih =>
    unfold Spec.letters Spec.cluster
    split
    · exact Or.inl rfl
    · cases spec.short c with
      | none =>
        -- an unknown letter: the other letters are read or not
        right
        have hoptions := isOptions_letters spec cs
        cases hletters : spec.letters cs with
        | operand =>
          rw [hletters] at hoptions
          exact hoptions.elim
        | stop =>
          rw [hletters] at hoptions
          exact hoptions.elim
        | options found => exact ⟨[], found, rfl, Or.inl rfl⟩
        | wantsArg found key => exact ⟨[], found, rfl, Or.inr ⟨key, rfl⟩⟩
      | some known =>
        obtain ⟨key, takesArg⟩ := known
        cases takesArg with
        | false => exact ih.cons _
        | true => exact Or.inl rfl

/-- So does reading any argument. -/
theorem agree_reading (spec : Spec κ) (arg : List Char) :
    (spec.reading arg).Agree (spec.element arg) := by
  cases arg with
  | nil => exact Or.inl rfl
  | cons c text =>
    rw [Spec.reading, Spec.element]
    split
    · exact Or.inl rfl
    · split
      · exact Or.inl rfl
      · exact agree_letters text

/-- Up to the first `?` the scan finds what `Spec.getopt` finds. -/
theorem untilInvalid_scan (spec : Spec κ) (args : List (List Char)) :
    untilInvalid (spec.scan args).found = untilInvalid (spec.getopt args) := by
  induction args using Spec.getopt.induct spec with
  | case1 => rfl
  | case2 arg args h ih =>
    rcases agree_reading spec arg with hsame | ⟨found, rest, hinvalid, -⟩
    · rw [h] at hsame
      rw [Spec.scan, Spec.getopt, h, hsame]
      exact ih
    · rw [h] at hinvalid
      cases hinvalid
  | case3 arg args h =>
    rcases agree_reading spec arg with hsame | ⟨found, rest, hinvalid, -⟩
    · rw [h] at hsame
      rw [Spec.scan, Spec.getopt, h, hsame]
    · rw [h] at hinvalid
      cases hinvalid
  | case4 arg args found h ih =>
    rw [scan_cons, Spec.getopt, h]
    dsimp only
    rcases agree_reading spec arg with hsame | ⟨front, rest, hinvalid, hreading⟩
    · rw [hsame, h]
      exact untilInvalid_append ih
    · -- both have seen the `?`, and nothing behind it counts
      rw [h] at hinvalid
      cases hinvalid
      have hmem : Found.invalid ∈ front ++ [Found.invalid (κ := κ)] :=
        List.mem_append_right _ (List.mem_singleton_self _)
      have hmany (g : List (Found κ)) : untilInvalid (front ++ .invalid :: g) =
          untilInvalid (front ++ [.invalid]) := untilInvalid_append rfl
      rw [untilInvalid_absorb hmem]
      rcases hreading with hreading | ⟨key, hreading⟩
      · rw [hreading]
        exact (congrArg untilInvalid (List.append_assoc _ _ _)).trans (hmany _)
      · rw [hreading]
        cases args with
        | nil => exact (congrArg untilInvalid (List.append_assoc _ _ _)).trans (hmany _)
        | cons value args =>
          change untilInvalid ((front ++ .invalid :: rest) ++ _ ++ _) = _
          rw [List.append_assoc, List.append_assoc]
          exact hmany _
  | case5 arg found key h =>
    rcases agree_reading spec arg with hsame | ⟨front, rest, hinvalid, -⟩
    · rw [scan_cons, Spec.getopt, hsame, h]
      rfl
    · rw [h] at hinvalid
      cases hinvalid
  | case6 arg found key h value args ih =>
    rcases agree_reading spec arg with hsame | ⟨front, rest, hinvalid, -⟩
    · rw [scan_cons, Spec.getopt, hsame, h]
      change untilInvalid ((found ++ [.option key (some value)]) ++ _) = _
      rw [List.append_assoc]
      exact untilInvalid_append (congrArg (Found.option key (some value) :: ·) ih)
    · rw [h] at hinvalid
      cases hinvalid

/-! ## Other keys -/

section Keys

variable {κ' : Type}

/-- The same finding under another key. -/
def Found.map (f : κ → κ') : Found κ → Found κ'
  | .option key optarg => .option (f key) optarg
  | .invalid => .invalid

/-- The same options under other keys. -/
def Spec.map (f : κ → κ') (spec : Spec κ) : Spec κ' where
  short c := (spec.short c).map fun known => (f known.1, known.2)
  long := spec.long.map fun o => ⟨o.name, o.hasArg, f o.key⟩

/-- The same element under other keys. -/
def Element.map (f : κ → κ') : Element κ → Element κ'
  | .operand => .operand
  | .stop => .stop
  | .options found => .options (found.map (Found.map f))
  | .wantsArg found key => .wantsArg (found.map (Found.map f)) (f key)

omit [DecidableEq κ] in
/-- Renaming the keys goes through an element. -/
theorem Element.map_cons (f : κ → κ') (g : Found κ) (e : Element κ) :
    (e.cons g).map f = (e.map f).cons (g.map f) := by
  cases e with
  | operand => rfl
  | stop => rfl
  | options found => rfl
  | wantsArg found key => rfl

variable [DecidableEq κ'] {f : κ → κ'}

/-- The search for a long option does not depend on the keys. -/
theorem matchLong_map (hf : Function.Injective f) (name : List Char)
    (found : Option (LongOption κ)) (ambiguous : Bool) (os : List (LongOption κ)) :
    matchLong name (found.map fun o => ⟨o.name, o.hasArg, f o.key⟩) ambiguous
        (os.map fun o => ⟨o.name, o.hasArg, f o.key⟩) =
      (matchLong name found ambiguous os).map fun o => ⟨o.name, o.hasArg, f o.key⟩ := by
  induction os generalizing found ambiguous with
  | nil => cases ambiguous <;> rfl
  | cons o os ih =>
    rw [List.map_cons]
    unfold matchLong
    dsimp only
    split
    · exact ih found ambiguous
    · split
      · rfl
      · cases found with
        | none => exact ih (some o) ambiguous
        | some g =>
          have hkey : decide (f o.key = f g.key) = decide (o.key = g.key) :=
            decide_eq_decide.mpr hf.eq_iff
          dsimp only [Option.map_some]
          rw [hkey]
          exact ih (some g) _

/-- So a long option is found under any keys. -/
theorem longElement_map (hf : Function.Injective f) (text : List Char) :
    (spec.map f).longElement text = (spec.longElement text).map f := by
  have hmatch := matchLong_map hf (text.takeWhile (· ≠ '=')) none false spec.long
  unfold Spec.longElement
  rw [Option.map_none] at hmatch
  have hlong : (spec.map f).long = spec.long.map fun o => ⟨o.name, o.hasArg, f o.key⟩ := rfl
  rw [hlong, hmatch]
  cases matchLong (text.takeWhile (· ≠ '=')) none false spec.long with
  | none => rfl
  | some o =>
    obtain ⟨name, hasArg, key⟩ := o
    cases hasArg <;> cases text.dropWhile (· ≠ '=') <;> rfl

/-- And a cluster of letters. -/
theorem cluster_map (hf : Function.Injective f) (text : List Char) :
    (spec.map f).cluster text = (spec.cluster text).map f := by
  induction text with
  | nil => rfl
  | cons c cs ih =>
    have hshort : (spec.map f).short c = (spec.short c).map fun known => (f known.1, known.2) := rfl
    unfold Spec.cluster
    rw [hshort]
    split
    · exact longElement_map hf cs
    · cases spec.short c with
      | none => rfl
      | some known =>
        obtain ⟨key, takesArg⟩ := known
        cases takesArg with
        | false =>
          dsimp only [Option.map_some]
          rw [ih, Element.map_cons]
          rfl
        | true =>
          dsimp only [Option.map_some]
          split <;> rfl

/-- And any argument. -/
theorem element_map (hf : Function.Injective f) (arg : List Char) :
    (spec.map f).element arg = (spec.element arg).map f := by
  cases arg with
  | nil => rfl
  | cons c text =>
    rw [Spec.element, Spec.element]
    split
    · rfl
    · split
      · rfl
      · exact cluster_map hf text

/-- Options under other keys are found under these. -/
theorem getopt_map (hf : Function.Injective f) (args : List (List Char)) :
    (spec.map f).getopt args = (spec.getopt args).map (Found.map f) := by
  induction args using Spec.getopt.induct spec with
  | case1 => rfl
  | case2 arg args h ih =>
    rw [Spec.getopt, Spec.getopt, element_map hf, h]
    exact ih
  | case3 arg args h =>
    rw [Spec.getopt, Spec.getopt, element_map hf, h]
    rfl
  | case4 arg args found h ih =>
    rw [Spec.getopt, Spec.getopt, element_map hf, h]
    change found.map (Found.map f) ++ _ = _
    rw [ih, List.map_append]
  | case5 arg found key h =>
    have hgetopt : spec.getopt [arg] = found ++ [.invalid] := by rw [Spec.getopt, h]
    rw [Spec.getopt, element_map hf, h, hgetopt, List.map_append]
    rfl
  | case6 arg found key h value args ih =>
    have hgetopt : spec.getopt (arg :: value :: args) =
        found ++ .option key (some value) :: spec.getopt args := by rw [Spec.getopt, h]
    rw [Spec.getopt, element_map hf, h, hgetopt, List.map_append, List.map_cons, ← ih]
    rfl

omit [DecidableEq κ] [DecidableEq κ'] in
/-- Renaming the keys makes no option invalid. -/
theorem untilInvalid_map (f : κ → κ') (found : List (Found κ)) :
    untilInvalid (found.map (Found.map f)) = (untilInvalid found).map (Found.map f) := by
  induction found with
  | nil => rfl
  | cons g found ih =>
    cases g with
    | invalid => rfl
    | option key optarg => exact congrArg (Found.option (f key) optarg :: ·) ih

omit [DecidableEq κ] [DecidableEq κ'] in
/-- The first finding of two runs that agree up to the first `?`. -/
theorem untilInvalid_cons {f : κ → κ'} {g : Found κ'} {found : List (Found κ')}
    {expected : List (Found κ)}
    (h : untilInvalid (g :: found) = (untilInvalid expected).map (Found.map f)) :
    (g = .invalid ∧ ∃ rest, expected = .invalid :: rest) ∨
      ∃ key optarg rest, g = .option (f key) optarg ∧ expected = .option key optarg :: rest ∧
        untilInvalid found = (untilInvalid rest).map (Found.map f) := by
  cases expected with
  | nil => cases g <;> cases h
  | cons e rest =>
    cases g with
    | invalid =>
      cases e with
      | invalid => exact Or.inl ⟨rfl, rest, rfl⟩
      | option key optarg => cases h
    | option key' optarg =>
      cases e with
      | invalid => cases h
      | option key optarg' =>
        obtain ⟨hhead, hrest⟩ := List.cons.inj h
        obtain ⟨rfl, rfl⟩ := Found.option.inj hhead
        exact Or.inr ⟨key, optarg, rest, rfl, rfl, hrest⟩

end Keys

end Getopt
