import UsbPcap.Cmd.GetoptRun

/-!
# The option loop over `getopt.c`

The `while` loop of `usbpcapcmd_main` calls `getopt_long` and switches on what it returns, one call
after the other. `getoptLoop_eq` says that it ends as `optionLoop` does on `argvOptions`: with the
same settings, or with the same error.
-/

namespace UsbPcap.Cmd

open Getopt

/-! ## The options of the program -/

/-- The variables that `flag` points to. -/
inductive ExtcapFlag where
  | doExtcapInterfaces
  | doExtcapDlts
  | doExtcapConfig
  | doExtcapCapture
deriving DecidableEq, Repr

/-- `"hd:o:s:b:IA"` -/
def shortOptionText : CStr := "hd:o:s:b:IA".toList

/-- `flag` and `val`. -/
def OptKey.val : OptKey → Option ExtcapFlag × ℤ
  | .help => (none, charInt 'h')
  | .device => (none, charInt 'd')
  | .output => (none, charInt 'o')
  | .snaplen => (none, charInt 's')
  | .bufferlen => (none, charInt 'b')
  | .initNonStandardHwids => (none, charInt 'I')
  | .captureFromAllDevices => (none, charInt 'A')
  | .devices => (none, 900)
  | .captureFromNewDevices => (none, 901)
  | .injectDescriptors => (none, 902)
  | .json => (none, 903)
  | .listInterfaces => (none, 904)
  | .listDevices => (none, 905)
  | .vendorId => (none, 906)
  | .productId => (none, 907)
  | .autoInterface => (none, 908)
  | .duration => (none, 909)
  | .noInteractive => (none, 910)
  | .appFilter => (none, 911)
  | .endpoint => (none, 912)
  | .transferType => (none, 913)
  | .storeMode => (none, 914)
  | .extcapVersion => (none, 1000)
  | .extcapInterfaces => (some .doExtcapInterfaces, 1001)
  | .extcapInterface => (none, 1002)
  | .extcapDlts => (some .doExtcapDlts, 1003)
  | .extcapConfig => (some .doExtcapConfig, 1004)
  | .capture => (some .doExtcapCapture, 1005)
  | .extcapFifo => (none, 1006)

/-- `long_options` as it stands in the program. -/
def longOptionTable : List (OptionEntry ExtcapFlag) :=
  longOptions.map fun o => ⟨o.name, o.hasArg, o.key.val.1, o.key.val.2⟩

/-- The `switch` over what `getopt_long` has returned. -/
def Opt.ofCall (r : Returned ExtcapFlag) (t : Scanner) : Opt :=
  let optarg := t.optarg.getD []
  if r.code = 0 then
    match r.stored with
    | some (.doExtcapInterfaces, _) => .extcapInterfaces
    | some (.doExtcapDlts, _) => .extcapDlts
    | some (.doExtcapConfig, _) => .extcapConfig
    | some (.doExtcapCapture, _) => .capture
    | none => .invalid
  else if r.code = charInt 'h' then
    match t.nargv[t.optind]? with
    | some topic => .help (if topic.head? ≠ some '-' then some topic else none)
    | none => .help none
  else if r.code = charInt 'd' then .device optarg
  else if r.code = charInt 'o' then .output optarg
  else if r.code = charInt 's' then .snaplen optarg
  else if r.code = charInt 'b' then .bufferlen optarg
  else if r.code = charInt 'I' then .initNonStandardHwids
  else if r.code = 900 then .devices optarg
  else if r.code = 903 then .json
  else if r.code = 904 then .listInterfaces
  else if r.code = 905 then .listDevices
  else if r.code = 906 then .vendorId optarg
  else if r.code = 907 then .productId optarg
  else if r.code = 908 then .autoInterface
  else if r.code = 909 then .duration optarg
  else if r.code = 910 then .noInteractive
  else if r.code = 911 then .appFilter
  else if r.code = 912 then .endpoint optarg
  else if r.code = 913 then .transferType optarg
  else if r.code = 914 then .storeMode optarg
  else if r.code = charInt 'A' then .captureFromAllDevices
  else if r.code = 901 then .captureFromNewDevices
  else if r.code = 902 then .injectDescriptors
  else if r.code = 1000 then .extcapVersion t.optarg
  else if r.code = 1002 then .extcapInterface optarg
  else if r.code = 1006 then .extcapFifo optarg
  -- `:`, `?` and `default`
  else .invalid

/-- The `while` loop, `n` calls of `getopt_long` at most. -/
def getoptLoop (posixlyCorrect : Bool) : ℕ → Settings → Scanner → Option (Except Exit Settings)
  | 0, _, _ => none
  | n + 1, s, scanner =>
    let r := getoptLong shortOptionText longOptionTable posixlyCorrect scanner
    if r.1.code = -1 then some (.ok s)
    else
      match s.apply (.ofCall r.1 r.2) with
      | .error e => some (.error e)
      | .ok s => getoptLoop posixlyCorrect n s r.2

/-- The end of the loop, but for the topic behind `--help`. -/
def withoutTopic : Except Exit Settings → Except Exit Settings
  | .error (.help _) => .error (.help none)
  | result => result

/-! ## The whole run -/

section Run

variable {φ : Type} [DecidableEq φ] {options : CStr} {table : List (OptionEntry φ)}

/-- The calls of `getopt_long` find what is to be found, and leave the operands behind. -/
theorem calls_of_pending (hplain : PlainOptions options table) {s : Scanner}
    {scan : Scan (Option φ × ℤ)} (h : Pending (getoptSpec options table) s scan) :
    ∃ t, GetoptCalls (getoptLong options table false) s scan.found t ∧
      t.nargv = scan.consumed ++ scan.operands ∧ t.optind = scan.consumed.length := by
  obtain ⟨found, consumed, operands⟩ := scan
  induction found generalizing s with
  | nil =>
    rcases pending_call hplain h with ⟨hcode, hfinished⟩ | ⟨-, scan', -, hscan⟩
    · exact ⟨_, .done hcode, hfinished.nargv, hfinished.optind⟩
    · cases congrArg Scan.found hscan
  | cons f found ih =>
    rcases pending_call hplain h with ⟨-, hfinished⟩ | ⟨hcode, scan', hpending, hscan⟩
    · cases hfinished.found
    · obtain ⟨found', consumed', operands'⟩ := scan'
      obtain ⟨hfound, hconsumed, hoperands⟩ := Scan.mk.inj hscan
      obtain ⟨hhead, rfl⟩ := List.cons.inj hfound
      rw [List.nil_append] at hconsumed
      obtain rfl := hconsumed
      obtain rfl := hoperands
      obtain ⟨t, hcalls, hnargv, hoptind⟩ := ih hpending
      refine ⟨t, ?_, hnargv, hoptind⟩
      rw [hhead]
      exact .more hcode hcalls

/-- The variables before the first call. -/
theorem pending_initial (spec : Spec (Option φ × ℤ)) (prog : CStr) (args : List CStr) :
    Pending spec (.initial (prog :: args)) ((spec.scan args).behind [prog] []) := by
  have hlayout : Layout (.initial (prog :: args) : Scanner) [prog] [] [] args :=
    ⟨rfl, rfl, List.cons_ne_nil _ _, rfl, rfl, rfl, Or.inl ⟨rfl, Or.inl rfl⟩⟩
  exact .next hlayout rfl fun _ => rfl

/-- All calls together read the scan of the command line and move the operands behind. -/
theorem calls_initial (hplain : PlainOptions options table) (prog : CStr) (args : List CStr) :
    ∃ t, GetoptCalls (getoptLong options table false) (.initial (prog :: args))
        ((getoptSpec options table).scan args).found t ∧
      t.nargv = prog :: ((getoptSpec options table).scan args).consumed ++
        ((getoptSpec options table).scan args).operands ∧
      t.optind = ((getoptSpec options table).scan args).consumed.length + 1 :=
  calls_of_pending hplain (pending_initial _ prog args)

end Run

/-! ## The program's options -/

/-- The tool's own table is plain. -/
theorem plain_options : PlainOptions shortOptionText longOptionTable where
  head := by decide
  letters := by decide
  colons := by
    intro c oli hc htwo
    have hsuffix : oli <:+ shortOptionText := by
      have hdrop := List.dropWhile_suffix (· ≠ c) (l := shortOptionText)
      unfold strchr at hc
      split at hc
      · cases hc
      · rename_i rest
        obtain rfl := Option.some.inj hc
        exact hdrop
    have htails : ∀ oli ∈ shortOptionText.tails, oli[2]? = some ':' → oli[1]? ≠ some ':' := by
      decide
    exact htails oli ((List.mem_tails oli _).mpr hsuffix) htwo
  vals := by decide

/-- A short option is found in its list. -/
theorem getoptSpec_short (c : Char) :
    (getoptSpec shortOptionText longOptionTable).short c =
      (shortOptions c).map fun known => (known.1.val, known.2) := by
  by_cases hh : c = 'h'
  · subst hh
    rfl
  by_cases hd : c = 'd'
  · subst hd
    rfl
  by_cases hcolon : c = ':'
  · subst hcolon
    rfl
  by_cases ho : c = 'o'
  · subst ho
    rfl
  by_cases hs : c = 's'
  · subst hs
    rfl
  by_cases hb : c = 'b'
  · subst hb
    rfl
  by_cases hI : c = 'I'
  · subst hI
    rfl
  by_cases hA : c = 'A'
  · subst hA
    rfl
  -- any other character is not in the text
  have hmem : ∀ x ∈ shortOptionText, decide (x ≠ c) = true := by
    intro x hx
    apply decide_eq_true
    rintro rfl
    have hall : (shortOptionText.all fun y => y = 'h' ∨ y = 'd' ∨ y = ':' ∨ y = 'o' ∨ y = 's' ∨
        y = 'b' ∨ y = 'I' ∨ y = 'A') = true := by decide
    rcases of_decide_eq_true (List.all_eq_true.mp hall x hx) with h | h | h | h | h | h | h | h
    · exact hh h
    · exact hd h
    · exact hcolon h
    · exact ho h
    · exact hs h
    · exact hb h
    · exact hI h
    · exact hA h
  have hfind : strchr shortOptionText c = none := by
    unfold strchr
    rw [List.dropWhile_eq_nil_iff.mpr hmem]
  have hnone : shortOptions c = none := by
    unfold shortOptions
    simp only [hh, hd, ho, hs, hb, hI, hA, if_false]
  unfold getoptSpec
  dsimp only
  rw [hfind, hnone]
  split
  · rfl
  · rfl

/-- The options that are passed to `getopt_long` are those of `optionSpec`. -/
theorem getoptSpec_eq :
    getoptSpec shortOptionText longOptionTable = optionSpec.map OptKey.val := by
  have hshort : (getoptSpec shortOptionText longOptionTable).short =
      (optionSpec.map OptKey.val).short := funext getoptSpec_short
  have hlong : (getoptSpec shortOptionText longOptionTable).long =
      (optionSpec.map OptKey.val).long := by
    unfold getoptSpec longOptionTable Spec.map optionSpec
    dsimp only
    rw [List.map_map]
    rfl
  cases hspec : getoptSpec shortOptionText longOptionTable
  rw [hspec] at hshort hlong
  dsimp only at hshort hlong
  rw [hshort, hlong]

/-- All keys. -/
def OptKey.all : List OptKey :=
  [.help, .device, .output, .snaplen, .bufferlen, .initNonStandardHwids, .json, .listInterfaces,
    .listDevices, .devices, .vendorId, .productId, .autoInterface, .duration, .noInteractive,
    .appFilter, .endpoint, .transferType, .storeMode, .captureFromAllDevices,
    .captureFromNewDevices, .injectDescriptors, .extcapVersion, .extcapInterfaces,
    .extcapInterface, .extcapDlts, .extcapConfig, .capture, .extcapFifo]

/-- The list of keys has them all. -/
theorem OptKey.mem_all (key : OptKey) : key ∈ OptKey.all := by
  cases key <;> decide

/-- Different options have different values. -/
theorem val_injective : Function.Injective OptKey.val := by
  have hnodup : (OptKey.all.map OptKey.val).Nodup := by decide
  exact fun k k' h => List.inj_on_of_nodup_map hnodup k.mem_all k'.mem_all h

/-- The `switch` on a call that has found the option `key`. -/
theorem ofCall_option {r : Returned ExtcapFlag} {t : Scanner} {key : OptKey}
    {optarg : Option CStr} (h : r.found t = .option key.val optarg) (s : Settings) :
    withoutTopic (s.apply (.ofCall r t)) =
      withoutTopic (s.apply (.ofFound (.option key optarg))) := by
  obtain ⟨code, index, stored, hcode⟩ := r
  unfold Returned.found at h
  dsimp only at h
  split at h
  · cases h
  · cases stored with
    | some stored =>
      -- the flags
      obtain ⟨f, val⟩ := stored
      obtain rfl : code = 0 := hcode rfl
      obtain ⟨hkey, rfl⟩ := Found.option.inj h
      have hflag := congrArg Prod.fst hkey
      cases key <;> first | cases hflag; rfl | cases hflag
    | none =>
      obtain ⟨hkey, rfl⟩ := Found.option.inj h
      obtain ⟨hflag, rfl⟩ := Prod.mk.inj hkey
      cases key with
      | help =>
        unfold Opt.ofCall
        cases t.nargv[t.optind]? with
        | none => rfl
        | some topic => rfl
      | extcapInterfaces => cases hflag
      | extcapDlts => cases hflag
      | extcapConfig => cases hflag
      | capture => cases hflag
      | _ => rfl

/-- What `getopt_long` does not know is an invalid option. -/
theorem ofCall_invalid {r : Returned ExtcapFlag} {t : Scanner} (h : r.found t = .invalid) :
    Opt.ofCall r t = .invalid := by
  have hcode : r.code = badch := by
    by_contra hne
    unfold Returned.found at h
    rw [if_neg hne] at h
    split at h
    · cases h
    · cases h
  unfold Opt.ofCall
  rw [hcode]
  rfl

/-- Only errors have a topic. -/
theorem withoutTopic_ok {result : Except Exit Settings} {s : Settings}
    (h : withoutTopic result = withoutTopic (.ok s)) : result = .ok s := by
  cases result with
  | ok t => exact h
  | error e => cases e <;> cases h

/-- And stay errors without it. -/
theorem withoutTopic_error {result : Except Exit Settings} {e : Exit}
    (h : withoutTopic result = withoutTopic (.error e)) : ∃ e', result = .error e' := by
  cases result with
  | ok t => cases e <;> cases h
  | error e' => exact ⟨e', rfl⟩

/-- The loop over calls that find `found` takes the steps of the loop over the expected options. -/
theorem getoptLoop_of_calls {s t : Scanner} {found : List (Found (Option ExtcapFlag × ℤ))}
    (h : GetoptCalls (getoptLong shortOptionText longOptionTable false) s found t)
    {expected : List (Found OptKey)}
    (hfound : untilInvalid found = (untilInvalid expected).map (Found.map OptKey.val))
    (settings : Settings) :
    ∃ result, getoptLoop false (found.length + 1) settings s = some result ∧
      withoutTopic result = withoutTopic (optionLoop settings (expected.map Opt.ofFound)) := by
  induction h generalizing expected settings with
  | done hcode =>
    refine ⟨.ok settings, if_pos hcode, ?_⟩
    cases expected with
    | nil => rfl
    | cons f expected => cases f <;> cases hfound
  | more hcode hcalls ih =>
    unfold getoptLoop
    dsimp only
    rw [if_neg hcode]
    rcases untilInvalid_cons hfound with ⟨hinvalid, rest, rfl⟩ |
      ⟨key, optarg, rest, hoption, rfl, hrest⟩
    · rw [ofCall_invalid hinvalid]
      -- an invalid option ends the loop with the usage text
      exact ⟨_, rfl, rfl⟩
    · have happly := ofCall_option hoption settings
      -- a valid option is applied, and the loop goes on unless that fails
      rw [List.map_cons, optionLoop]
      cases hexpected : settings.apply (.ofFound (.option key optarg)) with
      | ok settings' =>
        rw [hexpected] at happly
        rw [withoutTopic_ok happly]
        exact ih hrest settings'
      | error e =>
        rw [hexpected] at happly
        obtain ⟨e', he'⟩ := withoutTopic_error happly
        rw [he'] at happly ⊢
        exact ⟨_, rfl, happly⟩

/-- The option loop over `getopt.c` ends, and it ends as the loop over the options that the
specification finds: with the same settings or the same error. -/
theorem getoptLoop_eq (prog : CStr) (args : List CStr) :
    ∃ n result, getoptLoop false n .initial (.initial (prog :: args)) = some result ∧
      withoutTopic result = withoutTopic (optionLoop .initial (argvOptions args)) := by
  obtain ⟨t, hcalls, -, -⟩ := calls_initial plain_options prog args
  have hfound := untilInvalid_scan (getoptSpec shortOptionText longOptionTable) args
  rw [getoptSpec_eq, getopt_map val_injective, untilInvalid_map, ← getoptSpec_eq] at hfound
  exact ⟨_, getoptLoop_of_calls hcalls hfound .initial⟩

end UsbPcap.Cmd
