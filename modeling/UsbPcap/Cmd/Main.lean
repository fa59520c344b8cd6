import UsbPcap.Cmd.Capture
import UsbPcap.Cmd.OptionLoop

/-!
# `usbpcapcmd_main` on an argument vector

The whole of `usbpcapcmd_main`: the option loop over `getopt.c`, the choice of the mode, the
matching step and `start_capture`. It always comes to an end, and its end is the one that the
options of the one-pass reading give (`usbpcapcmdRun_eq`). What an option sets beside the variables
of `Meaning` is in `Plan`.
-/

namespace UsbPcap.Cmd

/-! ## Definitions -/

/-- How `usbpcapcmd_main` ends: before any capture, in another mode, or with what `start_capture`
makes of these settings. -/
inductive MainEnd where
  | exit (e : Exit)
  | other (action : Action) (s : Settings)
  | captured (s : Settings) (found : MatchList) (result : Except Fault CaptureEnd)

/-- The capture mode of `usbpcapcmd_main` with `start_capture`. -/
def captureRun (host : Host) (fs : FileSystem) (os : Os) (s : Settings) : MainEnd :=
  match matchDevices host s with
  | .error e => .exit e
  | .ok (s, found) =>
    match completeArguments host s with
    | .error e => .exit e
    | .ok s =>
      .captured { s with data := prepare host s.data } found
        (runCapture fs os (prepare host s.data))

/-- `usbpcapcmd_main` behind the option loop. -/
def endOf (host : Host) (fs : FileSystem) (os : Os) : Except Exit Settings → MainEnd
  | .error e => .exit e
  | .ok s =>
    if s.withIds.action = .capture then captureRun host fs os s.withIds
    else .other s.withIds.action s.withIds

/-- `usbpcapcmd_main`, with `calls` calls of `getopt_long` at most. -/
def usbpcapcmdRun (host : Host) (fs : FileSystem) (os : Os) (calls : ℕ) (argv : List CStr) :
    Option MainEnd :=
  (getoptLoop false calls .initial (.initial argv)).map (endOf host fs os)

/-- The end, but for the topic behind `--help`. -/
def MainEnd.withoutTopic : MainEnd → MainEnd
  | .exit (.help _) => .exit (.help none)
  | e => e

/-- What the options set beside the variables of `Meaning`: the output, the switches of the
application filter and of the injection, and whether there is another mode. No option gives the
filter its ids. -/
structure Plan where
  filename : Option CStr
  noInteractive : Bool
  injectDescriptors : Bool
  enabled : Bool
  filterVendorId : Bool
  filterProductId : Bool
  otherMode : Bool
deriving DecidableEq, Repr

/-- What the variables say. -/
def Settings.plan (s : Settings) : Plan where
  filename := s.data.filename
  noInteractive := s.noInteractive
  injectDescriptors := s.data.injectDescriptors
  enabled := s.data.appFilter.enabled
  filterVendorId := s.data.appFilter.hasVendorId
  filterProductId := s.data.appFilter.hasProductId
  otherMode :=
    s.runAsExtcap || s.doExtcapVersion || s.doExtcapInterfaces || s.doExtcapDlts ||
      s.doExtcapConfig || s.doExtcapCapture || s.listInterfacesFlag || s.listDevicesFlag

/-- What they say behind an option that is accepted. -/
def Plan.read (p : Plan) : Opt → Plan
  | .output arg => { p with filename := some arg }
  | .noInteractive => { p with noInteractive := true }
  | .injectDescriptors => { p with injectDescriptors := true }
  | .appFilter => { p with enabled := true }
  | .endpoint _ => { p with enabled := true }
  | .transferType _ => { p with enabled := true }
  | .listInterfaces => { p with otherMode := true }
  | .listDevices => { p with otherMode := true }
  | .extcapVersion _ => { p with otherMode := true }
  | .extcapInterfaces => { p with otherMode := true }
  | .extcapDlts => { p with otherMode := true }
  | .extcapConfig => { p with otherMode := true }
  | .capture => { p with otherMode := true }
  | .extcapFifo _ => { p with otherMode := true }
  | _ => p

/-! ## The whole program over `getopt.c` -/

theorem withoutTopic_endOf {host : Host} {fs : FileSystem} {os : Os}
    {result result' : Except Exit Settings} (h : withoutTopic result = withoutTopic result') :
    (endOf host fs os result).withoutTopic = (endOf host fs os result').withoutTopic := by
  cases result' with
  | ok s => rw [withoutTopic_ok h]
  | error e' =>
    obtain ⟨e, rfl⟩ := withoutTopic_error h
    cases e <;> cases e' <;> cases h <;> rfl

/-- **The program over `getopt.c` ends as the program over the one-pass reading does.** -/
theorem usbpcapcmdRun_eq (host : Host) (fs : FileSystem) (os : Os) (prog : CStr)
    (args : List CStr) :
    ∃ calls e, usbpcapcmdRun host fs os calls (prog :: args) = some e ∧
      e.withoutTopic =
        (endOf host fs os (optionLoop .initial (argvOptions args))).withoutTopic := by
  obtain ⟨calls, result, hloop, heq⟩ := getoptLoop_eq prog args
  refine ⟨calls, _, ?_, withoutTopic_endOf heq⟩
  rw [usbpcapcmdRun, hloop]
  rfl

/-! ## What the options set -/

theorem action_of_plan {s : Settings} (h : s.plan.otherMode = false) : s.action = .capture := by
  simp only [Settings.plan, Bool.or_eq_false_iff] at h
  obtain ⟨⟨⟨⟨⟨⟨⟨h1, h2⟩, h3⟩, h4⟩, h5⟩, h6⟩, h7⟩, h8⟩ := h
  unfold Settings.action
  rw [h1, h2, h3, h4, h5, h6, h7, h8]
  rfl

theorem plan_apply {s t : Settings} {opt : Opt} (h : s.apply opt = .ok t) :
    t.plan = s.plan.read opt := by
  unfold Settings.apply at h
  cases opt <;> dsimp only at h <;> (repeat' split at h) <;> cases h <;>
    simp [Settings.plan, Plan.read]

theorem plan_optionLoop {s t : Settings} {opts : List Opt} (h : optionLoop s opts = .ok t) :
    t.plan = opts.foldl Plan.read s.plan := by
  induction opts generalizing s with
  | nil =>
    cases h
    rfl
  | cons opt opts ih =>
    unfold optionLoop at h
    split at h
    · cases h
    · rename_i u hu
      rw [List.foldl_cons, ← plan_apply hu]
      exact ih h

/-- The application filter behind the option loop. -/
theorem appFilter_withIds {s : Settings} (hvendor : s.data.appFilter.hasVendorId = false)
    (hproduct : s.data.appFilter.hasProductId = false) :
    s.withIds.data.appFilter =
      { s.data.appFilter with
        hasVendorId := s.hasVendorId
        vendorId := if s.hasVendorId then s.vendorId else s.data.appFilter.vendorId
        hasProductId := s.hasProductId
        productId := if s.hasProductId then s.productId else s.data.appFilter.productId } := by
  unfold Settings.withIds
  dsimp only
  revert hvendor hproduct
  obtain ⟨enabled, hasVendorId, hasProductId, _⟩ := s.data.appFilter
  rintro rfl rfl
  cases s.hasVendorId <;> cases s.hasProductId <;> rfl

/-! ## What reaches `start_capture` -/

/-- The matching step chooses the interface and the addresses. -/
theorem matchDevices_frame {host : Host} {s t : Settings} {found : MatchList}
    (h : matchDevices host s = .ok (t, found)) :
    ∃ device list,
      t = { s with data := { s.data with device := device, addressList := list } } := by
  have hselect : ∀ {u : Settings} {found' : MatchList}, selectInterface host s = .ok (u, found') →
      ∃ device, u = { s with data := { s.data with device := device } } := by
    intro u found' hu
    unfold selectInterface at hu
    split at hu
    · split at hu
      · cases hu
      · split at hu
        · cases hu
        · cases hu
          exact ⟨_, rfl⟩
    · cases hu
      exact ⟨_, rfl⟩
  unfold matchDevices at h
  split at h
  · cases h
  · rename_i u found' hu
    obtain ⟨device, rfl⟩ := hselect hu
    unfold matchGiven at h
    split at h
    · cases h
      exact ⟨_, _, rfl⟩
    · split at h
      · split at h
        · cases h
        · split at h
          · cases h
          · cases h
            exact ⟨_, _, rfl⟩
      · cases h
        exact ⟨_, _, rfl⟩

/-- A capture that is started without questions is the one that the options configure. -/
theorem captured_of_captureRun {host : Host} {fs : FileSystem} {os : Os} {s t : Settings}
    {found : MatchList} {result : Except Fault CaptureEnd} (hasks : s.noInteractive = true)
    (h : captureRun host fs os s = .captured t found result) :
    result = runCapture fs os t.data ∧ t.data.process = true ∧
      t.data.filename = s.data.filename ∧ t.data.storeMode = s.data.storeMode ∧
      t.data.injectDescriptors = s.data.injectDescriptors ∧
      t.data.appFilter = s.data.appFilter := by
  unfold captureRun at h
  split at h
  · cases h
  · rename_i u found' hu
    obtain ⟨device, list, rfl⟩ := matchDevices_frame hu
    split at h
    · cases h
    · rename_i v hv
      unfold completeArguments at hv
      rw [hasks] at hv
      split at hv
      · cases hv
      · cases hv
        cases h
        unfold prepare populateDeviceMetadata
        dsimp only
        refine ⟨rfl, rfl, ?_⟩
        cases device <;> exact ⟨rfl, rfl, rfl, rfl⟩

end UsbPcap.Cmd
