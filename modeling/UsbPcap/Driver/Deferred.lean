import UsbPcap.Lib.Transition
import UsbPcap.Driver.Analyze

/-!
# Deferred records of unknown URBs

A URB with an unknown function is not recorded on its way to the bus driver; what its record would
have held is saved under its IRP, and the record is written when the IRP comes back.
`Target.submissions_recorded_once` says that over any run of a device each saved record is written
by the completion of its own IRP, once, if the device is filtered then.
-/

namespace UsbPcap.Driver

open Transition

/-! ## What a call does to the tables and to the log -/

section

variable (root : RootData) (irp : Pirp) (urb : Urb) (post : Bool) (env : Surroundings)
  (data : DeviceData)

/-- A record of the URB that the call is about. -/
structure OwnWrite (w : PayloadWrite) : Prop where
  timestamp : w.timestamp = env.now
  irpId : w.header.header.irpId = irp
  status : w.header.header.status = urb.status
  function : w.header.header.function = urb.function
  info : w.header.header.info = urbInfo post

/-- A record of what was saved of a submission, and nothing besides: no data, and the fields of the
header that are not saved have their values for an unknown transfer. -/
structure SavedWrite (saved : UrbIrpInfo) (w : PayloadWrite) : Prop where
  timestamp : w.timestamp = saved.timestamp
  irpId : w.header.header.irpId = irp
  status : w.header.header.status = saved.status
  function : w.header.header.function = saved.function
  info : w.header.header.info = saved.info
  bus : w.header.header.bus = saved.bus
  device : w.header.header.device = saved.device
  endpoint : w.header.header.endpoint = 0
  transfer : w.header.header.transfer = transferUnknown
  dataLength : w.header.header.dataLength = 0
  headerLen : w.header.header.headerLen = 27

theorem submissionWrite_saved (info : UrbIrpInfo) :
    SavedWrite irp info (submissionWrite irp info) := by
  constructor <;> rfl

/-- What is analysed in any case leaves the URB IRP table and the address alone. -/
theorem analyzeAlways_urbIrpTable :
    (analyzeAlways urb post env data).1.urbIrpTable = data.urbIrpTable ∧
      (analyzeAlways urb post env data).1.deviceAddress = data.deviceAddress := by
  have hparse := parseInterfaceInformation_urbIrpTable data
  unfold analyzeAlways
  split
  · rename_i configurationDescriptor interface _
    split
    · exact ⟨rfl, rfl⟩
    · cases configurationDescriptor with
      | none =>
        dsimp only
        split
        · exact hparse ..
        · exact ⟨rfl, rfl⟩
      | some descriptor =>
        dsimp only
        split
        · exact hparse ..
        · exact ⟨rfl, rfl⟩
  · split
    · exact ⟨rfl, rfl⟩
    · split
      · exact hparse ..
      · exact ⟨rfl, rfl⟩
  · exact ⟨rfl, rfl⟩

theorem analyzeControlTransfer_own (transfer : ControlTransfer) :
    OwnWrite irp urb post env (analyzeControlTransfer root irp urb post env data transfer) := by
  cases post with
  | false => constructor <;> rfl
  | true => constructor <;> rfl

theorem analyzeBulkOrInterruptTransfer_own (transfer : BulkOrInterruptTransfer) :
    OwnWrite irp urb post env
      (analyzeBulkOrInterruptTransfer root irp urb post env data transfer) := by
  unfold analyzeBulkOrInterruptTransfer
  dsimp only
  split
  · constructor <;> rfl
  · constructor <;> rfl

/-- The second `switch` writes only records of its own URB, and none of an unknown one on its way to
the bus driver. -/
theorem analyzeFiltered_own {w : PayloadWrite}
    (h : w ∈ (analyzeFiltered root irp urb post env data).2) :
    OwnWrite irp urb post env w ∧ ¬ (urb.isUnknown ∧ post = false) := by
  cases analyzeFiltered_cases _ _ _ _ _ _ h with
  | control hknown => exact ⟨analyzeControlTransfer_own .., fun hc => hknown hc.1⟩
  | bulkOrInterrupt hknown =>
    exact ⟨analyzeBulkOrInterruptTransfer_own .., fun hc => hknown hc.1⟩
  | isoch hknown _ hw =>
    refine ⟨?_, fun hc => hknown hc.1⟩
    cases hw with
    | empty => constructor <;> rfl
    | outgoing => constructor <;> rfl
    | compacted => constructor <;> rfl
  | pipe hknown =>
    refine ⟨?_, fun hc => hknown hc.1⟩
    unfold analyzePipeRequest
    split
    · constructor <;> rfl
    · constructor <;> rfl
  | currentFrameNumber hknown =>
    refine ⟨?_, fun hc => hknown hc.1⟩
    constructor <;> rfl
  | unknown hpost =>
    refine ⟨?_, fun hc => Bool.false_ne_true (hc.2.symm.trans hpost)⟩
    constructor <;> rfl

/-- The second `switch` adds an unknown URB on its way to the bus driver to the table. -/
theorem analyzeFiltered_urbIrpTable :
    (analyzeFiltered root irp urb post env data).1.urbIrpTable =
      if urb.isUnknown ∧ post = false then
        addUrbIrpInfo data.urbIrpTable irp (unknownUrbInfo root urb env data) env.urbIrpPool
      else data.urbIrpTable := by
  cases hbody : urb.body with
  | unknown function other =>
    have hunknown : urb.isUnknown := urb.isUnknown_iff.mpr ⟨function, other, hbody⟩
    simp only [analyzeFiltered, hbody, analyzeUnknown]
    cases post with
    | false => rw [if_pos rfl, if_pos ⟨hunknown, rfl⟩]
    | true => rw [if_neg (by decide), if_neg (by simp)]
  | _ =>
    have hknown : ¬ urb.isUnknown := by
      rw [urb.isUnknown_iff, hbody]
      simp
    rw [if_neg fun hc => hknown hc.1]
    simp only [analyzeFiltered, hbody]

/-- The whole call, after the first `switch`. -/
theorem analyzeUrb_eq {info : Option UrbIrpInfo} {d : DeviceData}
    (h : (if post then obtainUrbIrpInfo data irp else (none, data)) = (info, d)) :
    analyzeUrb root irp urb post env data =
      if isDeviceFiltered root.filter data.deviceAddress.toNat = false then
        ⟨(analyzeAlways urb post env d).1, (analyzeAlways urb post env d).2, []⟩
      else
        ⟨(analyzeFiltered root irp urb post env (analyzeAlways urb post env d).1).1,
          (analyzeAlways urb post env d).2,
          (info.map (submissionWrite irp)).toList ++
            (analyzeFiltered root irp urb post env (analyzeAlways urb post env d).1).2⟩ := by
  have haddress : d.deviceAddress = data.deviceAddress := by
    split at h
    · obtain rfl : (obtainUrbIrpInfo data irp).2 = d := congrArg Prod.snd h
      unfold obtainUrbIrpInfo
      split <;> rfl
    · obtain rfl : data = d := congrArg Prod.snd h
      rfl
  rw [← haddress, ← (analyzeAlways_urbIrpTable urb post env d).2, analyzeUrb, h]

end

section

variable (root : RootData) (irp : Pirp) (urb : Urb) (env : Surroundings) (data : DeviceData)

/-- On its way to the bus driver, an unknown URB of a filtered device enters the table. -/
theorem urbIrpTable_submit :
    (analyzeUrb root irp urb false env data).data.urbIrpTable =
      if urb.isUnknown ∧ isDeviceFiltered root.filter data.deviceAddress.toNat = true then
        addUrbIrpInfo data.urbIrpTable irp (unknownUrbInfo root urb env data) env.urbIrpPool
      else data.urbIrpTable := by
  obtain ⟨htable, haddress⟩ := analyzeAlways_urbIrpTable urb false env data
  have hinfo : unknownUrbInfo root urb env (analyzeAlways urb false env data).1 =
      unknownUrbInfo root urb env data := by
    rw [unknownUrbInfo, haddress]
    rfl
  rw [analyzeUrb_eq root irp urb false env data rfl]
  by_cases hfiltered : isDeviceFiltered root.filter data.deviceAddress.toNat = false
  · rw [if_pos hfiltered, if_neg (by simp [hfiltered])]
    exact htable
  · rw [if_neg hfiltered, analyzeFiltered_urbIrpTable, hinfo, htable]
    rw [Bool.not_eq_false] at hfiltered
    simp only [and_true, hfiltered]

/-- On its way back, every IRP leaves the table. -/
theorem urbIrpTable_complete :
    (analyzeUrb root irp urb true env data).data.urbIrpTable =
      Function.update data.urbIrpTable irp none := by
  obtain ⟨htable, -⟩ := analyzeAlways_urbIrpTable urb true env (obtainUrbIrpInfo data irp).2
  rw [obtainUrbIrpInfo_urbIrpTable] at htable
  rw [analyzeUrb_eq root irp urb true env data rfl]
  split
  · exact htable
  · rw [analyzeFiltered_urbIrpTable, if_neg (by simp)]
    exact htable

/-- A completion of a filtered device writes what was saved for its IRP and then records of its own
URB. -/
theorem writes_complete :
    ∃ own, (analyzeUrb root irp urb true env data).writes =
        (if isDeviceFiltered root.filter data.deviceAddress.toNat = true then
          ((data.urbIrpTable irp).map (submissionWrite irp)).toList else []) ++ own ∧
      ∀ w ∈ own, OwnWrite irp urb true env w := by
  have hinfo := obtainUrbIrpInfo_fst data irp
  generalize hobtain : obtainUrbIrpInfo data irp = r at hinfo
  obtain ⟨info, d⟩ := r
  rw [analyzeUrb_eq root irp urb true env data hobtain, ← hinfo]
  by_cases hfiltered : isDeviceFiltered root.filter data.deviceAddress.toNat = false
  · rw [if_pos hfiltered, if_neg (by simp [hfiltered])]
    exact ⟨[], rfl, nofun⟩
  · rw [if_neg hfiltered, if_pos (Bool.not_eq_false _ ▸ hfiltered)]
    exact ⟨_, rfl, fun w hw => (analyzeFiltered_own _ _ _ _ _ _ hw).1⟩

/-- A submission writes only records of its own URB, and none when the URB is unknown. -/
theorem writes_submit {w : PayloadWrite}
    (h : w ∈ (analyzeUrb root irp urb false env data).writes) :
    OwnWrite irp urb false env w ∧ ¬ urb.isUnknown := by
  rw [analyzeUrb_eq root irp urb false env data rfl] at h
  split at h
  · cases h
  · obtain ⟨hown, hknown⟩ := analyzeFiltered_own _ _ _ _ _ _ h
    exact ⟨hown, fun hc => hknown ⟨hc, rfl⟩⟩

end

/-! ## Runs of a device -/

/-- A submission that has not been completed: what could be saved of it, and whether the function
was unknown and the device filtered. -/
structure Submission where
  info : UrbIrpInfo
  isUnknown : Bool
  isFiltered : Bool
deriving DecidableEq

/-- A device with its root hub, and the submissions that are out. -/
structure Target where
  root : RootData
  data : DeviceData
  submitted : Pirp → Option Submission

namespace Target

/-- A URB is submitted or completed, user mode changes the address filter, or the device is started
and gets its address. -/
inductive Act where
  | submit (irp : Pirp) (urb : Urb) (env : Surroundings)
  | complete (irp : Pirp) (urb : Urb) (env : Surroundings)
  | setFilter (filter : AddressFilter)
  | startDevice (deviceAddress : UInt16)

/-- The device data that `USBPcapAllocateDeviceData` leaves when nothing fails. -/
def init (root : RootData) : Target where
  root := root
  data :=
    { deviceAddress := 255
      endpointTable := fun _ => none
      urbIrpTable := fun _ => none
      descriptor := none }
  submitted := fun _ => none

/-- The device is filtered. -/
def isFiltered (s : Target) : Bool := isDeviceFiltered s.root.filter s.data.deviceAddress.toNat

/-- What there is to remember of a submission. -/
def submission (s : Target) (urb : Urb) (env : Surroundings) : Submission where
  info :=
    { timestamp := env.now
      status := urb.status
      function := urb.function
      info := 0
      bus := s.root.busId
      device := s.data.deviceAddress }
  isUnknown := decide urb.isUnknown
  isFiltered := s.isFiltered

/-- One step. An IRP is completed before it is submitted again. -/
def step (s : Target) : Act → Option Target
  | .submit irp urb env =>
    if s.submitted irp = none then
      some
        { s with
          data := (analyzeUrb s.root irp urb false env s.data).data
          submitted := Function.update s.submitted irp (some (s.submission urb env)) }
    else none
  | .complete irp urb env =>
    if s.submitted irp = none then none
    else
      some
        { s with
          data := (analyzeUrb s.root irp urb true env s.data).data
          submitted := Function.update s.submitted irp none }
  | .setFilter filter => some { s with root := { s.root with filter := filter } }
  | .startDevice deviceAddress =>
    some
      { s with
        root := { s.root with filter := filterStartedDevice s.root.filter deviceAddress }
        data := { s.data with deviceAddress := deviceAddress } }

/-- The allocation for the URB IRP table succeeds. -/
def Act.TableAllocated : Act → Prop
  | .submit _ _ env => env.urbIrpPool = true
  | _ => True

/-- What the table holds of a submission. -/
def Submission.saved (sub : Submission) : Option UrbIrpInfo :=
  if sub.isUnknown ∧ sub.isFiltered then some sub.info else none

/-- The invariant: the table holds what was saved of the submissions that are out. -/
def Saved (s : Target) : Prop :=
  ∀ irp, s.data.urbIrpTable irp = (s.submitted irp).bind Submission.saved

theorem Saved.step {s t : Target} {a : Act} (h : s.Saved) (ha : a.TableAllocated)
    (hst : s.step a = some t) : t.Saved := by
  cases a with
  | submit irp urb env =>
    simp only [Target.step] at hst
    split at hst
    case isFalse => cases hst
    rename_i hfree
    obtain rfl := Option.some.inj hst
    intro i
    -- the IRP is free, so nothing is saved of an earlier use
    have hnone : s.data.urbIrpTable irp = none := by
      rw [h irp, hfree]
      rfl
    change (analyzeUrb s.root irp urb false env s.data).data.urbIrpTable i = _
    rw [urbIrpTable_submit, addUrbIrpInfo, hnone, show env.urbIrpPool = true from ha]
    by_cases hi : i = irp
    · subst hi
      simp only [Function.update_self, Option.bind_some, Submission.saved, submission, isFiltered,
        decide_eq_true_eq]
      split
      · simp only [if_true, Function.update_self]
        rfl
      · exact hnone
    · simp only [Function.update_of_ne hi]
      rw [← h i]
      split
      · simp only [if_true, Function.update_of_ne hi]
      · rfl
  | complete irp urb env =>
    simp only [Target.step] at hst
    split at hst
    · cases hst
    obtain rfl := Option.some.inj hst
    intro i
    change (analyzeUrb s.root irp urb true env s.data).data.urbIrpTable i = _
    rw [urbIrpTable_complete]
    by_cases hi : i = irp
    · subst hi
      simp only [Function.update_self, Option.bind_none]
    · simp only [Function.update_of_ne hi]
      exact h i
  | setFilter filter =>
    obtain rfl := Option.some.inj hst
    exact h
  | startDevice deviceAddress =>
    obtain rfl := Option.some.inj hst
    exact h

theorem saved_run (root : RootData) {as : List Act} {s : Target}
    (h : run step (init root) as = some s) (halloc : ∀ a ∈ as, a.TableAllocated) : s.Saved := by
  induction as using List.reverseRecOn generalizing s with
  | nil =>
    obtain rfl := Option.some.inj h
    exact fun _ => rfl
  | append_singleton as a ih =>
    obtain ⟨t, ht, hst⟩ := run_concat.mp h
    have hsaved := ih ht fun b hb => halloc b (List.mem_append_left _ hb)
    exact hsaved.step (halloc a (List.mem_append_right _ (List.mem_singleton_self a))) hst

/-- A submission that is out was out before the step, or the step made it. -/
theorem submitted_step {s t : Target} {a : Act} (hst : s.step a = some t) {irp : Pirp}
    {sub : Submission} (hsub : t.submitted irp = some sub) :
    s.submitted irp = some sub ∨ ∃ urb env, sub = s.submission urb env := by
  cases a with
  | submit i urb env =>
    simp only [step] at hst
    split at hst
    case isFalse => cases hst
    obtain rfl := Option.some.inj hst
    change Function.update s.submitted i _ irp = some sub at hsub
    rw [Function.update_apply] at hsub
    split at hsub
    · exact Or.inr ⟨urb, env, (Option.some.inj hsub).symm⟩
    · exact Or.inl hsub
  | complete i urb env =>
    simp only [step] at hst
    split at hst
    case isTrue => cases hst
    obtain rfl := Option.some.inj hst
    change Function.update s.submitted i none irp = some sub at hsub
    rw [Function.update_apply] at hsub
    split at hsub
    · cases hsub
    · exact Or.inl hsub
  | setFilter filter =>
    obtain rfl := Option.some.inj hst
    exact Or.inl hsub
  | startDevice deviceAddress =>
    obtain rfl := Option.some.inj hst
    exact Or.inl hsub

/-- What is saved is not marked as coming from the bus driver. -/
theorem submitted_info {root : RootData} {s : Target} (h : Reachable step (init root) s)
    {irp : Pirp} {sub : Submission} (hsub : s.submitted irp = some sub) : sub.info.info = 0 := by
  refine h.invariant (P := fun s => ∀ irp sub, s.submitted irp = some sub → sub.info.info = 0)
    (fun _ _ h => by cases h) (fun s a t _ hs hst irp sub hsub => ?_) irp sub hsub
  rcases submitted_step hst hsub with hold | ⟨urb, env, rfl⟩
  · exact hs irp sub hold
  · rfl

/-- **Saved records are written once, by their own completion.** After any run in which the
allocations for the table succeed, the table has entries only for IRPs that are out. A completion
whose submission had an unknown function, with the device filtered then and now, writes one record
with what was saved at the submission of this use of the IRP, before any record of its own URB; any
other completion writes none. A submission writes no saved record at all. -/
theorem submissions_recorded_once (root : RootData) (as : List Act) {s : Target}
    (h : run step (init root) as = some s) (halloc : ∀ a ∈ as, a.TableAllocated) :
    (∀ irp info, s.data.urbIrpTable irp = some info → s.submitted irp ≠ none) ∧
    (∀ irp urb env sub, s.submitted irp = some sub → sub.info.info = 0 ∧
      ∃ saved own, (analyzeUrb s.root irp urb true env s.data).writes = saved ++ own ∧
        (sub.isUnknown ∧ sub.isFiltered ∧ s.isFiltered →
          ∃ w, saved = [w] ∧ SavedWrite irp sub.info w) ∧
        (¬ (sub.isUnknown ∧ sub.isFiltered ∧ s.isFiltered) → saved = []) ∧
        ∀ w ∈ own, OwnWrite irp urb true env w) ∧
    ∀ irp urb env, ∀ w ∈ (analyzeUrb s.root irp urb false env s.data).writes,
      OwnWrite irp urb false env w ∧ ¬ urb.isUnknown := by
  have hsaved := saved_run root h halloc
  refine ⟨fun irp info hinfo hnone => ?_, fun irp urb env sub hsub => ?_,
    fun irp urb env w hw => writes_submit _ _ _ _ _ hw⟩
  · rw [hsaved irp, hnone] at hinfo
    cases hinfo
  · -- what the table holds is what this use of the IRP has saved
    obtain ⟨own, hwrites, hown⟩ := writes_complete s.root irp urb env s.data
    rw [hsaved irp, hsub, Option.bind_some, Submission.saved, ← isFiltered] at hwrites
    refine ⟨submitted_info (.of_run h) hsub, _, own, hwrites, fun hdue => ?_, fun hnot => ?_, hown⟩
    · refine ⟨submissionWrite irp sub.info, ?_, submissionWrite_saved irp sub.info⟩
      rw [if_pos hdue.2.2, if_pos ⟨hdue.1, hdue.2.1⟩]
      rfl
    · -- a device that is not filtered now writes nothing, whatever was saved
      by_cases hfiltered : s.isFiltered = true
      · rw [if_pos hfiltered, if_neg fun hc => hnot ⟨hc.1, hc.2, hfiltered⟩]
        rfl
      · exact if_neg hfiltered

/-! ## An unknown URB -/

/-- A root hub on which every device is filtered. -/
def filteredRoot : RootData where
  busId := 1
  filter := { AddressFilter.zero with filterAll := 1 }

/-- `URB_FUNCTION_GET_MS_FEATURE_DESCRIPTOR` -/
def featureUrb : Urb where
  length := 0
  status := 0
  body := .unknown 0x002A (by decide)

/-- A call at time 5 in which every allocation succeeds. -/
def plentiful : Surroundings where
  now := 5
  descriptorPool := fun n => some ⟨List.replicate n 0, List.length_replicate⟩
  endpointPool := fun _ _ => true
  urbIrpPool := true
  isochHeaderPool := true
  isochEntriesPool := true
  parseConfigurationDescriptorEx := fun _ _ _ => none
  frameNum := 0

/-- The device of the run: its address is known before the submission, and the filter is set anew
while the URB is out. -/
def featureRun : List Act :=
  [.startDevice 3, .submit 1 featureUrb plentiful, .setFilter filteredRoot.filter]

/-- Its submission is recorded when it comes back. -/
theorem submissions_recorded_once_feature :
    ∃ s w own, run step (init filteredRoot) featureRun = some s ∧
      (analyzeUrb s.root 1 featureUrb true { plentiful with now := 9 } s.data).writes = w :: own ∧
      w.timestamp = 5 ∧ w.header.header.irpId = 1 ∧ w.header.header.status = 0 ∧
      w.header.header.function = 0x002A ∧ w.header.header.bus = 1 ∧ w.header.header.device = 3 ∧
      own.map (fun w => w.timestamp) = [9] := by
  have hrun : run step (init filteredRoot) featureRun = some _ := rfl
  obtain ⟨-, hcomplete, -⟩ := submissions_recorded_once filteredRoot featureRun hrun
    fun a ha => by
      simp only [featureRun, List.mem_cons, List.not_mem_nil, or_false] at ha
      rcases ha with rfl | rfl | rfl
      · exact trivial
      · rfl
      · exact trivial
  obtain ⟨-, saved, own, hwrites, hdue, -, -⟩ := hcomplete 1 featureUrb { plentiful with now := 9 }
    ⟨⟨5, 0, 0x002A, 0, 1, 3⟩, true, true⟩ rfl
  obtain ⟨w, rfl, hw⟩ := hdue (by decide)
  refine ⟨_, w, own, hrun, hwrites, hw.timestamp, hw.irpId, hw.status, hw.function, hw.bus,
    hw.device, ?_⟩
  have htimes := congrArg (fun ws => (ws.map fun w : PayloadWrite => w.timestamp).tail) hwrites
  exact htimes.symm

end Target

end UsbPcap.Driver
