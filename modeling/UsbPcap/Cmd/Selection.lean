import UsbPcap.Cmd.Matching

/-!
# Which devices a selection by ids captures

With `--device`, the address filter holds exactly the addresses of the matching devices. With
`--auto-interface` the interface is found and so are the devices, but only the branch for a given
interface hands the address list on, and `start_capture` rejects the capture as empty.
-/

namespace UsbPcap.Cmd

open CText

variable {host : Host}

/-- Every device has a USB address. -/
def Host.Addressed (host : Host) : Prop :=
  ∀ interface, ∀ d ∈ host.connected interface, 1 ≤ d.address.toNat ∧ d.address.toNat ≤ 127

/-! ## The address list -/

theorem length_decimal_address {a : ℕ} (ha : a ≤ 127) : (decimal a).length ≤ 3 :=
  length_decimal_le (by omega) (by omega)

/-- Five bytes for each item are enough for a comma, three digits and the NUL. -/
theorem printAddresses_more {size i : ℕ} (hi : i ≠ 0) {text : CStr} {items : List ConnectedDevice}
    (haddr : ∀ d ∈ items, d.address.toNat ≤ 127) (hroom : text.length + 5 * items.length < size) :
    printAddresses size i text items =
      some (text ++ moreAddresses (items.map (·.address.toNat))) := by
  induction items generalizing i text with
  | nil => exact congrArg some (List.append_nil text).symm
  | cons item items ih =>
    have hlen := length_decimal_address (haddr item List.mem_cons_self)
    rw [List.length_cons] at hroom
    unfold printAddresses
    dsimp only
    rw [if_neg hi, List.length_cons, if_neg (by omega)]
    rw [ih (Nat.succ_ne_zero i) fun d hd => haddr d (List.mem_cons_of_mem item hd)]
    · rw [List.append_assoc]
      rfl
    · rw [List.length_append, List.length_cons]
      omega

theorem printAddresses_all {items : List ConnectedDevice}
    (haddr : ∀ d ∈ items, d.address.toNat ≤ 127) :
    printAddresses (5 * items.length + 1) 0 [] items =
      some (addressText (items.map (·.address.toNat))) := by
  cases items with
  | nil => rfl
  | cons item items =>
    have hlen := length_decimal_address (haddr item List.mem_cons_self)
    unfold printAddresses
    dsimp only
    rw [if_pos rfl, List.length_cons, List.length_nil, if_neg (by omega), List.nil_append]
    exact printAddresses_more Nat.one_ne_zero
      (fun d hd => haddr d (List.mem_cons_of_mem item hd)) (by omega)

/-- What `resolve_filter_matches` finds, and the list it prints. -/
theorem resolveFilterMatches_ok (hhost : host.Addressed) {ids : Ids} {filter : CStr}
    {found : MatchList} (h : resolveFilterMatches host ids filter = some found) :
    found.items = (host.connected filter).filter ids.accepts ∧
      (0 < found.items.length →
        found.addressList = some (addressText (found.items.map (·.address.toNat)))) := by
  have haddr : ∀ d ∈ (host.connected filter).filter ids.accepts, d.address.toNat ≤ 127 :=
    fun d hd => (hhost filter d (List.mem_of_mem_filter hd)).2
  unfold resolveFilterMatches at h
  dsimp only at h
  generalize (if (host.connected filter).length = 0 then 1 else (host.connected filter).length) *
    sizeofMatchInfo = size at h
  split at h
  · cases h
  · split at h
    · split at h
      · cases h
      · rw [printAddresses_all haddr] at h
        cases h
        exact ⟨rfl, fun _ => rfl⟩
    · rename_i hnone
      cases h
      exact ⟨rfl, fun hsome => absurd hsome hnone⟩

/-! ## The matching step -/

/-- What `auto_select_interface` has found: a device on the interface that it names. -/
theorem autoSelectLoop_ok {ids : Ids} {n : ℕ} {device : Option CStr} {found : MatchList}
    {filters : List CStr} {device' : Option CStr} {found' : MatchList}
    (hfound : n = 1 → device ≠ none ∧ 0 < found.items.length)
    (h : autoSelectLoop host ids n device found filters = some (device', found')) :
    device' ≠ none ∧ 0 < found'.items.length := by
  induction filters generalizing n device found with
  | nil =>
    unfold autoSelectLoop at h
    split at h
    · rename_i hn
      cases h
      exact hfound hn
    · cases h
  | cons filter filters ih =>
    unfold autoSelectLoop at h
    split at h
    · cases h
    · rename_i current _
      split at h
      · rename_i hpos
        split at h
        · exact ih (fun _ => ⟨Option.some_ne_none filter, hpos⟩) h
        · cases h
      · exact ih hfound h

/-- The variables with an address list. -/
def Settings.withAddressList (s : Settings) (text : CStr) : Settings :=
  { s with data := { s.data with addressList := some text } }

theorem selectInterface_given {s : Settings} {interface : CStr}
    (hdevice : s.data.device = some interface) : selectInterface host s = .ok (s, .zero) := by
  unfold selectInterface
  rw [if_neg]
  rintro ⟨-, hnone⟩
  rw [hdevice] at hnone
  cases hnone

/-- With `--device`, the matching step hands the printed list on. -/
theorem matchDevices_given (hhost : host.Addressed) {s s' : Settings} {found : MatchList}
    {interface : CStr} (hdevice : s.data.device = some interface)
    (hids : s.hasVendorId = true ∨ s.hasProductId = true)
    (h : matchDevices host s = .ok (s', found)) :
    s' = s.withAddressList
      (addressText (((host.connected interface).filter s.ids.accepts).map (·.address.toNat))) := by
  unfold matchDevices matchGiven at h
  rw [selectInterface_given hdevice] at h
  dsimp only at h
  split at h
  · rename_i hnone
    rw [hdevice] at hnone
    cases hnone
  · rename_i device hsome
    obtain rfl : device = interface := Option.some.inj (hsome.symm.trans hdevice)
    rw [if_pos ⟨hids, rfl⟩] at h
    split at h
    · cases h
    · rename_i found hresolve
      obtain ⟨hitems, hlist⟩ := resolveFilterMatches_ok hhost hresolve
      split at h
      · cases h
      · rename_i hpos
        cases h
        rw [hlist (Nat.pos_of_ne_zero hpos), hitems]
        rfl

/-- With `--auto-interface`, it names the interface and hands no list on. -/
theorem matchDevices_auto {s s' : Settings} {found : MatchList} (hdevice : s.data.device = none)
    (hauto : s.autoInterface = true) (h : matchDevices host s = .ok (s', found)) :
    ∃ device, s' = { s with data := { s.data with device := device } } := by
  unfold matchDevices selectInterface at h
  rw [if_pos ⟨hauto, hdevice⟩] at h
  split at h
  · cases h
  · rename_i heq
    split at heq
    · cases heq
    · split at heq
      · cases heq
      · rename_i device' found' hselect
        obtain ⟨hsome, hpos⟩ := autoSelectLoop_ok (fun hn => absurd hn Nat.zero_ne_one) hselect
        cases heq
        unfold matchGiven at h
        split at h
        · cases h
          exact ⟨device', rfl⟩
        · rw [if_neg fun hc => Nat.ne_of_gt hpos hc.2] at h
          cases h
          exact ⟨device', rfl⟩

/-! ## When the matching step succeeds -/

/-- A device on the interface has the ids. -/
def Host.hasMatch (host : Host) (ids : Ids) (interface : CStr) : Bool :=
  (host.connected interface).any ids.accepts

/-- With memory, `resolve_filter_matches` finds what there is. -/
theorem resolveFilterMatches_some (hhost : host.Addressed) (hmem : ∀ n, host.malloc n = true)
    (ids : Ids) (filter : CStr) :
    ∃ found, resolveFilterMatches host ids filter = some found ∧
      (0 < found.items.length ↔ host.hasMatch ids filter = true) := by
  have haddr : ∀ d ∈ (host.connected filter).filter ids.accepts, d.address.toNat ≤ 127 :=
    fun d hd => (hhost filter d (List.mem_of_mem_filter hd)).2
  have hpos : 0 < ((host.connected filter).filter ids.accepts).length ↔
      host.hasMatch ids filter = true := by
    rw [List.length_pos_iff_exists_mem]
    unfold Host.hasMatch
    rw [List.any_eq_true]
    simp only [List.mem_filter]
  unfold resolveFilterMatches
  dsimp only
  rw [hmem, if_neg Bool.true_eq_false.mp, hmem, if_neg Bool.true_eq_false.mp,
    printAddresses_all haddr]
  split
  · exact ⟨_, rfl, hpos⟩
  · exact ⟨_, rfl, hpos⟩

/-- With memory, the loop passes over an interface without a match, and takes the first one with a
match if it has none yet. -/
theorem autoSelectLoop_cons (hhost : host.Addressed) (hmem : ∀ n, host.malloc n = true) (ids : Ids)
    (foundFilters : ℕ) (device : Option CStr) (found : MatchList) (filter : CStr)
    (filters : List CStr) :
    ∃ current, autoSelectLoop host ids foundFilters device found (filter :: filters) =
      if host.hasMatch ids filter = true then
        if foundFilters + 1 = 1 then
          autoSelectLoop host ids (foundFilters + 1) (some filter) current filters
        else none
      else autoSelectLoop host ids foundFilters device found filters := by
  obtain ⟨current, hcurrent, hpos⟩ := resolveFilterMatches_some hhost hmem ids filter
  refine ⟨current, ?_⟩
  simp only [autoSelectLoop, hcurrent, hpos]

/-- Once an interface is found, no other one may have a match. -/
theorem autoSelectLoop_one (hhost : host.Addressed) (hmem : ∀ n, host.malloc n = true) (ids : Ids)
    (device : Option CStr) (found : MatchList) (filters : List CStr) :
    autoSelectLoop host ids 1 device found filters =
      if filters.filter (host.hasMatch ids) = [] then some (device, found) else none := by
  induction filters with
  | nil => rfl
  | cons filter filters ih =>
    obtain ⟨current, hstep⟩ := autoSelectLoop_cons hhost hmem ids 1 device found filter filters
    rw [hstep]
    by_cases hmatch : host.hasMatch ids filter = true
    · rw [if_pos hmatch, if_neg (by decide), List.filter_cons_of_pos hmatch,
        if_neg (List.cons_ne_nil _ _)]
    · rw [if_neg hmatch, ih, List.filter_cons_of_neg hmatch]

/-- `auto_select_interface` succeeds when exactly one interface has a match, and names it. -/
theorem autoSelectInterface_iff (hhost : host.Addressed) (hmem : ∀ n, host.malloc n = true)
    (ids : Ids) (interface : CStr) :
    (∃ found, autoSelectInterface host ids = some (some interface, found)) ↔
      host.interfaces.filter (host.hasMatch ids) = [interface] := by
  unfold autoSelectInterface
  induction host.interfaces with
  | nil =>
    unfold autoSelectLoop
    rw [if_neg Nat.zero_ne_one]
    simp
  | cons filter filters ih =>
    obtain ⟨current, hstep⟩ := autoSelectLoop_cons hhost hmem ids 0 none .zero filter filters
    rw [hstep]
    by_cases hmatch : host.hasMatch ids filter = true
    · rw [if_pos hmatch, if_pos rfl, Nat.zero_add, autoSelectLoop_one hhost hmem,
        List.filter_cons_of_pos hmatch, List.cons.injEq]
      split
      · rename_i hnil
        simp [hnil]
      · rename_i hmore
        simp [hmore]
    · rw [if_neg hmatch, ih, List.filter_cons_of_neg hmatch]

/-- With `--device`, the matching step succeeds when a device on the interface matches. -/
theorem matchDevices_given_iff (hhost : host.Addressed) (hmem : ∀ n, host.malloc n = true)
    {s : Settings} {interface : CStr} (hdevice : s.data.device = some interface)
    (hids : s.hasVendorId = true ∨ s.hasProductId = true) :
    (∃ s' found, matchDevices host s = .ok (s', found)) ↔
      host.hasMatch s.ids interface = true := by
  obtain ⟨current, hcurrent, hpos⟩ := resolveFilterMatches_some hhost hmem s.ids interface
  rw [← hpos]
  unfold matchDevices matchGiven
  rw [selectInterface_given hdevice]
  dsimp only
  rw [hdevice]
  dsimp only
  rw [if_pos ⟨hids, rfl⟩, hcurrent]
  dsimp only
  by_cases hnone : current.items.length = 0
  · rw [if_pos hnone, hnone]
    simp
  · rw [if_neg hnone]
    exact iff_of_true ⟨_, _, rfl⟩ (Nat.pos_of_ne_zero hnone)

/-- Without `--device`, it succeeds when exactly one interface has a match. -/
theorem matchDevices_auto_iff (hhost : host.Addressed) (hmem : ∀ n, host.malloc n = true)
    {s : Settings} (hdevice : s.data.device = none) (hauto : s.autoInterface = true)
    (hids : s.hasVendorId = true ∨ s.hasProductId = true) (interface : CStr) :
    (∃ s' found, matchDevices host s = .ok (s', found) ∧ s'.data.device = some interface) ↔
      host.interfaces.filter (host.hasMatch s.ids) = [interface] := by
  have hsome : ¬ (s.hasVendorId = false ∧ s.hasProductId = false) := by
    rintro ⟨hv, hp⟩
    rw [hv, hp] at hids
    exact hids.elim Bool.false_ne_true Bool.false_ne_true
  rw [← autoSelectInterface_iff hhost hmem]
  unfold matchDevices selectInterface
  rw [if_pos ⟨hauto, hdevice⟩, if_neg hsome]
  cases hauto : autoSelectInterface host s.ids with
  | none => simp
  | some result =>
    obtain ⟨device, found⟩ := result
    obtain ⟨hdevice', hfound⟩ := autoSelectLoop_ok (fun hn => absurd hn Nat.zero_ne_one) hauto
    obtain ⟨filter, rfl⟩ := Option.ne_none_iff_exists'.mp hdevice'
    unfold matchGiven
    dsimp only
    rw [if_neg fun h => Nat.ne_of_gt hfound h.2]
    simp

/-! ## The filter -/

/-- The filter keeps the flag it starts with. -/
theorem filterAll_initLoop {tmp filter : AddressFilter} {list : List Char}
    (h : initLoop tmp list = some filter) : filter.filterAll = tmp.filterAll := by
  induction tmp, list using initLoop.induct with
  | case1 tmp =>
    rw [initLoop] at h
    cases h
    rfl
  | case2 tmp c cs hdigit hset =>
    rw [initLoop, if_pos hdigit, hset] at h
    cases h
  | case3 tmp c cs hdigit tmp' hset ih =>
    rw [initLoop, if_pos hdigit, hset] at h
    rw [ih h]
    unfold setDeviceFiltered at hset
    split at hset
    · cases hset
    · cases hset
      rfl
  | case4 tmp cs hdigit ih =>
    rw [initLoop_comma] at h
    exact ih h
  | case5 tmp c cs hdigit hcomma =>
    rw [initLoop, if_neg hdigit, if_neg hcomma] at h
    cases h

theorem filterAll_startCapture {data data' : CaptureData} (h : startCapture data = some data') :
    data'.filter.filterAll = data.captureAll := by
  unfold startCapture initAddressFilter at h
  split at h
  · cases h
  · split at h
    · cases h
    · rename_i filter hinit
      cases h
      split at hinit
      · cases hinit
        rfl
      · exact filterAll_initLoop hinit

/-! ## Exact capture -/

/-- The device has the ids that are asked for. -/
def Ids.Match (ids : Ids) (d : ConnectedDevice) : Prop :=
  (ids.hasVendorId = true → d.vendorId = ids.vendorId) ∧
    (ids.hasProductId = true → d.productId = ids.productId)

theorem Ids.accepts_iff (ids : Ids) (d : ConnectedDevice) : ids.accepts d = true ↔ ids.Match d := by
  unfold Ids.accepts Ids.Match
  cases ids.hasVendorId <;> cases ids.hasProductId <;> simp

/-- `start_capture` gets past its checks with a filter of exactly the addresses of the devices on
`interface` that have the ids. -/
def CapturesExactly (host : Host) (ids : Ids) (interface : CStr) (result : MainResult) : Prop :=
  ∃ data, result = .started (some data) ∧
    ∀ a : ℕ, a ≤ 127 → (isDeviceFiltered data.filter a = true ↔
      ∃ d ∈ host.connected interface, d.address.toNat = a ∧ ids.Match d)

/-- A capture of all devices is not exact, because no device has address 0. -/
theorem not_capturesExactly_of_captureAll (hhost : host.Addressed) {ids : Ids} {interface : CStr}
    {data : CaptureData} (hall : data.captureAll = true) :
    ¬ CapturesExactly host ids interface (.started (startCapture data)) := by
  rintro ⟨data', hstart, hexact⟩
  have hfilter : data'.filter.filterAll = true := by
    rw [filterAll_startCapture (MainResult.started.inj hstart), hall]
  have hzero : isDeviceFiltered data'.filter (0 : ℕ) = true := by
    unfold isDeviceFiltered
    rw [hfilter, if_pos rfl]
  obtain ⟨d, hd, haddr, -⟩ := (hexact 0 (Nat.zero_le _)).mp hzero
  have hpos := (hhost interface d hd).1
  omega

/-- Preparing the data leaves what selects devices alone. -/
theorem prepare_selection (host : Host) (data : CaptureData) :
    (prepare host data).captureAll = data.captureAll ∧
      (prepare host data).captureNew = data.captureNew ∧
      (prepare host data).addressList = data.addressList := by
  unfold prepare populateDeviceMetadata
  split
  · exact ⟨rfl, rfl, rfl⟩
  · exact ⟨rfl, rfl, rfl⟩

/-- Without a file name, what the command line selects is not captured: either nothing is, or the
interactive mode captures everything. -/
theorem not_capturesExactly_of_no_filename (hhost : host.Addressed) {ids : Ids} {interface : CStr}
    {s : Settings} (hfile : s.data.filename = none) :
    ¬ CapturesExactly host ids interface (captureMatched host s) := by
  unfold captureMatched completeArguments
  rw [if_pos (Or.inl hfile)]
  split
  · rintro ⟨_, h, -⟩
    cases h
  · rename_i t ht
    split at ht
    · cases ht
    · split at ht
      · cases ht
      · rename_i data hdata
        cases ht
        apply not_capturesExactly_of_captureAll hhost
        unfold cmdInteractive at hdata
        split at hdata
        · cases hdata
        · cases hdata
          exact (prepare_selection host _).1

/-- With file name and interface, `start_capture` gets the data as they are. -/
theorem captureMatched_complete {s : Settings} (hfile : s.data.filename ≠ none)
    (hdevice : s.data.device ≠ none) :
    captureMatched host s = .started (startCapture (prepare host s.data)) := by
  have hcomplete : completeArguments host s = .ok s := by
    unfold completeArguments
    rw [if_neg]
    rintro (h | h)
    · exact hfile h
    · exact hdevice h
  unfold captureMatched
  rw [hcomplete]

/-- Without a list of addresses, `start_capture` takes the capture for empty. -/
theorem startCapture_empty {data : CaptureData} (hall : data.captureAll = false)
    (hnew : data.captureNew = false) (hlist : data.addressList = none) :
    startCapture data = none := by
  unfold startCapture
  exact if_pos ⟨hall, hnew, hlist⟩

/-- With the list of the matching addresses, the filter is exact. -/
theorem capturesExactly_of_list (hhost : host.Addressed) {ids : Ids} {interface : CStr}
    {data : CaptureData} (hall : data.captureAll = false)
    (hlist : data.addressList = some (addressText
      (((host.connected interface).filter ids.accepts).map (·.address.toNat)))) :
    CapturesExactly host ids interface (.started (startCapture data)) := by
  have haddr : ∀ a ∈ ((host.connected interface).filter ids.accepts).map (·.address.toNat),
      a ≤ 127 := by
    intro a ha
    obtain ⟨d, hd, rfl⟩ := List.mem_map.mp ha
    exact (hhost interface d (List.mem_of_mem_filter hd)).2
  obtain ⟨filter, hinit, hbits⟩ := initAddressFilter_addressText haddr
  refine ⟨{ data with filter := filter }, ?_, fun a ha => ?_⟩
  · unfold startCapture
    rw [hlist, hall, hinit, if_neg fun h => Option.some_ne_none _ h.2.2]
  · rw [hbits a ha, List.mem_map]
    constructor
    · rintro ⟨d, hd, rfl⟩
      obtain ⟨hconnected, haccepts⟩ := List.mem_filter.mp hd
      exact ⟨d, hconnected, rfl, (ids.accepts_iff d).mp haccepts⟩
    · rintro ⟨d, hconnected, rfl, hmatch⟩
      exact ⟨d, List.mem_filter.mpr ⟨hconnected, (ids.accepts_iff d).mpr hmatch⟩, rfl⟩

/-- No option selects devices otherwise than by their ids. -/
structure Settings.OnlyIds (s : Settings) : Prop where
  ids : s.hasVendorId = true ∨ s.hasProductId = true
  addressList : s.data.addressList = none
  captureAll : s.data.captureAll = false
  captureNew : s.data.captureNew = false

theorem Settings.onlyIds_of_given {s : Settings} (hids : s.given.ids = true)
    (haddresses : s.given.addresses = false) : s.OnlyIds := by
  have h : ((s.data.addressList.isSome || s.data.captureAll) || s.data.captureNew) = false :=
    haddresses
  rw [Bool.or_eq_false_iff, Bool.or_eq_false_iff] at h
  have hlist := Option.isNone_iff_eq_none.mp (Option.isSome_eq_false_iff.mp h.1.1)
  exact ⟨(Bool.or_eq_true _ _).mp hids, hlist, h.1.2, h.2⟩

/-- With `--device`, it takes a file name. -/
theorem captures_given_iff (hhost : host.Addressed) {s s' : Settings} {found : MatchList}
    {interface : CStr} (hs : s.OnlyIds) (hdevice : s.data.device = some interface)
    (hmatch : matchDevices host s = .ok (s', found)) :
    CapturesExactly host s.ids interface (captureMatched host s') ↔ s.data.filename ≠ none := by
  have hlist := matchDevices_given hhost hdevice hs.ids hmatch
  have hfile : s'.data.filename = s.data.filename := by rw [hlist]; rfl
  constructor
  · rintro hexact hnone
    exact not_capturesExactly_of_no_filename hhost (hfile.trans hnone) hexact
  · intro hname
    have hdevice' : s'.data.device ≠ none := by
      rw [hlist]
      change s.data.device ≠ none
      rw [hdevice]
      exact Option.some_ne_none interface
    have hname' : s'.data.filename ≠ none := by rwa [hfile]
    rw [captureMatched_complete hname' hdevice']
    obtain ⟨hall, -, haddresses⟩ := prepare_selection host s'.data
    apply capturesExactly_of_list hhost
    · rw [hall, hlist]
      exact hs.captureAll
    · rw [haddresses, hlist]
      rfl

/-- With `--auto-interface`, nothing is captured or everything. -/
theorem not_captures_auto (hhost : host.Addressed) {s s' : Settings} {found : MatchList}
    {ids : Ids} {interface : CStr} (hs : s.OnlyIds) (hdevice : s.data.device = none)
    (hauto : s.autoInterface = true) (hmatch : matchDevices host s = .ok (s', found))
    (hchosen : s'.data.device = some interface) :
    ¬ CapturesExactly host ids interface (captureMatched host s') := by
  obtain ⟨device, rfl⟩ := matchDevices_auto hdevice hauto hmatch
  by_cases hname : s.data.filename = none
  · exact not_capturesExactly_of_no_filename hhost hname
  · have hdevice' : device ≠ none := fun hnone => Option.some_ne_none interface
      (hchosen.symm.trans hnone)
    rw [captureMatched_complete (s := { s with data := { s.data with device := device } }) hname
      hdevice']
    obtain ⟨hall, hnew, haddresses⟩ := prepare_selection host { s.data with device := device }
    rw [startCapture_empty (hall.trans hs.captureAll) (hnew.trans hs.captureNew)
      (haddresses.trans hs.addressList)]
    rintro ⟨_, h, -⟩
    cases h

/-- **A selection by ids captures exactly the matching devices if and only if the interface is
given.** For a command line with ids whose matching step succeeds, that takes `--device` and
`--output`; an interface that `--auto-interface` has chosen ends in an empty capture. -/
theorem selection_exact_iff (hhost : host.Addressed) {opts : List Opt} {s s' : Settings}
    {found : MatchList} {interface : CStr} (hopts : parseOptions opts = .ok s)
    (hcapture : s.action = .capture) (hids : (given opts).ids = true)
    (haddresses : (given opts).addresses = false)
    (hinterface : (given opts).device = true ∨ (given opts).autoInterface = true)
    (hmatch : matchDevices host s = .ok (s', found)) (hchosen : s'.data.device = some interface) :
    CapturesExactly host s.ids interface (usbpcapcmdMain host opts) ↔
      (given opts).device = true ∧ (given opts).output = true := by
  have hmain : usbpcapcmdMain host opts = captureMatched host s' := by
    unfold usbpcapcmdMain captureMode
    rw [hopts]
    dsimp only
    rw [if_pos hcapture, hmatch]
  rw [← given_parseOptions hopts] at hids haddresses hinterface ⊢
  rw [hmain]
  have hs := Settings.onlyIds_of_given hids haddresses
  cases hdevice : s.data.device with
  | some device =>
    -- a given interface: the address list is taken from its matches
    have hsame : device = interface := by
      rw [matchDevices_given hhost hdevice hs.ids hmatch] at hchosen
      exact Option.some.inj (hdevice.symm.trans hchosen)
    rw [hsame] at hdevice
    have hgiven : s.given.device = true := Option.isSome_iff_exists.mpr ⟨interface, hdevice⟩
    rw [captures_given_iff hhost hs hdevice hmatch, hgiven]
    exact Option.isSome_iff_ne_none.symm.trans (and_iff_right rfl).symm
  | none =>
    -- an interface chosen by `auto_select_interface`: the address list stays NULL
    have hgiven : ¬ s.given.device = true := by
      change ¬ s.data.device.isSome = true
      rw [hdevice]
      exact Bool.false_ne_true
    have hauto : s.autoInterface = true := hinterface.resolve_left hgiven
    exact iff_of_false (not_captures_auto hhost hs hdevice hauto hmatch hchosen)
      fun h => hgiven h.1

/-! ## Two interfaces, one device each -/

/-- A device 5 with vendor id 0x1234 on the first interface, and another one on the second. -/
def sampleHost : Host where
  interfaces := ["USBPcap1".toList, "USBPcap2".toList]
  connected interface :=
    if interface = "USBPcap1".toList then [{ address := 5, vendorId := 0x1234, productId := 1 }]
    else if interface = "USBPcap2".toList then
      [{ address := 3, vendorId := 0x4321, productId := 2 }]
    else []
  malloc _ := true
  answers := none

theorem addressed_sampleHost : sampleHost.Addressed := by
  intro interface d hd
  unfold sampleHost at hd
  dsimp only at hd
  split at hd
  · rw [List.mem_singleton.mp hd]
    decide
  · split at hd
    · rw [List.mem_singleton.mp hd]
      decide
    · exact absurd hd List.not_mem_nil

/-- `--device USBPcap1 --vendor-id 0x1234 --output out.pcap` -/
def givenOpts : List Opt :=
  [.device "USBPcap1".toList, .vendorId "0x1234".toList, .output "out.pcap".toList]

/-- `--auto-interface --vendor-id 0x1234 --output out.pcap` -/
def autoOpts : List Opt :=
  [.autoInterface, .vendorId "0x1234".toList, .output "out.pcap".toList]

example : parseU16Value "0x1234".toList = some 0x1234 := by decide

/-- The first interface, given or chosen. -/
theorem selection_exact_iff_sample :
    (∃ s, parseOptions givenOpts = .ok s ∧
      (CapturesExactly sampleHost s.ids "USBPcap1".toList (usbpcapcmdMain sampleHost givenOpts) ↔
        (given givenOpts).device = true ∧ (given givenOpts).output = true)) ∧
    ∃ s, parseOptions autoOpts = .ok s ∧
      (CapturesExactly sampleHost s.ids "USBPcap1".toList (usbpcapcmdMain sampleHost autoOpts) ↔
        (given autoOpts).device = true ∧ (given autoOpts).output = true) :=
  ⟨⟨_, rfl, selection_exact_iff addressed_sampleHost rfl rfl rfl rfl (Or.inl rfl) rfl rfl⟩,
    ⟨_, rfl, selection_exact_iff addressed_sampleHost rfl rfl rfl rfl (Or.inr rfl) rfl rfl⟩⟩

/-- An interface that is chosen automatically is not captured from. -/
theorem auto_interface_captures_nothing :
    ¬ ∀ (host : Host) (opts : List Opt) (s s' : Settings) (found : MatchList) (interface : CStr),
      host.Addressed → parseOptions opts = .ok s → s.action = .capture →
      (given opts).ids = true → (given opts).addresses = false → (given opts).output = true →
      ((given opts).device = true ∨ (given opts).autoInterface = true) →
      matchDevices host s = .ok (s', found) → s'.data.device = some interface →
      CapturesExactly host s.ids interface (usbpcapcmdMain host opts) := by
  intro h
  obtain ⟨data, hstarted, -⟩ := h sampleHost autoOpts _ _ _ _ addressed_sampleHost rfl rfl rfl rfl
    rfl (Or.inr rfl) rfl rfl
  have hempty : usbpcapcmdMain sampleHost autoOpts = .started none := rfl
  rw [hempty] at hstarted
  cases hstarted

end UsbPcap.Cmd
