import UsbPcap.CaptureFile
import UsbPcap.Cmd.Selection
import UsbPcap.Service.Denotation

/-!
# From a request to the records

The service turns an admitted request into an argument vector. The tool reads it with `getopt_long`,
looks for the devices and starts a capture, the driver records, the thread filters what it is
delivered, and the service reads the file. When the request is readable, the file holds the packets
that the request asks for.
-/

namespace UsbPcap

open Format Driver Pcap Cmd Service
open Server (trimSpace)

/-! ## Definitions -/

/-- The request asks for the application filter. -/
def Service.IpcRequest.Filters (req : IpcRequest) : Prop :=
  req.appFilter = true ∨ req.denotes.endpoint ≠ none ∨ req.denotes.transferType ≠ none

instance (req : IpcRequest) : Decidable req.Filters := inferInstanceAs (Decidable (_ ∨ _))

/-- What the request asks of a packet, where `metadata` says which devices were seen. -/
def Service.IpcRequest.Asks (req : IpcRequest) (metadata : Fin 128 → DeviceMetadata)
    (h : BufferPacketHeader) : Prop :=
  req.Filters →
    ∃ hdevice : h.device.toNat < 128,
      (∀ id ∈ req.denotes.vendorId,
        (metadata ⟨h.device.toNat, hdevice⟩).present = true ∧
          (metadata ⟨h.device.toNat, hdevice⟩).vendorId = id) ∧
      (∀ id ∈ req.denotes.productId,
        (metadata ⟨h.device.toNat, hdevice⟩).present = true ∧
          (metadata ⟨h.device.toNat, hdevice⟩).productId = id) ∧
      (∀ endpoint ∈ req.denotes.endpoint, h.endpoint = endpoint) ∧
      (∀ transfer ∈ req.denotes.transferType, h.transfer = transfer)

instance (req : IpcRequest) (metadata : Fin 128 → DeviceMetadata) (h : BufferPacketHeader) :
    Decidable (req.Asks metadata h) :=
  inferInstanceAs (Decidable (_ → _))

/-- The packets that the request asks for. -/
def asked (req : IpcRequest) (metadata : Fin 128 → DeviceMetadata) (ks : List Driver.Packet) :
    List Driver.Packet :=
  ks.filter fun k => req.Asks metadata k.header.header

/-- The argument vector that the service starts the tool with. -/
def toolArgs (req : IpcRequest) (outputPath : String) : List CStr :=
  (buildCaptureArgs (normalizeRequest req) outputPath).map String.toList

/-! ## What the tool makes of the arguments -/

section Tool

variable {req : IpcRequest} {outputPath : String}

theorem foldl_plan_if {p : Prop} [Decidable p] {opt : Opt} (m : Plan) :
    (if p then [opt] else []).foldl Plan.read m = if p then m.read opt else m := by
  split
  · rfl
  · rfl

/-- What the arguments set beside the fields of `Meaning`. -/
theorem foldl_plan_captureOptions (req : IpcRequest) (outputPath : String) (m : Plan) :
    (captureOptions req outputPath).foldl Plan.read m =
      { m with
        filename := some outputPath.toList
        noInteractive := true
        enabled := m.enabled || req.appFilter || decide (req.endpoint ≠ "") ||
          decide (req.transferType ≠ "") } := by
  unfold captureOptions idOptions
  simp only [List.foldl_append, foldl_plan_if, List.foldl_cons, List.foldl_nil, Plan.read, ite_self]
  by_cases hfilter : req.appFilter = true <;> by_cases hendpoint : req.endpoint ≠ "" <;>
    by_cases htransfer : req.transferType ≠ "" <;>
    simp [hfilter, hendpoint, htransfer]

/-- The tool takes over a request that is admitted and readable. -/
theorem meaning_captureOptions (hvalid : validateCaptureRequest (normalizeRequest req) = none)
    (hreadable : req.Readable) :
    (∀ opt ∈ captureOptions (normalizeRequest req) outputPath, opt.Accepted) ∧
      (captureOptions (normalizeRequest req) outputPath).foldl Meaning.read .initial =
        req.denotes := by
  have htransfer : (normalizeRequest req).transferType = req.transferType := rfl
  have hstore : (normalizeRequest req).storeMode = req.storeMode := rfl
  obtain ⟨hmode, hmeans⟩ := storeMode_ok (storeMode_of_validate hvalid)
  obtain ⟨hv, hv'⟩ := (id_iff req.vendorID).mpr hreadable.vendorID
  obtain ⟨hp, hp'⟩ := (id_iff req.productID).mpr hreadable.productID
  obtain ⟨he, he'⟩ := (endpoint_iff req.endpoint).mpr hreadable.endpoint
  obtain ⟨ht, ht'⟩ := (transfer_iff req.transferType).mpr hreadable.transferType
  rw [hstore] at hmeans
  rw [accepted_captureOptions, foldl_captureOptions]
  unfold optionsMeaning IpcRequest.denotes
  rw [vendorID_normalizeRequest, productID_normalizeRequest, endpoint_normalizeRequest, htransfer,
    hstore, hv', hp', he', ht', hmeans]
  exact ⟨⟨hv, hp, he, ht, hmode⟩, rfl⟩

/-- A field whose option is accepted where it is given denotes something exactly if it is given. -/
theorem given_iff {α : Type} {given accepted : Prop} [Decidable given] {x d : Option α}
    (h : (given → accepted) ∧ (if given then x else none) = d) (hsome : accepted → x.isSome) :
    given ↔ d ≠ none := by
  obtain ⟨haccepted, rfl⟩ := h
  by_cases hgiven : given
  · rw [if_pos hgiven]
    exact iff_of_true hgiven (Option.isSome_iff_ne_none.mp (hsome (haccepted hgiven)))
  · rw [if_neg hgiven]
    exact iff_of_false hgiven fun h => h rfl

/-- The settings that the option loop ends with. -/
structure Configured (req : IpcRequest) (outputPath : String) (s : Settings) : Prop where
  loop : optionLoop .initial (captureOptions (normalizeRequest req) outputPath) = .ok s
  meaning : s.meaning = req.denotes

theorem exists_configured (hvalid : validateCaptureRequest (normalizeRequest req) = none)
    (hreadable : req.Readable) : ∃ s, Configured req outputPath s := by
  obtain ⟨haccepted, hmeans⟩ := meaning_captureOptions hvalid hreadable
  obtain ⟨s, hs⟩ := (optionLoop_ok_iff .initial _).mpr haccepted
  exact ⟨s, hs, (meaning_optionLoop hs).trans hmeans⟩

theorem Configured.plan {s : Settings} (hs : Configured req outputPath s) :
    s.plan =
      { filename := some outputPath.toList
        noInteractive := true
        injectDescriptors := false
        enabled := (normalizeRequest req).appFilter ||
          decide ((normalizeRequest req).endpoint ≠ "") ||
          decide ((normalizeRequest req).transferType ≠ "")
        filterVendorId := false
        filterProductId := false
        otherMode := false } :=
  (plan_optionLoop hs.loop).trans (foldl_plan_captureOptions _ _ _)

/-- `normalizeRequest` turns the application filter on for an endpoint and for a transfer type. -/
theorem filters_iff (hreadable : req.Readable) :
    ((normalizeRequest req).appFilter || decide ((normalizeRequest req).endpoint ≠ "") ||
      decide ((normalizeRequest req).transferType ≠ "")) = true ↔ req.Filters := by
  have hendpoint : normalizeHex req.endpoint ≠ "" ↔ denotedEndpoint req.endpoint ≠ none := by
    have hfield := (endpoint_iff req.endpoint).mpr hreadable.endpoint
    have hsome : (parseU16Value (normalizeHex req.endpoint).toList).any (· ≤ 0xFF) →
        ((parseU16Value (normalizeHex req.endpoint).toList).map UInt16.toUInt8).isSome := by
      rw [Option.isSome_map]
      cases parseU16Value (normalizeHex req.endpoint).toList with
      | none => exact fun h => h
      | some n => exact fun _ => rfl
    exact given_iff hfield hsome
  have htransfer : req.transferType ≠ "" ↔ denotedTransfer req.transferType ≠ none :=
    given_iff ((transfer_iff req.transferType).mpr hreadable.transferType) id
  -- an endpoint or a transfer type switches the filter on, whatever the request says
  have hfilter : (normalizeRequest req).appFilter = true ↔
      req.appFilter = true ∨ normalizeHex req.endpoint ≠ "" ∨ req.transferType ≠ "" := by
    change (if ((if req.endpoint ≠ "" then normalizeHex req.endpoint else req.endpoint) ≠ "" ∨
      req.transferType ≠ "") ∧ req.appFilter = false then true else req.appFilter) = true ↔ _
    rw [normalizeHex_if]
    cases req.appFilter with
    | true =>
      rw [if_neg fun h => Bool.true_eq_false_eq_False h.2]
      exact iff_of_true rfl (Or.inl rfl)
    | false =>
      rw [or_iff_right Bool.false_ne_true]
      split
      · rename_i hgiven
        exact iff_of_true rfl hgiven.1
      · rename_i hnot
        exact iff_of_false Bool.false_ne_true fun h => hnot ⟨h, rfl⟩
  have htype : (normalizeRequest req).transferType = req.transferType := rfl
  unfold IpcRequest.Filters IpcRequest.denotes
  rw [← hendpoint, ← htransfer, endpoint_normalizeRequest, htype, Bool.or_eq_true, Bool.or_eq_true,
    decide_eq_true_iff, decide_eq_true_iff, hfilter]
  constructor
  · rintro ((h | hendpoint) | htransfer)
    · exact h
    · exact Or.inr (Or.inl hendpoint)
    · exact Or.inr (Or.inr htransfer)
  · exact fun h => Or.inl (Or.inl h)

/-- What is asked of a field that is given. -/
theorem forall_given_iff {α : Type} {given : Bool} {x : α} {p : α → Prop} :
    (given = true → p x) ↔ ∀ y ∈ (if given then some x else none), p y := by
  cases given with
  | true =>
    refine ⟨fun h y hy => ?_, fun h _ => h x rfl⟩
    obtain rfl := Option.some.inj hy
    exact h rfl
  | false => exact iff_of_true nofun nofun

theorem Configured.appFilter {s : Settings} (hs : Configured req outputPath s) :
    s.withIds.data.appFilter =
      { s.data.appFilter with
        hasVendorId := s.hasVendorId
        vendorId := if s.hasVendorId then s.vendorId else s.data.appFilter.vendorId
        hasProductId := s.hasProductId
        productId := if s.hasProductId then s.productId else s.data.appFilter.productId } :=
  appFilter_withIds (congrArg Plan.filterVendorId hs.plan) (congrArg Plan.filterProductId hs.plan)

/-- The application filter is on exactly if the request asks for it. -/
theorem Configured.enabled_iff {s : Settings} (hs : Configured req outputPath s)
    (hreadable : req.Readable) : s.withIds.data.appFilter.enabled = true ↔ req.Filters := by
  rw [← filters_iff hreadable, hs.appFilter]
  exact iff_of_eq (congrArg (· = true) (congrArg Plan.enabled hs.plan))

/-- The filter that the tool sets up asks for what the request asks for. -/
theorem wants_iff_asks {s : Settings} {data : ThreadData} (hreadable : req.Readable)
    (hs : Configured req outputPath s) (hfilter : data.appFilter = s.withIds.data.appFilter)
    (h : BufferPacketHeader) : Wants data h ↔ req.Asks data.deviceMetadata h := by
  have hmeaning := hs.meaning
  have henabled := hs.enabled_iff hreadable
  have hvendor : req.denotes.vendorId = if s.hasVendorId then some s.vendorId else none :=
    (congrArg Meaning.vendorId hmeaning).symm
  have hproduct : req.denotes.productId = if s.hasProductId then some s.productId else none :=
    (congrArg Meaning.productId hmeaning).symm
  have hendpoint : req.denotes.endpoint =
      if s.data.appFilter.hasEndpoint then some s.data.appFilter.endpoint else none :=
    (congrArg Meaning.endpoint hmeaning).symm
  have htransfer : req.denotes.transferType =
      if s.data.appFilter.hasTransferType then some s.data.appFilter.transferType else none :=
    (congrArg Meaning.transferType hmeaning).symm
  unfold Wants IpcRequest.Asks
  rw [hfilter, hvendor, hproduct, hendpoint, htransfer]
  refine imp_congr henabled (exists_congr fun hdevice => ?_)
  rw [hs.appFilter]
  refine and_congr ?_ (and_congr ?_ (and_congr forall_given_iff forall_given_iff))
  · rw [← forall_given_iff]
    refine forall_congr' fun hgiven => ?_
    rw [if_pos hgiven]
  · rw [← forall_given_iff]
    refine forall_congr' fun hgiven => ?_
    rw [if_pos hgiven]

end Tool

/-! ## The whole way -/

/-- **A request and the records that come of it.** The tool ends its option loop on the arguments
that the service makes of a request that is admitted and readable, configured as the request says.
If it comes as far as a capture that `start_capture` accepts, then whatever the driver has recorded
and however it is delivered, the service reads from the file exactly those of the wholly delivered
packets that the request asks for, in order and once each; with on-match storage there is no file
if there are none. -/
theorem request_read_back {req : IpcRequest} {outputPath : String}
    (hvalid : validateCaptureRequest (normalizeRequest req) = none) (hreadable : req.Readable)
    (hdash : outputPath ≠ "-") (host : Host) {fs : FileSystem} (hfree : fs outputPath = none)
    {os : Os} (hos : os.Elevated) (prog : CStr) (snaplen : UInt32) (ops : List Op) {s : Session}
    (hs : (Session.init snaplen).run ops = s) (hb : s.data.buffer ≠ none)
    (hk : ∀ k ∈ s.accepted, Readable s.data.snaplen k)
    (hheader : sizeofPcapHdr ≤ s.delivered.length) (hlen : s.delivered.length < 2 ^ 31)
    (hreads : os.thread.reads.flatten = s.delivered)
    (hfuel : s.delivered.length < os.thread.fuel) :
    ∃ calls u, Configured req outputPath u ∧
      usbpcapcmdRun host fs os calls (prog :: toolArgs req outputPath) =
        some (captureRun host fs os u.withIds) ∧
      ∀ t found result, captureRun host fs os u.withIds = .captured t found result →
        (startCapture t.data).isSome → ∃ ret o n, result = .ok (.returned ret o) ∧ s.Delivered n ∧
          (unread s.data = [] → n = s.accepted.length) ∧
          (req.storeMode ≠ "on-match" ∨
              asked req t.data.deviceMetadata (s.accepted.take n) ≠ [] →
            ret = 0 ∧ ∃ content r, o.written outputPath = some content ∧
              openReader content = .ok r ∧
              r.readAll.1 =
                (asked req t.data.deviceMetadata (s.accepted.take n)).map
                  (Packet.toRecord s.data) ∧
              (unread s.data = [] ∨ req.Filters ∨ req.storeMode = "on-match" →
                r.readAll.2 = .eof)) ∧
          (req.storeMode = "on-match" ∧
              asked req t.data.deviceMetadata (s.accepted.take n) = [] →
            ret = 1 ∧ o.written outputPath = none) := by
  obtain ⟨u, hu⟩ : ∃ u, Configured req outputPath u := exists_configured hvalid hreadable
  have hplan := hu.plan
  -- the option loop over `getopt.c`
  obtain ⟨calls, result, hloop, heq⟩ := getoptLoop_eq prog (toolArgs req outputPath)
  have hopts : argvOptions (toolArgs req outputPath) =
      captureOptions (normalizeRequest req) outputPath := toolOptions_buildCaptureArgs _ _
  rw [hopts, hu.loop] at heq
  obtain rfl := withoutTopic_ok heq
  have haction : u.withIds.action = .capture :=
    action_of_plan (s := u.withIds) (congrArg Plan.otherMode hplan)
  refine ⟨calls, u, hu, ?_, fun t found result ht hstart => ?_⟩
  · rw [usbpcapcmdRun, hloop, Option.map_some, endOf, if_pos haction]
  · -- what is captured
    obtain ⟨rfl, hprocess, hfilename, hmode, hinject, hfilter⟩ :=
      captured_of_captureRun (s := u.withIds) (congrArg Plan.noInteractive hplan) ht
    have hname : t.data.filename = some outputPath.toList :=
      hfilename.trans (congrArg Plan.filename hplan)
    have hblock : injectedDescriptors os t.data = [] := by
      unfold injectedDescriptors
      rw [hinject.trans (congrArg Plan.injectDescriptors hplan)]
      rfl
    have hstored : t.data.storeMode =
        if req.storeMode = "on-match" then storeModeOnMatch else storeModeImmediate :=
      hmode.trans (congrArg Meaning.storeMode hu.meaning)
    have himmediate : t.data.storeMode = storeModeImmediate ↔ req.storeMode ≠ "on-match" := by
      rw [hstored]
      split
      · rename_i honmatch
        exact iff_of_false (by decide) fun h => h honmatch
      · rename_i hnot
        exact iff_of_true rfl hnot
    have hmodes : t.data.storeMode = storeModeImmediate ∨ t.data.storeMode = storeModeOnMatch := by
      rw [hstored]
      split
      · exact Or.inr rfl
      · exact Or.inl rfl
    have hwanted (ks : List Driver.Packet) :
        wanted (t.data.threadData outputPath.toList) ks = asked req t.data.deviceMetadata ks :=
      List.filter_congr fun k _ => decide_eq_decide.mpr (wants_iff_asks hreadable hu hfilter _)
    have hpath : String.ofList outputPath.toList = outputPath := String.ofList_toList
    have hfree' : fs (.ofList outputPath.toList) = none := hpath.symm ▸ hfree
    obtain ⟨o, n, tail, hn, hread, htail, hnone, hrun, hwritten⟩ :=
      runCapture_delivered hos hs hb hk hheader hlen hreads hfuel hname
        (hpath.symm ▸ hdash) hfree' hprocess hmodes hstart
    rw [hwanted] at hrun hwritten
    rw [hpath, hblock] at hwritten
    refine ⟨_, o, n, hrun, hn, hread, fun hdue => ?_, fun hnothing => ?_⟩
    · rw [if_pos (hdue.imp himmediate.mpr id)] at hwritten ⊢
      have hkeep : ∀ k ∈ asked req t.data.deviceMetadata (s.accepted.take n),
          Readable s.data.snaplen k :=
        fun k hmem => hk k (List.mem_of_mem_take (List.mem_of_mem_filter hmem))
      have hempty : InjectedBlock [] [] :=
        ⟨fun _ h => absurd h List.not_mem_nil, fun _ => 0, 0, rfl⟩
      obtain ⟨r, recs, hr, hreads, hrecs, heof⟩ := readAll_file hempty hkeep hnone
      cases hreads
      refine ⟨rfl, _, r, hwritten, hr, hrecs, fun hwhole => heof (htail ?_)⟩
      refine hwhole.imp id ?_
      rintro (hfilters | honmatch) ⟨hoff, hstore⟩
      · have hon := (hu.enabled_iff hreadable).mpr hfilters
        rw [← hfilter] at hon
        exact Bool.false_ne_true (hoff.symm.trans hon)
      · exact himmediate.mp hstore honmatch
    · have hnot : ¬ (t.data.storeMode = storeModeImmediate ∨
          asked req t.data.deviceMetadata (s.accepted.take n) ≠ []) := by
        rintro (hstore | hsome)
        · exact himmediate.mp hstore hnothing.1
        · exact hsome hnothing.2
      rw [if_neg hnot] at hwritten ⊢
      exact ⟨rfl, hwritten⟩

/-- A capture of the endpoint 0x81. -/
def bulkRequest : IpcRequest where
  action := "startCapture"
  interface := "USBPcap1"
  endpoint := "81"

/-- An elevated process that reads what was delivered of a bulk transfer. -/
def elevatedOs : Os where
  elevated := true
  thread :=
    { createAtStart := true, descriptors := [], createThread := true, env := .reliable, fuel := 100,
      reads := [deliveredBulk.delivered] }
  commandLine := true
  job := none
  createJobObject := true
  assignProcess := true
  worker := .notStarted

theorem request_read_back_bulk :
    ∃ calls t found o r, usbpcapcmdRun sampleHost .empty elevatedOs calls
        ("USBPcapCMD.exe".toList :: toolArgs bulkRequest "usb.pcap") =
          some (.captured t found (.ok (.returned 0 o))) ∧
      (∃ content, o.written "usb.pcap" = some content ∧ openReader content = .ok r) ∧
      ∃ n, r.readAll.1 = (asked bulkRequest t.data.deviceMetadata
        (deliveredBulk.accepted.take n)).map (Packet.toRecord deliveredBulk.data) := by
  obtain ⟨calls, u, hu, hrun, hend⟩ := @request_read_back bulkRequest "usb.pcap" (by decide)
    ⟨Or.inl (by decide), Or.inl (by decide), Or.inr (by decide), Or.inl rfl⟩ (by decide) sampleHost
    .empty rfl elevatedOs ⟨rfl, rfl, rfl, Env.reliable_succeeds⟩ "USBPcapCMD.exe".toList 65535 _
    deliveredBulk rfl (by decide) readable_deliveredBulk (by rw [length_deliveredBulk]; decide)
    (by rw [length_deliveredBulk]; decide) (List.append_nil _)
    (by rw [length_deliveredBulk]; decide)
  obtain ⟨t, found, hcapture, hstart⟩ : ∃ t found,
      captureRun sampleHost .empty elevatedOs u.withIds =
        .captured t found (runCapture .empty elevatedOs t.data) ∧ (startCapture t.data).isSome := by
    obtain rfl := Except.ok.inj (hu.loop.symm.trans rfl)
    exact ⟨_, _, rfl, rfl⟩
  obtain ⟨ret, o, n, hresult, -, -, hdue, -⟩ := hend t found _ hcapture hstart
  obtain ⟨rfl, content, r, hcontent, hr, hrecs, -⟩ := hdue (Or.inl (by decide))
  rw [hcapture, hresult] at hrun
  exact ⟨calls, t, found, o, r, hrun, ⟨content, hcontent, hr⟩, n, hrecs⟩

end UsbPcap
