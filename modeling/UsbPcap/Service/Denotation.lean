import UsbPcap.Service.CaptureArgs

/-!
# What a request denotes

An admitted request denotes ids, an endpoint, a transfer type, a store mode and a duration. The
capture tool takes all of it over when the service could read the ids and the endpoint as numbers of
their width and the transfer type has a name. The service admits other requests as well, and for
these the tool refuses its command line or goes on with something that was not asked for.
-/

namespace UsbPcap.Service

open Cmd CText
open Server (trimSpace)

/-! ## The meaning of a request -/

/-- The id in a text. -/
def denotedId (s : String) : Option UInt16 := (readHex s).map UInt16.ofNat

/-- The endpoint address in a text. -/
def denotedEndpoint (s : String) : Option UInt8 :=
  match readHex s with
  | none => none
  | some n => if n ≤ 0xFF then some (UInt8.ofNat n) else none

/-- The names of the transfer types. -/
def transferTypes : List (String × UInt8) :=
  [("control", transferControl), ("bulk", transferBulk), ("interrupt", transferInterrupt),
    ("isochronous", transferIsochronous), ("unknown", transferUnknown)]

/-- The transfer type with the name, in any case. -/
def denotedTransfer (s : String) : Option UInt8 :=
  (transferTypes.find? fun t => stricmp s.toList t.1.toList).map (·.2)

/-- What the request asks for. -/
def IpcRequest.denotes (req : IpcRequest) : Meaning where
  vendorId := denotedId req.vendorID
  productId := denotedId req.productID
  endpoint := denotedEndpoint req.endpoint
  transferType := denotedTransfer req.transferType
  storeMode := if req.storeMode = "on-match" then storeModeOnMatch else storeModeImmediate
  duration := req.durationSeconds

/-- Every field is left out or is a text of its kind. -/
structure IpcRequest.Readable (req : IpcRequest) : Prop where
  vendorID : trimSpace req.vendorID = "" ∨ (readHex req.vendorID).isSome
  productID : trimSpace req.productID = "" ∨ (readHex req.productID).isSome
  endpoint : trimSpace req.endpoint = "" ∨ (readHex req.endpoint).any (· ≤ 0xFF)
  transferType : req.transferType = "" ∨
    ∃ t ∈ transferTypes, stricmp req.transferType.toList t.1.toList

/-! ## Field by field -/

/-- A field's option is accepted where it is given and then means what the field denotes, if and
only if the field is left out or denotes something. -/
theorem field_iff {α : Type} {given accepted : Prop} [Decidable given] {x d : Option α}
    (hsome : accepted → x.isSome) (hread : d.isSome → accepted ∧ x = d)
    (hnone : ¬ given → d = none) :
    ((given → accepted) ∧ (if given then x else none) = d) ↔ (¬ given ∨ d.isSome) := by
  by_cases hgiven : given
  · rw [if_pos hgiven]
    constructor
    · rintro ⟨haccepted, rfl⟩
      exact Or.inr (hsome (haccepted hgiven))
    · rintro (hnot | hdenotes)
      · exact absurd hgiven hnot
      · obtain ⟨haccepted, hx⟩ := hread hdenotes
        exact ⟨fun _ => haccepted, hx⟩
  · rw [if_neg hgiven, hnone hgiven]
    exact iff_of_true ⟨fun h => absurd h hgiven, rfl⟩ (Or.inl hgiven)

theorem normalizeHex_eq_empty_iff (s : String) : ¬ normalizeHex s ≠ "" ↔ trimSpace s = "" := by
  rw [not_not]
  constructor
  · intro h
    by_contra hne
    exact normalizeHex_ne hne h
  · exact normalizeHex_blank

/-- `--vendor-id` and `--product-id` -/
theorem id_iff (s : String) :
    ((normalizeHex s ≠ "" → (parseU16Value (normalizeHex s).toList).isSome) ∧
      (if normalizeHex s ≠ "" then parseU16Value (normalizeHex s).toList else none) =
        denotedId s) ↔
      trimSpace s = "" ∨ (readHex s).isSome := by
  have hiff : (denotedId s).isSome ↔ (readHex s).isSome := by
    unfold denotedId
    rw [Option.isSome_map]
  rw [field_iff id _ _, normalizeHex_eq_empty_iff, hiff]
  · intro hsome
    obtain ⟨n, hn⟩ := Option.isSome_iff_exists.mp (hiff.mp hsome)
    unfold denotedId
    rw [parseU16Value_normalizeHex hn, hn]
    exact ⟨rfl, rfl⟩
  · intro hblank
    unfold denotedId
    rw [readHex_blank ((normalizeHex_eq_empty_iff s).mp hblank)]
    rfl

/-- `--endpoint` -/
theorem endpoint_iff (s : String) :
    ((normalizeHex s ≠ "" → (parseU16Value (normalizeHex s).toList).any (· ≤ 0xFF)) ∧
      (if normalizeHex s ≠ "" then (parseU16Value (normalizeHex s).toList).map UInt16.toUInt8
        else none) = denotedEndpoint s) ↔
      trimSpace s = "" ∨ (readHex s).any (· ≤ 0xFF) := by
  have hiff : (denotedEndpoint s).isSome ↔ (readHex s).any (· ≤ 0xFF) := by
    unfold denotedEndpoint
    cases readHex s with
    | none => simp
    | some n => simp
  rw [field_iff _ _ _, normalizeHex_eq_empty_iff, hiff]
  · intro haccepted
    rw [Option.isSome_map]
    obtain ⟨n, hn, -⟩ := (Option.any_eq_true _ _).mp haccepted
    rw [hn]
    rfl
  · intro hsome
    obtain ⟨n, hn, hle⟩ := (Option.any_eq_true _ _).mp (hiff.mp hsome)
    have hle' : n ≤ 0xFF := of_decide_eq_true hle
    have hnat : (UInt16.ofNat n).toNat = n :=
      UInt16.toNat_ofNat_of_lt' (Nat.lt_of_le_of_lt hle' (by decide))
    unfold denotedEndpoint
    rw [parseU16Value_normalizeHex hn, hn]
    dsimp only
    rw [if_pos hle']
    refine ⟨decide_eq_true ?_, congrArg some ?_⟩
    · rw [UInt16.le_iff_toNat_le, hnat]
      exact hle'
    · apply UInt8.toNat_inj.mp
      rw [UInt16.toNat_toUInt8, hnat, UInt8.toNat_ofNat']
  · intro hblank
    unfold denotedEndpoint
    rw [readHex_blank ((normalizeHex_eq_empty_iff s).mp hblank)]

/-- `parse_transfer_type` knows the names. -/
theorem parseTransferType_eq (s : String) :
    parseTransferType s.toList = denotedTransfer s := by
  unfold parseTransferType denotedTransfer transferTypes
  simp only [List.find?_cons, List.find?_nil]
  cases stricmp s.toList "control".toList with
  | true => rfl
  | false =>
    cases stricmp s.toList "bulk".toList with
    | true => rfl
    | false =>
      cases stricmp s.toList "interrupt".toList with
      | true => rfl
      | false =>
        cases stricmp s.toList "isochronous".toList with
        | true => rfl
        | false =>
          cases stricmp s.toList "unknown".toList with
          | true => rfl
          | false => rfl

/-- `--transfer-type` -/
theorem transfer_iff (s : String) :
    ((s ≠ "" → (parseTransferType s.toList).isSome) ∧
      (if s ≠ "" then parseTransferType s.toList else none) = denotedTransfer s) ↔
      s = "" ∨ ∃ t ∈ transferTypes, stricmp s.toList t.1.toList := by
  have hiff : (denotedTransfer s).isSome ↔ ∃ t ∈ transferTypes, stricmp s.toList t.1.toList := by
    unfold denotedTransfer
    rw [Option.isSome_map, List.find?_isSome]
  rw [field_iff id _ _, not_not, hiff]
  · intro hsome
    rw [parseTransferType_eq]
    exact ⟨hsome, rfl⟩
  · intro hempty
    rw [not_not.mp hempty]
    rfl

/-- `validateCaptureRequest` leaves the store modes that have a name. -/
theorem storeMode_of_validate {req : IpcRequest} (h : validateCaptureRequest req = none) :
    req.storeMode = "" ∨ req.storeMode = "immediate" ∨ req.storeMode = "on-match" := by
  unfold validateCaptureRequest at h
  repeat
    split at h
    · cases h
  rename_i hmode _ _ _ _ _
  by_contra hnot
  rw [not_or, not_or] at hnot
  exact hmode hnot

/-- `--store-mode` -/
theorem storeMode_ok {mode : String}
    (h : mode = "" ∨ mode = "immediate" ∨ mode = "on-match") :
    (mode ≠ "" → (Opt.storeMode mode.toList).Accepted) ∧
      (if mode ≠ "" then
        if stricmp mode.toList "immediate".toList then storeModeImmediate else storeModeOnMatch
      else storeModeImmediate) =
        if mode = "on-match" then storeModeOnMatch else storeModeImmediate := by
  rcases h with rfl | rfl | rfl
  · exact ⟨fun h => absurd rfl h, rfl⟩
  · exact ⟨fun _ => Or.inl (by decide), by decide⟩
  · exact ⟨fun _ => Or.inr (by decide), by decide⟩

/-- **Which admitted requests the tool takes over.** The option loop accepts the arguments of an
admitted request and ends with what the request denotes, if and only if the ids and the endpoint are
left out or read as numbers of their width and the transfer type is left out or named. -/
theorem taken_over_iff (req : IpcRequest) (outputPath : String)
    (hvalid : validateCaptureRequest (normalizeRequest req) = none) :
    (∃ s, parseOptions (toolOptions (buildCaptureArgs (normalizeRequest req) outputPath)) = .ok s ∧
      s.meaning = req.denotes) ↔ req.Readable := by
  have htransfer : (normalizeRequest req).transferType = req.transferType := rfl
  have hstore : (normalizeRequest req).storeMode = req.storeMode := rfl
  have hduration : (normalizeRequest req).durationSeconds = req.durationSeconds := rfl
  obtain ⟨haccepted, hmeans⟩ := storeMode_ok (storeMode_of_validate hvalid)
  have hreadable : req.Readable ↔
      (trimSpace req.vendorID = "" ∨ (readHex req.vendorID).isSome) ∧
      (trimSpace req.productID = "" ∨ (readHex req.productID).isSome) ∧
      (trimSpace req.endpoint = "" ∨ (readHex req.endpoint).any (· ≤ 0xFF)) ∧
      (req.transferType = "" ∨
        ∃ t ∈ transferTypes, stricmp req.transferType.toList t.1.toList) :=
    ⟨fun h => ⟨h.vendorID, h.productID, h.endpoint, h.transferType⟩,
      fun ⟨hv, hp, he, ht⟩ => ⟨hv, hp, he, ht⟩⟩
  rw [toolOptions_buildCaptureArgs, parseOptions_means_iff, accepted_captureOptions,
    foldl_captureOptions, hreadable, ← id_iff, ← id_iff, ← endpoint_iff, ← transfer_iff]
  unfold optionsMeaning IpcRequest.denotes
  rw [Meaning.mk.injEq, vendorID_normalizeRequest, productID_normalizeRequest,
    endpoint_normalizeRequest, htransfer, hduration]
  rw [hstore] at haccepted hmeans ⊢
  constructor
  · rintro ⟨⟨hv, hp, he, ht, -⟩, hv', hp', he', ht', -, -⟩
    exact ⟨⟨hv, hv'⟩, ⟨hp, hp'⟩, ⟨he, he'⟩, ht, ht'⟩
  · rintro ⟨⟨hv, hv'⟩, ⟨hp, hp'⟩, ⟨he, he'⟩, ht, ht'⟩
    exact ⟨⟨hv, hp, he, ht, haccepted⟩, hv', hp', he', ht', hmeans, rfl⟩

/-- A request in spellings that differ from what the tool expects. -/
def spelledRequest : IpcRequest where
  action := "startCapture"
  interface := "USBPcap1"
  vendorID := " 1A86"
  productID := "0X7523"
  durationSeconds := 5
  endpoint := "81"
  transferType := "Bulk"
  storeMode := "on-match"

theorem taken_over_spelledRequest :
    ∃ s, parseOptions (toolOptions (buildCaptureArgs (normalizeRequest spelledRequest)
        "capture.pcap")) = .ok s ∧
      s.meaning = { vendorId := some 0x1A86, productId := some 0x7523, endpoint := some 0x81,
                    transferType := some transferBulk, storeMode := storeModeOnMatch,
                    duration := 5 } := by
  have hvalid : validateCaptureRequest (normalizeRequest spelledRequest) = none := by decide
  have hreadable : spelledRequest.Readable :=
    ⟨Or.inr (by decide), Or.inr (by decide), Or.inr (by decide), Or.inr (by decide)⟩
  have hdenotes : spelledRequest.denotes =
      { vendorId := some 0x1A86, productId := some 0x7523, endpoint := some 0x81,
        transferType := some transferBulk, storeMode := storeModeOnMatch, duration := 5 } := by
    decide
  rw [← hdenotes]
  exact (taken_over_iff spelledRequest "capture.pcap" hvalid).mpr hreadable

/-- An endpoint address that has sixteen bits. -/
def wideEndpoint : IpcRequest where
  action := "startCapture"
  interface := "USBPcap1"
  endpoint := "0x181"

/-- A vendor id that is none in hexadecimal. -/
def decimalVendor : IpcRequest where
  action := "startCapture"
  interface := "USBPcap1"
  vendorID := "12345"

/-- The tool refuses the one request, and it reads the other one in decimal. -/
theorem admitted_but_not_taken_over :
    (validateCaptureRequest (normalizeRequest wideEndpoint) = none ∧
      ¬ ∃ s, parseOptions (toolOptions (buildCaptureArgs (normalizeRequest wideEndpoint)
        "capture.pcap")) = .ok s) ∧
    validateCaptureRequest (normalizeRequest decimalVendor) = none ∧
      decimalVendor.denotes.vendorId = none ∧
      ∃ s, parseOptions (toolOptions (buildCaptureArgs (normalizeRequest decimalVendor)
        "capture.pcap")) = .ok s ∧ s.meaning.vendorId = some 12345 := by
  refine ⟨⟨by decide, ?_⟩, by decide, by decide, ?_⟩
  · rintro ⟨s, hs⟩
    rw [toolOptions_buildCaptureArgs] at hs
    obtain ⟨haccepted, -⟩ := (parseOptions_means_iff _ s.meaning).mp ⟨s, hs, rfl⟩
    have hendpoint := ((accepted_captureOptions _ _).mp haccepted).2.2.1 (by decide)
    exact absurd hendpoint
      (show ¬ (parseU16Value "0x181".toList).any (· ≤ 0xFF) = true by decide)
  · rw [toolOptions_buildCaptureArgs]
    have haccepted : ∀ opt ∈ captureOptions (normalizeRequest decimalVendor) "capture.pcap",
        opt.Accepted := by
      refine (accepted_captureOptions _ _).mpr ⟨fun _ => ?_, ?_, ?_, ?_, ?_⟩
      · exact show (parseU16Value "12345".toList).isSome = true by decide
      · exact fun h => absurd rfl h
      · exact fun h => absurd rfl h
      · exact fun h => absurd rfl h
      · exact fun h => absurd rfl h
    obtain ⟨s, hs, hmeaning⟩ := (parseOptions_means_iff _ _).mpr
      ⟨haccepted, foldl_captureOptions (normalizeRequest decimalVendor) "capture.pcap"⟩
    refine ⟨s, hs, ?_⟩
    rw [hmeaning]
    decide

end UsbPcap.Service
