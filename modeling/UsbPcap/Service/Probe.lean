import UsbPcap.Cmd.Capture
import UsbPcap.Cmd.Selection
import UsbPcap.Service.CaptureArgs

/-!
# Probing for devices

`probeDevices` looks for the ids of a request in the texts that `list_devices` prints with four
digits, `resolve_filter_matches` compares the numbers. The two agree on ids of four digits. A
shorter or longer id never matches for the probe.
-/

namespace UsbPcap.Service

open Cmd CText
open Server (trimSpace)

/-! ## Both sides of a probe -/

/-- A device as `list_devices` prints it. -/
def deviceInfo (d : ConnectedDevice) : DeviceInfo where
  address := d.address
  vendorID := hex4 d.vendorId
  productID := hex4 d.productId

/-- The surroundings in which the command runner lists what is connected to the host. -/
def Surroundings.showing (env : Surroundings) (host : Host) : Surroundings :=
  { env with
    listInterfaces := .ok (host.interfaces.map String.ofList)
    listDevices := fun iface => .ok ((host.connected iface.toList).map deviceInfo) }

/-- A device that the tool selects on an interface, as the probe reports it. -/
def matchedDevice (interface : CStr) (d : ConnectedDevice) : MatchedDevice where
  interface := .ofList interface
  address := d.address
  vendorID := hex4 d.vendorId
  productID := hex4 d.productId

/-- The probe reports what `resolve_filter_matches` selects on each interface, with the ids in the
request's arguments and enough memory. -/
def ProbeAgrees (env : Surroundings) (host : Host) (req : IpcRequest) : Prop :=
  ∃ (s : Settings) (found : CStr → MatchList),
    parseOptions (toolOptions (idArgs (normalizeRequest req))) = .ok s ∧
    (∀ interface ∈ host.interfaces,
      resolveFilterMatches { host with malloc := fun _ => true } s.ids interface =
        some (found interface)) ∧
    probeDevices (env.showing host) (normalizeRequest req).vendorID
        (normalizeRequest req).productID =
      .ok (host.interfaces.flatMap fun interface =>
        (found interface).items.map (matchedDevice interface))

/-- The id is left out or read as a hexadecimal number of 16 bits. -/
def IsIdText (s : String) : Prop := s = "" ∨ (readHex s).isSome

/-- The number is what the text asks for. -/
def AsksFor (s : String) (id : UInt16) : Prop := s = "" ∨ readHex s = some id.toNat

instance (s : String) (id : UInt16) : Decidable (AsksFor s id) :=
  inferInstanceAs (Decidable (_ ∨ _))

/-- The id is left out or has four digits. -/
def HasFourDigits (s : String) : Prop := s = "" ∨ (hexText s).length = 4

instance (s : String) : Decidable (HasFourDigits s) := inferInstanceAs (Decidable (_ ∨ _))

/-- On ASCII texts, `strings.EqualFold` compares without regard to case. -/
def FoldsAscii (equalFold : String → String → Bool) : Prop :=
  ∀ s t : String, (∀ c ∈ s.toList, c.toNat < 128) → (∀ c ∈ t.toList, c.toNat < 128) →
    (equalFold s t = true ↔ s.toList.map Char.toLower = t.toList.map Char.toLower)

/-! ## The texts of ids -/

theorem lt_of_isLowerHex {c : Char} (hc : IsLowerHex c) : c.toNat < 128 :=
  hc.elim (p := fun c => c.toNat < 128) (by decide)

/-- Digits behind `0x` fold like themselves. -/
theorem equalFold_hex {equalFold : String → String → Bool} (hfold : FoldsAscii equalFold)
    {s t : String} {ds es : List Char} (hs : s.toList = '0' :: 'x' :: ds)
    (ht : t.toList = '0' :: 'x' :: es) (hds : ∀ c ∈ ds, IsLowerHex c)
    (hes : ∀ c ∈ es, IsLowerHex c) : equalFold s t = true ↔ ds = es := by
  have hascii {u : List Char} (hu : ∀ c ∈ u, IsLowerHex c) :
      ∀ c ∈ '0' :: 'x' :: u, c.toNat < 128 := by
    intro c hc
    rcases List.mem_cons.mp hc with rfl | hc
    · decide
    · rcases List.mem_cons.mp hc with rfl | hc
      · decide
      · exact lt_of_isLowerHex (hu c hc)
  have hlower {u : List Char} (hu : ∀ c ∈ u, IsLowerHex c) : u.map Char.toLower = u :=
    (List.map_congr_left fun c hc => toLower_of_isLowerHex (hu c hc)).trans (List.map_id u)
  rw [hfold s t (by rw [hs]; exact hascii hds) (by rw [ht]; exact hascii hes), hs, ht,
    List.map_cons, List.map_cons, List.map_cons, List.map_cons, hlower hds, hlower hes,
    List.cons_inj_right, List.cons_inj_right]

/-- What `0x%04x` prints are four digits of the number. -/
theorem toList_hex4 (id : UInt16) : ∃ ds, (hex4 id).toList = '0' :: 'x' :: ds ∧
    ds.length = 4 ∧ IsHexOf ds id.toNat := by
  have hlt : id.toNat < 65536 := id.toNat_lt
  have hlen : ((hexadecimal id.toNat).leftpad 4 '0').length = 4 :=
    length_leftpad_hexadecimal (by decide) hlt
  have htext : (hex4 id).toList = '0' :: 'x' :: (hexadecimal id.toNat).leftpad 4 '0' := by
    unfold hex4 hexadecimal
    rw [String.toList_ofList]
  refine ⟨_, htext, hlen, ?_, fun c hc => isLowerHex_of_mem_leftpad hc, ofDigits_leftpad 4 _, hlt⟩
  intro hnil
  rw [hnil] at hlen
  cases hlen

/-- The probe's comparison of an id. -/
theorem equalFold_hex4 {equalFold : String → String → Bool} (hfold : FoldsAscii equalFold)
    {s : String} {n : ℕ} (hs : readHex s = some n) (id : UInt16) :
    equalFold (hex4 id) (normalizeHex s) = true ↔ id.toNat = n ∧ (hexText s).length = 4 := by
  obtain ⟨ds, hds, hlen, hhex⟩ := toList_hex4 id
  have hread := isHexOf_of_readHex hs
  rw [equalFold_hex hfold hds (normalizeHex_read hs) hhex.digits hread.digits]
  constructor
  · intro hsame
    have hvalue := hread.value
    rw [← hsame, hhex.value] at hvalue
    rw [hsame, List.length_map] at hlen
    exact ⟨hvalue, hlen⟩
  · rintro ⟨hvalue, hfour⟩
    apply ofDigits_inj hhex.digits hread.digits
    · rw [List.length_map, hlen, hfour]
    · rw [hhex.value, hread.value, hvalue]

/-! ## The probe -/

/-- The probe's test of one id. -/
theorem matches_id_iff {equalFold : String → String → Bool} (hfold : FoldsAscii equalFold)
    {s : String} (hs : IsIdText s) (id : UInt16) :
    (normalizeHex s = "" || equalFold (hex4 id) (normalizeHex s)) = true ↔
      AsksFor s id ∧ HasFourDigits s := by
  unfold AsksFor HasFourDigits
  rw [Bool.or_eq_true, decide_eq_true_iff]
  rcases hs with rfl | hread
  · exact iff_of_true (Or.inl rfl) ⟨Or.inl rfl, Or.inl rfl⟩
  · obtain ⟨n, hn⟩ := Option.isSome_iff_exists.mp hread
    rw [equalFold_hex4 hfold hn, or_iff_right (normalizeHex_ne (trimSpace_ne_of_readHex hn)),
      or_iff_right (ne_of_readHex hn), or_iff_right (ne_of_readHex hn), hn, Option.some.injEq,
      eq_comm]

/-- The probe finds the devices with the ids if the ids have four digits, and none otherwise. -/
theorem probeDevices_showing {env : Surroundings} (hfold : FoldsAscii env.equalFold) (host : Host)
    {v p : String} (hv : IsIdText v) (hp : IsIdText p) :
    probeDevices (env.showing host) (normalizeHex v) (normalizeHex p) =
      .ok (host.interfaces.flatMap fun interface =>
        ((host.connected interface).filter fun d =>
          decide ((AsksFor v d.vendorId ∧ HasFourDigits v) ∧
            AsksFor p d.productId ∧ HasFourDigits p)).map (matchedDevice interface)) := by
  unfold probeDevices Surroundings.showing
  dsimp only
  rw [List.flatMap_map]
  apply congrArg Except.ok
  apply List.flatMap_congr
  intro interface _
  unfold matchingDevices
  rw [List.filter_map, List.map_map, String.toList_ofList]
  have htest : ∀ d ∈ host.connected interface,
      ((fun dev : DeviceInfo =>
        (normalizeHex v = "" || env.equalFold dev.vendorID (normalizeHex v)) &&
          (normalizeHex p = "" || env.equalFold dev.productID (normalizeHex p))) ∘ deviceInfo) d =
        decide ((AsksFor v d.vendorId ∧ HasFourDigits v) ∧
          AsksFor p d.productId ∧ HasFourDigits p) := by
    intro d _
    rw [Bool.eq_iff_iff, decide_eq_true_iff, ← matches_id_iff hfold hv d.vendorId,
      ← matches_id_iff hfold hp d.productId, ← Bool.and_eq_true, Function.comp_apply, deviceInfo]
  rw [List.filter_congr htest]
  rfl

/-! ## The tool -/

theorem accepts_iff (s : Settings) (d : ConnectedDevice) :
    s.ids.accepts d = true ↔
      (∀ v, s.meaning.vendorId = some v → d.vendorId = v) ∧
        ∀ p, s.meaning.productId = some p → d.productId = p := by
  have hside (b : Bool) (x y : UInt16) :
      (!(b && x != y)) = true ↔ ∀ z, (if b then some y else none) = some z → x = z := by
    cases b with
    | false => simp
    | true => simp
  unfold Ids.accepts Settings.ids Settings.meaning
  rw [Bool.and_eq_true, hside, hside]

/-- The id in an argument is what the text asks for. -/
theorem asksFor_iff {s : String} (hs : IsIdText s) (id : UInt16) :
    (∀ n, (if normalizeHex s ≠ "" then parseU16Value (normalizeHex s).toList else none) = some n →
      id = n) ↔ AsksFor s id := by
  unfold AsksFor
  rcases hs with rfl | hread
  · refine iff_of_true ?_ (Or.inl rfl)
    intro n hn
    cases hn
  · obtain ⟨n, hn⟩ := Option.isSome_iff_exists.mp hread
    have hlt := (isHexOf_of_readHex hn).lt
    rw [if_pos (normalizeHex_ne (trimSpace_ne_of_readHex hn)), parseU16Value_normalizeHex hn,
      or_iff_right (ne_of_readHex hn), hn]
    simp only [Option.some.injEq, forall_eq']
    rw [← UInt16.toNat_inj, UInt16.toNat_ofNat_of_lt' hlt, eq_comm]

/-- The tool accepts ids that are numbers and selects the devices that have them. -/
theorem parse_idArgs {req : IpcRequest} (hv : IsIdText req.vendorID) (hp : IsIdText req.productID) :
    ∃ s, parseOptions (toolOptions (idArgs (normalizeRequest req))) = .ok s ∧
      ∀ d, s.ids.accepts d = true ↔
        AsksFor req.vendorID d.vendorId ∧ AsksFor req.productID d.productId := by
  have hoptions : toolOptions (idArgs (normalizeRequest req)) =
      idOptions (normalizeRequest req) := by
    have h := toolOptions_idArgs (normalizeRequest req) []
    rwa [List.append_nil, show toolOptions [] = [] from rfl, List.append_nil] at h
  have haccepted {s : String} (hs : IsIdText s) (hne : normalizeHex s ≠ "") :
      (parseU16Value (normalizeHex s).toList).isSome := by
    rcases hs with rfl | hread
    · exact absurd rfl hne
    · obtain ⟨n, hn⟩ := Option.isSome_iff_exists.mp hread
      rw [parseU16Value_normalizeHex hn]
      rfl
  have hids : ∀ opt ∈ idOptions (normalizeRequest req), opt.Accepted := by
    unfold idOptions
    rw [List.forall_mem_append, forall_mem_if, forall_mem_if, vendorID_normalizeRequest,
      productID_normalizeRequest]
    exact ⟨haccepted hv, haccepted hp⟩
  obtain ⟨s, hs, hmeaning⟩ := (parseOptions_means_iff _ _).mpr
    ⟨hids, foldl_idOptions (normalizeRequest req) .initial⟩
  refine ⟨s, by rw [hoptions]; exact hs, fun d => ?_⟩
  rw [accepts_iff, hmeaning]
  dsimp only
  rw [vendorID_normalizeRequest, productID_normalizeRequest,
    show Meaning.initial.vendorId = none from rfl,
    show Meaning.initial.productId = none from rfl]
  exact and_congr (asksFor_iff hv d.vendorId) (asksFor_iff hp d.productId)

/-! ## Agreement -/

/-- With memory, `resolve_filter_matches` selects the devices that have the ids. -/
theorem resolveFilterMatches_items {host : Host} (hhost : host.Addressed) (ids : Ids)
    (interface : CStr) :
    ∃ found, resolveFilterMatches { host with malloc := fun _ => true } ids interface =
        some found ∧
      found.items = (host.connected interface).filter ids.accepts := by
  have haddressed : Host.Addressed { host with malloc := fun _ => true } := hhost
  obtain ⟨found, hfound, -⟩ := resolveFilterMatches_some haddressed (fun _ => rfl) ids interface
  exact ⟨found, hfound, (resolveFilterMatches_ok haddressed hfound).1⟩

/-- Both lists of devices, interface by interface. -/
theorem probeAgrees_iff_flatMap {env : Surroundings} (hfold : FoldsAscii env.equalFold)
    {host : Host} (hhost : host.Addressed) {req : IpcRequest} (hv : IsIdText req.vendorID)
    (hp : IsIdText req.productID) {s : Settings}
    (hs : parseOptions (toolOptions (idArgs (normalizeRequest req))) = .ok s) :
    ProbeAgrees env host req ↔
      (host.interfaces.flatMap fun interface =>
        ((host.connected interface).filter fun d =>
          decide ((AsksFor req.vendorID d.vendorId ∧ HasFourDigits req.vendorID) ∧
            AsksFor req.productID d.productId ∧ HasFourDigits req.productID)).map
              (matchedDevice interface)) =
      host.interfaces.flatMap fun interface =>
        ((host.connected interface).filter s.ids.accepts).map (matchedDevice interface) := by
  choose found hfound hitems using resolveFilterMatches_items hhost s.ids
  unfold ProbeAgrees
  rw [vendorID_normalizeRequest, productID_normalizeRequest, probeDevices_showing hfold host hv hp]
  constructor
  · rintro ⟨s', found', hs', hfound', hsame⟩
    obtain rfl := Except.ok.inj (hs.symm.trans hs')
    rw [Except.ok.inj hsame]
    apply List.flatMap_congr
    intro interface hinterface
    rw [← hitems, Option.some.inj ((hfound interface).symm.trans (hfound' interface hinterface))]
  · intro hsame
    refine ⟨s, found, hs, fun interface _ => hfound interface, ?_⟩
    rw [hsame]
    simp only [hitems]

/-- **The probe agrees with the tool on ids of four digits.** For ids that are numbers, it reports
the devices that the tool selects if and only if the given ids have four digits or no device has
them. -/
theorem probe_agrees_iff {env : Surroundings} (hfold : FoldsAscii env.equalFold) {host : Host}
    (hhost : host.Addressed) {req : IpcRequest} (hv : IsIdText req.vendorID)
    (hp : IsIdText req.productID) :
    ProbeAgrees env host req ↔
      (HasFourDigits req.vendorID ∧ HasFourDigits req.productID) ∨
        ∀ interface ∈ host.interfaces, ∀ d ∈ host.connected interface,
          ¬ (AsksFor req.vendorID d.vendorId ∧ AsksFor req.productID d.productId) := by
  obtain ⟨s, hs, haccepts⟩ := parse_idArgs hv hp
  rw [probeAgrees_iff_flatMap hfold hhost hv hp hs]
  by_cases hfour : HasFourDigits req.vendorID ∧ HasFourDigits req.productID
  · refine iff_of_true ?_ (Or.inl hfour)
    apply List.flatMap_congr
    intro interface _
    apply congrArg (List.map _)
    apply List.filter_congr
    intro d _
    rw [Bool.eq_iff_iff, decide_eq_true_iff, haccepts, and_iff_left hfour.1, and_iff_left hfour.2]
  · have hnone : (host.interfaces.flatMap fun interface =>
        ((host.connected interface).filter fun d =>
          decide ((AsksFor req.vendorID d.vendorId ∧ HasFourDigits req.vendorID) ∧
            AsksFor req.productID d.productId ∧ HasFourDigits req.productID)).map
              (matchedDevice interface)) = [] := by
      apply List.flatMap_eq_nil_iff.mpr
      intro interface _
      rw [List.map_eq_nil_iff, List.filter_eq_nil_iff]
      intro d _ hd
      obtain ⟨⟨-, hv4⟩, -, hp4⟩ := of_decide_eq_true hd
      exact hfour ⟨hv4, hp4⟩
    rw [hnone, or_iff_right hfour, eq_comm, List.flatMap_eq_nil_iff]
    apply forall₂_congr
    intro interface _
    rw [List.map_eq_nil_iff, List.filter_eq_nil_iff]
    apply forall₂_congr
    intro d _
    rw [haccepts]

/-- A case-insensitive comparison of ASCII texts. -/
def foldAscii (s t : String) : Bool := stricmp s.toList t.toList

theorem foldsAscii_foldAscii : FoldsAscii foldAscii :=
  fun _ _ _ _ => decide_eq_true_iff

/-- A host with a device of vendor 0x05ac on its only interface. -/
def appleHost : Host where
  interfaces := ["USBPcap1".toList]
  connected _ := [{ address := 3, vendorId := 0x05ac, productId := 0x8600 }]
  malloc _ := true
  answers := none

theorem addressed_appleHost : appleHost.Addressed := by
  intro interface d hd
  rw [List.mem_singleton.mp hd]
  decide

/-- What does not matter to a probe. -/
def plainSurroundings : Surroundings where
  listInterfaces := .ok []
  listDevices _ := .ok []
  equalFold := foldAscii
  base := id
  defaultOutputPath := id

/-- A request for the vendor. -/
def vendorRequest (vendorID : String) : IpcRequest where
  action := "probeDevice"
  vendorID := vendorID

theorem probe_agrees_padded :
    ProbeAgrees plainSurroundings appleHost (vendorRequest " 0X05AC") :=
  (probe_agrees_iff foldsAscii_foldAscii addressed_appleHost (Or.inr (by decide))
    (Or.inl rfl)).mpr (Or.inl ⟨by decide, by decide⟩)

/-- Without the leading zero, the tool selects the device and the probe finds nothing. -/
theorem short_id_not_found :
    probeDevices (plainSurroundings.showing appleHost)
        (normalizeRequest (vendorRequest "5ac")).vendorID
        (normalizeRequest (vendorRequest "5ac")).productID = .ok [] ∧
      ¬ ProbeAgrees plainSurroundings appleHost (vendorRequest "5ac") := by
  have hprobe : probeDevices (plainSurroundings.showing appleHost)
      (normalizeRequest (vendorRequest "5ac")).vendorID
      (normalizeRequest (vendorRequest "5ac")).productID = .ok [] := by
    decide
  refine ⟨hprobe, ?_⟩
  rintro ⟨s, found, hs, hfound, hsame⟩
  obtain ⟨s', hs', haccepts⟩ :=
    @parse_idArgs (vendorRequest "5ac") (Or.inr (by decide)) (Or.inl rfl)
  obtain rfl := Except.ok.inj (hs.symm.trans hs')
  obtain ⟨found', hfound', hitems⟩ :=
    resolveFilterMatches_items addressed_appleHost s.ids "USBPcap1".toList
  obtain rfl := Option.some.inj ((hfound _ List.mem_cons_self).symm.trans hfound')
  have hmem : (⟨3, 0x05ac, 0x8600⟩ : ConnectedDevice) ∈ (found "USBPcap1".toList).items := by
    rw [hitems]
    exact List.mem_filter.mpr ⟨List.mem_cons_self, (haccepts _).mpr ⟨by decide, by decide⟩⟩
  rw [hprobe] at hsame
  have hnone := List.flatMap_eq_nil_iff.mp (Except.ok.inj hsame).symm _ List.mem_cons_self
  rw [List.map_eq_nil_iff.mp hnone] at hmem
  exact List.not_mem_nil hmem

end UsbPcap.Service
