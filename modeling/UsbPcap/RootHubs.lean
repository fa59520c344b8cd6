import Mathlib.Algebra.Group.Action.Defs
import Mathlib.Algebra.Order.BigOperators.Group.List
import Mathlib.Data.Set.List
import UsbPcap.Cmd.RootHubScan

/-!
# From the scan to the driver

The program leaves the ids of unusual root hubs in the registry, and the driver looks there for the
ids of a device. `root_hubs_recognised` composes the two: behind a scan, the driver takes every root
hub that was present for a root hub.
-/

namespace UsbPcap

open Cmd Driver MultiString
open CText (literal)

/-! ## Ids -/

/-- A hardware id that the system accepts is ASCII. -/
structure PnpId extends HardwareId where
  ascii : ∀ c ∈ text, c < 128

/-- The id as the calls for bytes return it. -/
def PnpId.bytes (id : PnpId) : List UInt8 := id.text.map fun c => .ofNat c.toNat

/-- An ASCII character is kept when it becomes a byte. -/
theorem toNat_ofNat_of_lt {c : UInt16} (h : c < 128) : (UInt8.ofNat c.toNat).toNat = c.toNat :=
  UInt8.toNat_ofNat_of_lt' (Nat.lt_trans (UInt16.lt_iff_toNat_lt.mp h) (by decide))

/-- The code page turns the bytes back into the id. -/
theorem PnpId.widen_bytes (id : PnpId) :
    id.bytes.map (fun c => UInt16.ofNat c.toNat) = id.text := by
  rw [PnpId.bytes, List.map_map]
  refine (List.map_congr_left fun c hc => ?_).trans (List.map_id id.text)
  rw [Function.comp_apply, toNat_ofNat_of_lt (id.ascii c hc), UInt16.ofNat_toNat]
  rfl

/-- Ids are told apart by their bytes. -/
theorem PnpId.bytes_inj {id other : PnpId} : id.bytes = other.bytes ↔ id.text = other.text := by
  refine ⟨fun h => ?_, fun h => ?_⟩
  · rw [← id.widen_bytes, h, other.widen_bytes]
  · rw [PnpId.bytes, h, PnpId.bytes]

/-- Their bytes are ASCII. -/
theorem PnpId.bytes_lt (id : PnpId) : ∀ c ∈ id.bytes, c < 128 := by
  intro c hc
  obtain ⟨w, hw, rfl⟩ := List.mem_map.mp hc
  rw [UInt8.lt_iff_toNat_lt, toNat_ofNat_of_lt (id.ascii w hw)]
  exact UInt16.lt_iff_toNat_lt.mp (id.ascii w hw)

/-- They are not empty and hold no NUL. -/
theorem PnpId.bytes_ok (id : PnpId) : id.bytes ≠ [] ∧ 0 ∉ id.bytes := by
  refine ⟨fun h => id.nonempty (List.map_eq_nil_iff.mp h), fun h => id.no_nul ?_⟩
  rw [← id.widen_bytes]
  exact List.mem_map_of_mem (f := fun c : UInt8 => UInt16.ofNat c.toNat) h

/-- The ids that need no entry in the registry. -/
def PnpId.Standard (id : PnpId) : Prop :=
  id.text = wide "USB\\ROOT_HUB" ∨ id.text = wide "USB\\ROOT_HUB20" ∨
    id.text = wide "USB\\ROOT_HUB30"

/-- The ANSI comparison with a literal is the one of the wide texts. -/
theorem PnpId.literal_eq_iff (id : PnpId) {text : String}
    (hwide : (literal text).map (fun c => UInt16.ofNat c.toNat) = wide text)
    (hnarrow : (wide text).map (fun c => UInt8.ofNat c.toNat) = literal text) :
    literal text = id.bytes ↔ id.text = wide text := by
  refine ⟨fun h => ?_, fun h => ?_⟩
  · rw [← id.widen_bytes, ← h, hwide]
  · rw [PnpId.bytes, h, hnarrow]

/-- `usbpcap_cmd` and the driver have the same standard ids. -/
theorem PnpId.isStandardHwid_iff (id : PnpId) :
    isStandardHwid id.bytes = true ↔ id.Standard := by
  unfold isStandardHwid PnpId.Standard
  rw [← id.literal_eq_iff (by decide) (by decide), ← id.literal_eq_iff (by decide) (by decide),
    ← id.literal_eq_iff (by decide) (by decide)]
  split <;> simp_all

/-! ## Root hubs -/

/-- A root hub with its hardware ids and its compatible ids. The driver has room for the former. -/
structure RootHub where
  ids : List PnpId
  compatible : Option (List PnpId)
  nonempty : ids ≠ []
  few : ids.length ≤ maxHardwareIds
  fits : 2 * (encode (ids.map fun id => id.text)).length ≤ regstrValMaxHcidLen
  small : ∀ ids ∈ compatible, (encode (ids.map PnpId.bytes)).length < 2 ^ 29

/-- What the driver says of the hub. -/
def RootHub.recognised (hub : RootHub) (registry : RegistryValue) : Option Bool :=
  isDeviceRootHub true true (some ⟨encode (hub.ids.map fun id => id.text), hub.fits⟩) registry

/-- What the program finds of the hub. -/
def RootHub.node (hub : RootHub) : HubNode :=
  .holding (hub.ids.map PnpId.bytes) (hub.compatible.map (List.map PnpId.bytes))

def RootHub.Standard (hub : RootHub) : Prop := ∃ id ∈ hub.ids, id.Standard

def RootHub.first (hub : RootHub) : PnpId := hub.ids.head hub.nonempty

/-- The list is as long in bytes as in wide characters. -/
theorem length_encode_bytes (ids : List PnpId) :
    (encode (ids.map PnpId.bytes)).length = (encode (ids.map fun id => id.text)).length := by
  rw [length_encode, length_encode, List.map_map, List.map_map]
  refine congrArg (fun l => List.sum l + 1) (List.map_congr_left fun id _ => ?_)
  exact congrArg (· + 1) (List.length_map _)

/-- Such a list can be scanned. -/
theorem scannables_bytes {ids : List PnpId} (h : (encode (ids.map PnpId.bytes)).length < 2 ^ 29) :
    Scannables (ids.map PnpId.bytes) where
  text := List.forall_mem_map.mpr fun id _ => id.bytes_ok
  small := h

/-- A hub with one of the ids that the driver compares with is recognised. -/
theorem RootHub.recognised_of_mem (hub : RootHub) {registry : RegistryValue} {id : PnpId}
    (hid : id ∈ hub.ids) (hroot : IsRootHubId registry id.toHardwareId) :
    hub.recognised registry = some true := by
  have hmap : (hub.ids.map PnpId.toHardwareId).map HardwareId.text =
      hub.ids.map fun id => id.text := List.map_map
  have hsplit := splitHardwareIds_encode (hub.ids.map PnpId.toHardwareId) 0
    (show ([] : List ℕ).length ≤ maxHardwareIds from Nat.zero_le _)
  rw [List.length_nil, Nat.zero_add, List.nil_append, List.length_map, if_pos hub.few, hmap]
    at hsplit
  have htexts := map_terminated_starts
    (List.forall_mem_map.mpr fun id (_ : id ∈ hub.ids) => id.no_nul) []
    (List.replicate
      (regstrValMaxHcidLen / 2 - (encode (hub.ids.map fun id => id.text)).length) 0)
  simp only [RootHub.recognised, isDeviceRootHub, Bool.true_eq_false, if_false, hsplit]
  -- one of the places leads to the id
  have hmem := List.mem_map_of_mem (f := fun id : PnpId => id.text) hid
  rw [← htexts] at hmem
  obtain ⟨start, hstart, htext⟩ := List.mem_map.mp hmem
  rw [findRootHubId_eq_any, List.any_reverse]
  exact congrArg some
    (List.any_eq_true.mpr ⟨start, hstart, (isRootHubId_iff registry htext).mpr hroot⟩)

/-- A standard root hub is recognised whatever the registry says. -/
theorem RootHub.recognised_of_standard (hub : RootHub) {registry : RegistryValue}
    (h : hub.Standard) : hub.recognised registry = some true := by
  obtain ⟨id, hid, hstandard⟩ := h
  refine hub.recognised_of_mem hid ?_
  rcases hstandard with htext | htext | htext
  · exact Or.inl htext
  · exact Or.inr (Or.inl htext)
  · exact Or.inr (Or.inr (Or.inl htext))

/-! ## The scan -/

/-- The list after some hubs. -/
def rememberAll (known : List (List UInt8)) (hubs : List RootHub) : List (List UInt8) :=
  hubs.foldl (fun known hub => remember known (hub.ids.map PnpId.bytes)) known

/-- A root hub that is not standard is remembered by its first id, once. -/
theorem remember_bytes (known : List (List UInt8)) (hub : RootHub) [Decidable hub.Standard] :
    remember known (hub.ids.map PnpId.bytes) =
      if hub.Standard ∨ hub.first.bytes ∈ known then known else known ++ [hub.first.bytes] := by
  have hany : (hub.ids.map PnpId.bytes).any isStandardHwid = true ↔ hub.Standard := by
    rw [List.any_map, List.any_eq_true]
    exact exists_congr fun id => and_congr_right fun _ => id.isStandardHwid_iff
  have hhead : (hub.ids.map PnpId.bytes).headD [] = hub.first.bytes := by
    rw [List.headD_eq_head?_getD, List.head?_map, List.head?_eq_some_head hub.nonempty]
    rfl
  rw [remember, hhead]
  exact if_congr (or_congr_left hany) rfl rfl

/-- A hub without a standard id adds its first id, unless the list has it. -/
theorem remember_spec {known : List (List UInt8)} (hknown : known.Nodup) (hub : RootHub) :
    (remember known (hub.ids.map PnpId.bytes)).Nodup ∧
      (remember known (hub.ids.map PnpId.bytes)).length ≤ known.length + 1 ∧
      ∀ s, s ∈ remember known (hub.ids.map PnpId.bytes) ↔
        s ∈ known ∨ ¬ hub.Standard ∧ hub.first.bytes = s := by
  classical
  rw [remember_bytes]
  split
  · rename_i hkeep
    refine ⟨hknown, Nat.le_succ _, fun s => (or_iff_left_of_imp ?_).symm⟩
    rintro ⟨hnot, rfl⟩
    exact hkeep.resolve_left hnot
  · rename_i hnew
    rw [not_or] at hnew
    refine ⟨List.concat_eq_append ▸ hknown.concat hnew.2, List.length_append.le, fun s => ?_⟩
    rw [List.mem_append, List.mem_singleton, and_iff_right hnew.1, eq_comm (a := s)]

/-- The list gets the first id of each hub without a standard id, once. -/
theorem rememberAll_spec {known : List (List UInt8)} (hknown : known.Nodup) (hubs : List RootHub) :
    (rememberAll known hubs).Nodup ∧ (rememberAll known hubs).length ≤ known.length + hubs.length ∧
      ∀ s, s ∈ rememberAll known hubs ↔
        s ∈ known ∨ ∃ hub ∈ hubs, ¬ hub.Standard ∧ hub.first.bytes = s := by
  induction hubs generalizing known with
  | nil => exact ⟨hknown, le_rfl, fun s => by simp [rememberAll]⟩
  | cons hub hubs ih =>
    obtain ⟨hnodup, hlength, hmem⟩ := remember_spec hknown hub
    obtain ⟨hnodups, hlengths, hmems⟩ := ih hnodup
    refine ⟨hnodups, ?_, fun s => ?_⟩
    · rw [List.length_cons]
      exact hlengths.trans (by omega)
    · rw [List.exists_mem_cons_iff, ← or_assoc, ← hmem]
      exact hmems s

/-- The loop over hubs. -/
theorem foldlM_lookAtHub (abi : Abi) {scan : Scan} {known : List (List UInt8)}
    (h : scan.hwids.Holds known) (hknown : known.Nodup) {hubs : List RootHub}
    (hcount : known.length + hubs.length ≤ 2 ^ 20) :
    ∃ scan', (hubs.map RootHub.node).foldlM (lookAtHub abi) scan = some scan' ∧
      scan'.hwids.Holds (rememberAll known hubs) := by
  induction hubs generalizing scan known with
  | nil => exact ⟨scan, rfl, h⟩
  | cons hub hubs ih =>
    rw [List.length_cons] at hcount
    obtain ⟨hnodup, hlength, -⟩ := remember_spec hknown hub
    obtain ⟨looked, hlooked, hholds⟩ : ∃ scan', lookAtHub abi scan hub.node = some scan' ∧
        scan'.hwids.Holds (remember known (hub.ids.map PnpId.bytes)) := by
      refine lookAtHub_spec h (by omega) (scannables_bytes ?_)
        (List.map_eq_nil_iff.not.mpr hub.nonempty) ?_
      · rw [length_encode_bytes]
        have hfits := hub.fits
        rw [regstrValMaxHcidLen] at hfits
        omega
      · rintro ids hids
        obtain ⟨compatible, hcompatible, rfl⟩ := Option.map_eq_some_iff.mp hids
        exact scannables_bytes (hub.small compatible hcompatible)
    have hnext : (remember known (hub.ids.map PnpId.bytes)).length + hubs.length ≤ 2 ^ 20 := by
      omega
    rw [List.map_cons, List.foldlM_cons, hlooked]
    exact ih hholds hnodup hnext

/-- All children of all host controllers, one after the other. -/
theorem foldlM_findNonStandardHwids (abi : Abi) (scan : Scan) (controllers : List (List HubNode)) :
    controllers.foldlM (findNonStandardHwids abi) scan =
      controllers.flatten.foldlM (lookAtHub abi) scan := by
  induction controllers generalizing scan with
  | nil => rfl
  | cons children controllers ih =>
    rw [List.flatten_cons, List.foldlM_cons, List.foldlM_append]
    exact congrArg _ (funext ih)

/-- The block with the ids is not too large. -/
theorem length_encode_rememberAll {hubs : List RootHub} (hcount : hubs.length ≤ 2 ^ 20) :
    (encode (rememberAll [] hubs)).length < 2 ^ 30 := by
  obtain ⟨-, hlength, hmem⟩ := rememberAll_spec List.nodup_nil hubs
  have hshort : ∀ n ∈ (rememberAll [] hubs).map fun s => s.length + 1, n ≤ 512 := by
    refine List.forall_mem_map.mpr fun s hs => ?_
    obtain ⟨hub, -, -, rfl⟩ := ((hmem s).mp hs).resolve_left List.not_mem_nil
    have hlt := length_lt_encode (List.mem_map_of_mem (f := PnpId.bytes)
      (List.head_mem hub.nonempty))
    have hfits := hub.fits
    rw [length_encode_bytes] at hlt
    rw [regstrValMaxHcidLen] at hfits
    exact (Nat.le_of_lt hlt).trans (by omega)
  have hsum := List.sum_le_card_nsmul _ 512 hshort
  rw [List.length_map, smul_eq_mul] at hsum
  rw [length_encode]
  rw [List.length_nil] at hlength
  omega

/-! ## The registry -/

/-- Behind a successful call the registry has the ids of the list. -/
theorem hwids_setNonStandardHwidsRegKey {key : ServiceKey} (hopen : key.openKey = true)
    (hset : key.setValue = true) {ids : List PnpId}
    (hsmall : (encode (ids.map PnpId.bytes)).length < 2 ^ 32) :
    (setNonStandardHwidsRegKey key (encode (ids.map PnpId.bytes))
        (.ofNat (encode (ids.map PnpId.bytes)).length)).1.hwids =
      ids.map fun id => id.text := by
  have hascii : ∀ c ∈ encode (ids.map PnpId.bytes), c < 128 := by
    intro c hc
    rcases List.mem_append.mp hc with hmem | hmem
    · obtain ⟨s, hs, hcs⟩ := List.mem_flatMap.mp hmem
      obtain ⟨id, -, rfl⟩ := List.mem_map.mp hs
      rcases List.mem_append.mp hcs with hcid | hzero
      · exact id.bytes_lt c hcid
      · exact List.mem_singleton.mp hzero ▸ by decide
    · exact List.mem_singleton.mp hmem ▸ by decide
  have htexts : (ids.map PnpId.bytes).map (List.map fun c : UInt8 => UInt16.ofNat c.toNat) =
      ids.map fun id => id.text := by
    rw [List.map_map]
    exact List.map_congr_left fun id _ => id.widen_bytes
  rw [setNonStandardHwidsRegKey, hopen, hset, if_neg Bool.true_eq_false.mp,
    if_neg Bool.true_eq_false.mp, UInt32.toNat_ofNat_of_lt' hsmall, List.take_length,
    key.codePage.ascii _ hascii, map_encode rfl, htexts]
  exact map_pieces_encode (List.forall_mem_map.mpr fun id _ => id.no_nul)

/-- **Every root hub that a scan finds is recognised.** With memory for the scan and access to the
registry, the registry has the first ids of the hubs without a standard id, each once, or its old
value if there is none; and the driver takes each of the hubs for a root hub. -/
theorem root_hubs_recognised (abi : Abi) (controllers : List (List RootHub)) {key : ServiceKey}
    (hopen : key.openKey = true) (hset : key.setValue = true)
    (hcount : controllers.flatten.length ≤ 2 ^ 20) :
    ∃ registry scan,
      initNonStandardRoothubHwid abi ⟨true, true, controllers.map (List.map RootHub.node)⟩ key
        true true = some (registry, scan) ∧
      (∀ hub ∈ controllers.flatten, hub.recognised registry = some true) ∧
      ((∀ hub ∈ controllers.flatten, hub.Standard) → registry = key.nonStandardHwids) ∧
      ((∃ hub ∈ controllers.flatten, ¬ hub.Standard) → registry.hwids.Nodup ∧
        ∀ text, text ∈ registry.hwids ↔
          ∃ hub ∈ controllers.flatten, ¬ hub.Standard ∧ hub.first.text = text) := by
  obtain ⟨hnodup, hlength, hmem⟩ := rememberAll_spec List.nodup_nil controllers.flatten
  obtain ⟨scan, hscan, hholds⟩ := @foldlM_lookAtHub abi ⟨initStringArray abi 1 true, [], []⟩ []
    holds_initStringArray List.nodup_nil controllers.flatten
    (by rwa [List.length_nil, Nat.zero_add])
  have hforeach : foreachHostController abi
      ⟨true, true, controllers.map (List.map RootHub.node)⟩ ⟨initStringArray abi 1 true, [], []⟩ =
      some scan := by
    rw [foreachHostController, if_neg Bool.true_eq_false.mp, if_neg Bool.true_eq_false.mp,
      foldlM_findNonStandardHwids, ← List.map_flatten, hscan]
  -- the list as ids
  obtain ⟨ids, hids⟩ : ∃ ids : List PnpId, ids.map PnpId.bytes =
      rememberAll [] controllers.flatten := by
    refine (Set.range_list_map PnpId.bytes).ge fun s hs => ?_
    obtain ⟨hub, -, -, rfl⟩ := ((hmem s).mp hs).resolve_left List.not_mem_nil
    exact ⟨hub.first, rfl⟩
  have hfirst (hub : RootHub) (hhub : hub ∈ controllers.flatten) (hnot : ¬ hub.Standard) :
      hub.first.text ∈ ids.map fun id => id.text := by
    have hbytes := (hmem _).mpr (Or.inr ⟨hub, hhub, hnot, rfl⟩)
    rw [← hids] at hbytes
    obtain ⟨id, hid, heq⟩ := List.mem_map.mp hbytes
    exact List.mem_map.mpr ⟨id, hid, PnpId.bytes_inj.mp heq⟩
  rw [← hids] at hholds hnodup hmem
  have hused : scan.hwids.used = ids.length := hholds.used.trans (List.length_map _)
  rw [initNonStandardRoothubHwid, hforeach, Option.bind_some]
  by_cases hnil : ids = []
  · subst hnil
    have hall : ∀ hub ∈ controllers.flatten, hub.Standard := fun hub hhub =>
      not_not.mp fun hnot => List.not_mem_nil (hfirst hub hhub hnot)
    refine ⟨_, _, if_neg (hused.symm ▸ Nat.lt_irrefl 0), fun hub hhub => ?_, fun _ => rfl,
      fun ⟨hub, hhub, hnot⟩ => absurd (hall hub hhub) hnot⟩
    exact hub.recognised_of_standard (hall hub hhub)
  · have hsmall : (encode (ids.map PnpId.bytes)).length < 2 ^ 30 :=
      hids ▸ length_encode_rememberAll hcount
    have hbuild := @buildNonStandardRegMultiSz_eq abi _ _ hholds.strings_eq
      (hsmall.trans_le (by cases abi <;> decide))
    have hhwids := hwids_setNonStandardHwidsRegKey hopen hset (hsmall.trans (by decide))
    rw [if_pos (hused.symm ▸ List.length_pos_of_ne_nil hnil), hbuild, Option.map_some]
    dsimp only
    generalize setNonStandardHwidsRegKey key (encode (ids.map PnpId.bytes)) _ = result at hhwids ⊢
    obtain ⟨registry, message⟩ := result
    dsimp only at hhwids
    refine ⟨registry, _, rfl, fun hub hhub => ?_, fun hall => ?_, fun _ => ?_⟩
    · by_cases hstandard : hub.Standard
      · exact hub.recognised_of_standard hstandard
      · refine hub.recognised_of_mem (List.head_mem hub.nonempty) (Or.inr (Or.inr (Or.inr ?_)))
        exact hhwids.symm ▸ hfirst hub hhub hstandard
    · obtain ⟨id, hid⟩ := List.exists_mem_of_ne_nil ids hnil
      obtain ⟨hub, hhub, hnot, -⟩ :=
        ((hmem id.bytes).mp (List.mem_map_of_mem hid)).resolve_left List.not_mem_nil
      exact absurd (hall hub hhub) hnot
    · rw [hhwids]
      refine ⟨?_, fun text => ⟨fun htext => ?_, ?_⟩⟩
      · have hnarrow : (ids.map fun id => id.text).map (List.map fun c => UInt8.ofNat c.toNat) =
            ids.map PnpId.bytes := List.map_map
        exact List.Nodup.of_map _ (hnarrow ▸ hnodup)
      · obtain ⟨id, hid, rfl⟩ := List.mem_map.mp htext
        obtain ⟨hub, hhub, hnot, heq⟩ :=
          ((hmem id.bytes).mp (List.mem_map_of_mem hid)).resolve_left List.not_mem_nil
        exact ⟨hub, hhub, hnot, PnpId.bytes_inj.mp heq⟩
      · rintro ⟨hub, hhub, hnot, rfl⟩
        exact hfirst hub hhub hnot

/-- The unusual id is in ASCII. -/
theorem ascii_unusual : ∀ c ∈ wide "NUSB3\\ROOT_HUB30", c < 128 := fun c hc =>
  of_decide_eq_true (List.all_eq_true.mp
    (show (wide "NUSB3\\ROOT_HUB30").all (fun c => decide (c < 128)) = true by decide) c hc)

/-- A root hub with an id of its own. -/
def unusualHub : RootHub where
  ids := [⟨⟨wide "NUSB3\\ROOT_HUB30", by decide, by decide⟩, ascii_unusual⟩]
  compatible := none
  nonempty := List.cons_ne_nil _ _
  few := by decide
  fits := by decide
  small := fun _ h => absurd h (Option.not_mem_none _)

/-- A service key in the code page of Western Europe, which is read byte by byte. -/
def sampleKey : ServiceKey where
  codePage := ⟨List.map fun c => .ofNat c.toNat, fun _ _ => rfl⟩
  openKey := true
  setValue := true
  nonStandardHwids := .missing

/-- The scan remembers it, and the driver recognises the hub. -/
theorem root_hubs_recognised_unusual :
    ∃ registry scan,
      initNonStandardRoothubHwid .x64 ⟨true, true, [[unusualHub.node], []]⟩ sampleKey true true =
        some (registry, scan) ∧
      unusualHub.recognised registry = some true := by
  obtain ⟨registry, scan, hinit, hall, -, -⟩ :=
    @root_hubs_recognised .x64 [[unusualHub], []] sampleKey rfl rfl (by decide)
  exact ⟨registry, scan, hinit, hall unusualHub List.mem_cons_self⟩

end UsbPcap
