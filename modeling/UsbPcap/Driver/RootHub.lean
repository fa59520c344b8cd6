import Mathlib.Data.UInt
import UsbPcap.Lib.MultiString

/-!
# Root hubs

`USBPcapIsDeviceRootHub` splits the hardware ids of a device into an array of pointers on its stack
and looks for the id of a root hub. `isDeviceRootHub_iff` says that it stays in the array and finds
what it should exactly when the device has at most 64 ids.
-/

namespace UsbPcap.Driver

open MultiString

/-- A text of `WCHAR`s without its NUL. -/
abbrev WideText : Type := {text : List UInt16 // 0 ∉ text}

/-- A hardware id. -/
structure HardwareId where
  text : List UInt16
  nonempty : text ≠ []
  no_nul : 0 ∉ text
deriving DecidableEq

/-- `wcscmp(a, b) == 0` on what stands in memory. -/
def wcsEqual (a b : List UInt16) : Bool := terminated a = terminated b

/-- A literal of `WCHAR`s. -/
def wide (text : String) : List UInt16 := text.toList.map fun c => .ofNat c.toNat

/-! ## The registry -/

/-- What the registry has as `NonStandardHWIDs`. -/
inductive RegistryValue where
  | missing
  | strings (hwids : List WideText)
  | other (data : List UInt16)

/-- The configured list. -/
def RegistryValue.hwids : RegistryValue → List (List UInt16)
  | strings hwids => hwids.map Subtype.val
  | missing | other _ => []

/-- The value types that `QueryCompareHwid` tells apart. -/
inductive RegistryType where
  | regSz
  | other
deriving DecidableEq

/-- `RtlQueryRegistryValues` with one required name: `none` if it is missing; a `REG_MULTI_SZ` is
broken into its strings. -/
def rtlQueryRegistryValues (value : RegistryValue)
    (queryRoutine : RegistryType → List UInt16 → Bool → Bool) (context : Bool) : Option Bool :=
  match value with
  | .missing => none
  | .strings hwids =>
    some (hwids.foldl (fun context s => queryRoutine .regSz (s.1 ++ [0]) context) context)
  | .other data => some (queryRoutine .other data context)

/-- `QueryCompareHwid`: the new value of `*match`. `valueData` has `ValueLength` bytes. -/
def queryCompareHwid (hwid : List UInt16) (valueType : RegistryType) (valueData : List UInt16)
    (found : Bool) : Bool :=
  if found then found
  else if 2 * valueData.length = 2 then found
  else if valueType ≠ .regSz then found
  else if wcsEqual valueData hwid then true
  else found

/-- `IsHwidNonStandardRootHub` -/
def isHwidNonStandardRootHub (registry : RegistryValue) (hwid : List UInt16) : Bool :=
  match rtlQueryRegistryValues registry (queryCompareHwid hwid) false with
  | some found => found
  | none => false

/-! ## The hardware ids of a device -/

/-- `REGSTR_VAL_MAX_HCID_LEN` -/
def regstrValMaxHcidLen : ℕ := 1024

/-- `MAX_HARDWARE_IDS` -/
def maxHardwareIds : ℕ := 64

/-- The loop that looks for the ends of the ids, from word `i` on. `hardwareIds` has the places that
the pointers lead to; `none` when one is written behind the end of the array. -/
def splitHardwareIds (i start : ℕ) (hardwareIds : List ℕ) : List UInt16 → Option (List ℕ)
  | [] => some hardwareIds
  | c :: hwid =>
    if c = 0 then
      if start = i then some hardwareIds
      else if hardwareIds.length < maxHardwareIds then
        splitHardwareIds (i + 1) (i + 1) (hardwareIds ++ [start]) hwid
      else none
    else splitHardwareIds (i + 1) start hardwareIds hwid

/-- The comparisons with one id. -/
def isRootHubId (registry : RegistryValue) (hardwareId : List UInt16) : Bool :=
  if wcsEqual hardwareId (wide "USB\\ROOT_HUB") then true
  else if wcsEqual hardwareId (wide "USB\\ROOT_HUB20") then true
  else if wcsEqual hardwareId (wide "USB\\ROOT_HUB30") then true
  else isHwidNonStandardRootHub registry hardwareId

/-- The loop over the ids, the last one first. -/
def findRootHubId (registry : RegistryValue) (hwid : List UInt16) : List ℕ → Bool
  | [] => false
  | start :: rest =>
    if isRootHubId registry (hwid.drop start) then true else findRootHubId registry hwid rest

/-- `USBPcapIsDeviceRootHub`. `pool` says whether the block can be allocated, `pdo` whether the
target device has one, and `property` is what `IoGetDeviceProperty` puts into the block, if it fits.
The result is `none` when a write has left the array. -/
def isDeviceRootHub (pool pdo : Bool)
    (property : Option {ids : List UInt16 // 2 * ids.length ≤ regstrValMaxHcidLen})
    (registry : RegistryValue) : Option Bool :=
  if pool = false then some false
  else if pdo = false then some false
  else
    match property with
    | none => some false
    | some ids =>
      let hwid := ids.1 ++ List.replicate (regstrValMaxHcidLen / 2 - ids.1.length) 0
      match splitHardwareIds 0 0 [] ids.1 with
      | none => none
      | some hardwareIds => some (findRootHubId registry hwid hardwareIds.reverse)

/-! ## What the loops do -/

/-- The ids of root hubs: three fixed ones, and those of the list. -/
def IsRootHubId (registry : RegistryValue) (id : HardwareId) : Prop :=
  id.text = wide "USB\\ROOT_HUB" ∨ id.text = wide "USB\\ROOT_HUB20" ∨
    id.text = wide "USB\\ROOT_HUB30" ∨ id.text ∈ registry.hwids

theorem splitHardwareIds_text {s : List UInt16} (h : 0 ∉ s) (i start : ℕ) (hardwareIds : List ℕ)
    (rest : List UInt16) :
    splitHardwareIds i start hardwareIds (s ++ rest) =
      splitHardwareIds (i + s.length) start hardwareIds rest := by
  induction s generalizing i with
  | nil => rfl
  | cons c s ih =>
    rw [List.mem_cons, not_or] at h
    rw [List.cons_append, splitHardwareIds, if_neg (Ne.symm h.1), ih h.2, List.length_cons,
      Nat.add_assoc, Nat.add_comm 1]

/-- On a multi-string, the loop finds the starts, as long as the array has room for them. -/
theorem splitHardwareIds_encode (ids : List HardwareId) (i : ℕ) {hardwareIds : List ℕ}
    (h : hardwareIds.length ≤ maxHardwareIds) :
    splitHardwareIds i i hardwareIds (encode (ids.map HardwareId.text)) =
      if hardwareIds.length + ids.length ≤ maxHardwareIds then
        some (hardwareIds ++ starts i (ids.map HardwareId.text))
      else none := by
  induction ids generalizing i hardwareIds with
  | nil =>
    rw [List.length_nil, Nat.add_zero, if_pos h, List.map_nil, starts, List.append_nil]
    exact (if_pos rfl).trans (if_pos rfl)
  | cons id ids ih =>
    have hne : i ≠ i + id.text.length := by
      have := List.length_pos_iff.mpr id.nonempty
      omega
    rw [List.map_cons, encode_cons, splitHardwareIds_text id.no_nul, splitHardwareIds, if_pos rfl,
      if_neg hne, List.length_cons]
    by_cases hroom : hardwareIds.length < maxHardwareIds
    · have hnext : (hardwareIds ++ [i]).length = hardwareIds.length + 1 := List.length_append
      rw [if_pos hroom, ih _ (by omega), starts, hnext, List.append_assoc, List.singleton_append]
      exact if_congr (by omega) rfl rfl
    · rw [if_neg hroom, if_neg (by omega)]

/-- The callback finds the id as soon as one of the strings is it. -/
theorem foldl_queryCompareHwid (hwid : List UInt16) (strings : List WideText) (found : Bool) :
    strings.foldl (fun found s => queryCompareHwid hwid .regSz (s.1 ++ [0]) found) found =
      (found || strings.any fun s => s.1 ≠ [] ∧ s.1 = terminated hwid) := by
  induction strings generalizing found with
  | nil => exact (Bool.or_false found).symm
  | cons s strings ih =>
    have htext : terminated (s.1 ++ [0]) = s.1 := terminated_append s.2 []
    have hempty : 2 * (s.1 ++ [0]).length = 2 ↔ s.1 = [] := by
      rw [List.length_append, List.length_singleton, ← List.length_eq_zero_iff]
      omega
    have hstep : queryCompareHwid hwid .regSz (s.1 ++ [0]) found =
        (found || decide (s.1 ≠ [] ∧ s.1 = terminated hwid)) := by
      cases found with
      | true => rfl
      | false =>
        by_cases hnil : s.1 = []
        · simp [queryCompareHwid, hnil]
        · simp [queryCompareHwid, hempty, hnil, wcsEqual, htext, -List.length_append]
    rw [List.foldl_cons, ih, hstep, List.any_cons, Bool.or_assoc]

/-- An id is compared with the fixed ids and with the whole list. -/
theorem isRootHubId_iff (registry : RegistryValue) {hwid : List UInt16} {id : HardwareId}
    (h : terminated hwid = id.text) :
    isRootHubId registry hwid = true ↔ IsRootHubId registry id := by
  have hlist : isHwidNonStandardRootHub registry hwid = true ↔ id.text ∈ registry.hwids := by
    cases registry with
    | missing => exact iff_of_false Bool.false_ne_true List.not_mem_nil
    | other data =>
      refine iff_of_false (fun hfound => ?_) List.not_mem_nil
      simp [isHwidNonStandardRootHub, rtlQueryRegistryValues, queryCompareHwid] at hfound
    | strings hwids =>
      change hwids.foldl (fun found s => queryCompareHwid hwid .regSz (s.1 ++ [0]) found) false =
        true ↔ _
      rw [foldl_queryCompareHwid, Bool.false_or, List.any_eq_true, RegistryValue.hwids,
        List.mem_map, h]
      refine exists_congr fun s => and_congr_right fun _ => ?_
      rw [decide_eq_true_iff]
      exact and_iff_right_of_imp fun heq => heq ▸ id.nonempty
  have hliteral (text : List UInt16) (hno : 0 ∉ text) :
      wcsEqual hwid text = true ↔ id.text = text := by
    rw [wcsEqual, decide_eq_true_iff, h, terminated_eq_self hno]
  unfold isRootHubId IsRootHubId
  rw [← hlist, ← hliteral _ (by decide), ← hliteral _ (by decide), ← hliteral _ (by decide)]
  split <;> simp_all

theorem findRootHubId_eq_any (registry : RegistryValue) (hwid : List UInt16) (places : List ℕ) :
    findRootHubId registry hwid places =
      places.any fun start => isRootHubId registry (hwid.drop start) := by
  induction places with
  | nil => rfl
  | cons start places ih =>
    rw [findRootHubId, ih, List.any_cons]
    cases isRootHubId registry (hwid.drop start) <;> rfl

/-- **Root hubs are recognised exactly, as long as the ids fit the array.** For every multi-string
of hardware ids that fits the block and every configured list, all writes stay in the array and the
result says whether one of the ids is that of a root hub, exactly when there are at most 64 ids. -/
theorem isDeviceRootHub_iff (registry : RegistryValue) {ids : List HardwareId}
    (hsize : 2 * (encode (ids.map HardwareId.text)).length ≤ regstrValMaxHcidLen) :
    (∃ found,
      isDeviceRootHub true true (some ⟨encode (ids.map HardwareId.text), hsize⟩) registry =
        some found ∧ (found = true ↔ ∃ id ∈ ids, IsRootHubId registry id)) ↔
      ids.length ≤ maxHardwareIds := by
  have hsplit := splitHardwareIds_encode ids 0
    (show ([] : List ℕ).length ≤ maxHardwareIds from Nat.zero_le _)
  rw [List.length_nil, Nat.zero_add, List.nil_append] at hsplit
  simp only [isDeviceRootHub, Bool.true_eq_false, if_false, hsplit]
  by_cases hfew : ids.length ≤ maxHardwareIds
  · rw [if_pos hfew]
    refine iff_of_true ⟨_, rfl, ?_⟩ hfew
    have hnul : ∀ s ∈ ids.map HardwareId.text, 0 ∉ s := by
      intro s hs
      obtain ⟨id, -, rfl⟩ := List.mem_map.mp hs
      exact id.no_nul
    have htexts := map_terminated_starts hnul []
      (List.replicate (regstrValMaxHcidLen / 2 - (encode (ids.map HardwareId.text)).length) 0)
    rw [findRootHubId_eq_any, List.any_reverse, List.any_eq_true]
    -- the places lead to the texts of the ids
    constructor
    · rintro ⟨start, hstart, hfound⟩
      obtain ⟨id, hid, htext⟩ :=
        List.mem_map.mp (htexts ▸ List.mem_map_of_mem hstart)
      exact ⟨id, hid, (isRootHubId_iff registry htext.symm).mp hfound⟩
    · rintro ⟨id, hid, hroot⟩
      have hmem := List.mem_map_of_mem (f := HardwareId.text) hid
      rw [← htexts] at hmem
      obtain ⟨start, hstart, htext⟩ := List.mem_map.mp hmem
      exact ⟨start, hstart, (isRootHubId_iff registry htext).mpr hroot⟩
  · rw [if_neg hfew]
    exact iff_of_false (fun ⟨_, hnone, _⟩ => Option.some_ne_none _ hnone.symm) hfew

/-- A root hub whose id comes last. -/
def rootHubIds : List HardwareId :=
  [⟨wide "USB\\ROOT_HUB30&VID8086", by decide, by decide⟩,
    ⟨wide "USB\\ROOT_HUB30", by decide, by decide⟩]

theorem isDeviceRootHub_iff_rootHub :
    ∃ found, isDeviceRootHub true true
      (some ⟨encode (rootHubIds.map HardwareId.text), by decide⟩) .missing = some found ∧
        (found = true ↔ ∃ id ∈ rootHubIds, IsRootHubId .missing id) :=
  (@isDeviceRootHub_iff .missing rootHubIds (by decide)).mpr (by decide)

/-- 65 ids of one character each. -/
def manyIds : List HardwareId := List.replicate 65 ⟨wide "A", by decide, by decide⟩

theorem manyIds_fit : 2 * (encode (manyIds.map HardwareId.text)).length ≤ regstrValMaxHcidLen := by
  rw [length_encode, manyIds, List.map_replicate, List.map_replicate, List.sum_replicate_nat]
  decide

/-- The 65th one is written behind the end of the array. -/
theorem manyIds_overflow :
    ¬ ∃ found,
      isDeviceRootHub true true (some ⟨encode (manyIds.map HardwareId.text), manyIds_fit⟩)
        .missing = some found ∧ (found = true ↔ ∃ id ∈ manyIds, IsRootHubId .missing id) := by
  have hsplit := splitHardwareIds_encode manyIds 0
    (show ([] : List ℕ).length ≤ maxHardwareIds from Nat.zero_le _)
  have hmany : manyIds.length = 65 := List.length_replicate
  rw [hmany, if_neg (by decide)] at hsplit
  rintro ⟨found, hfound, -⟩
  simp only [isDeviceRootHub, Bool.true_eq_false, if_false, hsplit] at hfound
  cases hfound

end UsbPcap.Driver
