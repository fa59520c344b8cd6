import UsbPcap.Cmd.MultiSz
import UsbPcap.Cmd.UpperFilter
import UsbPcap.Driver.RootHub

/-!
# The scan for root hubs

`find_non_standard_hwids` looks at the hardware ids of every child of a host controller and collects
the first id of those that have none of the three standard ids. `init_non_standard_roothub_hwid`
does so for all host controllers and leaves the list in the registry.
-/

namespace UsbPcap.Cmd

open CText (literal)
open Driver (Abi RegistryValue)
open MultiString

/-! ## `roothubs.c` -/

/-- `is_standard_hwid` -/
def isStandardHwid (hwid : List UInt8) : Bool :=
  if literal "USB\\ROOT_HUB" = hwid then true
  else if literal "USB\\ROOT_HUB20" = hwid then true
  else if literal "USB\\ROOT_HUB30" = hwid then true
  else false

/-- The loop of `is_non_standard_hwid_known`; `none` where something else than a string is read. -/
def knownLoop (hwid : List UInt8) : List (Slot (List UInt8)) → Option Bool
  | [] => some false
  | slot :: slots => slot.target.bind fun s => if s = hwid then some true else knownLoop hwid slots

/-- `is_non_standard_hwid_known` -/
def isNonStandardHwidKnown (a : StringArray) (hwid : List UInt8) : Option Bool :=
  if a.used ≤ a.array.length then knownLoop hwid (a.array.take a.used) else none

/-- `CR_SUCCESS` -/
def crSuccess : UInt32 := 0

/-- `CR_BUFFER_SMALL` -/
def crBufferSmall : UInt32 := 0x1A

/-- What `CM_Get_DevNode_Registry_Property` answers for a property: `size` for the call without a
buffer (result, type, byte count) and `read` for the one with it. `malloc` and `indexMalloc` say
whether there is a block for the value and for the pointers. -/
structure DevProperty where
  size : UInt32 × UInt32 × UInt32
  read : UInt32 × List UInt8
  malloc : Bool
  indexMalloc : Bool

/-- `GetDevMultiSz`: what is in the buffer up to the two zeros, and the block with the pointers, or
a null pointer; the outer `none` where a write leaves a block. -/
def getDevMultiSz (abi : Abi) (property : DevProperty) :
    Option (Option (List UInt8 × List (Slot ℕ))) :=
  let (ret, dataType, size) := property.size
  if ret ≠ crBufferSmall ∨ dataType ≠ regMultiSz then some none
  else if size = 0 then some none
  else if property.malloc = false then some none
  else if property.read.1 ≠ crSuccess then some none
  else
    let value := property.read.2.take size.toNat
    if value.length + 2 ≤ (size.toNat + 2) % 2 ^ (8 * abi.sizeofPointer) then
      (getMultiSzIndexArray abi (value ++ [0, 0]) property.indexMalloc).map fun array =>
        array.target.map fun block => (value ++ [0, 0], block)
    else none

/-- What the scan has collected and printed. -/
structure Scan where
  hwids : StringArray
  stdout : List UInt8
  stderr : List UInt8

def Scan.print (scan : Scan) (text : List UInt8) : Scan :=
  { scan with stdout := scan.stdout ++ text }

/-- A loop over a null-terminated array of strings. -/
def foldStrings {β : Type*} (multiSz : List UInt8) (f : β → List UInt8 → β) :
    β → List (Slot ℕ) → Option β
  | b, .pointer start :: tmpIds =>
    foldStrings multiSz f (f b (terminated (multiSz.drop start))) tmpIds
  | b, .null :: _ => some b
  | _, .unset :: _ => none
  | _, [] => none

/-- The body of the loop over the hardware ids, on the scan and `standard`. -/
def lookAtHardwareId (scan : Scan × Bool) (hwid : List UInt8) : Scan × Bool :=
  let printed := scan.1.print (literal "Hardware ID: " ++ hwid ++ literal "\n")
  if isStandardHwid hwid then (printed.print (literal "Found standard HWID\n"), true)
  else (printed, scan.2)

/-- The body of the loop over the compatible ids. -/
def lookAtCompatibleId (scan : Scan) (id : List UInt8) : Scan :=
  scan.print (literal "Compatible ID: " ++ id ++ literal "\n")

/-- A child of a host controller: its `CM_DRP_HARDWAREID` and `CM_DRP_COMPATIBLEIDS`, and whether
`realloc` and `_tcsdup` find memory for its id. -/
structure HubNode where
  hardwareId : DevProperty
  compatibleIds : DevProperty
  realloc : Bool
  tcsdup : Bool

/-- `add_non_standard_hwid` -/
def addNonStandardHwid (abi : Abi) (scan : Scan) (hub : HubNode) (hwid : List UInt8) :
    Option Scan :=
  (insertStringArray abi scan.hwids ⟨hwid, hub.realloc, hub.tcsdup⟩).map fun (hwids, message) =>
    { scan with hwids := hwids, stderr := scan.stderr ++ message }

/-- What is done about a root hub without a standard id; `first` is `hwIds[0]`. -/
def rememberHub (abi : Abi) (scan : Scan) (hub : HubNode) (first : List UInt8) : Option Scan :=
  let printed := scan.print (literal "RootHub does not have standard HWID! ")
  (isNonStandardHwidKnown scan.hwids first).bind fun known =>
    if known then some (printed.print (first ++ literal " is already in the non-standard list.\n"))
    else (addNonStandardHwid abi printed hub first).map fun scan =>
      scan.print (literal "Added " ++ first ++ literal " to non-standard list.\n")

/-- The part of the loop of `find_non_standard_hwids` about the hardware ids. A device with an empty
list of them has a null pointer for `hwIds[0]`, which is read here or behind the loop. -/
def lookAtHardwareIds (abi : Abi) (scan : Scan) (hub : HubNode) (multiSz : List UInt8)
    (hwIds : List (Slot ℕ)) : Option Scan :=
  (foldStrings multiSz lookAtHardwareId (scan, false) hwIds).bind fun (scan, standard) =>
    if standard then some scan
    else hwIds.head?.bind fun slot => slot.target.bind fun start =>
      rememberHub abi scan hub (terminated (multiSz.drop start))

/-- One turn of the loop of `find_non_standard_hwids`. -/
def lookAtHub (abi : Abi) (scan : Scan) (hub : HubNode) : Option Scan :=
  (getDevMultiSz abi hub.hardwareId).bind fun hwIds =>
    (getDevMultiSz abi hub.compatibleIds).bind fun compatIds =>
      (match hwIds with
        | none => some scan
        | some (multiSz, block) =>
          lookAtHardwareIds abi scan hub multiSz block.tail).bind fun scan =>
        match compatIds with
        | none => some scan
        | some (multiSz, block) => foldStrings multiSz lookAtCompatibleId scan block.tail

/-- `find_non_standard_hwids`, on the children that `CM_Get_Child` and `CM_Get_Sibling` find. -/
def findNonStandardHwids (abi : Abi) (scan : Scan) (children : List HubNode) : Option Scan :=
  children.foldlM (lookAtHub abi) scan

/-- What the setup calls find: whether the set of devices and its details are to be had, and the
host controllers, each with its children. -/
structure HostControllers where
  devs : Bool
  detail : Bool
  controllers : List (List HubNode)

/-- `foreach_host_controller` with this callback. -/
def foreachHostController (abi : Abi) (hosts : HostControllers) (scan : Scan) : Option Scan :=
  if hosts.devs = false then
    some { scan with stderr := scan.stderr ++ literal "SetupDiCreateDeviceInfoListEx() failed\n" }
  else if hosts.detail = false then
    some { scan with stderr := scan.stderr ++ literal "SetupDiGetDeviceInfoListDetail() failed\n" }
  else hosts.controllers.foldlM (findNonStandardHwids abi) scan

/-- The code page that the registry calls read strings of bytes in. ASCII is read as it is. -/
structure CodePage where
  toWide : List UInt8 → List UInt16
  ascii : ∀ text, (∀ c ∈ text, c < 128) → toWide text = text.map fun c => .ofNat c.toNat

/-- The service key of the driver: whether it can be opened, whether `RegSetValueEx` succeeds, and
the value `NonStandardHWIDs`. -/
structure ServiceKey where
  codePage : CodePage
  openKey : Bool
  setValue : Bool
  nonStandardHwids : RegistryValue

/-- `set_non_standard_hwids_reg_key`, with what it prints to `stderr`. -/
def setNonStandardHwidsRegKey (key : ServiceKey) (multiSz : List UInt8) (length : UInt32) :
    RegistryValue × List UInt8 :=
  if key.openKey = false then
    (key.nonStandardHwids, literal "Failed to open USBPcap service key\n")
  else if key.setValue = false then
    (key.nonStandardHwids, literal "Failed to set NonStandardHWIDs value\n")
  else (.strings (pieces (key.codePage.toWide (multiSz.take length.toNat))), [])

/-- `init_non_standard_roothub_hwid`: the value of the registry, and the last scan. The two flags
say whether the blocks for the array and for the multi-string can be allocated. -/
def initNonStandardRoothubHwid (abi : Abi) (hosts : HostControllers) (key : ServiceKey)
    (arrayMalloc multiSzMalloc : Bool) : Option (RegistryValue × Scan) :=
  (foreachHostController abi hosts ⟨initStringArray abi 1 arrayMalloc, [], []⟩).bind fun scan =>
    if 0 < scan.hwids.used then
      (buildNonStandardRegMultiSz abi scan.hwids multiSzMalloc).map fun (multiSz, length) =>
        let (value, message) := setNonStandardHwidsRegKey key multiSz length
        (value, { scan with stderr := scan.stderr ++ message })
    else some (key.nonStandardHwids, scan)

/-! ## The list -/

/-- The array has the strings in its first slots, and its recorded size. -/
structure StringArray.Holds (a : StringArray) (strings : List (List UInt8)) : Prop where
  exact : a.Exact
  slots : a.array.take a.used = strings.map .pointer

section Holds

variable {abi : Abi} {a : StringArray} {strings : List (List UInt8)}

/-- As many elements are used as strings are held. -/
theorem StringArray.Holds.used (h : a.Holds strings) : a.used = strings.length := by
  have hle : a.used ≤ a.array.length := h.exact.block ▸ h.exact.used
  have hlength := congrArg List.length h.slots
  rwa [List.length_take, List.length_map, Nat.min_eq_left hle] at hlength

/-- Every pointer points to its string. -/
theorem mapM_target (strings : List (List UInt8)) :
    (strings.map Slot.pointer).mapM Slot.target = some strings := by
  induction strings with
  | nil => rfl
  | cons s strings ih =>
    rw [List.map_cons, List.mapM_cons, ih]
    rfl

/-- The strings of the array are those it holds. -/
theorem StringArray.Holds.strings_eq (h : a.Holds strings) : a.strings = some strings := by
  rw [StringArray.strings, if_pos (h.exact.block ▸ h.exact.used), h.slots, mapM_target]

/-- The loop finds an id exactly when it is there. -/
theorem knownLoop_pointers (hwid : List UInt8) (strings : List (List UInt8)) :
    knownLoop hwid (strings.map .pointer) = some (decide (hwid ∈ strings)) := by
  induction strings with
  | nil => rfl
  | cons s strings ih =>
    rw [List.map_cons, knownLoop, ih]
    by_cases hs : s = hwid
    · simp [Slot.target, hs]
    · simp [Slot.target, hs, Ne.symm hs]

/-- So an id is known exactly when the array holds it. -/
theorem StringArray.Holds.known (h : a.Holds strings) (hwid : List UInt8) :
    isNonStandardHwidKnown a hwid = some (decide (hwid ∈ strings)) := by
  rw [isNonStandardHwidKnown, if_pos (h.exact.block ▸ h.exact.used), h.slots, knownLoop_pointers]

/-- A new array holds nothing. -/
theorem holds_initStringArray : (initStringArray abi 1 true).Holds [] where
  exact := exact_initStringArray Nat.one_pos (by cases abi <;> decide)
  slots := rfl

/-- An id is put behind the others, if there is memory. -/
theorem StringArray.Holds.insert (h : a.Holds strings) (hfew : strings.length < 2 ^ 20)
    (hwid : List UInt8) :
    ∃ b, insertStringArray abi a ⟨hwid, true, true⟩ = some (b, []) ∧
      b.Holds (strings ++ [hwid]) := by
  have hused := h.used
  have hgrows : Grows abi a ⟨hwid, true, true⟩ := by
    intro hfull
    refine ⟨rfl, by omega, ?_⟩
    cases abi with
    | x86 => change a.size * 2 * 4 < 2 ^ 32; omega
    | x64 => change a.size * 2 * 8 < 2 ^ 64; omega
  obtain ⟨b, hb, hinserted⟩ := insertStringArray_grows h.exact hgrows
  refine ⟨b, hb, hinserted.exact, ?_⟩
  have hkept : b.array.take a.used = a.array.take a.used := by
    refine List.ext_getElem? fun i => ?_
    rw [List.getElem?_take, List.getElem?_take]
    split
    · rename_i hi
      exact hinserted.kept i hi
    · rfl
  rw [hinserted.used, List.take_add_one, hkept, h.slots, hinserted.stored, List.map_append]
  rfl

end Holds

/-! ## One hub -/

/-- The loop over the pointers goes over the strings that begin there. -/
theorem foldStrings_pointers {β : Type*} (multiSz : List UInt8) (f : β → List UInt8 → β) (b : β)
    (places : List ℕ) :
    foldStrings multiSz f b (places.map .pointer ++ [.null]) =
      some ((places.map fun start => terminated (multiSz.drop start)).foldl f b) := by
  induction places generalizing b with
  | nil => rfl
  | cons start places ih =>
    rw [List.map_cons, List.cons_append, foldStrings, ih]
    rfl

/-- The loop over the hardware ids changes nothing but the output, and finds a standard id. -/
theorem foldl_lookAtHardwareId (hwids : List (List UInt8)) (scan : Scan × Bool) :
    (hwids.foldl lookAtHardwareId scan).1.hwids = scan.1.hwids ∧
      (hwids.foldl lookAtHardwareId scan).2 = (scan.2 || hwids.any isStandardHwid) := by
  induction hwids generalizing scan with
  | nil => exact ⟨rfl, (Bool.or_false _).symm⟩
  | cons hwid hwids ih =>
    have hstep : (lookAtHardwareId scan hwid).1.hwids = scan.1.hwids ∧
        (lookAtHardwareId scan hwid).2 = (scan.2 || isStandardHwid hwid) := by
      rw [lookAtHardwareId]
      cases isStandardHwid hwid with
      | true => exact ⟨rfl, (Bool.or_true _).symm⟩
      | false => exact ⟨rfl, (Bool.or_false _).symm⟩
    rw [List.foldl_cons, (ih _).1, (ih _).2, hstep.1, hstep.2, List.any_cons, Bool.or_assoc]
    exact ⟨rfl, rfl⟩

/-- The compatible ids are only looked at. -/
theorem hwids_foldl_lookAtCompatibleId (ids : List (List UInt8)) (scan : Scan) :
    (ids.foldl lookAtCompatibleId scan).hwids = scan.hwids := by
  induction ids generalizing scan with
  | nil => rfl
  | cons id ids ih => exact ih _

/-- A property that is there and has these strings, with memory for it. -/
def DevProperty.holding (strings : List (List UInt8)) : DevProperty where
  size := (crBufferSmall, regMultiSz, .ofNat (encode strings).length)
  read := (crSuccess, encode strings)
  malloc := true
  indexMalloc := true

/-- Text without zeros, in a block that all counters can measure. -/
structure Scannables (strings : List (List UInt8)) : Prop where
  text : ∀ s ∈ strings, s ≠ [] ∧ 0 ∉ s
  small : (encode strings).length < 2 ^ 29

section Hub

variable {abi : Abi} {strings : List (List UInt8)}

/-- A list that can be scanned has offsets that fit. -/
theorem Scannables.fitsInts (h : Scannables strings) : FitsInts abi strings where
  string s hs := by
    have hlt := length_lt_encode hs
    have hsmall := h.small
    omega
  length := h.small.trans (by decide)
  count := by
    have hlt := count_lt_encode strings
    have hsmall := h.small
    omega
  index := by
    have hlt := count_lt_encode strings
    have hsmall := h.small
    cases abi with
    | x86 => change (strings.length + 2) * 4 < 2 ^ 32; omega
    | x64 => change (strings.length + 2) * 8 < 2 ^ 64; omega

/-- What the registry holds is returned with a pointer to each string. -/
theorem getDevMultiSz_holding (h : Scannables strings) :
    getDevMultiSz abi (.holding strings) = some (some (encode strings ++ [0, 0],
      .pointer 0 :: ((starts 0 strings).map .pointer ++ [.null]))) := by
  have hsmall := h.small
  have hpos : 0 < (encode strings).length := by
    have hlt := count_lt_encode strings
    omega
  have hsize : (UInt32.ofNat (encode strings).length).toNat = (encode strings).length :=
    UInt32.toNat_ofNat_of_lt' (hsmall.trans (by decide))
  have hne : UInt32.ofNat (encode strings).length ≠ 0 := by
    intro hzero
    rw [hzero] at hsize
    exact hpos.ne hsize
  have hroom : (encode strings).length + 2 < 2 ^ (8 * abi.sizeofPointer) := by
    cases abi with
    | x86 => change _ < 2 ^ 32; omega
    | x64 => change _ < 2 ^ 64; omega
  simp [getDevMultiSz, DevProperty.holding, hne, hsize, Nat.mod_eq_of_lt hroom,
    getMultiSzIndexArray_encode h.fitsInts h.text, Slot.target]

/-- The strings that a loop over the pointers sees. -/
theorem foldStrings_starts {β : Type*} (h : Scannables strings) (f : β → List UInt8 → β) (b : β)
    (behind : List UInt8) :
    foldStrings (encode strings ++ behind) f b ((starts 0 strings).map .pointer ++ [.null]) =
      some (strings.foldl f b) := by
  have hstarts := map_terminated_starts (fun s hs => (h.text s hs).2) [] behind
  rw [List.nil_append, List.length_nil] at hstarts
  rw [foldStrings_pointers, hstarts]

/-- A child of a host controller with these ids. -/
def HubNode.holding (hardwareIds : List (List UInt8)) (compatible : Option (List (List UInt8))) :
    HubNode where
  hardwareId := .holding hardwareIds
  compatibleIds := compatible.elim ⟨(0x25, 0, 0), (0x25, []), true, true⟩ .holding
  realloc := true
  tcsdup := true

/-- What one hub does to the list. -/
def remember (known : List (List UInt8)) (hub : List (List UInt8)) : List (List UInt8) :=
  if hub.any isStandardHwid ∨ hub.headD [] ∈ known then known else known ++ [hub.headD []]

/-- A hub is remembered by its first id unless that one is known. -/
theorem rememberHub_spec {scan : Scan} {known : List (List UInt8)} (h : scan.hwids.Holds known)
    (hfew : known.length < 2 ^ 20) (compatible : Option (List (List UInt8)))
    (first : List UInt8) :
    ∃ scan', rememberHub abi scan (.holding strings compatible) first = some scan' ∧
      scan'.hwids.Holds (if first ∈ known then known else known ++ [first]) := by
  rw [rememberHub, h.known, Option.bind_some]
  split
  · rename_i hmem
    rw [if_pos (of_decide_eq_true hmem)]
    exact ⟨_, rfl, h⟩
  · rename_i hmem
    obtain ⟨b, hb, hholds⟩ := h.insert hfew first
    have hadd (text : List UInt8) :
        addNonStandardHwid abi (scan.print text) (.holding strings compatible) first =
          some { scan.print text with hwids := b, stderr := scan.stderr ++ [] } :=
      congrArg (Option.map _) hb
    rw [if_neg fun hknown => hmem (decide_eq_true hknown), hadd]
    exact ⟨_, rfl, hholds⟩

/-- Looking at a hub remembers it when it is not standard. -/
theorem lookAtHub_spec {scan : Scan} {known : List (List UInt8)} (h : scan.hwids.Holds known)
    (hfew : known.length < 2 ^ 20) (hstrings : Scannables strings) (hne : strings ≠ [])
    {compatible : Option (List (List UInt8))} (hcompatible : ∀ ids ∈ compatible, Scannables ids) :
    ∃ scan', lookAtHub abi scan (.holding strings compatible) = some scan' ∧
      scan'.hwids.Holds (remember known strings) := by
  obtain ⟨hfold, hstandard⟩ := foldl_lookAtHardwareId strings (scan, false)
  rw [Bool.false_or] at hstandard
  -- the hardware ids
  obtain ⟨looked, hlooked, hholds⟩ : ∃ scan',
      lookAtHardwareIds abi scan (.holding strings compatible) (encode strings ++ [0, 0])
        ((starts 0 strings).map .pointer ++ [.null]) = some scan' ∧
      scan'.hwids.Holds (remember known strings) := by
    rw [lookAtHardwareIds, foldStrings_starts hstrings, Option.bind_some]
    dsimp only
    rw [hstandard, remember]
    split
    · rename_i hany
      rw [if_pos (Or.inl hany)]
      exact ⟨_, rfl, hfold.symm ▸ h⟩
    · rename_i hany
      obtain ⟨first, rest, rfl⟩ := List.exists_cons_of_ne_nil hne
      have hfirst : terminated ((encode (first :: rest) ++ [0, 0]).drop 0) = first := by
        rw [List.drop_zero, encode_cons, List.append_assoc]
        exact terminated_append (hstrings.text first List.mem_cons_self).2 _
      have hslot : ((starts 0 (first :: rest)).map Slot.pointer ++ [Slot.null]).head? =
          some (.pointer 0) := rfl
      rw [hslot, Option.bind_some, Slot.target, Option.bind_some, hfirst, List.headD_cons,
        if_congr (or_iff_right hany) rfl rfl]
      exact rememberHub_spec (hfold.symm ▸ h) hfew compatible first
  have hhardware : getDevMultiSz abi (HubNode.holding strings compatible).hardwareId = _ :=
    getDevMultiSz_holding hstrings
  rw [lookAtHub, hhardware, Option.bind_some]
  cases compatible with
  | none =>
    have hnone : getDevMultiSz abi (HubNode.holding strings none).compatibleIds = some none := rfl
    rw [hnone, Option.bind_some]
    dsimp only [List.tail_cons]
    rw [hlooked]
    exact ⟨looked, rfl, hholds⟩
  | some ids =>
    have hids := hcompatible ids rfl
    have hsome : getDevMultiSz abi (HubNode.holding strings (some ids)).compatibleIds = _ :=
      getDevMultiSz_holding hids
    rw [hsome, Option.bind_some]
    dsimp only [List.tail_cons]
    rw [hlooked, Option.bind_some, foldStrings_starts hids]
    exact ⟨_, rfl, (hwids_foldl_lookAtCompatibleId ids looked).symm ▸ hholds⟩

end Hub

end UsbPcap.Cmd
