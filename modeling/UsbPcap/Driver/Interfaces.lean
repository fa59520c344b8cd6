import UsbPcap.Driver.Urb
import UsbPcap.Lib.LittleEndian

/-!
# Interface information in memory

`USBPcapParseInterfaceInformation` walks over structures whose `Length` and `NumberOfPipes` come
from outside of the driver. Here it runs over the bytes behind `Interface`, on both targets of the
driver, and notes which fields it reads. `Abi.reads_inside_iff` says exactly when these lie in the
URB, and `Abi.lookup_parse` what the endpoint table is after a well-formed list.
-/

namespace UsbPcap.Driver

/-! ## Structures in memory -/

/-- The targets that the driver is built for. -/
inductive Abi where
  | x86
  | x64
deriving DecidableEq, Repr

namespace Abi

/-- The size of a pointer, and of a `USBD_PIPE_HANDLE`. -/
def sizeofPointer : Abi → ℕ
  | x86 => 4
  | x64 => 8

/-- `sizeof(USBD_PIPE_INFORMATION)` -/
def sizeofPipeInformation : Abi → ℕ
  | x86 => 20
  | x64 => 24

/-- `sizeof(USBD_INTERFACE_INFORMATION)`, which has room for one pipe. -/
def sizeofInterfaceInformation : Abi → ℕ
  | x86 => 36
  | x64 => 48

/-- `offsetof(USBD_INTERFACE_INFORMATION, NumberOfPipes)` -/
def offsetofNumberOfPipes : Abi → ℕ
  | x86 => 12
  | x64 => 16

/-- `offsetof(USBD_INTERFACE_INFORMATION, Pipes)` -/
def offsetofPipes : Abi → ℕ
  | x86 => 16
  | x64 => 24

/-- `offsetof(struct _URB_SELECT_CONFIGURATION, Interface)` -/
def offsetofSelectConfigurationInterface : Abi → ℕ
  | x86 => 24
  | x64 => 40

/-- `offsetof(struct _URB_SELECT_INTERFACE, Interface)` -/
def offsetofSelectInterfaceInterface : Abi → ℕ
  | x86 => 20
  | x64 => 32

end Abi

/-- The little-endian number in the `n` bytes from `offset` on. -/
def memoryField (memory : ℕ → UInt8) (offset n : ℕ) : ℕ :=
  LittleEndian.decode ((List.range n).map fun i => memory (offset + i))

/-- The `USBD_PIPE_TYPE` with a number. The only `switch` on it takes what has no name like a bulk
pipe. -/
def PipeType.ofNumber : ℕ → PipeType
  | 0 => .control
  | 1 => .isochronous
  | 3 => .interrupt
  | _ => .bulk

section

variable (abi : Abi) (memory : ℕ → UInt8)

/-- The `USBD_PIPE_INFORMATION` at an offset. -/
def Abi.pipeAt (offset : ℕ) : PipeInformation where
  endpointAddress := memory (offset + 2)
  pipeType := .ofNumber (memoryField memory (offset + 4) 4)
  pipeHandle := .ofNat (memoryField memory (offset + 8) abi.sizeofPointer)

/-- The `USBD_INTERFACE_INFORMATION` at an offset, with all its pipes. -/
def Abi.interfaceAt (offset : ℕ) : InterfaceInformation where
  length := .ofNat (memoryField memory offset 2)
  interfaceNumber := memory (offset + 2)
  alternateSetting := memory (offset + 3)
  numberOfPipes := .ofNat (memoryField memory (offset + abi.offsetofNumberOfPipes) 4)
  pipes j := abi.pipeAt memory (offset + abi.offsetofPipes + j * abi.sizeofPipeInformation)

/-! ## The walk -/

/-- A field that is read, by its place in memory. -/
structure FieldRead where
  offset : ℕ
  size : ℕ
deriving DecidableEq, Repr

/-- The end of the field. -/
def FieldRead.stop (r : FieldRead) : ℕ := r.offset + r.size

/-- `pInterface->Length` -/
def readLength (offset : ℕ) : FieldRead := ⟨offset, 2⟩

@[simp] theorem stop_readLength (offset : ℕ) : (readLength offset).stop = offset + 2 := rfl

/-- `pInterface->NumberOfPipes` -/
def Abi.readNumberOfPipes (offset : ℕ) : FieldRead := ⟨offset + abi.offsetofNumberOfPipes, 4⟩

/-- `Class`, `SubClass` and `Protocol`, which are printed. -/
def readClass (offset : ℕ) : List FieldRead := [⟨offset + 4, 1⟩, ⟨offset + 5, 1⟩, ⟨offset + 6, 1⟩]

/-- `MaximumPacketSize`, `EndpointAddress`, `PipeType` and `PipeHandle` of a pipe. -/
def Abi.readPipe (offset : ℕ) : List FieldRead :=
  [⟨offset, 2⟩, ⟨offset + 2, 1⟩, ⟨offset + 4, 4⟩, ⟨offset + 8, abi.sizeofPointer⟩]

/-- What the loop over the pipes of an interface reads. -/
def Abi.readPipes (offset : ℕ) (numberOfPipes : UInt32) : List FieldRead :=
  (List.range numberOfPipes.toNat).flatMap fun j =>
    abi.readPipe (offset + abi.offsetofPipes + j * abi.sizeofPipeInformation)

/-- `required_length`, a 32-bit number. -/
def Abi.requiredLength (numberOfPipes : UInt32) : UInt32 :=
  .ofNat (abi.sizeofInterfaceInformation + (numberOfPipes - 1).toNat * abi.sizeofPipeInformation)

/-- `USBPcapParseInterfaceInformation` from interface number `i` on, which stands at `offset`, with
the fields that it reads. -/
def Abi.parseInterfaceInformation (data : DeviceData) (allocated : ℕ → ℕ → Bool)
    (i offset interfacesLen : ℕ) : DeviceData × List FieldRead :=
  let interface := abi.interfaceAt memory offset
  let length := interface.length.toNat
  if _hlen : interfacesLen = 0 then (data, [])
  else if _hzero : length = 0 then (data, [readLength offset])
  else if interfacesLen < abi.sizeofInterfaceInformation then (data, [readLength offset])
  else if interfacesLen < length then (data, [readLength offset])
  else if 1 < interface.numberOfPipes ∧
      interfacesLen < (abi.requiredLength interface.numberOfPipes).toNat then
    (data, [readLength offset, abi.readNumberOfPipes offset])
  else
    let rest := parseInterfaceInformation (addPipes data interface (allocated i)) allocated (i + 1)
      (offset + length) (interfacesLen - length)
    (rest.1,
      [readLength offset, abi.readNumberOfPipes offset] ++ readClass offset ++
        abi.readPipes offset interface.numberOfPipes ++ rest.2)
termination_by interfacesLen
decreasing_by exact Nat.sub_lt (Nat.pos_of_ne_zero _hlen) (Nat.pos_of_ne_zero _hzero)

/-- The functions whose URBs have interface information. -/
inductive SelectFunction where
  | selectConfiguration
  | selectInterface
deriving DecidableEq, Repr

/-- Where the interface information begins. -/
def Abi.offsetofInterface : SelectFunction → ℕ
  | .selectConfiguration => abi.offsetofSelectConfigurationInterface
  | .selectInterface => abi.offsetofSelectInterfaceInterface

/-- What `USBPcapAnalyzeURB` does with the interface information of a URB of length `length`. -/
def Abi.parseSelected (function : SelectFunction) (length : UInt16) (data : DeviceData)
    (allocated : ℕ → ℕ → Bool) : DeviceData × List FieldRead :=
  if abi.offsetofInterface function < length.toNat then
    abi.parseInterfaceInformation memory data allocated 0 0
      (length.toNat - abi.offsetofInterface function)
  else (data, [])

end

/-- On 64 bits, the walk over the bytes does what the walk over the structures does. -/
theorem Abi.parseInterfaceInformation_x64 (memory : ℕ → UInt8) (data : DeviceData)
    (allocated : ℕ → ℕ → Bool) (i offset interfacesLen : ℕ) :
    (x64.parseInterfaceInformation memory data allocated i offset interfacesLen).1 =
      Driver.parseInterfaceInformation data (x64.interfaceAt memory) allocated i offset
        interfacesLen := by
  fun_induction Abi.parseInterfaceInformation x64 memory data allocated i offset interfacesLen with
  | case1 data i offset =>
    rw [Driver.parseInterfaceInformation, dif_pos (Or.inl rfl)]
  | case2 data i offset interfacesLen interface length hlen hzero =>
    rw [Driver.parseInterfaceInformation, dif_pos (Or.inr hzero)]
  | case3 data i offset interfacesLen interface length hlen hzero hsize =>
    rw [Driver.parseInterfaceInformation, dif_neg (not_or.mpr ⟨hlen, hzero⟩)]
    exact (if_pos hsize).symm
  | case4 data i offset interfacesLen interface length hlen hzero hsize hlength =>
    rw [Driver.parseInterfaceInformation, dif_neg (not_or.mpr ⟨hlen, hzero⟩)]
    exact ((if_neg hsize).trans (if_pos hlength)).symm
  | case5 data i offset interfacesLen interface length hlen hzero hsize hlength hpipes =>
    rw [Driver.parseInterfaceInformation, dif_neg (not_or.mpr ⟨hlen, hzero⟩)]
    exact ((if_neg hsize).trans ((if_neg hlength).trans (if_pos hpipes))).symm
  | case6 data i offset interfacesLen interface length hlen hzero hsize hlength hpipes rest ih =>
    rw [Driver.parseInterfaceInformation, dif_neg (not_or.mpr ⟨hlen, hzero⟩)]
    exact ih.trans ((if_neg hsize).trans ((if_neg hlength).trans (if_neg hpipes))).symm

/-! ## The fields that are read -/

namespace Abi

variable (abi : Abi) (memory : ℕ → UInt8)

/-- How far an interface with this many pipes goes, in exact numbers. -/
def exactLength (numberOfPipes : UInt32) : ℕ :=
  abi.offsetofPipes + numberOfPipes.toNat * abi.sizeofPipeInformation

/-- The checks on the interface at `offset` that do not look at its pipes, with `len` bytes left. -/
structure Checked (offset len : ℕ) : Prop where
  length_ne_zero : (abi.interfaceAt memory offset).length.toNat ≠ 0
  sizeof_le : abi.sizeofInterfaceInformation ≤ len
  length_le : (abi.interfaceAt memory offset).length.toNat ≤ len

/-- The interface at `offset` stands in the `len` bytes that are left, with its pipes. -/
structure Fits (offset len : ℕ) : Prop extends Checked abi memory offset len where
  pipes_le : abi.exactLength (abi.interfaceAt memory offset).numberOfPipes ≤ len

/-- The interface at `offset` has so many pipes that 32 bits cut the length that they require to one
that fits. -/
structure Wraps (offset len : ℕ) : Prop extends Checked abi memory offset len where
  le_exactLength : 2 ^ 32 ≤ abi.exactLength (abi.interfaceAt memory offset).numberOfPipes
  cut_le : abi.exactLength (abi.interfaceAt memory offset).numberOfPipes % 2 ^ 32 ≤ len

/-- From `len` bytes at `offset`, interface by interface, one gets to these bytes left at this
offset. -/
inductive Reaches : ℕ → ℕ → ℕ → ℕ → Prop where
  | here (offset len : ℕ) : Reaches offset len offset len
  | next {offset len o l : ℕ} (fits : abi.Fits memory offset len)
    (rest : Reaches (offset + (abi.interfaceAt memory offset).length.toNat)
      (len - (abi.interfaceAt memory offset).length.toNat) o l) : Reaches offset len o l

/-- At no interface that one gets to, a single byte is left or the required length wraps. -/
def Readable (offset len : ℕ) : Prop :=
  ∀ o l, abi.Reaches memory offset len o l → l ≠ 1 ∧ ¬ abi.Wraps memory o l

variable {abi memory}

/-- The structure ends with its first pipe. -/
theorem sizeofInterfaceInformation_eq :
    abi.sizeofInterfaceInformation = abi.offsetofPipes + abi.sizeofPipeInformation := by
  cases abi <;> rfl

/-- The fields of an interface in front of its pipes, and those of a pipe, stand in them. -/
theorem field_le (abi : Abi) :
    abi.offsetofNumberOfPipes + 4 ≤ abi.offsetofPipes ∧ 8 ≤ abi.offsetofPipes ∧
      abi.offsetofPipes < 2 ^ 8 ∧ 8 + abi.sizeofPointer ≤ abi.sizeofPipeInformation ∧
      abi.sizeofPipeInformation < 2 ^ 8 := by
  cases abi <;> decide

/-- From the second pipe on, `required_length` is the exact length cut to 32 bits. -/
theorem toNat_requiredLength {n : UInt32} (h : 1 < n) :
    (abi.requiredLength n).toNat = abi.exactLength n % 2 ^ 32 := by
  have hn : 1 < n.toNat := UInt32.lt_iff_toNat_lt.mp h
  have hsub : (n - 1).toNat = n.toNat - 1 :=
    UInt32.toNat_sub_of_le _ _ (UInt32.le_iff_toNat_le.mpr (Nat.le_of_lt hn))
  have hmul : n.toNat * abi.sizeofPipeInformation =
      (n.toNat - 1) * abi.sizeofPipeInformation + abi.sizeofPipeInformation := by
    rw [← Nat.succ_mul, Nat.succ_eq_add_one, Nat.sub_add_cancel (Nat.le_of_lt hn)]
  rw [requiredLength, UInt32.toNat_ofNat', hsub, exactLength, sizeofInterfaceInformation_eq, hmul,
    Nat.add_assoc, Nat.add_comm abi.sizeofPipeInformation]

/-- What gets past the check on the pipes. -/
theorem Checked.passes_iff {offset len : ℕ} (h : abi.Checked memory offset len)
    (hlen : len < 2 ^ 32) :
    ¬ (1 < (abi.interfaceAt memory offset).numberOfPipes ∧
        len < (abi.requiredLength (abi.interfaceAt memory offset).numberOfPipes).toNat) ↔
      abi.Fits memory offset len ∨ abi.Wraps memory offset len := by
  have hsize := h.sizeof_le
  rw [sizeofInterfaceInformation_eq] at hsize
  by_cases hpipes : 1 < (abi.interfaceAt memory offset).numberOfPipes
  · rw [toNat_requiredLength hpipes, not_and]
    constructor
    · intro hle
      have hcut := Nat.le_of_not_lt (hle hpipes)
      by_cases hexact : abi.exactLength (abi.interfaceAt memory offset).numberOfPipes < 2 ^ 32
      · rw [Nat.mod_eq_of_lt hexact] at hcut
        exact Or.inl ⟨h, hcut⟩
      · exact Or.inr ⟨h, Nat.le_of_not_lt hexact, hcut⟩
    · rintro (hfits | hwraps) -
      · have hle := hfits.pipes_le
        rw [Nat.mod_eq_of_lt (Nat.lt_of_le_of_lt hle hlen)]
        exact Nat.not_lt.mpr hle
      · exact Nat.not_lt.mpr hwraps.cut_le
  · refine iff_of_true (fun hno => hpipes hno.1) (Or.inl ⟨h, ?_⟩)
    have hone : (abi.interfaceAt memory offset).numberOfPipes.toNat ≤ 1 :=
      Nat.le_of_not_lt fun hlt => hpipes (UInt32.lt_iff_toNat_lt.mpr hlt)
    have hmul := Nat.mul_le_mul_right abi.sizeofPipeInformation hone
    rw [exactLength]
    omega

/-- Where nothing fits, the walk ends where it is. -/
theorem reaches_of_not_fits {offset len o l : ℕ} (h : ¬ abi.Fits memory offset len)
    (hreach : abi.Reaches memory offset len o l) : o = offset ∧ l = len := by
  cases hreach with
  | here => exact ⟨rfl, rfl⟩
  | next fits _ => exact absurd fits h

/-- Where the walk ends. -/
theorem readable_of_not_fits {offset len : ℕ} (h : ¬ abi.Fits memory offset len) :
    abi.Readable memory offset len ↔ len ≠ 1 ∧ ¬ abi.Wraps memory offset len := by
  constructor
  · exact fun hall => hall _ _ (.here offset len)
  · intro hhere o l hreach
    obtain ⟨rfl, rfl⟩ := reaches_of_not_fits h hreach
    exact hhere

/-- Where the walk goes on. -/
theorem Fits.readable_iff {offset len : ℕ} (h : abi.Fits memory offset len) (hlen : len < 2 ^ 32) :
    abi.Readable memory offset len ↔
      abi.Readable memory (offset + (abi.interfaceAt memory offset).length.toNat)
        (len - (abi.interfaceAt memory offset).length.toNat) := by
  constructor
  · exact fun hall o l hreach => hall o l (.next h hreach)
  · intro hall o l hreach
    cases hreach with
    | here =>
      have hfield := field_le abi
      have hsize := h.sizeof_le
      rw [sizeofInterfaceInformation_eq] at hsize
      refine ⟨by omega, fun hwraps => ?_⟩
      have hle := h.pipes_le
      have hge := hwraps.le_exactLength
      omega
    | next _ rest => exact hall o l rest

/-- The fields in front of the pipes stand in an interface that is large enough. -/
theorem stop_le_of_sizeof_le (offset : ℕ) {len : ℕ} (h : abi.sizeofInterfaceInformation ≤ len) :
    ∀ r ∈ [readLength offset, abi.readNumberOfPipes offset] ++ readClass offset,
      r.stop ≤ offset + len := by
  have hfield := field_le abi
  rw [sizeofInterfaceInformation_eq] at h
  intro r hr
  simp only [readClass, List.cons_append, List.nil_append, List.mem_cons, List.not_mem_nil,
    or_false] at hr
  rcases hr with rfl | rfl | rfl | rfl | rfl <;>
    simp only [FieldRead.stop, readLength, readNumberOfPipes] <;> omega

/-- The fields of a pipe stand in it. -/
theorem stop_le_of_mem_readPipe {offset : ℕ} {r : FieldRead} (h : r ∈ abi.readPipe offset) :
    r.stop ≤ offset + abi.sizeofPipeInformation := by
  have hfield := field_le abi
  simp only [readPipe, List.mem_cons, List.not_mem_nil, or_false] at h
  rcases h with rfl | rfl | rfl | rfl <;> simp only [FieldRead.stop] <;> omega

/-- The pipes of an interface are read up to its exact length. -/
theorem stop_le_of_mem_readPipes {offset : ℕ} {n : UInt32} {r : FieldRead}
    (h : r ∈ abi.readPipes offset n) : r.stop ≤ offset + abi.exactLength n := by
  obtain ⟨j, hj, hr⟩ := List.mem_flatMap.mp h
  have hstop := stop_le_of_mem_readPipe hr
  have hmul := Nat.mul_le_mul_right abi.sizeofPipeInformation (List.mem_range.mp hj)
  rw [Nat.succ_mul] at hmul
  rw [exactLength]
  omega

/-- A wrapped number of pipes is read far behind the 16 bits of `interfaces_len`. -/
theorem Wraps.exists_read {offset len : ℕ} (h : abi.Wraps memory offset len)
    (hlen : len < 2 ^ 16) :
    ∃ r ∈ abi.readPipes offset (abi.interfaceAt memory offset).numberOfPipes,
      offset + len < r.stop := by
  have hfield := field_le abi
  have hexact := h.le_exactLength
  generalize (abi.interfaceAt memory offset).numberOfPipes = n at hexact ⊢
  rw [exactLength] at hexact
  have hn : 0 < n.toNat := by
    refine Nat.pos_of_ne_zero fun hzero => ?_
    rw [hzero] at hexact
    omega
  -- the first field of the last pipe
  refine ⟨⟨offset + abi.offsetofPipes + (n.toNat - 1) * abi.sizeofPipeInformation, 2⟩,
    List.mem_flatMap.mpr ⟨n.toNat - 1, List.mem_range.mpr (by omega), List.mem_cons_self⟩, ?_⟩
  have hmul : n.toNat * abi.sizeofPipeInformation =
      (n.toNat - 1) * abi.sizeofPipeInformation + abi.sizeofPipeInformation := by
    rw [← Nat.succ_mul, Nat.succ_eq_add_one, Nat.sub_add_cancel hn]
  rw [FieldRead.stop]
  dsimp only
  omega

/-- The walk ends behind a `Length` that does not lead on. -/
theorem readable_of_not_checked {offset len : ℕ} (hne : len ≠ 0)
    (h : ¬ abi.Checked memory offset len) :
    (∀ r ∈ [readLength offset], r.stop ≤ offset + len) ↔ abi.Readable memory offset len := by
  rw [readable_of_not_fits fun hfits => h hfits.toChecked, List.forall_mem_singleton,
    stop_readLength]
  refine ⟨fun hstop => ⟨by omega, fun hwraps => h hwraps.toChecked⟩, fun hone => ?_⟩
  have := hone.1
  omega

/-- The walk from any offset on: everything that it reads stands in the bytes that are left exactly
when these are readable. -/
theorem stop_le_iff (abi : Abi) (memory : ℕ → UInt8) (data : DeviceData)
    (allocated : ℕ → ℕ → Bool) (i offset len : ℕ) (hlen : len < 2 ^ 16) :
    (∀ r ∈ (abi.parseInterfaceInformation memory data allocated i offset len).2,
        r.stop ≤ offset + len) ↔ abi.Readable memory offset len := by
  fun_induction abi.parseInterfaceInformation memory data allocated i offset len with
  | case1 data i offset =>
    -- nothing is left, and nothing is read
    have hnot : ¬ abi.Checked memory offset 0 := fun h =>
      absurd (Nat.le_zero.mp h.sizeof_le) (by cases abi <;> decide)
    rw [readable_of_not_fits fun h => hnot h.toChecked]
    exact iff_of_true (fun r hr => absurd hr List.not_mem_nil)
      ⟨by decide, fun h => hnot h.toChecked⟩
  | case2 data i offset len interface length hne hzero =>
    -- here and in the next two cases only `Length` is read, but before any check
    exact readable_of_not_checked hne fun h => h.length_ne_zero hzero
  | case3 data i offset len interface length hne hzero hsize =>
    exact readable_of_not_checked hne fun h => Nat.not_le.mpr hsize h.sizeof_le
  | case4 data i offset len interface length hne hzero hsize hlong =>
    exact readable_of_not_checked hne fun h => Nat.not_le.mpr hlong h.length_le
  | case5 data i offset len interface length hne hzero hsize hlong hpipes =>
    -- the pipes do not fit: only the header of the interface is read
    have hchecked : abi.Checked memory offset len :=
      ⟨hzero, Nat.le_of_not_lt hsize, Nat.le_of_not_lt hlong⟩
    have hstops := not_or.mp (mt (hchecked.passes_iff (by omega)).mpr (not_not_intro hpipes))
    have hinside := stop_le_of_sizeof_le offset hchecked.sizeof_le
    rw [readable_of_not_fits hstops.1]
    refine iff_of_true (fun r hr => hinside r (List.mem_append_left _ hr)) ⟨?_, hstops.2⟩
    have := hinside _ (List.mem_append_left _ List.mem_cons_self)
    rw [stop_readLength] at this
    omega
  | case6 data i offset len interface length hne hzero hsize hlong hpipes rest ih =>
    -- the pipes are read, and the next interface follows
    have hchecked : abi.Checked memory offset len :=
      ⟨hzero, Nat.le_of_not_lt hsize, Nat.le_of_not_lt hlong⟩
    have hinside := stop_le_of_sizeof_le offset hchecked.sizeof_le
    have hend : offset + length + (len - length) = offset + len := by omega
    rw [hend] at ih
    -- the check passes because they fit, or because the requirement wraps around
    rcases (hchecked.passes_iff (by omega)).mp hpipes with hfits | hwraps
    · rw [hfits.readable_iff (by omega), ← ih (by omega)]
      refine ⟨fun hall r hr => hall r (List.mem_append_right _ hr), fun hrest r hr => ?_⟩
      rcases List.mem_append.mp hr with hhere | hlater
      · rcases List.mem_append.mp hhere with hhead | hpipe
        · exact hinside r hhead
        · exact (stop_le_of_mem_readPipes hpipe).trans (Nat.add_le_add_left hfits.pipes_le _)
      · exact hrest r hlater
    · refine iff_of_false (fun hall => ?_) fun hreadable =>
        (hreadable _ _ (.here offset len)).2 hwraps
      obtain ⟨r, hr, hlt⟩ := hwraps.exists_read hlen
      exact Nat.not_le.mpr hlt (hall r (List.mem_append_left _ (List.mem_append_right _ hr)))

/-- The reads stay inside the request exactly when the list is readable from its beginning. -/
theorem parseSelected_stop_le_iff (data : DeviceData) (allocated : ℕ → ℕ → Bool)
    (function : SelectFunction) (length : UInt16) :
    (∀ r ∈ (abi.parseSelected memory function length data allocated).2,
        abi.offsetofInterface function + r.stop ≤ length.toNat) ↔
      abi.Readable memory 0 (length.toNat - abi.offsetofInterface function) := by
  have hlength := length.toNat_lt
  have h := abi.stop_le_iff memory data allocated 0 0
    (length.toNat - abi.offsetofInterface function) (by omega)
  rw [← h, parseSelected, Nat.zero_add]
  split
  · refine forall₂_congr fun r _ => ?_
    omega
  · rename_i hle
    rw [Nat.sub_eq_zero_of_le (Nat.le_of_not_lt hle), parseInterfaceInformation]
    exact iff_of_true (fun r hr => absurd hr List.not_mem_nil)
      (fun r hr => absurd hr List.not_mem_nil)

/-- **What the walk reads.** On both targets, for any memory and any 16-bit `interfaces_len`, every
field that `USBPcapParseInterfaceInformation` reads stands in the first `interfaces_len` bytes
exactly when, going from interface to interface, one never has a single byte left and never meets a
number of pipes whose required length wraps around to one that fits. The same goes for the URBs of
both functions, with their length. -/
theorem reads_inside_iff (abi : Abi) (memory : ℕ → UInt8) (data : DeviceData)
    (allocated : ℕ → ℕ → Bool) :
    (∀ interfacesLen : UInt16,
      (∀ r ∈ (abi.parseInterfaceInformation memory data allocated 0 0 interfacesLen.toNat).2,
        r.stop ≤ interfacesLen.toNat) ↔ abi.Readable memory 0 interfacesLen.toNat) ∧
    ∀ (function : SelectFunction) (length : UInt16),
      (∀ r ∈ (abi.parseSelected memory function length data allocated).2,
        abi.offsetofInterface function + r.stop ≤ length.toNat) ↔
      abi.Readable memory 0 (length.toNat - abi.offsetofInterface function) := by
  refine ⟨fun interfacesLen => ?_, parseSelected_stop_le_iff data allocated⟩
  have h := abi.stop_le_iff memory data allocated 0 0 interfacesLen.toNat
    interfacesLen.toNat_lt
  rwa [Nat.zero_add] at h

/-- Device data with empty tables. -/
def emptyData : DeviceData := ⟨1, fun _ => none, fun _ => none, none⟩

/-- An interface of 48 bytes with 2²⁹ + 1 pipes, which require 3 · 2³² bytes more than that. -/
def manyPipes : ℕ → UInt8
  | 0 => 48
  | 16 => 1
  | 19 => 0x20
  | _ => 0

/-- So many pipes wrap the size. -/
theorem manyPipes_wraps : x64.Wraps manyPipes 0 48 := by
  refine ⟨⟨?_, ?_, ?_⟩, ?_, ?_⟩ <;> decide

/-- A URB with one byte of interface information, and one whose number of pipes wraps. -/
theorem reads_outside :
    (¬ ∀ r ∈ (x64.parseSelected (fun _ => 0) .selectInterface 33 emptyData fun _ _ => true).2,
      32 + r.stop ≤ 33) ∧
    ¬ ∀ r ∈ (x64.parseSelected manyPipes .selectConfiguration 88 emptyData fun _ _ => true).2,
      40 + r.stop ≤ 88 := by
  constructor
  · intro h
    exact ((parseSelected_stop_le_iff _ _ _ _).mp h _ _ (.here 0 1)).1 rfl
  · intro h
    exact ((parseSelected_stop_le_iff _ _ _ _).mp h _ _ (.here 0 48)).2 manyPipes_wraps

end Abi

/-! ## What the endpoint table learns -/

/-- The entry that a pipe gets. -/
def PipeInformation.entry (pipe : PipeInformation) (deviceAddress : UInt16) : EndpointInfo where
  type := pipe.pipeType
  endpointAddress := pipe.endpointAddress
  deviceAddress := deviceAddress

/-- The pipes of an interface, in order. -/
def InterfaceInformation.pipeList (interface : InterfaceInformation) : List PipeInformation :=
  (List.range interface.numberOfPipes.toNat).map interface.pipes

/-- The last pipe with a handle. -/
def lastPipe (pipes : List PipeInformation) (handle : PipeHandle) : Option PipeInformation :=
  pipes.reverse.find? fun pipe => pipe.pipeHandle = handle

@[simp] theorem lastPipe_nil (handle : PipeHandle) : lastPipe [] handle = none := rfl

/-- The later list counts first. -/
theorem lastPipe_append (ps qs : List PipeInformation) (handle : PipeHandle) :
    lastPipe (ps ++ qs) handle = (lastPipe qs handle).or (lastPipe ps handle) := by
  rw [lastPipe, List.reverse_append, List.find?_append]
  rfl

/-- Of one pipe, that one is the last. -/
theorem lastPipe_singleton (pipe : PipeInformation) (handle : PipeHandle) :
    lastPipe [pipe] handle = if pipe.pipeHandle = handle then some pipe else none := by
  rw [lastPipe, List.reverse_singleton, List.find?_singleton]
  simp only [decide_eq_true_eq]

/-- An entry is updated or inserted. -/
theorem addEndpointInfo_allocated (table : PipeHandle → Option EndpointInfo)
    (pipe : PipeInformation) (deviceAddress : UInt16) :
    addEndpointInfo table pipe deviceAddress true =
      Function.update table pipe.pipeHandle (some (pipe.entry deviceAddress)) := by
  unfold addEndpointInfo
  split <;> rfl

/-- The table after entries for some pipes. -/
def learnPipes (table : PipeHandle → Option EndpointInfo) (pipes : List PipeInformation)
    (deviceAddress : UInt16) : PipeHandle → Option EndpointInfo :=
  pipes.foldl (fun table pipe =>
    Function.update table pipe.pipeHandle (some (pipe.entry deviceAddress))) table

/-- The last pipe with a handle has the entry; without one, the entry is as before. -/
theorem learnPipes_apply (table : PipeHandle → Option EndpointInfo) (pipes : List PipeInformation)
    (deviceAddress : UInt16) (handle : PipeHandle) :
    learnPipes table pipes deviceAddress handle =
      ((lastPipe pipes handle).map fun pipe => pipe.entry deviceAddress).or (table handle) := by
  induction pipes generalizing table with
  | nil => rfl
  | cons pipe pipes ih =>
    have hsplit := lastPipe_append [pipe] pipes handle
    rw [List.singleton_append, lastPipe_singleton] at hsplit
    rw [learnPipes, List.foldl_cons, ← learnPipes, ih, hsplit]
    cases lastPipe pipes handle with
    | some last => rfl
    | none =>
      by_cases hhandle : pipe.pipeHandle = handle
      · rw [if_pos hhandle, ← hhandle, Function.update_self]
        rfl
      · rw [if_neg hhandle, Function.update_of_ne (Ne.symm hhandle)]
        rfl

/-- Pipes are learnt one after the other. -/
theorem learnPipes_append (table : PipeHandle → Option EndpointInfo)
    (ps qs : List PipeInformation) (deviceAddress : UInt16) :
    learnPipes table (ps ++ qs) deviceAddress =
      learnPipes (learnPipes table ps deviceAddress) qs deviceAddress :=
  List.foldl_append

/-- The loop over the pipes of an interface. -/
theorem addPipes_allocated (data : DeviceData) (interface : InterfaceInformation) :
    addPipes data interface (fun _ => true) =
      { data with
        endpointTable :=
          learnPipes data.endpointTable interface.pipeList data.deviceAddress } := by
  rw [addPipes, InterfaceInformation.pipeList, learnPipes, List.foldl_map]
  generalize List.range interface.numberOfPipes.toNat = js
  induction js generalizing data with
  | nil => rfl
  | cons j js ih =>
    rw [List.foldl_cons, ih, List.foldl_cons, addEndpointInfo_allocated]

namespace Abi

variable (abi : Abi) (memory : ℕ → UInt8)

/-- The `len` bytes at `offset` are a well-formed list of interfaces with these pipes. The list ends
with the last byte or with a zero `Length`. -/
inductive Lists : ℕ → ℕ → List (List PipeInformation) → Prop where
  | done (offset : ℕ) : Lists offset 0 []
  | zero {offset len : ℕ} (two_le : 2 ≤ len) (zero : (abi.interfaceAt memory offset).length = 0) :
    Lists offset len []
  | interface {offset len : ℕ} {pipes : List (List PipeInformation)}
    (length_eq : (abi.interfaceAt memory offset).length.toNat =
      abi.exactLength (abi.interfaceAt memory offset).numberOfPipes)
    (length_le : (abi.interfaceAt memory offset).length.toNat ≤ len)
    (rest : Lists (offset + (abi.interfaceAt memory offset).length.toNat)
      (len - (abi.interfaceAt memory offset).length.toNat) pipes) :
    Lists offset len ((abi.interfaceAt memory offset).pipeList :: pipes)

variable {abi memory}

/-- What is too short for an interface with a pipe holds no pipes. -/
theorem Lists.flatten_eq_nil {offset len : ℕ} {pipes : List (List PipeInformation)}
    (h : abi.Lists memory offset len pipes) (hsize : len < abi.sizeofInterfaceInformation) :
    pipes.flatten = [] := by
  induction h with
  | done | zero => rfl
  | @interface offset len pipes length_eq length_le _ ih =>
    have hpipes : (abi.interfaceAt memory offset).numberOfPipes.toNat = 0 := by
      by_contra hne
      have hmul := Nat.mul_le_mul_right abi.sizeofPipeInformation (Nat.pos_of_ne_zero hne)
      rw [exactLength] at length_eq
      rw [sizeofInterfaceInformation_eq] at hsize
      omega
    rw [List.flatten_cons, ih (Nat.lt_of_le_of_lt (Nat.sub_le _ _) hsize),
      InterfaceInformation.pipeList, hpipes]
    rfl

/-- A zero `Length` ends the walk. -/
theorem parse_of_zero {offset : ℕ} (h : (abi.interfaceAt memory offset).length = 0)
    (data : DeviceData) (allocated : ℕ → ℕ → Bool) (i len : ℕ) :
    (abi.parseInterfaceInformation memory data allocated i offset len).1 = data := by
  rw [parseInterfaceInformation]
  dsimp only
  split
  · rfl
  · rw [dif_pos (by rw [h]; rfl)]

/-- What is too short for a structure ends the walk. -/
theorem parse_of_short {len : ℕ} (h : len < abi.sizeofInterfaceInformation) (data : DeviceData)
    (allocated : ℕ → ℕ → Bool) (i offset : ℕ) :
    (abi.parseInterfaceInformation memory data allocated i offset len).1 = data := by
  rw [parseInterfaceInformation]
  dsimp only
  split
  · rfl
  · split <;> rfl

/-- An interface that fits is entered, and the walk goes on behind it. -/
theorem Fits.parse_eq {offset len : ℕ} (h : abi.Fits memory offset len) (hlen : len < 2 ^ 32)
    (data : DeviceData) (allocated : ℕ → ℕ → Bool) (i : ℕ) :
    (abi.parseInterfaceInformation memory data allocated i offset len).1 =
      (abi.parseInterfaceInformation memory
        (addPipes data (abi.interfaceAt memory offset) (allocated i)) allocated (i + 1)
        (offset + (abi.interfaceAt memory offset).length.toNat)
        (len - (abi.interfaceAt memory offset).length.toNat)).1 := by
  have hpos : 0 < len :=
    Nat.lt_of_lt_of_le (Nat.pos_of_ne_zero h.length_ne_zero) h.length_le
  have hpasses := (h.toChecked.passes_iff hlen).mpr (Or.inl h)
  rw [parseInterfaceInformation]
  dsimp only
  rw [dif_neg hpos.ne', dif_neg h.length_ne_zero, if_neg (Nat.not_lt.mpr h.sizeof_le),
    if_neg (Nat.not_lt.mpr h.length_le), if_neg hpasses]

/-- The walk over a well-formed list enters its pipes in order. -/
theorem Lists.parse_eq {offset len : ℕ} {pipes : List (List PipeInformation)}
    (h : abi.Lists memory offset len pipes) (hlen : len < 2 ^ 32) (data : DeviceData) (i : ℕ) :
    (abi.parseInterfaceInformation memory data (fun _ _ => true) i offset len).1 =
      { data with
        endpointTable := learnPipes data.endpointTable pipes.flatten data.deviceAddress } := by
  induction h generalizing data i with
  | done offset => exact parse_of_short (by cases abi <;> decide) data _ i offset
  | zero _ zero => exact parse_of_zero zero data _ i _
  | @interface offset len pipes length_eq length_le rest ih =>
    by_cases hsize : abi.sizeofInterfaceInformation ≤ len
    · have hne : (abi.interfaceAt memory offset).length.toNat ≠ 0 := by
        have hfield := field_le abi
        rw [length_eq, exactLength]
        omega
      have hfits : abi.Fits memory offset len := ⟨⟨hne, hsize, length_le⟩, length_eq ▸ length_le⟩
      rw [hfits.parse_eq hlen, ih (Nat.lt_of_le_of_lt (Nat.sub_le _ _) hlen), addPipes_allocated,
        List.flatten_cons, learnPipes_append]
    · -- a last interface without pipes is shorter than the structure
      have hshort := Nat.lt_of_not_le hsize
      rw [parse_of_short hshort,
        (Lists.interface length_eq length_le rest).flatten_eq_nil hshort]
      rfl

/-- **What the endpoint table learns.** On both targets, for any well-formed list of interfaces of
at most 65535 bytes and any device data, a lookup after `USBPcapParseInterfaceInformation` gives the
last pipe of the list with the handle, under the device's address, or else what it gave before. -/
theorem lookup_parse (abi : Abi) (memory : ℕ → UInt8) (data : DeviceData)
    {interfacesLen : UInt16} {pipes : List (List PipeInformation)}
    (h : abi.Lists memory 0 interfacesLen.toNat pipes) (handle : PipeHandle) :
    retrieveEndpointInfo
        (abi.parseInterfaceInformation memory data (fun _ _ => true) 0 0 interfacesLen.toNat).1
        handle =
      ((lastPipe pipes.flatten handle).map fun pipe => pipe.entry data.deviceAddress).or
        (retrieveEndpointInfo data handle) := by
  have hlen : interfacesLen.toNat < 2 ^ 32 :=
    Nat.lt_of_lt_of_le interfacesLen.toNat_lt (by decide)
  rw [h.parse_eq hlen]
  exact learnPipes_apply ..

/-- An interface without pipes, one with two pipes of the same handle, and a zero `Length`. -/
def twoInterfaces (offset : ℕ) : UInt8 :=
  [24, 0, 0, 0, 3, 0, 0, 0, 0, 0, 0, 0, 0, 0, 0, 0, 0, 0, 0, 0, 0, 0, 0, 0,
    72, 0, 1, 0, 8, 6, 80, 0, 0, 0, 0, 0, 0, 0, 0, 0, 2, 0, 0, 0, 0, 0, 0, 0,
    64, 0, 2, 0, 2, 0, 0, 0, 7, 0, 0, 0, 0, 0, 0, 0, 0, 0, 0, 0, 0, 0, 0, 0,
    64, 0, 0x81, 0, 3, 0, 0, 0, 7, 0, 0, 0, 0, 0, 0, 0, 0, 0, 0, 0, 0, 0, 0, 0].getD offset 0

/-- The memory lists two interfaces. -/
theorem lists_twoInterfaces :
    x64.Lists twoInterfaces 0 98
      [(x64.interfaceAt twoInterfaces 0).pipeList, (x64.interfaceAt twoInterfaces 24).pipeList] :=
  .interface (by decide) (by decide)
    (.interface (by decide) (by decide) (.zero (by decide) (by decide)))

/-- The pipe of the second one is found. -/
theorem lookup_parse_twoInterfaces :
    retrieveEndpointInfo
      (x64.parseInterfaceInformation twoInterfaces emptyData (fun _ _ => true) 0 0 98).1 7 =
        some ⟨.interrupt, 0x81, 1⟩ :=
  (@lookup_parse x64 twoInterfaces emptyData 98 _ lists_twoInterfaces 7).trans (by decide)

end Abi

end UsbPcap.Driver
