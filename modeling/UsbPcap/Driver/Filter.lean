import UsbPcap.Format.Pcap
import UsbPcap.Cmd.AddressFilter

/-!
# The address filter of a root hub

`USBPcapHelperFunctions.c` repeats the filter functions of `iocontrol.c`. The filter of the driver
arrives as the 17 bytes of an `IOCTL_USBPCAP_START_FILTERING`, so its `filterAll` can be any byte;
only the value `TRUE` counts.
-/

namespace UsbPcap.Driver

open Format
open Cmd (getAddressRangeAndIndex bit)

/-- `USBPCAP_ADDRESS_FILTER` -/
structure AddressFilter where
  addresses : Fin 4 → UInt32
  filterAll : UInt8

/-- `sizeof(USBPCAP_ADDRESS_FILTER)` -/
def sizeofAddressFilter : ℕ := 17

namespace AddressFilter

/-- The filter that `memset` leaves behind. -/
def zero : AddressFilter where
  addresses _ := 0
  filterAll := 0

/-- The filter in the input buffer of a request. -/
def ofBytes (systemBuffer : List UInt8) : AddressFilter where
  addresses i := UInt32.ofNat (field (4 * i) 4 systemBuffer)
  filterAll := UInt8.ofNat (field 16 1 systemBuffer)

/-- The bit of the address is set. -/
def Bit (filter : AddressFilter) (address : ℤ) : Prop :=
  ∃ range index, getAddressRangeAndIndex address = some (range, index) ∧
    filter.addresses range &&& bit index ≠ 0

end AddressFilter

/-- `USBPcapIsDeviceFiltered` -/
def isDeviceFiltered (filter : AddressFilter) (address : ℤ) : Bool :=
  if filter.filterAll = 1 then true
  else
    match getAddressRangeAndIndex address with
    | none => true
    | some (range, index) => filter.addresses range &&& bit index ≠ 0

/-- `USBPcapSetDeviceFiltered`; `none` when it returns `FALSE`. -/
def setDeviceFiltered (filter : AddressFilter) (address : ℤ) : Option AddressFilter :=
  match getAddressRangeAndIndex address with
  | none => none
  | some (range, index) =>
    some { filter with
      addresses := Function.update filter.addresses range (filter.addresses range ||| bit index) }

/-- What `USBPcapGetDeviceUSBInfo` does to the filter when it has got the address of a started
device. -/
def filterStartedDevice (filter : AddressFilter) (deviceAddress : UInt16) : AddressFilter :=
  if isDeviceFiltered filter 0 then (setDeviceFiltered filter deviceAddress.toNat).getD filter
  else filter

/-! ## Bits -/

theorem getAddressRangeAndIndex_inj {a b : ℤ} {x : Fin 4 × Fin 32}
    (ha : getAddressRangeAndIndex a = some x) (hb : getAddressRangeAndIndex b = some x) :
    a = b := by
  unfold getAddressRangeAndIndex at ha hb
  split at ha
  · cases ha
  · split at hb
    · cases hb
    · rw [← hb, Option.some.injEq, Prod.mk.injEq, Fin.mk.injEq, Fin.mk.injEq] at ha
      omega

/-- Setting a bit leaves the other ones and `filterAll` alone. -/
theorem setDeviceFiltered_bit {filter filter' : AddressFilter} {address : ℤ}
    (h : setDeviceFiltered filter address = some filter') :
    filter'.filterAll = filter.filterAll ∧
      ∀ b, filter'.Bit b ↔ b = address ∨ filter.Bit b := by
  unfold setDeviceFiltered at h
  split at h
  · cases h
  · rename_i range index hx
    obtain rfl := Option.some.inj h
    refine ⟨rfl, fun b => ?_⟩
    constructor
    · rintro ⟨range', index', hb, hbit⟩
      by_cases hrange : range' = range
      · subst hrange
        simp only [Function.update_self] at hbit
        rcases (Cmd.or_bit_and_bit _ _ _).mp hbit with rfl | hold
        · exact Or.inl (getAddressRangeAndIndex_inj hb hx)
        · exact Or.inr ⟨range', index', hb, hold⟩
      · simp only [Function.update_of_ne hrange] at hbit
        exact Or.inr ⟨range', index', hb, hbit⟩
    · rintro (rfl | ⟨range', index', hb, hbit⟩)
      · refine ⟨range, index, hx, ?_⟩
        simp only [Function.update_self]
        exact (Cmd.or_bit_and_bit _ _ _).mpr (Or.inl rfl)
      · refine ⟨range', index', hb, ?_⟩
        by_cases hrange : range' = range
        · subst hrange
          simp only [Function.update_self]
          exact (Cmd.or_bit_and_bit _ _ _).mpr (Or.inr hbit)
        · simp only [Function.update_of_ne hrange]
          exact hbit

theorem isDeviceFiltered_zero_address {filter : AddressFilter} :
    isDeviceFiltered filter 0 = true ↔ filter.filterAll = 1 ∨ filter.Bit 0 := by
  have hzero : getAddressRangeAndIndex 0 = some (0, 0) := by decide
  unfold isDeviceFiltered
  rw [hzero]
  by_cases hall : filter.filterAll = 1
  · rw [if_pos hall]
    exact iff_of_true rfl (Or.inl hall)
  · rw [if_neg hall, decide_eq_true_eq, or_iff_right hall]
    constructor
    · exact fun h => ⟨0, 0, hzero, h⟩
    · rintro ⟨range, index, heq, h⟩
      obtain ⟨rfl, rfl⟩ := Prod.mk.inj (Option.some.inj (hzero.symm.trans heq))
      exact h

/-- A started device changes the filter only by its own bit, and only while new devices are
captured. -/
theorem filterStartedDevice_cases (filter : AddressFilter) (deviceAddress : UInt16) :
    filterStartedDevice filter deviceAddress = filter ∨
      ((filter.filterAll = 1 ∨ filter.Bit 0) ∧
        (filterStartedDevice filter deviceAddress).filterAll = filter.filterAll ∧
        ∀ b, (filterStartedDevice filter deviceAddress).Bit b ↔
          b = deviceAddress.toNat ∨ filter.Bit b) := by
  unfold filterStartedDevice
  split
  · rename_i hzero
    cases hset : setDeviceFiltered filter deviceAddress.toNat with
    | none => exact Or.inl rfl
    | some filter' =>
      exact Or.inr ⟨isDeviceFiltered_zero_address.mp hzero, setDeviceFiltered_bit hset⟩
  · exact Or.inl rfl

/-- Nothing is added to the empty filter. -/
theorem filterStartedDevice_zero (deviceAddress : UInt16) :
    filterStartedDevice .zero deviceAddress = .zero := by
  have hoff : isDeviceFiltered .zero 0 = false := by decide
  rw [filterStartedDevice, hoff]
  rfl

end UsbPcap.Driver
