import UsbPcap.Cmd.WorkerRoundTrip

/-!
# The buffer of the worker's command line

`cmdLineLen` counts every format with its specifiers and allows nine characters for `bufferlen` and
ten for `snaplen`; the other values only have the two characters of their specifiers. What is left
over by an option that is not printed pays for them, so only configurations that print nearly
everything run out of space (`worker_line_fits_iff`).
-/

namespace UsbPcap.Cmd

open CText

/-- The text behind `-o`: the file, or the pipe for standard output. -/
def workerTarget (device filename : CStr) : CStr :=
  if filename = ['-'] then pipeName device else filename

/-- The buffer has room for what is printed and its NUL, and no `swprintf_s` fails. The device has
one wide character for each byte. -/
def LineFits (device filename : CStr) (data : CaptureData) : Prop :=
  let target := workerTarget device filename
  (printed device target data).flatten.length + 1 ≤ cmdLineLen .singleByte device target data ∧
    generateWorkerCommandLine .singleByte device filename data =
      some (printed device target data).flatten

/-- The characters of the printed values. -/
def valuesLength (data : CaptureData) : ℕ :=
  (decimal data.bufferlen.toNat).length + (decimal data.snaplen.toNat).length +
    (decimal data.durationSeconds.toNat).length + (decimal data.appFilter.vendorId.toNat).length +
    (decimal data.appFilter.productId.toNat).length +
    (decimal data.appFilter.endpoint.toNat).length +
    (transferTypeToText data.appFilter.transferType).length

/-- Every option but possibly `--devices` is printed, and the values are long: more than 51
characters without an address list and more than 40 with one. -/
structure Overlong (data : CaptureData) : Prop where
  snaplen : data.snaplen ≠ defaultSnapshotLength
  captureAll : data.captureAll = true
  captureNew : data.captureNew = true
  injectDescriptors : data.injectDescriptors = true
  duration : 0 < data.durationSeconds
  appFilter : data.appFilter.enabled = true
  vendorId : data.appFilter.hasVendorId = true
  productId : data.appFilter.hasProductId = true
  endpoint : data.appFilter.hasEndpoint = true
  transferType : data.appFilter.hasTransferType = true
  onMatch : data.storeMode = storeModeOnMatch
  long : 51 < valuesLength data + if data.addressList.isSome then 11 else 0

theorem length_transferTypeToText_le (transfer : UInt8) :
    (transferTypeToText transfer).length ≤ 11 := by
  unfold transferTypeToText
  repeat' split
  all_goals decide

theorem ite_le_self (b : Prop) [Decidable b] (n : ℕ) : (if b then n else 0) ≤ n := by
  split
  · exact le_refl n
  · exact Nat.zero_le n

/-- No part of the line is so long that two could make up for a missing one. -/
theorem overlong_iff {data : CaptureData} (h : data.Configured) :
    233 < optionsLength data ↔ Overlong data := by
  have hbuf : (decimal data.bufferlen.toNat).length ≤ 9 := by
    refine length_decimal_le (by decide) ?_
    have hle := (not_or.mp h.bufferlen.2).2
    rw [UInt32.lt_iff_toNat_lt] at hle
    change ¬ 134217728 < _ at hle
    omega
  have hsnap := length_decimal_le (k := 10) (by decide)
    (lt_trans data.snaplen.toNat_lt (by decide))
  have hdur := length_decimal_le (k := 10) (by decide)
    (lt_trans data.durationSeconds.toNat_lt (by decide))
  have hvid := length_decimal_le (k := 5) (by decide)
    (lt_trans data.appFilter.vendorId.toNat_lt (by decide))
  have hpid := length_decimal_le (k := 5) (by decide)
    (lt_trans data.appFilter.productId.toNat_lt (by decide))
  have hep := length_decimal_le (k := 3) (by decide)
    (lt_trans data.appFilter.endpoint.toNat_lt (by decide))
  have htt := length_transferTypeToText_le data.appFilter.transferType
  unfold optionsLength
  constructor
  · intro hlong
    have h1 := ite_le_self (data.snaplen ≠ defaultSnapshotLength)
      (4 + (decimal data.snaplen.toNat).length)
    have h2 := ite_le_self (data.addressList.isSome = true) 11
    have h3 := ite_le_self (data.captureAll = true) 27
    have h4 := ite_le_self (data.captureNew = true) 27
    have h5 := ite_le_self (data.injectDescriptors = true) 21
    have h6 := ite_le_self (0 < data.durationSeconds)
      (12 + (decimal data.durationSeconds.toNat).length)
    have h7 := ite_le_self (data.appFilter.enabled = true) 13
    have h8 := ite_le_self (data.appFilter.hasVendorId = true)
      (13 + (decimal data.appFilter.vendorId.toNat).length)
    have h9 := ite_le_self (data.appFilter.hasProductId = true)
      (14 + (decimal data.appFilter.productId.toNat).length)
    have h10 := ite_le_self (data.appFilter.hasEndpoint = true)
      (12 + (decimal data.appFilter.endpoint.toNat).length)
    have h11 := ite_le_self (data.appFilter.hasTransferType = true)
      (17 + (transferTypeToText data.appFilter.transferType).length)
    have h12 := ite_le_self (data.storeMode = storeModeOnMatch) 22
    -- without any one of the parts, the others cannot exceed 233
    constructor
    case snaplen =>
      intro hneg
      rw [if_neg (not_not.mpr hneg)] at hlong
      omega
    case long =>
      unfold valuesLength
      omega
    all_goals
      by_contra hneg
      rw [if_neg hneg] at hlong
      omega
  · intro ho
    have hlong := ho.long
    unfold valuesLength at hlong
    rw [if_pos ho.snaplen, if_pos ho.captureAll, if_pos ho.captureNew, if_pos ho.injectDescriptors,
      if_pos ho.duration, if_pos ho.appFilter, if_pos ho.vendorId, if_pos ho.productId,
      if_pos ho.endpoint, if_pos ho.transferType, if_pos ho.onMatch]
    omega

/-- **The worker's command line fits its buffer** exactly when the configuration is not overlong,
whatever the device, and for a file as well as for standard output. -/
theorem worker_line_fits_iff {opts : List Opt} {s : Settings}
    (hparse : parseOptions opts = .ok s) (device filename : CStr) :
    LineFits device filename s.data ↔ ¬ Overlong s.data := by
  have hlength := length_printed_lt_iff .singleByte device (workerTarget device filename) s.data
  change _ ↔ _ ≤ 233 + device.length at hlength
  rw [← overlong_iff (configured_parseOptions hparse), Nat.not_lt,
    ← Nat.add_le_add_iff_right (n := device.length), ← hlength]
  constructor
  · intro hfits
    exact hfits.1
  · intro hlt
    exact ⟨hlt, swprintfAll_eq_some.mpr ⟨(List.nil_append _).symm, fun _ => hlt⟩⟩

/-- All options with the longest values. -/
def everyOption : List Opt :=
  [.device "\\\\.\\USBPcap1".toList, .output "-".toList, .bufferlen "134217728".toList,
    .snaplen "2147483647".toList, .captureFromAllDevices, .captureFromNewDevices,
    .injectDescriptors, .duration "4294967295".toList, .appFilter, .vendorId "65535".toList,
    .productId "65535".toList, .endpoint "255".toList, .transferType "isochronous".toList,
    .storeMode "on-match".toList]

/-- Without `--inject-descriptors` there is room for all the others. -/
theorem worker_line_fits_without_inject :
    ∃ s, parseOptions (everyOption.eraseP (· = .injectDescriptors)) = .ok s ∧
      LineFits "\\\\.\\USBPcap1".toList "-".toList s.data := by
  refine ⟨_, rfl, (@worker_line_fits_iff (everyOption.eraseP (· = .injectDescriptors)) _ rfl
    _ _).mpr fun ho => ?_⟩
  exact absurd ho.injectDescriptors (by decide)

/-- With every option, the line does not fit: 235 characters where there is room for 233. -/
theorem everyOption_does_not_fit :
    ¬ ∀ (opts : List Opt) (s : Settings) (device filename : CStr), parseOptions opts = .ok s →
      s.data.device = some device → s.data.filename = some filename →
      LineFits device filename s.data := by
  intro h
  obtain ⟨s, hs⟩ : ∃ s, parseOptions everyOption = .ok s := ⟨_, rfl⟩
  have hlength : (parseOptions everyOption).toOption.map (fun s => optionsLength s.data) =
      some 235 := rfl
  have hdevice : (parseOptions everyOption).toOption.bind (fun s => s.data.device) =
      some "\\\\.\\USBPcap1".toList := rfl
  have hfilename : (parseOptions everyOption).toOption.bind (fun s => s.data.filename) =
      some "-".toList := rfl
  rw [hs] at hlength hdevice hfilename
  have hfits := h everyOption s _ _ hs hdevice hfilename
  have hshort := (length_printed_lt_iff _ _ _ _).mp hfits.1
  change _ ≤ 233 + (List.length _) at hshort
  have hlong : optionsLength s.data = 235 := Option.some.inj hlength
  omega

end UsbPcap.Cmd
