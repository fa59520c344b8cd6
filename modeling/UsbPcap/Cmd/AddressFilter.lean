import UsbPcap.Lib.CText
import Mathlib.Data.Nat.Bitwise
import Mathlib.Logic.Function.Basic

/-!
# The address filter

`USBPCAP_ADDRESS_FILTER` is a bitmap of 128 device addresses. It is built from a comma-separated
list; `initAddressFilter_addressText` says that a list printed from addresses sets exactly their
bits, and `initLoop_iff` what any list does.
-/

namespace UsbPcap.Cmd

open CText

/-! ## `iocontrol.c` -/

/-- `USBPCAP_ADDRESS_FILTER` -/
structure AddressFilter where
  addresses : Fin 4 → UInt32
  filterAll : Bool

/-- `USBPcapGetAddressRangeAndIndex` -/
def getAddressRangeAndIndex (address : ℤ) : Option (Fin 4 × Fin 32) :=
  if h : address < 0 ∨ 127 < address then none
  else some (⟨address.toNat / 32, by omega⟩, ⟨address.toNat % 32, by omega⟩)

/-- The bit `1 << index`. -/
def bit (index : Fin 32) : UInt32 := 1 <<< UInt32.ofNat index

/-- `USBPcapIsDeviceFiltered` -/
def isDeviceFiltered (filter : AddressFilter) (address : ℤ) : Bool :=
  if filter.filterAll then true
  else
    match getAddressRangeAndIndex address with
    | none => true
    | some (range, index) => filter.addresses range &&& bit index ≠ 0

/-- `USBPcapSetDeviceFiltered` -/
def setDeviceFiltered (filter : AddressFilter) (address : ℤ) : Option AddressFilter :=
  match getAddressRangeAndIndex address with
  | none => none
  | some (range, index) =>
    some { filter with
      addresses := Function.update filter.addresses range (filter.addresses range ||| bit index) }

/-- The loop of `USBPcapInitAddressFilter` over the list. -/
def initLoop (tmp : AddressFilter) : List Char → Option AddressFilter
  | [] => some tmp
  | c :: cs =>
    if c.isDigit then
      match setDeviceFiltered tmp (atoi (c :: cs)) with
      | none => none
      | some tmp => initLoop tmp (cs.dropWhile Char.isDigit)
    else if c = ',' then initLoop tmp cs
    else none
termination_by list => list.length
decreasing_by
  · have := (List.dropWhile_suffix Char.isDigit (l := cs)).length_le
    simp only [List.length_cons]
    omega
  · simp only [List.length_cons]
    omega

/-- The filter in which no bit is set. -/
def AddressFilter.zero (filterAll : Bool) : AddressFilter where
  addresses _ := 0
  filterAll := filterAll

/-- `USBPcapInitAddressFilter`; `none` when it returns `FALSE`. -/
def initAddressFilter (list : Option (List Char)) (filterAll : Bool) : Option AddressFilter :=
  match list with
  | none => some (.zero filterAll)
  | some list => initLoop (.zero filterAll) list

/-! ## Bits -/

/-- Each bit is a power of two. -/
theorem toNat_bit (i : Fin 32) : (bit i).toNat = 2 ^ i.val := by
  revert i
  decide

/-- Testing a bit of a word. -/
theorem and_bit_ne_zero (x : UInt32) (i : Fin 32) :
    x &&& bit i ≠ 0 ↔ x.toNat.testBit i = true := by
  have hpow : 2 ^ i.val ≠ 0 := Nat.ne_of_gt (Nat.two_pow_pos i)
  rw [ne_eq, ← UInt32.toNat_inj, UInt32.toNat_and, toNat_bit, Nat.and_two_pow, UInt32.toNat_zero]
  cases x.toNat.testBit i with
  | true => simp only [Bool.toNat_true, Nat.one_mul, hpow, not_false_eq_true]
  | false => simp only [Bool.toNat_false, Nat.zero_mul, not_true, Bool.false_eq_true]

/-- Setting a bit changes no other one. -/
theorem or_bit_and_bit (x : UInt32) (i j : Fin 32) :
    (x ||| bit i) &&& bit j ≠ 0 ↔ j = i ∨ x &&& bit j ≠ 0 := by
  rw [and_bit_ne_zero, and_bit_ne_zero, UInt32.toNat_or, Nat.testBit_or, toNat_bit,
    Nat.testBit_two_pow, Bool.or_eq_true, decide_eq_true_eq, Fin.ext_iff, or_comm, eq_comm]

/-! ## Addresses -/

/-- An address in range, by its word and bit. -/
theorem getAddressRangeAndIndex_ofNat {a : ℕ} (ha : a ≤ 127) :
    getAddressRangeAndIndex a = some (⟨a / 32, by omega⟩, ⟨a % 32, by omega⟩) := by
  unfold getAddressRangeAndIndex
  rw [dif_neg (by omega)]
  rfl

/-- An empty filter selects no device. -/
theorem isDeviceFiltered_zero {a : ℕ} (ha : a ≤ 127) :
    isDeviceFiltered (.zero false) a = false := by
  unfold isDeviceFiltered
  rw [getAddressRangeAndIndex_ofNat ha]
  simp [AddressFilter.zero]

/-- Setting an address filters this address in addition to the others. -/
theorem setDeviceFiltered_ok {filter : AddressFilter} (hall : filter.filterAll = false) {a : ℕ}
    (ha : a ≤ 127) :
    ∃ filter', setDeviceFiltered filter a = some filter' ∧ filter'.filterAll = false ∧
      ∀ b : ℕ, b ≤ 127 →
        (isDeviceFiltered filter' b = true ↔ b = a ∨ isDeviceFiltered filter b = true) := by
  unfold setDeviceFiltered
  rw [getAddressRangeAndIndex_ofNat ha]
  refine ⟨_, rfl, hall, fun b hb => ?_⟩
  unfold isDeviceFiltered
  dsimp only
  rw [hall, getAddressRangeAndIndex_ofNat hb, if_neg Bool.false_ne_true]
  dsimp only
  rw [if_neg Bool.false_ne_true, decide_eq_true_eq, decide_eq_true_eq]
  by_cases hword : b / 32 = a / 32
  · have hbit : b = a ↔ b % 32 = a % 32 := by omega
    simp only [hword, Function.update_self, or_bit_and_bit, Fin.mk.injEq, hbit]
  · have hne : (⟨b / 32, by omega⟩ : Fin 4) ≠ ⟨a / 32, by omega⟩ := by
      rw [ne_eq, Fin.mk.injEq]
      exact hword
    have hab : b ≠ a := by
      rintro rfl
      exact hword rfl
    rw [Function.update_of_ne hne]
    simp only [hab, false_or]

/-! ## Lists of addresses -/

/-- The end of the list ends the loop. -/
theorem initLoop_nil (tmp : AddressFilter) : initLoop tmp [] = some tmp := by
  rw [initLoop]

/-- A number in the list is set. -/
theorem initLoop_decimal {tmp tmp' : AddressFilter} {a : ℕ} (ha : a ≤ 127)
    (hset : setDeviceFiltered tmp a = some tmp') {rest : List Char} (hrest : StopsDigits rest) :
    initLoop tmp (decimal a ++ rest) = initLoop tmp' rest := by
  obtain ⟨c, cs, hc⟩ := List.exists_cons_of_ne_nil (decimal_ne_nil a)
  have hdigit : c.isDigit = true := isDigit_of_mem_decimal (by rw [hc]; exact List.mem_cons_self)
  have hatoi := atoi_decimal_append (show a < 2 ^ 31 by omega) hrest
  have hdrop := dropWhile_decimal_append a hrest
  rw [hc, List.cons_append] at hatoi hdrop ⊢
  rw [List.dropWhile_cons_of_pos hdigit] at hdrop
  rw [initLoop, if_pos hdigit, hatoi, hset]
  dsimp only
  rw [hdrop]

/-- A comma in the list is skipped. -/
theorem initLoop_comma (tmp : AddressFilter) (rest : List Char) :
    initLoop tmp (',' :: rest) = initLoop tmp rest := by
  rw [initLoop, if_neg (by decide), if_pos rfl]

/-- Addresses behind the first one, each with its comma. -/
def moreAddresses (as : List ℕ) : List Char := as.flatMap fun a => ',' :: decimal a

/-- A comma ends each number. -/
theorem stopsDigits_moreAddresses (as : List ℕ) : StopsDigits (moreAddresses as) := by
  cases as with
  | nil => rfl
  | cons a as => rfl

/-- The comma-separated list of addresses. -/
def addressText : List ℕ → List Char
  | [] => []
  | a :: as => decimal a ++ moreAddresses as

/-- The loop adds the addresses that it reads. -/
theorem initLoop_moreAddresses {tmp : AddressFilter} (hall : tmp.filterAll = false) {as : List ℕ}
    (has : ∀ a ∈ as, a ≤ 127) :
    ∃ filter, initLoop tmp (moreAddresses as) = some filter ∧
      ∀ b : ℕ, b ≤ 127 →
        (isDeviceFiltered filter b = true ↔ b ∈ as ∨ isDeviceFiltered tmp b = true) := by
  induction as generalizing tmp with
  | nil =>
    refine ⟨tmp, initLoop_nil tmp, fun b _ => ?_⟩
    simp only [List.not_mem_nil, false_or]
  | cons a as ih =>
    have ha := has a List.mem_cons_self
    obtain ⟨tmp', hset, hall', hfiltered⟩ := setDeviceFiltered_ok hall ha
    obtain ⟨filter, hloop, hbits⟩ := ih hall' fun x hx => has x (List.mem_cons_of_mem a hx)
    refine ⟨filter, ?_, fun b hb => ?_⟩
    · change initLoop tmp (',' :: (decimal a ++ moreAddresses as)) = some filter
      rw [initLoop_comma, initLoop_decimal ha hset (stopsDigits_moreAddresses as), hloop]
    · rw [hbits b hb, hfiltered b hb, List.mem_cons]
      tauto

/-- **A printed list of addresses sets exactly the bits of these addresses.** -/
theorem initAddressFilter_addressText {as : List ℕ} (has : ∀ a ∈ as, a ≤ 127) :
    ∃ filter, initAddressFilter (some (addressText as)) false = some filter ∧
      ∀ b : ℕ, b ≤ 127 → (isDeviceFiltered filter b = true ↔ b ∈ as) := by
  have hzero : ∀ b : ℕ, b ≤ 127 → ¬ isDeviceFiltered (.zero false) b = true := by
    intro b hb
    rw [isDeviceFiltered_zero hb]
    exact Bool.false_ne_true
  unfold initAddressFilter
  cases as with
  | nil =>
    refine ⟨_, initLoop_nil _, fun b hb => ?_⟩
    simp only [hzero b hb, List.not_mem_nil, Bool.false_eq_true]
  | cons a as =>
    have ha := has a List.mem_cons_self
    obtain ⟨tmp, hset, hall, hfiltered⟩ :=
      setDeviceFiltered_ok (show (AddressFilter.zero false).filterAll = false from rfl) ha
    obtain ⟨filter, hloop, hbits⟩ :=
      initLoop_moreAddresses hall fun x hx => has x (List.mem_cons_of_mem a hx)
    refine ⟨filter, ?_, fun b hb => ?_⟩
    · exact (initLoop_decimal ha hset (stopsDigits_moreAddresses as)).trans hloop
    · rw [hbits b hb, hfiltered b hb, List.mem_cons]
      have := hzero b hb
      tauto

/-! ## Any list -/

/-- `USBPcapInitAddressFilter` with the caller's pointer: what it returns, and what the pointer
points to behind it. -/
def initAddressFilterAt (filter : Option AddressFilter) (list : Option (List Char))
    (filterAll : Bool) : Bool × Option AddressFilter :=
  match filter with
  | none => (false, none)
  | some old =>
    match initAddressFilter list filterAll with
    | none => (false, some old)
    | some tmp => (true, some tmp)

/-- The maximal runs of digits, in order. -/
def digitRuns (text : List Char) : List (List Char) :=
  (text.splitOnP fun c => !c.isDigit).filter (· ≠ [])

/-- The numbers that the maximal runs of digits denote. -/
def listedNumbers (text : List Char) : List ℕ := (digitRuns text).map (Nat.ofDigitChars 10 · 0)

/-- Only digits and commas, and no number over 127. -/
def ValidList (text : List Char) : Prop :=
  (∀ c ∈ text, c.isDigit = true ∨ c = ',') ∧ ∀ n ∈ listedNumbers text, n ≤ 127

/-- Nothing is listed in an empty text. -/
theorem listedNumbers_nil : listedNumbers [] = [] := rfl

/-- A character between the runs. -/
theorem listedNumbers_other {c : Char} (hc : c.isDigit = false) (cs : List Char) :
    listedNumbers (c :: cs) = listedNumbers cs := by
  have hsep : (!c.isDigit) = true := by rw [hc]; rfl
  rw [listedNumbers, digitRuns, List.splitOnP_cons_eq_if_modifyHead, if_pos hsep]
  rfl

/-- The first run. -/
theorem listedNumbers_digit {c : Char} (hc : c.isDigit = true) (cs : List Char) :
    listedNumbers (c :: cs) =
      Nat.ofDigitChars 10 ((c :: cs).takeWhile Char.isDigit) 0 ::
        listedNumbers (cs.dropWhile Char.isDigit) := by
  have hrun : ∀ d ∈ (c :: cs).takeWhile Char.isDigit, (!d.isDigit) = false := by
    intro d hd
    rw [List.mem_takeWhile_imp hd]
    rfl
  have hne : (c :: cs).takeWhile Char.isDigit ≠ [] := by
    rw [List.takeWhile_cons_of_pos hc]
    exact List.cons_ne_nil _ _
  have hsplit := List.takeWhile_append_dropWhile (p := Char.isDigit) (l := c :: cs)
  rw [List.dropWhile_cons_of_pos hc] at hsplit
  rw [listedNumbers, digitRuns]
  generalize (c :: cs).takeWhile Char.isDigit = run at *
  rw [← hsplit]
  cases hrest : cs.dropWhile Char.isDigit with
  | nil =>
    rw [List.append_nil, List.splitOnP_eq_singleton hrun, List.filter_cons,
      if_pos (decide_eq_true hne)]
    rfl
  | cons d rest =>
    have hd : d.isDigit = false := by
      have hhead := List.head?_dropWhile_not Char.isDigit cs
      rw [hrest] at hhead
      exact hhead
    rw [List.splitOnP_append_cons_of_forall_mem hrun d (by rw [hd]; rfl), List.filter_cons,
      if_pos (decide_eq_true hne), List.map_cons, listedNumbers_other hd]
    rfl

/-- A number must be an address, and the rest valid. -/
theorem validList_digit {c : Char} (hc : c.isDigit = true) (cs : List Char) :
    ValidList (c :: cs) ↔ Nat.ofDigitChars 10 ((c :: cs).takeWhile Char.isDigit) 0 ≤ 127 ∧
      ValidList (cs.dropWhile Char.isDigit) := by
  have hchars : (∀ d ∈ cs, d.isDigit = true ∨ d = ',') ↔
      ∀ d ∈ cs.dropWhile Char.isDigit, d.isDigit = true ∨ d = ',' := by
    constructor
    · exact fun h d hd => h d ((List.dropWhile_suffix Char.isDigit).subset hd)
    · intro h d hd
      rw [← List.takeWhile_append_dropWhile (p := Char.isDigit) (l := cs), List.mem_append] at hd
      exact hd.elim (fun hd => .inl (List.mem_takeWhile_imp hd)) (h d)
  unfold ValidList
  rw [listedNumbers_digit hc, List.forall_mem_cons, List.forall_mem_cons, hchars]
  simp only [hc, true_or, true_and]
  tauto

/-- Commas do not matter. -/
theorem validList_comma (cs : List Char) : ValidList (',' :: cs) ↔ ValidList cs := by
  unfold ValidList
  rw [listedNumbers_other (by decide), List.forall_mem_cons]
  simp only [or_true, true_and]

/-- Setting an address in range, whatever `filterAll` says. -/
theorem setDeviceFiltered_some (filter : AddressFilter) {a : ℕ} (ha : a ≤ 127) :
    ∃ filter', setDeviceFiltered filter a = some filter' ∧
      ∀ b : ℕ, b ≤ 127 →
        (isDeviceFiltered filter' b = true ↔ b = a ∨ isDeviceFiltered filter b = true) := by
  cases hall : filter.filterAll with
  | false =>
    obtain ⟨filter', hset, -, hfiltered⟩ := setDeviceFiltered_ok hall ha
    exact ⟨filter', hset, hfiltered⟩
  | true =>
    have htrue : ∀ filter' : AddressFilter, filter'.filterAll = true →
        ∀ b : ℕ, isDeviceFiltered filter' b = true := by
      intro filter' h b
      rw [isDeviceFiltered, if_pos h]
    unfold setDeviceFiltered
    rw [getAddressRangeAndIndex_ofNat ha]
    refine ⟨_, rfl, fun b _ => iff_of_true (htrue _ ?_ b) (.inr (htrue filter hall b))⟩
    exact hall

/-- No number above 127 is an address. -/
theorem setDeviceFiltered_none (filter : AddressFilter) {n : ℤ} (hn : 127 < n) :
    setDeviceFiltered filter n = none := by
  rw [setDeviceFiltered, getAddressRangeAndIndex, dif_pos (.inr hn)]

/-- A run of digits in the list, by the number it denotes; `atoi` saturates above the range. -/
theorem initLoop_digit (tmp : AddressFilter) {c : Char} (hc : c.isDigit = true) (cs : List Char) :
    initLoop tmp (c :: cs) =
      (setDeviceFiltered tmp (min
        (Nat.ofDigitChars 10 ((c :: cs).takeWhile Char.isDigit) 0 : ℤ) (2 ^ 31 - 1))).bind
          (initLoop · (cs.dropWhile Char.isDigit)) := by
  rw [initLoop, if_pos hc, atoi_digit hc]
  cases setDeviceFiltered tmp _ with
  | none => rfl
  | some tmp => rfl

/-- What the loop accepts, and what it sets. -/
theorem initLoop_iff (tmp : AddressFilter) (list : List Char) :
    (ValidList list → ∃ filter, initLoop tmp list = some filter ∧ ∀ b : ℕ, b ≤ 127 →
      (isDeviceFiltered filter b = true ↔
        b ∈ listedNumbers list ∨ isDeviceFiltered tmp b = true)) ∧
    (¬ ValidList list → initLoop tmp list = none) := by
  match list with
  | [] =>
    have hnil : ValidList [] :=
      ⟨fun c hc => absurd hc List.not_mem_nil, fun n hn => absurd hn List.not_mem_nil⟩
    refine ⟨fun _ => ⟨tmp, initLoop_nil tmp, fun b _ => ?_⟩, fun h => absurd hnil h⟩
    rw [listedNumbers_nil]
    exact (or_iff_right List.not_mem_nil).symm
  | c :: cs =>
    by_cases hc : c.isDigit = true
    · rw [validList_digit hc, initLoop_digit tmp hc, listedNumbers_digit hc]
      by_cases hn : Nat.ofDigitChars 10 ((c :: cs).takeWhile Char.isDigit) 0 ≤ 127
      · rw [min_eq_left (by omega)]
        obtain ⟨tmp', hset, hfiltered⟩ := setDeviceFiltered_some tmp hn
        obtain ⟨hvalid, hinvalid⟩ := initLoop_iff tmp' (cs.dropWhile Char.isDigit)
        rw [hset, Option.bind_some]
        refine ⟨fun h => ?_, fun h => hinvalid fun hrest => h ⟨hn, hrest⟩⟩
        obtain ⟨filter, hloop, hbits⟩ := hvalid h.2
        refine ⟨filter, hloop, fun b hb => ?_⟩
        rw [hbits b hb, hfiltered b hb, List.mem_cons, or_left_comm, or_assoc]
      · rw [setDeviceFiltered_none tmp (by omega)]
        exact ⟨fun h => absurd h.1 hn, fun _ => rfl⟩
    · by_cases hcomma : c = ','
      · rw [hcomma, validList_comma, initLoop_comma, listedNumbers_other (by decide)]
        exact initLoop_iff tmp cs
      · rw [initLoop, if_neg hc, if_neg hcomma]
        refine ⟨fun h => absurd (h.1 c List.mem_cons_self) (not_or.mpr ⟨hc, hcomma⟩), fun _ => rfl⟩
termination_by list.length
decreasing_by
  · have := (List.dropWhile_suffix Char.isDigit (l := cs)).length_le
    simp only [List.length_cons]
    omega
  · simp only [List.length_cons]
    omega

/-- A filter without bits filters everything or nothing. -/
theorem isDeviceFiltered_zero_iff {filterAll : Bool} {a : ℕ} (ha : a ≤ 127) :
    isDeviceFiltered (.zero filterAll) a = true ↔ filterAll = true := by
  cases filterAll with
  | false => rw [isDeviceFiltered_zero ha]
  | true => exact iff_of_true rfl rfl

/-- A valid list gives the filter of its numbers, and any other one is refused. -/
theorem initAddressFilter_iff (list : Option (List Char)) (filterAll : Bool) :
    (ValidList (list.getD []) → ∃ filter, initAddressFilter list filterAll = some filter ∧
      ∀ a : ℕ, a ≤ 127 → (isDeviceFiltered filter a = true ↔
        filterAll = true ∨ a ∈ listedNumbers (list.getD []))) ∧
    (¬ ValidList (list.getD []) → initAddressFilter list filterAll = none) := by
  have hlist : initAddressFilter list filterAll = initLoop (.zero filterAll) (list.getD []) := by
    cases list with
    | none => exact (initLoop_nil _).symm
    | some list => rfl
  obtain ⟨hvalid, hinvalid⟩ := initLoop_iff (.zero filterAll) (list.getD [])
  rw [hlist]
  refine ⟨fun h => ?_, hinvalid⟩
  obtain ⟨filter, hloop, hbits⟩ := hvalid h
  refine ⟨filter, hloop, fun a ha => ?_⟩
  rw [hbits a ha, isDeviceFiltered_zero_iff ha, or_comm]

/-- **The function accepts exactly the lists of digits and commas without a number over 127, and
then filters exactly the listed addresses.** A rejected list leaves the caller's filter. -/
theorem initAddressFilterAt_spec (filter : AddressFilter) (list : Option (List Char))
    (filterAll : Bool) :
    ((initAddressFilterAt (some filter) list filterAll).1 = true ↔ ValidList (list.getD [])) ∧
    (ValidList (list.getD []) → ∃ filter',
      (initAddressFilterAt (some filter) list filterAll).2 = some filter' ∧
        ∀ a : ℕ, a ≤ 127 → (isDeviceFiltered filter' a = true ↔
          filterAll = true ∨ a ∈ listedNumbers (list.getD []))) ∧
    (¬ ValidList (list.getD []) →
      (initAddressFilterAt (some filter) list filterAll).2 = some filter) := by
  obtain ⟨hvalid, hinvalid⟩ := initAddressFilter_iff list filterAll
  unfold initAddressFilterAt
  by_cases h : ValidList (list.getD [])
  · obtain ⟨filter', hinit, hbits⟩ := hvalid h
    rw [hinit]
    exact ⟨iff_of_true rfl h, fun _ => ⟨filter', rfl, hbits⟩, fun hnot => absurd h hnot⟩
  · rw [hinvalid h]
    exact ⟨iff_of_false Bool.false_ne_true h, fun hv => absurd hv h, fun _ => rfl⟩

end UsbPcap.Cmd
