import UsbPcap.Lib.MultiString
import Mathlib.Algebra.Group.Nat.Even
import Mathlib.Data.UInt

/-!
# The upper filter in the registry

`is_usbpcap_upper_filter_installed` looks for one element of a `REG_MULTI_SZ` value with one
running index into `"\0USBPcap\0"`. The zero that ends a partial match is not compared again with
the zero in front of the name, so that the element behind it is passed over.
-/

namespace UsbPcap.Cmd

open MultiString

/-! ## `filters.c` -/

/-- `REG_MULTI_SZ` -/
def regMultiSz : UInt32 := 7

/-- What the registry calls on the class key answer: `openKey` for `RegOpenKeyEx`, `size` for the
query without a buffer (result, type, byte count) and `read` for the one with it. -/
structure Registry where
  openKey : ℤ
  size : ℤ × UInt32 × UInt32
  read : ℤ × List UInt8

/-- `"USBPcap"` -/
def usbpcap : List UInt8 := [85, 83, 66, 80, 99, 97, 112]

/-- `lookup`, without the NUL behind it. -/
def lookup : List UInt8 := 0 :: usbpcap ++ [0]

/-- The loop of `is_usbpcap_upper_filter_installed` from index `j` into `lookup` on. -/
def search : ℕ → List UInt8 → Bool
  | _, [] => false
  | j, c :: multisz =>
    if lookup[j]? = some c then
      if j + 1 = 9 then true else search (j + 1) multisz
    else search 0 multisz

/-- `is_usbpcap_upper_filter_installed`, with what it prints. The byte count is a `LONG`. -/
def isUsbpcapUpperFilterInstalled (registry : Registry) : Bool × String :=
  if registry.openKey ≠ 0 then
    (false, s!"Failed to open USB Class registry key! Code {registry.openKey}\n")
  else
    let (regVal, type, size) := registry.size
    let length := size.toBitVec.toInt
    if regVal ≠ 0 then
      (false, s!"Failed to query UpperFilters value size! Code {regVal}\n")
    else if type ≠ regMultiSz then (false, s!"Invalid UpperFilters type ({type})!\n")
    else if length ≤ 0 then (false, "")
    else if registry.read.1 ≠ 0 then
      (false, s!"Failed to read UpperFilters value! Code {registry.read.1}\n")
    else (search 1 (registry.read.2.take length.toNat), "")

/-- The registry with a `REG_MULTI_SZ` value. -/
def Registry.holding (strings : List (List UInt8)) : Registry where
  openKey := 0
  size := (0, regMultiSz, UInt32.ofNat (encode strings).length)
  read := (0, encode strings)

/-! ## One character -/

/-- A character that fits moves the search on. -/
theorem search_match {j : ℕ} {c : UInt8} (h : lookup[j]? = some c) (hj : j ≠ 8)
    (rest : List UInt8) : search j (c :: rest) = search (j + 1) rest := by
  rw [search, if_pos h, if_neg (by omega)]

/-- Any other one sends it back to the beginning, and is not looked at again. -/
theorem search_mismatch {j : ℕ} {c : UInt8} (h : lookup[j]? ≠ some c) (rest : List UInt8) :
    search j (c :: rest) = search 0 rest := by
  rw [search, if_neg h]

/-- Behind `front` of the name, the next character of `lookup` is the next one of the name. -/
theorem lookup_cons {front back : List UInt8} {c : UInt8} (h : usbpcap = front ++ c :: back) :
    lookup[front.length + 1]? = some c := by
  rw [lookup, h, List.cons_append, List.getElem?_cons_succ, List.append_assoc, List.cons_append,
    List.getElem?_append_right le_rfl, Nat.sub_self, List.getElem?_cons_zero]

/-- Behind the whole name it is the NUL. -/
theorem lookup_nil {front : List UInt8} (h : usbpcap = front) :
    lookup[front.length + 1]? = some 0 := by
  rw [← h]
  rfl

/-- Inside the name the search is not yet at its end. -/
theorem front_length {front back : List UInt8} {c : UInt8} (h : usbpcap = front ++ c :: back) :
    front.length + 1 ≠ 8 := by
  have hlength := congrArg List.length h
  rw [List.length_append, List.length_cons] at hlength
  change 7 = _ at hlength
  omega

/-- There is no NUL in the name. -/
theorem ne_zero_of_mem_usbpcap {c : UInt8} (h : c ∈ usbpcap) : c ≠ 0 := by
  rintro rfl
  exact absurd h (by decide)

/-! ## One element -/

/-- Without a match in progress, the element is passed over. -/
theorem search_zero {s : List UInt8} (hs : 0 ∉ s) (rest : List UInt8) :
    search 0 (s ++ 0 :: rest) = search 1 rest := by
  induction s with
  | nil => exact search_match rfl (by omega) rest
  | cons c s ih =>
    have hc : lookup[0]? ≠ some c := fun h => hs (Option.some.inj h ▸ List.mem_cons_self)
    rw [List.cons_append, search_mismatch hc]
    exact ih fun h => hs (List.mem_cons_of_mem c h)

/-- Behind a NUL the name is found. -/
theorem search_usbpcap (rest : List UInt8) : search 1 (usbpcap ++ 0 :: rest) = true := rfl

/-- A proper prefix of what is left of the name: the NUL behind it is the mismatch. -/
theorem search_short {front back s : List UInt8} (hname : usbpcap = front ++ back)
    (hs : s <+: back) (hne : s ≠ back) (rest : List UInt8) :
    search (front.length + 1) (s ++ 0 :: rest) = search 0 rest := by
  induction s generalizing front back with
  | nil =>
    obtain ⟨c, back, rfl⟩ := List.exists_cons_of_ne_nil (Ne.symm hne)
    have hc : c ≠ 0 :=
      ne_zero_of_mem_usbpcap (hname ▸ List.mem_append_right front List.mem_cons_self)
    refine search_mismatch (fun h => hc ?_) rest
    exact Option.some.inj ((lookup_cons hname).symm.trans h)
  | cons c s ih =>
    obtain ⟨t, rfl⟩ := hs
    rw [List.cons_append] at hname hne
    have hnext : usbpcap = (front ++ [c]) ++ (s ++ t) := by
      rw [hname, List.append_assoc, List.singleton_append]
    have hrest := ih hnext (List.prefix_append s t) fun h => hne (congrArg (c :: ·) h)
    rw [List.length_append, List.length_singleton] at hrest
    rw [List.cons_append, search_match (lookup_cons hname) (front_length hname), hrest]

/-- No prefix of what is left of the name: the mismatch comes before the NUL. -/
theorem search_other {front back s : List UInt8} (hname : usbpcap = front ++ back) (hzero : 0 ∉ s)
    (hs : ¬ s <+: back) (rest : List UInt8) :
    search (front.length + 1) (s ++ 0 :: rest) = search 1 rest := by
  induction s generalizing front back with
  | nil => exact absurd List.nil_prefix hs
  | cons c s ih =>
    have hzero' : 0 ∉ s := fun h => hzero (List.mem_cons_of_mem c h)
    rw [List.cons_append]
    by_cases hc : lookup[front.length + 1]? = some c
    · match back, hname, hs with
      | [], hname, _ =>
        rw [lookup_nil (by rw [hname, List.append_nil])] at hc
        exact absurd (Option.some.inj hc ▸ List.mem_cons_self) hzero
      | d :: back, hname, hs =>
        obtain rfl : d = c := Option.some.inj ((lookup_cons hname).symm.trans hc)
        have hnext : usbpcap = (front ++ [d]) ++ back := by
          rw [hname, List.append_assoc, List.singleton_append]
        have hrest := ih hnext hzero' fun h => hs (List.cons_prefix_cons.mpr ⟨rfl, h⟩)
        rw [List.length_append, List.length_singleton] at hrest
        rw [search_match hc (front_length hname), hrest]
    · rw [search_mismatch hc, search_zero hzero']

/-! ## The whole list -/

/-- The element is a proper prefix of the name. -/
def short (s : List UInt8) : Bool := s.isPrefixOf usbpcap && s != usbpcap

/-- How many elements directly in front are proper prefixes of the name. -/
def shortRun (front : List (List UInt8)) : ℕ := (front.reverse.takeWhile short).length

/-- The name is an element with an even number of proper prefixes directly in front of it. -/
def Seen (strings : List (List UInt8)) : Prop :=
  ∃ front behind, strings = front ++ usbpcap :: behind ∧ Even (shortRun front)

/-- The short elements are the proper prefixes. -/
theorem short_iff {s : List UInt8} : short s = true ↔ s <+: usbpcap ∧ s ≠ usbpcap := by
  rw [short, Bool.and_eq_true, List.isPrefixOf_iff_prefix, bne_iff_ne]

/-- One element more in front counts only when all behind it are short. -/
theorem shortRun_cons (s : List UInt8) (front : List (List UInt8)) :
    shortRun (s :: front) =
      if shortRun front = front.length then front.length + (if short s then 1 else 0)
      else shortRun front := by
  rw [shortRun, List.reverse_cons, List.takeWhile_append, List.length_reverse,
    apply_ite List.length, List.length_append, List.length_reverse, List.takeWhile_cons]
  by_cases hs : short s = true
  · rw [if_pos hs, if_pos hs]
    rfl
  · rw [if_neg hs, if_neg hs]
    rfl

/-- No more elements are short than there are. -/
theorem shortRun_le (front : List (List UInt8)) : shortRun front ≤ front.length := by
  rw [← List.length_reverse]
  exact (List.takeWhile_sublist short).length_le

/-- An element that is not short does not count. -/
theorem shortRun_other {s : List UInt8} (hs : short s = false) (front : List (List UInt8)) :
    shortRun (s :: front) = shortRun front := by
  rw [shortRun_cons, hs]
  split
  · next h => exact h.symm
  · rfl

/-- Two elements, the first a proper prefix, leave the parity. -/
theorem even_shortRun_cons_cons {s : List UInt8} (hs : short s = true) (t : List UInt8)
    (front : List (List UInt8)) :
    Even (shortRun (s :: t :: front)) ↔ Even (shortRun front) := by
  have hle := shortRun_le front
  cases ht : short t with
  | false =>
    have hlt : shortRun (t :: front) ≠ (t :: front).length := by
      rw [shortRun_other ht, List.length_cons]
      omega
    rw [shortRun_cons, if_neg hlt, shortRun_other ht]
  | true =>
    rw [shortRun_cons, shortRun_cons, if_pos hs, if_pos ht, List.length_cons]
    by_cases hall : shortRun front = front.length
    · rw [if_pos hall, if_pos rfl, hall, Nat.even_add, Nat.even_add]
      tauto
    · rw [if_neg hall, if_neg (by omega)]

/-- Nothing is seen in an empty list. -/
theorem not_seen_nil : ¬ Seen [] := by
  rintro ⟨front, behind, h, -⟩
  exact List.cons_ne_nil _ _ (List.append_eq_nil_iff.mp h.symm).2

/-- The name is seen at the front. -/
theorem seen_usbpcap (strings : List (List UInt8)) : Seen (usbpcap :: strings) :=
  ⟨[], strings, rfl, Even.zero⟩

/-- An element that is neither short nor the name is passed over. -/
theorem seen_other {s : List UInt8} (hs : short s = false) (hne : s ≠ usbpcap)
    (strings : List (List UInt8)) : Seen (s :: strings) ↔ Seen strings := by
  constructor
  · rintro ⟨front, behind, h, heven⟩
    cases front with
    | nil => exact absurd (List.cons.inj h).1 hne
    | cons t front =>
      obtain ⟨rfl, htail⟩ := List.cons.inj h
      exact ⟨front, behind, htail, shortRun_other hs front ▸ heven⟩
  · rintro ⟨front, behind, rfl, heven⟩
    exact ⟨s :: front, behind, rfl, (shortRun_other hs front).symm ▸ heven⟩

/-- The element behind a proper prefix does not count. -/
theorem seen_short {s : List UInt8} (hs : short s = true) (t : List UInt8)
    (strings : List (List UInt8)) : Seen (s :: t :: strings) ↔ Seen strings := by
  have hne : s ≠ usbpcap := (short_iff.mp hs).2
  constructor
  · rintro ⟨front, behind, h, heven⟩
    match front with
    | [] => exact absurd (List.cons.inj h).1 hne
    | [u] =>
      obtain ⟨rfl, -⟩ := List.cons.inj h
      have hodd : shortRun [s] = 1 := by
        rw [shortRun_cons, hs]
        rfl
      exact absurd (hodd ▸ heven) (by decide)
    | u :: v :: front =>
      obtain ⟨rfl, hrest⟩ := List.cons.inj h
      obtain ⟨rfl, hbehind⟩ := List.cons.inj hrest
      exact ⟨front, behind, hbehind, (even_shortRun_cons_cons hs t front).mp heven⟩
  · rintro ⟨front, behind, rfl, heven⟩
    exact ⟨s :: t :: front, behind, rfl, (even_shortRun_cons_cons hs t front).mpr heven⟩

/-- A prefix alone is not the name. -/
theorem not_seen_short {s : List UInt8} (hs : short s = true) : ¬ Seen [s] := by
  rintro ⟨front, behind, h, -⟩
  cases front with
  | nil => exact (short_iff.mp hs).2 (List.cons.inj h).1
  | cons t front =>
    exact List.cons_ne_nil _ _ (List.append_eq_nil_iff.mp (List.cons.inj h).2.symm).2

/-- The loop over a list: a proper prefix takes the element behind it along. -/
theorem search_encode (strings : List (List UInt8)) (h : ∀ s ∈ strings, 0 ∉ s) :
    search 1 (encode strings) = true ↔ Seen strings := by
  match strings, h with
  | [], _ => exact iff_of_false Bool.false_ne_true not_seen_nil
  | s :: strings, h =>
    have hs : 0 ∉ s := h s List.mem_cons_self
    have hstrings : ∀ t ∈ strings, 0 ∉ t := fun t ht => h t (List.mem_cons_of_mem s ht)
    rw [encode_cons]
    by_cases hname : s = usbpcap
    · rw [hname]
      exact iff_of_true (search_usbpcap _) (seen_usbpcap strings)
    · cases hshort : short s with
      | false =>
        have hfront : ¬ s <+: usbpcap := fun hp =>
          Bool.false_ne_true (hshort.symm.trans (short_iff.mpr ⟨hp, hname⟩))
        have hskip := search_other (List.nil_append usbpcap).symm hs hfront (encode strings)
        rw [List.length_nil, Nat.zero_add] at hskip
        rw [hskip, seen_other hshort hname]
        exact search_encode strings hstrings
      | true =>
        obtain ⟨hfront, hne⟩ := short_iff.mp hshort
        have hskip := search_short (List.nil_append usbpcap).symm hfront hne (encode strings)
        rw [List.length_nil, Nat.zero_add] at hskip
        rw [hskip]
        match strings, hstrings with
        | [], _ => exact iff_of_false Bool.false_ne_true (not_seen_short hshort)
        | t :: strings, hstrings =>
          rw [encode_cons, search_zero (hstrings t List.mem_cons_self), seen_short hshort]
          exact search_encode strings fun u hu => hstrings u (List.mem_cons_of_mem t hu)
termination_by strings.length

/-! ## The registry value -/

/-- A byte count from 2^31 on is negative as a `LONG`. -/
theorem toInt_length (n : ℕ) (hn : n < 2 ^ 32) :
    (UInt32.ofNat n).toBitVec.toInt = if n < 2 ^ 31 then (n : ℤ) else n - 2 ^ 32 := by
  rw [BitVec.toInt_eq_toNat_cond]
  have htoNat : (UInt32.ofNat n).toBitVec.toNat = n := Nat.mod_eq_of_lt hn
  rw [htoNat]
  split <;> split <;> omega

/-- The value is read when its byte count is a positive `LONG`. -/
theorem installed_holding {strings : List (List UInt8)} (h : ∀ s ∈ strings, 0 ∉ s)
    (hsize : (encode strings).length < 2 ^ 32) :
    (isUsbpcapUpperFilterInstalled (.holding strings)).1 = true ↔
      (encode strings).length < 2 ^ 31 ∧ Seen strings := by
  have hpos : 0 < (encode strings).length := by
    rw [length_encode]
    exact Nat.succ_pos _
  have hlength := toInt_length _ hsize
  unfold isUsbpcapUpperFilterInstalled Registry.holding
  dsimp only
  rw [if_neg (not_not_intro rfl), if_neg (not_not_intro rfl), if_neg (not_not_intro rfl), hlength]
  by_cases hlong : (encode strings).length < 2 ^ 31
  · rw [if_pos hlong, if_neg (by omega), if_neg (not_not_intro rfl), Int.toNat_natCast,
      List.take_length, search_encode strings h]
    exact (and_iff_right hlong).symm
  · rw [if_neg hlong, if_pos (by omega)]
    exact iff_of_false Bool.false_ne_true fun h => hlong h.1

/-- The answer is right exactly when the value fits a `LONG` and an even number of proper prefixes
of the name stands directly in front of it somewhere, as soon as the name is listed. -/
theorem installed_iff_listed_iff (strings : List (List UInt8)) (h : ∀ s ∈ strings, 0 ∉ s)
    (hsize : (encode strings).length < 2 ^ 32) :
    ((isUsbpcapUpperFilterInstalled (.holding strings)).1 = true ↔ usbpcap ∈ strings) ↔
      (usbpcap ∈ strings → (encode strings).length < 2 ^ 31 ∧ Seen strings) := by
  rw [installed_holding h hsize]
  constructor
  · exact fun hiff hmem => hiff.mpr hmem
  · refine fun himp => ⟨?_, himp⟩
    rintro ⟨-, front, behind, rfl, -⟩
    exact List.mem_append_right front List.mem_cons_self

/-- Behind `"other"`, `"USB"` and `"US"`, that is behind two proper prefixes of the name, the filter
is found. -/
theorem installed_behind_prefixes :
    (isUsbpcapUpperFilterInstalled
      (.holding [[111, 116, 104, 101, 114], [85, 83, 66], [85, 83], usbpcap])).1 = true := by
  have hmem : usbpcap ∈ [[111, 116, 104, 101, 114], [85, 83, 66], [85, 83], usbpcap] := by decide
  refine ((installed_iff_listed_iff _ (by decide) (by decide)).mpr fun _ =>
    ⟨by decide, ?_⟩).mpr hmem
  exact ⟨[[111, 116, 104, 101, 114], [85, 83, 66], [85, 83]], [], rfl, by decide⟩

/-- Behind an element `"USB"`, the filter is not found. -/
theorem installed_behind_prefix :
    ¬ ((isUsbpcapUpperFilterInstalled (.holding [[85, 83, 66], usbpcap])).1 = true ↔
      usbpcap ∈ [[85, 83, 66], usbpcap]) := by
  decide

end UsbPcap.Cmd
