import UsbPcap.Cmd.StringArray
import UsbPcap.Lib.Memory
import UsbPcap.Lib.MultiString
import Mathlib.Data.UInt

/-!
# Multi-strings with non-standard hardware ids

`build_non_standard_reg_multi_sz` puts the strings of an array behind each other for the registry,
and `GetMultiSzIndexArray` finds where the strings of such a block start. The first one reports the
length as a `DWORD`, and the second one counts in `int`s. `multiSz_roundTrip` says that they are
inverse to each other as long as these are large enough.
-/

namespace UsbPcap.Cmd

open Driver (Abi)
open Memory MultiString

/-! ## `roothubs.c` -/

/-- What a slot points to, if it may be read. -/
def Slot.target {α : Type*} : Slot α → Option α
  | .pointer target => some target
  | _ => none

/-- The strings in use, without their terminators, if all of them may be read. -/
def StringArray.strings (a : StringArray) : Option (List (List UInt8)) :=
  if a.used ≤ a.array.length then (a.array.take a.used).mapM Slot.target else none

/-- The first loop of `build_non_standard_reg_multi_sz`, in a `size_t`. -/
def multiSzLength (abi : Abi) (len : ℕ) : List (List UInt8) → ℕ
  | [] => len
  | s :: strings =>
    multiSzLength abi ((len + (s.length + 1)) % 2 ^ (8 * abi.sizeofPointer)) strings

/-- The second loop, with `ptr` as an offset; `_tcscpy_s` ends the program when there is no room for
a string. -/
def fillMultiSz (len : ℕ) : ℕ → List UInt8 → List (List UInt8) → Option (List UInt8)
  | _, multiSz, [] => some multiSz
  | ptr, multiSz, s :: strings =>
    if s.length < len - ptr then
      fillMultiSz len (ptr + s.length + 1) (copyInto multiSz ptr (s ++ [0])) strings
    else none

/-- `build_non_standard_reg_multi_sz`: the block and `*length`. A null pointer from `malloc` is not
checked for. -/
def buildNonStandardRegMultiSz (abi : Abi) (a : StringArray) (malloc : Bool) :
    Option (List UInt8 × UInt32) :=
  match a.strings with
  | none => none
  | some strings =>
    let len := multiSzLength abi 1 strings
    if malloc then
      (fillMultiSz len 0 (List.replicate len 0) strings).map fun multiSz =>
        (multiSz, UInt32.ofNat len)
    else none

/-- `scan += lstrlen(scan) + 1`; `none` where there is no terminator in the block or the `int`
overflows. -/
def skipString (multiSz : List UInt8) (scan : ℕ) : Option ℕ :=
  let length := (terminated (multiSz.drop scan)).length
  if scan + length < multiSz.length ∧ length + 1 < 2 ^ 31 then some (scan + length + 1) else none

/-- Skipping a string comes closer to the end. -/
theorem skipString_decreases {multiSz : List UInt8} {scan next : ℕ}
    (h : skipString multiSz scan = some next) :
    multiSz.length - next < multiSz.length - scan := by
  rw [skipString] at h
  split at h
  · rename_i hinside
    have hnext := Option.some.inj h
    omega
  · cases h

/-- The counting loop of `GetMultiSzIndexArray`. -/
def countElements (multiSz : List UInt8) (scan elements : ℕ) : Option ℕ :=
  match multiSz[scan]? with
  | none => none
  | some c =>
    if c = 0 then some elements
    else
      match h : skipString multiSz scan with
      | none => none
      | some next => countElements multiSz next (elements + 1)
termination_by multiSz.length - scan
decreasing_by exact skipString_decreases h

/-- Its filling loop, behind the slot that `array++` skips. -/
def fillElements (multiSz : List UInt8) (scan elements : ℕ) (array : List (Slot ℕ)) :
    Option (ℕ × List (Slot ℕ)) :=
  match multiSz[scan]? with
  | none => none
  | some c =>
    if c = 0 then some (elements, array)
    else
      match writeSlot array (1 + elements) (.pointer scan), h : skipString multiSz scan with
      | some array, some next => fillElements multiSz next (elements + 1) array
      | _, _ => none
termination_by multiSz.length - scan
decreasing_by exact skipString_decreases h

/-- `GetMultiSzIndexArray`: the block behind the array that it returns, whose first slot is in front
of the array, or a null pointer. Pointers into the multi-string are offsets. -/
def getMultiSzIndexArray (abi : Abi) (multiSz : List UInt8) (malloc : Bool) :
    Option (Slot (List (Slot ℕ))) :=
  match countElements multiSz 0 0 with
  | none => none
  | some elements =>
    if elements + 2 < 2 ^ 31 then
      if malloc then
        let block := List.replicate (slotsFor abi (elements + 2)) Slot.unset
        match writeSlot block 0 (.pointer 0) with
        | none => none
        | some array =>
          let filled :=
            if elements ≠ 0 then fillElements multiSz 0 0 array else some (elements, array)
          match filled with
          | none => none
          | some (elements, array) => (writeSlot array (1 + elements) .null).map .pointer
      else some .null
    else none

/-! ## Building -/

/-- The length is the sum where it does not wrap. -/
theorem multiSzLength_eq {abi : Abi} {len : ℕ} {strings : List (List UInt8)}
    (h : len + (strings.map fun s => s.length + 1).sum < 2 ^ (8 * abi.sizeofPointer)) :
    multiSzLength abi len strings = len + (strings.map fun s => s.length + 1).sum := by
  induction strings generalizing len with
  | nil => rfl
  | cons s strings ih =>
    rw [List.map_cons, List.sum_cons, ← Nat.add_assoc] at h ⊢
    rw [multiSzLength, Nat.mod_eq_of_lt (Nat.lt_of_le_of_lt (Nat.le_add_right _ _) h), ih h]

/-- A string that is copied to the front of the zeros leaves its terminator and the other zeros
behind it. -/
theorem copyInto_zeros (front s : List UInt8) (n : ℕ) :
    copyInto (front ++ List.replicate (s.length + 1 + n) 0) front.length (s ++ [0]) =
      (front ++ (s ++ [0])) ++ List.replicate n 0 := by
  have hlength : front.length + (s ++ [0]).length = front.length + (s.length + 1) := by
    rw [List.length_append, List.length_singleton]
  rw [copyInto, List.take_left, hlength, List.drop_append, List.drop_of_length_le (by omega),
    List.nil_append, Nat.add_sub_cancel_left, List.drop_replicate, Nat.add_sub_cancel_left]

/-- Where the next string starts. -/
theorem length_past (front s : List UInt8) :
    (front ++ (s ++ [0])).length = front.length + s.length + 1 := by
  simp only [List.length_append, List.length_singleton, Nat.add_assoc]

/-- The filling loop, with `front` for what it has filled already. -/
theorem fillMultiSz_eq {strings : List (List UInt8)} {front : List UInt8} {len n : ℕ}
    (hn : n = (encode strings).length) (hlen : len = front.length + n) :
    fillMultiSz len front.length (front ++ List.replicate n 0) strings =
      some (front ++ encode strings) := by
  induction strings generalizing front n with
  | nil =>
    rw [hn]
    rfl
  | cons s strings ih =>
    have hsplit : n = s.length + 1 + (encode strings).length := by
      rw [hn, encode_cons, List.length_append, List.length_cons]
      omega
    rw [fillMultiSz, if_pos (by omega), hsplit, copyInto_zeros, ← length_past,
      ih rfl (by rw [length_past]; omega), encode_cons]
    simp only [List.append_assoc, List.cons_append, List.nil_append]

/-- The block holds the strings and nothing else, and its length is reported modulo 2^32. -/
theorem buildNonStandardRegMultiSz_eq {abi : Abi} {a : StringArray} {strings : List (List UInt8)}
    (ha : a.strings = some strings)
    (hsize : (encode strings).length < 2 ^ (8 * abi.sizeofPointer)) :
    buildNonStandardRegMultiSz abi a true =
      some (encode strings, UInt32.ofNat (encode strings).length) := by
  have hlen : multiSzLength abi 1 strings = (encode strings).length := by
    rw [length_encode, Nat.add_comm] at hsize ⊢
    exact multiSzLength_eq hsize
  have hfill : fillMultiSz (encode strings).length 0
      (List.replicate (encode strings).length 0) strings = some (encode strings) :=
    @fillMultiSz_eq strings [] _ _ rfl (Nat.zero_add _).symm
  rw [buildNonStandardRegMultiSz, ha]
  dsimp only
  rw [hlen, if_pos rfl, hfill]
  rfl

/-! ## Splitting -/

section Split

variable {multiSz : List UInt8} {scan next elements : ℕ} {c : UInt8}

/-- A NUL ends the count. -/
theorem countElements_end (h : multiSz[scan]? = some 0) :
    countElements multiSz scan elements = some elements := by
  rw [countElements, h]
  exact if_pos rfl

/-- Any other byte begins a string, which counts. -/
theorem countElements_next (h : multiSz[scan]? = some c) (hc : c ≠ 0)
    (hskip : skipString multiSz scan = some next) :
    countElements multiSz scan elements = countElements multiSz next (elements + 1) := by
  rw [countElements, h]
  dsimp only
  rw [if_neg hc]
  split
  · rename_i hnone
    rw [hskip] at hnone
    cases hnone
  · rename_i other hother
    rw [hskip] at hother
    rw [Option.some.inj hother]

/-- A NUL ends the filling. -/
theorem fillElements_end {array : List (Slot ℕ)} (h : multiSz[scan]? = some 0) :
    fillElements multiSz scan elements array = some (elements, array) := by
  rw [fillElements, h]
  exact if_pos rfl

/-- Any other byte begins a string, whose pointer is stored. -/
theorem fillElements_next {array : List (Slot ℕ)} (h : multiSz[scan]? = some c) (hc : c ≠ 0)
    (hroom : 1 + elements < array.length) (hskip : skipString multiSz scan = some next) :
    fillElements multiSz scan elements array =
      fillElements multiSz next (elements + 1) (array.set (1 + elements) (.pointer scan)) := by
  have hwrite : writeSlot array (1 + elements) (.pointer scan) =
      some (array.set (1 + elements) (.pointer scan)) := if_pos hroom
  rw [fillElements, h]
  dsimp only
  rw [if_neg hc, hwrite]
  split
  · rename_i written other hsome hother
    rw [hskip] at hother
    rw [Option.some.inj hother, Option.some.inj hsome]
  · rename_i hnot
    exact absurd hskip (hnot _ _ rfl)

/-- From the start of a string, the scan goes on behind its terminator. -/
theorem skipString_eq {s front behind : List UInt8} (hzero : 0 ∉ s) (hint : s.length + 1 < 2 ^ 31) :
    skipString (front ++ (s ++ 0 :: behind)) front.length =
      some (front.length + s.length + 1) := by
  have hs : terminated ((front ++ (s ++ 0 :: behind)).drop front.length) = s := by
    rw [List.drop_left]
    exact terminated_append hzero behind
  rw [skipString, hs]
  refine if_pos ⟨?_, hint⟩
  simp only [List.length_append, List.length_cons]
  omega

/-- A string that the scan passes over as one: not empty, without zeros, and no longer than an `int`
can say. -/
structure Scannable (s : List UInt8) : Prop where
  ne_nil : s ≠ []
  zero : 0 ∉ s
  int : s.length + 1 < 2 ^ 31

/-- A string begins with a byte that is not NUL. -/
theorem exists_first {s : List UInt8} (h : Scannable s) (front behind : List UInt8) :
    ∃ c, c ≠ 0 ∧ (front ++ (s ++ behind))[front.length]? = some c := by
  obtain ⟨c, cs, rfl⟩ := List.exists_cons_of_ne_nil h.ne_nil
  refine ⟨c, fun hc => h.zero (hc ▸ List.mem_cons_self), ?_⟩
  rw [List.getElem?_append_right (Nat.le_refl _), Nat.sub_self]
  rfl

/-- The list ends with a NUL. -/
theorem getElem?_encode_nil (front behind : List UInt8) :
    (front ++ (encode [] ++ behind))[front.length]? = some 0 := by
  rw [List.getElem?_append_right (Nat.le_refl _), Nat.sub_self]
  rfl

/-- At the start of a string the scan finds a character and goes on to the next string, with this
one in front. -/
theorem scan_step {s : List UInt8} (h : Scannable s) (strings : List (List UInt8))
    (front behind : List UInt8) :
    ∃ c, c ≠ 0 ∧ (front ++ (encode (s :: strings) ++ behind))[front.length]? = some c ∧
      skipString (front ++ (encode (s :: strings) ++ behind)) front.length =
        some (front ++ (s ++ [0])).length ∧
      front ++ (encode (s :: strings) ++ behind) =
        (front ++ (s ++ [0])) ++ (encode strings ++ behind) := by
  have hhere : front ++ (encode (s :: strings) ++ behind) =
      front ++ (s ++ 0 :: (encode strings ++ behind)) := by
    simp only [encode_cons, List.append_assoc, List.cons_append]
  obtain ⟨c, hc, hfirst⟩ := exists_first h front (0 :: (encode strings ++ behind))
  rw [hhere, length_past]
  refine ⟨c, hc, hfirst, skipString_eq h.zero h.int, ?_⟩
  simp only [List.append_assoc, List.cons_append, List.nil_append]

/-- The counting loop, with `front` for what it has passed over already. -/
theorem countElements_encode {strings : List (List UInt8)} (h : ∀ s ∈ strings, Scannable s)
    (front behind : List UInt8) (elements : ℕ) :
    countElements (front ++ (encode strings ++ behind)) front.length elements =
      some (elements + strings.length) := by
  induction strings generalizing front elements with
  | nil => exact countElements_end (getElem?_encode_nil front behind)
  | cons s strings ih =>
    obtain ⟨c, hc, hfirst, hskip, hnext⟩ :=
      scan_step (h s List.mem_cons_self) strings front behind
    rw [countElements_next hfirst hc hskip, hnext,
      ih (fun t ht => h t (List.mem_cons_of_mem s ht)), List.length_cons]
    congr 1
    omega

/-- The filling loop writes where the strings start. -/
theorem fillElements_encode {strings : List (List UInt8)} (h : ∀ s ∈ strings, Scannable s)
    (front behind : List UInt8) {elements : ℕ} {array : List (Slot ℕ)}
    (hroom : 1 + elements + strings.length ≤ array.length) :
    fillElements (front ++ (encode strings ++ behind)) front.length elements array =
      some (elements + strings.length,
        copyInto array (1 + elements) ((starts front.length strings).map .pointer)) := by
  induction strings generalizing front elements array with
  | nil =>
    rw [fillElements_end (getElem?_encode_nil front behind), starts, List.map_nil, copyInto_nil]
    rfl
  | cons s strings ih =>
    obtain ⟨c, hc, hfirst, hskip, hnext⟩ :=
      scan_step (h s List.mem_cons_self) strings front behind
    rw [List.length_cons] at hroom
    have hlt : 1 + elements < array.length := by omega
    rw [fillElements_next hfirst hc hlt hskip, hnext,
      ih (fun t ht => h t (List.mem_cons_of_mem s ht)) _ (by rw [List.length_set]; omega),
      starts, List.map_cons, ← copyInto_cons hlt, length_past, List.length_cons]
    congr 2
    omega

end Split

/-- The block in front of the last write: where the multi-string starts, where its strings start,
and one slot that is left. -/
theorem copyInto_index {n : ℕ} {pointers : List (Slot ℕ)} (h : pointers.length = n) :
    copyInto ((List.replicate (n + 2) Slot.unset).set 0 (.pointer 0)) 1 pointers =
      (.pointer 0 :: pointers) ++ [.unset] := by
  have hlength : 0 + (Slot.pointer 0 :: pointers).length = n + 1 := by
    rw [Nat.zero_add, List.length_cons, h]
  rw [copyInto_cons (by rw [List.length_replicate]; omega), copyInto, hlength, List.take_zero,
    List.nil_append, List.drop_replicate, Nat.add_sub_add_left]
  rfl

/-- The `int`s, the `DWORD` and the `size_t` are large enough for the strings. -/
structure FitsInts (abi : Abi) (strings : List (List UInt8)) : Prop where
  string : ∀ s ∈ strings, s.length + 1 < 2 ^ 31
  length : (encode strings).length < 2 ^ 32
  count : strings.length + 2 < 2 ^ 31
  index : (strings.length + 2) * abi.sizeofPointer < 2 ^ (8 * abi.sizeofPointer)

/-- `GetMultiSzIndexArray` on a multi-string, with anything behind it. -/
theorem getMultiSzIndexArray_encode {abi : Abi} {strings : List (List UInt8)}
    (hfits : FitsInts abi strings) (h : ∀ s ∈ strings, s ≠ [] ∧ 0 ∉ s) (behind : List UInt8) :
    getMultiSzIndexArray abi (encode strings ++ behind) true =
      some (.pointer (.pointer 0 :: ((starts 0 strings).map .pointer ++ [.null]))) := by
  have hscan : ∀ s ∈ strings, Scannable s := fun s hs => ⟨(h s hs).1, (h s hs).2, hfits.string s hs⟩
  -- the first loop counts the elements
  have hcount : countElements (encode strings ++ behind) 0 0 = some strings.length := by
    have hloop := countElements_encode hscan [] behind 0
    rwa [List.length_nil, List.nil_append, Nat.zero_add] at hloop
  have hpointers : ((starts 0 strings).map (Slot.pointer (α := ℕ))).length = strings.length := by
    rw [List.length_map, length_starts]
  have hslots : slotsFor abi (strings.length + 2) = strings.length + 2 :=
    (slotsFor_eq_iff abi _).mpr hfits.index
  have hfirst : writeSlot (List.replicate (strings.length + 2) Slot.unset) 0 (.pointer 0) =
      some ((List.replicate (strings.length + 2) Slot.unset).set 0 (.pointer 0)) :=
    if_pos (by rw [List.length_replicate]; omega)
  -- the second loop stores a pointer to each element behind the first NUL
  have hfilled : (if strings.length ≠ 0 then
        fillElements (encode strings ++ behind) 0 0
          ((List.replicate (strings.length + 2) Slot.unset).set 0 (.pointer 0))
      else some (strings.length,
        (List.replicate (strings.length + 2) Slot.unset).set 0 (.pointer 0))) =
      some (strings.length, (.pointer 0 :: (starts 0 strings).map .pointer) ++ [.unset]) := by
    rw [← copyInto_index hpointers]
    split
    · have hroom : 1 + 0 + strings.length ≤
          ((List.replicate (strings.length + 2) Slot.unset).set 0 (.pointer 0)).length := by
        rw [List.length_set, List.length_replicate]
        omega
      have hloop := fillElements_encode hscan [] behind hroom
      rwa [List.length_nil, List.nil_append, Nat.zero_add] at hloop
    · rename_i hnot
      have hnil : strings = [] := List.length_eq_zero_iff.mp (not_not.mp hnot)
      rw [hnil, starts, List.map_nil, copyInto_nil]
  -- the last slot is the terminating null pointer
  have hlast : writeSlot ((.pointer 0 :: (starts 0 strings).map .pointer) ++ [.unset])
      (1 + strings.length) .null =
      some ((.pointer 0 :: (starts 0 strings).map .pointer) ++ [Slot.null]) := by
    have hlength : (Slot.pointer 0 :: (starts 0 strings).map .pointer).length =
        1 + strings.length := by
      rw [List.length_cons, hpointers, Nat.add_comm]
    rw [writeSlot, if_pos (by rw [List.length_append, hlength]; exact Nat.lt_succ_self _),
      List.set_append_right _ _ hlength.le, hlength, Nat.sub_self, List.set_cons_zero]
  rw [getMultiSzIndexArray, hcount]
  dsimp only
  rw [if_pos hfits.count, if_pos rfl, hslots, hfirst]
  dsimp only
  rw [hfilled]
  dsimp only
  rw [hlast]
  rfl

/-! ## The round trip -/

/-- Strings that the `int`s and the `DWORD` can count are stored in a block of exactly the reported
length and found again in the same order. -/
theorem multiSz_roundTrip {abi : Abi} {a : StringArray} {strings : List (List UInt8)}
    (ha : a.strings = some strings) (h : ∀ s ∈ strings, s ≠ [] ∧ 0 ∉ s)
    (hfits : FitsInts abi strings) :
    ∃ (multiSz : List UInt8) (length : UInt32) (pointers : List ℕ),
      buildNonStandardRegMultiSz abi a true = some (multiSz, length) ∧
      multiSz.length = (strings.map fun s => s.length + 1).sum + 1 ∧
      length.toNat = multiSz.length ∧
      getMultiSzIndexArray abi multiSz true =
        some (.pointer (.pointer 0 :: (pointers.map .pointer ++ [.null]))) ∧
      pointers.map (fun p => terminated (multiSz.drop p)) = strings := by
  have hsize : (encode strings).length < 2 ^ (8 * abi.sizeofPointer) := by
    refine Nat.lt_of_lt_of_le hfits.length (Nat.pow_le_pow_right (by omega) ?_)
    cases abi with
    | x86 => decide
    | x64 => decide
  have hindex := getMultiSzIndexArray_encode hfits h []
  have hstarts := map_terminated_starts (fun s hs => (h s hs).2) [] []
  rw [List.append_nil] at hindex
  rw [List.nil_append, List.append_nil, List.length_nil] at hstarts
  exact ⟨encode strings, _, starts 0 strings, buildNonStandardRegMultiSz_eq ha hsize,
    length_encode strings, UInt32.toNat_ofNat_of_lt' hfits.length, hindex, hstarts⟩

/-- Two ids in an array with room for four. -/
theorem multiSz_roundTrip_two :
    ∃ (multiSz : List UInt8) (length : UInt32) (pointers : List ℕ),
      buildNonStandardRegMultiSz .x64
        ⟨[.pointer [65, 66], .pointer [67], .unset, .unset], 2, 4⟩ true = some (multiSz, length) ∧
      multiSz.length = (([[65, 66], [67]] : List (List UInt8)).map fun s => s.length + 1).sum + 1 ∧
      length.toNat = multiSz.length ∧
      getMultiSzIndexArray .x64 multiSz true =
        some (.pointer (.pointer 0 :: (pointers.map .pointer ++ [.null]))) ∧
      pointers.map (fun p => terminated (multiSz.drop p)) = [[65, 66], [67]] :=
  multiSz_roundTrip rfl (by decide)
    ⟨by decide, by decide, by decide, by decide⟩

/-- Four strings of 2^30 bytes: the block has 2^32 + 5 bytes, and 5 are reported. -/
theorem multiSz_length_wraps :
    ∃ (a : StringArray) (strings : List (List UInt8)),
      a.strings = some strings ∧ (∀ s ∈ strings, s ≠ [] ∧ 0 ∉ s) ∧
      ∃ multiSz length, buildNonStandardRegMultiSz .x64 a true = some (multiSz, length) ∧
        multiSz.length = (strings.map fun s => s.length + 1).sum + 1 ∧
        length.toNat ≠ multiSz.length := by
  -- the string stays a variable, so that nothing unfolds it
  obtain ⟨s, hlength, hs⟩ : ∃ s : List UInt8, s.length = 2 ^ 30 ∧ 0 ∉ s :=
    ⟨List.replicate (2 ^ 30) 97, List.length_replicate, fun h => by
      exact absurd (List.eq_of_mem_replicate h) (by decide)⟩
  have hne : s ≠ [] := fun h => by
    rw [h] at hlength
    exact absurd hlength (by decide)
  have htotal : (encode [s, s, s, s]).length = 2 ^ 32 + 5 := by
    rw [length_encode]
    simp only [List.map_cons, List.map_nil, List.sum_cons, List.sum_nil, hlength]
    norm_num
  have hsize : (encode [s, s, s, s]).length < 2 ^ (8 * Abi.x64.sizeofPointer) := by
    rw [htotal]
    decide
  refine ⟨⟨[.pointer s, .pointer s, .pointer s, .pointer s], 4, 4⟩, [s, s, s, s], rfl, ?_, _, _,
    @buildNonStandardRegMultiSz_eq .x64 _ [s, s, s, s] rfl hsize, length_encode _, ?_⟩
  · intro t ht
    simp only [List.mem_cons, List.not_mem_nil, or_false, or_self] at ht
    exact ht ▸ ⟨hne, hs⟩
  · rw [UInt32.toNat_ofNat', htotal]
    decide

end UsbPcap.Cmd
