import UsbPcap.Driver.Interfaces
import UsbPcap.Lib.CText
import UsbPcap.Lib.Transition

/-!
# The growable string array

`insert_string_array` doubles the recorded size before it asks for the larger block. When `realloc`
fails, the size stays doubled, and the next call writes behind the old block. `sound_iff` says for
which sequences of calls the array never claims more room than it has.
-/

namespace UsbPcap.Cmd

open Driver (Abi)
open CText (literal)
open Transition

/-! ## `roothubs.c` -/

/-- What is in a slot for a pointer: nothing written yet, a null pointer, or a pointer to a
target. -/
inductive Slot (α : Type*) where
  | unset
  | null
  | pointer (target : α)
deriving DecidableEq, Repr

/-- `StringArray`. The block behind `array` is the list of its slots, which point to copies of the
strings. -/
structure StringArray where
  array : List (Slot (List UInt8))
  used : ℕ
  size : ℕ
deriving DecidableEq, Repr

/-- A call of `insert_string_array`: the string, whether `realloc` finds a block if it is asked,
and whether `_tcsdup` does. -/
structure InsertCall where
  hwid : List UInt8
  realloc : Bool
  tcsdup : Bool
deriving DecidableEq, Repr

/-- What `_tcsdup` returns. -/
def InsertCall.slot (call : InsertCall) : Slot (List UInt8) :=
  if call.tcsdup then .pointer call.hwid else .null

/-- The slots in a block for `count` pointers, whose size is computed in a `size_t`. -/
def slotsFor (abi : Abi) (count : ℕ) : ℕ :=
  count * abi.sizeofPointer % 2 ^ (8 * abi.sizeofPointer) / abi.sizeofPointer

/-- `init_string_array`; `malloc` says whether there is a block. -/
def initStringArray (abi : Abi) (initialSize : ℕ) (malloc : Bool) : StringArray where
  array := if malloc then List.replicate (slotsFor abi initialSize) .unset else []
  used := 0
  size := initialSize

/-- `realloc`: the new block, or what is left of the old one when there is none. A request for no
bytes frees the block. -/
def reallocSlots {α : Type*} (block : List (Slot α)) (count : ℕ) (found : Bool) :
    Except (List (Slot α)) (List (Slot α)) :=
  if count = 0 then .error []
  else if found then .ok ((block ++ List.replicate count Slot.unset).take count)
  else .error block

/-- Write a slot of a block. -/
def writeSlot {α : Type*} (block : List (Slot α)) (i : ℕ) (slot : Slot α) :
    Option (List (Slot α)) :=
  if i < block.length then some (block.set i slot) else none

/-- `a->array[a->used++] = _tcsdup(hwid)` -/
def store (a : StringArray) (call : InsertCall) : Option StringArray :=
  (writeSlot a.array a.used call.slot).map fun array =>
    { a with array := array, used := a.used + 1 }

/-- `insert_string_array`, with what it prints to `stderr`; `none` where the `int` overflows or the
write is out of bounds. -/
def insertStringArray (abi : Abi) (a : StringArray) (call : InsertCall) :
    Option (StringArray × List UInt8) :=
  if a.used = a.size then
    if a.size * 2 < 2 ^ 31 then
      match reallocSlots a.array (slotsFor abi (a.size * 2)) call.realloc with
      | .error block =>
        some ({ a with array := block, size := a.size * 2 },
          literal "failed to insert " ++ call.hwid ++ literal " to string array!\n")
      | .ok tmp => (store { a with array := tmp, size := a.size * 2 } call).map fun b => (b, [])
    else none
  else (store a call).map fun b => (b, [])

/-- One call, as a step. -/
def insertStep (abi : Abi) (a : StringArray) (call : InsertCall) : Option StringArray :=
  (insertStringArray abi a call).map Prod.fst

/-! ## Blocks -/

variable {abi : Abi}

/-- Pointers have bytes. -/
theorem sizeofPointer_pos (abi : Abi) : 0 < abi.sizeofPointer := by
  cases abi with
  | x86 => decide
  | x64 => decide

/-- A wrapped size has room for fewer pointers. -/
theorem slotsFor_le (abi : Abi) (count : ℕ) : slotsFor abi count ≤ count := by
  rw [slotsFor]
  exact Nat.div_le_of_le_mul (Nat.mul_comm _ count ▸ Nat.mod_le _ _)

/-- The block has all the slots exactly if its size fits a `size_t`. -/
theorem slotsFor_eq_iff (abi : Abi) (count : ℕ) :
    slotsFor abi count = count ↔ count * abi.sizeofPointer < 2 ^ (8 * abi.sizeofPointer) := by
  have hpos := sizeofPointer_pos abi
  rw [slotsFor]
  constructor
  · intro h
    have hmod : count * abi.sizeofPointer ≤
        count * abi.sizeofPointer % 2 ^ (8 * abi.sizeofPointer) := by
      conv_lhs => rw [← h]
      exact Nat.div_mul_le_self _ _
    exact Nat.lt_of_le_of_lt hmod (Nat.mod_lt _ (Nat.two_pow_pos _))
  · intro h
    rw [Nat.mod_eq_of_lt h, Nat.mul_div_cancel _ hpos]

/-! ## One call -/

/-- A call that finds the array full gets its block, whose number of slots fits an `int` and whose
size fits a `size_t`. -/
def Grows (abi : Abi) (a : StringArray) (call : InsertCall) : Prop :=
  a.used = a.size → call.realloc = true ∧ a.size * 2 < 2 ^ 31 ∧
    a.size * 2 * abi.sizeofPointer < 2 ^ (8 * abi.sizeofPointer)

/-- The recorded size is the number of slots, of which the first ones are in use. -/
structure StringArray.Exact (a : StringArray) : Prop where
  block : a.array.length = a.size
  used : a.used ≤ a.size
  pos : 0 < a.size

/-- What a call may do to an exact array: store its string behind the others, in a block that is as
large as recorded. -/
structure Inserted (a : StringArray) (call : InsertCall) (b : StringArray) : Prop where
  exact : b.Exact
  used : b.used = a.used + 1
  stored : b.array[a.used]? = some call.slot
  kept : ∀ i < a.used, b.array[i]? = a.array[i]?

/-- In an exact array with room, a string is stored behind the others. -/
theorem store_eq {a : StringArray} (h : a.Exact) (hroom : a.used < a.size) (call : InsertCall) :
    ∃ b, store a call = some b ∧ Inserted a call b := by
  have hlt : a.used < a.array.length := h.block ▸ hroom
  rw [store, writeSlot, if_pos hlt]
  refine ⟨_, rfl, ⟨?_, hroom, h.pos⟩, rfl, ?_, fun i hi => ?_⟩
  · exact List.length_set.trans h.block
  · exact List.getElem?_set_self hlt
  · exact List.getElem?_set_ne (Nat.ne_of_gt hi)

/-- A larger block with the old slots in front. -/
theorem reallocSlots_ok {α : Type*} {block : List (Slot α)} {count : ℕ} (hpos : 0 < count)
    (hle : block.length ≤ count) :
    ∃ tmp, reallocSlots block count true = .ok tmp ∧ tmp.length = count ∧
      ∀ i < block.length, tmp[i]? = block[i]? := by
  rw [reallocSlots, if_neg hpos.ne', if_pos rfl]
  refine ⟨_, rfl, ?_, fun i hi => ?_⟩
  · rw [List.length_take, List.length_append, List.length_replicate]
    omega
  · rw [List.getElem?_take_of_lt (by omega), List.getElem?_append_left hi]

/-- A block that is found has no more slots than were asked for. -/
theorem reallocSlots_eq_ok {α : Type*} {block tmp : List (Slot α)} {count : ℕ} {found : Bool}
    (h : reallocSlots block count found = .ok tmp) : found = true ∧ tmp.length ≤ count := by
  rw [reallocSlots] at h
  split at h
  · cases h
  · split at h
    · rename_i hfound
      rw [← Except.ok.inj h]
      exact ⟨hfound, List.length_take_le _ _⟩
    · cases h

/-- A call that gets the room it needs stores its string. -/
theorem insertStringArray_grows {a : StringArray} (h : a.Exact) {call : InsertCall}
    (hgrows : Grows abi a call) :
    ∃ b, insertStringArray abi a call = some (b, []) ∧ Inserted a call b := by
  rw [insertStringArray]
  by_cases hfull : a.used = a.size
  · obtain ⟨hfound, hint, hsize⟩ := hgrows hfull
    have hpos := h.pos
    have hblock := h.block
    rw [if_pos hfull, if_pos hint, (slotsFor_eq_iff abi _).mpr hsize, hfound]
    obtain ⟨tmp, htmp, hlength, hkept⟩ :=
      @reallocSlots_ok _ a.array (a.size * 2) (by omega) (by omega)
    have hexact : StringArray.Exact { a with array := tmp, size := a.size * 2 } :=
      ⟨hlength, by dsimp only; omega, by dsimp only; omega⟩
    obtain ⟨b, hb, hinserted⟩ := store_eq hexact (by dsimp only; omega) call
    rw [htmp]
    dsimp only
    rw [hb]
    refine ⟨b, rfl, hinserted.exact, hinserted.used, hinserted.stored, fun i hi => ?_⟩
    rw [hinserted.kept i hi]
    exact hkept i (by omega)
  · have hused := h.used
    obtain ⟨b, hb, hinserted⟩ := store_eq h (by omega) call
    rw [if_neg hfull, hb]
    exact ⟨b, rfl, hinserted⟩

/-- A failed `realloc` leaves the size doubled. -/
theorem insertStringArray_fails {a : StringArray} {call : InsertCall} (hfull : a.used = a.size)
    (hint : a.size * 2 < 2 ^ 31) {block : List (Slot (List UInt8))}
    (h : reallocSlots a.array (slotsFor abi (a.size * 2)) call.realloc = .error block) :
    ∃ message, insertStringArray abi a call =
      some ({ a with array := block, size := a.size * 2 }, message) ∧ message ≠ [] := by
  rw [insertStringArray, if_pos hfull, if_pos hint, h]
  exact ⟨_, rfl, List.append_ne_nil_of_left_ne_nil
    (List.append_ne_nil_of_left_ne_nil (by decide) _) _⟩

/-- Storing makes no room. -/
theorem length_of_store {a b : StringArray} {call : InsertCall} (h : store a call = some b) :
    b.array.length = a.array.length ∧ b.size = a.size := by
  obtain ⟨array, harray, rfl⟩ := Option.map_eq_some_iff.mp h
  rw [writeSlot] at harray
  split at harray
  · exact ⟨(congrArg List.length (Option.some.inj harray)).symm.trans List.length_set, rfl⟩
  · cases harray

/-- A call after which the array has the room that it claims, and which has changed nothing if it
failed, got the room it needed. -/
theorem grows_of_insert {a b : StringArray} (h : a.Exact) {call : InsertCall}
    {message : List UInt8} (hinsert : insertStringArray abi a call = some (b, message))
    (hroom : b.size ≤ b.array.length) (hunchanged : message ≠ [] → b = a) :
    Grows abi a call := by
  intro hfull
  have hpos := h.pos
  by_cases hint : a.size * 2 < 2 ^ 31
  · cases hblock : reallocSlots a.array (slotsFor abi (a.size * 2)) call.realloc with
    | error block =>
      obtain ⟨text, hfails, hne⟩ := insertStringArray_fails hfull hint hblock
      rw [hfails] at hinsert
      obtain ⟨rfl, rfl⟩ := Prod.mk.inj (Option.some.inj hinsert)
      have hsize := congrArg StringArray.size (hunchanged hne)
      dsimp only at hsize
      omega
    | ok tmp =>
      rw [insertStringArray, if_pos hfull, if_pos hint, hblock] at hinsert
      dsimp only at hinsert
      obtain ⟨c, hstore, hc⟩ := Option.map_eq_some_iff.mp hinsert
      obtain ⟨rfl, -⟩ := Prod.mk.inj hc
      obtain ⟨hlength, hsize⟩ := length_of_store hstore
      dsimp only at hlength hsize
      obtain ⟨hfound, hcount⟩ := reallocSlots_eq_ok hblock
      have hle := slotsFor_le abi (a.size * 2)
      exact ⟨hfound, hint, (slotsFor_eq_iff abi _).mp (by omega)⟩
  · rw [insertStringArray, if_pos hfull, if_neg hint] at hinsert
    cases hinsert

/-! ## Runs of calls -/

/-- What a sequence of calls keeps: no behaviour is undefined, after every call the array has the
room that it claims, what a successful call has stored is still there, and a call that fails changes
nothing. -/
structure Sound (abi : Abi) (init : StringArray) (calls : List InsertCall) : Prop where
  defined : ∃ a, run (insertStep abi) init calls = some a
  room : Always (insertStep abi)
    (fun a => a.used ≤ a.array.length ∧ a.size ≤ a.array.length) init calls
  stored : ∀ front call back a b, calls = front ++ call :: back →
    run (insertStep abi) init front = some a → insertStringArray abi a call = some (b, []) →
    Always (insertStep abi) (fun c => c.array[a.used]? = some call.slot) b back
  unchanged : ∀ front call back a b message, calls = front ++ call :: back →
    run (insertStep abi) init front = some a →
    insertStringArray abi a call = some (b, message) → message ≠ [] → b = a

/-- A call that goes well is a step, whatever it returns. -/
theorem insertStep_eq_some_iff {a b : StringArray} {call : InsertCall} :
    insertStep abi a call = some b ↔
      ∃ message, insertStringArray abi a call = some (b, message) := by
  rw [insertStep, Option.map_eq_some_iff]
  constructor
  · rintro ⟨⟨c, message⟩, h, rfl⟩
    exact ⟨message, h⟩
  · rintro ⟨message, h⟩
    exact ⟨_, h, rfl⟩

/-- A step with enough room stores the string. -/
theorem inserted_of_step {a b : StringArray} (h : a.Exact) {call : InsertCall}
    (hgrows : Grows abi a call) (hstep : insertStep abi a call = some b) : Inserted a call b := by
  obtain ⟨c, hc, hinserted⟩ := insertStringArray_grows h hgrows
  obtain ⟨message, hb⟩ := insertStep_eq_some_iff.mp hstep
  rw [hc] at hb
  obtain ⟨rfl, -⟩ := Prod.mk.inj (Option.some.inj hb)
  exact hinserted

section Runs

variable {a : StringArray} {calls : List InsertCall}

/-- Growing arrays stay exact over all calls. -/
theorem StringArray.Exact.of_run (h : a.Exact)
    (hok : Along (insertStep abi) (Grows abi) a calls) {b : StringArray}
    (hrun : run (insertStep abi) a calls = some b) : b.Exact :=
  hok.run_induction h (fun _ _ _ _ hs hgrows hstep => (inserted_of_step hs hgrows hstep).exact) hrun

/-- And all calls go well. -/
theorem exists_run (h : a.Exact) (hok : Along (insertStep abi) (Grows abi) a calls) :
    ∃ b, run (insertStep abi) a calls = some b := by
  induction calls using List.reverseRecOn with
  | nil => exact ⟨a, rfl⟩
  | append_singleton calls call ih =>
    obtain ⟨b, hb⟩ := ih hok.of_append
    have hgrows : Grows abi b call := hok calls call [] b rfl hb
    obtain ⟨c, hc, -⟩ := insertStringArray_grows (h.of_run hok.of_append hb) hgrows
    exact ⟨c, run_concat.mpr ⟨b, hb, insertStep_eq_some_iff.mpr ⟨[], hc⟩⟩⟩

/-- Where every call gets the room it needs, the run keeps what it should. -/
theorem Sound.of_along (h : a.Exact) (hok : Along (insertStep abi) (Grows abi) a calls) :
    Sound abi a calls where
  defined := exists_run h hok
  room := by
    intro front b hfront hb
    obtain ⟨back, rfl⟩ := hfront
    have hexact := h.of_run hok.of_append hb
    exact ⟨hexact.block ▸ hexact.used, hexact.block.ge⟩
  stored := by
    rintro front call back b c rfl hb hinsert
    have hexact := h.of_run hok.of_append hb
    have hrest : Along (insertStep abi) (Grows abi) b (call :: back) := hok.drop hb
    have hstep : insertStep abi b call = some c := insertStep_eq_some_iff.mpr ⟨[], hinsert⟩
    have hfirst := inserted_of_step hexact (hok front call back b rfl hb) hstep
    have hfirstRun : run (insertStep abi) b [call] = some c := by
      rw [run_cons, hstep]
      rfl
    have hback : Along (insertStep abi) (Grows abi) c back :=
      @Along.drop _ _ _ _ _ _ [call] back hrest hfirstRun
    -- the slot stays among those in use, and these are kept
    have hinv : Always (insertStep abi)
        (fun d => d.Exact ∧ b.used < d.used ∧ d.array[b.used]? = some call.slot) c back := by
      refine hback.always ⟨hfirst.exact, hfirst.used.symm ▸ Nat.lt_succ_self _, hfirst.stored⟩ ?_
      rintro s x t - ⟨hs, hlt, hslot⟩ hgrows hst
      have hinserted := inserted_of_step hs hgrows hst
      refine ⟨hinserted.exact, ?_, (hinserted.kept _ hlt).trans hslot⟩
      rw [hinserted.used]
      exact Nat.lt_succ_of_lt hlt
    exact fun mid d hmid hd => (hinv mid d hmid hd).2.2
  unchanged := by
    rintro front call back b c message rfl hb hinsert hne
    obtain ⟨d, hd, -⟩ := insertStringArray_grows (h.of_run hok.of_append hb)
      (hok front call back b rfl hb)
    rw [hd] at hinsert
    exact absurd (Prod.mk.inj (Option.some.inj hinsert)).2.symm hne

/-- Fewer calls are sound where more are. -/
theorem Sound.of_append {more : List InsertCall} (h : Sound abi a (calls ++ more)) :
    Sound abi a calls where
  defined := by
    obtain ⟨b, hb⟩ := h.defined
    rw [run_append] at hb
    obtain ⟨c, hc, -⟩ := Option.bind_eq_some_iff.mp hb
    exact ⟨c, hc⟩
  room := h.room.of_append
  stored := by
    rintro front call back b c rfl hb hinsert
    exact (h.stored front call (back ++ more) b c (by simp) hb hinsert).of_append
  unchanged := by
    rintro front call back b c message rfl hb hinsert
    exact h.unchanged front call (back ++ more) b c message (by simp) hb hinsert

/-- A run that keeps what it should has only calls that get the room they need. -/
theorem Sound.along (h : a.Exact) (hsound : Sound abi a calls) :
    Along (insertStep abi) (Grows abi) a calls := by
  induction calls using List.reverseRecOn with
  | nil => exact Along.nil
  | append_singleton calls call ih =>
    have hbefore := ih hsound.of_append
    refine hbefore.concat fun b hb => ?_
    obtain ⟨c, hc⟩ := hsound.defined
    obtain ⟨b', hb', hstep⟩ := run_concat.mp hc
    obtain rfl := Option.some.inj (hb.symm.trans hb')
    obtain ⟨message, hinsert⟩ := insertStep_eq_some_iff.mp hstep
    exact grows_of_insert (h.of_run hbefore hb) hinsert
      (hsound.room _ c (List.prefix_refl _) hc).2
      (hsound.unchanged calls call [] b c message rfl hb hinsert)

end Runs

/-- A new array of a size that does not wrap is exact. -/
theorem exact_initStringArray {initialSize : ℕ} (hpos : 0 < initialSize)
    (hsize : initialSize * abi.sizeofPointer < 2 ^ (8 * abi.sizeofPointer)) :
    (initStringArray abi initialSize true).Exact where
  block := by
    rw [initStringArray, if_pos rfl, List.length_replicate, (slotsFor_eq_iff abi _).mpr hsize]
  used := Nat.zero_le _
  pos := hpos

/-- A new array has room only where `malloc` grants a size that did not wrap. -/
theorem room_initStringArray {initialSize : ℕ} (hpos : 0 < initialSize) {malloc : Bool}
    (hroom : initialSize ≤ (initStringArray abi initialSize malloc).array.length) :
    malloc = true ∧ initialSize * abi.sizeofPointer < 2 ^ (8 * abi.sizeofPointer) := by
  rw [initStringArray] at hroom
  cases malloc with
  | false => exact absurd hroom (Nat.not_le.mpr hpos)
  | true =>
    rw [if_pos rfl, List.length_replicate] at hroom
    exact ⟨rfl, (slotsFor_eq_iff abi _).mp (Nat.le_antisymm (slotsFor_le abi _) hroom)⟩

/-- The array never claims more room than it has, in a whole sequence of calls, exactly when every
block that it asks for is granted and can be expressed. -/
theorem sound_iff (abi : Abi) {initialSize : ℕ} (hpos : 0 < initialSize) (malloc : Bool)
    (calls : List InsertCall) :
    Sound abi (initStringArray abi initialSize malloc) calls ↔
      (malloc = true ∧ initialSize * abi.sizeofPointer < 2 ^ (8 * abi.sizeofPointer)) ∧
        Along (insertStep abi) (Grows abi) (initStringArray abi initialSize malloc) calls := by
  constructor
  · intro h
    have hroom := (h.room [] _ (List.nil_prefix) rfl).2
    obtain ⟨rfl, hsize⟩ := room_initStringArray hpos hroom
    exact ⟨⟨rfl, hsize⟩, h.along (exact_initStringArray hpos hsize)⟩
  · rintro ⟨⟨rfl, hsize⟩, hok⟩
    exact Sound.of_along (exact_initStringArray hpos hsize) hok

instance (abi : Abi) (a : StringArray) (call : InsertCall) : Decidable (Grows abi a call) :=
  inferInstanceAs (Decidable (_ → _))

/-- Three calls, of which one finds no memory. -/
theorem sound_grantedCalls :
    0 < 1 ∧ Sound .x64 (initStringArray .x64 1 true)
      [⟨[65], false, true⟩, ⟨[66], true, false⟩, ⟨[67], true, true⟩] := by
  refine ⟨by decide, (sound_iff .x64 (by decide) true _).mpr ⟨by decide, ?_⟩⟩
  exact .cons (by decide) rfl (.cons (by decide) rfl (.cons (by decide) rfl .nil))

/-- After a `realloc` that fails, one slot is recorded as two, and the next call writes behind the
block. -/
theorem not_sound_failedCall :
    0 < 1 ∧
      ¬ Sound .x64 (initStringArray .x64 1 true) [⟨[65], true, true⟩, ⟨[66], false, true⟩] ∧
      run (insertStep .x64) (initStringArray .x64 1 true)
        [⟨[65], true, true⟩, ⟨[66], false, true⟩, ⟨[67], true, true⟩] = none := by
  refine ⟨by decide, fun h => ?_, rfl⟩
  have hroom := (h.room _ _ (List.prefix_refl _) rfl).2
  revert hroom
  decide

end UsbPcap.Cmd
