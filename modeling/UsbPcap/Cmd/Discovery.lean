import UsbPcap.Cmd.Options
import UsbPcap.Lib.LinkedList

/-!
# Discovery of the interfaces

`filters_initialize` walks over the object directory `\Device`, links the matching names into a
list and copies the list into the array of interfaces. The first query of the walk restarts the
scan, and what it returns is dropped.
-/

namespace UsbPcap.Cmd

open LinkedList

/-! ## `filters.c` -/

/-- The characters of a counted string. -/
abbrev UnicodeString := List UInt16

/-- `struct list`; the entries are in a heap of their own. `count` is an `int` in the source, and
stays below 2³¹: each entry takes an allocation. -/
structure FilterList where
  head : Option ℕ
  tail : Option ℕ
  count : ℕ
deriving DecidableEq, Repr

/-- A pointer of the array `usbpcapFilters`. -/
inductive FilterSlot where
  | uninitialized
  | null
  | filters (device : CStr)
deriving DecidableEq, Repr

/-- `list_insert`; `none` when a null pointer is followed. -/
def listInsert (heap : List (Node CStr)) (list : FilterList) (entry : ℕ) :
    Option (List (Node CStr) × FilterList) :=
  match list.head with
  | none => some (heap, { head := some entry, tail := some entry, count := 1 })
  | some _ =>
    list.tail.map fun tail =>
      (heap.modify tail fun node => { node with next := some entry },
        { list with tail := some entry, count := list.count + 1 })

/-- The cast of a `WCHAR` to a `char`. -/
def narrow (c : UInt16) : Char := Char.ofNat (c.toNat % 256)

/-- The block `add_to_list` fills: `"\\.\"`, the name and a NUL. -/
def deviceBlock (str : UnicodeString) : List Char :=
  ['\\', '\\', '.', '\\'] ++ str.map narrow ++ [Char.ofNat 0]

/-- `add_to_list`; an entry is a node in the heap. -/
def addToList (heap : List (Node CStr)) (list : FilterList) (str : UnicodeString) :
    Option (List (Node CStr) × FilterList) :=
  listInsert (heap ++ [Node.mk (deviceBlock str) none]) list heap.length

/-- `NtQueryDirectoryObject` for one entry; `none` when there is none left. -/
def ntQueryDirectoryObject (directory : List UnicodeString) (restartScan : Bool) (index : ℕ) :
    Option (UnicodeString × ℕ) :=
  let index := if restartScan then 0 else index
  directory[index]?.map fun name => (name, index + 1)

/-- `L"USBPcap"` -/
def usbpcapWide : UnicodeString := [85, 83, 66, 80, 99, 97, 112]

/-- `wcsncmp(prefix, buffer, n) == 0`; the buffer has a NUL behind the name. -/
def wcsncmpEq : ℕ → List UInt16 → List UInt16 → Bool
  | 0, _, _ => true
  | n + 1, prefix_, buffer =>
    if prefix_.headD 0 ≠ buffer.headD 0 then false
    else if prefix_.headD 0 = 0 then true
    else wcsncmpEq n prefix_.tail buffer.tail

/-- The query moves on by one entry, and there is one. -/
theorem ntQueryDirectoryObject_some {directory : List UnicodeString} {index next : ℕ}
    {name : UnicodeString} (h : ntQueryDirectoryObject directory false index = some (name, next)) :
    index < directory.length ∧ next = index + 1 := by
  obtain ⟨entry, hentry, heq⟩ := Option.map_eq_some_iff.mp h
  exact ⟨(List.getElem?_eq_some_iff.mp hentry).1, (Prod.mk.inj heq).2.symm⟩

/-- The `while` loop of `find_usbpcap_filters`, with `add_to_list` as the callback. -/
def findLoop (directory : List UnicodeString) (index : ℕ) (heap : List (Node CStr))
    (list : FilterList) : Option (List (Node CStr) × FilterList) :=
  match _h : ntQueryDirectoryObject directory false index with
  | none => some (heap, list)
  | some (name, index') =>
    if wcsncmpEq 7 usbpcapWide name then
      (addToList heap list name).bind fun found => findLoop directory index' found.1 found.2
    else findLoop directory index' heap list
termination_by directory.length - index
decreasing_by
  all_goals
    have := ntQueryDirectoryObject_some ‹_›
    omega

/-- `find_usbpcap_filters`: what it links, what it returns and what it prints. `directory` is
`\Device`, when it can be opened. -/
def findUsbpcapFilters (directory : Option (List UnicodeString)) (heap : List (Node CStr))
    (list : FilterList) : Option ((List (Node CStr) × FilterList) × Bool × String) :=
  match directory with
  | none => some ((heap, list), false, "NtOpenDirectoryObject() failed\n")
  | some directory =>
    match ntQueryDirectoryObject directory true 0 with
    | none => some ((heap, list), false, "NtQueryDirectoryObject() failed\n")
    | some (_, index) => (findLoop directory index heap list).map fun found => (found, true, "")

/-- The `for` loop of `filters_initialize`, with `n` slots to go from slot `i` on. -/
def fillSlots (heap : List (Node CStr)) :
    ℕ → ℕ → Option ℕ → List FilterSlot → Option (List FilterSlot)
  | 0, _, _, slots => some slots
  | _ + 1, _, none, slots => some slots
  | n + 1, i, some entry, slots =>
    heap[entry]?.bind fun node =>
      fillSlots heap n (i + 1) node.next (slots.set i (.filters node.value))

/-- `filters_initialize`: the array it leaves and what is printed. -/
def filtersInitialize (directory : Option (List UnicodeString)) :
    Option (List FilterSlot × String) :=
  (findUsbpcapFilters directory [] { head := none, tail := none, count := 0 }).bind
    fun ((heap, list), _, stderr) =>
      (fillSlots heap list.count 0 list.head
        (List.replicate (list.count + 1) .uninitialized)).map
        fun slots => (slots.set list.count .null, stderr)

/-! ## The comparison -/

theorem wcsncmpEq_iff {n : ℕ} {prefix_ name : List UInt16} (hn : n = prefix_.length)
    (h : 0 ∉ prefix_) : wcsncmpEq n prefix_ name = true ↔ prefix_ <+: name := by
  induction prefix_ generalizing n name with
  | nil =>
    rw [hn]
    exact iff_of_true rfl List.nil_prefix
  | cons c prefix_ ih =>
    have hc : c ≠ 0 := fun hzero => h (hzero ▸ List.mem_cons_self)
    have hrest : 0 ∉ prefix_ := fun hmem => h (List.mem_cons_of_mem c hmem)
    rw [hn, List.length_cons, wcsncmpEq, List.headD_cons, List.tail_cons]
    cases name with
    | nil =>
      rw [List.headD_nil, if_pos hc]
      exact iff_of_false Bool.false_ne_true fun hp =>
        List.cons_ne_nil c prefix_ (List.prefix_nil.mp hp)
    | cons d name =>
      rw [List.headD_cons, List.tail_cons, List.cons_prefix_cons]
      by_cases hcd : c = d
      · rw [if_neg (not_not_intro hcd), if_neg hc, ih rfl hrest]
        exact (and_iff_right hcd).symm
      · rw [if_pos hcd]
        exact iff_of_false Bool.false_ne_true fun hp => hcd hp.1

/-- The entry starts with `USBPcap`. -/
def Matching (name : UnicodeString) : Prop := usbpcapWide <+: name

instance : DecidablePred Matching := fun name =>
  inferInstanceAs (Decidable (usbpcapWide <+: name))

theorem wcsncmpEq_usbpcap (name : UnicodeString) :
    wcsncmpEq 7 usbpcapWide name = true ↔ Matching name :=
  wcsncmpEq_iff rfl (by decide)

/-! ## The list -/

/-- The list holds the devices, in order. -/
def Holds (heap : List (Node CStr)) (list : FilterList) (devices : List CStr) : Prop :=
  list.count = devices.length ∧
    ((list.head = none ∧ list.tail = none ∧ heap = [] ∧ devices = []) ∨
      ∃ first last, list.head = some first ∧ list.tail = some last ∧
        Linked heap list.head devices last)

theorem addToList_holds {heap : List (Node CStr)} {list : FilterList} {devices : List CStr}
    (h : Holds heap list devices) (str : UnicodeString) :
    ∃ found, addToList heap list str = some found ∧
      Holds found.1 found.2 (devices ++ [deviceBlock str]) := by
  obtain ⟨hcount, ⟨hhead, -, rfl, rfl⟩ | ⟨first, last, hhead, htail, hlinked⟩⟩ := h
  · refine ⟨([Node.mk (deviceBlock str) none], ⟨some 0, some 0, 1⟩), ?_, rfl, .inr ?_⟩
    · rw [addToList, listInsert, hhead]
      rfl
    · exact ⟨0, 0, rfl, rfl, linked_singleton (deviceBlock str)⟩
  · refine ⟨((heap ++ [Node.mk (deviceBlock str) none]).modify last
        fun node => { node with next := some heap.length },
      { list with tail := some heap.length, count := list.count + 1 }), ?_, ?_, .inr ?_⟩
    · rw [addToList, listInsert, hhead, htail]
      rfl
    · rw [List.length_append, List.length_singleton, ← hcount]
    · exact ⟨first, heap.length, hhead, rfl, hlinked.insert (deviceBlock str)⟩

/-- The loop links the matching entries from its index on. -/
theorem findLoop_holds (directory : List UnicodeString) (index : ℕ) {heap : List (Node CStr)}
    {list : FilterList} {devices : List CStr} (h : Holds heap list devices) :
    ∃ found, findLoop directory index heap list = some found ∧
      Holds found.1 found.2
        (devices ++ ((directory.drop index).filter Matching).map deviceBlock) := by
  rw [findLoop]
  by_cases hindex : index < directory.length
  · have hquery : ntQueryDirectoryObject directory false index =
        some (directory[index], index + 1) := by
      rw [ntQueryDirectoryObject, if_neg Bool.false_ne_true, List.getElem?_eq_getElem hindex]
      rfl
    rw [List.drop_eq_getElem_cons hindex, List.filter_cons]
    split
    · next hnone => exact absurd (hquery.symm.trans hnone) (Option.some_ne_none _)
    · next name index' hsome =>
      obtain ⟨rfl, rfl⟩ := Prod.mk.inj (Option.some.inj (hquery.symm.trans hsome))
      by_cases hmatch : Matching directory[index]
      · obtain ⟨found, hadd, hfound⟩ := addToList_holds h directory[index]
        rw [if_pos ((wcsncmpEq_usbpcap _).mpr hmatch), if_pos (decide_eq_true hmatch), hadd,
          Option.bind_some, List.map_cons, ← List.singleton_append, ← List.append_assoc]
        exact findLoop_holds directory (index + 1) hfound
      · rw [if_neg fun hcmp => hmatch ((wcsncmpEq_usbpcap _).mp hcmp),
          if_neg fun hdec => hmatch (of_decide_eq_true hdec)]
        exact findLoop_holds directory (index + 1) h
  · have hquery : ntQueryDirectoryObject directory false index = none := by
      rw [ntQueryDirectoryObject, if_neg Bool.false_ne_true,
        List.getElem?_eq_none (by omega)]
      rfl
    rw [List.drop_eq_nil_of_le (by omega), List.filter_nil, List.map_nil, List.append_nil]
    split
    · exact ⟨(heap, list), rfl, h⟩
    · next hsome => exact absurd (hquery.symm.trans hsome) (Option.some_ne_none _).symm
termination_by directory.length - index

/-! ## The array -/

/-- The slots from `i` on are filled with the rest of the list. -/
theorem fillSlots_segment {heap : List (Node CStr)} {bound : ℕ} {entry : Option ℕ}
    {devices : List CStr} (h : Segment heap bound entry devices none) (front : List FilterSlot)
    (n : ℕ) :
    fillSlots heap devices.length front.length entry
        (front ++ List.replicate (devices.length + n) .uninitialized) =
      some (front ++ devices.map .filters ++ List.replicate n .uninitialized) := by
  induction devices generalizing front entry with
  | nil => rw [List.map_nil, List.append_nil, List.length_nil, Nat.zero_add, fillSlots]
  | cons device devices ih =>
    obtain ⟨a, next, rfl, -, hnode, hrest⟩ := h
    have hset : (front ++ List.replicate (devices.length + 1 + n)
          FilterSlot.uninitialized).set front.length (.filters device) =
        (front ++ [.filters device]) ++ List.replicate (devices.length + n) .uninitialized := by
      rw [Nat.succ_add, List.replicate_succ, List.set_append_right _ _ le_rfl,
        Nat.sub_self, List.set_cons_zero, List.append_assoc, List.singleton_append]
    have hfill := ih hrest (front ++ [.filters device])
    rw [List.length_append, List.length_singleton] at hfill
    rw [List.length_cons, fillSlots, hnode, Option.bind_some, hset, hfill, List.map_cons,
      List.append_assoc front [_], List.singleton_append]

/-- What is linked: the matching entries behind the first one. -/
theorem findUsbpcapFilters_holds (directory : List UnicodeString) :
    ∃ found answer, findUsbpcapFilters (some directory) []
        { head := none, tail := none, count := 0 } = some (found, answer) ∧
      Holds found.1 found.2 ((directory.tail.filter Matching).map deviceBlock) := by
  have hempty : Holds [] { head := none, tail := none, count := 0 } [] :=
    ⟨rfl, .inl ⟨rfl, rfl, rfl, rfl⟩⟩
  cases directory with
  | nil => exact ⟨_, _, rfl, hempty⟩
  | cons name directory =>
    obtain ⟨found, hloop, hfound⟩ := findLoop_holds (name :: directory) 1 hempty
    refine ⟨found, (true, ""), ?_, hfound⟩
    exact congrArg (Option.map fun found => (found, true, "")) hloop

/-- The array holds the interfaces behind the first entry of the directory. -/
theorem filtersInitialize_eq (directory : List UnicodeString) :
    ∃ stderr, filtersInitialize (some directory) =
      some (((directory.tail.filter Matching).map deviceBlock).map .filters ++ [.null],
        stderr) := by
  obtain ⟨⟨heap, list⟩, answer, hfind, hcount, hfound⟩ := findUsbpcapFilters_holds directory
  generalize (directory.tail.filter Matching).map deviceBlock = devices at hcount hfound ⊢
  dsimp only at hcount hfound
  have hsegment : ∃ bound, Segment heap bound list.head devices none := by
    obtain ⟨hhead, -, -, rfl⟩ | ⟨first, last, -, -, hlinked⟩ := hfound
    · exact ⟨0, hhead⟩
    · exact ⟨_, hlinked.segment⟩
  obtain ⟨bound, hsegment⟩ := hsegment
  have hfill := fillSlots_segment hsegment [] 1
  rw [List.nil_append, List.nil_append, List.length_nil] at hfill
  refine ⟨answer.2, ?_⟩
  rw [filtersInitialize, hfind, Option.bind_some]
  dsimp only
  rw [hcount, hfill, Option.map_some, List.set_append_right _ _ (List.length_map _).le,
    List.length_map, Nat.sub_self]
  rfl

/-- `"\\.\"` -/
def devicePrefix : UnicodeString := [92, 92, 46, 92]

/-- The characters of a device as `WCHAR`s. -/
def wide (device : CStr) : UnicodeString := device.map fun c => UInt16.ofNat c.toNat

/-- The array lists every interface of the directory once, in order, and ends in a null pointer. -/
def Complete (directory : List UnicodeString) : Prop :=
  ∃ (devices : List CStr) (stderr : String),
    filtersInitialize (some directory) = some (devices.map .filters ++ [.null], stderr) ∧
      devices.map wide =
        (directory.filter Matching).map fun name => devicePrefix ++ name ++ [0]

theorem toNat_narrow {c : UInt16} (hc : c < 128) : UInt16.ofNat (narrow c).toNat = c := by
  have hall : ∀ n < 128, (Char.ofNat n).toNat = n := by decide
  have hlt : c.toNat < 128 := hc
  rw [narrow, Nat.mod_eq_of_lt (by omega), hall c.toNat hlt, UInt16.ofNat_toNat]

/-- An ASCII name comes through. -/
theorem deviceBlock_ascii {name : UnicodeString} (h : ∀ c ∈ name, c < 128) :
    wide (deviceBlock name) = devicePrefix ++ name ++ [0] := by
  have hname : (name.map narrow).map (fun c => UInt16.ofNat c.toNat) = name := by
    rw [List.map_map]
    exact (List.map_congr_left fun c hc => toNat_narrow (h c hc)).trans (List.map_id name)
  rw [wide, deviceBlock, List.map_append, List.map_append, hname]
  rfl

/-- The array holds every interface exactly when the first entry of the directory is none. -/
theorem filtersInitialize_complete_iff (directory : List UnicodeString)
    (hascii : ∀ name ∈ directory, ∀ c ∈ name, c < 128) :
    Complete directory ↔ ∀ name ∈ directory.head?, ¬ usbpcapWide <+: name := by
  have hblocks : ∀ names : List UnicodeString, (∀ name ∈ names, name ∈ directory) →
      (names.map deviceBlock).map wide =
        names.map fun name => devicePrefix ++ name ++ [0] := by
    intro names hnames
    rw [List.map_map]
    exact List.map_congr_left fun name hname => deviceBlock_ascii (hascii name (hnames name hname))
  obtain ⟨stderr, heq⟩ := filtersInitialize_eq directory
  cases directory with
  | nil =>
    exact iff_of_true ⟨[], stderr, heq, rfl⟩ fun name hname => absurd hname (Option.not_mem_none _)
  | cons first rest =>
    have hrest := hblocks (rest.filter Matching) fun name hname =>
      List.mem_cons_of_mem first (List.mem_of_mem_filter hname)
    constructor
    · rintro ⟨devices, stderr', hdevices, hnames⟩ name hname hmatch
      obtain rfl : first = name := Option.some.inj hname
      have hfirst : Matching first := hmatch
      rw [heq] at hdevices
      have hslots := (Prod.mk.inj (Option.some.inj hdevices)).1
      have hlength := congrArg List.length hslots
      have hmapped := congrArg List.length hnames
      rw [List.filter_cons, if_pos (decide_eq_true hfirst)] at hmapped
      rw [List.length_map, List.length_map, List.length_cons] at hmapped
      simp only [List.length_append, List.length_map, List.tail_cons, List.length_cons] at hlength
      omega
    · intro hfirst
      have hne : ¬ Matching first := hfirst first rfl
      refine ⟨_, stderr, heq, ?_⟩
      rw [List.tail_cons, hrest, List.filter_cons, if_neg fun h => hne (of_decide_eq_true h)]

/-- The directory with the entries `Null` and `USBPcap1`. -/
theorem filtersInitialize_behind_null :
    Complete [[78, 117, 108, 108], usbpcapWide ++ [49]] :=
  (filtersInitialize_complete_iff [[78, 117, 108, 108], usbpcapWide ++ [49]]
    (by simp [usbpcapWide])).mpr (by decide)

/-- The only entry of the directory, `USBPcap1`, is not found. -/
theorem filtersInitialize_first_entry : ¬ Complete [usbpcapWide ++ [49]] := by
  rintro ⟨devices, stderr, heq, hnames⟩
  obtain ⟨stderr', heq'⟩ := filtersInitialize_eq [usbpcapWide ++ [49]]
  have hslots := (Prod.mk.inj (Option.some.inj (heq.symm.trans heq'))).1
  have hnone : devices = [] := by
    have hlength := congrArg List.length hslots
    simp only [List.tail_cons, List.filter_nil, List.map_nil, List.nil_append,
      List.length_append, List.length_map, List.length_singleton] at hlength
    exact List.eq_nil_of_length_eq_zero (by omega)
  rw [hnone] at hnames
  revert hnames
  decide

end UsbPcap.Cmd
