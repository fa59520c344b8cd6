import UsbPcap.Cmd.Capture
import UsbPcap.Cmd.HubTree
import UsbPcap.Cmd.JsonText

/-!
# Device lists

`list_all_devices` prints the devices of every interface, as text or as JSON. An interface whose
enumeration fails is skipped, but the separator in front of an interface only asks for its index.
`decode_listAllDevices_iff` says when the JSON text is the document that it should be.
-/

namespace UsbPcap.Cmd

open CText Json
open HubTree (ConnectedDeviceInfo)

/-! ## `cmd.c` -/

/-- An entry of `usbpcapFilters`, and what `enumerate_get_connected_devices` finds there, if it does
not fail. -/
structure Interface where
  device : List UInt8
  connected : Option (List ConnectedDeviceInfo)
deriving DecidableEq, Repr

/-- A loop that prints its items with commas between them. -/
def commaLoop {α : Type*} (print : α → List UInt8) : ℕ → List α → List UInt8
  | _, [] => []
  | i, x :: xs => (if 0 < i then literal "," else []) ++ print x ++ commaLoop print (i + 1) xs

/-- The name behind the last backslash, as `strrchr` finds it. -/
def displayName (device : List UInt8) : List UInt8 :=
  (device.reverse.takeWhile (· ≠ '\\'.toUInt8)).reverse

/-- An interface in the JSON output of `list_interfaces`. -/
def interfaceJson (device : List UInt8) : List UInt8 :=
  literal "\x7b\"name\":" ++ jsonPrintEscaped (some device) ++
    literal ",\"displayName\":" ++ jsonPrintEscaped (some (displayName device)) ++ literal "\x7d"

/-- `list_interfaces` -/
def listInterfaces (jsonOutput : Bool) (filters : List (List UInt8)) : List UInt8 :=
  if jsonOutput then
    literal "\x7b\"interfaces\":[" ++ commaLoop interfaceJson 0 filters ++ literal "]\x7d\n"
  else filters.flatMap fun device => device ++ literal "\n"

/-- What a command returns and prints. -/
structure CommandOutput where
  ret : ℤ
  stdout : List UInt8
  stderr : List UInt8
deriving DecidableEq, Repr

/-- A device in the JSON output of `list_devices`. -/
def detailJson (d : ConnectedDeviceInfo) : List UInt8 :=
  literal "\x7b\"address\":" ++ bytes (decimal d.address.toNat) ++
    literal ",\"port\":" ++ bytes (decimal d.port.toNat) ++
    literal ",\"parentAddress\":" ++ bytes (decimal d.parentAddress.toNat) ++
    literal ",\"vendorId\":\"" ++ bytes (hex4 d.vendorId).toList ++
    literal "\",\"productId\":\"" ++ bytes (hex4 d.productId).toList ++
    literal "\",\"isHub\":" ++ literal (if d.isHub then "true" else "false") ++
    literal ",\"description\":" ++ jsonPrintEscaped (some d.description) ++ literal "\x7d"

/-- A device in the text output of `list_devices`. -/
def detailLine (d : ConnectedDeviceInfo) : List UInt8 :=
  literal "address=" ++ bytes (decimal d.address.toNat) ++
    literal " port=" ++ bytes (decimal d.port.toNat) ++
    literal " parent=" ++ bytes (decimal d.parentAddress.toNat) ++
    literal " vid=" ++ bytes (hex4 d.vendorId).toList ++
    literal " pid=" ++ bytes (hex4 d.productId).toList ++
    literal " isHub=" ++ literal (if d.isHub then "true" else "false") ++
    (if d.description = [] then [] else literal "  " ++ d.description) ++ literal "\n"

/-- `list_devices`, where `connected` is what `enumerate_get_connected_devices` finds. -/
def listDevices (filter : Option (List UInt8)) (jsonOutput : Bool)
    (connected : Option (List ConnectedDeviceInfo)) : CommandOutput :=
  match filter, connected with
  | none, _ =>
    ⟨-1, [],
      literal "Interface must be specified with --interface when using --list-devices.\n" ++
        literal "Omit --interface to list devices from all interfaces.\n"⟩
  | some filter, none =>
    ⟨-1, [], literal "Failed to enumerate connected devices for " ++ filter ++ literal "\n"⟩
  | some filter, some devices =>
    if jsonOutput then
      ⟨0, literal "\x7b\"interface\":" ++ jsonPrintEscaped (some filter) ++
        literal ",\"devices\":[" ++ commaLoop detailJson 0 devices ++ literal "]\x7d\n", []⟩
    else ⟨0, devices.flatMap detailLine, []⟩

/-- A device in the JSON output of `list_all_devices`. -/
def deviceJson (d : ConnectedDeviceInfo) : List UInt8 :=
  literal "\x7b\"address\":" ++ bytes (decimal d.address.toNat) ++
    literal ",\"vendorId\":\"" ++ bytes (hex4 d.vendorId).toList ++
    literal "\",\"productId\":\"" ++ bytes (hex4 d.productId).toList ++
    literal "\",\"isHub\":" ++ literal (if d.isHub then "true" else "false") ++
    literal ",\"description\":" ++ jsonPrintEscaped (some d.description) ++ literal "\x7d"

/-- A device in the text output of `list_all_devices`. -/
def deviceLine (d : ConnectedDeviceInfo) : List UInt8 :=
  literal "  address=" ++ bytes ((decimal d.address.toNat).rightpad 3 ' ') ++
    literal " vid=" ++ bytes (hex4 d.vendorId).toList ++
    literal " pid=" ++ bytes (hex4 d.productId).toList ++
    (if d.isHub then literal "  [Hub]" else []) ++
    (if d.description = [] then [] else literal "  " ++ d.description) ++ literal "\n"

/-- The body of the loop in `list_all_devices` for an interface that is enumerated. -/
def printInterface (jsonOutput : Bool) (i : ℕ) (filter : List UInt8)
    (devices : List ConnectedDeviceInfo) : List UInt8 :=
  if jsonOutput then
    (if 0 < i then literal "," else []) ++
      literal "\x7b\"interface\":" ++ jsonPrintEscaped (some filter) ++
      literal ",\"devices\":[" ++ commaLoop deviceJson 0 devices ++ literal "]\x7d"
  else
    (if 0 < i then literal "\n" else []) ++ literal "[" ++ filter ++ literal "]\n" ++
      devices.flatMap deviceLine

/-- The loop of `list_all_devices`: what it prints, and the last `i` and `device_count`. -/
def listLoop (jsonOutput : Bool) : ℕ → Int32 → List Interface → List UInt8 × ℕ × Int32
  | i, deviceCount, [] => ([], i, deviceCount)
  | i, deviceCount, f :: filters =>
    match f.connected with
    | none => listLoop jsonOutput (i + 1) deviceCount filters
    | some devices =>
      let rest := listLoop jsonOutput (i + 1) (deviceCount + .ofNat devices.length) filters
      (printInterface jsonOutput i f.device devices ++ rest.1, rest.2)

/-- `list_all_devices` -/
def listAllDevices (jsonOutput : Bool) (filters : List Interface) : List UInt8 :=
  let (text, i, deviceCount) := listLoop jsonOutput 0 0 filters
  if jsonOutput then literal "\x7b\"interfaces\":[" ++ text ++ literal "]\x7d\n"
  else
    text ++ literal "\nTotal: " ++ literal (toString deviceCount.toInt) ++
      literal " device(s) across " ++ bytes (decimal i) ++ literal " interface(s)\n"

/-! ## The documents -/

/-- A C string in UTF-8. -/
def IsText (s : List UInt8) : Prop := ∃ text, '\x00' ∉ text ∧ s = bytes text

/-- The characters of a text. -/
def textOf (s : List UInt8) : List Char := (decodeUtf8 s).getD []

/-- The characters behind the last backslash. -/
def lastName (text : List Char) : List Char := (text.reverse.takeWhile (· ≠ '\\')).reverse

/-- The object for an interface in `list_interfaces`. -/
def interfaceDocument (device : List UInt8) : Value :=
  .object [("name".toList, .string (textOf device)),
    ("displayName".toList, .string (lastName (textOf device)))]

/-- The object for a device in `list_devices`. -/
def detailDocument (d : ConnectedDeviceInfo) : Value :=
  .object [("address".toList, .number d.address.toNat), ("port".toList, .number d.port.toNat),
    ("parentAddress".toList, .number d.parentAddress.toNat),
    ("vendorId".toList, .string (hex4 d.vendorId).toList),
    ("productId".toList, .string (hex4 d.productId).toList),
    ("isHub".toList, .bool d.isHub),
    ("description".toList, .string (textOf d.description))]

/-- The object for a device in `list_all_devices`. -/
def ConnectedDeviceInfo.document (d : ConnectedDeviceInfo) : Value :=
  .object [("address".toList, .number d.address.toNat),
    ("vendorId".toList, .string (hex4 d.vendorId).toList),
    ("productId".toList, .string (hex4 d.productId).toList),
    ("isHub".toList, .bool d.isHub),
    ("description".toList, .string (textOf d.description))]

/-- Its object for an interface that is enumerated. -/
def Interface.document (f : Interface) : Option Value :=
  f.connected.map fun devices =>
    .object [("interface".toList, .string (textOf f.device)),
      ("devices".toList, .array (devices.map ConnectedDeviceInfo.document))]

/-- What its JSON output should be. -/
def listing (filters : List Interface) : Value :=
  .object [("interfaces".toList, .array (filters.filterMap Interface.document))]

/-- The name is a C string, and the descriptions are text. -/
structure Interface.Described (f : Interface) : Prop where
  device : 0 ∉ f.device
  descriptions : ∀ devices, f.connected = some devices → ∀ d ∈ devices, IsText d.description

/-- A name that is printed is text. -/
def Interface.Named (f : Interface) : Prop := f.connected ≠ none → IsText f.device

/-- What is printed is text. -/
def Interface.Printable (f : Interface) : Prop :=
  ∀ devices, f.connected = some devices → IsText f.device ∧ ∀ d ∈ devices, IsText d.description

/-- An interface with its texts can be printed. -/
theorem Interface.Described.printable {f : Interface} (h : f.Described) (hname : f.Named) :
    f.Printable := by
  intro devices hdevices
  refine ⟨hname ?_, h.descriptions devices hdevices⟩
  rw [hdevices]
  exact Option.some_ne_none devices

/-! ## Devices -/

/-- A text is that of its bytes. -/
theorem textOf_bytes (text : List Char) : textOf (bytes text) = text := by
  rw [textOf, decodeUtf8_bytes, Option.getD_some]

/-- A string that is text is printed as its characters are. -/
theorem IsText.jsonPrintEscaped {s : List UInt8} (h : IsText s) :
    jsonPrintEscaped (some s) = bytes (quoted (textOf s)) := by
  obtain ⟨text, hzero, rfl⟩ := h
  rw [jsonPrintEscaped_bytes hzero, textOf_bytes]

/-- Ids are printed in plain characters. -/
theorem plain_hex4 (id : UInt16) : ∀ c ∈ (hex4 id).toList, Plain c := by
  rw [hex4, String.toList_ofList]
  intro c hc
  rw [List.mem_cons, List.mem_cons] at hc
  rcases hc with rfl | rfl | hc
  · decide
  · decide
  · exact plain_of_isLowerHex (isLowerHex_of_mem_leftpad hc)

/-- The text of a device. -/
def deviceText (d : ConnectedDeviceInfo) : List Char :=
  '{' :: (separated
    [member "address".toList (decimal d.address.toNat),
      member "vendorId".toList ('"' :: ((hex4 d.vendorId).toList ++ ['"'])),
      member "productId".toList ('"' :: ((hex4 d.productId).toList ++ ['"'])),
      member "isHub".toList (if d.isHub then "true" else "false").toList,
      member "description".toList (quoted (textOf d.description))] ++ ['}'])

/-- The bytes of a device are those of its text. -/
theorem deviceJson_eq {d : ConnectedDeviceInfo} (h : IsText d.description) :
    deviceJson d = bytes (deviceText d) := by
  simp only [deviceJson, deviceText, literal, h.jsonPrintEscaped, ← bytes_append,
    separated_cons_cons, separated_singleton, member, List.append_assoc, List.cons_append,
    List.nil_append, String.reduceToList]

/-- The flag is printed as a Boolean. -/
theorem means_isHub (d : ConnectedDeviceInfo) :
    Means (if d.isHub then "true" else "false").toList (.bool d.isHub) := by
  cases d.isHub with
  | true => exact means_true
  | false => exact means_false

/-- The text of a device means its document. -/
theorem means_deviceText (d : ConnectedDeviceInfo) :
    Means (deviceText d) (ConnectedDeviceInfo.document d) :=
  means_object
    (.cons (means_member (by decide) (means_decimal _))
      (.cons (means_member (by decide) (means_plain (plain_hex4 _)))
        (.cons (means_member (by decide) (means_plain (plain_hex4 _)))
          (.cons (means_member (by decide) (means_isHub d))
            (.cons (means_member (by decide) (means_quoted _)) .nil)))))

/-- The text of a device with its place in the tree. -/
def detailText (d : ConnectedDeviceInfo) : List Char :=
  '{' :: (separated
    [member "address".toList (decimal d.address.toNat), member "port".toList (decimal d.port.toNat),
      member "parentAddress".toList (decimal d.parentAddress.toNat),
      member "vendorId".toList ('"' :: ((hex4 d.vendorId).toList ++ ['"'])),
      member "productId".toList ('"' :: ((hex4 d.productId).toList ++ ['"'])),
      member "isHub".toList (if d.isHub then "true" else "false").toList,
      member "description".toList (quoted (textOf d.description))] ++ ['}'])

/-- So are the bytes of its details. -/
theorem detailJson_eq {d : ConnectedDeviceInfo} (h : IsText d.description) :
    detailJson d = bytes (detailText d) := by
  simp only [detailJson, detailText, literal, h.jsonPrintEscaped, ← bytes_append,
    separated_cons_cons, separated_singleton, member, List.append_assoc, List.cons_append,
    List.nil_append, String.reduceToList]

/-- The text of the details means their document. -/
theorem means_detailText (d : ConnectedDeviceInfo) : Means (detailText d) (detailDocument d) :=
  means_object
    (.cons (means_member (by decide) (means_decimal _))
      (.cons (means_member (by decide) (means_decimal _))
        (.cons (means_member (by decide) (means_decimal _))
          (.cons (means_member (by decide) (means_plain (plain_hex4 _)))
            (.cons (means_member (by decide) (means_plain (plain_hex4 _)))
              (.cons (means_member (by decide) (means_isHub d))
                (.cons (means_member (by decide) (means_quoted _)) .nil)))))))

/-! ## Names -/

/-- A backslash is one byte, so that the display name of a text is text. -/
theorem displayName_bytes (text : List Char) :
    displayName (bytes text) = bytes (lastName text) := by
  induction text using List.reverseRecOn with
  | nil => rfl
  | append_singleton text c ih =>
    rw [displayName, bytes_append, List.reverse_append, lastName, List.reverse_append,
      List.reverse_singleton, List.singleton_append]
    by_cases hc : c = '\\'
    · subst hc
      rfl
    · have hbytes : ∀ b ∈ (bytes [c]).reverse, decide (b ≠ '\\'.toUInt8) = true := by
        intro b hb
        rw [List.mem_reverse, bytes, List.flatMap_singleton] at hb
        refine decide_eq_true fun heq => hc (eq_of_ascii_mem (by decide) ?_)
        rw [heq] at hb
        exact hb
      rw [List.takeWhile_append_of_pos hbytes, List.takeWhile_cons, if_pos (decide_eq_true hc),
        List.reverse_append, List.reverse_reverse, List.reverse_cons, bytes_append]
      exact congrArg (· ++ bytes [c]) ih

/-- The text of an interface in `list_interfaces`. -/
def interfaceNameText (device : List UInt8) : List Char :=
  '{' :: (separated [member "name".toList (quoted (textOf device)),
    member "displayName".toList (quoted (lastName (textOf device)))] ++ ['}'])

/-- The bytes of an interface's name are those of its text. -/
theorem interfaceJson_eq {device : List UInt8} (h : IsText device) :
    interfaceJson device = bytes (interfaceNameText device) := by
  obtain ⟨text, hzero, rfl⟩ := h
  have hlast : '\x00' ∉ lastName text := fun hmem =>
    hzero (List.mem_reverse.mp ((List.takeWhile_sublist _).subset (List.mem_reverse.mp hmem)))
  simp only [interfaceJson, interfaceNameText, literal, displayName_bytes, textOf_bytes,
    jsonPrintEscaped_bytes hzero, jsonPrintEscaped_bytes hlast, ← bytes_append,
    separated_cons_cons, separated_singleton, member, List.append_assoc, List.cons_append,
    List.nil_append, String.reduceToList]

/-- That text means the document of the name. -/
theorem means_interfaceNameText (device : List UInt8) :
    Means (interfaceNameText device) (interfaceDocument device) :=
  means_object (.cons (means_member (by decide) (means_quoted _))
    (.cons (means_member (by decide) (means_quoted _)) .nil))

/-! ## Loops -/

/-- Behind the first entry, the loop prints a comma before each. -/
theorem commaLoop_eq {α : Type*} {print : α → List UInt8} {text : α → List Char} {xs : List α}
    (h : ∀ x ∈ xs, print x = bytes (text x)) (i : ℕ) :
    commaLoop print (i + 1) xs = bytes ((xs.map text).flatMap (',' :: ·)) := by
  induction xs generalizing i with
  | nil => rfl
  | cons x xs ih =>
    rw [commaLoop, if_pos (Nat.succ_pos i), h x List.mem_cons_self,
      ih (fun y hy => h y (List.mem_cons_of_mem x hy)), List.map_cons, List.flatMap_cons,
      List.cons_append, ← List.singleton_append, bytes_append, bytes_append, List.append_assoc]
    rfl

/-- The commas stand between the items. -/
theorem commaLoop_separated {α : Type*} {print : α → List UInt8} {text : α → List Char}
    {xs : List α} (h : ∀ x ∈ xs, print x = bytes (text x)) :
    commaLoop print 0 xs = bytes (separated (xs.map text)) := by
  cases xs with
  | nil => rfl
  | cons x xs =>
    rw [commaLoop, if_neg (Nat.lt_irrefl 0), List.nil_append, h x List.mem_cons_self,
      commaLoop_eq (fun y hy => h y (List.mem_cons_of_mem x hy)), List.map_cons, separated_cons,
      bytes_append]

/-- A list of texts means the list of documents. -/
theorem forall₂_means_map {α : Type*} {text : α → List Char} {document : α → Value}
    (h : ∀ x, Means (text x) (document x)) (xs : List α) :
    List.Forall₂ Means (xs.map text) (xs.map document) := by
  rw [List.forall₂_map_left_iff, List.forall₂_map_right_iff]
  exact List.forall₂_same.mpr fun x _ => h x

/-- The JSON text of `list_interfaces` is the document of all the interfaces. -/
theorem decode_listInterfaces (filters : List (List UInt8)) (h : ∀ d ∈ filters, IsText d) :
    decode (listInterfaces true filters) =
      some (.object [("interfaces".toList, .array (filters.map interfaceDocument))]) := by
  have hloop := commaLoop_separated fun d hd => interfaceJson_eq (h d hd)
  have hmeans := means_object (.cons (@means_member "interfaces".toList _ _ (by decide)
    (means_array (forall₂_means_map means_interfaceNameText filters))) .nil)
  rw [← @decode_of_means _ _ hmeans ['\n'] rfl, listInterfaces, if_pos rfl, hloop]
  simp only [literal, ← bytes_append, separated_singleton, member, List.append_assoc,
    List.cons_append, List.nil_append, String.reduceToList]

/-- The JSON text of `list_devices` is the document of the interface and all its devices. -/
theorem decode_listDevices {filter : List UInt8} (hfilter : IsText filter)
    {devices : List ConnectedDeviceInfo} (h : ∀ d ∈ devices, IsText d.description) :
    decode (listDevices (some filter) true (some devices)).stdout =
      some (.object [("interface".toList, .string (textOf filter)),
        ("devices".toList, .array (devices.map detailDocument))]) := by
  have hloop := commaLoop_separated fun d hd => detailJson_eq (h d hd)
  have hmeans := means_object (.cons (@means_member "interface".toList _ _ (by decide)
    (means_quoted (textOf filter))) (.cons (@means_member "devices".toList _ _ (by decide)
    (means_array (forall₂_means_map means_detailText devices))) .nil))
  rw [← @decode_of_means _ _ hmeans ['\n'] rfl, listDevices, if_pos rfl, hloop,
    hfilter.jsonPrintEscaped]
  simp only [literal, ← bytes_append, separated_cons_cons, separated_singleton, member,
    List.append_assoc, List.cons_append, List.nil_append, String.reduceToList]

/-- The text of an interface that is enumerated. -/
def interfaceText (f : Interface) : Option (List Char) :=
  f.connected.map fun devices =>
    '{' :: (separated [member "interface".toList (quoted (textOf f.device)),
      member "devices".toList ('[' :: (separated (devices.map deviceText) ++ [']']))] ++ ['}'])

/-- An interface whose devices are known has a text. -/
theorem exists_interfaceText {f : Interface} {devices : List ConnectedDeviceInfo}
    (h : f.connected = some devices) : ∃ text, interfaceText f = some text := by
  rw [interfaceText, h]
  exact ⟨_, rfl⟩

/-- That text is what is printed, behind a comma unless it is the first. -/
theorem printInterface_eq {f : Interface} {devices : List ConnectedDeviceInfo} {text : List Char}
    (hf : f.connected = some devices) (h : f.Printable) (htext : interfaceText f = some text)
    (i : ℕ) :
    printInterface true i f.device devices =
      (if 0 < i then literal "," else []) ++ bytes text := by
  obtain ⟨hdevice, hdevices⟩ := h devices hf
  have hloop := commaLoop_separated fun d hd => deviceJson_eq (hdevices d hd)
  rw [interfaceText, hf, Option.map_some] at htext
  rw [← Option.some.inj htext, printInterface, if_pos rfl]
  simp only [literal, hdevice.jsonPrintEscaped, hloop, ← bytes_append, separated_cons_cons,
    separated_singleton, member, List.append_assoc, List.cons_append, List.nil_append,
    String.reduceToList]

/-- The text means the document of the interface. -/
theorem means_interfaceText {f : Interface} {text : List Char} (h : interfaceText f = some text) :
    ∃ v, f.document = some v ∧ Means text v := by
  rw [interfaceText] at h
  cases hf : f.connected with
  | none =>
    rw [hf] at h
    cases h
  | some devices =>
    rw [hf] at h
    rw [Interface.document, hf]
    refine ⟨_, rfl, ?_⟩
    rw [← Option.some.inj h]
    exact means_object (.cons (means_member (by decide) (means_quoted _))
      (.cons (means_member (by decide) (means_array (forall₂_means_map means_deviceText devices)))
        .nil))

/-- So do all texts together. -/
theorem means_interfaceTexts (filters : List Interface) :
    List.Forall₂ Means (filters.filterMap interfaceText)
      (filters.filterMap Interface.document) := by
  induction filters with
  | nil => exact .nil
  | cons f filters ih =>
    cases hf : interfaceText f with
    | none =>
      have hdocument : f.document = none :=
        Option.map_eq_none_iff.mpr (Option.map_eq_none_iff.mp hf)
      rw [List.filterMap_cons_none hf, List.filterMap_cons_none hdocument]
      exact ih
    | some text =>
      obtain ⟨v, hv, hmeans⟩ := means_interfaceText hf
      rw [List.filterMap_cons_some hf, List.filterMap_cons_some hv]
      exact .cons hmeans ih

/-- Behind the first interface, every one that is enumerated has a comma in front. -/
theorem listLoop_eq {filters : List Interface} (h : ∀ f ∈ filters, f.Printable) (i : ℕ)
    (deviceCount : Int32) :
    (listLoop true (i + 1) deviceCount filters).1 =
      bytes ((filters.filterMap interfaceText).flatMap (',' :: ·)) := by
  induction filters generalizing i deviceCount with
  | nil => rfl
  | cons f filters ih =>
    have hrest := fun g hg => h g (List.mem_cons_of_mem f hg)
    rw [listLoop]
    cases hf : f.connected with
    | none =>
      have htext : interfaceText f = none := Option.map_eq_none_iff.mpr hf
      rw [List.filterMap_cons_none htext]
      exact ih hrest _ _
    | some devices =>
      obtain ⟨text, htext⟩ := exists_interfaceText hf
      dsimp only
      rw [printInterface_eq hf (h f List.mem_cons_self) htext, if_pos (Nat.succ_pos i), ih hrest,
        List.filterMap_cons_some htext, List.flatMap_cons, List.cons_append,
        ← List.singleton_append, bytes_append, bytes_append, List.append_assoc]
      rfl

/-- The first interface is enumerated, or none is. -/
def FirstEnumerated (filters : List Interface) : Prop :=
  (∀ f ∈ filters, f.connected = none) ∨ ∃ f ∈ filters.head?, f.connected ≠ none

/-- Where no hub could be enumerated, nothing is listed. -/
theorem filterMap_interfaceText_nil {filters : List Interface}
    (h : ∀ f ∈ filters, f.connected = none) : filters.filterMap interfaceText = [] :=
  List.filterMap_eq_nil_iff.mpr fun f hf => Option.map_eq_none_iff.mpr (h f hf)

/-- Then the loop prints the interfaces with commas between them. -/
theorem listLoop_separated {filters : List Interface} (h : ∀ f ∈ filters, f.Printable)
    (hfirst : FirstEnumerated filters) :
    (listLoop true 0 0 filters).1 = bytes (separated (filters.filterMap interfaceText)) := by
  cases filters with
  | nil => rfl
  | cons f filters =>
    have hrest := fun g hg => h g (List.mem_cons_of_mem f hg)
    rw [listLoop]
    cases hf : f.connected with
    | none =>
      have hnone : ∀ g ∈ f :: filters, g.connected = none :=
        hfirst.resolve_right fun ⟨g, hg, hne⟩ => hne (Option.some.inj hg ▸ hf)
      have hfilters := fun g hg => hnone g (List.mem_cons_of_mem f hg)
      dsimp only
      rw [listLoop_eq hrest, filterMap_interfaceText_nil hfilters,
        filterMap_interfaceText_nil hnone]
      rfl
    | some devices =>
      obtain ⟨text, htext⟩ := exists_interfaceText hf
      dsimp only
      rw [printInterface_eq hf (h f List.mem_cons_self) htext, if_neg (Nat.lt_irrefl 0),
        List.nil_append, listLoop_eq hrest, List.filterMap_cons_some htext, separated_cons,
        bytes_append]

/-- Otherwise it starts with a comma. -/
theorem listLoop_comma {filters : List Interface} (h : ∀ f ∈ filters, f.Printable)
    (hfirst : ¬ FirstEnumerated filters) :
    ∃ text, (listLoop true 0 0 filters).1 = bytes (',' :: text) := by
  obtain ⟨hsome, hhead⟩ := not_or.mp hfirst
  cases filters with
  | nil => exact absurd (fun f hf => absurd hf List.not_mem_nil) hsome
  | cons f filters =>
    have hf : f.connected = none := by
      by_contra hne
      exact hhead ⟨f, rfl, hne⟩
    rw [listLoop, hf]
    dsimp only
    rw [listLoop_eq fun g hg => h g (List.mem_cons_of_mem f hg)]
    cases htexts : filters.filterMap interfaceText with
    | nil =>
      refine absurd (fun g hg => ?_) hsome
      rcases List.mem_cons.mp hg with rfl | hg
      · exact hf
      · exact Option.map_eq_none_iff.mp (List.filterMap_eq_nil_iff.mp htexts g hg)
    | cons text texts => exact ⟨_, rfl⟩

/-- The loop prints between the brackets. -/
theorem listAllDevices_json (filters : List Interface) :
    listAllDevices true filters =
      literal "\x7b\"interfaces\":[" ++ (listLoop true 0 0 filters).1 ++ literal "]\x7d\n" :=
  rfl

/-- A failure in front of an interface that is enumerated leaves no JSON. -/
theorem decode_listAllDevices_none {filters : List Interface} (h : ∀ f ∈ filters, f.Printable)
    (hfirst : ¬ FirstEnumerated filters) : decode (listAllDevices true filters) = none := by
  obtain ⟨text, htext⟩ := listLoop_comma h hfirst
  have hprinted : listAllDevices true filters =
      bytes ('{' :: member "interfaces".toList ('[' :: ',' :: (text ++ [']', '}', '\n']))) := by
    rw [listAllDevices_json, htext]
    simp only [literal, ← bytes_append, member, List.cons_append, List.nil_append,
      String.reduceToList]
  rw [hprinted]
  exact decode_eq_none (value_member_none (by decide) fun fuel => value_array_comma fuel _)

/-- An interface that is enumerated is printed with its name between quotation marks. -/
theorem listLoop_name {filters : List Interface} {f : Interface} (hf : f ∈ filters)
    (hconnected : f.connected ≠ none) (i : ℕ) (deviceCount : Int32) :
    ∃ front behind, (listLoop true i deviceCount filters).1 =
      front ++ jsonPrintEscaped (some f.device) ++ behind := by
  induction filters generalizing i deviceCount with
  | nil => exact absurd hf List.not_mem_nil
  | cons g filters ih =>
    rw [listLoop]
    rcases List.mem_cons.mp hf with rfl | hrest
    · obtain ⟨devices, hdevices⟩ := Option.ne_none_iff_exists'.mp hconnected
      rw [hdevices]
      dsimp only
      rw [printInterface, if_pos rfl]
      refine ⟨(if 0 < i then literal "," else []) ++ literal "\x7b\"interface\":",
        literal ",\"devices\":[" ++ commaLoop deviceJson 0 devices ++ literal "]\x7d" ++
          (listLoop true (i + 1) (deviceCount + .ofNat devices.length) filters).1, ?_⟩
      simp only [List.append_assoc]
    · cases hg : g.connected with
      | none => exact ih hrest _ _
      | some devices =>
        obtain ⟨front, behind, hprinted⟩ :=
          ih hrest (i + 1) (deviceCount + .ofNat devices.length)
        refine ⟨printInterface true i g.device devices ++ front, behind, ?_⟩
        dsimp only
        rw [hprinted]
        simp only [List.append_assoc]

/-- Text with a name in it that is not text is not decoded. -/
theorem isText_of_decode {name front behind : List UInt8} (hzero : 0 ∉ name)
    (h : decode (front ++ jsonPrintEscaped (some name) ++ behind) ≠ none) : IsText name := by
  obtain ⟨v, hv⟩ := Option.ne_none_iff_exists'.mp h
  obtain ⟨t, ht, -⟩ := Option.bind_eq_some_iff.mp hv
  have hquote : (literal "\"") = ['"'.toUInt8] := by decide
  have hsplit : bytes t = front ++ '"'.toUInt8 :: (name.flatMap escapeByte ++
      '"'.toUInt8 :: behind) := by
    rw [← eq_bytes_of_decodeUtf8 ht, jsonPrintEscaped, hquote, Option.elim_some,
      escapeBytes_eq_flatMap hzero]
    simp only [List.append_assoc, List.cons_append, List.nil_append]
  -- the quotation marks are ASCII, so the bytes between them are whole characters
  obtain ⟨-, rest, hrest⟩ := bytes_split_ascii (by decide) hsplit
  obtain ⟨⟨s, hs⟩, -⟩ := bytes_split_ascii (by decide) hrest.symm
  obtain ⟨text, htext⟩ := @eq_bytes_of_escaped [] name s hs.symm
  refine ⟨text, fun hmem => hzero ?_, htext⟩
  rw [← List.nil_append name, htext]
  exact List.mem_flatMap.mpr ⟨_, hmem, by decide⟩

/-- A list that can be decoded has a name for each interface. -/
theorem named_of_decode {filters : List Interface} (h : ∀ f ∈ filters, f.Described)
    (hdecode : decode (listAllDevices true filters) ≠ none) : ∀ f ∈ filters, f.Named := by
  intro f hf hconnected
  obtain ⟨front, behind, hprinted⟩ := listLoop_name hf hconnected 0 0
  have hall : listAllDevices true filters = (literal "\x7b\"interfaces\":[" ++ front) ++
      jsonPrintEscaped (some f.device) ++ (behind ++ literal "]\x7d\n") := by
    rw [listAllDevices_json, hprinted]
    simp only [List.append_assoc]
  rw [hall] at hdecode
  exact isText_of_decode (h f hf).device hdecode

/-- The JSON text is the document of all the interfaces that are enumerated exactly if their names
are text and the first one is among them, or there are none. -/
theorem decode_listAllDevices_iff (filters : List Interface)
    (h : ∀ f ∈ filters, f.Described) :
    decode (listAllDevices true filters) = some (listing filters) ↔
      (∀ f ∈ filters, f.Named) ∧ FirstEnumerated filters := by
  constructor
  · intro hdecode
    have hnames := named_of_decode h (hdecode ▸ Option.some_ne_none _)
    refine ⟨hnames, ?_⟩
    by_contra hfirst
    rw [decode_listAllDevices_none (fun f hf => (h f hf).printable (hnames f hf)) hfirst] at hdecode
    cases hdecode
  · rintro ⟨hnames, hfirst⟩
    have hmeans : Means ('{' :: (separated [member "interfaces".toList
        ('[' :: (separated (filters.filterMap interfaceText) ++ [']']))] ++ ['}']))
        (listing filters) :=
      means_object (.cons (means_member (by decide) (means_array (means_interfaceTexts filters)))
        .nil)
    rw [← @decode_of_means _ _ hmeans ['\n'] rfl, listAllDevices_json,
      listLoop_separated (fun f hf => (h f hf).printable (hnames f hf)) hfirst]
    simp only [literal, ← bytes_append, separated_singleton, member, List.append_assoc,
      List.cons_append, List.nil_append, String.reduceToList]

/-- A device without a description. -/
def sampleDevice : ConnectedDeviceInfo where
  port := 1
  parentAddress := 0
  address := 5
  vendorId := 0x046d
  productId := 0xc52b
  isHub := false
  description := []

/-- An interface of the driver, with such a device if it is enumerated. -/
def sampleInterface (digit : Char) (enumerated : Bool) : Interface where
  device := bytes ("\\\\.\\USBPcap".toList ++ [digit])
  connected := if enumerated then some [sampleDevice] else none

/-- The sample interfaces are texts with a name. -/
theorem described_sampleInterface {digit : Char} (h : digit ≠ '\x00') (enumerated : Bool) :
    (sampleInterface digit enumerated).Described ∧ (sampleInterface digit enumerated).Named := by
  have hname : '\x00' ∉ "\\\\.\\USBPcap".toList ++ [digit] := by
    intro hmem
    rcases List.mem_append.mp hmem with hprefix | hdigit
    · exact absurd hprefix (by decide)
    · exact h (List.mem_singleton.mp hdigit).symm
  refine ⟨⟨zero_notMem_bytes hname, fun devices hdevices d hd => ?_⟩, fun _ => ⟨_, hname, rfl⟩⟩
  cases enumerated with
  | false => cases hdevices
  | true =>
    rw [← Option.some.inj hdevices] at hd
    rw [List.mem_singleton.mp hd]
    exact ⟨[], List.not_mem_nil, rfl⟩

/-- Of two interfaces, the one that could not be enumerated is missing. -/
theorem decode_listAllDevices_sample :
    decode (listAllDevices true [sampleInterface '1' true, sampleInterface '2' false]) =
      some (listing [sampleInterface '1' true, sampleInterface '2' false]) := by
  have h : ∀ f ∈ [sampleInterface '1' true, sampleInterface '2' false],
      f.Described ∧ f.Named := by
    rw [List.forall_mem_cons, List.forall_mem_singleton]
    exact ⟨described_sampleInterface (by decide) true, described_sampleInterface (by decide) false⟩
  exact (decode_listAllDevices_iff _ fun f hf => (h f hf).1).mpr
    ⟨fun f hf => (h f hf).2, Or.inr ⟨_, rfl, Option.some_ne_none _⟩⟩

/-- With a failure first, a comma stands where the first object should be. -/
theorem decode_listAllDevices_failure :
    (∀ f ∈ [sampleInterface '1' false, sampleInterface '2' true], f.Described ∧ f.Named) ∧
      decode (listAllDevices true [sampleInterface '1' false, sampleInterface '2' true]) =
        none := by
  have h : ∀ f ∈ [sampleInterface '1' false, sampleInterface '2' true],
      f.Described ∧ f.Named := by
    rw [List.forall_mem_cons, List.forall_mem_singleton]
    exact ⟨described_sampleInterface (by decide) false, described_sampleInterface (by decide) true⟩
  refine ⟨h, decode_listAllDevices_none (fun f hf => (h f hf).1.printable (h f hf).2) ?_⟩
  rintro (hnone | ⟨f, hf, hne⟩)
  · exact Option.some_ne_none _ (hnone _ (List.mem_cons_of_mem _ List.mem_cons_self))
  · exact hne (by rw [← Option.some.inj hf]; rfl)

end UsbPcap.Cmd
