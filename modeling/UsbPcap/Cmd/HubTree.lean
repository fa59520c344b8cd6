import Mathlib.Data.UInt
import UsbPcap.Lib.Forest

/-!
# The devices behind a root hub

`EnumerateHub` opens a hub by its name and `EnumerateHubPorts` goes over its ports; the two call
each other for the hubs that are plugged into ports. `collect_connected_device` appends what they
find to an array that grows. `enumerateGetConnectedDevices_spec` compares the array with the places
of a forest of ports.
-/

namespace UsbPcap.Cmd.HubTree

/-! ## Data -/

/-- The text of a `PTSTR`. -/
abbrev Name := List Char

/-- `USB_CONNECTION_STATUS` -/
inductive ConnectionStatus where
  | noDeviceConnected
  | deviceConnected
  | other (code : UInt32)
deriving DecidableEq, Repr

/-- `USB_DEVICE_DESCRIPTOR` -/
structure DeviceDescriptor where
  bLength : UInt8
  bDescriptorType : UInt8
  bcdUSB : UInt16
  bDeviceClass : UInt8
  bDeviceSubClass : UInt8
  bDeviceProtocol : UInt8
  bMaxPacketSize0 : UInt8
  idVendor : UInt16
  idProduct : UInt16
  bcdDevice : UInt16
  iManufacturer : UInt8
  iProduct : UInt8
  iSerialNumber : UInt8
  bNumConfigurations : UInt8
deriving DecidableEq, Repr

/-- `USB_NODE_CONNECTION_INFORMATION` -/
structure ConnectionInfo where
  connectionStatus : ConnectionStatus
  deviceIsHub : Bool
  deviceAddress : UInt16
  deviceDescriptor : DeviceDescriptor
deriving DecidableEq, Repr

/-- `USBPCAP_CONNECTED_DEVICE_INFO` -/
structure ConnectedDeviceInfo where
  port : UInt32
  parentAddress : UInt16
  address : UInt16
  vendorId : UInt16
  productId : UInt16
  isHub : Bool
  description : List UInt8
deriving DecidableEq, Repr

/-- What the system answers: the handle of a device name, the number of ports of a hub, what is
connected to a port, whether the extended request calls it a hub, and its name if it is one
(`GetExternalHubName`); the name of the hub behind a filter, and what SetupAPI calls a device. -/
structure Usb (Handle : Type*) where
  createFile : Name → Option Handle
  nodeInformation : Handle → Option UInt8
  nodeConnectionInformation : Handle → UInt32 → Option ConnectionInfo
  nodeConnectionInformationEx : Handle → UInt32 → Option Bool
  externalHubName : Handle → UInt32 → Option Name
  filterHubSymlink : Name → Option Name
  deviceDescription : UInt16 → UInt16 → List UInt8

/-! ## The walk -/

section Enumerate

variable {Handle σ : Type*} (usb : Usb Handle)

/-- `print_callback` for a port, behind `GetDriverKeyName` and `PrintDeviceDesc`; it may be null. -/
abbrev PrintCallback (Handle σ : Type*) :=
  Option (Handle → UInt32 → UInt32 → ConnectionInfo → UInt16 → σ → σ)

/-- `EnumConnectedPortCallback` -/
abbrev PortCallback (Handle σ : Type*) :=
  Handle → UInt32 → UInt16 → UInt16 → DeviceDescriptor → σ → σ

/-- The name to open a hub with. -/
def deviceName (hub : Name) : Name :=
  if hub.take 4 = "\\??\\".toList then "\\\\.\\".toList ++ hub.drop 4
  else if hub.head? = some '\\' then hub
  else "\\\\.\\".toList ++ hub

/-- One round of the loop of `EnumerateHubPorts`, with `EnumerateHub` for the hubs it comes to. -/
def enumeratePort (enumerateHub : Name → Option ConnectionInfo → UInt32 → σ → Option σ)
    (hub : Handle) (level : UInt32) (hubAddress : UInt16) (print : PrintCallback Handle σ)
    (port : Option (PortCallback Handle σ)) (s : σ) (index : UInt32) : Option σ :=
  match usb.nodeConnectionInformation hub index with
  | none => some s
  | some info =>
    if info.connectionStatus = .noDeviceConnected then some s
    else
      let s := print.elim s fun callback => callback hub index level info hubAddress s
      let s :=
        if info.connectionStatus = .deviceConnected then
          port.elim s fun callback =>
            callback hub index info.deviceAddress hubAddress info.deviceDescriptor s
        else s
      if info.deviceIsHub then
        match usb.externalHubName hub index with
        | none => some s
        | some name => enumerateHub name (some info) (level + 1) s
      else some s

/-- `EnumerateHubPorts` -/
def enumerateHubPorts (enumerateHub : Name → Option ConnectionInfo → UInt32 → σ → Option σ)
    (hub : Handle) (numPorts : UInt8) (level : UInt32) (hubAddress : UInt16)
    (print : PrintCallback Handle σ) (port : Option (PortCallback Handle σ)) (s : σ) : Option σ :=
  ((List.range' 1 numPorts.toNat).map UInt32.ofNat).foldlM
    (enumeratePort usb enumerateHub hub level hubAddress print port) s

/-- `EnumerateHub`, for hubs nested less than `fuel` deep. -/
def enumerateHub (print : PrintCallback Handle σ) (port : Option (PortCallback Handle σ)) :
    ℕ → Name → Option ConnectionInfo → UInt32 → σ → Option σ
  | 0, _, _, _, _ => none
  | fuel + 1, hub, connectionInfo, level, s =>
    match usb.createFile (deviceName hub) with
    | none => some s
    | some handle =>
      match usb.nodeInformation handle with
      | none => some s
      | some numPorts =>
        enumerateHubPorts usb (enumerateHub print port fuel) handle numPorts level
          (connectionInfo.elim 0 ConnectionInfo.deviceAddress) print port s

end Enumerate

/-! ## The array -/

/-- `enum_collect_context`: the memory of the array, its capacity and the number of its entries. -/
structure CollectContext where
  devices : List (Option ConnectedDeviceInfo)
  count : ℕ
  capacity : ℕ

/-- The context filled with zeros. -/
def CollectContext.zero : CollectContext where
  devices := []
  count := 0
  capacity := 0

/-- The array with room for one more entry. -/
def CollectContext.grow (c : CollectContext) : CollectContext :=
  if c.count = c.capacity then
    let newCapacity := if c.capacity = 0 then 16 else c.capacity * 2
    { c with
      devices := c.devices ++ List.replicate (newCapacity - c.capacity) none
      capacity := newCapacity }
  else c

variable {Handle : Type*} (usb : Usb Handle)

/-- `collect_connected_device`, when `realloc` gives memory. -/
def collectConnectedDevice (hub : Handle) (port : UInt32) (deviceAddress parentAddress : UInt16)
    (desc : DeviceDescriptor) (context : CollectContext) : CollectContext :=
  let context := context.grow
  let info : ConnectedDeviceInfo :=
    { port := port
      parentAddress := parentAddress
      address := deviceAddress
      vendorId := desc.idVendor
      productId := desc.idProduct
      isHub := (usb.nodeConnectionInformationEx hub port).getD false
      description := usb.deviceDescription desc.idVendor desc.idProduct }
  { context with
    devices := context.devices.set context.count (some info)
    count := context.count + 1 }

/-- `enumerate_all_connected_devices` -/
def enumerateAllConnectedDevices {σ : Type*} (filter : Name) (callback : PortCallback Handle σ)
    (s : σ) (fuel : ℕ) : Option σ :=
  match usb.filterHubSymlink filter with
  | none => some s
  | some hub => enumerateHub usb none (some callback) fuel hub none 0 s

/-- `enumerate_get_connected_devices`: the array and the number of its entries. -/
def enumerateGetConnectedDevices (filter : Name) (fuel : ℕ) :
    Option (List (Option ConnectedDeviceInfo) × ℕ) :=
  (enumerateAllConnectedDevices usb filter (collectConnectedDevice usb) .zero fuel).map
    fun context => (context.devices, context.count)

/-! ## The tree -/

/-- The port has a hub that is enumerated. -/
def ConnectionInfo.HasHub (info : ConnectionInfo) : Prop :=
  info.connectionStatus ≠ .noDeviceConnected ∧ info.deviceIsHub = true

/-- The hub can be opened by its name and has `numPorts` ports, which are as `ports` has it. -/
def Opens (hub : Name) (numPorts : ℕ) (ports : Handle → Prop) : Prop :=
  numPorts ≤ 255 ∧ ∃ handle, usb.createFile (deviceName hub) = some handle ∧
    usb.nodeInformation handle = some (.ofNat numPorts) ∧ ports handle

/-- The ports of a hub from `index` on are as the forest has it: below a port with a hub are the
ports of that hub. -/
def Ports : Forest ConnectionInfo → Handle → ℕ → Prop
  | .nil, _, _ => True
  | .cons info children siblings, hub, index =>
    usb.nodeConnectionInformation hub (.ofNat index) = some info ∧
      (info.HasHub → ∃ name, usb.externalHubName hub (.ofNat index) = some name ∧
        Opens usb name children.breadth fun handle => Ports children handle 1) ∧
      (¬ info.HasHub → children = .nil) ∧
      Ports siblings hub (index + 1)

/-- What is said of a connected device: its port, its address and the address of its hub, and its
ids. -/
abbrev Entry := UInt32 × UInt16 × UInt16 × UInt16 × UInt16

/-- What an element of the array has to say. -/
def ConnectedDeviceInfo.entry (d : ConnectedDeviceInfo) : Entry :=
  (d.port, d.address, d.parentAddress, d.vendorId, d.productId)

/-- The address of the hub that the ports at a place belong to; 0 for the root hub. -/
def hubAddress (a : Forest.Spot ConnectionInfo) : UInt16 :=
  a.up.elim 0 ConnectionInfo.deviceAddress

/-- What there is to say of the device at a place. -/
def entryAt (p : ConnectionInfo × Forest.Spot ConnectionInfo) : Entry :=
  (.ofNat p.2.index, p.1.deviceAddress, hubAddress p.2, p.1.deviceDescriptor.idVendor,
    p.1.deviceDescriptor.idProduct)

/-- The entries of the ports with a connected device, in depth-first order. -/
def entries (a : Forest.Spot ConnectionInfo) (ports : Forest ConnectionInfo) : List Entry :=
  ((ports.places a).filter fun p => p.1.connectionStatus = .deviceConnected).map entryAt

theorem entries_cons (a : Forest.Spot ConnectionInfo) (info : ConnectionInfo)
    (children siblings : Forest ConnectionInfo) :
    entries a (.cons info children siblings) =
      (if info.connectionStatus = .deviceConnected then [entryAt (info, a)] else []) ++
        (entries (a.down info) children ++ entries (a.next children.size) siblings) := by
  rw [entries, Forest.places, List.filter_cons, List.filter_append]
  by_cases h : info.connectionStatus = .deviceConnected
  · rw [if_pos h, if_pos (decide_eq_true h), List.map_cons, List.map_append]
    rfl
  · rw [if_neg h, if_neg (by simpa using h), List.map_append]
    rfl

/-! ## What the array holds -/

/-- The array holds the entries, and nothing else counts. -/
structure CollectContext.Holds (c : CollectContext) (list : List Entry) : Prop where
  capacity : c.devices.length = c.capacity
  count : c.count ≤ c.capacity
  devices : (c.devices.take c.count).map (Option.map ConnectedDeviceInfo.entry) = list.map some

theorem holds_zero : CollectContext.zero.Holds [] := ⟨rfl, Nat.le_refl 0, rfl⟩

theorem CollectContext.Holds.length_eq {c : CollectContext} {list : List Entry}
    (h : c.Holds list) : c.count = list.length := by
  have hlength := congrArg List.length h.devices
  rw [List.length_map, List.length_map, List.length_take, h.capacity,
    Nat.min_eq_left h.count] at hlength
  exact hlength

/-- Growth moves no entry. -/
theorem CollectContext.Holds.grow {c : CollectContext} {list : List Entry} (h : c.Holds list) :
    c.grow.Holds list ∧ c.grow.count < c.grow.capacity := by
  rw [CollectContext.grow]
  split
  · next hfull =>
    have hmore : c.capacity < if c.capacity = 0 then 16 else c.capacity * 2 := by
      split <;> omega
    refine ⟨⟨?_, ?_, ?_⟩, ?_⟩
    · change (c.devices ++ List.replicate _ none).length = _
      rw [List.length_append, List.length_replicate, h.capacity, Nat.add_sub_cancel' hmore.le]
    · exact h.count.trans hmore.le
    · change ((c.devices ++ List.replicate _ none).take c.count).map _ = _
      rw [List.take_append_of_le_length (h.capacity ▸ h.count)]
      exact h.devices
    · exact hfull ▸ hmore
  · next hroom => exact ⟨h, Nat.lt_of_le_of_ne h.count hroom⟩

/-- A collected device is one more entry. -/
theorem CollectContext.Holds.collect {c : CollectContext} {list : List Entry} (h : c.Holds list)
    (hub : Handle) (port : UInt32) (deviceAddress parentAddress : UInt16)
    (desc : DeviceDescriptor) :
    (collectConnectedDevice usb hub port deviceAddress parentAddress desc c).Holds
      (list ++ [(port, deviceAddress, parentAddress, desc.idVendor, desc.idProduct)]) := by
  obtain ⟨hgrow, hroom⟩ := h.grow
  rw [collectConnectedDevice]
  refine ⟨?_, hroom, ?_⟩
  · exact List.length_set.trans hgrow.capacity
  · dsimp only
    have hlength : c.grow.count < c.grow.devices.length := hgrow.capacity ▸ hroom
    rw [List.take_add_one, List.take_set_of_le (Nat.le_refl _), List.getElem?_set_self hlength,
      List.map_append, hgrow.devices, List.map_append]
    rfl

/-! ## The walk over the tree -/

/-- The arguments of one call of the callback. -/
structure PortCall (Handle : Type*) where
  hub : Handle
  port : UInt32
  deviceAddress : UInt16
  parentAddress : UInt16
  desc : DeviceDescriptor

/-- The callback with these arguments. -/
def PortCall.apply {σ : Type*} (callback : PortCallback Handle σ) (s : σ)
    (p : PortCall Handle) : σ :=
  callback p.hub p.port p.deviceAddress p.parentAddress p.desc s

/-- What the arguments say of the device. -/
def PortCall.entry (p : PortCall Handle) : Entry :=
  (p.port, p.deviceAddress, p.parentAddress, p.desc.idVendor, p.desc.idProduct)

/-- The enumeration makes these calls of any callback. -/
def Visits (filter : Name) (fuel : ℕ) (calls : List (PortCall Handle)) : Prop :=
  ∀ {σ : Type} (callback : PortCallback Handle σ) (s : σ),
    enumerateAllConnectedDevices usb filter callback s fuel =
      some (calls.foldl (PortCall.apply callback) s)

/-- The call for a port, if there is one. -/
def callsAt (hub : Handle) (info : ConnectionInfo) (a : Forest.Spot ConnectionInfo) :
    List (PortCall Handle) :=
  if info.connectionStatus = .deviceConnected then
    [{  hub := hub
        port := .ofNat a.index
        deviceAddress := info.deviceAddress
        parentAddress := hubAddress a
        desc := info.deviceDescriptor }]
  else []

theorem map_entry_callsAt (hub : Handle) (info : ConnectionInfo)
    (a : Forest.Spot ConnectionInfo) :
    (callsAt hub info a).map PortCall.entry =
      if info.connectionStatus = .deviceConnected then [entryAt (info, a)] else [] := by
  rw [callsAt]
  split <;> rfl

section Walk

variable {σ : Type*} (callback : PortCallback Handle σ)

/-- The rounds for `count` ports of a hub from `index` on. -/
def enumerateFrom (fuel : ℕ) (hub : Handle) (level : UInt32) (hubAddress : UInt16)
    (index count : ℕ) (s : σ) : Option σ :=
  ((List.range' index count).map UInt32.ofNat).foldlM
    (enumeratePort usb (enumerateHub usb none (some callback) fuel) hub level hubAddress none
      (some callback)) s

variable {usb callback}

/-- A hub that can be opened is the loop over its ports. -/
theorem enumerateHub_of_opens {hub : Name} {numPorts : ℕ} {handle : Handle}
    (hnum : numPorts ≤ 255) (hopen : usb.createFile (deviceName hub) = some handle)
    (hinfo : usb.nodeInformation handle = some (.ofNat numPorts)) (fuel : ℕ)
    (info : Option ConnectionInfo) (level : UInt32) (s : σ) :
    enumerateHub usb none (some callback) (fuel + 1) hub info level s =
      enumerateFrom usb callback fuel handle level (info.elim 0 ConnectionInfo.deviceAddress) 1
        numPorts s := by
  have hmod : (UInt8.ofNat numPorts).toNat = numPorts :=
    UInt8.toNat_ofNat_of_lt' (Nat.lt_succ_of_le hnum)
  rw [enumerateHub, hopen]
  dsimp only
  rw [hinfo]
  dsimp only
  rw [enumerateHubPorts, hmod]
  rfl

/-- The round for a port with no hub. -/
theorem enumeratePort_leaf {hub : Handle} {info : ConnectionInfo}
    {a : Forest.Spot ConnectionInfo} (hinfo : usb.nodeConnectionInformation hub (.ofNat a.index) =
      some info) (hno : ¬ info.HasHub) (fuel : ℕ) (level : UInt32) (s : σ) :
    enumeratePort usb (enumerateHub usb none (some callback) fuel) hub level (hubAddress a) none
      (some callback) s (.ofNat a.index) =
        some ((callsAt hub info a).foldl (PortCall.apply callback) s) := by
  rw [enumeratePort, hinfo, callsAt]
  dsimp only
  by_cases hnone : info.connectionStatus = .noDeviceConnected
  · rw [if_pos hnone, if_neg (by rw [hnone]; nofun)]
    rfl
  · rw [if_neg hnone, if_neg fun hhub => hno ⟨hnone, hhub⟩]
    split <;> rfl

/-- The round for a port with a hub. -/
theorem enumeratePort_hub {hub : Handle} {info : ConnectionInfo} {a : Forest.Spot ConnectionInfo}
    (hinfo : usb.nodeConnectionInformation hub (.ofNat a.index) = some info) (hhub : info.HasHub)
    {name : Name} (hname : usb.externalHubName hub (.ofNat a.index) = some name) (fuel : ℕ)
    (level : UInt32) (s : σ) :
    enumeratePort usb (enumerateHub usb none (some callback) fuel) hub level (hubAddress a) none
      (some callback) s (.ofNat a.index) =
        enumerateHub usb none (some callback) fuel name (some info) (level + 1)
          ((callsAt hub info a).foldl (PortCall.apply callback) s) := by
  rw [enumeratePort, hinfo, callsAt]
  dsimp only
  rw [if_neg hhub.1, if_pos hhub.2, hname]
  dsimp only
  split <;> rfl

end Walk

variable {usb}

/-- The rounds for the ports of a hub make one call for each entry of the forest behind them, in
this order, whatever the callback. -/
theorem enumerateFrom_spec {f : Forest ConnectionInfo} {hub : Handle}
    {a : Forest.Spot ConnectionInfo} (h : Ports usb f hub a.index) :
    ∃ calls : List (PortCall Handle), calls.map PortCall.entry = entries a f ∧
      ∀ {σ : Type} (callback : PortCallback Handle σ) (fuel : ℕ) (level : UInt32) (s : σ),
        f.height ≤ fuel →
          enumerateFrom usb callback fuel hub level (hubAddress a) a.index f.breadth s =
            some (calls.foldl (PortCall.apply callback) s) := by
  induction f generalizing hub a with
  | nil => exact ⟨[], rfl, fun _ _ _ _ _ => rfl⟩
  | cons info children siblings ihchildren ihsiblings =>
    obtain ⟨hinfo, hhub, hnohub, hsiblings⟩ := h
    -- the calls below the first port
    have hbelow : ∃ calls : List (PortCall Handle),
        calls.map PortCall.entry = entries (a.down info) children ∧
        ∀ {σ : Type} (callback : PortCallback Handle σ) (fuel : ℕ) (level : UInt32) (s : σ),
          1 + children.height ≤ fuel →
            enumeratePort usb (enumerateHub usb none (some callback) fuel) hub level (hubAddress a)
              none (some callback) s (.ofNat a.index) =
                some ((callsAt hub info a ++ calls).foldl (PortCall.apply callback) s) := by
      by_cases hhas : info.HasHub
      · obtain ⟨name, hname, hnum, handle, hopen, hports, hchildren⟩ := hhub hhas
        obtain ⟨calls, hcalls, hrun⟩ := ihchildren (a := a.down info) hchildren
        refine ⟨calls, hcalls, fun callback fuel level s hfuel => ?_⟩
        obtain ⟨fuel, rfl⟩ : ∃ k, fuel = k + 1 := ⟨fuel - 1, by omega⟩
        rw [enumeratePort_hub hinfo hhas hname, enumerateHub_of_opens hnum hopen hports,
          List.foldl_append]
        exact hrun callback fuel (level + 1) _ (by omega)
      · refine ⟨[], by rw [hnohub hhas]; rfl, fun callback fuel level s _ => ?_⟩
        rw [List.append_nil]
        exact enumeratePort_leaf hinfo hhas fuel level s
    obtain ⟨below, hbelow, hfirst⟩ := hbelow
    obtain ⟨others, hothers, hrest⟩ := ihsiblings (a := a.next children.size) hsiblings
    refine ⟨callsAt hub info a ++ below ++ others, ?_, fun callback fuel level s hfuel => ?_⟩
    · rw [entries_cons, List.map_append, List.map_append, map_entry_callsAt, hbelow, hothers,
        List.append_assoc]
    · obtain ⟨hchildren, hsiblings⟩ := Nat.max_le.mp hfuel
      rw [Forest.breadth, enumerateFrom, List.range'_succ, List.map_cons, List.foldlM_cons,
        hfirst callback fuel level s hchildren]
      exact (hrest callback fuel level _ hsiblings).trans (congrArg some List.foldl_append.symm)

/-- The callback is called once for each port with a connected device, in depth-first order. -/
theorem visits_of_opens {filter root : Name} {f : Forest ConnectionInfo}
    (hroot : usb.filterHubSymlink filter = some root)
    (h : Opens usb root f.breadth fun handle => Ports usb f handle 1) :
    ∃ calls : List (PortCall Handle), calls.map PortCall.entry = entries .top f ∧
      ∀ fuel, f.height < fuel → Visits usb filter fuel calls := by
  obtain ⟨hnum, handle, hopen, hinfo, hports⟩ := h
  obtain ⟨calls, hcalls, hrun⟩ := enumerateFrom_spec (a := .top) hports
  refine ⟨calls, hcalls, fun fuel hfuel _ callback s => ?_⟩
  obtain ⟨fuel, rfl⟩ : ∃ k, fuel = k + 1 := ⟨fuel - 1, by omega⟩
  rw [enumerateAllConnectedDevices, hroot]
  exact (enumerateHub_of_opens hnum hopen hinfo fuel none 0 s).trans
    (hrun callback fuel 0 s (Nat.le_of_lt_succ hfuel))

/-- The array holds what was collected, in the order of the calls. -/
theorem CollectContext.Holds.foldl {c : CollectContext} {list : List Entry} (h : c.Holds list)
    (calls : List (PortCall Handle)) :
    (calls.foldl (PortCall.apply (collectConnectedDevice usb)) c).Holds
      (list ++ calls.map PortCall.entry) := by
  induction calls generalizing c list with
  | nil => rwa [List.map_nil, List.append_nil]
  | cons p calls ih =>
    have hp := ih (h.collect usb p.hub p.port p.deviceAddress p.parentAddress p.desc)
    rwa [List.append_assoc] at hp

/-- **The whole hub tree is reported.** The enumeration ends, and the array has one entry for each
port with a connected device, in depth-first order: its port, its address, the address of the hub
that it is plugged into, 0 for the root hub, and its ids. -/
theorem enumerateGetConnectedDevices_spec {filter root : Name} {f : Forest ConnectionInfo}
    (hroot : usb.filterHubSymlink filter = some root)
    (h : Opens usb root f.breadth fun handle => Ports usb f handle 1) :
    ∃ devices,
      (∃ n, ∀ fuel, n ≤ fuel → enumerateGetConnectedDevices usb filter fuel =
        some (devices, (entries .top f).length)) ∧
      (devices.take (entries .top f).length).map (Option.map ConnectedDeviceInfo.entry) =
        (entries .top f).map some := by
  obtain ⟨calls, hcalls, hrun⟩ := visits_of_opens hroot h
  have hc : (calls.foldl (PortCall.apply (collectConnectedDevice usb)) .zero).Holds
      (entries .top f) := hcalls ▸ holds_zero.foldl calls
  refine ⟨_, ⟨f.height + 1, fun fuel hfuel => ?_⟩, hc.length_eq ▸ hc.devices⟩
  rw [enumerateGetConnectedDevices, hrun fuel hfuel _ _, Option.map_some, hc.length_eq]

/-! ## A hub behind a hub -/

/-- A port with a device that is no hub. -/
def samplePort (status : ConnectionStatus) (address : UInt16) : ConnectionInfo where
  connectionStatus := status
  deviceIsHub := false
  deviceAddress := address
  deviceDescriptor := ⟨18, 1, 0x0200, 0, 0, 0, 64, 0x1234, address, 0x0100, 1, 2, 3, 1⟩

/-- A hub with address 2, whose first port has device 5, whose second has none, and whose third has
one that failed to start, beside device 3. -/
def samplePorts : Forest ConnectionInfo :=
  .cons { samplePort .deviceConnected 2 with deviceIsHub := true }
    (.cons (samplePort .deviceConnected 5) .nil
      (.cons (samplePort .noDeviceConnected 0) .nil (.cons (samplePort (.other 2) 0) .nil .nil)))
    (.cons (samplePort .deviceConnected 3) .nil .nil)

/-- The system with these ports: handle 0 is the root hub, handle 1 the other. -/
def sampleUsb : Usb ℕ where
  createFile name :=
    if name = "\\\\.\\root".toList then some 0
    else if name = "\\\\.\\hub".toList then some 1
    else none
  nodeInformation handle := some (if handle = 0 then 2 else 3)
  nodeConnectionInformation
    | 0, 1 => some { samplePort .deviceConnected 2 with deviceIsHub := true }
    | 0, _ => some (samplePort .deviceConnected 3)
    | _, 1 => some (samplePort .deviceConnected 5)
    | _, 2 => some (samplePort .noDeviceConnected 0)
    | _, _ => some (samplePort (.other 2) 0)
  nodeConnectionInformationEx _ _ := none
  externalHubName _ _ := some "hub".toList
  filterHubSymlink _ := some "\\??\\root".toList
  deviceDescription _ _ := []

theorem opens_sampleUsb :
    Opens sampleUsb "\\??\\root".toList samplePorts.breadth fun handle =>
      Ports sampleUsb samplePorts handle 1 := by
  have hno : ∀ {status : ConnectionStatus} {address : UInt16},
      ¬ (samplePort status address).HasHub := fun h => Bool.false_ne_true h.2
  refine ⟨by decide, 0, by decide, rfl, rfl, fun _ => ?_, fun h => absurd ⟨nofun, rfl⟩ h, ?_⟩
  · exact ⟨"hub".toList, rfl, by decide, 1, by decide, rfl,
      ⟨rfl, fun h => absurd h hno, fun _ => rfl, rfl, fun h => absurd h hno, fun _ => rfl,
        rfl, fun h => absurd h hno, fun _ => rfl, trivial⟩⟩
  · exact ⟨rfl, fun h => absurd h hno, fun _ => rfl, trivial⟩

theorem enumerateGetConnectedDevices_sampleUsb :
    ∃ devices,
      (∃ n, ∀ fuel, n ≤ fuel → enumerateGetConnectedDevices sampleUsb [] fuel =
        some (devices, (entries .top samplePorts).length)) ∧
      (devices.take (entries .top samplePorts).length).map
          (Option.map ConnectedDeviceInfo.entry) =
        (entries .top samplePorts).map some :=
  enumerateGetConnectedDevices_spec rfl opens_sampleUsb

example : entries .top samplePorts =
    [(1, 2, 0, 0x1234, 2), (1, 5, 2, 0x1234, 5), (2, 3, 0, 0x1234, 3)] := by decide

end UsbPcap.Cmd.HubTree
