import Mathlib.Data.UInt
import UsbPcap.Lib.Forest
import UsbPcap.Lib.Loop

/-!
# The devices below a device

`PrintDevinstChildren` walks down the device tree with the configuration manager's calls for the
child, the sibling and the parent of a device, and numbers the devices that it comes to. A stack
holds the numbers of the devices above. `printDevinstChildren_spec` compares its output with the
places of a forest.
-/

namespace UsbPcap.Cmd.DeviceTree

open StateTransition

/-! ## The configuration manager -/

/-- `CONFIGRET`, other than `CR_SUCCESS`. -/
inductive ConfigRet where
  | noSuchDevnode
  | other (code : UInt32)
deriving DecidableEq

/-- The calls that the walk makes. A text is the buffer up to its first zero. -/
structure ConfigManager (DevInst : Type*) where
  getChild : DevInst → Except ConfigRet DevInst
  getSibling : DevInst → Except ConfigRet DevInst
  getParent : DevInst → Except ConfigRet DevInst
  friendlyName : DevInst → Except ConfigRet (List UInt16)
  deviceDesc : DevInst → Except ConfigRet (List UInt16)

/-- The arguments of the callback. -/
structure DeviceLine where
  level : UInt32
  index : UInt32
  name : List UInt16
  deviceAddress : UInt16
  parentAddress : UInt16
  node : UInt16
  parentNode : UInt16
deriving DecidableEq, Repr

/-! ## The stack -/

/-- `stack_pop` -/
def stackPop : List UInt16 → Option (UInt16 × List UInt16)
  | [] => none
  | value :: stack => some (value, stack)

/-- `stack_peek` -/
def stackPeek : List UInt16 → Option UInt16
  | [] => none
  | value :: _ => some value

/-- `stack_push`, when `malloc` gives memory. -/
def stackPush (stack : List UInt16) (value : UInt16) : List UInt16 := value :: stack

/-! ## The walk -/

/-- `LOOP_SANITY_LIMIT` -/
def loopSanityLimit : ℕ := 10000

/-- The heads of the two loops. -/
inductive Head where
  | visit
  | across
deriving DecidableEq

/-- The variables of `PrintDevinstChildren`, and what the callback has got. `parentNode` is not
among them: it is set before it is read. -/
structure Walk (DevInst : Type*) where
  head : Head
  current : DevInst
  level : UInt32
  nextNode : UInt16
  nodeStack : List UInt16
  sanityCounter : ℕ
  lines : List DeviceLine

section Definitions

variable {DevInst : Type*} [DecidableEq DevInst] (cm : ConfigManager DevInst) (parent : DevInst)
  (indent : UInt32) (deviceAddress : UInt16)

omit [DecidableEq DevInst] in
/-- The friendly name, or else the description. -/
def deviceName (dev : DevInst) : Except ConfigRet (List UInt16) :=
  match cm.friendlyName dev with
  | .ok name => .ok name
  | .error _ => cm.deviceDesc dev

omit [DecidableEq DevInst] in
/-- What the callback gets for the current device. -/
def report (w : Walk DevInst) : List DeviceLine :=
  match deviceName cm w.current with
  | .error _ => []
  | .ok [] => []
  | .ok (c :: name) =>
    [{  level := w.level
        index := 0
        name := c :: name
        deviceAddress := deviceAddress
        parentAddress := deviceAddress
        node := w.nextNode
        parentNode := (stackPeek w.nodeStack).getD 0 }]

omit [DecidableEq DevInst] in
/-- The body of the outer loop up to the inner one; `none` when the function returns. -/
def visit (w : Walk DevInst) : Option (Walk DevInst) :=
  if ¬ indent < w.level then none
  else if loopSanityLimit < w.sanityCounter + 1 then none
  else
    let w := { w with
      sanityCounter := w.sanityCounter + 1
      lines := w.lines ++ report cm deviceAddress w }
    match cm.getChild w.current with
    | .ok next =>
      some { w with
        current := next
        level := w.level + 1
        nodeStack := stackPush w.nodeStack w.nextNode
        nextNode := w.nextNode + 1 }
    | .error _ => some { w with head := .across }

/-- The body of the inner loop; `none` when the function returns. -/
def across (w : Walk DevInst) : Option (Walk DevInst) :=
  match cm.getSibling w.current with
  | .ok next => some { w with head := .visit, current := next, nextNode := w.nextNode + 1 }
  | .error .noSuchDevnode =>
    match cm.getParent w.current with
    | .ok next =>
      let level := w.level - 1
      if next = parent ∨ level = indent then none
      else
        some { w with
          current := next
          level := level
          nodeStack := ((stackPop w.nodeStack).map Prod.snd).getD w.nodeStack }
    | .error _ => none
  | .error (.other _) => none

/-- One round of either loop. -/
def step (w : Walk DevInst) : Option (Walk DevInst) :=
  match w.head with
  | .visit => visit cm indent deviceAddress w
  | .across => across cm parent indent w

omit [DecidableEq DevInst] in
/-- The variables in front of the loop. -/
def start : Walk DevInst :=
  match cm.getChild parent with
  | .ok next =>
    { head := .visit
      current := next
      level := indent + 1
      nextNode := 1
      nodeStack := stackPush [] 0
      sanityCounter := 0
      lines := [] }
  | .error _ =>
    { head := .visit
      current := parent
      level := indent
      nextNode := 1
      nodeStack := []
      sanityCounter := 0
      lines := [] }

/-- `PrintDevinstChildren` -/
def printDevinstChildren (fuel : ℕ) : Option (List DeviceLine) :=
  (Loop.run (step cm parent indent deviceAddress) fuel (start cm parent indent)).map Walk.lines

end Definitions

/-! ## The tree -/

section Tree

variable {DevInst : Type*} {cm : ConfigManager DevInst}

/-- What a call for a child or a sibling answers when there is this forest. -/
def Finds (answer : Except ConfigRet DevInst) : Forest DevInst → Prop
  | .nil => answer = .error .noSuchDevnode
  | .cons dev _ _ => answer = .ok dev

/-- The calls for children and siblings describe the forest. -/
def Lists (cm : ConfigManager DevInst) : Forest DevInst → Prop
  | .nil => True
  | .cons dev children siblings => Finds (cm.getChild dev) children ∧ Lists cm children ∧
      Finds (cm.getSibling dev) siblings ∧ Lists cm siblings

/-- The calls describe the forest below a device. -/
structure Describes (cm : ConfigManager DevInst) (parent : DevInst) (f : Forest DevInst) :
    Prop where
  finds : Finds (cm.getChild parent) f
  lists : Lists cm f
  parents : f.Linked (fun dev up => cm.getParent dev = .ok up) parent

/-- The calls describe one forest only. -/
theorem lists_unique {f f' : Forest DevInst} {answer : Except ConfigRet DevInst}
    (hf : Finds answer f) (hf' : Finds answer f') (h : Lists cm f) (h' : Lists cm f') : f = f' := by
  induction f generalizing f' answer with
  | nil =>
    cases f' with
    | nil => rfl
    | cons dev children siblings => cases hf.symm.trans hf'
  | cons dev children siblings ihchildren ihsiblings =>
    cases f' with
    | nil => cases hf.symm.trans hf'
    | cons dev' children' siblings' =>
      obtain rfl := Except.ok.inj (hf.symm.trans hf')
      obtain ⟨hc, hlc, hs, hls⟩ := h
      obtain ⟨hc', hlc', hs', hls'⟩ := h'
      rw [ihchildren hc hc' hlc hlc', ihsiblings hs hs' hls hls']

/-- Below a device of the forest there are fewer devices than in the forest. -/
theorem exists_children {f : Forest DevInst} (h : Lists cm f) {dev : DevInst}
    (hdev : dev ∈ f.values) :
    ∃ children, Finds (cm.getChild dev) children ∧ Lists cm children ∧ children.size < f.size := by
  induction f with
  | nil => exact absurd hdev List.not_mem_nil
  | cons dev' children siblings ihchildren ihsiblings =>
    obtain ⟨hc, hlc, -, hls⟩ := h
    rw [Forest.size]
    rcases List.mem_cons.mp hdev with rfl | hdev
    · exact ⟨children, hc, hlc, by omega⟩
    rcases List.mem_append.mp hdev with hdev | hdev
    · obtain ⟨below, hfinds, hlists, hsize⟩ := ihchildren hlc hdev
      exact ⟨below, hfinds, hlists, by omega⟩
    · obtain ⟨below, hfinds, hlists, hsize⟩ := ihsiblings hls hdev
      exact ⟨below, hfinds, hlists, by omega⟩

/-- A device is not below itself. -/
theorem Describes.not_mem {parent : DevInst} {f : Forest DevInst} (h : Describes cm parent f) :
    parent ∉ f.values := by
  intro hmem
  obtain ⟨children, hfinds, hlists, hsize⟩ := exists_children h.lists hmem
  rw [lists_unique hfinds h.finds hlists h.lists] at hsize
  exact Nat.lt_irrefl _ hsize

end Tree

/-! ## The walk over a forest -/

section Walk

variable {DevInst : Type*} [DecidableEq DevInst] {cm : ConfigManager DevInst} {parent : DevInst}
  {indent : UInt32} {deviceAddress : UInt16}

/-- The name of a device; empty when the device has none. -/
def nameOf (cm : ConfigManager DevInst) (dev : DevInst) : List UInt16 :=
  match deviceName cm dev with
  | .ok name => name
  | .error _ => []

/-- What the callback gets for a device at a place. -/
def lineOf (cm : ConfigManager DevInst) (indent : UInt32) (deviceAddress : UInt16)
    (p : DevInst × Forest.Spot DevInst) : DeviceLine where
  level := indent + .ofNat p.2.depth
  index := 0
  name := nameOf cm p.1
  deviceAddress := deviceAddress
  parentAddress := deviceAddress
  node := .ofNat p.2.number
  parentNode := .ofNat p.2.parent

/-- The walk visits the first device of a forest that stands at this spot. -/
structure VisitsAt (indent : UInt32) (a : Forest.Spot DevInst) (w : Walk DevInst) : Prop where
  head : w.head = .visit
  level : w.level = indent + .ofNat a.depth
  nextNode : w.nextNode = .ofNat a.number
  parent : stackPeek w.nodeStack = some (.ofNat a.parent)

omit [DecidableEq DevInst] in
/-- A node with a name is reported in one line. -/
theorem report_eq {w : Walk DevInst} {a : Forest.Spot DevInst} (h : VisitsAt indent a w)
    (hname : nameOf cm w.current ≠ []) :
    report cm deviceAddress w = [lineOf cm indent deviceAddress (w.current, a)] := by
  unfold report lineOf
  unfold nameOf at hname ⊢
  cases hdev : deviceName cm w.current with
  | error e =>
    rw [hdev] at hname
    exact absurd rfl hname
  | ok name =>
    rw [hdev] at hname
    cases name with
    | nil => exact absurd rfl hname
    | cons c name =>
      rw [h.level, h.nextNode, h.parent]
      rfl

/-- Levels below `indent` are not `indent`. -/
theorem lt_level {d : ℕ} (hd : 1 ≤ d) (h : indent.toNat + d < 2 ^ 32) :
    indent < indent + .ofNat d := by
  rw [UInt32.lt_iff_toNat_lt, UInt32.toNat_add, UInt32.toNat_ofNat']
  omega

/-- The walk at the first device below the parent. -/
def Walk.first (indent : UInt32) (dev : DevInst) : Walk DevInst where
  head := .visit
  current := dev
  level := indent + 1
  nextNode := 1
  nodeStack := [0]
  sanityCounter := 0
  lines := []

omit [DecidableEq DevInst] in
/-- The walk starts at the first child. -/
theorem start_eq_first {dev : DevInst} (h : cm.getChild parent = .ok dev) :
    start cm parent indent = .first indent dev := by
  rw [start, h]
  rfl

omit [DecidableEq DevInst] in
/-- And visits it at the top. -/
theorem visitsAt_first (dev : DevInst) : VisitsAt indent .top (Walk.first indent dev) :=
  ⟨rfl, rfl, rfl, rfl⟩

/-- The walk at the first device below the current one. -/
def Walk.entered (w : Walk DevInst) (child : DevInst) (line : DeviceLine) : Walk DevInst :=
  { w with
    current := child
    level := w.level + 1
    nodeStack := w.nextNode :: w.nodeStack
    nextNode := w.nextNode + 1
    sanityCounter := w.sanityCounter + 1
    lines := w.lines ++ [line] }

omit [DecidableEq DevInst] in
/-- Going down visits the first child of the node. -/
theorem VisitsAt.entered {w : Walk DevInst} {a : Forest.Spot DevInst} (h : VisitsAt indent a w)
    (dev child : DevInst) (line : DeviceLine) :
    VisitsAt indent (a.down dev) (w.entered child line) where
  head := h.head
  level := by
    change w.level + 1 = indent + .ofNat (a.depth + 1)
    rw [h.level, UInt32.ofNat_add, ← UInt32.add_assoc]
    rfl
  nextNode := by
    change w.nextNode + 1 = .ofNat (a.number + 1)
    rw [h.nextNode, UInt16.ofNat_add]
    rfl
  parent := congrArg some h.nextNode

/-- A node that is visited is reported, and left downwards or sideways. -/
theorem step_of_visit {w : Walk DevInst} (h : w.head = .visit) :
    step cm parent indent deviceAddress w = visit cm indent deviceAddress w := by
  rw [step, h]

/-- Behind the children the walk goes on sideways. -/
theorem step_of_across {w : Walk DevInst} (h : w.head = .across) :
    step cm parent indent deviceAddress w = across cm parent indent w := by
  rw [step, h]

section Visit

variable {w : Walk DevInst} {a : Forest.Spot DevInst} (h : VisitsAt indent a w)
  (hname : nameOf cm w.current ≠ []) (hlt : indent < w.level)
  (hsanity : w.sanityCounter + 1 ≤ loopSanityLimit)
include h hname hlt hsanity

/-- The visit of a device with others below it. -/
theorem step_visit_child {next : DevInst} (hchild : cm.getChild w.current = .ok next) :
    step cm parent indent deviceAddress w =
      some (w.entered next (lineOf cm indent deviceAddress (w.current, a))) := by
  rw [step_of_visit h.head, visit, if_neg (not_not.mpr hlt), if_neg (Nat.not_lt.mpr hsanity),
    report_eq h hname]
  dsimp only
  rw [hchild]
  rfl

/-- The visit of a device with nothing below it. -/
theorem step_visit_leaf {e : ConfigRet} (hchild : cm.getChild w.current = .error e) :
    step cm parent indent deviceAddress w = some { w with
      head := .across
      sanityCounter := w.sanityCounter + 1
      lines := w.lines ++ [lineOf cm indent deviceAddress (w.current, a)] } := by
  rw [step_of_visit h.head, visit, if_neg (not_not.mpr hlt), if_neg (Nat.not_lt.mpr hsanity),
    report_eq h hname]
  dsimp only
  rw [hchild]

end Visit

/-- The walk at a device with nothing to visit below it, after `visited` more devices. -/
def Walk.passed (w : Walk DevInst) (dev : DevInst) (n visited : ℕ) (lines : List DeviceLine) :
    Walk DevInst :=
  { w with
    head := .across
    current := dev
    nextNode := .ofNat n
    sanityCounter := w.sanityCounter + visited
    lines := w.lines ++ lines }

/-- The walk at the device beside the current one. -/
def Walk.beside (w : Walk DevInst) (sibling : DevInst) : Walk DevInst :=
  { w with head := .visit, current := sibling, nextNode := w.nextNode + 1 }

omit [DecidableEq DevInst] in
/-- Going sideways visits the next sibling. -/
theorem VisitsAt.beside {w : Walk DevInst} {a : Forest.Spot DevInst} (h : VisitsAt indent a w)
    (dev sibling : DevInst) (n visited : ℕ) (lines : List DeviceLine) :
    VisitsAt indent (a.next n) ((w.passed dev (a.number + n) visited lines).beside sibling) where
  head := rfl
  level := h.level
  nextNode := by
    change UInt16.ofNat (a.number + n) + 1 = .ofNat (a.number + 1 + n)
    rw [Nat.add_right_comm, UInt16.ofNat_add (a.number + n)]
    rfl
  parent := h.parent

/-- Where there is one, the walk goes there. -/
theorem step_next {w : Walk DevInst} (h : w.head = .across) {next : DevInst}
    (hsibling : cm.getSibling w.current = .ok next) :
    step cm parent indent deviceAddress w = some (w.beside next) := by
  rw [step_of_across h, across, hsibling]
  rfl

/-- The walk goes up to a device that is not the parent it began with. -/
theorem step_up {w : Walk DevInst} (h : w.head = .across)
    (hsibling : cm.getSibling w.current = .error .noSuchDevnode) {up : DevInst}
    (hup : cm.getParent w.current = .ok up) (hroot : parent ≠ up) (hlevel : w.level - 1 ≠ indent)
    {value : UInt16} {stack : List UInt16} (hstack : w.nodeStack = value :: stack) :
    step cm parent indent deviceAddress w =
      some { w with current := up, level := w.level - 1, nodeStack := stack } := by
  rw [step_of_across h, across, hsibling]
  dsimp only
  rw [hup]
  dsimp only
  rw [if_neg (not_or.mpr ⟨hroot.symm, hlevel⟩), hstack]
  rfl

/-- The walk is back at the parent. -/
theorem step_root {w : Walk DevInst} (h : w.head = .across)
    (hsibling : cm.getSibling w.current = .error .noSuchDevnode)
    (hup : cm.getParent w.current = .ok parent) :
    step cm parent indent deviceAddress w = none := by
  rw [step_of_across h, across, hsibling]
  dsimp only
  rw [hup]
  exact if_pos (.inl rfl)

/-- From the first device of a forest, the walk comes to the last one of those beside it, and has
reported all. -/
theorem reaches_last {f : Forest DevInst} {up : DevInst} {a : Forest.Spot DevInst}
    {w : Walk DevInst} (hcurrent : Finds (.ok w.current) f) (hlists : Lists cm f)
    (hparents : f.Linked (fun dev up => cm.getParent dev = .ok up) up)
    (hnames : ∀ dev ∈ f.values, nameOf cm dev ≠ []) (hroot : parent ∉ f.values)
    (hw : VisitsAt indent a w) (hdepth : 1 ≤ a.depth)
    (hlevel : indent.toNat + a.depth + f.height ≤ 2 ^ 32)
    (hsanity : w.sanityCounter + f.size ≤ loopSanityLimit) :
    ∃ last n, n + 1 = a.number + f.size ∧ cm.getSibling last = .error .noSuchDevnode ∧
      cm.getParent last = .ok up ∧
      Reaches (step cm parent indent deviceAddress) w
        (w.passed last n f.size ((f.places a).map (lineOf cm indent deviceAddress))) := by
  induction f generalizing up a w with
  | nil => cases hcurrent
  | cons dev children siblings ihchildren ihsiblings =>
    obtain rfl := Except.ok.inj hcurrent
    obtain ⟨hchild, hlistsc, hsibling, hlistss⟩ := hlists
    obtain ⟨hparent, hparentsc, hparentss⟩ := hparents
    obtain ⟨hname, hnames⟩ := List.forall_mem_cons.mp hnames
    obtain ⟨hnamesc, hnamess⟩ := List.forall_mem_append.mp hnames
    rw [Forest.values, List.mem_cons, List.mem_append, not_or, not_or] at hroot
    obtain ⟨hrootw, hrootc, hroots⟩ := hroot
    rw [Forest.height] at hlevel
    rw [Forest.size] at hsanity ⊢
    have hlt : indent < w.level := hw.level ▸ lt_level hdepth (by omega)
    have hfirst : w.sanityCounter + 1 ≤ loopSanityLimit := by omega
    -- first what is below the device
    have hdown : Reaches (step cm parent indent deviceAddress) w
        (w.passed w.current (a.number + children.size) (1 + children.size)
          (lineOf cm indent deviceAddress (w.current, a) ::
            (children.places (a.down w.current)).map (lineOf cm indent deviceAddress))) := by
      cases children with
      | nil =>
        refine Loop.reaches_head (step_visit_leaf hw hname hlt hfirst hchild) ?_
        rw [hw.nextNode]
        exact .refl
      | cons child below others =>
        refine Loop.reaches_head (step_visit_child hw hname hlt hfirst hchild) ?_
        obtain ⟨last, n, hn, hlast, hlastup, hreach⟩ :=
          ihchildren (w := w.entered child (lineOf cm indent deviceAddress (w.current, a)))
            rfl hlistsc hparentsc hnamesc hrootc (hw.entered w.current child _)
            (Nat.le_add_right_of_le hdepth) (by change indent.toNat + (a.depth + 1) + _ ≤ _; omega)
            (by change w.sanityCounter + 1 + _ ≤ _; omega)
        have hlevelup : w.level + 1 - 1 = w.level := UInt32.add_sub_cancel _ _
        refine Loop.reaches_tail hreach ((step_up rfl hlast hlastup hrootw ?_ rfl).trans ?_)
        · change w.level + 1 - 1 ≠ indent
          rw [hlevelup]
          exact (UInt32.ne_of_lt hlt).symm
        · change n + 1 = a.number + 1 + _ at hn
          obtain rfl : n = a.number + (Forest.cons child below others).size := by omega
          simp only [Walk.passed, Walk.entered, hlevelup, List.append_assoc, List.singleton_append,
            Nat.add_assoc]
    -- then what is beside it
    cases siblings with
    | nil =>
      refine ⟨w.current, a.number + children.size, ?_, hsibling, hparent, ?_⟩
      · rw [Forest.size]
        omega
      · rw [Forest.places, List.map_cons, List.map_append]
        simpa [Forest.places, Forest.size] using hdown
    | cons sibling below others =>
      obtain ⟨last, n, hn, hlast, hlastup, hreach⟩ :=
        ihsiblings (w := (w.passed w.current _ (1 + children.size) _).beside sibling) rfl hlistss
          hparentss hnamess hroots (hw.beside w.current sibling children.size _ _) hdepth
          (by change indent.toNat + a.depth + _ ≤ _; omega)
          (by change w.sanityCounter + (1 + children.size) + _ ≤ _; omega)
      refine ⟨last, n, ?_, hlast, hlastup, ?_⟩
      · change n + 1 = a.number + 1 + children.size + _ at hn
        omega
      · have hall := Loop.reaches_trans (Loop.reaches_tail hdown (step_next rfl hsibling)) hreach
        rw [Forest.places, List.map_cons, List.map_append]
        simpa only [Walk.passed, Walk.beside, List.append_assoc, List.cons_append, Nat.add_assoc]
          using hall

/-- **The device tree is reported as it is.** The walk ends, and reports the devices below the
parent in depth-first order: one line each, with its depth below the parent as the level, a number
of its own, and the number of the device above it, or zero at the top. -/
theorem printDevinstChildren_spec {f : Forest DevInst} (h : Describes cm parent f)
    (hnames : ∀ dev ∈ f.values, nameOf cm dev ≠ []) (hsize : f.size < 10000)
    (hlevel : indent.toNat + f.height < 2 ^ 32) :
    ∃ lines,
      (∃ n, ∀ fuel, n ≤ fuel →
        printDevinstChildren cm parent indent deviceAddress fuel = some lines) ∧
      lines = (f.places .top).map (lineOf cm indent deviceAddress) ∧
      (f.places .top).map Prod.fst = f.values ∧
      (lines.map DeviceLine.node).Nodup ∧
      ∀ p ∈ f.places .top,
        (cm.getParent p.1 = .ok parent ∧ p.2.depth = 1 ∧ p.2.parent = 0) ∨
          ∃ q ∈ f.places .top, cm.getParent p.1 = .ok q.1 ∧ p.2.depth = q.2.depth + 1 ∧
            p.2.parent = q.2.number := by
  refine ⟨_, ?_, rfl, Forest.map_fst_places .top f, ?_, ?_⟩
  · suffices hruns : ∃ w,
    -- the loop reaches a state in which it has climbed back to the root
        Reaches (step cm parent indent deviceAddress) (start cm parent indent) w ∧
        step cm parent indent deviceAddress w = none ∧
        w.lines = (f.places .top).map (lineOf cm indent deviceAddress) by
      obtain ⟨w, hreach, hstop, hlines⟩ := hruns
      obtain ⟨n, hn⟩ := Loop.run_of_reaches hreach hstop
      refine ⟨n, fun fuel hfuel => ?_⟩
      rw [printDevinstChildren, hn fuel hfuel, ← hlines]
      rfl
    have hfinds := h.finds
    cases f with
    | nil =>
      -- `CM_Get_Child` finds no child
      refine ⟨_, .refl, ?_, ?_⟩
      · rw [start, show cm.getChild parent = _ from hfinds]
        exact if_pos (UInt32.lt_irrefl indent)
      · rw [start, show cm.getChild parent = _ from hfinds]
        rfl
    | cons dev children siblings =>
      -- from the first child the walk goes through the whole forest
      rw [start_eq_first hfinds]
      obtain ⟨last, n, -, hlast, hlastup, hreach⟩ :=
        reaches_last (f := .cons dev children siblings) (w := .first indent dev) rfl h.lists
          h.parents hnames h.not_mem (visitsAt_first dev) (Nat.le_refl 1)
          (by change indent.toNat + 1 + _ ≤ _; omega)
          (by change 0 + _ ≤ 10000; omega)
      exact ⟨_, hreach, step_root rfl hlast hlastup, rfl⟩
  · rw [List.map_map]
    -- the numbers are counted up from 1 and stay below 2^16
    change ((Forest.places .top f).map (UInt16.ofNat ∘ fun p => p.2.number)).Nodup
    rw [← List.map_map, Forest.map_number_places]
    refine List.Nodup.map_on (fun m hm n hn heq => ?_) List.nodup_range'
    rw [List.mem_range'_1] at hm hn
    change 1 ≤ m ∧ m < 1 + f.size at hm
    change 1 ≤ n ∧ n < 1 + f.size at hn
    have hnat := congrArg UInt16.toNat heq
    rwa [UInt16.toNat_ofNat_of_lt' (by change m < 65536; omega),
      UInt16.toNat_ofNat_of_lt' (by change n < 65536; omega)] at hnat
  · intro p hp
    -- the level is the depth in the forest, and the parent's number is the printed one
    have hup := h.parents.of_mem_places (a := .top) hp
    rcases Forest.exists_up .top f hp with
      ⟨hnone, hparent, hdepth⟩ | ⟨q, hq, hsome, hparent, hdepth⟩
    · rw [hnone] at hup
      exact .inl ⟨hup, hdepth, hparent⟩
    · rw [hsome] at hup
      exact .inr ⟨q, hq, hup, hdepth, hparent⟩

end Walk

/-! ## Going up two levels -/

/-- A device with one below it, which has one below it, and a device beside the first. -/
def sampleTree : Forest ℕ := .cons 1 (.cons 2 (.cons 3 .nil .nil) .nil) (.cons 4 .nil .nil)

/-- The calls that describe the tree below device 0. -/
def sampleManager : ConfigManager ℕ where
  getChild dev := if dev < 3 then .ok (dev + 1) else .error .noSuchDevnode
  getSibling dev := if dev = 1 then .ok 4 else .error .noSuchDevnode
  getParent dev := .ok (if dev = 4 then 0 else dev - 1)
  friendlyName _ := .error (.other 0x25)
  deviceDesc dev := .ok [.ofNat (0x40 + dev)]

/-- The sample manager has that tree. -/
theorem describes_sampleTree : Describes sampleManager 0 sampleTree where
  finds := rfl
  lists := ⟨rfl, ⟨rfl, ⟨rfl, trivial, rfl, trivial⟩, rfl, trivial⟩, rfl,
    ⟨rfl, trivial, rfl, trivial⟩⟩
  parents := ⟨rfl, ⟨rfl, ⟨rfl, trivial, trivial⟩, trivial⟩, ⟨rfl, trivial, trivial⟩⟩

/-- Its nodes are printed in order. -/
theorem printDevinstChildren_sampleTree :
    ∃ n, ∀ fuel, n ≤ fuel → printDevinstChildren sampleManager 0 2 7 fuel =
      some ((sampleTree.places .top).map (lineOf sampleManager 2 7)) := by
  obtain ⟨lines, hruns, rfl, -⟩ := @printDevinstChildren_spec ℕ _ sampleManager 0 2 7 sampleTree
    describes_sampleTree (by decide) (by decide) (by decide)
  exact hruns

example : (printDevinstChildren sampleManager 0 2 7 10).map (List.map fun line =>
    (line.level, line.name, line.node, line.parentNode)) =
      some [(3, [0x41], 1, 0), (4, [0x42], 2, 1), (5, [0x43], 3, 2), (3, [0x44], 4, 0)] := by
  decide

end UsbPcap.Cmd.DeviceTree
