import Mathlib.Data.UInt
import UsbPcap.Lib.FilePath
import UsbPcap.Service.ConfigFile

/-!
# The files that requests may read

`safePcapPath` lets a request name a capture file only below the capture directory. It tells from
the text of a relative path whether the path leads out of the directory, and takes a name that
begins with two dots for the parent directory.
-/

namespace UsbPcap.Service.PcapPath

open ConfigFile (GoString bytesOf)
open FilePath

/-! ## Definitions -/

/-- `fs.FileMode` -/
abbrev FileMode := UInt32

/-- `os.ModeSymlink` -/
def modeSymlink : FileMode := 0x08000000

/-- `os.ModeType`: directories, links, pipes, sockets, devices and irregular files. -/
def modeType : FileMode :=
  0x80000000 ||| modeSymlink ||| 0x02000000 ||| 0x01000000 ||| 0x04000000 ||| 0x00200000 |||
    0x00080000

/-- `FileMode.IsRegular` -/
def isRegular (m : FileMode) : Bool := m &&& modeType = 0

/-- The dot. -/
def dot : UInt8 := 0x2E

/-- What `safePcapPath` uses of the packages `path/filepath`, `strings` and `os`. -/
structure Packages where
  isAbs : GoString → Bool
  join : GoString → GoString → GoString
  clean : GoString → GoString
  rel : GoString → GoString → Except String GoString
  isPathSeparator : UInt8 → Bool
  equalFold : GoString → GoString → Bool
  lstat : GoString → Except String FileMode

/-- The loop of `filepath.Ext` from the end of the path, with what it has passed. -/
def extLoop (isPathSeparator : UInt8 → Bool) : GoString → GoString → GoString
  | [], _ => []
  | c :: front, passed =>
    if isPathSeparator c then []
    else if c = dot then c :: passed
    else extLoop isPathSeparator front (c :: passed)

/-- `filepath.Ext` -/
def ext (isPathSeparator : UInt8 → Bool) (path : GoString) : GoString :=
  extLoop isPathSeparator path.reverse []

/-- `safePcapPath` -/
def safePcapPath (os : Packages) (captureDir path : GoString) : Except String GoString :=
  if path = [] then .error "pcap path is empty"
  else
    let abs := if os.isAbs path then path else os.join captureDir path
    let abs := os.clean abs
    let captureDir := os.clean captureDir
    match os.rel captureDir abs with
    | .error _ => .error "pcap path must be within the capture directory"
    | .ok rel =>
      if (bytesOf "..").isPrefixOf rel then
        .error "pcap path must be within the capture directory"
      else if os.equalFold (ext os.isPathSeparator abs) (bytesOf ".pcap") = false then
        .error "file must have .pcap extension"
      else
        match os.lstat abs with
        | .error err => .error ("pcap file not accessible: " ++ err)
        | .ok mode =>
          if mode &&& modeSymlink ≠ 0 ∨ isRegular mode = false then
            .error "pcap path must be a regular file, not a symlink or special file"
          else .ok abs

/-! ## What is allowed -/

/-- An upper-case letter of ASCII in lower case. -/
def lower (c : UInt8) : UInt8 := if 0x41 ≤ c ∧ c ≤ 0x5A then c + 0x20 else c

/-- The packages by the elements that their paths have: `read` gives the elements of a path, and
`same` says which names are names of one file. What `Rel` returns is the relative path, and it
returns one to everything below. -/
structure Packages.Documented (os : Packages) (separator : UInt8) (read : GoString → Path UInt8)
    (same : GoString → GoString → Bool) : Prop where
  separator_ne : separator ≠ dot
  clean : ∀ path, read (os.clean path) = (read path).clean dot
  rel_ok : ∀ base target rel, os.rel (os.clean base) (os.clean target) = .ok rel →
    ∃ elems, relative dot same (read (os.clean base)) (read (os.clean target)) = some elems ∧
      text dot separator elems = rel
  rel_below : ∀ base target rest,
    Below dot same (read (os.clean base)) (read (os.clean target)) rest →
      ∃ rel, os.rel (os.clean base) (os.clean target) = .ok rel
  isPathSeparator : ∀ c, lower c ∈ bytesOf ".pcap" → os.isPathSeparator c = false
  equalFold : ∀ s, os.equalFold s (bytesOf ".pcap") = true ↔ s.map lower = bytesOf ".pcap"

/-- The cleaned path, joined to the capture directory when it is relative. -/
def target (os : Packages) (captureDir path : GoString) : GoString :=
  os.clean (if os.isAbs path then path else os.join captureDir path)

section

variable {os : Packages} {separator : UInt8} {read : GoString → Path UInt8}
  {same : GoString → GoString → Bool} {captureDir path : GoString}

variable (os read same captureDir path) in
/-- The path leads down from the capture directory along these elements. -/
def Leads (rest : List GoString) : Prop :=
  Below dot same (read (os.clean captureDir)) (read (target os captureDir path)) rest

variable (os read same captureDir path) in
/-- The path lies in the capture directory, element by element, has the extension in any case and
names a regular file that is not a symbolic link. -/
structure Allowed : Prop where
  inside : ∃ rest, Leads os read same captureDir path rest
  extension : bytesOf ".pcap" <:+ (target os captureDir path).map lower
  file : ∃ mode, os.lstat (target os captureDir path) = .ok mode ∧ isRegular mode = true ∧
    mode &&& modeSymlink = 0

variable (os read same captureDir path) in
/-- The path leads through an entry of the capture directory whose name begins with two dots. -/
def ThroughDots : Prop :=
  ∃ name tail, Leads os read same captureDir path ((dot :: dot :: name) :: tail)

/-! ## The extension -/

theorem extLoop_isSuffix (isPathSeparator : UInt8 → Bool) (front passed : GoString) :
    extLoop isPathSeparator front passed <:+ front.reverse ++ passed := by
  induction front generalizing passed with
  | nil => exact List.nil_suffix
  | cons c front ih =>
    rw [List.reverse_cons, List.append_assoc, extLoop]
    split
    · exact List.nil_suffix
    split
    · exact List.suffix_append _ _
    · exact ih (c :: passed)

/-- The loop passes what is neither a separator nor a dot. -/
theorem extLoop_append {isPathSeparator : UInt8 → Bool} {s : GoString}
    (h : ∀ c ∈ s, isPathSeparator c = false ∧ c ≠ dot) (front passed : GoString) :
    extLoop isPathSeparator (s.reverse ++ front) passed =
      extLoop isPathSeparator front (s ++ passed) := by
  induction s using List.reverseRecOn generalizing passed with
  | nil => rfl
  | append_singleton s c ih =>
    obtain ⟨hsep, hdot⟩ := h c (List.mem_append_right _ List.mem_cons_self)
    rw [List.reverse_append, List.reverse_singleton, List.singleton_append, List.cons_append,
      extLoop, hsep, if_neg Bool.false_ne_true, if_neg hdot,
      ih (fun c hc => h c (List.mem_append_left _ hc)), List.append_assoc]
    rfl

theorem lower_eq_dot {c : UInt8} : lower c = dot ↔ c = dot := by
  rw [lower, dot]
  split
  · next h =>
    have hc : 0x41 ≤ c.toNat ∧ c.toNat ≤ 0x5A := h
    refine iff_of_false (fun heq => ?_) ?_
    · have hnat := congrArg UInt8.toNat heq
      rw [UInt8.toNat_add] at hnat
      change (c.toNat + 0x20) % 256 = 0x2E at hnat
      omega
    · rintro rfl
      exact absurd hc (by decide)
  · exact Iff.rfl

/-- The extension of a path is what its text ends with. -/
theorem equalFold_ext_iff (hdoc : os.Documented separator read same) (path : GoString) :
    os.equalFold (ext os.isPathSeparator path) (bytesOf ".pcap") = true ↔
      bytesOf ".pcap" <:+ path.map lower := by
  rw [hdoc.equalFold]
  constructor
  · intro h
    have hsuffix := (extLoop_isSuffix os.isPathSeparator path.reverse []).map lower
    rw [List.reverse_reverse, List.append_nil] at hsuffix
    rw [← h]
    exact hsuffix
  · rintro ⟨front, hfront⟩
    obtain ⟨stem, e, rfl, -, he⟩ := List.map_eq_append_iff.mp hfront.symm
    obtain ⟨d, name, rfl, hd, hname⟩ := List.map_eq_cons_iff.mp
      (he.trans (show bytesOf ".pcap" = dot :: bytesOf "pcap" from by decide))
    rw [lower_eq_dot] at hd
    subst hd
    have hpass : ∀ c ∈ name, os.isPathSeparator c = false ∧ c ≠ dot := by
      intro c hc
      have hlower : lower c ∈ bytesOf "pcap" := hname ▸ List.mem_map_of_mem hc
      refine ⟨hdoc.isPathSeparator c ?_, ?_⟩
      · exact (show bytesOf "pcap" ⊆ bytesOf ".pcap" from by decide) hlower
      · rintro rfl
        exact absurd hlower (by decide)
    have hdot : os.isPathSeparator dot = false := hdoc.isPathSeparator dot (by decide)
    rw [ext, List.reverse_append, List.reverse_cons, List.append_assoc, extLoop_append hpass,
      List.singleton_append, extLoop, hdot, if_neg Bool.false_ne_true, if_pos rfl,
      List.append_nil]
    exact he

/-! ## What the code lets through -/

/-- The path is relative to the capture directory and its text does not begin with two dots when it
leads down, and not through a name that begins with them. -/
theorem rel_iff (hdoc : os.Documented separator read same) :
    (∃ rel, os.rel (os.clean captureDir) (target os captureDir path) = .ok rel ∧
        (bytesOf "..").isPrefixOf rel = false) ↔
      (∃ rest, Leads os read same captureDir path rest) ∧
        ¬ ThroughDots os read same captureDir path := by
  have hclean : Descends dot (read (target os captureDir path)).elems := by
    rw [target, hdoc.clean]
    exact clean_descends _
  have hdots : ∀ rel : GoString,
      (bytesOf "..").isPrefixOf rel = false ↔ ¬ parent dot <+: rel := by
    intro rel
    rw [← List.isPrefixOf_iff_prefix, show bytesOf ".." = parent dot from by decide,
      Bool.not_eq_true]
  constructor
  · rintro ⟨rel, hok, hfront⟩
    obtain ⟨elems, helems, rfl⟩ := hdoc.rel_ok _ _ rel hok
    obtain ⟨rest, hrest, hnames⟩ := (relative_descends_iff hdoc.separator_ne hclean).mp
      ⟨elems, helems, (hdots _).mp hfront⟩
    refine ⟨⟨rest, hrest⟩, ?_⟩
    rintro ⟨name, tail, hthrough⟩
    exact hnames name tail (hrest.unique hthrough)
  · rintro ⟨⟨rest, hrest⟩, hthrough⟩
    obtain ⟨rel, hok⟩ := hdoc.rel_below _ _ rest hrest
    obtain ⟨elems, helems, rfl⟩ := hdoc.rel_ok _ _ rel hok
    obtain ⟨elems', helems', hfront⟩ := (relative_descends_iff hdoc.separator_ne hclean).mpr
      ⟨rest, hrest, fun name tail h => hthrough ⟨name, tail, h ▸ hrest⟩⟩
    obtain rfl := Option.some.inj (helems.symm.trans helems')
    exact ⟨_, hok, (hdots _).mpr hfront⟩

/-- What `safePcapPath` lets through, and what it returns. -/
theorem safePcapPath_eq_ok_iff (hdoc : os.Documented separator read same) {abs : GoString} :
    safePcapPath os captureDir path = .ok abs ↔
      abs = target os captureDir path ∧ Allowed os read same captureDir path ∧ path ≠ [] ∧
        ¬ ThroughDots os read same captureDir path := by
  have htarget : os.clean (if os.isAbs path then path else os.join captureDir path) =
    target os captureDir path := rfl
  have hrel := @rel_iff os separator read same captureDir path hdoc
  have hext := equalFold_ext_iff hdoc (target os captureDir path)
  unfold safePcapPath
  dsimp only
  rw [htarget]
  constructor
  · intro h
    -- the checks in the order of the source: empty, outside, extension, `Lstat`, its mode
    split at h
    · cases h
    next hpath =>
    split at h
    · cases h
    next rel hok =>
    split at h
    · cases h
    next hfront =>
    split at h
    · cases h
    next hpcap =>
    split at h
    · cases h
    next mode hmode =>
    split at h
    · cases h
    next hplain =>
    obtain ⟨hinside, hthrough⟩ := hrel.mp ⟨rel, hok, Bool.eq_false_iff.mpr hfront⟩
    obtain ⟨hlink, hregular⟩ := not_or.mp hplain
    refine ⟨(Except.ok.inj h).symm, ⟨hinside, ?_, mode, hmode, ?_, ?_⟩, hpath, hthrough⟩
    · exact hext.mp (Bool.eq_true_of_not_eq_false hpcap)
    · exact Bool.eq_true_of_not_eq_false hregular
    · exact not_not.mp hlink
  · rintro ⟨rfl, ⟨hinside, hpcap, mode, hmode, hregular, hlink⟩, hpath, hthrough⟩
    -- each check passes in turn
    obtain ⟨rel, hok, hfront⟩ := hrel.mpr ⟨hinside, hthrough⟩
    rw [if_neg hpath, hok]
    dsimp only
    rw [hfront, if_neg Bool.false_ne_true, hext.mpr hpcap, if_neg Bool.false_ne_true.symm, hmode]
    dsimp only
    rw [if_neg]
    rintro (h | h)
    · exact h hlink
    · exact Bool.false_ne_true (h.symm.trans hregular)

/-- No path leads out of the capture directory. -/
theorem allowed_of_safePcapPath (hdoc : os.Documented separator read same) {abs : GoString}
    (h : safePcapPath os captureDir path = .ok abs) : Allowed os read same captureDir path :=
  ((safePcapPath_eq_ok_iff hdoc).mp h).2.1

/-- **Requests are confined to the capture directory, and reach all of it** but for the entries
whose names begin with two dots; an empty path does not name the directory itself. -/
theorem safePcapPath_iff (hdoc : os.Documented separator read same) :
    ((∃ abs, safePcapPath os captureDir path = .ok abs) ↔ Allowed os read same captureDir path) ↔
      ¬ (Allowed os read same captureDir path ∧
        (path = [] ∨ ThroughDots os read same captureDir path)) := by
  have haccepts : (∃ abs, safePcapPath os captureDir path = .ok abs) ↔
      Allowed os read same captureDir path ∧ path ≠ [] ∧
        ¬ ThroughDots os read same captureDir path := by
    constructor
    · rintro ⟨abs, h⟩
      exact ((safePcapPath_eq_ok_iff hdoc).mp h).2
    · exact fun h => ⟨_, (safePcapPath_eq_ok_iff hdoc).mpr ⟨rfl, h⟩⟩
  rw [haccepts, and_iff_left_iff_imp, ← not_or, not_and]

end

/-! ## Paths with drive letters -/

/-- The letters of ASCII. -/
def isLetter (c : UInt8) : Bool := 0x61 ≤ lower c && lower c ≤ 0x7A

/-- Windows paths with drive letters. -/
def drives : Syntax UInt8 where
  dot := dot
  sep := 0x5C
  colon := 0x3A
  isSep c := c = 0x5C || c = 0x2F
  isLetter := isLetter
  isSep_sep := rfl
  isSep_dot := rfl
  isSep_colon := rfl
  isSep_letter := by
    intro c hc
    rw [Bool.or_eq_false_iff]
    refine ⟨decide_eq_false ?_, decide_eq_false ?_⟩
    · rintro rfl
      exact absurd hc (by decide)
    · rintro rfl
      exact absurd hc (by decide)
  isLetter_dot := rfl

/-- Names that differ in the case of ASCII letters. -/
def sameLetters (s t : GoString) : Bool := s.map lower = t.map lower

/-- The relative path between two clean paths. -/
def driveRel (base target : GoString) : Except String GoString :=
  match relative dot sameLetters (drives.read base) (drives.read target) with
  | none => .error "Rel: can't make the path relative"
  | some elems => .ok (text dot drives.sep elems)

/-- The packages on paths with drive letters, where every path names a file with this mode. -/
def drivePackages (mode : FileMode) : Packages where
  isAbs t := (drives.read t).volume ≠ [] && (drives.read t).rooted
  join a b :=
    if a = [] then drives.clean b
    else if b = [] then drives.clean a
    else drives.clean (a ++ drives.sep :: b)
  clean := drives.clean
  rel := driveRel
  isPathSeparator := drives.isSep
  equalFold := sameLetters
  lstat _ := .ok mode

theorem documented_drivePackages (mode : FileMode) :
    (drivePackages mode).Documented drives.sep drives.read sameLetters where
  separator_ne := by decide
  clean := drives.read_clean
  rel_ok base target rel hok := by
    change driveRel _ _ = .ok rel at hok
    rw [driveRel] at hok
    split at hok
    · cases hok
    · next elems helems => exact ⟨elems, helems, Except.ok.inj hok⟩
  rel_below base target rest hrest := by
    refine ⟨text dot drives.sep rest, ?_⟩
    change driveRel _ _ = _
    rw [driveRel, relative_of_below hrest]
  isPathSeparator c hc := by
    refine Bool.eq_false_iff.mpr fun hsep => ?_
    rcases Bool.or_eq_true_iff.mp hsep with hsep | hsep
    · obtain rfl := of_decide_eq_true hsep
      exact absurd hc (by decide)
    · obtain rfl := of_decide_eq_true hsep
      exact absurd hc (by decide)
  equalFold s := by
    rw [show (bytesOf ".pcap") = (bytesOf ".pcap").map lower from by decide]
    exact decide_eq_true_iff

/-- A capture in the capture directory. -/
theorem safePcapPath_iff_capture :
    ((∃ abs, safePcapPath (drivePackages 0) (bytesOf "C:\\captures") (bytesOf "usb.PCAP") =
        .ok abs) ↔
      Allowed (drivePackages 0) drives.read sameLetters (bytesOf "C:\\captures")
        (bytesOf "usb.PCAP")) ↔
      ¬ (Allowed (drivePackages 0) drives.read sameLetters (bytesOf "C:\\captures")
          (bytesOf "usb.PCAP") ∧
        (bytesOf "usb.PCAP" = [] ∨ ThroughDots (drivePackages 0) drives.read sameLetters
          (bytesOf "C:\\captures") (bytesOf "usb.PCAP"))) :=
  safePcapPath_iff (documented_drivePackages 0)

/-- A capture file whose name begins with two dots is refused. -/
theorem dotted_capture_refused :
    ¬ ((∃ abs, safePcapPath (drivePackages 0) (bytesOf "C:\\captures") (bytesOf "..usb.pcap") =
        .ok abs) ↔
      Allowed (drivePackages 0) drives.read sameLetters (bytesOf "C:\\captures")
        (bytesOf "..usb.pcap")) := by
  have hrefused : (safePcapPath (drivePackages 0) (bytesOf "C:\\captures")
      (bytesOf "..usb.pcap")).toOption = none := by
    decide +kernel
  intro h
  obtain ⟨abs, habs⟩ := h.mpr ⟨⟨[bytesOf "..usb.pcap"], by decide, by decide +kernel,
    ⟨[bytesOf "captures"], by decide +kernel, by decide +kernel⟩, by decide⟩, by decide +kernel,
    0, rfl, rfl, rfl⟩
  rw [habs] at hrefused
  cases hrefused

end UsbPcap.Service.PcapPath
