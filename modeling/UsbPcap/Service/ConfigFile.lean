import UsbPcap.Lib.Tagged
import UsbPcap.Service.Admission

/-!
# The service's configuration file

`SaveConfig` writes the configuration as a JSON object without its zero numbers, `LoadConfig` reads
the object over the defaults. The two agree on a default of zero only, and no default is zero: three
settings that `Validate` accepts as zero come back as their defaults.
-/

namespace UsbPcap.Service.ConfigFile

/-! ## Data -/

/-- A Go string is a sequence of bytes. -/
abbrev GoString := List UInt8

/-- The bytes of a text. -/
def bytesOf (s : String) : GoString := s.toList.flatMap String.utf8EncodeChar

/-- `Config` -/
structure Config where
  captureDir : GoString
  cmdPath : GoString
  idleTimeoutSeconds : UInt32
  maxFileSizeBytes : Int64
  maxHistoryTasks : Int64
  maxCaptureFiles : Int64
  historyTaskTTLMinutes : Int64
deriving DecidableEq

/-- The values of the members of a JSON object. -/
inductive Value where
  | string (s : GoString)
  | number (n : ℤ)
  | null
  | other
deriving DecidableEq

/-- What `omitempty` leaves out. -/
def Value.isEmpty : Value → Bool
  | .string s => s = []
  | .number n => n = 0
  | _ => false

/-- The value with another string. -/
def Value.mapString (f : GoString → GoString) : Value → Value
  | .string s => .string (f s)
  | v => v

/-- A JSON object. -/
abbrev Document := List (String × Value)

/-! ## The tags -/

/-- A field with a string. -/
def stringField (name : String) (get : Config → GoString) (set : GoString → Config → Config) :
    Tagged.Field Config Value where
  name := name
  omitEmpty := false
  get c := .string (get c)
  set
    | .string s, c => some (set s c)
    | .null, c => some c
    | _, _ => none

/-- A field with an `int` or an `int64`, tagged `omitempty`. -/
def intField (name : String) (get : Config → Int64) (set : Int64 → Config → Config) :
    Tagged.Field Config Value where
  name := name
  omitEmpty := true
  get c := .number (get c).toInt
  set
    | .number n, c => if -2 ^ 63 ≤ n ∧ n < 2 ^ 63 then some (set (.ofInt n) c) else none
    | .null, c => some c
    | _, _ => none

/-- The field with a `uint32`, tagged `omitempty`. -/
def uintField (name : String) (get : Config → UInt32) (set : UInt32 → Config → Config) :
    Tagged.Field Config Value where
  name := name
  omitEmpty := true
  get c := .number (get c).toNat
  set
    | .number n, c => if 0 ≤ n ∧ n < 2 ^ 32 then some (set (.ofNat n.toNat) c) else none
    | .null, c => some c
    | _, _ => none

/-- The fields of `Config`, with their tags. -/
def configFields : List (Tagged.Field Config Value) :=
  [stringField "captureDir" (·.captureDir) fun s c => { c with captureDir := s },
    stringField "cmdPath" (·.cmdPath) fun s c => { c with cmdPath := s },
    uintField "idleTimeoutSeconds" (·.idleTimeoutSeconds)
      fun n c => { c with idleTimeoutSeconds := n },
    intField "maxFileSizeBytes" (·.maxFileSizeBytes) fun n c => { c with maxFileSizeBytes := n },
    intField "maxHistoryTasks" (·.maxHistoryTasks) fun n c => { c with maxHistoryTasks := n },
    intField "maxCaptureFiles" (·.maxCaptureFiles) fun n c => { c with maxCaptureFiles := n },
    intField "historyTaskTTLMinutes" (·.historyTaskTTLMinutes)
      fun n c => { c with historyTaskTTLMinutes := n }]

/-! ## The libraries -/

/-- `encoding/json` on objects: `MarshalIndent` and `Unmarshal`, which strings it writes for which,
and which names it takes for a name that is not theirs. -/
structure Json where
  marshal : Document → GoString
  unmarshal : GoString → Except String Document
  toValidUTF8 : GoString → GoString
  folds : String → String → Bool

/-- The object is read as it was written, with strings that are valid UTF-8. -/
def Json.ReadsBack (json : Json) (doc : Document) : Prop :=
  json.unmarshal (json.marshal doc) =
    .ok (doc.map fun m => (m.1, m.2.mapString json.toValidUTF8))

/-- The errors of `os.ReadFile`. -/
inductive ReadError where
  | notExist
  | other (err : String)

/-- Package `os` on disks, and `secureFileACL`. A file that has been written or renamed without an
error is there. -/
structure Os (Disk : Type) where
  readFile : Disk → GoString → Except ReadError GoString
  writeFile : Disk → GoString → GoString → Option String × Disk
  rename : Disk → GoString → GoString → Option String × Disk
  secureFileACL : Disk → GoString → Disk
  readFile_writeFile : ∀ {d path data}, (writeFile d path data).1 = none →
    readFile (writeFile d path data).2 path = .ok data
  readFile_rename : ∀ {d old new data}, (rename d old new).1 = none →
    readFile d old = .ok data → readFile (rename d old new).2 new = .ok data
  readFile_secureFileACL : ∀ d path, readFile (secureFileACL d path) path = readFile d path

/-- Package `path/filepath`, and what `Validate` asks the system. -/
structure Paths where
  dir : GoString → GoString
  base : GoString → GoString
  join : GoString → GoString → GoString
  isAbs : GoString → Bool
  equalFold : GoString → GoString → Bool
  stat : GoString → Except String Bool
  mkdirAll : GoString → Option String

/-! ## Functions -/

/-- `DefaultConfig` -/
def defaultConfig (paths : Paths) (exePath : GoString) : Config where
  captureDir := paths.join (paths.dir exePath) (bytesOf "captures")
  cmdPath := paths.join (paths.dir exePath) (bytesOf "USBPcapCap.exe")
  idleTimeoutSeconds := 30
  maxFileSizeBytes := 100 * 1024 * 1024
  maxHistoryTasks := 20
  maxCaptureFiles := 50
  historyTaskTTLMinutes := 60

/-- `ConfigPath` -/
def configPath (paths : Paths) (exePath : GoString) : GoString :=
  paths.join (paths.dir exePath) (bytesOf "config.json")

variable {Disk : Type}

/-- `LoadConfig` -/
def loadConfig (os : Os Disk) (json : Json) (paths : Paths) (disk : Disk) (exePath : GoString) :
    Except String Config :=
  match os.readFile disk (configPath paths exePath) with
  | .error .notExist => .ok (defaultConfig paths exePath)
  | .error (.other err) => .error err
  | .ok data =>
    match json.unmarshal data with
    | .error err => .error err
    | .ok doc =>
      match Tagged.load json.folds configFields doc (defaultConfig paths exePath) with
      | none => .error "json: cannot unmarshal"
      | some cfg => .ok cfg

/-- `SaveConfig`: the error and the disk afterwards. -/
def saveConfig (os : Os Disk) (json : Json) (paths : Paths) (disk : Disk) (exePath : GoString)
    (cfg : Config) : Option String × Disk :=
  let data := json.marshal (Tagged.save Value.isEmpty configFields cfg)
  let path := configPath paths exePath
  let tmpPath := path ++ bytesOf ".tmp"
  match os.writeFile disk tmpPath data with
  | (some err, disk) => (some err, disk)
  | (none, disk) =>
    match os.rename disk tmpPath path with
    | (some err, disk) => (some err, disk)
    | (none, disk) => (none, os.secureFileACL disk path)

/-- `Config.Validate`; `none` when the configuration is valid. -/
def validate (paths : Paths) (c : Config) : Option String :=
  if c.cmdPath = [] then some "USBPcapCap.exe path is empty"
  else if c.captureDir = [] then some "capture dir is empty"
  else if paths.isAbs c.cmdPath = false then some "USBPcapCap.exe path must be absolute"
  else if paths.equalFold (paths.base c.cmdPath) (bytesOf "USBPcapCap.exe") = false then
    some "cmdPath must point to USBPcapCap.exe"
  else
    match paths.stat c.cmdPath with
    | .error err => some err
    | .ok true => some "cmdPath must be a file, not a directory"
    | .ok false =>
      if 24 * 60 * 60 < c.idleTimeoutSeconds then some "idleTimeoutSeconds must be <= 86400"
      else if c.maxFileSizeBytes < 0 then some "maxFileSizeBytes must be >= 0"
      else if c.maxHistoryTasks ≤ 0 then some "maxHistoryTasks must be > 0"
      else if c.maxCaptureFiles ≤ 0 then some "maxCaptureFiles must be > 0"
      else paths.mkdirAll c.captureDir

/-! ## Saved and loaded -/

/-- An integer of the field's type can be assigned. -/
theorem intField_set (name : String) (get : Config → Int64) (set : Int64 → Config → Config)
    (n : Int64) (c : Config) :
    (intField name get set).set (.number n.toInt) c = some (set n c) := by
  have hlow : -2 ^ 63 ≤ n.toInt := n.le_toInt
  have hhigh : n.toInt < 2 ^ 63 := n.toInt_lt
  unfold intField
  dsimp only
  rw [if_pos ⟨hlow, hhigh⟩, Int64.ofInt_toInt]

theorem uintField_set (name : String) (get : Config → UInt32) (set : UInt32 → Config → Config)
    (n : UInt32) (c : Config) :
    (uintField name get set).set (.number n.toNat) c = some (set n c) := by
  have hlt : n.toNat < 2 ^ 32 := n.toNat_lt
  unfold uintField
  dsimp only
  rw [if_pos ⟨Int.natCast_nonneg _, by omega⟩, Int.toNat_natCast, UInt32.ofNat_toNat]

theorem stringField_set (name : String) (get : Config → GoString)
    (set : GoString → Config → Config) (s : GoString) (c : Config) :
    (stringField name get set).set (.string s) c = some (set s c) := rfl

/-- Fields with other names keep their values when the components behind them do. -/
theorem get_configFields {name : String} {c c' : Config}
    (hdir : "captureDir" ≠ name → c'.captureDir = c.captureDir)
    (hcmd : "cmdPath" ≠ name → c'.cmdPath = c.cmdPath)
    (hidle : "idleTimeoutSeconds" ≠ name → c'.idleTimeoutSeconds = c.idleTimeoutSeconds)
    (hsize : "maxFileSizeBytes" ≠ name → c'.maxFileSizeBytes = c.maxFileSizeBytes)
    (hhistory : "maxHistoryTasks" ≠ name → c'.maxHistoryTasks = c.maxHistoryTasks)
    (hfiles : "maxCaptureFiles" ≠ name → c'.maxCaptureFiles = c.maxCaptureFiles)
    (httl : "historyTaskTTLMinutes" ≠ name → c'.historyTaskTTLMinutes = c.historyTaskTTLMinutes)
    (g : Tagged.Field Config Value) (hg : g ∈ configFields) (hne : g.name ≠ name) :
    g.get c' = g.get c := by
  simp only [configFields, List.mem_cons, List.not_mem_nil, or_false] at hg
  have hint {n n' : Int64} (h : n' = n) : Value.number n'.toInt = .number n.toInt := by rw [h]
  rcases hg with rfl | rfl | rfl | rfl | rfl | rfl | rfl
  · exact congrArg Value.string (hdir hne)
  · exact congrArg Value.string (hcmd hne)
  · exact congrArg (fun n : UInt32 => Value.number n.toNat) (hidle hne)
  · exact hint (hsize hne)
  · exact hint (hhistory hne)
  · exact hint (hfiles hne)
  · exact hint (httl hne)

/-- The fields with their tags are `Config`. -/
theorem lawful_configFields (f : GoString → GoString) :
    Tagged.Lawful (Value.mapString f) configFields where
  nodup := by decide
  ext c c' h := by
    simp only [configFields, List.forall_mem_cons] at h
    obtain ⟨hdir, hcmd, hidle, hsize, hhistory, hfiles, httl, -⟩ := h
    cases c
    cases c'
    rw [Config.mk.injEq]
    exact ⟨Value.string.inj hdir, Value.string.inj hcmd,
      UInt32.toNat_inj.mp (Int.ofNat.inj (Value.number.inj hidle)),
      Int64.toInt_inj.mp (Value.number.inj hsize), Int64.toInt_inj.mp (Value.number.inj hhistory),
      Int64.toInt_inj.mp (Value.number.inj hfiles), Int64.toInt_inj.mp (Value.number.inj httl)⟩
  set := by
    -- each field is set alone: the others are other components
    have hself {name : String} {p : Prop} (h : name ≠ name) : p := absurd rfl h
    intro g hg x c
    simp only [configFields, List.mem_cons, List.not_mem_nil, or_false] at hg
    rcases hg with rfl | rfl | rfl | rfl | rfl | rfl | rfl
    · exact ⟨_, stringField_set _ _ _ _ c, rfl, get_configFields hself (fun _ => rfl)
        (fun _ => rfl) (fun _ => rfl) (fun _ => rfl) (fun _ => rfl) (fun _ => rfl)⟩
    · exact ⟨_, stringField_set _ _ _ _ c, rfl, get_configFields (fun _ => rfl) hself
        (fun _ => rfl) (fun _ => rfl) (fun _ => rfl) (fun _ => rfl) (fun _ => rfl)⟩
    · exact ⟨_, uintField_set _ _ _ _ c, rfl, get_configFields (fun _ => rfl) (fun _ => rfl)
        hself (fun _ => rfl) (fun _ => rfl) (fun _ => rfl) (fun _ => rfl)⟩
    · exact ⟨_, intField_set _ _ _ _ c, rfl, get_configFields (fun _ => rfl) (fun _ => rfl)
        (fun _ => rfl) hself (fun _ => rfl) (fun _ => rfl) (fun _ => rfl)⟩
    · exact ⟨_, intField_set _ _ _ _ c, rfl, get_configFields (fun _ => rfl) (fun _ => rfl)
        (fun _ => rfl) (fun _ => rfl) hself (fun _ => rfl) (fun _ => rfl)⟩
    · exact ⟨_, intField_set _ _ _ _ c, rfl, get_configFields (fun _ => rfl) (fun _ => rfl)
        (fun _ => rfl) (fun _ => rfl) (fun _ => rfl) hself (fun _ => rfl)⟩
    · exact ⟨_, intField_set _ _ _ _ c, rfl, get_configFields (fun _ => rfl) (fun _ => rfl)
        (fun _ => rfl) (fun _ => rfl) (fun _ => rfl) (fun _ => rfl) hself⟩

/-- What has to hold of a field for a configuration to come back. -/
def ComesBack (f : GoString → GoString) (field : Tagged.Field Config Value) (x d : Config) : Prop :=
  if field.Saved Value.isEmpty x then (field.get x).mapString f = field.get x
  else field.get d = field.get x

theorem comesBack_stringField (f : GoString → GoString) (name : String)
    (get : Config → GoString) (set : GoString → Config → Config) (x d : Config) :
    ComesBack f (stringField name get set) x d ↔ f (get x) = get x := by
  have hsaved : (stringField name get set).Saved Value.isEmpty x := fun h => Bool.noConfusion h.1
  unfold ComesBack
  rw [if_pos hsaved]
  exact Value.string.injEq _ _ ▸ Iff.rfl

/-- A number comes back unless it is zero and the default is not. -/
theorem comesBack_intField (f : GoString → GoString) (name : String) (get : Config → Int64)
    (set : Int64 → Config → Config) (x d : Config) :
    ComesBack f (intField name get set) x d ↔ (get x = 0 → get d = 0) := by
  have hsaved : (intField name get set).Saved Value.isEmpty x ↔ get x ≠ 0 := by
    have hzero : (get x).toInt = 0 ↔ get x = 0 := Int64.toInt_inj (y := 0)
    unfold Tagged.Field.Saved intField Value.isEmpty
    simp only [decide_eq_true_eq, true_and, hzero, ne_eq]
  unfold ComesBack
  by_cases hx : get x = 0
  · rw [if_neg (by rw [hsaved, not_not]; exact hx)]
    change Value.number (get d).toInt = .number (get x).toInt ↔ _
    rw [Value.number.injEq, Int64.toInt_inj, hx]
    exact ⟨fun h _ => h, fun h => h rfl⟩
  · rw [if_pos (hsaved.mpr hx)]
    exact iff_of_true rfl fun h => absurd h hx

theorem comesBack_uintField (f : GoString → GoString) (name : String) (get : Config → UInt32)
    (set : UInt32 → Config → Config) (x d : Config) :
    ComesBack f (uintField name get set) x d ↔ (get x = 0 → get d = 0) := by
  have hsaved : (uintField name get set).Saved Value.isEmpty x ↔ get x ≠ 0 := by
    have hzero : ((get x).toNat : ℤ) = 0 ↔ get x = 0 := by
      rw [Int.natCast_eq_zero]
      exact UInt32.toNat_inj (b := 0)
    unfold Tagged.Field.Saved uintField Value.isEmpty
    simp only [decide_eq_true_eq, true_and, hzero, ne_eq]
  unfold ComesBack
  by_cases hx : get x = 0
  · rw [if_neg (by rw [hsaved, not_not]; exact hx)]
    change Value.number (get d).toNat = .number (get x).toNat ↔ _
    rw [Value.number.injEq, Int.natCast_inj, UInt32.toNat_inj, hx]
    exact ⟨fun h _ => h, fun h => h rfl⟩
  · rw [if_pos (hsaved.mpr hx)]
    exact iff_of_true rfl fun h => absurd h hx

/-- A check that is passed. -/
theorem check_eq_none_iff {p : Prop} [Decidable p] {err : String} {rest : Option String} :
    (if p then some err else rest) = none ↔ ¬ p ∧ rest = none := by
  by_cases hp : p
  · rw [if_pos hp]
    exact ⟨nofun, fun h => absurd hp h.1⟩
  · rw [if_neg hp]
    exact ⟨fun h => ⟨hp, h⟩, And.right⟩

/-- A valid configuration keeps at least one task and one file. -/
theorem counts_of_validate {paths : Paths} {c : Config} (h : validate paths c = none) :
    0 < c.maxHistoryTasks ∧ 0 < c.maxCaptureFiles := by
  rw [validate, check_eq_none_iff, check_eq_none_iff, check_eq_none_iff, check_eq_none_iff] at h
  obtain ⟨-, -, -, -, h⟩ := h
  split at h
  · cases h
  · cases h
  · rw [check_eq_none_iff, check_eq_none_iff, check_eq_none_iff, check_eq_none_iff] at h
    obtain ⟨-, -, hhistory, hfiles, -⟩ := h
    exact ⟨Int64.not_le.mp hhistory, Int64.not_le.mp hfiles⟩

/-- What the task store reads of a valid configuration. -/
def Config.store {paths : Paths} (c : Config) (h : validate paths c = none) : Service.Config where
  maxHistoryTasks := c.maxHistoryTasks.toInt.toNat
  historyTaskTTLMinutes := c.historyTaskTTLMinutes.toInt
  maxHistoryTasks_pos := by
    have hpos := Int64.lt_iff_toInt_lt.mp (counts_of_validate h).1
    rw [Int64.toInt_zero] at hpos
    omega

variable {os : Os Disk} {json : Json} {paths : Paths}

/-- What a save writes is there to be read. -/
theorem readFile_saveConfig {disk : Disk} {exePath : GoString} {cfg : Config}
    (hsaved : (saveConfig os json paths disk exePath cfg).1 = none) :
    os.readFile (saveConfig os json paths disk exePath cfg).2 (configPath paths exePath) =
      .ok (json.marshal (Tagged.save Value.isEmpty configFields cfg)) := by
  unfold saveConfig at hsaved ⊢
  dsimp only at hsaved ⊢
  cases hwrite : os.writeFile disk (configPath paths exePath ++ bytesOf ".tmp")
      (json.marshal (Tagged.save Value.isEmpty configFields cfg)) with
  | mk err written =>
    rw [hwrite] at hsaved
    cases err with
    | some err => cases hsaved
    | none =>
      dsimp only at hsaved ⊢
      have hthere := os.readFile_writeFile (congrArg Prod.fst hwrite)
      rw [hwrite] at hthere
      cases hrename : os.rename written (configPath paths exePath ++ bytesOf ".tmp")
          (configPath paths exePath) with
      | mk err renamed =>
        rw [hrename] at hsaved
        cases err with
        | some err => cases hsaved
        | none =>
          dsimp only
          have hmoved := os.readFile_rename (congrArg Prod.fst hrename) hthere
          rw [hrename] at hmoved
          rw [os.readFile_secureFileACL]
          exact hmoved

/-- After a save, a load gets what comes back over the defaults. -/
theorem loadConfig_saveConfig {disk : Disk} {exePath : GoString} {cfg : Config}
    (hjson : json.ReadsBack (Tagged.save Value.isEmpty configFields cfg))
    (hsaved : (saveConfig os json paths disk exePath cfg).1 = none) :
    loadConfig os json paths (saveConfig os json paths disk exePath cfg).2 exePath = .ok cfg ↔
      ∀ field ∈ configFields,
        ComesBack json.toValidUTF8 field cfg (defaultConfig paths exePath) := by
  have hread := readFile_saveConfig hsaved
  unfold loadConfig
  rw [hread]
  dsimp only
  rw [hjson]
  dsimp only
  have hiff := @Tagged.load_save_iff _ _ Value.isEmpty json.folds _ _
    (lawful_configFields json.toValidUTF8) cfg (defaultConfig paths exePath)
  unfold ComesBack
  rw [← hiff]
  cases Tagged.load json.folds configFields _ (defaultConfig paths exePath) with
  | none => simp
  | some loaded => simp

/-- **Which configurations survive a save and a load.** A valid configuration that was saved is
loaded again if and only if its idle timeout, its file size limit and its history's lifetime are not
zero and its paths are valid UTF-8. -/
theorem config_round_trip_iff {disk : Disk} {exePath : GoString} {cfg : Config}
    (hjson : json.ReadsBack (Tagged.save Value.isEmpty configFields cfg))
    (hvalid : validate paths cfg = none)
    (hsaved : (saveConfig os json paths disk exePath cfg).1 = none) :
    loadConfig os json paths (saveConfig os json paths disk exePath cfg).2 exePath = .ok cfg ↔
      (cfg.idleTimeoutSeconds ≠ 0 ∧ cfg.maxFileSizeBytes ≠ 0 ∧ cfg.historyTaskTTLMinutes ≠ 0) ∧
        json.toValidUTF8 cfg.captureDir = cfg.captureDir ∧
        json.toValidUTF8 cfg.cmdPath = cfg.cmdPath := by
  obtain ⟨hhistory, hfiles⟩ := counts_of_validate hvalid
  -- no default is zero
  have hidle : (cfg.idleTimeoutSeconds = 0 →
      (defaultConfig paths exePath).idleTimeoutSeconds = 0) ↔ cfg.idleTimeoutSeconds ≠ 0 :=
    imp_congr_right fun _ => iff_of_false (show (30 : UInt32) ≠ 0 by decide) id
  have hsize : (cfg.maxFileSizeBytes = 0 → (defaultConfig paths exePath).maxFileSizeBytes = 0) ↔
      cfg.maxFileSizeBytes ≠ 0 :=
    imp_congr_right fun _ =>
      iff_of_false (show (100 * 1024 * 1024 : Int64) ≠ 0 by decide) id
  have httl : (cfg.historyTaskTTLMinutes = 0 →
      (defaultConfig paths exePath).historyTaskTTLMinutes = 0) ↔ cfg.historyTaskTTLMinutes ≠ 0 :=
    imp_congr_right fun _ => iff_of_false (show (60 : Int64) ≠ 0 by decide) id
  rw [loadConfig_saveConfig hjson hsaved]
  unfold configFields
  simp only [List.forall_mem_cons, comesBack_stringField, comesBack_intField, comesBack_uintField,
    hidle, hsize, httl]
  constructor
  · rintro ⟨hdir, hcmd, hidle, hsize, -, -, httl, -⟩
    exact ⟨⟨hidle, hsize, httl⟩, hdir, hcmd⟩
  · rintro ⟨⟨hidle, hsize, httl⟩, hdir, hcmd⟩
    have hne : ∀ {n : Int64}, 0 < n → n ≠ 0 := fun h => (Int64.ne_of_lt h).symm
    exact ⟨hdir, hcmd, hidle, hsize, fun h => absurd h (hne hhistory),
      fun h => absurd h (hne hfiles), httl, fun _ h => absurd h List.not_mem_nil⟩

/-! ## A service without an idle timeout -/

/-- A library that knows one text and its object. -/
def jsonOf (text : String) (doc : Document) : Json where
  marshal _ := bytesOf text
  unmarshal data := if data = bytesOf text then .ok doc else .error "unexpected end of JSON input"
  toValidUTF8 := id
  folds _ _ := false

/-- Files under their names, on a disk that never fails. -/
def sampleOs : Os (GoString → Option GoString) where
  readFile disk path :=
    match disk path with
    | none => .error .notExist
    | some data => .ok data
  writeFile disk path data := (none, Function.update disk path (some data))
  rename disk old new := (none, Function.update (Function.update disk old none) new (disk old))
  secureFileACL disk _ := disk
  readFile_writeFile := by
    intro disk path data _
    dsimp only
    rw [Function.update_self]
  readFile_rename := by
    intro disk old new data _ hread
    dsimp only at hread ⊢
    rw [Function.update_self]
    exact hread
  readFile_secureFileACL _ _ := rfl

/-- Windows paths, on a system where the executable exists. -/
def samplePaths : Paths where
  dir path := (path.reverse.dropWhile (· ≠ 0x5C)).tail.reverse
  base path := (path.reverse.takeWhile (· ≠ 0x5C)).reverse
  join a b := a ++ 0x5C :: b
  isAbs path := path.drop 1 |>.take 2 |> (· = [0x3A, 0x5C])
  equalFold a b := a = b
  stat _ := .ok false
  mkdirAll _ := none

/-- Where the service is installed. -/
def sampleExe : GoString := bytesOf "C:\\u\\service.exe"

/-- The configuration that the service comes with, but for the idle timeout. -/
def withIdleTimeout (seconds : UInt32) : Config :=
  { defaultConfig samplePaths sampleExe with idleTimeoutSeconds := seconds }

/-- What is saved of it. -/
def sampleDocument (seconds : UInt32) : Document :=
  Tagged.save Value.isEmpty configFields (withIdleTimeout seconds)

/-- The library on the file without an idle timeout. -/
def zeroJson : Json :=
  jsonOf ("\x7b\n  \"captureDir\": \"C:\\\\u\\\\captures\",\n" ++
    "  \"cmdPath\": \"C:\\\\u\\\\USBPcapCap.exe\",\n" ++
    "  \"maxFileSizeBytes\": 104857600,\n  \"maxHistoryTasks\": 20,\n" ++
    "  \"maxCaptureFiles\": 50,\n  \"historyTaskTTLMinutes\": 60\n\x7d") (sampleDocument 0)

/-- A configuration that differs from the default in every field. -/
def changedConfig : Config where
  captureDir := bytesOf "D:\\usb"
  cmdPath := bytesOf "D:\\bin\\USBPcapCap.exe"
  idleTimeoutSeconds := 600
  maxFileSizeBytes := 5000000
  maxHistoryTasks := 7
  maxCaptureFiles := 9
  historyTaskTTLMinutes := 5

/-- The library on its file. -/
def changedJson : Json :=
  jsonOf ("\x7b\n  \"captureDir\": \"D:\\\\usb\",\n" ++
    "  \"cmdPath\": \"D:\\\\bin\\\\USBPcapCap.exe\",\n  \"idleTimeoutSeconds\": 600,\n" ++
    "  \"maxFileSizeBytes\": 5000000,\n  \"maxHistoryTasks\": 7,\n" ++
    "  \"maxCaptureFiles\": 9,\n  \"historyTaskTTLMinutes\": 5\n\x7d")
    (Tagged.save Value.isEmpty configFields changedConfig)

theorem readsBack_changedJson :
    changedJson.ReadsBack (Tagged.save Value.isEmpty configFields changedConfig) := by
  have hsame : (Tagged.save Value.isEmpty configFields changedConfig).map
      (fun m => (m.1, m.2.mapString id)) =
        Tagged.save Value.isEmpty configFields changedConfig := by
    decide
  unfold Json.ReadsBack changedJson jsonOf
  dsimp only
  rw [if_pos rfl, hsame]

theorem config_round_trip_changed :
    loadConfig sampleOs changedJson samplePaths
      (saveConfig sampleOs changedJson samplePaths (fun _ => none) sampleExe
        changedConfig).2 sampleExe = .ok changedConfig :=
  (config_round_trip_iff readsBack_changedJson (by decide) rfl).mpr
    ⟨⟨by decide, by decide, by decide⟩, rfl, rfl⟩

theorem loadConfig_jsonOf (text : String) (doc : Document) (cfg : Config) {loaded : Config}
    (h : Tagged.load (fun _ _ => false) configFields doc (defaultConfig samplePaths sampleExe) =
      some loaded) :
    loadConfig sampleOs (jsonOf text doc) samplePaths
      (saveConfig sampleOs (jsonOf text doc) samplePaths (fun _ => none) sampleExe cfg).2
      sampleExe = .ok loaded := by
  have hread := @readFile_saveConfig _ sampleOs (jsonOf text doc) samplePaths (fun _ => none)
    sampleExe cfg rfl
  have hdoc : (jsonOf text doc).unmarshal (bytesOf text) = .ok doc := if_pos rfl
  unfold loadConfig
  rw [hread, show (jsonOf text doc).marshal _ = bytesOf text from rfl]
  dsimp only
  rw [hdoc, show (jsonOf text doc).folds = fun _ _ => false from rfl]
  dsimp only
  rw [h]

/-- An idle timeout that is switched off comes back as thirty seconds. -/
theorem zero_idle_timeout_lost :
    validate samplePaths (withIdleTimeout 0) = none ∧
      (saveConfig sampleOs zeroJson samplePaths (fun _ => none) sampleExe
        (withIdleTimeout 0)).1 = none ∧
      loadConfig sampleOs zeroJson samplePaths
        (saveConfig sampleOs zeroJson samplePaths (fun _ => none) sampleExe
          (withIdleTimeout 0)).2 sampleExe = .ok (withIdleTimeout 30) ∧
      withIdleTimeout 30 ≠ withIdleTimeout 0 := by
  have hload : Tagged.load (fun _ _ => false) configFields (sampleDocument 0)
      (defaultConfig samplePaths sampleExe) = some (withIdleTimeout 30) := by
    decide
  exact ⟨by decide, rfl, loadConfig_jsonOf _ _ (withIdleTimeout 0) hload, by decide⟩

end UsbPcap.Service.ConfigFile
