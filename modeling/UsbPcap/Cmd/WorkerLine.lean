import UsbPcap.Cmd.Options
import UsbPcap.Lib.Argv
import UsbPcap.Lib.Getopt

/-!
# The worker's command line

`generate_worker_command_line` prints the configuration of a capture as the options of an elevated
worker, which splits the line into arguments and reads them with `getopt_long` and the option loop
again. Nothing is quoted, numbers are printed with `%u`, and the buffer's size is computed from the
lengths of the formats.

A `CStr` lists the bytes of a narrow text, each as the character of its value. The line is wide:
`%S` makes a wide character of every byte, in the C locale the one of the same value, and the worker
gets its arguments in the ANSI code page again. `AnsiPage` is what the line meets of that page.
-/

namespace UsbPcap.Cmd

open CText Getopt

/-! ## The options of `usbpcapcmd_main` -/

/-- The values of `val` in `long_options`, and the variables that options set by themselves. -/
inductive OptKey where
  | help
  | device
  | output
  | snaplen
  | bufferlen
  | initNonStandardHwids
  | json
  | listInterfaces
  | listDevices
  | devices
  | vendorId
  | productId
  | autoInterface
  | duration
  | noInteractive
  | appFilter
  | endpoint
  | transferType
  | storeMode
  | captureFromAllDevices
  | captureFromNewDevices
  | injectDescriptors
  | extcapVersion
  | extcapInterfaces
  | extcapInterface
  | extcapDlts
  | extcapConfig
  | capture
  | extcapFifo
deriving DecidableEq, Repr

/-- `long_options` -/
def longOptions : List (LongOption OptKey) :=
  [⟨"help".toList, .noArgument, .help⟩,
    ⟨"device".toList, .requiredArgument, .device⟩,
    ⟨"interface".toList, .requiredArgument, .device⟩,
    ⟨"output".toList, .requiredArgument, .output⟩,
    ⟨"snaplen".toList, .requiredArgument, .snaplen⟩,
    ⟨"bufferlen".toList, .requiredArgument, .bufferlen⟩,
    ⟨"init-non-standard-hwids".toList, .noArgument, .initNonStandardHwids⟩,
    ⟨"json".toList, .noArgument, .json⟩,
    ⟨"list-interfaces".toList, .noArgument, .listInterfaces⟩,
    ⟨"list-devices".toList, .noArgument, .listDevices⟩,
    ⟨"devices".toList, .requiredArgument, .devices⟩,
    ⟨"vendor-id".toList, .requiredArgument, .vendorId⟩,
    ⟨"vid".toList, .requiredArgument, .vendorId⟩,
    ⟨"product-id".toList, .requiredArgument, .productId⟩,
    ⟨"pid".toList, .requiredArgument, .productId⟩,
    ⟨"auto-interface".toList, .noArgument, .autoInterface⟩,
    ⟨"duration".toList, .requiredArgument, .duration⟩,
    ⟨"no-interactive".toList, .noArgument, .noInteractive⟩,
    ⟨"app-filter".toList, .noArgument, .appFilter⟩,
    ⟨"endpoint".toList, .requiredArgument, .endpoint⟩,
    ⟨"transfer-type".toList, .requiredArgument, .transferType⟩,
    ⟨"store-mode".toList, .requiredArgument, .storeMode⟩,
    ⟨"capture-from-all-devices".toList, .noArgument, .captureFromAllDevices⟩,
    ⟨"capture-from-new-devices".toList, .noArgument, .captureFromNewDevices⟩,
    ⟨"inject-descriptors".toList, .noArgument, .injectDescriptors⟩,
    ⟨"extcap-version".toList, .optionalArgument, .extcapVersion⟩,
    ⟨"extcap-interfaces".toList, .noArgument, .extcapInterfaces⟩,
    ⟨"extcap-interface".toList, .requiredArgument, .extcapInterface⟩,
    ⟨"extcap-dlts".toList, .noArgument, .extcapDlts⟩,
    ⟨"extcap-config".toList, .noArgument, .extcapConfig⟩,
    ⟨"capture".toList, .noArgument, .capture⟩,
    ⟨"fifo".toList, .requiredArgument, .extcapFifo⟩]

/-- `"hd:o:s:b:IA"` -/
def shortOptions (c : Char) : Option (OptKey × Bool) :=
  if c = 'h' then some (.help, false)
  else if c = 'd' then some (.device, true)
  else if c = 'o' then some (.output, true)
  else if c = 's' then some (.snaplen, true)
  else if c = 'b' then some (.bufferlen, true)
  else if c = 'I' then some (.initNonStandardHwids, false)
  else if c = 'A' then some (.captureFromAllDevices, false)
  else none

/-- The arguments of `getopt_long`. -/
def optionSpec : Spec OptKey where
  short := shortOptions
  long := longOptions

/-- What the option loop sees of what `getopt_long` returns. The topic behind `--help` is left out:
the program ends there. -/
def Opt.ofFound : Found OptKey → Opt
  | .invalid => .invalid
  | .option key optarg =>
    let arg := optarg.getD []
    match key with
    | .help => .help none
    | .device => .device arg
    | .output => .output arg
    | .snaplen => .snaplen arg
    | .bufferlen => .bufferlen arg
    | .initNonStandardHwids => .initNonStandardHwids
    | .json => .json
    | .listInterfaces => .listInterfaces
    | .listDevices => .listDevices
    | .devices => .devices arg
    | .vendorId => .vendorId arg
    | .productId => .productId arg
    | .autoInterface => .autoInterface
    | .duration => .duration arg
    | .noInteractive => .noInteractive
    | .appFilter => .appFilter
    | .endpoint => .endpoint arg
    | .transferType => .transferType arg
    | .storeMode => .storeMode arg
    | .captureFromAllDevices => .captureFromAllDevices
    | .captureFromNewDevices => .captureFromNewDevices
    | .injectDescriptors => .injectDescriptors
    | .extcapVersion => .extcapVersion optarg
    | .extcapInterfaces => .extcapInterfaces
    | .extcapInterface => .extcapInterface arg
    | .extcapDlts => .extcapDlts
    | .extcapConfig => .extcapConfig
    | .capture => .capture
    | .extcapFifo => .extcapFifo arg

/-- The options in the arguments behind the program's name. -/
def argvOptions (args : List CStr) : List Opt := (optionSpec.getopt args).map Opt.ofFound

/-! ## `generate_worker_command_line` -/

/-- `transfer_type_to_text` -/
def transferTypeToText (transfer : UInt8) : CStr :=
  if transfer = transferControl then "control".toList
  else if transfer = transferBulk then "bulk".toList
  else if transfer = transferInterrupt then "interrupt".toList
  else if transfer = transferIsochronous then "isochronous".toList
  else "unknown".toList

/-- The formats, in the order of their definitions. -/
def workerFormats : List String :=
  ["-d %S -b %u -o %S", " -s %u", " --devices %S", " --capture-from-all-devices",
    " --capture-from-new-devices", " --inject-descriptors", " --duration %u", " --app-filter",
    " --vendor-id %u", " --product-id %u", " --endpoint %u", " --transfer-type %S",
    " --store-mode on-match", " --no-interactive"]

/-- An option that is printed behind a blank, and its value behind another one. -/
structure WorkerOption where
  name : CStr
  value : Option CStr
deriving DecidableEq, Repr

/-- What is printed for an option. -/
def WorkerOption.text (o : WorkerOption) : CStr :=
  ' ' :: o.name ++
    match o.value with
    | none => []
    | some value => ' ' :: value

/-- An option that is printed if `b` holds. -/
def optionIf (b : Bool) (name : String) (value : Option CStr) : List WorkerOption :=
  if b then [⟨name.toList, value⟩] else []

/-- `WORKER_CMD_LINE_FORMATTER_DEVICES` -/
def devicesOption : Option CStr → List WorkerOption
  | none => []
  | some list => [⟨"--devices".toList, some list⟩]

/-- The options that are printed behind `-d`, `-b` and `-o`. -/
def workerOptions (data : CaptureData) : List WorkerOption :=
  optionIf (data.snaplen ≠ defaultSnapshotLength) "-s" (some (decimal data.snaplen.toNat)) ++
  devicesOption data.addressList ++
  optionIf data.captureAll "--capture-from-all-devices" none ++
  optionIf data.captureNew "--capture-from-new-devices" none ++
  optionIf data.injectDescriptors "--inject-descriptors" none ++
  optionIf (0 < data.durationSeconds) "--duration" (some (decimal data.durationSeconds.toNat)) ++
  optionIf data.appFilter.enabled "--app-filter" none ++
  optionIf data.appFilter.hasVendorId "--vendor-id"
    (some (decimal data.appFilter.vendorId.toNat)) ++
  optionIf data.appFilter.hasProductId "--product-id"
    (some (decimal data.appFilter.productId.toNat)) ++
  optionIf data.appFilter.hasEndpoint "--endpoint"
    (some (decimal data.appFilter.endpoint.toNat)) ++
  optionIf data.appFilter.hasTransferType "--transfer-type"
    (some (transferTypeToText data.appFilter.transferType)) ++
  optionIf (data.storeMode = storeModeOnMatch) "--store-mode" (some "on-match".toList) ++
  optionIf true "--no-interactive" none

/-- The name of the pipe for standard output: `\\.\pipe\` and the device, with `_` for the
backslashes behind its first character. -/
def pipeName (device : CStr) : CStr :=
  "\\\\.\\pipe\\".toList ++ device.take 1 ++
    (device.drop 1).map fun c => if c = '\\' then '_' else c

/-- The character is in ASCII. -/
def isAscii (c : Char) : Bool := c.toNat < 128

/-- The ANSI code page of the system. `wideLength` is what `MultiByteToWideChar` counts for a narrow
text, without its NUL, and `narrow` lists the bytes that a wide character becomes on its way to the
arguments of `main`. ASCII is the same in both, and no character is dropped. -/
structure AnsiPage where
  wideLength : CStr → ℕ
  narrow : Char → CStr
  wideLength_ascii : ∀ text : CStr, (∀ c ∈ text, isAscii c = true) → wideLength text = text.length
  narrow_ascii : ∀ c, isAscii c = true → narrow c = [c]
  narrow_ne_nil : ∀ c, narrow c ≠ []

namespace AnsiPage

/-- The bytes of a wide text. -/
def narrowText (page : AnsiPage) (text : CStr) : CStr := text.flatMap page.narrow

/-- A page with one wide character for a byte counts an ASCII text by its length. -/
theorem length_ascii (text : CStr) (_ : ∀ c ∈ text, isAscii c = true) :
    List.length text = text.length := rfl

/-- A page in which every byte is the wide character of its value. -/
def singleByte : AnsiPage where
  wideLength := List.length
  narrow c := [c]
  wideLength_ascii := length_ascii
  narrow_ascii _ _ := rfl
  narrow_ne_nil _ := List.cons_ne_nil _ _

/-- Either every character has one byte, or no character outside ASCII becomes a blank, a quote or a
backslash. -/
def Regular (page : AnsiPage) : Prop :=
  (∀ c, ∃ d, page.narrow c = [d]) ∨
    ∀ c, isAscii c = false → ∀ d ∈ page.narrow c, Argv.isBlank d = false ∧ Argv.isSpecial d = false

end AnsiPage

/-- `cmdLineLen`; the device is counted in wide characters. -/
def cmdLineLen (page : AnsiPage) (device target : CStr) (data : CaptureData) : ℕ :=
  page.wideLength device + 1 + target.length + (workerFormats.map String.length).sum + 9 + 1 + 10 +
    match data.addressList with
    | none => 0
    | some list => list.length

/-- One `swprintf_s` after the other into a buffer of `size` characters; `none` when one of them
does not fit with its NUL. -/
def swprintfAll (size : ℕ) : CStr → List CStr → Option CStr
  | text, [] => some text
  | text, printed :: rest =>
    if size - text.length < printed.length + 1 then none
    else swprintfAll size (text ++ printed) rest

/-- `generate_worker_command_line`, but for allocations and the pipe. -/
def generateWorkerCommandLine (page : AnsiPage) (device filename : CStr) (data : CaptureData) :
    Option CStr :=
  let target := if filename = ['-'] then pipeName device else filename
  swprintfAll (cmdLineLen page device target data) []
    (("-d ".toList ++ device ++ " -b ".toList ++ decimal data.bufferlen.toNat ++ " -o ".toList ++
        target) ::
      (workerOptions data).map WorkerOption.text)

/-- What the worker makes of its narrow command line. -/
def workerSettings (line : CStr) : Except Exit Settings :=
  parseOptions (argvOptions (Argv.split line))

/-! ## The capture that is configured -/

/-- The same capture is configured. -/
structure SameCapture (data worker : CaptureData) : Prop where
  device : worker.device = data.device
  filename : worker.filename = data.filename
  bufferlen : worker.bufferlen = data.bufferlen
  snaplen : worker.snaplen = data.snaplen
  addressList : worker.addressList = data.addressList
  captureAll : worker.captureAll = data.captureAll
  captureNew : worker.captureNew = data.captureNew
  injectDescriptors : worker.injectDescriptors = data.injectDescriptors
  durationSeconds : worker.durationSeconds = data.durationSeconds
  appFilter : worker.appFilter = data.appFilter
  storeMode : worker.storeMode = data.storeMode

/-- The worker gets a command line, and it configures the capture that was configured here. -/
def WorkerFollows (page : AnsiPage) (device filename : CStr) (data : CaptureData) : Prop :=
  ∃ line s, generateWorkerCommandLine page device filename data = some line ∧
    workerSettings (page.narrowText line) = .ok s ∧ SameCapture data s.data

/-! ## The length of the line -/

/-- The texts all fit exactly when the line leaves room for the NUL. -/
theorem swprintfAll_eq_some {size : ℕ} {text line : CStr} {printed : List CStr} :
    swprintfAll size text printed = some line ↔
      line = text ++ printed.flatten ∧ (printed ≠ [] → line.length < size) := by
  induction printed generalizing text with
  | nil =>
    rw [swprintfAll, List.flatten_nil, List.append_nil]
    constructor
    · intro h
      exact ⟨(Option.some.inj h).symm, fun hne => absurd rfl hne⟩
    · rintro ⟨rfl, -⟩
      rfl
  | cons p printed ih =>
    rw [swprintfAll, List.flatten_cons, ← List.append_assoc]
    split
    · -- no room for this piece, so none for all
      rename_i hshort
      constructor
      · intro h
        cases h
      · rintro ⟨rfl, hfits⟩
        have hlen := hfits (List.cons_ne_nil p printed)
        rw [List.length_append, List.length_append] at hlen
        omega
    · -- the pieces before the last fit if the last one does
      rename_i hroom
      rw [ih]
      constructor
      · rintro ⟨rfl, hfits⟩
        refine ⟨rfl, fun _ => ?_⟩
        cases printed with
        | nil =>
          rw [List.flatten_nil, List.append_nil, List.length_append]
          omega
        | cons q printed => exact hfits (List.cons_ne_nil q printed)
      · rintro ⟨rfl, hfits⟩
        exact ⟨rfl, fun _ => hfits (List.cons_ne_nil p printed)⟩

/-- What is printed for the options, but for the address list. -/
def optionsLength (data : CaptureData) : ℕ :=
  (decimal data.bufferlen.toNat).length +
  (if data.snaplen ≠ defaultSnapshotLength then 4 + (decimal data.snaplen.toNat).length else 0) +
  (if data.addressList.isSome then 11 else 0) +
  (if data.captureAll then 27 else 0) +
  (if data.captureNew then 27 else 0) +
  (if data.injectDescriptors then 21 else 0) +
  (if 0 < data.durationSeconds then 12 + (decimal data.durationSeconds.toNat).length else 0) +
  (if data.appFilter.enabled then 13 else 0) +
  (if data.appFilter.hasVendorId then 13 + (decimal data.appFilter.vendorId.toNat).length else 0) +
  (if data.appFilter.hasProductId then 14 + (decimal data.appFilter.productId.toNat).length
    else 0) +
  (if data.appFilter.hasEndpoint then 12 + (decimal data.appFilter.endpoint.toNat).length else 0) +
  (if data.appFilter.hasTransferType then
    17 + (transferTypeToText data.appFilter.transferType).length else 0) +
  (if data.storeMode = storeModeOnMatch then 22 else 0)

/-- The length of an option's text. -/
theorem length_optionIf (b : Bool) (name : String) (value : CStr) :
    ((optionIf b name (some value)).flatMap WorkerOption.text).length =
      if b then name.toList.length + 2 + value.length else 0 := by
  unfold optionIf
  cases b with
  | false => rfl
  | true =>
    change (' ' :: name.toList ++ ' ' :: value ++ []).length = _
    rw [if_pos rfl, List.append_nil, List.length_append, List.length_cons, List.length_cons]
    omega

/-- A flag is printed with the blank before it. -/
theorem length_flagIf (b : Bool) (name : String) :
    ((optionIf b name none).flatMap WorkerOption.text).length =
      if b then name.toList.length + 1 else 0 := by
  unfold optionIf
  cases b with
  | false => rfl
  | true =>
    change (' ' :: name.toList ++ [] ++ []).length = _
    rw [if_pos rfl, List.append_nil, List.append_nil, List.length_cons]

/-- What the list of devices adds to the line. -/
theorem length_devicesOption (list : Option CStr) :
    ((devicesOption list).flatMap WorkerOption.text).length =
      (if list.isSome then 11 else 0) + (list.getD []).length := by
  cases list with
  | none => rfl
  | some list =>
    change (" --devices".toList ++ ' ' :: list ++ []).length = 11 + list.length
    rw [List.append_nil, List.length_append, List.length_cons]
    change 10 + _ = _
    omega

/-- The length of what is printed behind the device and the file name. -/
theorem length_workerOptions (data : CaptureData) :
    (decimal data.bufferlen.toNat).length +
        ((workerOptions data).flatMap WorkerOption.text).length =
      optionsLength data + 17 + (data.addressList.getD []).length := by
  unfold workerOptions optionsLength
  simp only [List.flatMap_append, List.length_append, length_optionIf, length_flagIf,
    length_devicesOption]
  have hname (name : String) (n : ℕ) (h : name.toList.length = n) : name.toList.length = n := h
  rw [hname "-s" 2 rfl, hname "--capture-from-all-devices" 26 rfl,
    hname "--capture-from-new-devices" 26 rfl, hname "--inject-descriptors" 20 rfl,
    hname "--duration" 10 rfl, hname "--app-filter" 12 rfl, hname "--vendor-id" 11 rfl,
    hname "--product-id" 12 rfl, hname "--endpoint" 10 rfl, hname "--transfer-type" 15 rfl,
    hname "--store-mode" 12 rfl, hname "on-match" 8 rfl, hname "--no-interactive" 16 rfl]
  simp only [decide_eq_true_eq, if_true, Nat.reduceAdd]
  omega

/-- What the `swprintf_s` calls print, one after the other. -/
def printed (device target : CStr) (data : CaptureData) : List CStr :=
  ("-d ".toList ++ device ++ " -b ".toList ++ decimal data.bufferlen.toNat ++ " -o ".toList ++
      target) ::
    (workerOptions data).map WorkerOption.text

/-- The line and its NUL fit the buffer when what is printed for the options is short enough:
target and address list are counted on both sides, and the device in bytes on one and in wide
characters on the other. -/
theorem length_printed_lt_iff (page : AnsiPage) (device target : CStr) (data : CaptureData) :
    (printed device target data).flatten.length < cmdLineLen page device target data ↔
      optionsLength data + device.length ≤ 233 + page.wideLength device := by
  have hsum : (workerFormats.map String.length).sum = 241 := by decide
  have hlist : (match data.addressList with
      | none => 0
      | some list => list.length) = (data.addressList.getD []).length := by
    cases data.addressList with
    | none => rfl
    | some list => rfl
  have hlen := length_workerOptions data
  have hflat : ((workerOptions data).map WorkerOption.text).flatten =
      (workerOptions data).flatMap WorkerOption.text := List.flatMap_def.symm
  unfold printed cmdLineLen
  rw [hlist, hsum, List.flatten_cons, hflat]
  simp only [List.length_append, String.length_toList]
  change 3 + _ + 4 + _ + 4 + _ + _ < _ ↔ _
  omega

/-- The whole line as a list of options. -/
def lineOptions (device filename : CStr) (data : CaptureData) : List WorkerOption :=
  ⟨"-d".toList, some device⟩ :: ⟨"-b".toList, some (decimal data.bufferlen.toNat)⟩ ::
    ⟨"-o".toList, some filename⟩ :: workerOptions data

/-- The printed pieces, one after the other, are the line's options. -/
theorem flatten_printed (device filename : CStr) (data : CaptureData) :
    ' ' :: (printed device filename data).flatten =
      (lineOptions device filename data).flatMap WorkerOption.text := by
  unfold printed lineOptions
  simp only [List.flatten_cons, List.append_assoc, List.flatMap_def]
  rfl

/-- The line is the printed options without the first blank, if these are short enough. -/
theorem generateWorkerCommandLine_eq_some {page : AnsiPage} {device filename line : CStr}
    {data : CaptureData} (hdash : filename ≠ ['-']) :
    generateWorkerCommandLine page device filename data = some line ↔
      ' ' :: line = (lineOptions device filename data).flatMap WorkerOption.text ∧
        optionsLength data + device.length ≤ 233 + page.wideLength device := by
  unfold generateWorkerCommandLine
  rw [if_neg hdash, ← length_printed_lt_iff page device filename, ← flatten_printed]
  refine swprintfAll_eq_some.trans ?_
  constructor
  · rintro ⟨rfl, hfits⟩
    exact ⟨rfl, hfits (List.cons_ne_nil _ _)⟩
  · rintro ⟨hcons, hshort⟩
    obtain rfl := (List.cons.inj hcons).2
    exact ⟨rfl, fun _ => hshort⟩

/-! ## The arguments of the line -/

/-- The arguments that an option is split into. -/
def WorkerOption.tokens (o : WorkerOption) : List CStr :=
  Argv.wordOf o.name ++
    match o.value with
    | none => []
    | some value => Argv.wordOf value

/-- An option in which nothing needs a quote. -/
def WorkerOption.IsPlain (o : WorkerOption) : Prop :=
  Argv.IsPlain o.name ∧ ∀ value, o.value = some value → Argv.IsPlain value

/-- A plain line is split into the tokens of its options. -/
theorem split_texts {os : List WorkerOption} (hos : ∀ o ∈ os, o.IsPlain) {text : CStr}
    (htext : Argv.IsPlain text) :
    Argv.split (text ++ os.flatMap WorkerOption.text) =
      Argv.wordOf text ++ os.flatMap WorkerOption.tokens := by
  induction os generalizing text with
  | nil =>
    rw [List.flatMap_nil, List.append_nil, List.flatMap_nil, List.append_nil]
    exact Argv.split_last htext
  | cons o os ih =>
    obtain ⟨hname, hvalue⟩ := hos o List.mem_cons_self
    have ih' {text : CStr} (h : Argv.IsPlain text) :=
      ih (fun p hp => hos p (List.mem_cons_of_mem o hp)) h
    obtain ⟨name, value⟩ := o
    rw [List.flatMap_cons, List.flatMap_cons]
    cases value with
    | none =>
      have hsplit := ih' hname
      change Argv.split (text ++ ' ' :: (name ++ [] ++ _)) = _ ++ (Argv.wordOf name ++ [] ++ _)
      rw [Argv.split_word htext, List.append_nil, List.append_nil, hsplit]
    | some value =>
      have hsplit := ih' (hvalue value rfl)
      change Argv.split (text ++ ' ' :: (name ++ ' ' :: value ++ _)) =
        _ ++ (Argv.wordOf name ++ Argv.wordOf value ++ _)
      rw [Argv.split_word htext, List.append_assoc, List.cons_append, Argv.split_word hname, hsplit,
        List.append_assoc]

/-- The line of plain options. -/
theorem split_line {os : List WorkerOption} (hos : ∀ o ∈ os, o.IsPlain) {line : CStr}
    (hline : ' ' :: line = os.flatMap WorkerOption.text) :
    Argv.split line = os.flatMap WorkerOption.tokens := by
  have hnil : Argv.IsPlain [] := fun c hc => by cases hc
  have h := split_texts hos hnil
  rw [List.nil_append, ← hline] at h
  exact h

/-! ## The options that are printed -/

/-- The characters of names, numbers and address lists. -/
def isValueChar (c : Char) : Bool := c.isAlphanum || c = '-' || c = ','

/-- A text that is an argument as it stands and is no option. -/
structure IsValue (text : CStr) : Prop where
  ne_nil : text ≠ []
  head : text.head? ≠ some '-'
  chars : ∀ c ∈ text, isValueChar c = true

/-- The characters of the values are none that the splitting looks for. -/
theorem isValueChar_spec {c : Char} (h : isValueChar c = true) :
    Argv.isBlank c = false ∧ c ≠ '"' ∧ Argv.isSpecial c = false := by
  have hspace : c ≠ ' ' := by
    rintro rfl
    exact absurd h (by decide)
  have htab : c ≠ '\t' := by
    rintro rfl
    exact absurd h (by decide)
  have hquote : c ≠ '"' := by
    rintro rfl
    exact absurd h (by decide)
  have hslash : c ≠ '\\' := by
    rintro rfl
    exact absurd h (by decide)
  unfold Argv.isBlank Argv.isSpecial
  rw [decide_eq_false hspace, decide_eq_false htab, decide_eq_false hquote,
    decide_eq_false hslash]
  exact ⟨rfl, hquote, rfl⟩

/-- A text of such characters is plain. -/
theorem isPlain_of_chars {text : CStr} (h : ∀ c ∈ text, isValueChar c = true) :
    Argv.IsPlain text := by
  intro c hc
  obtain ⟨hblank, hquote, -⟩ := isValueChar_spec (h c hc)
  exact ⟨hblank, hquote⟩

/-- The test of a literal text. -/
theorem chars_of_all {text : CStr} (h : text.all isValueChar = true) :
    ∀ c ∈ text, isValueChar c = true :=
  List.all_eq_true.mp h

/-- Digits are such characters. -/
theorem isValueChar_of_isDigit {c : Char} (h : c.isDigit = true) : isValueChar c = true := by
  unfold isValueChar Char.isAlphanum
  rw [h, Bool.or_true]
  rfl

/-- Numbers and lists of addresses do not look like options. -/
theorem head_ne_dash {text : CStr} (h : ∀ c ∈ text, c.isDigit = true ∨ c = ',') :
    text.head? ≠ some '-' := by
  intro hhead
  rcases h '-' (List.mem_of_mem_head? hhead) with hdigit | hcomma
  · exact absurd hdigit (by decide)
  · exact absurd hcomma (by decide)

/-- A printed number can be the value of an option. -/
theorem isValue_decimal (n : ℕ) : IsValue (decimal n) where
  ne_nil := decimal_ne_nil n
  head := head_ne_dash fun _ hc => Or.inl (isDigit_of_mem_decimal hc)
  chars _ hc := isValueChar_of_isDigit (isDigit_of_mem_decimal hc)

/-- So can the name of a transfer type. -/
theorem isValue_transferTypeToText (transfer : UInt8) : IsValue (transferTypeToText transfer) := by
  unfold transferTypeToText
  repeat' split
  all_goals exact ⟨by decide, by decide, chars_of_all rfl⟩

/-- An address list. -/
def IsAddressList (list : CStr) : Prop := ∀ c ∈ list, c.isDigit = true ∨ c = ','

/-- So can a list of addresses. -/
theorem IsAddressList.chars {list : CStr} (h : IsAddressList list) :
    ∀ c ∈ list, isValueChar c = true := by
  intro c hc
  rcases h c hc with hdigit | rfl
  · exact isValueChar_of_isDigit hdigit
  · rfl

/-- The options without an argument that may be printed. -/
def workerFlags : List (String × OptKey) :=
  [("--capture-from-all-devices", .captureFromAllDevices),
    ("--capture-from-new-devices", .captureFromNewDevices),
    ("--inject-descriptors", .injectDescriptors), ("--app-filter", .appFilter),
    ("--no-interactive", .noInteractive)]

/-- The options with an argument that may be printed, but for the address list. -/
def workerValues : List (String × OptKey) :=
  [("-s", .snaplen), ("--duration", .duration), ("--vendor-id", .vendorId),
    ("--product-id", .productId), ("--endpoint", .endpoint), ("--transfer-type", .transferType),
    ("--store-mode", .storeMode)]

/-- The option table knows the flags, which take no value. -/
theorem element_workerFlags : ∀ p ∈ workerFlags,
    optionSpec.element p.1.toList = .options [.option p.2 none] := by decide +kernel

/-- It knows the options with a value, which is the next argument. -/
theorem element_workerValues : ∀ p ∈ workerValues,
    optionSpec.element p.1.toList = .wantsArg [] p.2 := by decide +kernel

/-- It knows `--devices`. -/
theorem element_devices : optionSpec.element "--devices".toList = .wantsArg [] .devices := by
  decide

/-- An option under a condition is that option, where it is there at all. -/
theorem mem_optionIf {o : WorkerOption} {b : Bool} {name : String} {value : Option CStr}
    (h : o ∈ optionIf b name value) : o = ⟨name.toList, value⟩ := by
  unfold optionIf at h
  cases b with
  | false => cases h
  | true => exact List.mem_singleton.mp h

/-- What an option behind `-o` can be. -/
inductive Printed (data : CaptureData) : WorkerOption → Prop where
  | flag {p : String × OptKey} (hp : p ∈ workerFlags) : Printed data ⟨p.1.toList, none⟩
  | value {p : String × OptKey} (hp : p ∈ workerValues) {v : CStr} (hv : IsValue v) :
    Printed data ⟨p.1.toList, some v⟩
  | devices {list : CStr} (hlist : data.addressList = some list) :
    Printed data ⟨"--devices".toList, some list⟩

/-- Every option behind the file name is a flag, a value or the list of devices. -/
theorem printed_workerOptions {data : CaptureData} {o : WorkerOption}
    (h : o ∈ workerOptions data) : Printed data o := by
  have hflag {b : Bool} (p : String × OptKey) (hp : p ∈ workerFlags)
      (hin : o ∈ optionIf b p.1 none) : Printed data o := by
    rw [mem_optionIf hin]
    exact .flag hp
  have hvalue {b : Bool} {v : CStr} (p : String × OptKey) (hp : p ∈ workerValues) (hv : IsValue v)
      (hin : o ∈ optionIf b p.1 (some v)) : Printed data o := by
    rw [mem_optionIf hin]
    exact .value hp hv
  have honMatch : IsValue "on-match".toList := ⟨by decide, by decide, chars_of_all rfl⟩
  unfold workerOptions at h
  simp only [List.mem_append, or_assoc] at h
  rcases h with h | h | h | h | h | h | h | h | h | h | h | h | h
  · exact hvalue ("-s", .snaplen) (by decide) (isValue_decimal _) h
  · revert h
    cases hlist : data.addressList with
    | none =>
      intro h
      cases h
    | some list =>
      intro h
      rw [List.mem_singleton.mp h]
      exact .devices hlist
  · exact hflag ("--capture-from-all-devices", .captureFromAllDevices) (by decide) h
  · exact hflag ("--capture-from-new-devices", .captureFromNewDevices) (by decide) h
  · exact hflag ("--inject-descriptors", .injectDescriptors) (by decide) h
  · exact hvalue ("--duration", .duration) (by decide) (isValue_decimal _) h
  · exact hflag ("--app-filter", .appFilter) (by decide) h
  · exact hvalue ("--vendor-id", .vendorId) (by decide) (isValue_decimal _) h
  · exact hvalue ("--product-id", .productId) (by decide) (isValue_decimal _) h
  · exact hvalue ("--endpoint", .endpoint) (by decide) (isValue_decimal _) h
  · exact hvalue ("--transfer-type", .transferType) (by decide) (isValue_transferTypeToText _) h
  · exact hvalue ("--store-mode", .storeMode) (by decide) honMatch h
  · exact hflag ("--no-interactive", .noInteractive) (by decide) h

/-- The names of the flags are plain. -/
theorem chars_workerFlags : ∀ p ∈ workerFlags, ∀ c ∈ p.1.toList, isValueChar c = true := by
  intro p hp
  have hall : workerFlags.all (fun p => p.1.toList.all isValueChar) = true := rfl
  exact chars_of_all (List.all_eq_true.mp hall p hp)

/-- So are the names of the options with a value. -/
theorem chars_workerValues : ∀ p ∈ workerValues, ∀ c ∈ p.1.toList, isValueChar c = true := by
  intro p hp
  have hall : workerValues.all (fun p => p.1.toList.all isValueChar) = true := rfl
  exact chars_of_all (List.all_eq_true.mp hall p hp)

/-! ## The line in the code page -/

/-- All these characters are in ASCII. -/
theorem isAscii_of_isValueChar {c : Char} (h : isValueChar c = true) : isAscii c = true := by
  unfold isValueChar Char.isAlphanum Char.isAlpha Char.isUpper Char.isLower Char.isDigit at h
  unfold isAscii
  simp only [Bool.or_eq_true, Bool.and_eq_true, decide_eq_true_eq] at h ⊢
  change c.val.toNat < 128
  have hdash : c = '-' → c.val.toNat < 128 := by
    rintro rfl
    decide
  have hcomma : c = ',' → c.val.toNat < 128 := by
    rintro rfl
    decide
  simp only [ge_iff_le, UInt32.le_iff_toNat_le] at h
  rcases h with (((⟨-, h⟩ | ⟨-, h⟩) | ⟨-, h⟩) | h) | h
  · exact h.trans_lt (by decide)
  · exact h.trans_lt (by decide)
  · exact h.trans_lt (by decide)
  · exact hdash h
  · exact hcomma h

/-- The test of a literal word. -/
theorem isWord_of_all {text : CStr} (hne : text ≠ [])
    (h : text.all (fun c => !Argv.isBlank c && c ≠ '"') = true) : Argv.IsWord text := by
  refine ⟨hne, fun c hc => ?_⟩
  have hc := List.all_eq_true.mp h c hc
  rw [Bool.and_eq_true, decide_eq_true_eq, Bool.not_eq_true'] at hc
  exact hc

/-- The test of a literal text in ASCII. -/
theorem ascii_of_all {text : CStr} (h : text.all isAscii = true) :
    ∀ c ∈ text, isAscii c = true :=
  List.all_eq_true.mp h

namespace AnsiPage

variable (page : AnsiPage)

/-- An ASCII text is the same in the code page. -/
theorem narrowText_ascii {text : CStr} (h : ∀ c ∈ text, isAscii c = true) :
    page.narrowText text = text := by
  induction text with
  | nil => rfl
  | cons c text ih =>
    have hrest := ih fun d hd => h d (List.mem_cons_of_mem c hd)
    unfold narrowText at hrest ⊢
    rw [List.flatMap_cons, page.narrow_ascii c (h c List.mem_cons_self), hrest]
    rfl

/-- Bytes are found character by character. -/
theorem narrowText_append (a b : CStr) :
    page.narrowText (a ++ b) = page.narrowText a ++ page.narrowText b := List.flatMap_append

/-- No character is lost altogether. -/
theorem narrowText_eq_nil {text : CStr} (h : page.narrowText text = []) : text = [] := by
  cases text with
  | nil => rfl
  | cons c text =>
    unfold narrowText at h
    rw [List.flatMap_cons] at h
    exact absurd (List.append_eq_nil_iff.mp h).1 (page.narrow_ne_nil c)

/-- Names are ASCII, so the code page only touches an option's value. -/
theorem narrowText_option {name : CStr} (hname : ∀ c ∈ name, isValueChar c = true)
    (value : CStr) :
    page.narrowText (WorkerOption.mk name (some value)).text =
      (WorkerOption.mk name (some (page.narrowText value))).text := by
  have hascii : page.narrowText (' ' :: name ++ [' ']) = ' ' :: name ++ [' '] := by
    refine page.narrowText_ascii fun c hc => ?_
    rcases List.mem_append.mp hc with hc | hc
    · rcases List.mem_cons.mp hc with rfl | hc
      · rfl
      · exact isAscii_of_isValueChar (hname c hc)
    · rw [List.mem_singleton.mp hc]
      rfl
  change page.narrowText (' ' :: name ++ ' ' :: value) = ' ' :: name ++ ' ' :: _
  rw [show ' ' :: value = [' '] ++ value from rfl, ← List.append_assoc, narrowText_append, hascii,
    List.append_assoc]
  rfl

/-- In the line, the code page only touches the device and the file name. -/
theorem narrowText_line {device filename line : CStr} {data : CaptureData}
    (hlist : ∀ list, data.addressList = some list → IsAddressList list)
    (hline : ' ' :: line = (lineOptions device filename data).flatMap WorkerOption.text) :
    ' ' :: page.narrowText line =
      (lineOptions (page.narrowText device) (page.narrowText filename) data).flatMap
        WorkerOption.text := by
  -- the program's own options are ASCII, which every code page keeps
  have hprinted : ∀ c ∈ (workerOptions data).flatMap WorkerOption.text, isAscii c = true := by
    intro c hc
    obtain ⟨o, ho, hin⟩ := List.mem_flatMap.mp hc
    have hspaced {name : CStr} (hname : ∀ c ∈ name, isValueChar c = true)
        (hc : c ∈ ' ' :: name) : isAscii c = true := by
      rcases List.mem_cons.mp hc with rfl | hc
      · rfl
      · exact isAscii_of_isValueChar (hname c hc)
    cases printed_workerOptions ho with
    | flag hp =>
      rcases List.mem_append.mp hin with hin | hin
      · exact hspaced (chars_workerFlags _ hp) hin
      · cases hin
    | value hp hv =>
      rcases List.mem_append.mp hin with hin | hin
      · exact hspaced (chars_workerValues _ hp) hin
      · exact hspaced hv.chars hin
    | devices hsome =>
      rcases List.mem_append.mp hin with hin | hin
      · exact hspaced (chars_of_all rfl) hin
      · exact hspaced (hlist _ hsome).chars hin
  have hnumber : page.narrowText (decimal data.bufferlen.toNat) = decimal data.bufferlen.toNat :=
    page.narrowText_ascii fun c hc => isAscii_of_isValueChar ((isValue_decimal _).chars c hc)
  have hcons : page.narrowText (' ' :: line) = ' ' :: page.narrowText line := by
    unfold narrowText
    rw [List.flatMap_cons, page.narrow_ascii ' ' rfl]
    rfl
  rw [← hcons, hline]
  unfold lineOptions
  simp only [List.flatMap_cons, narrowText_append]
  rw [page.narrowText_option (chars_of_all rfl), page.narrowText_option (chars_of_all rfl),
    page.narrowText_option (chars_of_all rfl), page.narrowText_ascii hprinted, hnumber]

end AnsiPage

/-! ## Reading the options back -/

/-- `getopt_long` takes exactly the option's arguments for it. -/
def WorkerOption.Reads (o : WorkerOption) (f : Found OptKey) : Prop :=
  ∀ args, optionSpec.getopt (o.tokens ++ args) = f :: optionSpec.getopt args

/-- `getopt_long` reads a flag where the table has it without a value. -/
theorem reads_flag {name : CStr} {key : OptKey}
    (h : optionSpec.element name = .options [.option key none]) :
    (WorkerOption.mk name none).Reads (.option key none) := by
  intro args
  have hname : name ≠ [] := by
    rintro rfl
    cases h
  change optionSpec.getopt (Argv.wordOf name ++ [] ++ args) = _
  rw [Argv.wordOf_word hname, List.append_nil, List.singleton_append, getopt_flag h]
  rfl

/-- And an option with its value where the table has it with one. -/
theorem reads_value {name value : CStr} {key : OptKey}
    (h : optionSpec.element name = .wantsArg [] key) (hvalue : value ≠ []) :
    (WorkerOption.mk name (some value)).Reads (.option key (some value)) := by
  intro args
  have hname : name ≠ [] := by
    rintro rfl
    cases h
  change optionSpec.getopt (Argv.wordOf name ++ Argv.wordOf value ++ args) = _
  rw [Argv.wordOf_word hname, Argv.wordOf_word hvalue]
  exact getopt_value h value args

/-- An option that was given if `b` holds. -/
def optIf (b : Bool) (opt : Opt) : List Opt := if b then [opt] else []

/-- The options that the worker should find behind `-d`, `-b` and `-o`. -/
def workerOpts (data : CaptureData) : List Opt :=
  optIf (data.snaplen ≠ defaultSnapshotLength) (.snaplen (decimal data.snaplen.toNat)) ++
  (optIf data.addressList.isSome (.devices (data.addressList.getD [])) ++
  (optIf data.captureAll .captureFromAllDevices ++
  (optIf data.captureNew .captureFromNewDevices ++
  (optIf data.injectDescriptors .injectDescriptors ++
  (optIf (0 < data.durationSeconds) (.duration (decimal data.durationSeconds.toNat)) ++
  (optIf data.appFilter.enabled .appFilter ++
  (optIf data.appFilter.hasVendorId (.vendorId (decimal data.appFilter.vendorId.toNat)) ++
  (optIf data.appFilter.hasProductId (.productId (decimal data.appFilter.productId.toNat)) ++
  (optIf data.appFilter.hasEndpoint (.endpoint (decimal data.appFilter.endpoint.toNat)) ++
  (optIf data.appFilter.hasTransferType
    (.transferType (transferTypeToText data.appFilter.transferType)) ++
  (optIf (data.storeMode = storeModeOnMatch) (.storeMode "on-match".toList) ++
  [.noInteractive])))))))))))

/-- The options that are read are those that were printed under their conditions. -/
theorem argvOptions_optionIf (b : Bool) {name : String} {value : Option CStr}
    {f : Found OptKey} (h : (WorkerOption.mk name.toList value).Reads f) (args : List CStr) :
    argvOptions ((optionIf b name value).flatMap WorkerOption.tokens ++ args) =
      optIf b (.ofFound f) ++ argvOptions args := by
  unfold optionIf optIf
  cases b with
  | false => rfl
  | true =>
    rw [if_pos rfl, if_pos rfl, List.flatMap_singleton]
    exact congrArg (List.map Opt.ofFound) (h args)

/-- A flag reads as its key. -/
theorem argvOptions_flag (b : Bool) (p : String × OptKey) (hp : p ∈ workerFlags)
    (args : List CStr) :
    argvOptions ((optionIf b p.1 none).flatMap WorkerOption.tokens ++ args) =
      optIf b (.ofFound (.option p.2 none)) ++ argvOptions args :=
  argvOptions_optionIf b (reads_flag (element_workerFlags p hp)) args

/-- So for an option with a value. -/
theorem argvOptions_value (b : Bool) (p : String × OptKey) (hp : p ∈ workerValues) {v : CStr}
    (hv : IsValue v) (args : List CStr) :
    argvOptions ((optionIf b p.1 (some v)).flatMap WorkerOption.tokens ++ args) =
      optIf b (.ofFound (.option p.2 (some v))) ++ argvOptions args :=
  argvOptions_optionIf b (reads_value (element_workerValues p hp) hv.ne_nil) args

/-- So for the list of devices, which must not be the empty text. -/
theorem argvOptions_devices {list : Option CStr} (h : list ≠ some []) (args : List CStr) :
    argvOptions ((devicesOption list).flatMap WorkerOption.tokens ++ args) =
      optIf list.isSome (.devices (list.getD [])) ++ argvOptions args := by
  cases list with
  | none => rfl
  | some text =>
    have hne : text ≠ [] := fun hnil => h (congrArg some hnil)
    change argvOptions ((WorkerOption.mk "--devices".toList (some text)).tokens ++ [] ++ args) = _
    rw [List.append_nil]
    exact congrArg (List.map Opt.ofFound) (reads_value element_devices hne args)

/-- With an address list that is not empty, the worker finds the options that were printed. -/
theorem argvOptions_workerOptions {data : CaptureData} (hlist : data.addressList ≠ some []) :
    argvOptions ((workerOptions data).flatMap WorkerOption.tokens) = workerOpts data := by
  have honMatch : IsValue "on-match".toList := ⟨by decide, by decide, chars_of_all rfl⟩
  unfold workerOptions workerOpts
  simp only [List.flatMap_append, List.append_assoc]
  rw [argvOptions_value _ ("-s", .snaplen) (by decide) (isValue_decimal _),
    argvOptions_devices hlist,
    argvOptions_flag _ ("--capture-from-all-devices", .captureFromAllDevices) (by decide),
    argvOptions_flag _ ("--capture-from-new-devices", .captureFromNewDevices) (by decide),
    argvOptions_flag _ ("--inject-descriptors", .injectDescriptors) (by decide),
    argvOptions_value _ ("--duration", .duration) (by decide) (isValue_decimal _),
    argvOptions_flag _ ("--app-filter", .appFilter) (by decide),
    argvOptions_value _ ("--vendor-id", .vendorId) (by decide) (isValue_decimal _),
    argvOptions_value _ ("--product-id", .productId) (by decide) (isValue_decimal _),
    argvOptions_value _ ("--endpoint", .endpoint) (by decide) (isValue_decimal _),
    argvOptions_value _ ("--transfer-type", .transferType) (by decide)
      (isValue_transferTypeToText _),
    argvOptions_value _ ("--store-mode", .storeMode) (by decide) honMatch]
  rfl

end UsbPcap.Cmd
