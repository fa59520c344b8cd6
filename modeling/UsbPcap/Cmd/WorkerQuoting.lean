import UsbPcap.Cmd.WorkerRoundTrip

/-!
# What the worker's command line cannot carry

The texts that the worker's option loop stores are cut out of the line's arguments, so a quote in
the line, which costs a quote or a backslash, would be missing in the device or in the file name.
Without quotes no argument holds a blank. What is left are empty texts, in whose place the next
argument is read.
-/

namespace UsbPcap.Cmd

open CText Getopt

/-! ## Which options set the texts -/

/-- The device that an option names. -/
def Opt.device? : Opt → Option CStr
  | .device arg => some arg
  | _ => none

/-- The file that an option names. -/
def Opt.output? : Opt → Option CStr
  | .output arg => some arg
  | _ => none

/-- The address list that an option holds. -/
def Opt.devices? : Opt → Option CStr
  | .devices arg => some arg
  | _ => none

/-- An option that is accepted sets the texts that it holds and leaves the others. -/
theorem texts_apply {s t : Settings} {opt : Opt} (h : s.apply opt = .ok t) :
    t.data.device = opt.device?.or s.data.device ∧
      t.data.filename = opt.output?.or s.data.filename ∧
      t.data.addressList = opt.devices?.or s.data.addressList := by
  cases opt <;> unfold Settings.apply at h <;> dsimp only at h <;> (repeat' split at h) <;>
    cases h <;> exact ⟨rfl, rfl, rfl⟩

/-- An option that holds a text is found under its key. -/
theorem key?_of_ofFound (f : Found OptKey) :
    ((Opt.ofFound f).device? ≠ none → f.key? = some .device) ∧
      ((Opt.ofFound f).output? ≠ none → f.key? = some .output) ∧
      ((Opt.ofFound f).devices? ≠ none → f.key? = some .devices) := by
  cases f with
  | invalid => exact ⟨fun h => absurd rfl h, fun h => absurd rfl h, fun h => absurd rfl h⟩
  | option key optarg =>
    cases key with
    | device => exact ⟨fun _ => rfl, fun h => absurd rfl h, fun h => absurd rfl h⟩
    | output => exact ⟨fun h => absurd rfl h, fun _ => rfl, fun h => absurd rfl h⟩
    | devices => exact ⟨fun h => absurd rfl h, fun h => absurd rfl h, fun _ => rfl⟩
    | _ => exact ⟨fun h => absurd rfl h, fun h => absurd rfl h, fun h => absurd rfl h⟩

/-- The variable `get` holds the text of the last option found under `key`. -/
structure SetBy (get : Settings → Option CStr) (got : Opt → Option CStr) (key : OptKey) :
    Prop where
  apply : ∀ {s t : Settings} {opt : Opt}, s.apply opt = .ok t → get t = (got opt).or (get s)
  found : ∀ f, got (.ofFound f) ≠ none → f.key? = some key

/-- Only `-d` sets the device. -/
theorem device_setBy : SetBy (fun s => s.data.device) Opt.device? .device where
  apply h := (texts_apply h).1
  found f := (key?_of_ofFound f).1

/-- Only `-o` sets the file name. -/
theorem output_setBy : SetBy (fun s => s.data.filename) Opt.output? .output where
  apply h := (texts_apply h).2.1
  found f := (key?_of_ofFound f).2.1

/-- Only `--devices` sets the list of addresses. -/
theorem devices_setBy : SetBy (fun s => s.data.addressList) Opt.devices? .devices where
  apply h := (texts_apply h).2.2
  found f := (key?_of_ofFound f).2.2

section

variable {get : Settings → Option CStr} {got : Opt → Option CStr} {key : OptKey}
  (hset : SetBy get got key)

include hset

/-- A variable that no option sets. -/
theorem SetBy.unchanged {s t : Settings} {opts : List Opt} (hnone : ∀ opt ∈ opts, got opt = none)
    (h : optionLoop s opts = .ok t) : get t = get s := by
  induction opts generalizing s with
  | nil =>
    cases h
    rfl
  | cons opt opts ih =>
    unfold optionLoop at h
    split at h
    · cases h
    · rename_i u hu
      rw [ih (fun o ho => hnone o (List.mem_cons_of_mem opt ho)) h, hset.apply hu,
        hnone opt List.mem_cons_self, Option.none_or]

/-- The last option that sets the variable decides. -/
theorem SetBy.last {s t : Settings} {before after : List Opt} {opt : Opt} {text : CStr}
    (h : optionLoop s (before ++ opt :: after) = .ok t) (hgot : got opt = some text)
    (hnone : ∀ o ∈ after, got o = none) : get t = some text := by
  induction before generalizing s with
  | nil =>
    rw [List.nil_append] at h
    unfold optionLoop at h
    split at h
    · cases h
    · rename_i u hu
      rw [hset.unchanged hnone h, hset.apply hu, hgot]
      rfl
  | cons o before ih =>
    rw [List.cons_append] at h
    unfold optionLoop at h
    split at h
    · cases h
    · exact ih h

/-- Arguments without the key give no option that sets the variable. -/
theorem SetBy.none_of_keys {args : List CStr}
    (hargs : ∀ arg ∈ args, ∀ k ∈ (optionSpec.element arg).keys, k ≠ key) :
    ∀ opt ∈ argvOptions args, got opt = none := by
  intro opt hopt
  obtain ⟨f, hf, rfl⟩ := List.mem_map.mp hopt
  by_contra hsome
  obtain ⟨arg, harg, hkey⟩ := keys_getopt hf (hset.found f hsome)
  exact hargs arg harg key hkey rfl

end

/-- How many characters of a kind the device and the file name have. -/
def Settings.count (p : Char → Bool) (s : Settings) : ℕ :=
  (s.data.device.getD []).countP p + (s.data.filename.getD []).countP p

/-- The later of two texts has no more of them than both together. -/
theorem countP_or (p : Char → Bool) (a b : Option CStr) :
    ((a.or b).getD []).countP p ≤ (a.getD []).countP p + (b.getD []).countP p := by
  cases a with
  | none =>
    rw [Option.none_or]
    exact Nat.le_add_left _ _
  | some text => exact Nat.le_add_right _ _

/-- What an option holds comes from its argument. -/
theorem countP_ofFound (p : Char → Bool) (f : Found OptKey) :
    ((Opt.ofFound f).device?.getD []).countP p + ((Opt.ofFound f).output?.getD []).countP p ≤
      f.text.countP p := by
  cases f with
  | invalid => exact Nat.le_refl 0
  | option key optarg =>
    have hnone : 0 ≤ (Found.option key optarg).text.countP p := Nat.zero_le _
    cases key with
    | device =>
      cases optarg with
      | none => exact Nat.le_refl 0
      | some arg => exact Nat.le_refl _
    | output =>
      cases optarg with
      | none => exact Nat.le_refl 0
      | some arg =>
        change 0 + arg.countP p ≤ arg.countP p
        rw [Nat.zero_add]
    | _ => exact hnone

/-- The characters of the device and of the file name are among those of the options' arguments. -/
theorem count_optionLoop (p : Char → Bool) {s t : Settings} {found : List (Found OptKey)}
    (h : optionLoop s (found.map Opt.ofFound) = .ok t) :
    t.count p ≤ s.count p + (found.flatMap Found.text).countP p := by
  induction found generalizing s with
  | nil =>
    cases h
    exact Nat.le_add_right _ _
  | cons f found ih =>
    rw [List.map_cons] at h
    unfold optionLoop at h
    split at h
    · cases h
    · rename_i u hu
      have hrest := ih h
      have hopt := countP_ofFound p f
      have hstep : u.count p ≤ s.count p + f.text.countP p := by
        obtain ⟨hdevice, houtput, -⟩ := texts_apply hu
        have hd := countP_or p (Opt.ofFound f).device? s.data.device
        have ho := countP_or p (Opt.ofFound f).output? s.data.filename
        unfold Settings.count
        rw [hdevice, houtput]
        omega
      rw [List.flatMap_cons, List.countP_append]
      omega

/-- What the worker makes of a line, and before the ids go to the filter. -/
theorem workerSettings_ok {line : CStr} {s : Settings} (h : workerSettings line = .ok s) :
    ∃ t, optionLoop .initial (argvOptions (Argv.split line)) = .ok t ∧
      s.data.device = t.data.device ∧ s.data.filename = t.data.filename ∧
      s.data.addressList = t.data.addressList := by
  unfold workerSettings parseOptions at h
  split at h
  · cases h
  · rename_i t ht
    cases h
    exact ⟨t, ht, rfl, rfl, rfl⟩

/-- The characters of the device and of the file name are among those of the line's arguments. -/
theorem count_workerSettings (p : Char → Bool) {line device filename : CStr} {s : Settings}
    (h : workerSettings line = .ok s) (hdevice : s.data.device = some device)
    (hfilename : s.data.filename = some filename) :
    device.countP p + filename.countP p ≤ (Argv.split line).flatten.countP p := by
  obtain ⟨t, ht, hd, hf, -⟩ := workerSettings_ok h
  have hcount := count_optionLoop p ht
  have htexts : ((optionSpec.getopt (Argv.split line)).flatMap Found.text).countP p ≤
      (Argv.split line).flatten.countP p := (texts_getopt _).countP_le
  have hzero : Settings.initial.count p = 0 := rfl
  unfold Settings.count at hcount
  rw [← hd, ← hf, hdevice, hfilename] at hcount
  change device.countP p + filename.countP p ≤ _ at hcount
  unfold Settings.count at hzero
  omega

/-! ## No quotes -/

/-- Quotes and backslashes are in ASCII. -/
theorem isAscii_of_special {c : Char} (h : Argv.isSpecial c = true) : isAscii c = true := by
  unfold Argv.isSpecial at h
  rw [Bool.or_eq_true, decide_eq_true_eq, decide_eq_true_eq] at h
  rcases h with rfl | rfl
  · rfl
  · rfl

/-- So are blanks. -/
theorem isAscii_of_blank {c : Char} (h : Argv.isBlank c = true) : isAscii c = true := by
  unfold Argv.isBlank at h
  rw [Bool.or_eq_true, decide_eq_true_eq, decide_eq_true_eq] at h
  rcases h with rfl | rfl
  · rfl
  · rfl

/-- A character outside ASCII is no mark. -/
theorem mark_of_not_ascii {p : Char → Bool}
    (hp : ∀ c, Argv.isBlank c = false → Argv.isSpecial c = false → p c = false) {c : Char}
    (hc : isAscii c = false) : p c = false := by
  refine hp c ?_ ?_
  · rw [← Bool.not_eq_true]
    intro hblank
    rw [isAscii_of_blank hblank] at hc
    cases hc
  · rw [← Bool.not_eq_true]
    intro hspecial
    rw [isAscii_of_special hspecial] at hc
    cases hc

/-- Where every character has one byte, the marks of a text are at most as many more as its
characters outside ASCII are fewer. -/
theorem countP_narrowText_le {page : AnsiPage} (hone : ∀ c, ∃ d, page.narrow c = [d])
    {p : Char → Bool} (hp : ∀ c, Argv.isBlank c = false → Argv.isSpecial c = false → p c = false)
    (text : CStr) :
    (page.narrowText text).countP p + (page.narrowText text).countP (fun c => !isAscii c) ≤
      text.countP p + text.countP fun c => !isAscii c := by
  unfold AnsiPage.narrowText
  induction text with
  | nil => exact Nat.le_refl _
  | cons c text ih =>
    rw [List.flatMap_cons, List.countP_append, List.countP_append, List.countP_cons,
      List.countP_cons]
    suffices h : (page.narrow c).countP p + (page.narrow c).countP (fun c => !isAscii c) ≤
        (if p c then 1 else 0) + if !isAscii c then 1 else 0 by omega
    cases hc : isAscii c with
    | true =>
      rw [page.narrow_ascii c hc, List.countP_singleton, List.countP_singleton, hc]
    | false =>
      obtain ⟨d, hd⟩ := hone c
      rw [hd, List.countP_singleton, List.countP_singleton]
      cases hd : isAscii d with
      | true =>
        change _ + 0 ≤ _ + 1
        split <;> omega
      | false =>
        rw [mark_of_not_ascii hp hd]
        change 0 + 1 ≤ _ + 1
        omega

/-- Where no character outside ASCII becomes a mark, a text keeps its marks. -/
theorem countP_narrowText_eq {page : AnsiPage}
    (hnone : ∀ c, isAscii c = false → ∀ d ∈ page.narrow c,
      Argv.isBlank d = false ∧ Argv.isSpecial d = false)
    {p : Char → Bool} (hp : ∀ c, Argv.isBlank c = false → Argv.isSpecial c = false → p c = false)
    (text : CStr) : (page.narrowText text).countP p = text.countP p := by
  unfold AnsiPage.narrowText
  induction text with
  | nil => rfl
  | cons c text ih =>
    rw [List.flatMap_cons, List.countP_append, List.countP_cons, ih, Nat.add_comm]
    congr 1
    cases hc : isAscii c with
    | true => rw [page.narrow_ascii c hc, List.countP_singleton]
    | false =>
      rw [mark_of_not_ascii hp hc, List.countP_eq_zero.mpr fun d hd hmark => ?_]
      · rfl
      · rw [hp d (hnone c hc d hd).1 (hnone c hc d hd).2] at hmark
        cases hmark

/-- The characters of the line that no name, number or address list holds are those of the device
and of the file name. -/
theorem countP_line {p : Char → Bool} (hp : ∀ c, isValueChar c = true → p c = false)
    (hspace : p ' ' = false) {device filename line : CStr} {data : CaptureData}
    (hlist : ∀ list, data.addressList = some list → IsAddressList list)
    (hline : ' ' :: line = (lineOptions device filename data).flatMap WorkerOption.text) :
    line.countP p = device.countP p + filename.countP p := by
  have hblank : ¬ p ' ' = true := by
    rw [hspace]
    exact Bool.false_ne_true
  have hchars {text : CStr} (h : ∀ c ∈ text, isValueChar c = true) : text.countP p = 0 := by
    rw [List.countP_eq_zero]
    intro c hc hcount
    rw [hp c (h c hc)] at hcount
    cases hcount
  have hoption {name value : CStr} (hname : ∀ c ∈ name, isValueChar c = true) :
      (WorkerOption.mk name (some value)).text.countP p = value.countP p := by
    change (' ' :: name ++ ' ' :: value).countP p = _
    rw [List.countP_append, List.countP_cons_of_neg hblank, hchars hname,
      List.countP_cons_of_neg hblank, Nat.zero_add]
  -- names and values of all other options are made of plain characters
  have hprinted : ((workerOptions data).flatMap WorkerOption.text).countP p = 0 := by
    rw [List.countP_eq_zero]
    intro c hc hcount
    obtain ⟨o, ho, hin⟩ := List.mem_flatMap.mp hc
    have hzero : o.text.countP p = 0 := by
      cases printed_workerOptions ho with
      | flag hp =>
        change (' ' :: _ ++ []).countP p = 0
        rw [List.append_nil, List.countP_cons_of_neg hblank, hchars (chars_workerFlags _ hp)]
      | value hp hv =>
        rw [hoption (chars_workerValues _ hp), hchars hv.chars]
      | devices hsome =>
        rw [hoption (chars_of_all rfl), hchars (hlist _ hsome).chars]
    exact List.countP_eq_zero.mp hzero c hin hcount
  have hcons : (' ' :: line).countP p = line.countP p := List.countP_cons_of_neg hblank
  rw [← hcons, hline]
  unfold lineOptions
  simp only [List.flatMap_cons, List.countP_append, hprinted]
  rw [hoption (chars_of_all rfl), hoption (chars_of_all rfl), hoption (chars_of_all rfl),
    hchars (isValue_decimal _).chars]
  omega

/-- The device and the file name are in the line. -/
theorem mem_line {device filename line : CStr} {data : CaptureData}
    (hline : ' ' :: line = (lineOptions device filename data).flatMap WorkerOption.text) {c : Char}
    (hc : c ∈ device ∨ c ∈ filename) (hspace : c ≠ ' ') : c ∈ line := by
  have hvalue {name value : CStr} (h : c ∈ value) : c ∈ (WorkerOption.mk name (some value)).text :=
    List.mem_append_right _ (List.mem_cons_of_mem ' ' h)
  have hall : c ∈ (lineOptions device filename data).flatMap WorkerOption.text := by
    unfold lineOptions
    rcases hc with hc | hc
    · exact List.mem_flatMap.mpr ⟨_, List.mem_cons_self, hvalue hc⟩
    · exact List.mem_flatMap.mpr ⟨_, List.mem_cons_of_mem _ (List.mem_cons_of_mem _
        List.mem_cons_self), hvalue hc⟩
  rw [← hline] at hall
  exact (List.mem_cons.mp hall).resolve_left hspace

/-- A worker that stores a device and a file name with at least the marks of those in the line has
found nothing to quote in the line. -/
theorem isPlain_of_stored {device filename stored storedName line : CStr} {data : CaptureData}
    {s : Settings} (hlist : ∀ list, data.addressList = some list → IsAddressList list)
    (hline : ' ' :: line = (lineOptions device filename data).flatMap WorkerOption.text)
    (hs : workerSettings line = .ok s) (hdevice : s.data.device = some stored)
    (hfilename : s.data.filename = some storedName)
    (hmarks : ∀ p, p = Argv.isSpecial ∨ p = Argv.isBlank →
      device.countP p + filename.countP p ≤ stored.countP p + storedName.countP p) :
    Argv.IsPlain device ∧ Argv.IsPlain filename := by
  have hquote : '"' ∉ line := by
    intro hin
    have hlost := Argv.countP_split_lt hin
    have hstored := count_workerSettings Argv.isSpecial hs hdevice hfilename
    have hmore := hmarks _ (Or.inl rfl)
    rw [countP_line (fun c hc => (isValueChar_spec hc).2.2) rfl hlist hline] at hlost
    omega
  have hblank := count_workerSettings Argv.isBlank hs hdevice hfilename
  have hmore := hmarks _ (Or.inr rfl)
  have hnone : (Argv.split line).flatten.countP Argv.isBlank = 0 := by
    rw [List.countP_eq_zero]
    intro c hc hblank
    obtain ⟨arg, harg, hin⟩ := List.mem_flatten.mp hc
    rw [Argv.isBlank_of_mem_split hquote arg harg c hin] at hblank
    cases hblank
  have hplain {text : CStr} (hzero : text.countP Argv.isBlank = 0)
      (hin : ∀ c ∈ text, c ≠ ' ' → c ∈ line) : Argv.IsPlain text := by
    intro c hc
    have hno : Argv.isBlank c = false := Bool.not_eq_true _ ▸ List.countP_eq_zero.mp hzero c hc
    refine ⟨hno, ?_⟩
    rintro rfl
    exact hquote (hin '"' hc (by decide))
  exact ⟨hplain (by omega) fun c hc => mem_line hline (Or.inl hc),
    hplain (by omega) fun c hc => mem_line hline (Or.inr hc)⟩

/-- In a regular code page, a worker that stores the device and the file name has found in the line
no more blanks, quotes and backslashes than they have. -/
theorem marks_le_of_stored {page : AnsiPage} (hpage : page.Regular)
    {device filename line : CStr} {data : CaptureData} {s : Settings}
    (hlist : ∀ list, data.addressList = some list → IsAddressList list)
    (hline : ' ' :: line = (lineOptions (page.narrowText device) (page.narrowText filename)
      data).flatMap WorkerOption.text)
    (hs : workerSettings line = .ok s) (hdevice : s.data.device = some device)
    (hfilename : s.data.filename = some filename) (p : Char → Bool)
    (hp : p = Argv.isSpecial ∨ p = Argv.isBlank) :
    (page.narrowText device).countP p + (page.narrowText filename).countP p ≤
      device.countP p + filename.countP p := by
  have hmark : ∀ c, Argv.isBlank c = false → Argv.isSpecial c = false → p c = false := by
    rintro c hblank hspecial
    rcases hp with rfl | rfl
    · exact hspecial
    · exact hblank
  rcases hpage with hone | hnone
  · -- a character outside ASCII may be lost to a mark, but the stored texts lack none
    have hwide := countP_narrowText_le hone hmark
    have hstored := count_workerSettings (fun c => !isAscii c) hs hdevice hfilename
    have hsplit := Argv.countP_split_le (p := fun c => !isAscii c) (fun c hc => by
      rw [isAscii_of_special hc]
      rfl) line
    rw [countP_line (fun c hc => by rw [isAscii_of_isValueChar hc]; rfl) rfl hlist hline] at hsplit
    have hd := hwide device
    have hf := hwide filename
    omega
  · have hkept := countP_narrowText_eq hnone hmark
    rw [hkept, hkept]

/-! ## No empty texts -/

/-- The keys of an option that holds neither a device nor a file name, nor an address list if there
is none. -/
def NoText (data : CaptureData) (key : OptKey) : Prop :=
  key ≠ .device ∧ key ≠ .output ∧ (data.addressList = none → key ≠ .devices)

/-- None of the other options sets one of the three texts. -/
theorem noText_of_mem {data : CaptureData} {p : String × OptKey}
    (hp : p ∈ workerFlags ++ workerValues) : NoText data p.2 := by
  have hall : ∀ p ∈ workerFlags ++ workerValues,
      p.2 ≠ .device ∧ p.2 ≠ .output ∧ p.2 ≠ .devices := by decide
  obtain ⟨hdevice, houtput, hdevices⟩ := hall p hp
  exact ⟨hdevice, houtput, fun _ => hdevices⟩

/-- The arguments of the options behind `-o` are not empty and hold neither a device nor a file
name, and without an address list no address list. -/
theorem keys_tokens {data : CaptureData}
    (hlist : ∀ list, data.addressList = some list → IsAddressList list) {arg : CStr}
    (harg : arg ∈ (workerOptions data).flatMap WorkerOption.tokens) :
    arg ≠ [] ∧ ∀ key ∈ (optionSpec.element arg).keys, NoText data key := by
  -- each option's text yields one word at most, since it has no blank of its own
  have hword {text : CStr} (hin : arg ∈ Argv.wordOf text)
      (hkeys : ∀ key ∈ (optionSpec.element text).keys, NoText data key) :
      arg ≠ [] ∧ ∀ key ∈ (optionSpec.element arg).keys, NoText data key := by
    unfold Argv.wordOf at hin
    split at hin
    · cases hin
    · rename_i hne
      obtain rfl := List.mem_singleton.mp hin
      exact ⟨hne, hkeys⟩
  -- a value is an operand, which names no option
  have hoperand {text : CStr} (hin : arg ∈ Argv.wordOf text) (hhead : text.head? ≠ some '-') :
      arg ≠ [] ∧ ∀ key ∈ (optionSpec.element arg).keys, NoText data key := by
    refine hword hin fun key hkey => ?_
    rw [element_operand hhead] at hkey
    cases hkey
  obtain ⟨o, ho, hin⟩ := List.mem_flatMap.mp harg
  cases printed_workerOptions ho with
  | @flag p hp =>
    change arg ∈ Argv.wordOf p.1.toList ++ [] at hin
    rw [List.append_nil] at hin
    refine hword hin fun key hkey => ?_
    rw [element_workerFlags p hp] at hkey
    rw [List.mem_singleton.mp hkey]
    exact noText_of_mem (List.mem_append_left _ hp)
  | @value p hp v hv =>
    rcases List.mem_append.mp hin with hname | hvalue
    · refine hword hname fun key hkey => ?_
      rw [element_workerValues p hp] at hkey
      rw [List.mem_singleton.mp hkey]
      exact noText_of_mem (List.mem_append_right _ hp)
    · exact hoperand hvalue hv.head
  | @devices list hsome =>
    rcases List.mem_append.mp hin with hname | hvalue
    · refine hword hname fun key hkey => ?_
      rw [element_devices] at hkey
      rw [List.mem_singleton.mp hkey]
      refine ⟨OptKey.noConfusion, OptKey.noConfusion, fun hnone => ?_⟩
      rw [hsome] at hnone
      cases hnone
    · exact hoperand hvalue (head_ne_dash (hlist _ hsome))

/-- The options behind `-s`, with an address list before them or without. -/
theorem workerOptions_tail (data : CaptureData) : ∃ front tail,
    workerOptions data = front ++ (devicesOption data.addressList ++ tail) ∧
      workerOptions { data with addressList := none } = front ++ tail ∧
      WorkerOption.mk "--no-interactive".toList none ∈ tail ∧
      front = optionIf (data.snaplen ≠ defaultSnapshotLength) "-s"
        (some (decimal data.snaplen.toNat)) := by
  unfold workerOptions
  simp only [List.append_assoc]
  refine ⟨_, _, rfl, rfl, ?_, rfl⟩
  simp only [List.mem_append]
  iterate 10 right
  exact List.mem_singleton_self _

/-- The flag that every line ends with is one argument. -/
theorem tokens_noInteractive :
    (WorkerOption.mk "--no-interactive".toList none).tokens = ["--no-interactive".toList] := rfl

/-- `-o` takes the file name, or in its place the next argument. -/
theorem argvOptions_output {data : CaptureData}
    (hlist : ∀ list, data.addressList = some list → IsAddressList list) (filename : CStr) :
    ∃ text rest, argvOptions ("-o".toList :: (Argv.wordOf filename ++
        (workerOptions data).flatMap WorkerOption.tokens)) = .output text :: argvOptions rest ∧
      text ≠ [] ∧ (∀ arg ∈ rest, arg ∈ (workerOptions data).flatMap WorkerOption.tokens) ∧
      (filename ≠ [] → rest = (workerOptions data).flatMap WorkerOption.tokens) := by
  cases filename with
  | nil =>
    obtain ⟨front, tail, htail, -, hlast, -⟩ := workerOptions_tail data
    have hin : "--no-interactive".toList ∈ (workerOptions data).flatMap WorkerOption.tokens := by
      rw [htail]
      refine List.mem_flatMap.mpr ⟨_, List.mem_append_right _ (List.mem_append_right _ hlast), ?_⟩
      rw [tokens_noInteractive]
      exact List.mem_singleton_self _
    obtain ⟨text, rest, hcons⟩ := List.exists_cons_of_ne_nil (List.ne_nil_of_mem hin)
    have htext : text ∈ (workerOptions data).flatMap WorkerOption.tokens := by
      rw [hcons]
      exact List.mem_cons_self
    refine ⟨text, rest, ?_, (keys_tokens hlist htext).1, fun arg harg => ?_, fun h => absurd rfl h⟩
    · change argvOptions ("-o".toList :: ([] ++ _)) = _
      rw [List.nil_append, hcons, argvOptions_cons element_o]
      rfl
    · rw [hcons]
      exact List.mem_cons_of_mem text harg
  | cons c cs =>
    refine ⟨c :: cs, _, ?_, List.cons_ne_nil c cs, fun arg harg => harg, fun _ => rfl⟩
    rw [Argv.wordOf_word (List.cons_ne_nil c cs), List.singleton_append,
      argvOptions_cons element_o]
    rfl

/-- A worker that stores a device and a file name, empty where those in the line are, has found
arguments for both. -/
theorem ne_nil_of_stored {device filename stored storedName line : CStr} {data : CaptureData}
    {s : Settings} (hdevice : Argv.IsPlain device) (hfilename : Argv.IsPlain filename)
    (hlist : ∀ list, data.addressList = some list → IsAddressList list)
    (hline : ' ' :: line = (lineOptions device filename data).flatMap WorkerOption.text)
    (hs : workerSettings line = .ok s) (hd : s.data.device = some stored)
    (hf : s.data.filename = some storedName) (hdnil : device = [] → stored = [])
    (hfnil : filename = [] → storedName = []) : device ≠ [] ∧ filename ≠ [] := by
  obtain ⟨t, ht, htd, htf, -⟩ := workerSettings_ok hs
  obtain ⟨text, rest, houtput, htext, hrest, -⟩ := argvOptions_output hlist filename
  rw [split_plain hdevice hfilename hlist hline] at ht
  have hkeys : ∀ arg ∈ rest, ∀ k ∈ (optionSpec.element arg).keys, k ≠ .device ∧ k ≠ .output := by
    intro arg harg k hk
    obtain ⟨hnodevice, hnooutput, -⟩ := (keys_tokens hlist (hrest arg harg)).2 k hk
    exact ⟨hnodevice, hnooutput⟩
  have hne : device ≠ [] := by
    rintro rfl
    -- `-d` takes `-b`, whose number is left over
    have hopts : argvOptions ("-d".toList :: (Argv.wordOf [] ++ "-b".toList ::
        decimal data.bufferlen.toNat :: "-o".toList :: (Argv.wordOf filename ++
          (workerOptions data).flatMap WorkerOption.tokens))) =
        [] ++ Opt.device "-b".toList :: .output text :: argvOptions rest := by
      change argvOptions ("-d".toList :: "-b".toList :: decimal data.bufferlen.toNat :: _) = _
      rw [argvOptions_cons element_d]
      unfold argvOptions at houtput ⊢
      rw [getopt_operand (isValue_decimal _).head, houtput]
      rfl
    rw [hopts] at ht
    have hnone : ∀ o ∈ Opt.output text :: argvOptions rest, o.device? = none := by
      intro o ho
      rcases List.mem_cons.mp ho with rfl | ho
      · rfl
      · exact device_setBy.none_of_keys (fun arg harg k hk => (hkeys arg harg k hk).1) o ho
    have hstored := device_setBy.last ht rfl hnone
    rw [← htd, hd, hdnil rfl] at hstored
    cases hstored
  refine ⟨hne, ?_⟩
  have hopts : argvOptions ("-d".toList :: (Argv.wordOf device ++ "-b".toList ::
      decimal data.bufferlen.toNat :: "-o".toList :: (Argv.wordOf filename ++
        (workerOptions data).flatMap WorkerOption.tokens))) =
      [Opt.device device, .bufferlen (decimal data.bufferlen.toNat)] ++
        Opt.output text :: argvOptions rest := by
    rw [Argv.wordOf_word hne, List.singleton_append, argvOptions_cons element_d,
      argvOptions_cons element_b, houtput]
    rfl
  rw [hopts] at ht
  have hstored := output_setBy.last ht rfl
    (output_setBy.none_of_keys fun arg harg k hk => (hkeys arg harg k hk).2)
  rw [← htf, hf] at hstored
  intro hnil
  exact htext ((Option.some.inj hstored).symm.trans (hfnil hnil))

/-- `--devices` with an empty list takes the next argument. -/
theorem list_ne_nil_of_stored {device filename line : CStr} {data : CaptureData} {s : Settings}
    (hdevice : Argv.IsWord device) (hfilename : Argv.IsWord filename)
    (hlist : ∀ list, data.addressList = some list → IsAddressList list)
    (hline : ' ' :: line = (lineOptions device filename data).flatMap WorkerOption.text)
    (hs : workerSettings line = .ok s) (ha : s.data.addressList = data.addressList) :
    data.addressList ≠ some [] := by
  intro hempty
  obtain ⟨t, ht, -, -, hta⟩ := workerSettings_ok hs
  obtain ⟨front, tail, htail, htail', hlast, hfront⟩ := workerOptions_tail data
  have hin : "--no-interactive".toList ∈ tail.flatMap WorkerOption.tokens := by
    refine List.mem_flatMap.mpr ⟨_, hlast, ?_⟩
    rw [tokens_noInteractive]
    exact List.mem_singleton_self _
  obtain ⟨text, rest, hcons⟩ := List.exists_cons_of_ne_nil (List.ne_nil_of_mem hin)
  -- the options behind the list are those of a line without a list
  have hkeys : ∀ arg ∈ text :: rest, arg ≠ [] ∧
      ∀ k ∈ (optionSpec.element arg).keys, k ≠ .devices := by
    intro arg harg
    rw [← hcons] at harg
    have hmem : arg ∈ (workerOptions { data with addressList := none }).flatMap
        WorkerOption.tokens := by
      rw [htail', List.flatMap_append]
      exact List.mem_append_right _ harg
    have hnolist : ∀ list, (none : Option CStr) = some list → IsAddressList list := by
      intro list hsome
      cases hsome
    obtain ⟨hne, hall⟩ := keys_tokens hnolist hmem
    exact ⟨hne, fun k hk => (hall k hk).2.2 rfl⟩
  have hopts : argvOptions (Argv.split line) =
      (.device device :: .bufferlen (decimal data.bufferlen.toNat) :: .output filename ::
        optIf (data.snaplen ≠ defaultSnapshotLength) (.snaplen (decimal data.snaplen.toNat))) ++
        .devices text :: argvOptions rest := by
    rw [split_plain hdevice.2 hfilename.2 hlist hline, Argv.wordOf_word hdevice.1,
      Argv.wordOf_word hfilename.1, List.singleton_append, List.singleton_append,
      argvOptions_cons element_d, argvOptions_cons element_b, argvOptions_cons element_o, htail,
      hfront, hempty, List.flatMap_append,
      argvOptions_value _ ("-s", .snaplen) (by decide) (isValue_decimal _), List.flatMap_append,
      hcons]
    change _ :: _ :: _ :: (_ ++ argvOptions ("--devices".toList :: text :: rest)) = _
    rw [argvOptions_cons element_devices]
    rfl
  rw [hopts] at ht
  have hstored := devices_setBy.last ht rfl
    (devices_setBy.none_of_keys fun arg harg => (hkeys arg (List.mem_cons_of_mem text harg)).2)
  rw [← hta, ha, hempty] at hstored
  exact (hkeys text List.mem_cons_self).1 (Option.some.inj hstored).symm

/-! ## When the worker follows -/

/-- The code page keeps the device and the file name, nothing in the configuration needs a quote, no
text in it is empty, the snapshot length survives `atol`, and what is printed fits the buffer. -/
structure Carried (page : AnsiPage) (device filename : CStr) (data : CaptureData) : Prop where
  deviceKept : page.narrowText device = device
  filenameKept : page.narrowText filename = filename
  length : optionsLength data + device.length ≤ 233 + page.wideLength device
  device : Argv.IsWord device
  filename : Argv.IsWord filename
  addressList : data.addressList ≠ some []
  snaplen : data.snaplen.toNat < 2 ^ 31

/-- With texts in ASCII, the code page does not matter. -/
theorem carried_ascii_iff (page : AnsiPage) {device filename : CStr} {data : CaptureData}
    (hdevice : ∀ c ∈ device, isAscii c = true) (hfilename : ∀ c ∈ filename, isAscii c = true) :
    Carried page device filename data ↔ Argv.IsWord device ∧ Argv.IsWord filename ∧
      data.addressList ≠ some [] ∧ data.snaplen.toNat < 2 ^ 31 ∧ optionsLength data ≤ 233 := by
  have hwide := page.wideLength_ascii device hdevice
  constructor
  · intro h
    have hlength := h.length
    rw [hwide, Nat.add_le_add_iff_right] at hlength
    exact ⟨h.device, h.filename, h.addressList, h.snaplen, hlength⟩
  · rintro ⟨hd, hf, hempty, hsnaplen, hlength⟩
    refine ⟨page.narrowText_ascii hdevice, page.narrowText_ascii hfilename, ?_, hd, hf, hempty,
      hsnaplen⟩
    rw [hwide, Nat.add_le_add_iff_right]
    exact hlength

/-- A line without anything to quote is read back as it was printed. -/
theorem follows_of_carried {page : AnsiPage} {device filename : CStr} {data : CaptureData}
    (hdata : data.Configured) (hdevice : data.device = some device)
    (hfilename : data.filename = some filename) (hdash : filename ≠ ['-'])
    (hlist : ∀ list, data.addressList = some list → IsAddressList list)
    (h : Carried page device filename data) : WorkerFollows page device filename data := by
  obtain ⟨line, hline⟩ : ∃ line : CStr,
      ' ' :: line = (lineOptions device filename data).flatMap WorkerOption.text := ⟨_, rfl⟩
  have hnarrow := page.narrowText_line hlist hline
  rw [h.deviceKept, h.filenameKept] at hnarrow
  have hsettings :=
    workerSettings_words hdata h.device h.filename hlist h.addressList hnarrow
  exact ⟨line, _, (generateWorkerCommandLine_eq_some hdash).mpr ⟨hline, h.length⟩, hsettings,
    sameCapture_workerLoopEnd hdata hdevice hfilename ((readBack_eq_iff _).mpr h.snaplen)⟩

/-- What is read back unchanged had nothing to quote and no empty text. -/
theorem carried_of_follows {page : AnsiPage} (hpage : page.Regular) {device filename : CStr}
    {data : CaptureData} (hdata : data.Configured) (hdevice : data.device = some device)
    (hfilename : data.filename = some filename) (hdash : filename ≠ ['-'])
    (hlist : ∀ list, data.addressList = some list → IsAddressList list)
    (h : WorkerFollows page device filename data) : Carried page device filename data := by
  obtain ⟨line, s, hgenerate, hs, hsame⟩ := h
  obtain ⟨hline, hlength⟩ := (generateWorkerCommandLine_eq_some hdash).mp hgenerate
  have hnarrow := page.narrowText_line hlist hline
  have hd := hsame.device.trans hdevice
  have hf := hsame.filename.trans hfilename
  obtain ⟨hdplain, hfplain⟩ := isPlain_of_stored hlist hnarrow hs hd hf
    (marks_le_of_stored hpage hlist hnarrow hs hd hf)
  obtain ⟨hdne, hfne⟩ := ne_nil_of_stored hdplain hfplain hlist hnarrow hs hd hf
    page.narrowText_eq_nil page.narrowText_eq_nil
  have hempty := list_ne_nil_of_stored ⟨hdne, hdplain⟩ ⟨hfne, hfplain⟩ hlist hnarrow hs
    hsame.addressList
  have hsettings :=
    workerSettings_words hdata ⟨hdne, hdplain⟩ ⟨hfne, hfplain⟩ hlist hempty hnarrow
  -- so what the worker stores is what the code page has made of the texts
  obtain rfl := Except.ok.inj (hs.symm.trans hsettings)
  have hdkept : page.narrowText device = device := Option.some.inj hd
  have hfkept : page.narrowText filename = filename := Option.some.inj hf
  rw [hdkept] at hdplain hdne
  rw [hfkept] at hfplain hfne
  exact ⟨hdkept, hfkept, hlength, ⟨hdne, hdplain⟩, ⟨hfne, hfplain⟩, hempty,
    (readBack_eq_iff _).mp hsame.snaplen⟩

/-- A worker whose configuration can be carried by a command line configures the capture that was
configured here, and in a regular code page no other worker does. -/
theorem worker_follows_iff (page : AnsiPage) {opts : List Opt} {s : Settings}
    {device filename : CStr} (hparse : parseOptions opts = .ok s)
    (hdevice : s.data.device = some device) (hfilename : s.data.filename = some filename)
    (hdash : filename ≠ ['-'])
    (hlist : ∀ list, s.data.addressList = some list → IsAddressList list) :
    (Carried page device filename s.data → WorkerFollows page device filename s.data) ∧
      (page.Regular →
        (WorkerFollows page device filename s.data ↔ Carried page device filename s.data)) := by
  have hdata := configured_parseOptions hparse
  have hfollows : Carried page device filename s.data → WorkerFollows page device filename s.data :=
    follows_of_carried hdata hdevice hfilename hdash hlist
  exact ⟨hfollows, fun hpage =>
    ⟨carried_of_follows hpage hdata hdevice hfilename hdash hlist, hfollows⟩⟩

/-- A character of a code page of ASCII alone, which has a question mark for every other one. -/
def asciiOrMark (c : Char) : CStr := bif isAscii c then [c] else ['?']

/-- It leaves ASCII alone. -/
theorem asciiOrMark_ascii (c : Char) (h : isAscii c = true) : asciiOrMark c = [c] := by
  rw [asciiOrMark, h, cond_true]

/-- It drops no character. -/
theorem asciiOrMark_ne_nil (c : Char) : asciiOrMark c ≠ [] := by
  unfold asciiOrMark
  cases isAscii c <;> exact List.cons_ne_nil _ _

/-- That code page. -/
def questionMarks : AnsiPage where
  wideLength := List.length
  narrow := asciiOrMark
  wideLength_ascii := AnsiPage.length_ascii
  narrow_ascii := asciiOrMark_ascii
  narrow_ne_nil := asciiOrMark_ne_nil

/-- A question mark is neither a blank nor a quote. -/
theorem regular_questionMarks : questionMarks.Regular := by
  refine Or.inl fun c => ?_
  change ∃ d, asciiOrMark c = [d]
  unfold asciiOrMark
  cases isAscii c with
  | true => exact ⟨c, rfl⟩
  | false => exact ⟨'?', rfl⟩

/-- In such a page the bytes of a file name in another script are lost, though nothing in it needs a
quote. -/
example : Argv.IsWord "²¶»ñ.pcap".toList ∧
    questionMarks.narrowText "²¶»ñ.pcap".toList = "????.pcap".toList :=
  ⟨isWord_of_all (List.cons_ne_nil _ _) rfl, rfl⟩

/-- A capture of 128 bytes a packet from two devices into a file in the current directory. -/
def twoDevices : List Opt :=
  [.device "\\\\.\\USBPcap1".toList, .output "usb.pcap".toList, .devices "1,2".toList,
    .snaplen "128".toList]

/-- The worker captures from both devices into that file. -/
theorem worker_follows_iff_twoDevices : ∃ s, parseOptions twoDevices = .ok s ∧
    WorkerFollows questionMarks "\\\\.\\USBPcap1".toList "usb.pcap".toList s.data ∧
    (WorkerFollows questionMarks "\\\\.\\USBPcap1".toList "usb.pcap".toList s.data ↔
      Carried questionMarks "\\\\.\\USBPcap1".toList "usb.pcap".toList s.data) := by
  obtain ⟨s, hparse, hdevice, hfilename, hdevices, hsnaplen⟩ :
      ∃ s, parseOptions twoDevices = .ok s ∧
        s.data.device = some "\\\\.\\USBPcap1".toList ∧
        s.data.filename = some "usb.pcap".toList ∧ s.data.addressList = some "1,2".toList ∧
        (s.data.snaplen.toNat < 2 ^ 31 ∧ optionsLength s.data ≤ 233) :=
    ⟨_, rfl, rfl, rfl, rfl, by decide⟩
  have hall : ("1,2".toList).all (fun c => c.isDigit || c = ',') = true := rfl
  obtain ⟨hfollows, hiff⟩ := worker_follows_iff questionMarks hparse hdevice hfilename (by decide)
    fun list hsome c hc => by
      obtain rfl := Option.some.inj (hdevices.symm.trans hsome)
      simpa using List.all_eq_true.mp hall c hc
  refine ⟨s, hparse, hfollows ?_, hiff regular_questionMarks⟩
  refine (carried_ascii_iff questionMarks (ascii_of_all rfl) (ascii_of_all rfl)).mpr
    ⟨isWord_of_all (List.cons_ne_nil _ _) rfl, isWord_of_all (List.cons_ne_nil _ _) rfl, ?_,
      hsnaplen⟩
  rw [hdevices]
  decide

/-- A file name with a blank is cut at the blank, in every code page. -/
theorem file_name_cut :
    ¬ ∃ page : AnsiPage, ∀ (opts : List Opt) (s : Settings) (device filename : CStr),
      parseOptions opts = .ok s → s.data.device = some device → ' ' ∉ device →
      s.data.filename = some filename → filename ≠ ['-'] →
      (∀ list, s.data.addressList = some list → IsAddressList list) →
      WorkerFollows page device filename s.data := by
  rintro ⟨page, h⟩
  obtain ⟨line, s, hline, hs, hsame⟩ := h
    [.device "\\\\.\\USBPcap1".toList, .output "C:\\My captures\\usb.pcap".toList,
      .captureFromAllDevices] _ _ _ rfl rfl (by decide) rfl (by decide)
    fun list hsome => by cases hsome
  have hwide : page.wideLength "\\\\.\\USBPcap1".toList = 12 :=
    page.wideLength_ascii _ (ascii_of_all rfl)
  have hprinted : line = ("-d \\\\.\\USBPcap1 -b 1048576 -o C:\\My captures\\usb.pcap " ++
      "--capture-from-all-devices --no-interactive").toList := by
    refine Option.some.inj (hline.symm.trans ?_)
    unfold generateWorkerCommandLine cmdLineLen
    rw [hwide]
    decide +kernel
  have hnarrow : page.narrowText line = line :=
    page.narrowText_ascii (ascii_of_all (by rw [hprinted]; decide +kernel))
  have hread : (workerSettings line).toOption.bind (fun s => s.data.filename) =
      some "C:\\My".toList := by
    rw [hprinted]
    decide +kernel
  rw [hnarrow] at hs
  rw [hs] at hread
  have hcut : some "C:\\My captures\\usb.pcap".toList = some "C:\\My".toList :=
    hsame.filename.symm.trans hread
  exact absurd hcut (by decide)

end UsbPcap.Cmd
