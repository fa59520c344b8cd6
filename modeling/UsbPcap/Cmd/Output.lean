import UsbPcap.Cmd.Pending

/-!
# Records in, output out

`View` is the thread's state without the parser's buffer. On views, starting the output, taking the
global header and processing a record are functions of whole byte strings. As long as the
environment succeeds and every write that is due finds a handle (`View.Ready`), the functions of the
thread do what these do, whatever else the buffer holds.
-/

namespace UsbPcap.Cmd

open Format

/-! ## Views -/

/-- The state apart from the parser's buffer. -/
structure View where
  data : ThreadData
  wrotePcapHeader : Bool
  pcapHeader : List UInt8
  output : List UInt8

/-- The view of a state. -/
def State.view (s : State) : View where
  data := s.data
  wrotePcapHeader := s.parser.wrotePcapHeader
  pcapHeader := s.parser.pcapHeader
  output := s.output

/-- The state with another view, after `writes` writes. -/
def State.withView (s : State) (v : View) (writes : ℕ) : State where
  data := v.data
  parser := { s.parser with wrotePcapHeader := v.wrotePcapHeader, pcapHeader := v.pcapHeader }
  output := v.output
  writes := writes

/-- `data` once the output is open. -/
def ThreadData.opened (data : ThreadData) : ThreadData :=
  if data.writeHandle ≠ .invalid then data
  else if data.filename = "-" then { data with writeHandle := .stdout, outputCreated := true }
  else { data with writeHandle := .file, outputCreated := true }

/-- What precedes the records in the output. -/
def preamble (hdr descriptors : List UInt8) : List UInt8 :=
  hdr ++ if injects hdr descriptors then descriptors else []

/-- Append to the output. -/
def View.write (v : View) (bytes : List UInt8) : View := { v with output := v.output ++ bytes }

/-- Open the output and start it with the global header, once. -/
def View.beginOutput (v : View) : View :=
  if v.wrotePcapHeader then v
  else
    { v with
      data := { v.data.opened with triggered := true }
      wrotePcapHeader := true
      output := v.output ++ preamble v.pcapHeader v.data.descriptors.descriptors }

/-- Start the output where `p` asks for it. -/
def View.beginIf (p : Prop) [Decidable p] (v : View) : View := if p then v.beginOutput else v

/-- The global header has arrived. -/
def View.header (v : View) (hdr : List UInt8) : View :=
  View.beginIf (v.data.storeMode = storeModeImmediate) { v with pcapHeader := hdr }

/-- `app_packet_matches` on a complete record. -/
def accepts (data : ThreadData) (r : List UInt8) : Bool :=
  match appPacketMatches data (r.drop sizeofPcaprecHdr) (UInt32.ofNat (inclLen r)) with
  | .ok b => b
  | .error _ => false

/-- The output is due now. -/
def View.due (v : View) : Prop := v.data.storeMode = storeModeImmediate ∨ v.data.triggered = true

instance (v : View) : Decidable v.due := inferInstanceAs (Decidable (_ ∨ _))

/-- Output is due in the immediate mode, and from the first match on. -/
theorem State.due_view (s : State) :
    s.view.due ↔ s.data.storeMode = storeModeImmediate ∨ s.data.triggered = true := Iff.rfl

/-- The first match of on-match storage starts the output. -/
def View.trigger (v : View) : View :=
  v.beginIf (v.data.storeMode = storeModeOnMatch ∧ v.data.triggered = false)

/-- Write a record where the output is due. -/
def View.emit (v : View) (r : List UInt8) : View :=
  if v.due then
    (v.beginIf (v.data.storeMode = storeModeImmediate ∧ v.wrotePcapHeader = false)).write r
  else v

/-- A record that does not match. -/
def View.drop (v : View) : View :=
  { v with data := { v.data with droppedPackets := v.data.droppedPackets + 1 } }

/-- A complete record has arrived. -/
def View.record (v : View) (r : List UInt8) : View :=
  if accepts v.data r then v.trigger.emit r else v.drop

/-- The thread runs, and where the output is not open, nothing is written before
`begin_output_stream` opens it. -/
structure View.Ready (env : Env) (v : View) : Prop where
  process : v.data.process = true
  opens : v.data.writeHandle = .invalid → env.Opens
  handle : v.data.writeHandle = .invalid →
    v.wrotePcapHeader = false ∧ (v.data.storeMode = storeModeImmediate ∨ v.data.triggered = false)

/-! ## Starting the output -/

variable {env : Env}

/-- An opened output has a handle. -/
theorem ThreadData.writeHandle_opened (data : ThreadData) : data.opened.writeHandle ≠ .invalid := by
  unfold ThreadData.opened
  split
  · assumption
  · split
    · exact Handle.noConfusion
    · exact Handle.noConfusion

/-- Opening changes the handle and `output_created` only. -/
theorem ThreadData.opened_eq (data : ThreadData) :
    data.opened = { data with
      writeHandle := data.opened.writeHandle, outputCreated := data.opened.outputCreated } := by
  unfold ThreadData.opened
  split
  · rfl
  · split
    · rfl
    · rfl

/-- Where the output can be opened, it is open afterwards. -/
theorem openOutputHandleIfNeeded_ok {data : ThreadData}
    (ho : data.writeHandle = .invalid → env.Opens) :
    openOutputHandleIfNeeded env data = (true, data.opened) := by
  unfold openOutputHandleIfNeeded ThreadData.opened
  by_cases h : data.writeHandle = .invalid
  · rw [if_neg (not_not.mpr h), if_neg (not_not.mpr h), (ho h).stdout, (ho h).createFile]
    split
    · rfl
    · rfl
  · rw [if_pos h, if_pos h]

/-- On a disk that stores everything, the bytes are appended. -/
theorem writeData_ok (he : env.Stores) {s : State} (hs : s.data.writeHandle ≠ .invalid)
    (buffer : List UInt8) :
    writeData env s buffer = s.withView (s.view.write buffer) (s.writes + 1) := by
  unfold writeData
  dsimp only
  rw [if_neg hs]
  rcases he.writes s.writes buffer.length with h | h
  · rw [h]
    rfl
  · rw [h]
    dsimp only
    rw [if_neg (not_not.mpr rfl), List.take_length]
    rfl

/-- The header goes first, with the injected descriptors behind it. -/
theorem writeHeader_ok (he : env.Stores) {s : State} (hs : s.data.writeHandle ≠ .invalid)
    (hdr : List UInt8) : ∃ n, writeHeader env s hdr =
      s.withView (s.view.write (preamble hdr s.data.descriptors.descriptors)) n := by
  have hwritten := writeData_ok he hs hdr
  have hdesc : (writeData env s hdr).data = s.data := by rw [hwritten]; rfl
  unfold writeHeader preamble
  dsimp only
  rw [hdesc]
  by_cases hinj : injects hdr s.data.descriptors.descriptors
  · rw [if_pos hinj, if_pos hinj, writeData_ok he (by rw [hdesc]; exact hs), hwritten]
    refine ⟨s.writes + 1 + 1, ?_⟩
    unfold View.write
    rw [← List.append_assoc]
    rfl
  · rw [if_neg hinj, if_neg hinj, List.append_nil]
    exact ⟨_, hwritten⟩

/-- `begin_output_stream` starts the output once the header is there. -/
theorem beginOutputStream_ok (he : env.Stores) {s : State}
    (ho : s.data.writeHandle = .invalid → env.Opens) (hhave : s.parser.havePcapHeader = true) :
    ∃ n, beginOutputStream env s = (true, s.withView s.view.beginOutput n) := by
  unfold beginOutputStream View.beginOutput
  rw [hhave, if_neg Bool.true_eq_false.mp, openOutputHandleIfNeeded_ok ho]
  by_cases hw : s.parser.wrotePcapHeader = true
  · rw [if_pos hw, if_pos (show s.view.wrotePcapHeader = true from hw)]
    exact ⟨s.writes, rfl⟩
  · rw [if_neg hw, if_neg (show ¬ s.view.wrotePcapHeader = true from hw)]
    dsimp only
    obtain ⟨n, hn⟩ := writeHeader_ok he (s := { s with data := s.data.opened })
      s.data.writeHandle_opened s.parser.pcapHeader
    refine ⟨n, ?_⟩
    rw [hn]
    have hdesc : s.data.opened.descriptors = s.data.descriptors := by rw [ThreadData.opened_eq]
    unfold State.withView View.write State.view
    dsimp only
    rw [hdesc]

/-! ## The filter reads only the record -/

/-- The filter looks at the bytes of its record only. -/
theorem appPacketMatches_append (data : ThreadData) {header : List UInt8} {bytes : UInt32}
    (h : bytes.toNat ≤ header.length) (ys : List UInt8) :
    appPacketMatches data (header ++ ys) bytes = appPacketMatches data header bytes := by
  unfold appPacketMatches
  dsimp only
  by_cases hshort : bytes.toNat < sizeofBufferPacketHeader
  · rw [if_pos hshort, if_pos hshort]
  · have hlen : 27 ≤ header.length := (Nat.le_of_not_lt hshort).trans h
    have hin : ¬ header.length < sizeofBufferPacketHeader := Nat.not_lt.mpr hlen
    have hin' : ¬ (header ++ ys).length < sizeofBufferPacketHeader := by
      rw [List.length_append]
      omega
    rw [if_neg hshort, if_neg hshort, if_neg hin', if_neg hin]
    have hfield {off w : ℕ} (hw : off + w ≤ 27) : field off w (header ++ ys) = field off w header :=
      field_append (hw.trans hlen) ys
    simp (disch := decide) only [hfield]

/-- And at none that is missing. -/
theorem appPacketMatches_ok (data : ThreadData) {header : List UInt8} {bytes : UInt32}
    (h : bytes.toNat ≤ header.length) : ∃ b, appPacketMatches data header bytes = .ok b := by
  unfold appPacketMatches
  dsimp only
  by_cases hshort : bytes.toNat < sizeofBufferPacketHeader
  · rw [if_pos hshort]
    split
    · exact ⟨_, rfl⟩
    · exact ⟨_, rfl⟩
  · have hin : ¬ header.length < sizeofBufferPacketHeader :=
      Nat.not_lt.mpr ((Nat.le_of_not_lt hshort).trans h)
    rw [if_neg hshort, if_neg hin]
    repeat' split
    all_goals exact ⟨_, rfl⟩

/-- The length field has 32 bits. -/
theorem toNat_inclLen (x : List UInt8) : (UInt32.ofNat (inclLen x)).toNat = inclLen x := by
  rw [UInt32.toNat_ofNat']
  exact Nat.mod_eq_of_lt (field_lt 8 4 x)

/-- On a record in front of other memory, the filter says what it says on the record alone. -/
theorem appPacketMatches_record (data : ThreadData) {r : List UInt8}
    (hr : recordFraming.IsFrame r) (ys : List UInt8) :
    appPacketMatches data ((r ++ ys).drop sizeofPcaprecHdr) (UInt32.ofNat (inclLen (r ++ ys))) =
      .ok (accepts data r) := by
  obtain ⟨hlen, hincl⟩ := isFrame_record.mp hr
  have hsame : inclLen (r ++ ys) = inclLen r := field_append (by omega) ys
  have hbody : (UInt32.ofNat (inclLen r)).toNat ≤ (r.drop sizeofPcaprecHdr).length := by
    rw [toNat_inclLen, List.length_drop, sizeofPcaprecHdr]
    omega
  rw [hsame, List.drop_append_of_le_length (show sizeofPcaprecHdr ≤ r.length from hlen),
    appPacketMatches_append data hbody ys]
  unfold accepts
  obtain ⟨b, hb⟩ := appPacketMatches_ok data hbody
  rw [hb]

/-! ## Processing a record -/

/-- Once output has begun there is a handle. -/
theorem View.writeHandle_beginOutput {v : View} (hv : v.Ready env) :
    v.beginOutput.data.writeHandle ≠ .invalid := by
  unfold View.beginOutput
  split
  · rename_i hw
    intro h
    rw [(hv.handle h).1] at hw
    cases hw
  · exact v.data.writeHandle_opened

/-- Beginning the output keeps the view ready. -/
theorem View.ready_beginOutput {v : View} (hv : v.Ready env) : v.beginOutput.Ready env := by
  have hopen := v.writeHandle_beginOutput hv
  refine ⟨?_, fun h => absurd h hopen, fun h => absurd h hopen⟩
  unfold View.beginOutput
  split
  · exact hv.process
  · change v.data.opened.process = true
    rw [ThreadData.opened_eq]
    exact hv.process

/-- So does beginning it under a condition. -/
theorem View.ready_beginIf (p : Prop) [Decidable p] {v : View} (hv : v.Ready env) :
    (v.beginIf p).Ready env := by
  unfold View.beginIf
  split
  · exact v.ready_beginOutput hv
  · exact hv

/-- So does the header. -/
theorem View.ready_header {v : View} (hv : v.Ready env) (hdr : List UInt8) :
    (v.header hdr).Ready env :=
  View.ready_beginIf (v.data.storeMode = storeModeImmediate) ⟨hv.process, hv.opens, hv.handle⟩

/-- Where a record is due, the output is open once its header is written. -/
theorem View.writeHandle_of_due {v : View} (hv : v.Ready env) (hdue : v.due) :
    (v.beginIf (v.data.storeMode = storeModeImmediate ∧ v.wrotePcapHeader = false)).data.writeHandle
      ≠ .invalid := by
  unfold View.beginIf
  split
  · exact v.writeHandle_beginOutput hv
  · rename_i hno
    intro h
    obtain ⟨hw, himm | htrig⟩ := hv.handle h
    · exact hno ⟨himm, hw⟩
    · rcases hdue with himm | hdue
      · exact hno ⟨himm, hw⟩
      · rw [htrig] at hdue
        cases hdue

/-- So does a record that is written. -/
theorem View.ready_emit {v : View} (hv : v.Ready env) (r : List UInt8) : (v.emit r).Ready env := by
  unfold View.emit
  split
  · have h := v.ready_beginIf (v.data.storeMode = storeModeImmediate ∧ v.wrotePcapHeader = false) hv
    exact ⟨h.process, h.opens, h.handle⟩
  · exact hv

/-- So does a record that is looked at. -/
theorem View.ready_record {v : View} (hv : v.Ready env) (r : List UInt8) :
    (v.record r).Ready env := by
  unfold View.record
  split
  · exact View.ready_emit (v.ready_beginIf _ hv) r
  · exact ⟨hv.process, hv.opens, hv.handle⟩

/-- And any number of them. -/
theorem View.ready_foldl_record {v : View} (hv : v.Ready env) (rs : List (List UInt8)) :
    (rs.foldl View.record v).Ready env := by
  induction rs generalizing v with
  | nil => exact hv
  | cons r rs ih => exact ih (v.ready_record hv r)

/-- The stream begins where the view says so. -/
theorem beginOutputStream_if (he : env.Stores) {s : State}
    (ho : s.data.writeHandle = .invalid → env.Opens) (hhave : s.parser.havePcapHeader = true)
    (p : Prop) [Decidable p] :
    ∃ n, (if p then beginOutputStream env s else (true, s)) =
      (true, s.withView (s.view.beginIf p) n) := by
  unfold View.beginIf
  split
  · exact beginOutputStream_ok he ho hhave
  · exact ⟨s.writes, rfl⟩

/-- A record at the front of the pending bytes is written as it is. -/
theorem writeRecord_ok (he : env.Stores) {s : State} (hv : s.view.Ready env)
    (hhave : s.parser.havePcapHeader = true) {r ys : List UInt8}
    (hpend : s.parser.pending = r ++ ys) {total : UInt32} (htotal : total.toNat = r.length) :
    ∃ n, writeRecord env s total = (true, s.withView (s.view.emit r) n) := by
  unfold writeRecord View.emit
  by_cases hdue : s.view.due
  · obtain ⟨m, hm⟩ := beginOutputStream_if he hv.opens hhave
      (s.data.storeMode = storeModeImmediate ∧ s.parser.wrotePcapHeader = false)
    have hopen := s.view.writeHandle_of_due hv hdue
    rw [if_pos hdue, if_pos (s.due_view.mp hdue), hm]
    dsimp only
    rw [if_neg Bool.true_eq_false.mp, writeData_ok he hopen]
    have htake : s.parser.pending.take total.toNat = r := by
      rw [hpend, htotal, List.take_left]
    refine ⟨m + 1, ?_⟩
    rw [← htake]
    rfl
  · rw [if_neg hdue, if_neg (mt s.due_view.mpr hdue)]
    exact ⟨s.writes, rfl⟩

/-- A complete record in front of the pending bytes is processed as `View.record` says. -/
theorem processRecord_ok (he : env.Stores) {s : State} (hv : s.view.Ready env)
    (hhave : s.parser.havePcapHeader = true) {r ys : List UInt8}
    (hr : recordFraming.IsFrame r) (hpend : s.parser.pending = r ++ ys) {total : UInt32}
    (htotal : total.toNat = r.length) :
    ∃ n, processRecord env s total = .ok (true, s.withView (s.view.record r) n) := by
  unfold processRecord View.record
  rw [hpend, appPacketMatches_record s.data hr, show s.view.data = s.data from rfl]
  cases accepts s.data r with
  | false => exact ⟨s.writes, rfl⟩
  | true =>
    obtain ⟨m, hm⟩ := beginOutputStream_if he hv.opens hhave
      (s.data.storeMode = storeModeOnMatch ∧ s.data.triggered = false)
    obtain ⟨n, hn⟩ := writeRecord_ok he (s := s.withView s.view.trigger m)
      (s.view.ready_beginIf _ hv) hhave hpend htotal
    refine ⟨n, ?_⟩
    dsimp only
    rw [hm]
    dsimp only
    rw [if_neg Bool.true_eq_false.mp, if_pos rfl]
    exact congrArg Except.ok hn

/-! ## What a record does not change -/

/-- What `process_data` reads but never changes. -/
structure Config where
  storeMode : UInt32
  appFilter : AppCaptureFilter
  deviceMetadata : Fin 128 → DeviceMetadata
  descriptors : InjectDescriptors

/-- The configuration in the thread's data. -/
def ThreadData.config (data : ThreadData) : Config where
  storeMode := data.storeMode
  appFilter := data.appFilter
  deviceMetadata := data.deviceMetadata
  descriptors := data.descriptors

/-- Beginning the output changes no setting. -/
theorem View.config_beginOutput (v : View) : v.beginOutput.data.config = v.data.config := by
  unfold View.beginOutput
  split
  · rfl
  · dsimp only
    rw [ThreadData.opened_eq]
    rfl

/-- Neither under a condition. -/
theorem View.config_beginIf (p : Prop) [Decidable p] (v : View) :
    (v.beginIf p).data.config = v.data.config := by
  unfold View.beginIf
  split
  · exact v.config_beginOutput
  · rfl

/-- Neither does the header. -/
theorem View.config_header (v : View) (hdr : List UInt8) :
    (v.header hdr).data.config = v.data.config :=
  View.config_beginIf (v.data.storeMode = storeModeImmediate) { v with pcapHeader := hdr }

/-- Nor a record. -/
theorem View.config_record (v : View) (r : List UInt8) :
    (v.record r).data.config = v.data.config := by
  unfold View.record View.emit
  split
  · split
    · exact (View.config_beginIf _ _).trans (View.config_beginIf _ _)
    · exact View.config_beginIf _ _
  · rfl

/-- Nor many of them. -/
theorem View.config_foldl_record (rs : List (List UInt8)) (v : View) :
    (rs.foldl View.record v).data.config = v.data.config := by
  induction rs generalizing v with
  | nil => rfl
  | cons r rs ih =>
    rw [List.foldl_cons, ih]
    exact v.config_record r

/-- Whether the stream is parsed at all is a question of the settings. -/
theorem passesThrough_congr {d e : ThreadData} (h : d.config = e.config) :
    d.passesThrough ↔ e.passesThrough := by
  have hf : d.appFilter = e.appFilter := congrArg Config.appFilter h
  have hm : d.storeMode = e.storeMode := congrArg Config.storeMode h
  unfold ThreadData.passesThrough
  rw [hf, hm]

/-- The filter looks at the configuration only. -/
theorem accepts_congr {d e : ThreadData} (h : d.config = e.config) : accepts d = accepts e := by
  have hf : d.appFilter = e.appFilter := congrArg Config.appFilter h
  have hm : d.deviceMetadata = e.deviceMetadata := congrArg Config.deviceMetadata h
  funext r
  unfold accepts appPacketMatches
  rw [hf, hm]

end UsbPcap.Cmd
