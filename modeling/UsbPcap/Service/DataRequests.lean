import UsbPcap.Reader.Captures
import UsbPcap.Service.Denotation

/-!
# Requests about captures

`handleAnalyze` reads a capture for a request. It hands `Analyze` the address of a variable that is
0 where the request has no device address, and an integer narrowed to 16 bits where it has one.
`analyze_means_iff` says for which captures the response is the one that was asked for.
-/

namespace UsbPcap.Service

open Pcap
open Server (trimSpace)

/-! ## Data -/

/-- The fields of `ipc.Request` that a capture or a request about one reads. -/
structure DataRequest extends IpcRequest where
  taskID : String := ""
  pcapPath : String := ""
  deviceAddress : Option ℤ := none
  minDataLen : UInt32 := 0
  format : String := ""

/-- `normalizeRequest` -/
def DataRequest.normalize (req : DataRequest) : DataRequest :=
  { req with toIpcRequest := normalizeRequest req.toIpcRequest }

/-- What a request about a capture meets: the task store, the capture directory, the files, the
order of Go's maps and `filepath.Base`. Of the directory `exports` it is given where a file of some
name is put, and whether it could be made. -/
structure FileSurroundings where
  taskByID : String → Option CaptureTask
  safePcapPath : String → Except String String
  readFile : String → Except String (List UInt8)
  order : RangeOrder
  base : String → String
  exportPath : String → String
  mkdirExports : Bool

/-! ## `handleAnalyze` -/

/-- The response to an analysis. -/
structure AnalyzeResponse where
  message : String
  pcapPath : String
  analyzeResult : AnalyzeResult
deriving DecidableEq

/-- The path of the capture: of the task where the request gives only that. -/
def requestedPath (env : FileSurroundings) (req : DataRequest) : Except Refusal String :=
  if trimSpace req.pcapPath = "" ∧ trimSpace req.taskID ≠ "" then
    match env.taskByID req.taskID with
    | none => .error (errorResponse "task_not_found" "TASK_NOT_FOUND" "capture task not found"
        "Use listCaptureTasks to inspect recent history.")
    | some task => .ok task.outputPath
  else .ok req.pcapPath

/-- `safePcapPath`, with its refusal. -/
def admitPath (env : FileSurroundings) (pcapPath : String) : Except Refusal String :=
  match env.safePcapPath pcapPath with
  | .error err => .error (errorResponse "invalid_path" "INVALID_PCAP_PATH" err
      "Specify a valid .pcap path within the capture directory.")
  | .ok safePath => .ok safePath

/-- `handleAnalyze`, up to the path of the file that it analyses. -/
def analyzePath (env : FileSurroundings) (req : DataRequest) : Except Refusal String :=
  match requestedPath env req with
  | .error refusal => .error refusal
  | .ok pcapPath =>
    if pcapPath = "" then
      .error (errorResponse "invalid_request" "PCAP_PATH_REQUIRED" "pcapPath is required"
        "Pass the pcap file path or a taskId from a completed capture.")
    else admitPath env pcapPath

/-- The refusal of a file that cannot be analysed. -/
def analyzeFailed (err : String) : Refusal :=
  errorResponse "analyze_failed" "ANALYZE_FAILED" err
    "Verify the pcap file exists and is a valid USBPcap capture."

/-- The response to an analysis of the file at `safePath` that is `run` on its contents. -/
def analysisResponse (env : FileSurroundings) (safePath : String)
    (run : List UInt8 → Except ReadError AnalyzeResult) : Except Refusal AnalyzeResponse :=
  match env.readFile safePath with
  | .error err => .error (analyzeFailed err)
  | .ok contents =>
    match run contents with
    | .error err => .error (analyzeFailed err.message)
    | .ok result => .ok
      { message := "Analyzed " ++ toString result.endpoints.length ++ " endpoints from " ++
          env.base safePath
        pcapPath := safePath
        analyzeResult := result }

/-- `addr` of `handleAnalyze` -/
def DataRequest.addr (req : DataRequest) : UInt16 :=
  match req.deviceAddress with
  | some a => if 0 < a then .ofInt a else 0
  | none => 0

/-- `handleAnalyze` -/
def handleAnalyze (env : FileSurroundings) (req : DataRequest) : Except Refusal AnalyzeResponse :=
  match analyzePath env req with
  | .error refusal => .error refusal
  | .ok safePath => analysisResponse env safePath fun contents =>
      analyze env.order safePath contents (some req.addr)

/-! ## Analysing some of the records -/

/-- The loop body of an analysis of the records with a property. -/
def analyzeBodyOn (keep : Record → Bool) (s : AnalyzeState) (rec : Record) : AnalyzeState where
  toAnalyzeTables := if keep rec then s.toAnalyzeTables.count rec else s.toAnalyzeTables
  span := s.span.see rec.tsMillis
  totalPackets := s.totalPackets + 1

/-- The analysis of the records with a property, for a file with these contents. -/
def analyzeOn (order : RangeOrder) (path : String) (contents : List UInt8)
    (keep : Record → Bool) : Except ReadError AnalyzeResult :=
  match openReader contents with
  | .error err => .error err
  | .ok r =>
    match r.forEach (fun s rec => .yield (analyzeBodyOn keep s rec)) {} with
    | .error err => .error err
    | .ok s => .ok (s.result order path)

/-- `Analyze` is the analysis of the records that it counts. -/
theorem analyze_eq_analyzeOn (order : RangeOrder) (path : String) (contents : List UInt8)
    (deviceAddr : Option UInt16) :
    analyze order path contents deviceAddr = analyzeOn order path contents (Counted deviceAddr) :=
  rfl

section

variable {order : RangeOrder} {path : String} {contents : List UInt8} {keep keep' : Record → Bool}

theorem tables_foldl_analyzeBodyOn (recs : List Record) (s : AnalyzeState) :
    (recs.foldl (analyzeBodyOn keep) s).toAnalyzeTables =
      (recs.filter keep).foldl AnalyzeTables.count s.toAnalyzeTables := by
  induction recs generalizing s with
  | nil => rfl
  | cons rec recs ih =>
    rw [List.foldl_cons, ih, List.filter_cons, analyzeBodyOn]
    split <;> rfl

/-- An accepted file is analysed record by record. -/
theorem analyzeOn_of_accepted (h : Accepted contents) (keep : Record → Bool) :
    analyzeOn order path contents keep =
      .ok (((fileRecords contents).foldl (analyzeBodyOn keep) {}).result order path) := by
  obtain ⟨r, hr, heof⟩ := h
  rw [analyzeOn, fileRecords_of_ok hr, hr]
  dsimp only
  rw [Reader.forEach_yield, if_pos heof]

/-- Why a file is not accepted does not depend on the records that count. -/
theorem analyzeOn_of_not_accepted (h : ¬ Accepted contents) :
    ∃ err, ∀ keep, analyzeOn order path contents keep = .error err := by
  cases hr : openReader contents with
  | error err =>
    refine ⟨err, fun keep => ?_⟩
    rw [analyzeOn, hr]
  | ok r =>
    refine ⟨r.readAll.2, fun keep => ?_⟩
    rw [analyzeOn, hr]
    dsimp only
    rw [Reader.forEach_yield, if_neg fun heof => h ⟨r, hr, heof⟩]

/-- The packets of all lines of an analysis are the records that count. -/
theorem sum_packetCount_analyzeOn (recs : List Record) (keep : Record → Bool) :
    (((recs.foldl (analyzeBodyOn keep) {}).result order path).endpoints.map
      (·.packetCount)).sum = (recs.filter keep).length :=
  (AnalyzeState.result_balanced order path
    (tables_foldl_analyzeBodyOn recs {}).symm).endpoint_packets

/-- Two analyses of a file agree exactly when the same of its records count. -/
theorem result_eq_iff (hsub : ∀ rec, keep rec = true → keep' rec = true) (recs : List Record) :
    (recs.foldl (analyzeBodyOn keep) {}).result order path =
        (recs.foldl (analyzeBodyOn keep') {}).result order path ↔
      ∀ rec ∈ recs, keep rec = keep' rec := by
  constructor
  · intro heq rec hrec
    have hlength := congrArg (fun a => (a.endpoints.map (·.packetCount)).sum) heq
    rw [sum_packetCount_analyzeOn, sum_packetCount_analyzeOn] at hlength
    have hfilter := (List.monotone_filter_right recs hsub).eq_of_length hlength
    refine Bool.eq_iff_iff.mpr ⟨hsub rec, fun hkeep' => ?_⟩
    have hmem := List.mem_filter.mpr ⟨hrec, hkeep'⟩
    rw [← hfilter] at hmem
    exact (List.mem_filter.mp hmem).2
  · intro h
    have hfold : ∀ (recs : List Record) (s : AnalyzeState),
        (∀ rec ∈ recs, keep rec = keep' rec) →
        recs.foldl (analyzeBodyOn keep) s = recs.foldl (analyzeBodyOn keep') s := by
      intro recs
      induction recs with
      | nil => exact fun _ _ => rfl
      | cons rec recs ih =>
        intro s h
        obtain ⟨hrec, hrecs⟩ := List.forall_mem_cons.mp h
        have hbody : analyzeBodyOn keep s rec = analyzeBodyOn keep' s rec := by
          rw [analyzeBodyOn, analyzeBodyOn, hrec]
        rw [List.foldl_cons, List.foldl_cons, hbody]
        exact ih _ hrecs
    rw [hfold recs {} h]

/-- Two analyses of a file have the same response exactly when the file is not accepted or the same
of its records count. -/
theorem analysisResponse_eq_iff {env : FileSurroundings} {safePath : String}
    (hread : env.readFile safePath = .ok contents)
    (hsub : ∀ rec, keep rec = true → keep' rec = true) :
    analysisResponse env safePath (fun c => analyzeOn env.order safePath c keep) =
        analysisResponse env safePath (fun c => analyzeOn env.order safePath c keep') ↔
      (Accepted contents → ∀ rec ∈ fileRecords contents, keep rec = keep' rec) := by
  rw [analysisResponse, analysisResponse, hread]
  dsimp only
  by_cases hacc : Accepted contents
  · rw [analyzeOn_of_accepted hacc, analyzeOn_of_accepted hacc,
      ← @result_eq_iff env.order safePath _ _ hsub (fileRecords contents)]
    dsimp only
    constructor
    · intro heq _
      exact congrArg AnalyzeResponse.analyzeResult (Except.ok.inj heq)
    · intro heq
      rw [heq hacc]
  · obtain ⟨err, herr⟩ := @analyzeOn_of_not_accepted env.order safePath _ hacc
    rw [herr, herr]
    exact iff_of_true rfl fun h => absurd h hacc

end

/-! ## What the request means -/

/-- The records of the device with address `a`. -/
def OfDevice (a : ℤ) (rec : Record) : Bool := rec.headerLen ≠ 0 && (rec.device.toNat : ℤ) = a

/-- The analysis that a request means: of all devices without an address, and of the device with the
address otherwise. -/
def DataRequest.meant (req : DataRequest) (order : RangeOrder) (path : String)
    (contents : List UInt8) : Except ReadError AnalyzeResult :=
  match req.deviceAddress with
  | none => analyze order path contents none
  | some a => analyzeOn order path contents (OfDevice a)

/-- Without an address the records are all of device 0; with one, it has 16 bits or no record is of
the device with its lowest 16 bits. -/
def DataRequest.Addresses (req : DataRequest) (recs : List Record) : Prop :=
  ∀ rec ∈ recs, rec.headerLen ≠ 0 →
    match req.deviceAddress with
    | none => rec.device = 0
    | some a => a < 65536 ∨ rec.device ≠ .ofInt a

theorem eq_ofInt_iff (device : UInt16) (a : ℤ) :
    device = .ofInt a ↔ (device.toNat : ℤ) = a % 65536 := by
  have hnat : ((UInt16.ofInt a).toNat : ℤ) = a % 65536 := by
    have hlt : (a % 2 ^ 16).toNat < 2 ^ 16 := by omega
    rw [UInt16.ofInt, UInt16.toNat_ofNat_of_lt' hlt]
    omega
  rw [← UInt16.toNat_inj, ← hnat, Nat.cast_inj]

/-- A record of the device with the address also passes the narrowed filter. -/
theorem counted_of_ofDevice {a : ℤ} (rec : Record) (h : OfDevice a rec = true) :
    Counted (some (.ofInt a)) rec = true := by
  rw [OfDevice, Bool.and_eq_true, decide_eq_true_iff, decide_eq_true_iff] at h
  have hdevice : rec.device = .ofInt a := by
    have hlt := rec.device.toNat_lt
    rw [eq_ofInt_iff, h.2]
    omega
  rw [Counted, Option.all_some, Bool.and_eq_true, decide_eq_true_iff, decide_eq_true_iff]
  exact ⟨h.1, hdevice⟩

/-- What narrowing does to the filter of a device. -/
theorem ofDevice_eq_counted_iff (a : ℤ) (rec : Record) :
    OfDevice a rec = Counted (some (.ofInt a)) rec ↔
      (rec.headerLen ≠ 0 → (0 ≤ a ∧ a < 65536) ∨ rec.device ≠ .ofInt a) := by
  have hlt := rec.device.toNat_lt
  rw [OfDevice, Counted, Option.all_some, Bool.eq_iff_iff, Bool.and_eq_true, Bool.and_eq_true,
    decide_eq_true_iff, decide_eq_true_iff, decide_eq_true_iff, ne_eq, ne_eq, eq_ofInt_iff]
  constructor
  · intro h hheader
    by_cases hdevice : (rec.device.toNat : ℤ) = a % 65536
    · have ha := (h.mpr ⟨hheader, hdevice⟩).2
      exact Or.inl ⟨by omega, by omega⟩
    · exact Or.inr hdevice
  · intro h
    refine and_congr_right fun hheader => ?_
    rcases h hheader with hrange | hdevice
    · omega
    · omega

theorem counted_none_of_counted {device : UInt16} {rec : Record}
    (h : Counted (some device) rec = true) : Counted none rec = true := by
  rw [Counted, Bool.and_eq_true] at h
  rw [Counted, Option.all_none, Bool.and_true]
  exact h.1

section

variable {env : FileSurroundings} {req : DataRequest} {safePath : String} {contents : List UInt8}

/-- Without a device address, the filter is for device 0 and not absent. -/
theorem handleAnalyze_none_iff (haddr : req.deviceAddress = none)
    (hpath : analyzePath env req = .ok safePath) (hread : env.readFile safePath = .ok contents) :
    handleAnalyze env req =
        analysisResponse env safePath (fun c => analyze env.order safePath c none) ↔
      (Accepted contents → ∀ rec ∈ fileRecords contents, rec.headerLen ≠ 0 → rec.device = 0) := by
  have haddress : req.addr = 0 := by
    rw [DataRequest.addr, haddr]
  rw [handleAnalyze, hpath, haddress]
  simp only [analyze_eq_analyzeOn]
  rw [analysisResponse_eq_iff hread fun _ => counted_none_of_counted]
  refine imp_congr_right fun _ => forall₂_congr fun rec _ => ?_
  rw [Counted, Counted, Option.all_some, Option.all_none, Bool.and_true, Bool.eq_iff_iff,
    Bool.and_eq_true, decide_eq_true_iff, decide_eq_true_iff, and_iff_left_iff_imp]

/-- With a positive address, the filter is for its lowest 16 bits. -/
theorem handleAnalyze_some_iff {a : ℤ} (haddr : req.deviceAddress = some a) (ha : 0 < a)
    (hpath : analyzePath env req = .ok safePath) (hread : env.readFile safePath = .ok contents) :
    handleAnalyze env req =
        analysisResponse env safePath (fun c => analyzeOn env.order safePath c (OfDevice a)) ↔
      (Accepted contents → ∀ rec ∈ fileRecords contents, rec.headerLen ≠ 0 →
        a < 65536 ∨ rec.device ≠ .ofInt a) := by
  have haddress : req.addr = .ofInt a := by
    rw [DataRequest.addr, haddr]
    exact if_pos ha
  rw [handleAnalyze, hpath, haddress]
  simp only [analyze_eq_analyzeOn]
  rw [eq_comm, analysisResponse_eq_iff hread counted_of_ofDevice]
  refine imp_congr_right fun _ => forall₂_congr fun rec _ => ?_
  rw [ofDevice_eq_counted_iff]
  exact imp_congr_right fun _ => or_congr_left (and_iff_right ha.le)

/-- **What `handleAnalyze` does is what the request means only for some captures.** For a request
without a device address or with a positive one, and the file that it leads to: the response is
that of the analysis that the request means exactly when the file is not accepted, or the request
addresses its records. -/
theorem analyze_means_iff (hpos : ∀ a, req.deviceAddress = some a → 0 < a)
    (hpath : analyzePath env req = .ok safePath) (hread : env.readFile safePath = .ok contents) :
    handleAnalyze env req = analysisResponse env safePath (req.meant env.order safePath) ↔
      (Accepted contents → req.Addresses (fileRecords contents)) := by
  cases haddr : req.deviceAddress with
  | none =>
    have hmeant : req.meant env.order safePath = fun c => analyze env.order safePath c none := by
      funext c
      rw [DataRequest.meant, haddr]
    rw [hmeant, handleAnalyze_none_iff haddr hpath hread, DataRequest.Addresses, haddr]
  | some a =>
    have hmeant : req.meant env.order safePath = fun c =>
        analyzeOn env.order safePath c (OfDevice a) := by
      funext c
      rw [DataRequest.meant, haddr]
    rw [hmeant, handleAnalyze_some_iff haddr (hpos a haddr) hpath hread, DataRequest.Addresses,
      haddr]

end

/-- A capture directory with the one bulk packet of device 2. -/
def bulkDirectory : FileSurroundings where
  taskByID _ := none
  safePcapPath := .ok
  readFile _ := .ok (plainHeader ++ bulkRecord)
  order := entryOrder
  base := id
  exportPath := id
  mkdirExports := false

/-- A request to analyse it. -/
def analyzeBulk (deviceAddress : Option ℤ) : DataRequest :=
  { action := "analyze", pcapPath := "bulk.pcap", deviceAddress := deviceAddress }

theorem analyze_means_iff_bulk :
    handleAnalyze bulkDirectory (analyzeBulk (some 2)) =
      analysisResponse bulkDirectory "bulk.pcap"
        ((analyzeBulk (some 2)).meant entryOrder "bulk.pcap") :=
  (@analyze_means_iff bulkDirectory (analyzeBulk (some 2)) "bulk.pcap" _
    (by rintro a ⟨⟩; decide) (by decide) rfl).mpr fun _ _ _ _ => Or.inl (by decide)

/-- Without an address, the packet of device 2 is missing from the analysis. -/
theorem analyze_without_address :
    ∃ response result,
      handleAnalyze bulkDirectory (analyzeBulk none) = .ok response ∧
      analyze entryOrder "bulk.pcap" (plainHeader ++ bulkRecord) none = .ok result ∧
      response.analyzeResult.endpoints = [] ∧
      (result.endpoints.map (·.packetCount)).sum = 1 := by
  have hrun (keep) := @analyzeOn_of_accepted entryOrder "bulk.pcap" _ accepted_bulk keep
  rw [fileRecords_bulk] at hrun
  have hresponse : handleAnalyze bulkDirectory (analyzeBulk none) =
      analysisResponse bulkDirectory "bulk.pcap" fun c =>
        analyzeOn entryOrder "bulk.pcap" c (Counted (some 0)) := rfl
  have hread : bulkDirectory.readFile "bulk.pcap" = .ok (plainHeader ++ bulkRecord) := rfl
  rw [analysisResponse, hread] at hresponse
  dsimp only at hresponse
  rw [hrun] at hresponse
  exact ⟨_, _, hresponse, hrun (Counted none), rfl,
    (sum_packetCount_analyzeOn [bulkPacket] (Counted none)).trans (by decide)⟩

end UsbPcap.Service
