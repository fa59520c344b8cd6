import UsbPcap.Lib.CText
import UsbPcap.Reader.Summary

/-!
# The traffic analysis

`Analyze` and `ExportPayload`. Go visits the entries of a map in an order of its own, which
`RangeOrder` stands for; `sort.Slice`, which may reorder equal elements, is a stable sort of the
entries in such an order. A `nil` map is an empty one.
-/

namespace UsbPcap.Pcap

/-- An order in which `range` visits the entries of a map. -/
structure RangeOrder where
  visit : ∀ {α : Type}, List α → List α
  perm : ∀ {α : Type} (es : List α), (visit es).Perm es

/-- `epKey` -/
structure EpKey where
  endpoint : String
  device : UInt16
deriving DecidableEq, Repr

/-- `endpointAccum` -/
structure EndpointAccum where
  endpoint : String
  device : UInt16
  direction : String
  transType : String
  packets : ℕ := 0
  totalBytes : ℕ := 0
  minDataLen : UInt32 := 0
  maxDataLen : UInt32 := 0
deriving DecidableEq, Repr

/-- `transferTypeName` -/
def transferTypeName (t : UInt8) : String :=
  if t = 0 then "isochronous"
  else if t = 1 then "interrupt"
  else if t = 2 then "control"
  else if t = 3 then "bulk"
  else if t = 0xFE then "irp_info"
  else "unknown"

/-- `dataLenBucket` -/
def dataLenBucket (length : UInt32) : String :=
  if length ≤ 8 then "1-8"
  else if length ≤ 64 then "9-64"
  else if length ≤ 256 then "65-256"
  else if length ≤ 512 then "257-512"
  else if length ≤ 1024 then "513-1024"
  else if length ≤ 2048 then "1025-2048"
  else if length ≤ 4096 then "2049-4096"
  else "4097+"

/-- The accumulator that `Analyze` creates for the first record of an endpoint. -/
def EndpointAccum.new (key : EpKey) (rec : Record) : EndpointAccum where
  endpoint := key.endpoint
  device := key.device
  direction := if rec.endpoint &&& 0x80 ≠ 0 then "IN" else "OUT"
  transType := transferTypeName rec.transfer

/-- One more record of an endpoint. -/
def EndpointAccum.count (acc : EndpointAccum) (rec : Record) : EndpointAccum :=
  { acc with
    packets := acc.packets + 1
    totalBytes := acc.totalBytes + rec.actualLen.toNat
    minDataLen :=
      if acc.minDataLen = 0 ∨ rec.actualLen < acc.minDataLen then rec.actualLen
      else acc.minDataLen
    maxDataLen := if acc.maxDataLen < rec.actualLen then rec.actualLen else acc.maxDataLen }

/-- The maps of `Analyze` and the payload total. -/
structure AnalyzeTables where
  endpointMap : Table EpKey EndpointAccum := ∅
  totalPayloadBytes : ℕ := 0
  dataLenCounted : Table UInt32 ℕ := ∅
  firstBytePattern : Table String ℕ := ∅

/-- The variables of the loop of `Analyze`. -/
structure AnalyzeState extends AnalyzeTables where
  span : Span := {}
  totalPackets : ℕ := 0

/-- A record that `Analyze` does not skip; without a device these are the records with a header. -/
def Counted (deviceAddr : Option UInt16) (rec : Record) : Bool :=
  rec.headerLen ≠ 0 && deviceAddr.all (rec.device = ·)

/-- What `Analyze` does with a record that it does not skip. -/
def AnalyzeTables.count (t : AnalyzeTables) (rec : Record) : AnalyzeTables :=
  let key : EpKey := { endpoint := hex02 rec.endpoint.toNat, device := rec.device }
  let acc := (t.endpointMap.lookup key).getD (.new key rec)
  { endpointMap := t.endpointMap.insert key (acc.count rec)
    totalPayloadBytes := t.totalPayloadBytes + rec.actualLen.toNat
    dataLenCounted := t.dataLenCounted.add rec.actualLen 1
    firstBytePattern :=
      match rec.payload with
      | [] => t.firstBytePattern
      | firstByte :: _ => t.firstBytePattern.add (hex02 firstByte.toNat) 1 }

/-- The loop body of `Analyze`. -/
def analyzeBody (deviceAddr : Option UInt16) (s : AnalyzeState) (rec : Record) : AnalyzeState where
  toAnalyzeTables :=
    if Counted deviceAddr rec then s.toAnalyzeTables.count rec else s.toAnalyzeTables
  span := s.span.see rec.tsMillis
  totalPackets := s.totalPackets + 1

/-- `ipc.EndpointStat` -/
structure EndpointStat where
  endpoint : String
  direction : String
  transferType : String
  packetCount : ℕ
  totalBytes : ℕ
  minDataLen : UInt32
  maxDataLen : UInt32
  avgDataLen : UInt32
deriving DecidableEq, Repr

/-- `ipc.PayloadStats` -/
structure PayloadStats where
  totalPayloadBytes : ℕ
  dataLenBuckets : Table String ℕ
  firstBytePattern : Table String ℕ
deriving DecidableEq

/-- `ipc.AnalyzeResult` -/
structure AnalyzeResult where
  pcapPath : String
  packetCount : ℕ
  durationMs : ℕ := 0
  endpoints : List EndpointStat
  payloadStats : Option PayloadStats := none
  bytePattern : Table String ℕ := ∅
  dataLenStats : Table String ℕ := ∅
deriving DecidableEq

/-- The line of the result for one endpoint. -/
def EndpointAccum.stat (acc : EndpointAccum) : EndpointStat where
  endpoint := acc.endpoint
  direction := acc.direction
  transferType := acc.transType
  packetCount := acc.packets
  totalBytes := acc.totalBytes
  minDataLen := acc.minDataLen
  maxDataLen := acc.maxDataLen
  avgDataLen := if 0 < acc.packets then .ofNat (acc.totalBytes / acc.packets) else 0

/-- The order of the endpoints in a result. -/
def EndpointStat.less (a b : EndpointStat) : Bool :=
  if a.endpoint ≠ b.endpoint then a.endpoint < b.endpoint else a.direction < b.direction

/-- `fmt.Sprintf("%d", n)` -/
def lengthKey (n : UInt32) : String := .ofList (CText.decimal n.toNat)

/-- What `Analyze` returns behind its loop. -/
def AnalyzeState.result (order : RangeOrder) (path : String) (s : AnalyzeState) : AnalyzeResult :=
  if s.endpointMap.entries.length = 0 then
    { pcapPath := path, packetCount := s.totalPackets, endpoints := [] }
  else
    let endpoints := (order.visit s.endpointMap.entries).map fun e => e.2.stat
    { pcapPath := path
      packetCount := s.totalPackets
      durationMs := s.span.durationMs
      endpoints := endpoints.mergeSort fun a b => !b.less a
      payloadStats := some
        { totalPayloadBytes := s.totalPayloadBytes
          dataLenBuckets := Table.regroup dataLenBucket (order.visit s.dataLenCounted.entries)
          firstBytePattern := s.firstBytePattern }
      bytePattern := s.firstBytePattern
      dataLenStats := Table.rekey lengthKey (order.visit s.dataLenCounted.entries) }

/-- `Analyze`, given the contents of the file at `path`. -/
def analyze (order : RangeOrder) (path : String) (contents : List UInt8)
    (deviceAddr : Option UInt16) : Except ReadError AnalyzeResult :=
  match openReader contents with
  | .error err => .error err
  | .ok r =>
    match r.forEach (fun s rec => .yield (analyzeBody deviceAddr s rec)) {} with
    | .error err => .error err
    | .ok s => .ok (s.result order path)

theorem analyze_eq_ok_iff {order : RangeOrder} {path : String} {contents : List UInt8}
    {deviceAddr : Option UInt16} {a : AnalyzeResult} :
    analyze order path contents deviceAddr = .ok a ↔
      ∃ r, openReader contents = .ok r ∧ r.readAll.2.isEof = true ∧
        (r.readAll.1.foldl (analyzeBody deviceAddr) {}).result order path = a := by
  rw [analyze]
  cases openReader contents with
  | error err => simp
  | ok r =>
    simp only [Reader.forEach_yield, Except.ok.injEq, exists_eq_left']
    cases r.readAll.2.isEof with
    | true => simp
    | false => simp

/-! ## What one record adds -/

namespace AnalyzeTables

variable (t : AnalyzeTables) (rec : Record)

/-- An endpoint sum that is 0 for a new endpoint and grows by `δ` with the record. -/
theorem sumOver_endpointMap_count {w : EndpointAccum → ℕ} {δ : ℕ}
    (hnew : ∀ key, w (.new key rec) = 0)
    (hcount : ∀ acc, w (EndpointAccum.count acc rec) = w acc + δ) :
    Table.sumOver (fun _ acc => w acc) (t.count rec).endpointMap =
      Table.sumOver (fun _ acc => w acc) t.endpointMap + δ := by
  rw [count]
  dsimp only
  generalize (⟨hex02 rec.endpoint.toNat, rec.device⟩ : EpKey) = key
  have h := Table.sumOver_insert (fun _ acc => w acc) t.endpointMap key
    (((t.endpointMap.lookup key).getD (.new key rec)).count rec)
  rw [hcount] at h
  cases hk : t.endpointMap.lookup key with
  | none =>
    rw [hk, Option.getD_none, hnew, Option.elim_none] at h
    rw [Option.getD_none]
    omega
  | some acc =>
    rw [hk, Option.getD_some, Option.elim_some] at h
    rw [Option.getD_some]
    omega

/-- The packets of all endpoints. -/
def packets : ℕ := Table.sumOver (fun _ acc => acc.packets) t.endpointMap

/-- The bytes of all endpoints. -/
def totalBytes : ℕ := Table.sumOver (fun _ acc => acc.totalBytes) t.endpointMap

theorem packets_count : (t.count rec).packets = t.packets + 1 :=
  sumOver_endpointMap_count t rec (fun _ => rfl) fun _ => rfl

theorem totalBytes_count : (t.count rec).totalBytes = t.totalBytes + rec.actualLen.toNat :=
  sumOver_endpointMap_count t rec (fun _ => rfl) fun _ => rfl

theorem weighted_dataLenCounted_count (w : UInt32 → ℕ) :
    Table.weighted w (t.count rec).dataLenCounted =
      Table.weighted w t.dataLenCounted + w rec.actualLen := by
  rw [count, Table.weighted_add, Nat.mul_one]

theorem total_firstBytePattern_count :
    Table.total (t.count rec).firstBytePattern =
      Table.total t.firstBytePattern + (!rec.payload.isEmpty).toNat := by
  rw [count]
  dsimp only
  cases rec.payload with
  | nil => rfl
  | cons b bs => exact Table.total_add _ _ _

end AnalyzeTables

/-! ## What a file adds -/

/-- The loop fills its maps from the records that it does not skip, in their order. -/
theorem tables_foldl_analyzeBody (deviceAddr : Option UInt16) (recs : List Record)
    (s : AnalyzeState) :
    (recs.foldl (analyzeBody deviceAddr) s).toAnalyzeTables =
      (recs.filter (Counted deviceAddr)).foldl AnalyzeTables.count s.toAnalyzeTables := by
  induction recs generalizing s with
  | nil => rfl
  | cons rec recs ih =>
    rw [List.foldl_cons, ih, List.filter_cons, analyzeBody]
    split <;> rfl

theorem totalPackets_foldl_analyzeBody (deviceAddr : Option UInt16) (recs : List Record)
    (s : AnalyzeState) :
    (recs.foldl (analyzeBody deviceAddr) s).totalPackets = s.totalPackets + recs.length :=
  Table.measure_foldl_length _ AnalyzeState.totalPackets (fun _ _ => rfl) s recs

end UsbPcap.Pcap
