import Mathlib.Data.Prod.Lex
import Mathlib.Data.String.Basic
import UsbPcap.Lib.StableSort
import UsbPcap.Reader.Statistics

/-!
# The order of Go's maps

`Analyze` visits its maps in an order that differs from run to run. The tables of a result do not
depend on it. The lines of the endpoints are sorted by endpoint and direction, which do not tell
two devices apart: `analyze_order_iff` says for which captures the result is one all the same.
-/

namespace UsbPcap.Pcap

open StableSort

/-! ## Equal results -/

/-- Equal as Go values, where maps are equal that hold the same. -/
def PayloadStats.Same (a b : PayloadStats) : Prop :=
  a.totalPayloadBytes = b.totalPayloadBytes ∧ Table.Same a.dataLenBuckets b.dataLenBuckets ∧
    Table.Same a.firstBytePattern b.firstBytePattern

/-- Equal as Go values. -/
structure AnalyzeResult.Same (a b : AnalyzeResult) : Prop where
  pcapPath : a.pcapPath = b.pcapPath
  packetCount : a.packetCount = b.packetCount
  durationMs : a.durationMs = b.durationMs
  endpoints : a.endpoints = b.endpoints
  payloadStats : Option.Rel PayloadStats.Same a.payloadStats b.payloadStats
  bytePattern : Table.Same a.bytePattern b.bytePattern
  dataLenStats : Table.Same a.dataLenStats b.dataLenStats

/-- Two runs end alike: with equal results, or with the same error. -/
def SameOutcome : Except ReadError AnalyzeResult → Except ReadError AnalyzeResult → Prop
  | .ok a, .ok b => a.Same b
  | .error e, .error e' => e = e'
  | _, _ => False

/-- Two runs that differ in the order of the maps end alike. -/
def OrderFree (path : String) (contents : List UInt8) (deviceAddr : Option UInt16) : Prop :=
  ∀ order order' : RangeOrder,
    SameOutcome (analyze order path contents deviceAddr) (analyze order' path contents deviceAddr)

/-- Records that make the same line, up to the endpoint: as many, with as many bytes, the same
shortest and longest payload and the same first transfer type. -/
def Alike (recs recs' : List Record) : Prop :=
  recs.length = recs'.length ∧ (payloadLengths recs).sum = (payloadLengths recs').sum ∧
    loopMin (payloadLengths recs) = loopMin (payloadLengths recs') ∧
    (payloadLengths recs).max?.getD 0 = (payloadLengths recs').max?.getD 0 ∧
    recs.head?.map (transferTypeName ·.transfer) = recs'.head?.map (transferTypeName ·.transfer)

/-- Devices with records on the same endpoint have like ones. -/
def EndpointsAlike (recs : List Record) : Prop :=
  ∀ p ∈ pairs recs, ∀ q ∈ pairs recs, p.2 = q.2 → Alike (ofPair p recs) (ofPair q recs)

/-! ## The order of the lines -/

/-- What the lines are sorted by. -/
def EndpointStat.sortKey (a : EndpointStat) : String ×ₗ String := toLex (a.endpoint, a.direction)

/-- The comparison that the lines are sorted with. -/
def lineLe (a b : EndpointStat) : Bool := !b.less a

/-- The lines are sorted by a key. -/
theorem lineLe_iff (a b : EndpointStat) : lineLe a b = true ↔ a.sortKey ≤ b.sortKey := by
  have hless : b.less a = true ↔ b.sortKey < a.sortKey := by
    unfold EndpointStat.less EndpointStat.sortKey
    rw [Prod.Lex.toLex_lt_toLex]
    dsimp only
    by_cases h : b.endpoint = a.endpoint
    · rw [if_neg (not_not_intro h), decide_eq_true_iff, h]
      simp only [lt_irrefl, true_and, false_or]
    · rw [if_pos h, decide_eq_true_iff]
      simp only [h, false_and, or_false]
  rw [lineLe, Bool.not_eq_true', ← Bool.not_eq_true, hless, not_lt]

/-- So the order is transitive. -/
theorem lineLe_trans (a b c : EndpointStat) (hab : lineLe a b = true) (hbc : lineLe b c = true) :
    lineLe a c = true := by
  rw [lineLe_iff] at *
  exact hab.trans hbc

/-- And total. -/
theorem lineLe_total (a b : EndpointStat) : (lineLe a b || lineLe b a) = true := by
  rw [Bool.or_eq_true, lineLe_iff, lineLe_iff]
  exact le_total _ _

/-- It does not tell lines of one endpoint and direction apart. -/
theorem lineLe_antisymm_iff (a b : EndpointStat) :
    lineLe a b = true ∧ lineLe b a = true ↔
      a.endpoint = b.endpoint ∧ a.direction = b.direction := by
  rw [lineLe_iff, lineLe_iff, ← le_antisymm_iff]
  exact Prod.mk.injEq _ _ _ _ ▸ Iff.rfl

/-! ## The lines -/

/-- The line of a device and endpoint. -/
def lineOf (recs : List Record) (p : UInt16 × UInt8) : EndpointStat :=
  (accumOf (keyOf p) (ofPair p recs)).stat

/-- A line shows its endpoint. -/
theorem endpoint_lineOf (recs : List Record) (p : UInt16 × UInt8) :
    (lineOf recs p).endpoint = hex02 p.2.toNat := rfl

/-- And the direction that the endpoint's bit says. -/
theorem direction_lineOf {recs : List Record} {p : UInt16 × UInt8} (hp : p ∈ pairs recs) :
    (lineOf recs p).direction = if p.2 &&& 0x80 ≠ 0 then "IN" else "OUT" := by
  obtain ⟨rec, hhead, hendpoint⟩ := exists_head_ofPair hp
  rw [lineOf, direction_accumOf _ hhead, hendpoint]

/-- The sort does not tell lines apart exactly when they are about one endpoint. -/
theorem tied_lineOf_iff {recs : List Record} {p q : UInt16 × UInt8} (hp : p ∈ pairs recs)
    (hq : q ∈ pairs recs) :
    lineLe (lineOf recs p) (lineOf recs q) = true ∧ lineLe (lineOf recs q) (lineOf recs p) = true ↔
      p.2 = q.2 := by
  rw [lineLe_antisymm_iff, endpoint_lineOf, endpoint_lineOf, direction_lineOf hp,
    direction_lineOf hq]
  constructor
  · exact fun h => UInt8.toNat_inj.mp (hex02_injective h.1)
  · intro h
    rw [h]
    exact ⟨rfl, rfl⟩

/-- Two lines have the same figures when the number, the sum, the minimum of the loop and the
maximum agree. -/
theorem figures_found_eq_iff (endpoint : UInt8) (recs recs' : List Record) :
    Figures.found endpoint recs = Figures.found endpoint recs' ↔
      recs.length = recs'.length ∧ (payloadLengths recs).sum = (payloadLengths recs').sum ∧
        loopMin (payloadLengths recs) = loopMin (payloadLengths recs') ∧
        (payloadLengths recs).max?.getD 0 = (payloadLengths recs').max?.getD 0 := by
  unfold Figures.found Figures.of
  rw [Figures.mk.injEq]
  constructor
  · rintro ⟨-, hlength, hsum, hmin, hmax, -⟩
    exact ⟨hlength, hsum, hmin, hmax⟩
  · rintro ⟨hlength, hsum, hmin, hmax⟩
    exact ⟨rfl, hlength, hsum, hmin, hmax, by rw [hlength, hsum]⟩

/-- Lines of one endpoint are equal exactly when the records are alike. -/
theorem lineOf_eq_iff {recs : List Record} {p q : UInt16 × UInt8} (hp : p ∈ pairs recs)
    (hq : q ∈ pairs recs) (h : p.2 = q.2) :
    lineOf recs p = lineOf recs q ↔ Alike (ofPair p recs) (ofPair q recs) := by
  obtain ⟨fst, hfst, hfst'⟩ := exists_head_ofPair hp
  obtain ⟨snd, hsnd, hsnd'⟩ := exists_head_ofPair hq
  have hfigures := figures_found_eq_iff q.2 (ofPair p recs) (ofPair q recs)
  have hlineP : (lineOf recs p).figures = Figures.found q.2 (ofPair p recs) :=
    h ▸ figures_accumOf p (ofPair p recs)
  have hlineQ : (lineOf recs q).figures = Figures.found q.2 (ofPair q recs) :=
    figures_accumOf q (ofPair q recs)
  rw [← hlineP, ← hlineQ] at hfigures
  have htype : (lineOf recs p).transferType = (lineOf recs q).transferType ↔
      (ofPair p recs).head?.map (transferTypeName ·.transfer) =
        (ofPair q recs).head?.map (transferTypeName ·.transfer) := by
    rw [lineOf, lineOf, transferType_accumOf _ hfst, transferType_accumOf _ hsnd, hfst, hsnd]
    exact Option.some_inj.symm
  have hdirection : (lineOf recs p).direction = (lineOf recs q).direction := by
    rw [direction_lineOf hp, direction_lineOf hq, h]
  constructor
  · intro heq
    obtain ⟨hlength, hsum, hmin, hmax⟩ := hfigures.mp (congrArg EndpointStat.figures heq)
    exact ⟨hlength, hsum, hmin, hmax, htype.mp (congrArg EndpointStat.transferType heq)⟩
  · rintro ⟨hlength, hsum, hmin, hmax, hhead⟩
    exact EndpointStat.eq_of_figures (hfigures.mpr ⟨hlength, hsum, hmin, hmax⟩) hdirection
      (htype.mpr hhead)

/-- The lines are without ties exactly when devices on one endpoint have like records. -/
theorem noTies_iff {recs : List Record} {lines : List EndpointStat}
    (hlines : lines.Perm ((pairs recs).map (lineOf recs))) :
    NoTies lineLe lines ↔ EndpointsAlike recs := by
  have hmem : ∀ a, a ∈ lines ↔ ∃ p ∈ pairs recs, lineOf recs p = a := fun a =>
    hlines.mem_iff.trans List.mem_map
  constructor
  · intro h p hp q hq hpq
    obtain ⟨hle, hge⟩ := (tied_lineOf_iff hp hq).mpr hpq
    refine (lineOf_eq_iff hp hq hpq).mp ?_
    exact h _ ((hmem _).mpr ⟨p, hp, rfl⟩) _ ((hmem _).mpr ⟨q, hq, rfl⟩) hle hge
  · intro h a ha b hb hle hge
    obtain ⟨p, hp, rfl⟩ := (hmem a).mp ha
    obtain ⟨q, hq, rfl⟩ := (hmem b).mp hb
    have hpq := (tied_lineOf_iff hp hq).mp ⟨hle, hge⟩
    exact (lineOf_eq_iff hp hq hpq).mpr (h p hp q hq hpq)

/-! ## The result -/

/-- The order that starts `k` entries further on. -/
def RangeOrder.rotate (k : ℕ) : RangeOrder := ⟨(List.rotate · k), fun es => List.rotate_perm es k⟩

/-- The lines of a result, in the order in which a map is visited. -/
def AnalyzeState.lines (order : RangeOrder) (s : AnalyzeState) : List EndpointStat :=
  (order.visit s.endpointMap.entries).map fun e => e.2.stat

/-- The result's lines are sorted after they have been collected. -/
theorem endpoints_result (order : RangeOrder) (path : String) (s : AnalyzeState) :
    (s.result order path).endpoints = (s.lines order).mergeSort lineLe := by
  rw [AnalyzeState.result, AnalyzeState.lines]
  split
  · next hempty =>
    have hnil := List.eq_nil_of_length_eq_zero hempty
    have hvisit : order.visit s.endpointMap.entries = [] := by
      have hperm := order.perm s.endpointMap.entries
      rw [hnil] at hperm ⊢
      exact hperm.eq_nil
    rw [hvisit, List.map_nil, List.mergeSort_nil]
  · rfl

/-- Only the lines depend on the order of the maps. -/
theorem same_result_iff (order order' : RangeOrder) (path : String) (s : AnalyzeState) :
    (s.result order path).Same (s.result order' path) ↔
      (s.lines order).mergeSort lineLe = (s.lines order').mergeSort lineLe := by
  rw [← endpoints_result order path, ← endpoints_result order' path]
  refine ⟨AnalyzeResult.Same.endpoints, fun h => ?_⟩
  have hperm := (order.perm s.dataLenCounted.entries).trans
    (order'.perm s.dataLenCounted.entries).symm
  have hnodup : (order.visit s.dataLenCounted.entries).NodupKeys :=
    (List.perm_nodupKeys (order.perm s.dataLenCounted.entries)).mpr s.dataLenCounted.nodupKeys
  unfold AnalyzeState.result at h ⊢
  by_cases hempty : s.endpointMap.entries.length = 0
  · rw [if_pos hempty, if_pos hempty]
    exact ⟨rfl, rfl, rfl, rfl, .none, fun _ => rfl, fun _ => rfl⟩
  · rw [if_neg hempty, if_neg hempty] at h ⊢
    refine ⟨rfl, rfl, rfl, h, .some ⟨rfl, ?_, fun _ => rfl⟩, fun _ => rfl, ?_⟩
    · exact Table.same_regroup dataLenBucket hperm
    · exact Table.same_rekey lengthKey_injective hnodup hperm

/-- Over all orders: the lines have no ties. -/
theorem result_orderFree_iff {path : String} {contents : List UInt8} {r : Reader}
    (deviceAddr : Option UInt16) (hr : openReader contents = .ok r)
    (heof : r.readAll.2.isEof = true) :
    OrderFree path contents deviceAddr ↔
      EndpointsAlike ((fileRecords contents).filter (Counted deviceAddr)) := by
  rw [fileRecords_of_ok hr]
  let s := r.readAll.1.foldl (analyzeBody deviceAddr) {}
  have hrun : ∀ order, analyze order path contents deviceAddr = .ok (s.result order path) :=
    fun order => analyze_eq_ok_iff.mpr ⟨r, hr, heof, rfl⟩
  have hentries : (s.endpointMap.entries.map fun e => e.2.stat).Perm
      ((pairs (r.readAll.1.filter (Counted deviceAddr))).map
        (lineOf (r.readAll.1.filter (Counted deviceAddr)))) := by
    have htables := tables_foldl_analyzeBody deviceAddr r.readAll.1 {}
    have hmap : s.endpointMap = _ := congrArg AnalyzeTables.endpointMap htables
    rw [hmap]
    exact endpointMap_perm _
  rw [← noTies_iff hentries]
  have hsame : OrderFree path contents deviceAddr ↔ ∀ order order' : RangeOrder,
      (s.lines order).mergeSort lineLe = (s.lines order').mergeSort lineLe := by
    unfold OrderFree
    simp only [hrun, SameOutcome, same_result_iff]
  rw [hsame]
  constructor
  · intro h
    refine noTies_of_mergeSort_rotate lineLe_trans lineLe_total fun k => ?_
    have hrotate := h (.rotate k) (.rotate 0)
    simp only [AnalyzeState.lines, RangeOrder.rotate, List.rotate_zero] at hrotate
    rw [← List.map_rotate]
    exact hrotate
  · intro hties order order'
    have hvisit : ∀ order : RangeOrder, (s.lines order).mergeSort lineLe =
        (s.endpointMap.entries.map fun e => e.2.stat).mergeSort lineLe := fun order =>
      mergeSort_eq_of_perm lineLe_trans lineLe_total ((order.perm _).map _) hties
    rw [hvisit order, hvisit order']

/-- A file that is not accepted gives the same error in any order. -/
theorem analyze_not_accepted {order order' : RangeOrder} {path : String} {contents : List UInt8}
    {deviceAddr : Option UInt16} (h : ¬ Accepted contents) :
    SameOutcome (analyze order path contents deviceAddr)
      (analyze order' path contents deviceAddr) := by
  unfold analyze
  cases hr : openReader contents with
  | error err => rfl
  | ok r =>
    dsimp only
    rw [Reader.forEach_yield, if_neg fun heof => h ⟨r, hr, heof⟩]
    rfl

/-- With a device address there is one line for each endpoint. -/
theorem endpointsAlike_of_device (device : UInt16) (recs : List Record) :
    EndpointsAlike (recs.filter (Counted (some device))) := by
  have hdevice : ∀ p ∈ pairs (recs.filter (Counted (some device))), p.1 = device := by
    intro p hp
    obtain ⟨rec, hrec, rfl⟩ := List.mem_map.mp (List.mem_dedup.mp hp)
    have hcounted := (Bool.and_eq_true_iff.mp (List.mem_filter.mp hrec).2).2
    exact of_decide_eq_true hcounted
  intro p hp q hq h
  obtain rfl : p = q := Prod.ext ((hdevice p hp).trans (hdevice q hq).symm) h
  exact ⟨rfl, rfl, rfl, rfl, rfl⟩

/-- **The result depends on no order of Go's maps exactly when the devices that share an endpoint
have like records there.** -/
theorem analyze_order_iff (path : String) (contents : List UInt8) (deviceAddr : Option UInt16) :
    OrderFree path contents deviceAddr ↔
      (Accepted contents →
        EndpointsAlike ((fileRecords contents).filter (Counted deviceAddr))) := by
  by_cases h : Accepted contents
  · obtain ⟨r, hr, heof⟩ := h
    rw [result_orderFree_iff deviceAddr hr heof]
    exact ⟨fun halike _ => halike, fun halike => halike ⟨r, hr, heof⟩⟩
  · exact iff_of_true (fun _ _ => analyze_not_accepted h) fun haccepted => absurd haccepted h

/-- A record of one bulk packet of device 3 without a payload. -/
def otherRecord : List UInt8 :=
  [0, 0, 0, 0, 0, 0, 0, 0, 27, 0, 0, 0, 27, 0, 0, 0] ++
    [27, 0, 1, 0, 0, 0, 0, 0, 0, 0, 0, 0, 0, 0, 9, 0, 0, 1, 0, 3, 0, 0x81, 3, 0, 0, 0, 0]

/-- Two devices with different records on one endpoint, in either order. -/
theorem not_orderFree_devices :
    ¬ OrderFree "bulk.pcap" (plainHeader ++ (otherRecord ++ bulkRecord)) none := by
  have hopen : openReader (plainHeader ++ (otherRecord ++ bulkRecord)) =
      .ok ⟨otherRecord ++ bulkRecord, .ofBytes plainHeader, 111⟩ := by decide
  have hother : (Reader.mk (otherRecord ++ bulkRecord) (.ofBytes plainHeader) 111).next =
      (.ok (recordOf (.ofBytes (otherRecord.take 16)) (otherRecord.drop 16)),
        ⟨bulkRecord, .ofBytes plainHeader, 111⟩) := by decide
  have hall := (Reader.readAll_of_ok hother).trans (by rw [readAll_bulkRecord])
  rw [result_orderFree_iff none hopen (by rw [hall]; rfl), fileRecords_of_ok hopen, hall]
  intro halike
  have h := (halike (2, 0x81) (by decide) (3, 0x81) (by decide) rfl).2.1
  exact absurd h (by decide)

end UsbPcap.Pcap
