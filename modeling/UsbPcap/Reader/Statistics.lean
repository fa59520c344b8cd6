import Mathlib.Algebra.Order.BigOperators.Group.List
import UsbPcap.Reader.Captures

/-!
# The statistics of an endpoint

`Analyze` keeps one accumulator for each pair of a device and an endpoint. Its minimum starts at 0,
and 0 also stands for "no length yet": a length 0 is forgotten as soon as a longer payload follows.
`statistics_true_iff` says for which captures the figures of the result are right, and for which
they do not depend on the order of the records.
-/

namespace UsbPcap.Pcap

/-! ## The true statistics -/

/-- The device and the endpoint of a record. -/
def Record.pair (rec : Record) : UInt16 × UInt8 := (rec.device, rec.endpoint)

/-- The records of a device and an endpoint. -/
def ofPair (p : UInt16 × UInt8) (recs : List Record) : List Record := recs.filter (·.pair = p)

/-- The devices and endpoints of some records. -/
def pairs (recs : List Record) : List (UInt16 × UInt8) := (recs.map Record.pair).dedup

/-- The payload lengths of some records. -/
def payloadLengths (recs : List Record) : List ℕ := recs.map (·.actualLen.toNat)

/-- The figures of a line of the result, under the name of the endpoint. -/
structure Figures where
  endpoint : String
  packetCount : ℕ
  totalBytes : ℕ
  minDataLen : ℕ
  maxDataLen : ℕ
  avgDataLen : ℕ
deriving DecidableEq, Repr

/-- The figures that `Analyze` returns. -/
def EndpointStat.figures (e : EndpointStat) : Figures where
  endpoint := e.endpoint
  packetCount := e.packetCount
  totalBytes := e.totalBytes
  minDataLen := e.minDataLen.toNat
  maxDataLen := e.maxDataLen.toNat
  avgDataLen := e.avgDataLen.toNat

/-- The figures of the records of one endpoint. -/
def Figures.of (endpoint : UInt8) (recs : List Record) : Figures where
  endpoint := hex02 endpoint.toNat
  packetCount := recs.length
  totalBytes := (payloadLengths recs).sum
  minDataLen := (payloadLengths recs).min?.getD 0
  maxDataLen := (payloadLengths recs).max?.getD 0
  avgDataLen := (payloadLengths recs).sum / recs.length

/-- A result has one line for each device and endpoint of the records `recs`, with their figures. -/
def AnalyzeResult.TrueStatistics (a : AnalyzeResult) (recs : List Record) : Prop :=
  (a.endpoints.map EndpointStat.figures).Perm
    ((pairs recs).map fun p => Figures.of p.2 (ofPair p recs))

/-- Where a payload is empty, the last one is. -/
def EmptyLast (recs : List Record) : Prop :=
  0 ∈ payloadLengths recs → (payloadLengths recs).getLast? = some 0

/-- Either all payloads are empty or none is. -/
def AllOrNoneEmpty (recs : List Record) : Prop :=
  (∀ n ∈ payloadLengths recs, n = 0) ∨ 0 ∉ payloadLengths recs

/-- The records agree on the name of their transfer type. -/
def OneTransferType (recs : List Record) : Prop :=
  ∀ rec ∈ recs, ∀ rec' ∈ recs, transferTypeName rec.transfer = transferTypeName rec'.transfer

/-- A record is of its own device and endpoint. -/
theorem mem_ofPair {p : UInt16 × UInt8} {recs : List Record} {rec : Record} :
    rec ∈ ofPair p recs ↔ rec ∈ recs ∧ rec.pair = p := by
  rw [ofPair, List.mem_filter, decide_eq_true_iff]

/-- Which is one of those of the records. -/
theorem mem_pairs {p : UInt16 × UInt8} {recs : List Record} {rec : Record}
    (h : rec ∈ ofPair p recs) : p ∈ pairs recs :=
  List.mem_dedup.mpr (List.mem_map.mpr ⟨rec, mem_ofPair.mp h⟩)

/-! ## The minimum -/

/-- The minimum of the loop, which takes 0 for no minimum. -/
def loopMin (ls : List ℕ) : ℕ := ls.foldl (fun m l => if m = 0 ∨ l < m then l else m) 0

/-- The loop ends with 0 only behind a length 0. -/
theorem loopMin_eq_zero_iff (ls : List ℕ) :
    loopMin ls = 0 ↔ ls = [] ∨ ls.getLast? = some 0 := by
  induction ls using List.reverseRecOn with
  | nil => exact iff_of_true rfl (Or.inl rfl)
  | append_singleton ls l =>
    have hne : ls ++ [l] ≠ [] := List.append_ne_nil_of_right_ne_nil ls (List.cons_ne_nil l [])
    rw [List.getLast?_concat, Option.some_inj, loopMin, List.foldl_append, List.foldl_cons,
      List.foldl_nil, ← loopMin]
    split
    · exact ⟨Or.inr, fun h => h.resolve_left hne⟩
    · rename_i hkeep
      rw [not_or] at hkeep
      refine iff_of_false hkeep.1 (not_or.mpr ⟨hne, ?_⟩)
      rintro rfl
      exact hkeep.2 (Nat.pos_of_ne_zero hkeep.1)

/-- Without a length 0 the loop finds the minimum. -/
theorem loopMin_of_zero_notMem {ls : List ℕ} (h : 0 ∉ ls) : loopMin ls = ls.min?.getD 0 := by
  -- behind the first length the loop is the fold of `min`
  have hfold : ∀ (ls : List ℕ) (m : ℕ), m ≠ 0 → 0 ∉ ls →
      ls.foldl (fun m l => if m = 0 ∨ l < m then l else m) m = ls.foldl min m := by
    intro ls
    induction ls with
    | nil => exact fun m _ _ => rfl
    | cons l ls ih =>
      intro m hm h
      obtain ⟨hl, hls⟩ := not_or.mp (mt List.mem_cons.mpr h)
      have hstep : (if m = 0 ∨ l < m then l else m) = min m l := by
        split <;> omega
      rw [List.foldl_cons, List.foldl_cons, hstep]
      exact ih _ (by omega) hls
  cases ls with
  | nil => rfl
  | cons l ls =>
    obtain ⟨hl, hls⟩ := not_or.mp (mt List.mem_cons.mpr h)
    rw [loopMin, List.foldl_cons, if_pos (Or.inl rfl), hfold ls l (Ne.symm hl) hls, List.min?_cons',
      Option.getD_some]

/-- The minimum is 0 where 0 is there. -/
theorem min?_of_zero_mem {ls : List ℕ} (h : 0 ∈ ls) : ls.min?.getD 0 = 0 :=
  Nat.le_zero.mp (List.min?_getD_le_of_mem h)

/-- The loop finds the minimum exactly when a length 0, if any, comes last. -/
theorem loopMin_eq_min?_iff (ls : List ℕ) :
    loopMin ls = ls.min?.getD 0 ↔ (0 ∈ ls → ls.getLast? = some 0) := by
  by_cases h : 0 ∈ ls
  · rw [min?_of_zero_mem h, loopMin_eq_zero_iff]
    have hne : ls ≠ [] := List.ne_nil_of_mem h
    exact ⟨fun hlast _ => hlast.resolve_left hne, fun hlast => Or.inr (hlast h)⟩
  · exact iff_of_true (loopMin_of_zero_notMem h) fun hmem => absurd hmem h

/-- The loop finds no length below the minimum. -/
theorem min?_le_loopMin (ls : List ℕ) : ls.min?.getD 0 ≤ loopMin ls := by
  by_cases h : 0 ∈ ls
  · rw [min?_of_zero_mem h]
    exact Nat.zero_le _
  · exact (loopMin_of_zero_notMem h).ge

/-- The loop finds the maximum. -/
theorem foldl_max (ls : List ℕ) :
    ls.foldl (fun m l => if m < l then l else m) 0 = ls.max?.getD 0 := by
  have hstep : (fun m l : ℕ => if m < l then l else m) = max := by
    funext m l
    split <;> omega
  rw [hstep]
  cases ls with
  | nil => rfl
  | cons l ls => rw [List.foldl_cons, Nat.zero_max, List.max?_cons', Option.getD_some]

/-! ## The accumulators -/

/-- The key of a device and an endpoint. -/
def keyOf (p : UInt16 × UInt8) : EpKey := ⟨hex02 p.2.toNat, p.1⟩

/-- Different bytes have different texts. -/
theorem hex02_injective : Function.Injective hex02 := by
  intro m n h
  have hdigits : ∀ n, CText.ofDigits 16 ((hex02 n).toList.drop 2) = n := fun n => by
    rw [hex02, String.toList_ofList]
    exact (CText.ofDigits_zeros _ _).trans (CText.ofDigits_hexadecimal n)
  rw [← hdigits m, h, hdigits]

/-- Different devices and endpoints have different keys. -/
theorem keyOf_injective : Function.Injective keyOf := by
  rintro ⟨d, e⟩ ⟨d', e'⟩ h
  obtain ⟨hep, hdev⟩ := EpKey.mk.inj h
  exact Prod.ext hdev (UInt8.toNat_inj.mp (hex02_injective hep))

/-- What the records of one key make of its accumulator. -/
def accumOf (key : EpKey) (recs : List Record) : EndpointAccum where
  endpoint := key.endpoint
  device := key.device
  direction := recs.head?.elim "" fun rec => if rec.endpoint &&& 0x80 ≠ 0 then "IN" else "OUT"
  transType := recs.head?.elim "" fun rec => transferTypeName rec.transfer
  packets := recs.length
  totalBytes := (payloadLengths recs).sum
  minDataLen := .ofNat (loopMin (payloadLengths recs))
  maxDataLen := .ofNat ((payloadLengths recs).max?.getD 0)

/-- Counting on from an accumulator. -/
theorem foldl_count (recs : List Record) (acc : EndpointAccum) :
    recs.foldl EndpointAccum.count acc =
      { acc with
        packets := acc.packets + recs.length
        totalBytes := acc.totalBytes + (payloadLengths recs).sum
        minDataLen := .ofNat ((payloadLengths recs).foldl
          (fun m l => if m = 0 ∨ l < m then l else m) acc.minDataLen.toNat)
        maxDataLen := .ofNat ((payloadLengths recs).foldl
          (fun m l => if m < l then l else m) acc.maxDataLen.toNat) } := by
  induction recs generalizing acc with
  | nil => simp [payloadLengths]
  | cons rec recs ih =>
    have hmin : (acc.count rec).minDataLen.toNat =
        if acc.minDataLen.toNat = 0 ∨ rec.actualLen.toNat < acc.minDataLen.toNat then
          rec.actualLen.toNat else acc.minDataLen.toNat := by
      rw [EndpointAccum.count, apply_ite UInt32.toNat]
      simp only [← UInt32.toNat_inj, UInt32.lt_iff_toNat_lt, UInt32.toNat_zero]
    have hmax : (acc.count rec).maxDataLen.toNat =
        if acc.maxDataLen.toNat < rec.actualLen.toNat then rec.actualLen.toNat
        else acc.maxDataLen.toNat := by
      rw [EndpointAccum.count, apply_ite UInt32.toNat]
      simp only [UInt32.lt_iff_toNat_lt]
    rw [List.foldl_cons, ih, hmin, hmax]
    simp only [EndpointAccum.count, payloadLengths, List.map_cons, List.foldl_cons, List.sum_cons,
      List.length_cons, Nat.add_assoc, Nat.add_comm 1]

/-- The first record makes the accumulator, and counts in it. -/
theorem foldl_count_new (key : EpKey) (rec : Record) (recs : List Record) :
    (rec :: recs).foldl EndpointAccum.count (.new key rec) = accumOf key (rec :: recs) := by
  rw [foldl_count, accumOf, ← foldl_max]
  simp only [EndpointAccum.new, Nat.zero_add]
  rfl

/-- The accumulators of a pass are those of the devices and endpoints that occur. -/
theorem endpointMap_perm (recs : List Record) :
    ((recs.foldl AnalyzeTables.count {}).endpointMap.entries.map fun e => e.2.stat).Perm
      ((pairs recs).map fun p => (accumOf (keyOf p) (ofPair p recs)).stat) := by
  have hmap : ∀ (recs : List Record) (t : AnalyzeTables),
      (recs.foldl AnalyzeTables.count t).endpointMap =
        Table.collect (fun rec => keyOf rec.pair) (fun rec => .new (keyOf rec.pair) rec)
          EndpointAccum.count t.endpointMap recs := by
    intro recs
    induction recs with
    | nil => exact fun _ => rfl
    | cons rec recs ih => exact fun t => ih (t.count rec)
  have hperm := Table.entries_collect_perm (fun rec => keyOf rec.pair)
    (fun rec => EndpointAccum.new (keyOf rec.pair) rec) EndpointAccum.count recs
    (fun key => accumOf key (recs.filter (keyOf ·.pair = key))) fun key rec rest h => by
      have hkey : rec ∈ recs.filter (keyOf ·.pair = key) := h ▸ List.mem_cons_self
      rw [h, of_decide_eq_true (List.mem_filter.mp hkey).2, foldl_count_new]
  have hkeys : (recs.map fun rec => keyOf rec.pair).dedup = (pairs recs).map keyOf := by
    rw [pairs, ← List.dedup_map_of_injective keyOf_injective, List.map_map]
    rfl
  have hfilter : ∀ p, recs.filter (keyOf ·.pair = keyOf p) = ofPair p recs := fun p =>
    List.filter_congr fun rec _ => decide_eq_decide.mpr keyOf_injective.eq_iff
  rw [hmap]
  refine (hperm.map _).trans (List.Perm.of_eq ?_)
  rw [hkeys, List.map_map, List.map_map]
  exact List.map_congr_left fun p _ => by
    simp only [Function.comp_apply, hfilter]

/-- A payload length has 32 bits. -/
theorem lt_of_mem_payloadLengths {recs : List Record} {n : ℕ} (h : n ∈ payloadLengths recs) :
    n < 2 ^ 32 := by
  obtain ⟨rec, -, rfl⟩ := List.mem_map.mp h
  exact rec.actualLen.toNat_lt

/-- The figures that the loop finds: the true ones, up to the minimum. -/
def Figures.found (endpoint : UInt8) (recs : List Record) : Figures :=
  { Figures.of endpoint recs with minDataLen := loopMin (payloadLengths recs) }

/-- The figures of one endpoint are right exactly when no length 0 is forgotten. -/
theorem Figures.found_eq_of_iff (endpoint : UInt8) (recs : List Record) :
    Figures.found endpoint recs = Figures.of endpoint recs ↔ EmptyLast recs := by
  rw [EmptyLast, ← loopMin_eq_min?_iff]
  exact ⟨congrArg Figures.minDataLen, fun h => by rw [found, h]; rfl⟩

/-- The accumulator's figures are those that the loop finds. -/
theorem figures_accumOf (p : UInt16 × UInt8) (recs : List Record) :
    (accumOf (keyOf p) recs).stat.figures = Figures.found p.2 recs := by
  have hmin : loopMin (payloadLengths recs) < 2 ^ 32 := by
    refine @List.foldlRecOn _ _ (· < 2 ^ 32) _ _ _ (Nat.two_pow_pos 32) fun m hm n hn => ?_
    split
    · exact lt_of_mem_payloadLengths hn
    · exact hm
  have hmax : (payloadLengths recs).max?.getD 0 < 2 ^ 32 := by
    cases h : (payloadLengths recs).max? with
    | none => exact Nat.two_pow_pos 32
    | some n => exact lt_of_mem_payloadLengths (List.max?_mem h)
  have havg : (payloadLengths recs).sum / recs.length < 2 ^ 32 := by
    rcases Nat.eq_zero_or_pos recs.length with hzero | hpos
    · rw [hzero, Nat.div_zero]
      exact Nat.two_pow_pos 32
    · have hsum : (payloadLengths recs).sum ≤ (payloadLengths recs).length * (2 ^ 32 - 1) :=
        List.sum_le_card_nsmul _ _ fun n hn => Nat.le_pred_of_lt (lt_of_mem_payloadLengths hn)
      rw [payloadLengths, List.length_map, ← payloadLengths] at hsum
      exact lt_of_le_of_lt (Nat.div_le_of_le_mul hsum) (by decide)
  have havg' : (if 0 < recs.length then
      UInt32.ofNat ((payloadLengths recs).sum / recs.length) else 0).toNat =
        (payloadLengths recs).sum / recs.length := by
    split
    · exact UInt32.toNat_ofNat_of_lt' havg
    · rename_i hzero
      rw [Nat.eq_zero_of_not_pos hzero, Nat.div_zero]
      rfl
  rw [EndpointStat.figures, EndpointAccum.stat, accumOf, Figures.found, Figures.of]
  simp only [Figures.mk.injEq, keyOf, true_and]
  exact ⟨UInt32.toNat_ofNat_of_lt' hmin, UInt32.toNat_ofNat_of_lt' hmax, havg'⟩

/-! ## The result -/

/-- The lines of a result are those of the accumulators. -/
theorem endpoints_perm {order : RangeOrder} {path : String} {contents : List UInt8}
    {deviceAddr : Option UInt16} {a : AnalyzeResult}
    (ha : analyze order path contents deviceAddr = .ok a) :
    let recs := (fileRecords contents).filter (Counted deviceAddr)
    a.endpoints.Perm ((pairs recs).map fun p => (accumOf (keyOf p) (ofPair p recs)).stat) := by
  obtain ⟨r, hr, -, rfl⟩ := analyze_eq_ok_iff.mp ha
  rw [fileRecords_of_ok hr]
  refine List.Perm.trans ?_ (endpointMap_perm _)
  rw [← tables_foldl_analyzeBody deviceAddr r.readAll.1 {}, AnalyzeState.result]
  split
  · rename_i hempty
    rw [List.eq_nil_of_length_eq_zero hempty]
    exact .nil
  · exact (List.mergeSort_perm _ _).trans ((order.perm _).map _)

/-- The figures of a result are those that the loop finds. -/
theorem figures_perm {order : RangeOrder} {path : String} {contents : List UInt8}
    {deviceAddr : Option UInt16} {a : AnalyzeResult}
    (ha : analyze order path contents deviceAddr = .ok a) :
    let recs := (fileRecords contents).filter (Counted deviceAddr)
    (a.endpoints.map EndpointStat.figures).Perm
      ((pairs recs).map fun p => Figures.found p.2 (ofPair p recs)) := by
  refine ((endpoints_perm ha).map _).trans (List.Perm.of_eq ?_)
  rw [List.map_map]
  exact List.map_congr_left fun p _ => figures_accumOf p _

/-- The figures of a result are true exactly when no length 0 is forgotten. -/
theorem trueStatistics_iff {order : RangeOrder} {path : String} {contents : List UInt8}
    {deviceAddr : Option UInt16} {a : AnalyzeResult}
    (ha : analyze order path contents deviceAddr = .ok a) :
    a.TrueStatistics ((fileRecords contents).filter (Counted deviceAddr)) ↔
      ∀ p, EmptyLast (ofPair p ((fileRecords contents).filter (Counted deviceAddr))) := by
  have hperm := figures_perm ha
  generalize (fileRecords contents).filter (Counted deviceAddr) = recs at hperm ⊢
  constructor
  · intro htrue p hzero
    by_contra hlast
    obtain ⟨rec, hrec, -⟩ := List.mem_map.mp hzero
    -- the sum of the minima tells the two lists apart
    have hsum := ((hperm.symm.trans htrue).map Figures.minDataLen).sum_eq
    rw [List.map_map, List.map_map] at hsum
    refine absurd hsum.symm (ne_of_lt (List.sum_lt_sum _ _ (fun q _ => min?_le_loopMin _)
      ⟨p, mem_pairs hrec, ?_⟩))
    exact lt_of_le_of_ne (min?_le_loopMin _) fun heq =>
      hlast ((loopMin_eq_min?_iff _).mp heq.symm hzero)
  · intro hlast
    exact hperm.trans (List.Perm.of_eq (List.map_congr_left fun p _ =>
      (Figures.found_eq_of_iff p.2 _).mpr (hlast p)))

/-! ## The order of the records -/

/-- The records with the property come first. -/
def promote (q : Record → Bool) (recs : List Record) : List Record :=
  recs.filter q ++ recs.filter (!q ·)

/-- Moving some records to the front only changes the order. -/
theorem promote_perm (q : Record → Bool) (recs : List Record) : (promote q recs).Perm recs :=
  List.filter_append_perm q recs

/-- It does not matter whether they are counted before or after. -/
theorem filter_promote (c q : Record → Bool) (recs : List Record) :
    (promote q recs).filter c = promote q (recs.filter c) := by
  rw [promote, promote, List.filter_append, List.filter_comm, List.filter_comm c]

/-- Nor whether they are of one endpoint. -/
theorem ofPair_promote (p : UInt16 × UInt8) (q : Record → Bool) (recs : List Record) :
    ofPair p (promote q recs) = promote q (ofPair p recs) :=
  filter_promote _ q recs

/-- What `Analyze` returns for some file with the records of `contents` in another order. -/
def Reordered (deviceAddr : Option UInt16) (contents : List UInt8) (a : AnalyzeResult) : Prop :=
  ∃ order path contents', analyze order path contents' deviceAddr = .ok a ∧
    (fileRecords contents').Perm (fileRecords contents)

/-- Records of a file can be promoted. -/
theorem exists_promoted (q : Record → Bool) (deviceAddr : Option UInt16) (contents : List UInt8)
    (order : RangeOrder) (path : String) :
    ∃ contents' a, analyze order path contents' deviceAddr = .ok a ∧
      Reordered deviceAddr contents a ∧
      fileRecords contents' = promote q (fileRecords contents) := by
  have hperm := promote_perm q (fileRecords contents)
  obtain ⟨contents', a, ha, hrecs⟩ := @exists_analyze (promote q (fileRecords contents))
    (fun rec hrec => decoded_of_mem_fileRecords (hperm.mem_iff.mp hrec)) order path deviceAddr
  exact ⟨contents', a, ha, ⟨order, path, contents', ha, by rwa [hrecs]⟩, hrecs⟩

/-- The payload lengths go with the records. -/
theorem payloadLengths_perm {recs recs' : List Record} (h : recs.Perm recs') :
    (payloadLengths recs).Perm (payloadLengths recs') :=
  h.map _

/-- The true figures do not depend on the order. -/
theorem Figures.of_perm (endpoint : UInt8) {recs recs' : List Record} (h : recs.Perm recs') :
    Figures.of endpoint recs = Figures.of endpoint recs' := by
  have hlengths := payloadLengths_perm h
  have hmin : (payloadLengths recs).min? = (payloadLengths recs').min? := by
    cases hm : (payloadLengths recs').min? with
    | none =>
      rw [List.min?_eq_none_iff] at hm ⊢
      exact (hm ▸ hlengths).eq_nil
    | some m =>
      rw [List.min?_eq_some_iff] at hm ⊢
      exact ⟨hlengths.mem_iff.mpr hm.1, fun n hn => hm.2 n (hlengths.mem_iff.mp hn)⟩
  have hmax : (payloadLengths recs).max? = (payloadLengths recs').max? := by
    cases hm : (payloadLengths recs').max? with
    | none =>
      rw [List.max?_eq_none_iff] at hm ⊢
      exact (hm ▸ hlengths).eq_nil
    | some m =>
      rw [List.max?_eq_some_iff] at hm ⊢
      exact ⟨hlengths.mem_iff.mpr hm.1, fun n hn => hm.2 n (hlengths.mem_iff.mp hn)⟩
  rw [of, of, h.length_eq, hlengths.sum_eq, hmin, hmax]

/-- So do the records of one endpoint. -/
theorem ofPair_perm (p : UInt16 × UInt8) {recs recs' : List Record} (h : recs.Perm recs') :
    (ofPair p recs).Perm (ofPair p recs') :=
  h.filter _

/-- And the endpoints that occur. -/
theorem pairs_perm {recs recs' : List Record} (h : recs.Perm recs') :
    (pairs recs).Perm (pairs recs') :=
  (h.map _).dedup

/-- The true figures do not depend on the order. -/
theorem trueFigures_perm {recs recs' : List Record} (h : recs.Perm recs') :
    ((pairs recs).map fun p => Figures.of p.2 (ofPair p recs)).Perm
      ((pairs recs').map fun p => Figures.of p.2 (ofPair p recs')) := by
  refine ((pairs_perm h).map _).trans (List.Perm.of_eq ?_)
  exact List.map_congr_left fun p _ => Figures.of_perm p.2 (ofPair_perm p h)

/-- Where all payloads are empty, so is the last one. -/
theorem AllOrNoneEmpty.emptyLast {recs : List Record} (h : AllOrNoneEmpty recs) :
    EmptyLast recs := by
  intro hzero
  rcases h with hall | hnone
  · rw [List.getLast?_eq_some_getLast (List.ne_nil_of_mem hzero), Option.some_inj]
    exact hall _ (List.getLast_mem _)
  · exact absurd hzero hnone

/-- This does not depend on the order. -/
theorem AllOrNoneEmpty.perm {recs recs' : List Record} (h : AllOrNoneEmpty recs)
    (hperm : recs.Perm recs') : AllOrNoneEmpty recs' := by
  have hlengths := payloadLengths_perm hperm
  exact h.imp (fun hall n hn => hall n (hlengths.mem_iff.mpr hn)) fun hnone hzero =>
    hnone (hlengths.mem_iff.mpr hzero)

/-- A promoted record comes first. -/
theorem head?_promote {q : Record → Bool} {recs : List Record} {rec : Record} (hrec : rec ∈ recs)
    (hq : q rec = true) : ∃ fst, q fst = true ∧ (promote q recs).head? = some fst := by
  have hne : recs.filter q ≠ [] := List.ne_nil_of_mem (List.mem_filter.mpr ⟨hrec, hq⟩)
  refine ⟨(recs.filter q).head hne, (List.mem_filter.mp (List.head_mem hne)).2, ?_⟩
  rw [promote, List.head?_append_of_ne_nil _ hne, List.head?_eq_some_head]

/-- Behind the promoted records, the last one is without the property. -/
theorem getLast?_promote {q : Record → Bool} {recs : List Record} {rec : Record}
    (hrec : rec ∈ recs) (hq : q rec = false) :
    ∃ last, q last = false ∧ (promote q recs).getLast? = some last := by
  have hne : recs.filter (!q ·) ≠ [] :=
    List.ne_nil_of_mem (List.mem_filter.mpr ⟨hrec, by rw [hq, Bool.not_false]⟩)
  refine ⟨(recs.filter (!q ·)).getLast hne, ?_, ?_⟩
  · have hlast := (List.mem_filter.mp (List.getLast_mem hne)).2
    rwa [Bool.not_eq_true'] at hlast
  · rw [promote, List.getLast?_append_of_ne_nil _ hne, List.getLast?_eq_some_getLast]

/-- With the empty payloads last, no length 0 is forgotten. -/
theorem emptyLast_promote (recs : List Record) :
    EmptyLast (promote (fun rec => rec.actualLen ≠ 0) recs) := by
  intro hzero
  obtain ⟨rec, hrec, hlen⟩ := List.mem_map.mp hzero
  obtain ⟨last, hlast, hget⟩ := getLast?_promote (q := fun rec => rec.actualLen ≠ 0)
    ((promote_perm _ recs).mem_iff.mp hrec)
    (decide_eq_false (not_not.mpr (UInt32.toNat_inj.mp hlen)))
  rw [payloadLengths, List.getLast?_map, hget, Option.map_some,
    not_not.mp (of_decide_eq_false hlast), UInt32.toNat_zero]

/-- With the empty payloads first, a length 0 is forgotten unless all or none are 0. -/
theorem allOrNoneEmpty_of_promote {recs : List Record}
    (h : EmptyLast (promote (fun rec => rec.actualLen = 0) recs)) : AllOrNoneEmpty recs := by
  by_contra hmixed
  obtain ⟨hall, hnone⟩ := not_or.mp hmixed
  rw [not_forall] at hall
  obtain ⟨n, hn⟩ := hall
  obtain ⟨hmem, hpos⟩ := Classical.not_imp.mp hn
  obtain ⟨rec, hrec, rfl⟩ := List.mem_map.mp hmem
  obtain ⟨last, hlast, hget⟩ := getLast?_promote (q := fun rec => rec.actualLen = 0) hrec
    (decide_eq_false fun hzero => hpos (congrArg UInt32.toNat hzero))
  have hzero := h ((payloadLengths_perm (promote_perm _ recs)).mem_iff.mpr (not_not.mp hnone))
  rw [payloadLengths, List.getLast?_map, hget, Option.map_some, Option.some_inj] at hzero
  exact of_decide_eq_false hlast (UInt32.toNat_inj.mp hzero)

/-- The figures do not depend on the order exactly when the payloads of no device and endpoint are
partly empty. -/
theorem figures_reordered_iff {order : RangeOrder} {path : String} {contents : List UInt8}
    {deviceAddr : Option UInt16} {a : AnalyzeResult}
    (ha : analyze order path contents deviceAddr = .ok a) :
    (∀ a', Reordered deviceAddr contents a' →
        (a'.endpoints.map EndpointStat.figures).Perm (a.endpoints.map EndpointStat.figures)) ↔
      ∀ p, AllOrNoneEmpty (ofPair p ((fileRecords contents).filter (Counted deviceAddr))) := by
  constructor
  · intro h p
    -- the true figures in one order, and so in the order that forgets every length 0
    obtain ⟨contents₁, a₁, ha₁, hr₁, hrecs₁⟩ :=
      exists_promoted (fun rec => rec.actualLen ≠ 0) deviceAddr contents order path
    obtain ⟨contents₂, a₂, ha₂, hr₂, hrecs₂⟩ :=
      exists_promoted (fun rec => rec.actualLen = 0) deviceAddr contents order path
    have htrue₁ := (trueStatistics_iff ha₁).mpr fun q => by
      rw [hrecs₁, filter_promote, ofPair_promote]
      exact emptyLast_promote _
    have hrecs : (fileRecords contents₁).Perm (fileRecords contents₂) := by
      rw [hrecs₁, hrecs₂]
      exact (promote_perm _ _).trans (promote_perm _ _).symm
    have htrue₂ : a₂.TrueStatistics ((fileRecords contents₂).filter (Counted deviceAddr)) :=
      ((h a₂ hr₂).trans (h a₁ hr₁).symm).trans (htrue₁.trans (trueFigures_perm (hrecs.filter _)))
    have hlast := (trueStatistics_iff ha₂).mp htrue₂ p
    rw [hrecs₂, filter_promote, ofPair_promote] at hlast
    exact allOrNoneEmpty_of_promote hlast
  · rintro h a' ⟨order', path', contents', ha', hperm⟩
    have hrecs := hperm.filter (Counted deviceAddr)
    have htrue := (trueStatistics_iff ha).mpr fun p => (h p).emptyLast
    have htrue' := (trueStatistics_iff ha').mpr fun p =>
      ((h p).perm (ofPair_perm p hrecs.symm)).emptyLast
    exact (htrue'.trans (trueFigures_perm hrecs)).trans htrue.symm

/-- The figures, the direction and the transfer type make up a line of the result. -/
theorem EndpointStat.eq_of_figures {e e' : EndpointStat} (hfigures : e.figures = e'.figures)
    (hdirection : e.direction = e'.direction) (htype : e.transferType = e'.transferType) :
    e = e' := by
  obtain ⟨hep, hcount, hbytes, hmin, hmax, havg⟩ := Figures.mk.inj hfigures
  cases e
  cases e'
  simp only [EndpointStat.mk.injEq]
  exact ⟨hep, hdirection, htype, hcount, hbytes, UInt32.toNat_inj.mp hmin, UInt32.toNat_inj.mp hmax,
    UInt32.toNat_inj.mp havg⟩

/-- The transfer type of an accumulator is that of its first record. -/
theorem transferType_accumOf (key : EpKey) {recs : List Record} {rec : Record}
    (h : recs.head? = some rec) :
    (accumOf key recs).stat.transferType = transferTypeName rec.transfer := by
  rw [EndpointAccum.stat, accumOf, h]
  rfl

/-- The direction is that of the first record. -/
theorem direction_accumOf (key : EpKey) {recs : List Record} {rec : Record}
    (h : recs.head? = some rec) :
    (accumOf key recs).stat.direction = if rec.endpoint &&& 0x80 ≠ 0 then "IN" else "OUT" := by
  rw [EndpointAccum.stat, accumOf, h]
  rfl

/-- An endpoint that occurs has a first record. -/
theorem exists_head_ofPair {p : UInt16 × UInt8} {recs : List Record} (hp : p ∈ pairs recs) :
    ∃ rec, (ofPair p recs).head? = some rec ∧ rec.endpoint = p.2 := by
  obtain ⟨rec, hrec, hpair⟩ := List.mem_map.mp (List.mem_dedup.mp hp)
  have hmem : rec ∈ ofPair p recs := mem_ofPair.mpr ⟨hrec, hpair⟩
  obtain ⟨fst, hfst⟩ := Option.ne_none_iff_exists'.mp
    (mt List.head?_eq_none_iff.mp (List.ne_nil_of_mem hmem))
  exact ⟨fst, hfst, congrArg Prod.snd (mem_ofPair.mp (List.mem_of_head? hfst)).2⟩

/-- The line of a device and an endpoint does not depend on the order of the records. -/
theorem stat_accumOf_perm {p : UInt16 × UInt8} {recs recs' : List Record}
    (hp : p ∈ pairs recs) (h : recs.Perm recs') (hempty : AllOrNoneEmpty (ofPair p recs))
    (htype : OneTransferType (ofPair p recs)) :
    (accumOf (keyOf p) (ofPair p recs)).stat = (accumOf (keyOf p) (ofPair p recs')).stat := by
  have hperm := ofPair_perm p h
  have hp' : p ∈ pairs recs' := (pairs_perm h).mem_iff.mp hp
  obtain ⟨fst, hfst, hendpoint⟩ := exists_head_ofPair hp
  obtain ⟨fst', hfst', hendpoint'⟩ := exists_head_ofPair hp'
  have hin := List.mem_of_head? hfst
  have hin' := hperm.mem_iff.mpr (List.mem_of_head? hfst')
  apply EndpointStat.eq_of_figures
  · rw [figures_accumOf, figures_accumOf, (Figures.found_eq_of_iff _ _).mpr hempty.emptyLast,
      (Figures.found_eq_of_iff _ _).mpr (hempty.perm hperm).emptyLast, Figures.of_perm _ hperm]
  · rw [direction_accumOf _ hfst, direction_accumOf _ hfst', hendpoint, hendpoint']
  · rw [transferType_accumOf _ hfst, transferType_accumOf _ hfst']
    exact htype fst hin fst' hin'

/-- The line of a device and endpoint shows the transfer type `t`. -/
def ShowsType (t : String) (recs : List Record) (p : UInt16 × UInt8) : Bool :=
  (accumOf (keyOf p) (ofPair p recs)).stat.transferType = t

/-- With the records of transfer type `t` first, every line that can shows it. -/
theorem showsType_promote {t : String} {recs : List Record} {p : UInt16 × UInt8} {rec : Record}
    (hrec : rec ∈ ofPair p recs) (ht : transferTypeName rec.transfer = t) :
    ShowsType t (promote (transferTypeName ·.transfer = t) recs) p = true := by
  obtain ⟨fst, hfst, hhead⟩ := head?_promote (q := (transferTypeName ·.transfer = t)) hrec
    (decide_eq_true ht)
  rw [ShowsType, ofPair_promote, transferType_accumOf _ hhead]
  exact hfst

/-- With the records of transfer type `t` last, only a line that has to shows it. -/
theorem transferTypeName_of_showsType {t : String} {recs : List Record} {p : UInt16 × UInt8}
    (h : ShowsType t (promote (transferTypeName ·.transfer ≠ t) recs) p = true) {rec : Record}
    (hrec : rec ∈ ofPair p recs) : transferTypeName rec.transfer = t := by
  by_contra hne
  obtain ⟨fst, hfst, hhead⟩ := head?_promote (q := (transferTypeName ·.transfer ≠ t)) hrec
    (decide_eq_true hne)
  rw [ShowsType, ofPair_promote, transferType_accumOf _ hhead] at h
  exact of_decide_eq_true hfst (of_decide_eq_true h)

/-- A line that shows `t` with the records of that type last shows it with them first. -/
theorem showsType_of_showsType {t : String} {recs : List Record} {p : UInt16 × UInt8}
    (h : ShowsType t (promote (transferTypeName ·.transfer ≠ t) recs) p = true) :
    ShowsType t (promote (transferTypeName ·.transfer = t) recs) p = true := by
  cases hrecs : ofPair p recs with
  | nil =>
    rw [ShowsType, ofPair_promote, hrecs] at h ⊢
    exact h
  | cons rec rest =>
    have hrec : rec ∈ ofPair p recs := hrecs ▸ List.mem_cons_self
    exact showsType_promote hrec (transferTypeName_of_showsType h hrec)

/-- The lines that show `t`, counted over the devices and endpoints. -/
theorem countP_transferType {order : RangeOrder} {path : String} {contents : List UInt8}
    {deviceAddr : Option UInt16} {a : AnalyzeResult}
    (ha : analyze order path contents deviceAddr = .ok a) (t : String) :
    a.endpoints.countP (·.transferType = t) =
      (pairs ((fileRecords contents).filter (Counted deviceAddr))).countP
        (ShowsType t ((fileRecords contents).filter (Counted deviceAddr))) := by
  rw [(endpoints_perm ha).countP_eq, List.countP_map]
  rfl

/-- The lines of a result depend on no order exactly when, moreover, no device and endpoint has
records of two transfer types. -/
theorem endpoints_reordered_iff {order : RangeOrder} {path : String} {contents : List UInt8}
    {deviceAddr : Option UInt16} {a : AnalyzeResult}
    (ha : analyze order path contents deviceAddr = .ok a) :
    (∀ a', Reordered deviceAddr contents a' → a'.endpoints.Perm a.endpoints) ↔
      ∀ p, AllOrNoneEmpty (ofPair p ((fileRecords contents).filter (Counted deviceAddr))) ∧
        OneTransferType (ofPair p ((fileRecords contents).filter (Counted deviceAddr))) := by
  constructor
  · intro h p
    refine ⟨(figures_reordered_iff ha).mp (fun a' ha' => (h a' ha').map _) p, ?_⟩
    intro rec hrec rec' hrec'
    let t := transferTypeName rec.transfer
    obtain ⟨contents₁, a₁, ha₁, hr₁, hrecs₁⟩ :=
      exists_promoted (transferTypeName ·.transfer = t) deviceAddr contents order path
    obtain ⟨contents₂, a₂, ha₂, hr₂, hrecs₂⟩ :=
      exists_promoted (transferTypeName ·.transfer ≠ t) deviceAddr contents order path
    have hcount := ((h a₂ hr₂).trans (h a₁ hr₁).symm).countP_eq fun e => e.transferType = t
    rw [countP_transferType ha₁, countP_transferType ha₂, hrecs₁, hrecs₂, filter_promote,
      filter_promote, (pairs_perm (promote_perm _ _)).countP_eq,
      (pairs_perm (promote_perm _ _)).countP_eq, List.countP_eq_length_filter,
      List.countP_eq_length_filter] at hcount
    -- the lines that show `t` are the same in both orders
    have hsame := (List.monotone_filter_right _ fun p => showsType_of_showsType).eq_of_length hcount
    have hmem := List.mem_filter.mpr ⟨mem_pairs hrec, showsType_promote hrec rfl⟩
    rw [← hsame] at hmem
    exact (transferTypeName_of_showsType (List.mem_filter.mp hmem).2 hrec').symm
  · rintro h a' ⟨order', path', contents', ha', hperm⟩
    have hrecs := hperm.symm.filter (Counted deviceAddr)
    refine (endpoints_perm ha').trans (.trans ?_ (endpoints_perm ha).symm)
    refine (((pairs_perm hrecs).symm.map _).trans (List.Perm.of_eq ?_))
    exact List.map_congr_left fun p hp => (stat_accumOf_perm hp hrecs (h p).1 (h p).2).symm

/-- **The statistics of an endpoint are the true ones as long as no length 0 is forgotten.** For
every file that `Analyze` accepts and every filter: the figures are those of the counted records
exactly when, for every device and endpoint with an empty payload, the last payload is empty; they
do not depend on the order of the records exactly when no device and endpoint has both empty and
other payloads; and neither do the whole lines exactly when, moreover, no device and endpoint has
records of two transfer types. -/
theorem statistics_true_iff {order : RangeOrder} {path : String} {contents : List UInt8}
    {deviceAddr : Option UInt16} {a : AnalyzeResult}
    (ha : analyze order path contents deviceAddr = .ok a) :
    let recs := (fileRecords contents).filter (Counted deviceAddr)
    (a.TrueStatistics recs ↔ ∀ p, EmptyLast (ofPair p recs)) ∧
    ((∀ a', Reordered deviceAddr contents a' →
        (a'.endpoints.map EndpointStat.figures).Perm (a.endpoints.map EndpointStat.figures)) ↔
      ∀ p, AllOrNoneEmpty (ofPair p recs)) ∧
    ((∀ a', Reordered deviceAddr contents a' → a'.endpoints.Perm a.endpoints) ↔
      ∀ p, AllOrNoneEmpty (ofPair p recs) ∧ OneTransferType (ofPair p recs)) :=
  ⟨trueStatistics_iff ha, figures_reordered_iff ha, endpoints_reordered_iff ha⟩

/-- The lengths 1 and 0 of the bulk endpoint end with the 0, so the figures are the true ones, but
in another order they would not be. -/
theorem statistics_true_iff_mixed :
    ∃ a, analyze entryOrder "mixed.pcap" mixedCapture none = .ok a ∧
      (a.endpoints.map EndpointStat.figures).Perm
        [⟨"0x02", 1, 3, 3, 3, 3⟩, ⟨"0x81", 2, 1, 0, 1, 0⟩] ∧
      a.TrueStatistics ((fileRecords mixedCapture).filter (Counted none)) ∧
      ¬ ∀ a', Reordered none mixedCapture a' →
        (a'.endpoints.map EndpointStat.figures).Perm (a.endpoints.map EndpointStat.figures) := by
  obtain ⟨r, hr, heof⟩ := accepted_mixed
  have ha : analyze entryOrder "mixed.pcap" mixedCapture none = .ok _ :=
    analyze_eq_ok_iff.mpr ⟨r, hr, heof, rfl⟩
  have hfigures := figures_perm ha
  obtain ⟨htrue, horder, -⟩ := statistics_true_iff ha
  rw [fileRecords_mixed] at hfigures htrue horder ⊢
  have hlengths : payloadLengths (ofPair (2, 0x81)
      (([outRecord, bulkRecord, emptyRecord].map decodeRecord).filter (Counted none))) =
        [1, 0] := by
    decide +kernel
  refine ⟨_, ha, hfigures.trans (List.Perm.of_eq (by decide +kernel)),
    htrue.mpr fun p hzero => ?last, mt horder.mp fun hall => ?both⟩
  case both =>
    have hboth := hall (2, 0x81)
    rw [AllOrNoneEmpty, hlengths] at hboth
    exact absurd hboth (by decide)
  obtain ⟨rec, hrec, hlen⟩ := List.mem_map.mp hzero
  obtain ⟨hmem, rfl⟩ := mem_ofPair.mp hrec
  rcases List.mem_map.mp (List.mem_filter.mp hmem).1 with ⟨record, hrecord, rfl⟩
  -- only the last record has no payload
  rcases List.mem_cons.mp hrecord with rfl | hrecord
  · exact absurd hlen (by decide)
  rcases List.mem_cons.mp hrecord with rfl | hrecord
  · exact absurd hlen (by decide)
  · obtain rfl := List.mem_singleton.mp hrecord
    decide

/-- The lengths 0 and 1, in this order, have the minimum 1. -/
theorem forgets_emptyRecord :
    ∃ a, analyze entryOrder "bulk.pcap" (plainHeader ++ (emptyRecord ++ bulkRecord)) none = .ok a ∧
      a.endpoints.map EndpointStat.figures = [⟨"0x81", 2, 1, 1, 1, 0⟩] ∧
      ¬ a.TrueStatistics
        ((fileRecords (plainHeader ++ (emptyRecord ++ bulkRecord))).filter (Counted none)) := by
  have hopen : openReader (plainHeader ++ (emptyRecord ++ bulkRecord)) =
      .ok ⟨emptyRecord ++ bulkRecord, .ofBytes plainHeader, 111⟩ := by decide
  have hempty : (Reader.mk (emptyRecord ++ bulkRecord) (.ofBytes plainHeader) 111).next =
      (.ok (recordOf (.ofBytes (emptyRecord.take 16)) (emptyRecord.drop 16)),
        ⟨bulkRecord, .ofBytes plainHeader, 111⟩) := by decide
  have hall := (Reader.readAll_of_ok hempty).trans (by rw [readAll_bulkRecord])
  have ha : analyze entryOrder "bulk.pcap" (plainHeader ++ (emptyRecord ++ bulkRecord)) none =
      .ok _ := analyze_eq_ok_iff.mpr ⟨_, hopen, by rw [hall]; rfl, rfl⟩
  have hrecs := (fileRecords_of_ok hopen).trans (congrArg Prod.fst hall)
  have hfigures := figures_perm ha
  refine ⟨_, ha, ?_, fun htrue => ?_⟩
  · rw [hrecs] at hfigures
    exact List.perm_singleton.mp (hfigures.trans (List.Perm.of_eq (by decide)))
  · have hlast := (trueStatistics_iff ha).mp htrue (2, 0x81)
    rw [hrecs] at hlast
    exact absurd (hlast (by decide)) (by decide)

end UsbPcap.Pcap
