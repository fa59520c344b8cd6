import Mathlib.Data.String.Basic
import UsbPcap.Service.DataRequests

/-!
# Exports

`handleExportData` narrows the device address to 16 bits and has `parseEndpoint` read the endpoint
that `normalizeHex` has normalised. Where that fails, `ExportPayload` does not filter by endpoint.
`export_exact_iff` says for which requests the export is nevertheless the one asked for.
-/

namespace UsbPcap.Service

open CText Pcap
open Server (trimSpace)

/-! ## `handleExportData` -/

/-- The arguments of `ExportPayload`, beside the path. -/
def DataRequest.exportQuery (req : DataRequest) : ExportQuery where
  deviceAddress :=
    match req.deviceAddress with
    | some a => .ofInt a
    | none => 0
  endpoint := req.endpoint
  minDataLen := req.minDataLen

/-- The refusal of a file that cannot be exported. -/
def exportFailed (err : String) : Refusal :=
  errorResponse "export_failed" "EXPORT_FAILED" err
    "Verify the pcap file is valid and contains packets for the specified device+endpoint."

/-- `handleExportData`, up to what `ExportPayload` returns; with the path of the capture. -/
def exportedPayloads (env : FileSurroundings) (req : DataRequest) :
    Except Refusal (String × List String) :=
  if req.endpoint = "" then
    .error (errorResponse "invalid_request" "ENDPOINT_REQUIRED" "endpoint is required for export"
      "Specify the target endpoint (e.g. 0x81).")
  else
    match admitPath env req.pcapPath with
    | .error refusal => .error refusal
    | .ok pcapPath =>
      match env.readFile pcapPath with
      | .error err => .error (exportFailed err)
      | .ok contents =>
        match exportPayload contents req.exportQuery with
        | .error err => .error (exportFailed err.message)
        | .ok payloads => .ok (pcapPath, payloads)

/-- One line of a CSV export. -/
def csvLine (payload : String) (i : ℕ) : String :=
  toString i ++ "," ++ payload ++ "," ++ toString (payload.utf8ByteSize / 2) ++ "\n"

/-- The export in a format; `hex` is the default, also for an unknown format. -/
def exportContent (format : String) (payloads : List String) : String :=
  if format = "csv" then
    "index,payload_hex,payload_length\n" ++ .join (payloads.zipIdx.map fun p => csvLine p.1 p.2)
  else if format = "raw" then .join payloads
  else "\n".intercalate payloads

/-- The response to an export. Where there is an `exportPath`, `exportContent` is written to it. -/
structure ExportResponse where
  message : String
  pcapPath : String
  exportContent : String
  exportPath : String
deriving DecidableEq, Repr

/-- `handleExportData` -/
def handleExportData (env : FileSurroundings) (req : DataRequest) :
    Except Refusal ExportResponse :=
  match exportedPayloads env req with
  | .error refusal => .error refusal
  | .ok (pcapPath, payloads) => .ok
    { message := "Exported " ++ toString payloads.length ++ " payload(s) from " ++
        env.base pcapPath
      pcapPath := pcapPath
      exportContent := exportContent req.format payloads
      exportPath :=
        if req.outputFileName ≠ "" ∧ env.mkdirExports then
          env.exportPath (env.base req.outputFileName)
        else "" }

/-! ## What a request asks for -/

/-- The records whose payload the request asks for, with the device address `a`. -/
def DataRequest.AsksFor (req : DataRequest) (a : ℤ) (rec : Record) : Bool :=
  OfDevice a rec && (denotedEndpoint req.endpoint).any (rec.endpoint = ·) &&
    req.minDataLen.toNat ≤ rec.payload.length

/-- The payloads that the request asks for. -/
def DataRequest.requested (req : DataRequest) (a : ℤ) (recs : List Record) : List String :=
  (recs.filter (req.AsksFor a)).map fun rec => hexBytes rec.payload

/-- Whenever the normalised request is accepted, the payloads are those that the request asks for,
cut only by the caps. -/
def DataRequest.ExportsExactly (req : DataRequest) (a : ℤ) : Prop :=
  ∀ env pcapPath contents payloads, env.readFile pcapPath = .ok contents →
    exportedPayloads env req.normalize = .ok (pcapPath, payloads) →
    CutAtCaps payloads (req.requested a (fileRecords contents))

/-- The text is one or two hexadecimal digits, apart from blanks around it and a prefix `0x`. -/
def IsShortHex (s : String) : Prop := (readHex s).isSome ∧ (hexText s).length ≤ 2

/-! ## The two readers of an endpoint -/

/-- The digits of an endpoint are the hexadecimal ones. -/
theorem endpointDigit_eq (c : Char) : endpointDigit c = (hexDigit c).map UInt8.ofNat := by
  unfold endpointDigit hexDigit
  split_ifs <;> rfl

/-- `parseEndpoint` and `ParseUint` read the same digits, the one modulo 256. -/
theorem parseEndpointDigits_eq (n : ℕ) (cs : List Char) :
    parseEndpointDigits (.ofNat n) cs = (parseHexDigits n cs).map UInt8.ofNat := by
  induction cs generalizing n with
  | nil => rfl
  | cons c cs ih =>
    rw [parseEndpointDigits, parseHexDigits, endpointDigit_eq]
    cases hexDigit c with
    | none => rfl
    | some d =>
      have hstep : UInt8.ofNat n * 16 + .ofNat d = .ofNat (16 * n + d) := by
        rw [UInt8.ofNat_add, UInt8.ofNat_mul, UInt8.mul_comm]
        rfl
      rw [Option.map_some]
      dsimp only
      rw [hstep]
      exact ih _

/-- What `ParseUint` reads are digits. -/
theorem hexDigit_of_parse {n m : ℕ} {cs : List Char} (h : parseHexDigits n cs = some m) :
    ∀ c ∈ cs, ∃ d, hexDigit c = some d := by
  induction cs generalizing n with
  | nil => exact fun c hc => absurd hc List.not_mem_nil
  | cons c cs ih =>
    rw [parseHexDigits] at h
    cases hd : hexDigit c with
    | none =>
      rw [hd] at h
      cases h
    | some d =>
      rw [hd] at h
      exact List.forall_mem_cons.mpr ⟨⟨d, hd⟩, ih h⟩

/-- A digit stands for less than sixteen. -/
theorem hexDigit_lt {c : Char} {d : ℕ} (h : hexDigit c = some d) : d < 16 := by
  have hall : ∀ n < 128, ∀ d ∈ hexDigit (Char.ofNat n), d < 16 := by decide
  have hc := hall c.toNat (lt_of_hexDigit h)
  rw [Char.ofNat_toNat] at hc
  exact hc d h

/-- A text of `k` digits stands for less than `16 ^ k`. -/
theorem parseHexDigits_lt {n m : ℕ} {cs : List Char} (h : parseHexDigits n cs = some m) :
    m < (n + 1) * 16 ^ cs.length := by
  induction cs generalizing n with
  | nil =>
    obtain rfl := Option.some.inj h
    simp
  | cons c cs ih =>
    rw [parseHexDigits] at h
    cases hd : hexDigit c with
    | none =>
      rw [hd] at h
      cases h
    | some d =>
      rw [hd] at h
      have hlt := hexDigit_lt hd
      calc m < (16 * n + d + 1) * 16 ^ cs.length := ih h
        _ ≤ ((n + 1) * 16) * 16 ^ cs.length := Nat.mul_le_mul_right _ (by omega)
        _ = (n + 1) * 16 ^ (c :: cs).length := by
          rw [List.length_cons, Nat.pow_succ', Nat.mul_assoc]

/-- The case of the digits does not matter. -/
theorem parseHexDigits_toLower {n m : ℕ} {cs : List Char} (h : parseHexDigits n cs = some m) :
    parseHexDigits n (cs.map Char.toLower) = some m := by
  have hall : ∀ n < 128, hexDigit (Char.ofNat n) ≠ none →
      hexDigit (Char.ofNat n).toLower = hexDigit (Char.ofNat n) := by decide
  induction cs generalizing n with
  | nil => exact h
  | cons c cs ih =>
    rw [parseHexDigits] at h
    cases hd : hexDigit c with
    | none =>
      rw [hd] at h
      cases h
    | some d =>
      have hlower := hall c.toNat (lt_of_hexDigit hd)
      rw [Char.ofNat_toNat, hd] at hlower
      rw [hd] at h
      rw [List.map_cons, parseHexDigits, hlower (Option.some_ne_none d)]
      exact ih h

/-- Digits are single bytes. -/
theorem utf8Len_of_parse {n m : ℕ} {cs : List Char} (h : parseHexDigits n cs = some m) :
    String.utf8Len cs = cs.length := by
  have hdigits := hexDigit_of_parse h
  clear h
  induction cs with
  | nil => rfl
  | cons c cs ih =>
    obtain ⟨⟨d, hd⟩, hcs⟩ := List.forall_mem_cons.mp hdigits
    have hsize : c.utf8Size = 1 := by
      rw [Char.utf8Size_eq_one_iff, UInt32.le_iff_toNat_le]
      exact Nat.le_of_lt_succ (lt_of_hexDigit hd)
    rw [String.utf8Len_cons, ih hcs, hsize, List.length_cons]

/-- No character has less than a byte. -/
theorem length_le_utf8Len (cs : List Char) : cs.length ≤ String.utf8Len cs := by
  induction cs with
  | nil => exact Nat.le_refl 0
  | cons c cs ih =>
    rw [List.length_cons, String.utf8Len_cons]
    exact Nat.add_le_add ih c.utf8Size_pos

/-! ## What `parseEndpoint` reads -/

/-- `raw` is `t`, or what is left of it behind a prefix. -/
def Unprefixed (t raw : List Char) : Prop :=
  t = raw ∨ t = '0' :: 'x' :: raw ∨ t = '0' :: 'X' :: raw

/-- `parseEndpoint` reads one or two digits. -/
theorem parseEndpoint_some {t : String} {v : UInt8} (h : parseEndpoint t = some v) :
    ∃ raw n, Unprefixed t.toList raw ∧ raw ≠ [] ∧ raw.length ≤ 2 ∧
      parseHexDigits 0 raw = some n ∧ v = .ofNat n := by
  have hread : ∀ raw, parseEndpointDigits 0 raw = some v →
      ∃ n, parseHexDigits 0 raw = some n ∧ v = .ofNat n := fun raw hraw => by
    obtain ⟨n, hn, hv⟩ := Option.map_eq_some_iff.mp ((parseEndpointDigits_eq 0 raw).symm.trans hraw)
    exact ⟨n, hn, hv.symm⟩
  unfold parseEndpoint at h
  split at h
  · cases h
  rename_i hne
  rw [← String.utf8Len_toList t] at h
  dsimp only at h
  split at h
  · -- behind a prefix
    rename_i hprefixed
    obtain ⟨hlong, hfront⟩ := hprefixed
    split at h
    · cases h
    rename_i hshort
    rw [String.utf8ByteSize_ofList] at hshort
    obtain ⟨n, hn, hv⟩ := hread _ h
    refine ⟨t.toList.drop 2, n, ?_, ?_, ?_, hn, hv⟩
    · have hsplit := (List.take_append_drop 2 t.toList).symm
      exact Or.inr (hfront.imp (fun h => hsplit.trans (by rw [h]; rfl)) fun h =>
        hsplit.trans (by rw [h]; rfl))
    · intro hnil
      have hall := List.take_append_drop 2 t.toList
      rw [hnil, List.append_nil] at hall
      rw [← hall] at hlong
      rcases hfront with h | h
      · rw [h] at hlong
        exact absurd hlong (by decide)
      · rw [h] at hlong
        exact absurd hlong (by decide)
    · exact (length_le_utf8Len _).trans (Nat.le_of_not_lt hshort)
  · split at h
    · cases h
    rename_i hshort
    rw [String.utf8ByteSize_ofList] at hshort
    obtain ⟨n, hn, hv⟩ := hread _ h
    exact ⟨t.toList, n, Or.inl rfl, fun hnil => hne (String.toList_eq_nil_iff.mp hnil),
      (length_le_utf8Len _).trans (Nat.le_of_not_lt hshort), hn, hv⟩

/-- Digits have no prefix. -/
theorem trimPrefix_digits {n m : ℕ} {raw : List Char} (h : parseHexDigits n raw = some m)
    {x : Char} (hx : hexDigit x = none) : trimPrefix raw ['0', x] = raw := by
  rw [trimPrefix, if_neg]
  intro hpre
  obtain ⟨rest, rfl⟩ := List.isPrefixOf_iff_prefix.mp hpre
  obtain ⟨d, hd⟩ := hexDigit_of_parse h x (List.mem_append_left _ (by simp))
  rw [hx] at hd
  cases hd

/-- `normalizeHex` looks at the same digits. -/
theorem hexText_of_unprefixed {s : String} {n : ℕ} {raw : List Char}
    (hraw : Unprefixed (trimSpace s).toList raw) (h : parseHexDigits 0 raw = some n) :
    hexText s = raw := by
  have hx := trimPrefix_digits h (show hexDigit 'x' = none by decide)
  have hX := trimPrefix_digits h (show hexDigit 'X' = none by decide)
  rw [hexText]
  rcases hraw with ht | ht | ht
  · rw [ht, hx, hX]
  · rw [ht, show trimPrefix ('0' :: 'x' :: raw) ['0', 'x'] = raw by simp [trimPrefix], hX]
  · rw [ht, show trimPrefix ('0' :: 'X' :: raw) ['0', 'x'] = '0' :: 'X' :: raw by simp [trimPrefix],
      show trimPrefix ('0' :: 'X' :: raw) ['0', 'X'] = raw by simp [trimPrefix]]

/-- Two digits make a byte. -/
theorem parseHexDigits_lt_of_short {raw : List Char} {n : ℕ} (h : parseHexDigits 0 raw = some n)
    (hlength : raw.length ≤ 2) : n < 16 ^ 2 := by
  have hpow := parseHexDigits_lt h
  exact (hpow.trans_eq (Nat.one_mul _)).trans_le (Nat.pow_le_pow_right (by decide) hlength)

/-- What `normalizeHex` cannot read it leaves as it is. -/
theorem normalizeHex_unread {s : String} (hne : trimSpace s ≠ "") (h : readHex s = none) :
    normalizeHex s = trimSpace s := by
  unfold normalizeHex
  dsimp only
  rw [if_neg hne]
  unfold readHex hexText at h
  rw [h]

/-- The digits behind the `0x` of a normalised text are those that were read. -/
theorem unprefixed_normalizeHex {s : String} {m n : ℕ} {raw : List Char}
    (hread : readHex s = some m) (h : Unprefixed (normalizeHex s).toList raw)
    (hn : parseHexDigits 0 raw = some n) : (hexText s).map Char.toLower = raw := by
  rw [Unprefixed, normalizeHex_read hread] at h
  rcases h with h | h | h
  · obtain ⟨d, hd⟩ := hexDigit_of_parse hn 'x' (h ▸ by simp)
    exact absurd ((show hexDigit 'x' = none by decide).symm.trans hd) nofun
  · exact List.tail_eq_of_cons_eq (List.tail_eq_of_cons_eq h)
  · exact absurd (List.head_eq_of_cons_eq (List.tail_eq_of_cons_eq h)) (by decide)

/-- An endpoint that is parsed was written with one or two digits. -/
theorem readHex_of_parseEndpoint {s : String} {v : UInt8} (hne : trimSpace s ≠ "")
    (h : parseEndpoint (normalizeHex s) = some v) :
    readHex s = some v.toNat ∧ (hexText s).length ≤ 2 := by
  obtain ⟨raw, n, hunprefixed, hraw, hlength, hn, rfl⟩ := parseEndpoint_some h
  have hlt := parseHexDigits_lt_of_short hn hlength
  have hnat : (UInt8.ofNat n).toNat = n := UInt8.toNat_ofNat_of_lt' hlt
  rw [hnat]
  cases hread : readHex s with
  | none =>
    -- the digits would have been read before
    rw [normalizeHex_unread hne hread] at hunprefixed
    have htext := hexText_of_unprefixed hunprefixed hn
    rw [readHex, htext, parseUint16, if_neg hraw, hn] at hread
    dsimp only at hread
    rw [if_pos (hlt.trans (by decide))] at hread
    cases hread
  | some m =>
    have hdigits := parseHexDigits_toLower (parse_of_readHex hread).2.1
    have hds := unprefixed_normalizeHex hread hunprefixed hn
    rw [hds, hn] at hdigits
    rw [← hds, List.length_map] at hlength
    exact ⟨hdigits.symm, hlength⟩

/-- And such a one is parsed. -/
theorem parseEndpoint_of_readHex {s : String} {v : UInt8} (hread : readHex s = some v.toNat)
    (hlength : (hexText s).length ≤ 2) : parseEndpoint (normalizeHex s) = some v := by
  obtain ⟨htext, hparse, -⟩ := parse_of_readHex hread
  have hdigits := parseHexDigits_toLower hparse
  have hsize := utf8Len_of_parse hdigits
  rw [List.length_map] at hsize
  have hpos := List.length_pos_iff.mpr htext
  have hlong : 2 < String.utf8Len ('0' :: 'x' :: (hexText s).map Char.toLower) := by
    rw [String.utf8Len_cons, String.utf8Len_cons, hsize]
    have hx : 'x'.utf8Size = 1 := rfl
    have h0 : '0'.utf8Size = 1 := rfl
    omega
  unfold parseEndpoint
  rw [if_neg (normalizeHex_ne (trimSpace_ne_of_readHex hread)), ← String.utf8Len_toList,
    normalizeHex_read hread]
  simp only [hlong, List.take_succ_cons, List.take_zero, true_or, and_self, if_true,
    List.drop_succ_cons, List.drop_zero, String.utf8ByteSize_ofList]
  rw [hsize, if_neg (Nat.not_lt.mpr hlength)]
  refine (parseEndpointDigits_eq 0 _).trans ?_
  rw [hdigits, Option.map_some, UInt8.ofNat_toNat]

/-- `parseEndpoint` reads what `normalizeHex` has read, as long as it has at most two digits. -/
theorem parseEndpoint_normalizeHex_iff {s : String} {v : UInt8} (hne : trimSpace s ≠ "") :
    parseEndpoint (normalizeHex s) = some v ↔
      readHex s = some v.toNat ∧ (hexText s).length ≤ 2 :=
  ⟨readHex_of_parseEndpoint hne, fun h => parseEndpoint_of_readHex h.1 h.2⟩

/-! ## Exact exports -/

section

variable {req : DataRequest} {a : ℤ}

/-- The query has the address cut to 16 bits and the endpoint as text. -/
theorem exportQuery_normalize (haddr : req.deviceAddress = some a) :
    req.normalize.exportQuery = ⟨.ofInt a, normalizeHex req.endpoint, req.minDataLen⟩ := by
  rw [DataRequest.exportQuery, DataRequest.normalize]
  dsimp only
  rw [haddr, endpoint_normalizeRequest]

/-- What an accepted request exports. -/
theorem exportedPayloads_eq_ok_iff {env : FileSurroundings} {pcapPath : String}
    {contents : List UInt8} {payloads : List String}
    (hread : env.readFile pcapPath = .ok contents) :
    exportedPayloads env req = .ok (pcapPath, payloads) ↔
      req.endpoint ≠ "" ∧ admitPath env req.pcapPath = .ok pcapPath ∧
        exportPayload contents req.exportQuery = .ok payloads := by
  unfold exportedPayloads
  constructor
  · intro h
    -- the handler's errors in order: no endpoint, a refused path, an unreadable file, a bad capture
    split at h
    · cases h
    rename_i hne
    cases hpath : admitPath env req.pcapPath with
    | error refusal =>
      rw [hpath] at h
      cases h
    | ok path =>
      rw [hpath] at h
      dsimp only at h
      cases hfile : env.readFile path with
      | error err =>
        rw [hfile] at h
        cases h
      | ok contents' =>
        rw [hfile] at h
        dsimp only at h
        cases hrun : exportPayload contents' req.exportQuery with
        | error err =>
          rw [hrun] at h
          cases h
        | ok payloads' =>
          rw [hrun] at h
          obtain ⟨rfl, rfl⟩ := Prod.mk.inj (Except.ok.inj h)
          obtain rfl := Except.ok.inj (hfile.symm.trans hread)
          exact ⟨hne, rfl, hrun⟩
  · rintro ⟨hne, hpath, hrun⟩
    rw [if_neg hne, hpath]
    dsimp only
    rw [hread]
    dsimp only
    rw [hrun]

/-- A short endpoint is what both readers read. -/
theorem IsShortHex.reads {s : String} (h : IsShortHex s) :
    ∃ v, parseEndpoint (normalizeHex s) = some v ∧ denotedEndpoint s = some v := by
  obtain ⟨hsome, hlength⟩ := h
  obtain ⟨n, hn⟩ := Option.isSome_iff_exists.mp hsome
  have hlt := parseHexDigits_lt_of_short (parse_of_readHex hn).2.1 hlength
  have hnat : (UInt8.ofNat n).toNat = n := UInt8.toNat_ofNat_of_lt' hlt
  refine ⟨.ofNat n, parseEndpoint_of_readHex (by rw [hnat, hn]) hlength, ?_⟩
  unfold denotedEndpoint
  rw [hn]
  exact if_pos (Nat.le_of_lt_succ hlt)

/-- Any other endpoint is no filter. -/
theorem parseEndpoint_of_not_short {s : String} (hne : trimSpace s ≠ "") (h : ¬ IsShortHex s) :
    parseEndpoint (normalizeHex s) = none := by
  by_contra hsome
  obtain ⟨v, hv⟩ := Option.ne_none_iff_exists'.mp hsome
  obtain ⟨hread, hlength⟩ := (parseEndpoint_normalizeHex_iff hne).mp hv
  exact h ⟨by rw [hread]; rfl, hlength⟩

/-- A request that is read as it is meant selects the records that it asks for. -/
theorem selects_eq_asksFor (haddr : req.deviceAddress = some a) (ha : 0 ≤ a ∧ a < 65536)
    (hep : IsShortHex req.endpoint) {rec : Record} (hrec : Decoded rec) :
    req.normalize.exportQuery.Selects rec = req.AsksFor a rec := by
  obtain ⟨v, hparse, hdenoted⟩ := hep.reads
  have hlen : decide (req.minDataLen ≤ rec.actualLen) =
      decide (req.minDataLen.toNat ≤ rec.payload.length) := by
    rw [decide_eq_decide, UInt32.le_iff_toNat_le, hrec.payload.1]
  rw [exportQuery_normalize haddr, ExportQuery.Selects, DataRequest.AsksFor,
    (ofDevice_eq_counted_iff a rec).mpr fun _ => Or.inl ha]
  dsimp only
  rw [hparse, hdenoted, Option.all_some, Option.any_some, hlen]
  rfl

/-- Payloads that no record has are neither selected nor asked for. -/
theorem selects_eq_asksFor_of_long (haddr : req.deviceAddress = some a)
    (hlong : maxRecordSize < 27 + req.minDataLen.toNat) {rec : Record} (hrec : Decoded rec) :
    req.normalize.exportQuery.Selects rec = req.AsksFor a rec := by
  obtain ⟨hactual, hpayload⟩ := hrec.payload
  have hshort : ¬ req.minDataLen.toNat ≤ rec.payload.length := by
    have hmax : 27 < maxRecordSize := by decide
    rcases hpayload with hnil | hle
    · rw [hnil, List.length_nil]
      omega
    · omega
  have hactual' : ¬ req.minDataLen ≤ rec.actualLen := by
    rwa [UInt32.le_iff_toNat_le, hactual]
  rw [exportQuery_normalize haddr, ExportQuery.Selects, DataRequest.AsksFor,
    decide_eq_false hshort, decide_eq_false hactual', Bool.and_false, Bool.and_false]

/-- Otherwise a record can be selected that is not asked for. -/
theorem exists_selected (haddr : req.deviceAddress = some a) (hne : trimSpace req.endpoint ≠ "")
    (hlong : ¬ maxRecordSize < 27 + req.minDataLen.toNat)
    (hinexact : ¬ ((0 ≤ a ∧ a < 65536) ∧ IsShortHex req.endpoint)) :
    ∃ rec, Decoded rec ∧ req.normalize.exportQuery.Selects rec = true ∧
      req.AsksFor a rec = false := by
  -- an endpoint that passes the filter, and that the request does not mean if the address is read
  have hep : ∃ e, (parseEndpoint (normalizeHex req.endpoint)).all (e = ·) = true ∧
      (0 ≤ a ∧ a < 65536 → (denotedEndpoint req.endpoint).any (e = ·) = false) := by
    by_cases hshort : IsShortHex req.endpoint
    · obtain ⟨v, hparse, -⟩ := hshort.reads
      exact ⟨v, by rw [hparse]; simp, fun ha => absurd ⟨ha, hshort⟩ hinexact⟩
    · rw [parseEndpoint_of_not_short hne hshort]
      cases denotedEndpoint req.endpoint with
      | none => exact ⟨0, rfl, fun _ => rfl⟩
      | some v => exact ⟨v + 1, rfl, fun _ => by simp⟩
  obtain ⟨e, hpass, hother⟩ := hep
  obtain ⟨rec, hrec, hheader, hdevice, hendpoint, hpayload, hactual⟩ :=
    @exists_decoded (.ofInt a) e (List.replicate req.minDataLen.toNat 0)
      (by rw [List.length_replicate]; omega)
  rw [List.length_replicate] at hactual
  refine ⟨rec, hrec, ?_, ?_⟩
  · have hlen : req.minDataLen ≤ rec.actualLen := by
      rw [UInt32.le_iff_toNat_le, hactual]
    rw [exportQuery_normalize haddr, ExportQuery.Selects, hdevice, hendpoint]
    dsimp only
    rw [hpass, decide_eq_true hheader, decide_eq_true hlen, decide_eq_true rfl]
    rfl
  · rw [DataRequest.AsksFor, hendpoint]
    by_cases ha : 0 ≤ a ∧ a < 65536
    · rw [hother ha, Bool.and_false, Bool.false_and]
    · have hdevice : OfDevice a rec = false := by
        have hlt := rec.device.toNat_lt
        rw [OfDevice, Bool.and_eq_false_iff]
        exact Or.inr (decide_eq_false (by omega))
      rw [hdevice, Bool.false_and, Bool.false_and]

/-- **An export is exact when the address and the endpoint are read as they are meant.** For a
request with the device address `a`: every export of the normalised request returns the payloads
that the request asks for, in their order and cut only by the caps, exactly when the request is
refused for its blank endpoint, or asks for payloads longer than any record has, or `a` has 16 bits
and the endpoint is one or two hexadecimal digits. -/
theorem export_exact_iff (haddr : req.deviceAddress = some a) :
    req.ExportsExactly a ↔
      trimSpace req.endpoint = "" ∨ maxRecordSize < 27 + req.minDataLen.toNat ∨
        ((0 ≤ a ∧ a < 65536) ∧ IsShortHex req.endpoint) := by
  constructor
  · intro h
    by_contra hno
    rw [not_or, not_or] at hno
    obtain ⟨hne, hlong, hinexact⟩ := hno
    obtain ⟨rec, hrec, hselects, hasks⟩ := exists_selected haddr hne hlong hinexact
    -- a capture of this record alone
    obtain ⟨contents, r, hr, hall⟩ := @exists_capture [rec] (by simpa using hrec)
    have hrecs := (fileRecords_of_ok hr).trans (congrArg Prod.fst hall)
    obtain ⟨payloads, hrun⟩ := exists_exportPayload ⟨r, hr, by rw [hall]; rfl⟩
      req.normalize.exportQuery
    have hcut := exportPayload_cut hrun
    rw [hrecs, ExportQuery.payloads_of_selects hselects] at hcut
    have hexport : exportedPayloads { bulkDirectory with readFile := fun _ => .ok contents }
        req.normalize = .ok (req.pcapPath, payloads) := by
      refine (exportedPayloads_eq_ok_iff rfl).mpr ⟨?_, rfl, hrun⟩
      rw [DataRequest.normalize, endpoint_normalizeRequest]
      exact normalizeHex_ne hne
    have hexact := h _ _ _ _ rfl hexport
    have hnone : req.requested a [rec] = [] := by
      rw [DataRequest.requested, List.filter_cons_of_neg (by rw [hasks]; exact Bool.false_ne_true)]
      rfl
    rw [hrecs, hnone] at hexact
    have hnil := List.prefix_nil.mp hexact.front
    rw [hnil] at hcut
    rcases hcut.whole with h | h | h
    · cases h
    · exact absurd h (by decide)
    · exact absurd h (by decide)
  · intro h env pcapPath contents payloads hread hexport
    obtain ⟨hne, -, hrun⟩ := (exportedPayloads_eq_ok_iff hread).mp hexport
    rw [DataRequest.normalize, endpoint_normalizeRequest] at hne
    have hsame : ∀ rec ∈ fileRecords contents,
        req.normalize.exportQuery.Selects rec = req.AsksFor a rec := fun rec hrec => by
      have hrec := decoded_of_mem_fileRecords hrec
      rcases h with hblank | hlong | ⟨ha, hep⟩
      · exact absurd (normalizeHex_blank hblank) hne
      · exact selects_eq_asksFor_of_long haddr hlong hrec
      · exact selects_eq_asksFor haddr ha hep hrec
    have hcut := exportPayload_cut hrun
    rwa [ExportQuery.payloads, List.filter_congr hsame] at hcut

end

/-- A request for the payloads of an endpoint of device 2. -/
def exportBulk (endpoint : String) : DataRequest :=
  { action := "exportData", pcapPath := "bulk.pcap", deviceAddress := some 2, endpoint := endpoint,
    minDataLen := 1 }

/-- The endpoint with two digits is exported. -/
theorem export_exact_iff_bulk : (exportBulk "0x81").ExportsExactly 2 :=
  (export_exact_iff rfl).mpr (Or.inr (Or.inr ⟨by decide, by decide, by decide⟩))

/-- Endpoint 2, written with four digits, is exported from the packet of endpoint 0x81. -/
theorem export_of_other_endpoint :
    exportedPayloads bulkDirectory (exportBulk "0x0002").normalize = .ok ("bulk.pcap", ["55"]) ∧
      (exportBulk "0x0002").requested 2 (fileRecords (plainHeader ++ bulkRecord)) = [] := by
  rw [fileRecords_bulk]
  constructor
  · refine (exportedPayloads_eq_ok_iff rfl).mpr ⟨by decide, rfl, ?_⟩
    have hcaps : (exportBulk "0x0002").normalize.exportQuery.BelowCaps {}
        (fileRecords (plainHeader ++ bulkRecord)) := by
      rw [fileRecords_bulk]
      exact ⟨by decide, by decide⟩
    obtain ⟨r, hr, hall⟩ := open_bulk
    exact (exportPayload_eq_ok_iff hcaps).mpr ⟨r, hr, by rw [hall]; rfl, by rw [hall]; decide⟩
  · decide

end UsbPcap.Service
