import UsbPcap.Service.Exports

/-!
# Normalising a request twice

`normalizeRequest` rewrites the ids, the endpoint and the interface of a request and reports what
it has changed. A normalised text has no white space around it and is its own normal form, so
that a second pass changes and reports nothing.
-/

namespace UsbPcap.Service

open Cmd
open CText (IsLowerHex toLower_of_isLowerHex)
open Server (trimSpace isSpace)

/-! ## The report -/

/-- The values of the map that `normalizeRequest` returns. -/
inductive Normalized where
  | text (s : String)
  | flag (b : Bool)
deriving DecidableEq, Repr

/-- A field that is not empty and whose normal form differs. -/
def normalizedField (key old new : String) : List (String × Normalized) :=
  if old ≠ "" then if new ≠ old then [(key, .text new)] else [] else []

/-- The map that `normalizeRequest` returns, in the order in which it is filled. -/
def normalized (req : IpcRequest) : List (String × Normalized) :=
  normalizedField "vendorId" req.vendorID (normalizeHex req.vendorID) ++
    normalizedField "productId" req.productID (normalizeHex req.productID) ++
    normalizedField "endpoint" req.endpoint (normalizeHex req.endpoint) ++
    normalizedField "interface" req.interface (normalizeInterface req.interface) ++
    (if ((normalizeRequest req).endpoint ≠ "" ∨ req.transferType ≠ "") ∧ req.appFilter = false then
      [("appFilter", .flag true)] else [])

/-! ## White space -/

/-- Neither the first nor the last character is white space. -/
def Trimmed (text : List Char) : Prop :=
  (∀ c ∈ text.head?, isSpace c = false) ∧ ∀ c ∈ text.getLast?, isSpace c = false

/-- There is nothing to drop where the text does not begin with a blank. -/
theorem dropWhile_isSpace {text : List Char} (h : ∀ c ∈ text.head?, isSpace c = false) :
    text.dropWhile isSpace = text := by
  cases text with
  | nil => rfl
  | cons c text =>
    have hc := h c rfl
    exact List.dropWhile_cons_of_neg (by rw [hc]; exact Bool.false_ne_true)

/-- And where it was dropped, it does not. -/
theorem head_dropWhile_isSpace (text : List Char) :
    ∀ c ∈ (text.dropWhile isSpace).head?, isSpace c = false := by
  intro c hc
  have hhead := List.head?_dropWhile_not isSpace text
  rw [Option.mem_def.mp hc] at hhead
  exact hhead

/-- A trimmed text stays as it is. -/
theorem trimSpace_of_trimmed {s : String} (h : Trimmed s.toList) : trimSpace s = s := by
  have hlast : ∀ c ∈ s.toList.reverse.head?, isSpace c = false := by
    rw [List.head?_reverse]
    exact h.2
  rw [trimSpace, dropWhile_isSpace h.1, dropWhile_isSpace hlast, List.reverse_reverse,
    String.ofList_toList]

/-- What `strings.TrimSpace` returns has no white space around it. -/
theorem trimmed_trimSpace (s : String) : Trimmed (trimSpace s).toList := by
  rw [trimSpace, String.toList_ofList]
  generalize htext : s.toList.dropWhile isSpace = text
  constructor
  · intro c hc
    -- the trimmed text is a prefix of what is behind the leading white space
    have hpre : (text.reverse.dropWhile isSpace).reverse <+: text := by
      rw [← List.reverse_suffix, List.reverse_reverse]
      exact List.dropWhile_suffix isSpace
    obtain ⟨rest, hrest⟩ := hpre
    refine head_dropWhile_isSpace s.toList c ?_
    rw [htext, ← hrest, List.head?_append, Option.mem_def.mp hc]
    rfl
  · intro c hc
    rw [List.getLast?_reverse] at hc
    exact head_dropWhile_isSpace text.reverse c hc

/-- Trimming twice is trimming once. -/
theorem trimSpace_trimSpace (s : String) : trimSpace (trimSpace s) = trimSpace s :=
  trimSpace_of_trimmed (trimmed_trimSpace s)

/-! ## Hexadecimal texts -/

/-- No hexadecimal digit is a blank. -/
theorem isSpace_of_isLowerHex {c : Char} (h : IsLowerHex c) : isSpace c = false :=
  h.elim (p := fun c => isSpace c = false) (by decide)

/-- A text that is read is trimmed and its own normal form. -/
theorem normalizeHex_of_read {s : String} {n : ℕ} (h : readHex s = some n) :
    normalizeHex (normalizeHex s) = normalizeHex s := by
  obtain ⟨hne, hdigits, -, hlt⟩ := isHexOf_of_readHex h
  have hparse := parseHexDigits_toLower (parse_of_readHex h).2.1
  have hlist := normalizeHex_read h
  generalize (hexText s).map Char.toLower = ds at *
  have htrimmed : Trimmed (normalizeHex s).toList := by
    rw [hlist]
    refine ⟨fun c hc => ?_, fun c hc => ?_⟩
    · obtain rfl := Option.some.inj hc
      decide
    · obtain ⟨d, ds, rfl⟩ := List.exists_cons_of_ne_nil hne
      rw [List.getLast?_cons_cons, List.getLast?_cons_cons] at hc
      exact isSpace_of_isLowerHex (hdigits c (List.mem_of_getLast? hc))
  have htext : hexText (normalizeHex s) = ds := by
    refine hexText_of_unprefixed (.inr (.inl ?_)) hparse
    rw [trimSpace_of_trimmed htrimmed, hlist]
  have hread : readHex (normalizeHex s) = some n := by
    rw [readHex, htext, parseUint16, if_neg hne, hparse]
    exact if_pos hlt
  have hlower : ds.map Char.toLower = ds :=
    (List.map_congr_left fun c hc => toLower_of_isLowerHex (hdigits c hc)).trans (List.map_id ds)
  rw [← String.toList_inj, normalizeHex_read hread, htext, hlower, hlist]

/-- What is no number is only trimmed. -/
theorem normalizeHex_unread_trimSpace {s : String} (h : readHex s = none) :
    normalizeHex s = trimSpace s := by
  by_cases hblank : trimSpace s = ""
  · rw [normalizeHex_blank hblank, hblank]
  · exact normalizeHex_unread hblank h

/-- Normalising a number twice is normalising it once. -/
theorem normalizeHex_normalizeHex (s : String) :
    normalizeHex (normalizeHex s) = normalizeHex s := by
  cases h : readHex s with
  | some n => exact normalizeHex_of_read h
  | none =>
    have hread : readHex (trimSpace s) = none := by
      rw [readHex, hexText, trimSpace_trimSpace]
      exact h
    rw [normalizeHex_unread_trimSpace h, normalizeHex_unread_trimSpace hread, trimSpace_trimSpace]

/-! ## Interfaces -/

/-- The beginning of a full interface name. -/
def fullPrefix : List Char := ['\\', '\\', '.', '\\']

/-- A name is trimmed, and completed where it is short. -/
theorem normalizeInterface_cases (s : String) :
    normalizeInterface s = trimSpace s ∨
      trimSpace s ≠ "" ∧ normalizeInterface s = .ofList (fullPrefix ++ (trimSpace s).toList) := by
  unfold normalizeInterface
  dsimp only
  split
  · exact .inl rfl
  · next hne =>
    split
    · exact .inl rfl
    · split
      · exact .inr ⟨hne, rfl⟩
      · exact .inl rfl

/-- A full device name stays as it is. -/
theorem normalizeInterface_full {s : String} (hs : trimSpace s = s)
    (h : fullPrefix.isPrefixOf s.toList = true) : normalizeInterface s = s := by
  unfold normalizeInterface
  dsimp only
  rw [hs]
  split
  · rfl
  · exact if_pos h

/-- So normalising an interface twice is normalising it once. -/
theorem normalizeInterface_normalizeInterface (s : String) :
    normalizeInterface (normalizeInterface s) = normalizeInterface s := by
  obtain hsame | ⟨hne, hfull⟩ := normalizeInterface_cases s
  · have hagain : normalizeInterface (trimSpace s) = normalizeInterface s := by
      rw [normalizeInterface, trimSpace_trimSpace]
      rfl
    rw [hsame, hagain, hsame]
  · refine normalizeInterface_full (trimSpace_of_trimmed ?_) ?_
    · rw [hfull, String.toList_ofList]
      obtain ⟨-, hlast⟩ := trimmed_trimSpace s
      refine ⟨fun c hc => ?_, fun c hc => hlast c ?_⟩
      · obtain rfl := Option.some.inj hc
        decide
      · have hlist : (trimSpace s).toList ≠ [] := fun h => hne (String.toList_eq_nil_iff.mp h)
        rw [List.getLast?_append_of_ne_nil _ hlist] at hc
        exact hc
    · rw [hfull, String.toList_ofList]
      exact List.isPrefixOf_iff_prefix.mpr (List.prefix_append _ _)

/-! ## Requests -/

/-- The interface is normalised by its own function. -/
theorem interface_normalizeRequest (req : IpcRequest) :
    (normalizeRequest req).interface = normalizeInterface req.interface := by
  rw [normalizeRequest]
  dsimp only
  split
  · rfl
  · next hempty =>
    rw [not_not.mp hempty]
    rfl

/-- An endpoint or a transfer type switches the filter on. -/
theorem appFilter_normalizeRequest (req : IpcRequest) :
    (normalizeRequest req).appFilter =
      (req.appFilter || decide (normalizeHex req.endpoint ≠ "" ∨ req.transferType ≠ "")) := by
  have hauto : (normalizeRequest req).appFilter =
      if ((normalizeRequest req).endpoint ≠ "" ∨ req.transferType ≠ "") ∧ req.appFilter = false then
        true
      else req.appFilter := rfl
  rw [hauto, endpoint_normalizeRequest]
  cases req.appFilter with
  | true => rw [if_neg fun h => Bool.noConfusion h.2, Bool.true_or]
  | false =>
    rw [Bool.false_or]
    split
    · next h => exact (decide_eq_true h.1).symm
    · next h => exact (decide_eq_false fun hor => h ⟨hor, rfl⟩).symm

/-- The normal form, field by field. -/
theorem normalizeRequest_eq (req : IpcRequest) :
    normalizeRequest req = { req with
      vendorID := normalizeHex req.vendorID
      productID := normalizeHex req.productID
      endpoint := normalizeHex req.endpoint
      interface := normalizeInterface req.interface
      appFilter :=
        req.appFilter || decide (normalizeHex req.endpoint ≠ "" ∨ req.transferType ≠ "") } := by
  rw [← vendorID_normalizeRequest, ← productID_normalizeRequest, ← interface_normalizeRequest,
    ← appFilter_normalizeRequest, ← endpoint_normalizeRequest]
  rfl

/-- Normalising a request twice is normalising it once. -/
theorem normalizeRequest_normalizeRequest (req : IpcRequest) :
    normalizeRequest (normalizeRequest req) = normalizeRequest req := by
  simp only [normalizeRequest_eq, normalizeHex_normalizeHex,
    normalizeInterface_normalizeInterface, Bool.or_assoc, Bool.or_self]

/-- A field is reported exactly when it has changed. -/
theorem normalizedField_eq_nil_iff {key old new : String} (h : old = "" → new = "") :
    normalizedField key old new = [] ↔ new = old := by
  unfold normalizedField
  by_cases hold : old = ""
  · rw [if_neg (not_not_intro hold)]
    exact iff_of_true rfl ((h hold).trans hold.symm)
  · rw [if_pos hold]
    by_cases hnew : new = old
    · rw [if_neg (not_not_intro hnew)]
      exact iff_of_true rfl hnew
    · rw [if_pos hnew]
      exact iff_of_false (List.cons_ne_nil _ _) hnew

/-- Nothing is reported exactly when nothing is changed. -/
theorem normalized_eq_nil_iff (req : IpcRequest) :
    normalized req = [] ↔ normalizeRequest req = req := by
  have hhex : ∀ s, s = "" → normalizeHex s = "" := by
    rintro s rfl
    rfl
  have hinterface : ∀ s, s = "" → normalizeInterface s = "" := by
    rintro s rfl
    rfl
  -- the list names `appFilter` exactly when the filter was switched on by the normalization
  have hauto : (if ((normalizeRequest req).endpoint ≠ "" ∨ req.transferType ≠ "") ∧
      req.appFilter = false then [("appFilter", Normalized.flag true)] else []) = [] ↔
      (normalizeRequest req).appFilter = req.appFilter := by
    rw [appFilter_normalizeRequest, ← endpoint_normalizeRequest]
    cases req.appFilter with
    | true => simp only [Bool.true_eq_false, and_false, if_false, Bool.true_or]
    | false =>
      simp only [and_true, Bool.false_or, decide_eq_false_iff_not, ite_eq_right_iff,
        List.cons_ne_nil, imp_false]
  unfold normalized
  rw [List.append_eq_nil_iff, List.append_eq_nil_iff, List.append_eq_nil_iff,
    List.append_eq_nil_iff, normalizedField_eq_nil_iff (hhex _),
    normalizedField_eq_nil_iff (hhex _), normalizedField_eq_nil_iff (hhex _),
    normalizedField_eq_nil_iff (hinterface _), hauto,
    ← vendorID_normalizeRequest, ← productID_normalizeRequest, ← interface_normalizeRequest,
    ← endpoint_normalizeRequest]
  constructor
  · rintro ⟨⟨⟨⟨hvendor, hproduct⟩, hendpoint⟩, hinterface⟩, hfilter⟩
    -- only the five listed fields can differ
    have heq : normalizeRequest req = { req with
        vendorID := (normalizeRequest req).vendorID
        productID := (normalizeRequest req).productID
        endpoint := (normalizeRequest req).endpoint
        interface := (normalizeRequest req).interface
        appFilter := (normalizeRequest req).appFilter } := rfl
    rw [heq, hvendor, hproduct, hendpoint, hinterface, hfilter]
  · intro h
    rw [h]
    exact ⟨⟨⟨⟨rfl, rfl⟩, rfl⟩, rfl⟩, rfl⟩

/-- **Normalising twice is normalising once, and the second time nothing is reported; what is read
as a hexadecimal number, the tool reads as that number, and the rest is only trimmed.** -/
theorem normalizeRequest_spec :
    (∀ req : IpcRequest, normalizeRequest (normalizeRequest req) = normalizeRequest req ∧
      normalized (normalizeRequest req) = []) ∧
    (∀ s n, readHex s = some n →
      ∃ v, parseU16Value (normalizeHex s).toList = some v ∧ v.toNat = n) ∧
    ∀ s, readHex s = none → normalizeHex s = trimSpace s := by
  refine ⟨fun req => ?_, fun s n h => ?_, fun s => normalizeHex_unread_trimSpace⟩
  · have htwice := normalizeRequest_normalizeRequest req
    exact ⟨htwice, (normalized_eq_nil_iff _).mpr htwice⟩
  · refine ⟨UInt16.ofNat n, parseU16Value_normalizeHex h, ?_⟩
    exact UInt16.toNat_ofNat_of_lt' (parse_of_readHex h).2.2

end UsbPcap.Service
