import UsbPcap.Cmd.WorkerRoundTrip

/-!
# What the option loop accepts

Whether an option is accepted depends on its argument alone, so the loop accepts a command line
that consists of acceptable options. `Meaning` is what the variables then say about which packets
are captured, how they are stored and for how long; the options determine it one after the other.
-/

namespace UsbPcap.Cmd

open CText

/-- The option loop goes on behind the option. -/
def Opt.Accepted : Opt → Prop
  | .help _ | .initNonStandardHwids | .invalid => False
  | .snaplen arg => UInt32.ofInt (atoi arg) ≠ 0
  | .bufferlen arg =>
    4096 ≤ UInt32.ofInt (atoi arg) ∧ UInt32.ofInt (atoi arg) ≤ 134217728
  | .vendorId arg | .productId arg => (parseU16Value arg).isSome
  | .duration arg => (parseU32Value arg).isSome
  | .endpoint arg => (parseU16Value arg).any (· ≤ 0xFF)
  | .transferType arg => (parseTransferType arg).isSome
  | .storeMode arg => stricmp arg "immediate".toList ∨ stricmp arg "on-match".toList
  | _ => True

theorem apply_ok_iff (s : Settings) (opt : Opt) : (∃ t, s.apply opt = .ok t) ↔ opt.Accepted := by
  cases opt with
  | snaplen arg =>
    -- `main` refuses 0, which also stands for a text that is no number
    unfold Settings.apply Opt.Accepted
    dsimp only
    split
    · rename_i hzero
      simp [hzero]
    · rename_i hne
      exact iff_of_true ⟨_, rfl⟩ hne
  | bufferlen arg =>
    -- the bounds of the driver's ring
    unfold Settings.apply Opt.Accepted
    dsimp only
    rw [← UInt32.not_lt, ← UInt32.not_lt, ← not_or]
    split
    · rename_i hout
      simp [hout]
    · rename_i hin
      exact iff_of_true ⟨_, rfl⟩ hin
  | endpoint arg =>
    -- an endpoint is one byte, although it is read as a 16-bit number
    unfold Settings.apply Opt.Accepted
    dsimp only
    cases parseU16Value arg with
    | none => simp
    | some n =>
      dsimp only
      rw [Option.any_some, decide_eq_true_iff, ← UInt16.not_lt]
      split
      · rename_i hlarge
        simp [hlarge]
      · rename_i hsmall
        exact iff_of_true ⟨_, rfl⟩ hsmall
  | storeMode arg =>
    unfold Settings.apply Opt.Accepted
    dsimp only
    split
    · rename_i himmediate
      exact iff_of_true ⟨_, rfl⟩ (Or.inl himmediate)
    · rename_i hnot
      split
      · rename_i honMatch
        exact iff_of_true ⟨_, rfl⟩ (Or.inr honMatch)
      · rename_i hneither
        refine iff_of_false ?_ (not_or.mpr ⟨hnot, hneither⟩)
        rintro ⟨t, ht⟩
        cases ht
  | vendorId arg =>
    simp only [Settings.apply, Opt.Accepted]
    cases parseU16Value arg with
    | none => simp
    | some n => simp
  | productId arg =>
    simp only [Settings.apply, Opt.Accepted]
    cases parseU16Value arg with
    | none => simp
    | some n => simp
  | duration arg =>
    simp only [Settings.apply, Opt.Accepted]
    cases parseU32Value arg with
    | none => simp
    | some n => simp
  | transferType arg =>
    simp only [Settings.apply, Opt.Accepted]
    cases parseTransferType arg with
    | none => simp
    | some n => simp
  | help topic => simp [Settings.apply, Opt.Accepted]
  | initNonStandardHwids => simp [Settings.apply, Opt.Accepted]
  | invalid => simp [Settings.apply, Opt.Accepted]
  | _ => exact iff_of_true ⟨_, rfl⟩ trivial
    -- the remaining options only set a field

/-- The loop ends well when every option is accepted. -/
theorem optionLoop_ok_iff (s : Settings) (opts : List Opt) :
    (∃ t, optionLoop s opts = .ok t) ↔ ∀ opt ∈ opts, opt.Accepted := by
  induction opts generalizing s with
  | nil => exact iff_of_true ⟨s, rfl⟩ fun _ h => absurd h List.not_mem_nil
  | cons opt opts ih =>
    rw [List.forall_mem_cons, ← apply_ok_iff s opt]
    unfold optionLoop
    cases hstep : s.apply opt with
    | error e => simp
    | ok t =>
      dsimp only
      rw [ih t, and_iff_right ⟨t, rfl⟩]

/-! ## What the variables say -/

/-- Which packets are captured, how they are stored, and for how many seconds. -/
structure Meaning where
  vendorId : Option UInt16
  productId : Option UInt16
  endpoint : Option UInt8
  transferType : Option UInt8
  storeMode : UInt32
  duration : UInt32
deriving DecidableEq, Repr

/-- What the variables say. -/
def Settings.meaning (s : Settings) : Meaning where
  vendorId := if s.hasVendorId then some s.vendorId else none
  productId := if s.hasProductId then some s.productId else none
  endpoint := if s.data.appFilter.hasEndpoint then some s.data.appFilter.endpoint else none
  transferType :=
    if s.data.appFilter.hasTransferType then some s.data.appFilter.transferType else none
  storeMode := s.data.storeMode
  duration := s.data.durationSeconds

/-- What they say behind an option that is accepted. -/
def Meaning.read (m : Meaning) : Opt → Meaning
  | .vendorId arg => { m with vendorId := parseU16Value arg }
  | .productId arg => { m with productId := parseU16Value arg }
  | .endpoint arg => { m with endpoint := (parseU16Value arg).map UInt16.toUInt8 }
  | .transferType arg => { m with transferType := parseTransferType arg }
  | .storeMode arg =>
    { m with
      storeMode :=
        if stricmp arg "immediate".toList then storeModeImmediate else storeModeOnMatch }
  | .duration arg => { m with duration := (parseU32Value arg).getD m.duration }
  | _ => m

theorem meaning_apply {s t : Settings} {opt : Opt} (h : s.apply opt = .ok t) :
    t.meaning = s.meaning.read opt := by
  cases opt with
  | vendorId arg =>
    simp only [Settings.apply] at h
    split at h
    · cases h
    · rename_i id hid
      cases h
      rw [Meaning.read, hid]
      rfl
  | productId arg =>
    simp only [Settings.apply] at h
    split at h
    · cases h
    · rename_i id hid
      cases h
      rw [Meaning.read, hid]
      rfl
  | endpoint arg =>
    -- a value above 255 is refused, so the narrowing keeps the accepted ones
    simp only [Settings.apply] at h
    split at h
    · cases h
    · rename_i endpoint hendpoint
      split at h
      · cases h
      · cases h
        rw [Meaning.read, hendpoint]
        rfl
  | transferType arg =>
    simp only [Settings.apply] at h
    split at h
    · cases h
    · rename_i transfer htransfer
      cases h
      rw [Meaning.read, htransfer]
      rfl
  | storeMode arg =>
    -- exactly two words are accepted
    simp only [Settings.apply] at h
    split at h
    · rename_i himmediate
      cases h
      rw [Meaning.read, if_pos himmediate]
      rfl
    · rename_i hnot
      split at h
      · cases h
        rw [Meaning.read, if_neg hnot]
        rfl
      · cases h
  | duration arg =>
    simp only [Settings.apply] at h
    split at h
    · cases h
    · rename_i seconds hseconds
      cases h
      rw [Meaning.read, hseconds]
      rfl
  | _ =>
    -- what the remaining options set is no part of the meaning, or is read off directly
    unfold Settings.apply at h
    dsimp only at h
    (repeat' split at h) <;> cases h <;> rfl

theorem meaning_optionLoop {s t : Settings} {opts : List Opt} (h : optionLoop s opts = .ok t) :
    t.meaning = opts.foldl Meaning.read s.meaning := by
  induction opts generalizing s with
  | nil =>
    cases h
    rfl
  | cons opt opts ih =>
    unfold optionLoop at h
    split at h
    · cases h
    · rename_i u hu
      rw [List.foldl_cons, ← meaning_apply hu]
      exact ih h

theorem meaning_withIds (s : Settings) : s.withIds.meaning = s.meaning := by
  unfold Settings.withIds
  dsimp only
  split
  · split
    · rfl
    · rfl
  · split
    · rfl
    · rfl

/-- What nothing has been asked for means. -/
def Meaning.initial : Meaning := Settings.initial.meaning

/-- A command line is accepted, and what it then means. -/
theorem parseOptions_means_iff (opts : List Opt) (m : Meaning) :
    (∃ s, parseOptions opts = .ok s ∧ s.meaning = m) ↔
      (∀ opt ∈ opts, opt.Accepted) ∧ opts.foldl Meaning.read .initial = m := by
  rw [← optionLoop_ok_iff .initial]
  unfold parseOptions
  constructor
  · rintro ⟨s, hs, hm⟩
    split at hs
    · cases hs
    · rename_i t ht
      cases hs
      exact ⟨⟨t, ht⟩, (meaning_optionLoop ht).symm.trans ((meaning_withIds t).symm.trans hm)⟩
  · rintro ⟨⟨t, ht⟩, hm⟩
    rw [ht]
    exact ⟨t.withIds, rfl, (meaning_withIds t).trans ((meaning_optionLoop ht).trans hm)⟩

end UsbPcap.Cmd
