import UsbPcap.Cmd.Output

/-!
# Passing bytes through

Without an application filter and with immediate storage, `process_data` writes what it reads. It
collects the first 24 bytes in a buffer of their own, because the descriptors go behind them.
`Passes s₀ s x` describes the state `s` of a thread that started in `s₀` and was given the stream
`x`, in whatever pieces.
-/

namespace UsbPcap.Cmd

open Format Memory

variable {env : Env}

/-- The output for a stream: the descriptors are inserted behind a complete global header. -/
def passed (descriptors x : List UInt8) : List UInt8 :=
  if x.length < sizeofPcapHdr then []
  else preamble (x.take sizeofPcapHdr) descriptors ++ x.drop sizeofPcapHdr

/-- `descriptors` after its header buffer has been given the stream `x`. -/
def InjectDescriptors.collected (d : InjectDescriptors) (x : List UInt8) : InjectDescriptors where
  descriptors := d.descriptors
  buf := copyInto d.buf 0 (x.take sizeofPcapHdr)
  bufWritten := min sizeofPcapHdr x.length

/-- The state `s` of a thread that started in `s₀` and was given the stream `x`. -/
structure Passes (s₀ s : State) (x : List UInt8) : Prop where
  parser : s.parser = s₀.parser
  data : s.data = { s₀.data with descriptors := s₀.data.descriptors.collected x }
  output : s.output = s₀.output ++ passed s₀.data.descriptors.descriptors x

/-- A thread that passes bytes through: the output is open and the header buffer empty. -/
structure State.Passing (s : State) : Prop where
  process : s.data.process = true
  handle : s.data.writeHandle ≠ .invalid
  bufWritten : s.data.descriptors.bufWritten = 0
  buf : s.data.descriptors.buf.length = sizeofPcapHdr

theorem Passes.nil {s : State} (hs : s.Passing) : Passes s s [] := by
  refine ⟨rfl, ?_, ?_⟩
  · unfold InjectDescriptors.collected
    rw [List.take_nil, copyInto_nil, List.length_nil, Nat.min_zero, ← hs.bufWritten]
  · exact (List.append_nil _).symm

theorem passed_append {x : List UInt8} (hx : sizeofPcapHdr ≤ x.length)
    (descriptors c : List UInt8) : passed descriptors (x ++ c) = passed descriptors x ++ c := by
  unfold passed
  rw [if_neg (Nat.not_lt.mpr hx), List.length_append, if_neg (by omega),
    List.take_append_of_le_length hx, List.drop_append_of_le_length hx, List.append_assoc]

theorem InjectDescriptors.collected_append {x : List UInt8} (hx : sizeofPcapHdr ≤ x.length)
    (d : InjectDescriptors) (c : List UInt8) : d.collected (x ++ c) = d.collected x := by
  unfold InjectDescriptors.collected
  rw [List.take_append_of_le_length hx, List.length_append, Nat.min_eq_left hx,
    Nat.min_eq_left (by omega)]

/-- Filling the header buffer further is filling it from the longer stream. -/
theorem InjectDescriptors.collect_collected {d : InjectDescriptors}
    (hd : d.buf.length = sizeofPcapHdr) {x : List UInt8} (hx : x.length < sizeofPcapHdr)
    (c : List UInt8) :
    (d.collected x).collect (c.take (sizeofPcapHdr - x.length)) = d.collected (x ++ c) := by
  unfold InjectDescriptors.collect InjectDescriptors.collected
  dsimp only
  rw [Nat.min_eq_right hx.le, List.take_of_length_le hx.le, copyInto_copyInto (by omega),
    List.take_append, List.take_of_length_le hx.le, List.length_append, List.length_take,
    show x.length + min (sizeofPcapHdr - x.length) c.length =
      min sizeofPcapHdr (x.length + c.length) by omega]

/-- The full header buffer holds the front of the stream. -/
theorem InjectDescriptors.buf_collected {d : InjectDescriptors} (hd : d.buf.length = sizeofPcapHdr)
    {x : List UInt8} (hx : sizeofPcapHdr ≤ x.length) :
    (d.collected x).buf = x.take sizeofPcapHdr := by
  apply copyInto_whole
  rw [List.length_take, hd, Nat.min_eq_left hx]

/-- **One read.** -/
theorem Passes.passThrough (he : env.Stores) {s₀ s : State} (h₀ : s₀.Passing) {x : List UInt8}
    (hs : Passes s₀ s x) (c : List UInt8) : Passes s₀ (Cmd.passThrough env s c) (x ++ c) := by
  have hdesc : s.data.descriptors = s₀.data.descriptors.collected x := by rw [hs.data]
  have hhandle : s.data.writeHandle ≠ .invalid := by
    rw [hs.data]
    exact h₀.handle
  unfold Cmd.passThrough
  by_cases hx : x.length < sizeofPcapHdr
  · -- the header is still being collected
    have hw : s.data.descriptors.bufWritten = x.length := by
      rw [hdesc]
      exact Nat.min_eq_right hx.le
    have hcollect : s.data.descriptors.collect
        (c.take (min (sizeofPcapHdr - x.length) c.length)) =
          s₀.data.descriptors.collected (x ++ c) := by
      rw [← List.take_eq_take_min, hdesc, InjectDescriptors.collect_collected h₀.buf hx]
    rw [hw, if_pos hx]
    dsimp only
    rw [hcollect]
    have hout : s.output = s₀.output := by
      rw [hs.output, passed, if_pos hx, List.append_nil]
    have hdata : { s.data with descriptors := s₀.data.descriptors.collected (x ++ c) } =
        { s₀.data with descriptors := s₀.data.descriptors.collected (x ++ c) } := by
      rw [hs.data]
    rw [hdata]
    by_cases hxc : (x ++ c).length < sizeofPcapHdr
    · -- it stays incomplete, and nothing is written
      have hlen : (x ++ c).length = x.length + c.length := List.length_append
      have hpart : (s₀.data.descriptors.collected (x ++ c)).bufWritten = (x ++ c).length :=
        Nat.min_eq_right hxc.le
      rw [hpart, if_neg (Nat.ne_of_lt hxc), if_pos (by omega)]
      refine ⟨hs.parser, rfl, ?_⟩
      rw [passed, if_pos hxc, List.append_nil]
      exact hout
    · -- this read completes it: it goes out, then the descriptors, then the rest of the read
      have hfull : (s₀.data.descriptors.collected (x ++ c)).bufWritten = sizeofPcapHdr :=
        Nat.min_eq_left (Nat.le_of_not_lt hxc)
      obtain ⟨n, hn⟩ := writeHeader_ok he (s := { s with
        data := { s₀.data with descriptors := s₀.data.descriptors.collected (x ++ c) } }) h₀.handle
        (s₀.data.descriptors.collected (x ++ c)).buf
      rw [InjectDescriptors.buf_collected h₀.buf (Nat.le_of_not_lt hxc)] at hn ⊢
      rw [if_pos hfull, hn]
      generalize hu : State.withView _ _ n = u
      have hparser : u.parser = s₀.parser := by rw [← hu]; exact hs.parser
      have hdata : u.data = { s₀.data with
          descriptors := s₀.data.descriptors.collected (x ++ c) } := by rw [← hu]; rfl
      have houtput : u.output = s₀.output ++ preamble ((x ++ c).take sizeofPcapHdr)
          s₀.data.descriptors.descriptors := by rw [← hu, ← hout]; rfl
      have hpassed : passed s₀.data.descriptors.descriptors (x ++ c) =
          preamble ((x ++ c).take sizeofPcapHdr) s₀.data.descriptors.descriptors ++
            c.drop (min (sizeofPcapHdr - x.length) c.length) := by
        rw [passed, if_neg hxc, List.drop_append, List.drop_of_length_le hx.le, List.nil_append]
        congr 2
        rw [List.length_append] at hxc
        omega
      split
      · rename_i hnone
        refine ⟨hparser, hdata, ?_⟩
        rw [hpassed, List.drop_of_length_le (Nat.le_of_sub_eq_zero hnone), List.append_nil]
        exact houtput
      · rw [writeData_ok he (by rw [hdata]; exact h₀.handle)]
        refine ⟨hparser, hdata, ?_⟩
        rw [hpassed, ← List.append_assoc, ← houtput]
        rfl
  · -- the header is out, and the read is passed on as it is
    have hx' := Nat.le_of_not_lt hx
    have hw : s.data.descriptors.bufWritten = sizeofPcapHdr := by
      rw [hdesc]
      exact Nat.min_eq_left hx'
    rw [hw, if_neg (Nat.lt_irrefl _), writeData_ok he hhandle]
    refine ⟨hs.parser, ?_, ?_⟩
    · rw [InjectDescriptors.collected_append hx']
      exact hs.data
    · rw [passed_append hx', ← List.append_assoc, ← hs.output]
      rfl

/-- **A run of reads.** -/
theorem Passes.readThread (he : env.Stores) {s₀ s : State} (h₀ : s₀.Passing)
    (hpass : s₀.data.passesThrough) {x : List UInt8} (hs : Passes s₀ s x) (cs : List (List UInt8))
    (fuel : ℕ) :
    ∃ t, Cmd.readThread env fuel s cs = .ok t ∧ Passes s₀ t (x ++ cs.flatten) := by
  induction cs generalizing s x with
  | nil =>
    rw [List.flatten_nil, List.append_nil]
    exact ⟨s, rfl, hs⟩
  | cons c cs ih =>
    have hprocess : s.data.process = true := by
      rw [hs.data]
      exact h₀.process
    have hpass' : s.data.passesThrough := by
      rw [hs.data]
      exact hpass
    unfold Cmd.readThread Cmd.processData
    rw [hprocess, if_neg Bool.true_eq_false.mp, if_pos hpass', List.flatten_cons,
      ← List.append_assoc]
    exact ih (hs.passThrough he h₀ c)

end UsbPcap.Cmd
