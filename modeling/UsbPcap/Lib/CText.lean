import Mathlib.Algebra.Order.Ring.Int
import Mathlib.Data.List.Basic
import Mathlib.Data.List.Induction
import Mathlib.Data.List.TakeWhile
import Mathlib.Tactic.Common

/-!
# Numbers in C strings

The text functions of the C library on strings given as lists of characters, without the terminating
NUL. `atoi` and `strtoul` saturate as they do where `int` and `long` have 32 bits. `decimal` is what
the conversion `%u` prints, and `atoi_decimal_append` says that `atoi` reads it back.
-/

namespace CText

/-- `isspace` -/
def isSpace (c : Char) : Bool := c ∈ [' ', '\t', '\n', '\x0b', '\x0c', '\r']

/-- An optional sign; `true` for minus. -/
def sign : List Char → Bool × List Char
  | [] => (false, [])
  | c :: cs => if c = '-' then (true, cs) else if c = '+' then (false, cs) else (false, c :: cs)

/-- `atoi` -/
def atoi (text : List Char) : ℤ :=
  let (negative, digits) := sign (text.dropWhile isSpace)
  let n : ℤ := Nat.ofDigitChars 10 (digits.takeWhile Char.isDigit) 0
  if negative then max (-n) (-2 ^ 31) else min n (2 ^ 31 - 1)

/-- The value of a digit in any base up to 36. -/
def digitValue (c : Char) : Option ℕ :=
  if c.isDigit then some (c.toNat - '0'.toNat)
  else if 'a' ≤ c ∧ c ≤ 'z' then some (c.toNat - 'a'.toNat + 10)
  else if 'A' ≤ c ∧ c ≤ 'Z' then some (c.toNat - 'A'.toNat + 10)
  else none

/-- A digit in base `b`. -/
def isDigitIn (b : ℕ) (c : Char) : Bool := (digitValue c).any (· < b)

/-- The number that digits denote in base `b`. -/
def ofDigits (b : ℕ) (digits : List Char) : ℕ :=
  digits.foldl (fun n c => b * n + (digitValue c).getD 0) 0

/-- The base that a prefix asks for, and what follows the prefix. -/
def basePrefix : List Char → ℕ × List Char
  | '0' :: x :: d :: cs =>
    if (x = 'x' ∨ x = 'X') ∧ isDigitIn 16 d then (16, d :: cs) else (8, '0' :: x :: d :: cs)
  | '0' :: cs => (8, '0' :: cs)
  | cs => (10, cs)

/-- `strtoul` with base 0: the number and the text behind it. -/
def strtoul (text : List Char) : ℕ × List Char :=
  let (negative, rest) := sign (text.dropWhile isSpace)
  let (b, digits) := basePrefix rest
  let run := digits.takeWhile (isDigitIn b)
  if run = [] then (0, text)
  else
    let n := ofDigits b run
    (if 2 ^ 32 ≤ n then 2 ^ 32 - 1 else if negative then (2 ^ 32 - n) % 2 ^ 32 else n,
      digits.dropWhile (isDigitIn b))

/-- `_stricmp(s, t) == 0` -/
def stricmp (s t : List Char) : Bool := s.map Char.toLower = t.map Char.toLower

/-- The bytes of a text in UTF-8. -/
def bytes (text : List Char) : List UInt8 := text.flatMap String.utf8EncodeChar

/-- The bytes of a string literal. -/
def literal (text : String) : List UInt8 := bytes text.toList

/-- What `%u` prints. -/
def decimal (n : ℕ) : List Char := Nat.toDigits 10 n

/-! ## Decimal numbers -/

/-- A number is printed in digits. -/
theorem isDigit_of_mem_decimal {n : ℕ} {c : Char} (h : c ∈ decimal n) : c.isDigit = true :=
  Nat.isDigit_of_mem_toDigits (by omega) (Nat.le_refl 10) h

/-- Zero is printed too. -/
theorem decimal_ne_nil (n : ℕ) : decimal n ≠ [] := Nat.toDigits_ne_nil

/-- A number below `10 ^ k` has at most `k` digits. -/
theorem length_decimal_le {n k : ℕ} (hk : 0 < k) (h : n < 10 ^ k) : (decimal n).length ≤ k :=
  (Nat.length_toDigits_le_iff (by omega) hk).mpr h

/-- No digit follows. -/
def StopsDigits (rest : List Char) : Prop := rest.takeWhile Char.isDigit = []

/-- Before something else, the digits are the number's. -/
theorem takeWhile_decimal_append (n : ℕ) {rest : List Char} (hrest : StopsDigits rest) :
    (decimal n ++ rest).takeWhile Char.isDigit = decimal n := by
  rw [List.takeWhile_append_of_pos fun c hc => isDigit_of_mem_decimal hc, hrest, List.append_nil]

/-- And the rest is left. -/
theorem dropWhile_decimal_append (n : ℕ) {rest : List Char} (hrest : StopsDigits rest) :
    (decimal n ++ rest).dropWhile Char.isDigit = rest := by
  rw [List.dropWhile_append_of_pos fun c hc => isDigit_of_mem_decimal hc]
  have h := List.takeWhile_append_dropWhile (p := Char.isDigit) (l := rest)
  rwa [hrest, List.nil_append] at h

/-- No digit is skipped as white space. -/
theorem isSpace_of_isDigit {c : Char} (h : c.isDigit = true) : isSpace c = false := by
  by_contra hspace
  rw [Bool.not_eq_false] at hspace
  have hmem : c ∈ [' ', '\t', '\n', '\x0b', '\x0c', '\r'] := of_decide_eq_true hspace
  simp only [List.mem_cons, List.not_mem_nil, or_false] at hmem
  rcases hmem with rfl | rfl | rfl | rfl | rfl | rfl <;> exact absurd h (by decide)

/-- On a digit, `atoi` reads the run of digits. -/
theorem atoi_digit {c : Char} (h : c.isDigit = true) (cs : List Char) :
    atoi (c :: cs) =
      min (Nat.ofDigitChars 10 ((c :: cs).takeWhile Char.isDigit) 0 : ℤ) (2 ^ 31 - 1) := by
  have hminus : c ≠ '-' := by
    rintro rfl
    exact absurd h (by decide)
  have hplus : c ≠ '+' := by
    rintro rfl
    exact absurd h (by decide)
  unfold atoi
  rw [List.dropWhile_cons_of_neg (by rw [isSpace_of_isDigit h]; exact Bool.false_ne_true), sign,
    if_neg hminus, if_neg hplus]
  rfl

/-- `atoi` reads what `%u` has printed. -/
theorem atoi_decimal_append {n : ℕ} (hn : n < 2 ^ 31) {rest : List Char}
    (hrest : StopsDigits rest) : atoi (decimal n ++ rest) = n := by
  obtain ⟨c, cs, hc⟩ := List.exists_cons_of_ne_nil (decimal_ne_nil n)
  have hdigit : c.isDigit = true := isDigit_of_mem_decimal (by rw [hc]; exact List.mem_cons_self)
  rw [hc, List.cons_append, atoi_digit hdigit, ← List.cons_append, ← hc,
    takeWhile_decimal_append n hrest, decimal, Nat.ofDigitChars_ten_toDigits]
  omega

/-- `atoi` saturates on what `%u` has printed. -/
theorem atoi_decimal (n : ℕ) : atoi (decimal n) = min (n : ℤ) (2 ^ 31 - 1) := by
  obtain ⟨c, cs, hc⟩ := List.exists_cons_of_ne_nil (decimal_ne_nil n)
  have hdigit : c.isDigit = true := isDigit_of_mem_decimal (by rw [hc]; exact List.mem_cons_self)
  have htake : (decimal n).takeWhile Char.isDigit = decimal n := by
    have h : (decimal n ++ []).takeWhile Char.isDigit = decimal n := takeWhile_decimal_append n rfl
    rwa [List.append_nil] at h
  rw [hc, atoi_digit hdigit, ← hc, htake, decimal, Nat.ofDigitChars_ten_toDigits]

/-! ## `strtoul` on decimal numbers -/

/-- A number without a leading zero. -/
theorem head_decimal {n : ℕ} (hn : 0 < n) : (decimal n).head? ≠ some '0' := by
  induction n using Nat.strongRecOn with
  | _ n ih =>
    by_cases hlt : n < 10
    · rw [decimal, Nat.toDigits_of_lt_base hlt, List.head?_cons]
      intro h
      have hzero := Nat.digitChar_eq_zero.mp (Option.some.inj h)
      omega
    · have hdiv : 0 < n / 10 := Nat.div_pos (Nat.le_of_not_lt hlt) (by omega)
      have h := ih (n / 10) (Nat.div_lt_self hn (by omega)) hdiv
      rw [decimal, Nat.toDigits_of_base_le (by omega) (Nat.le_of_not_lt hlt), ← decimal,
        List.head?_append_of_ne_nil _ (decimal_ne_nil (n / 10))]
      exact h

/-- The value of a decimal digit. -/
theorem digitValue_of_isDigit {c : Char} (h : c.isDigit = true) :
    digitValue c = some (c.toNat - '0'.toNat) := by
  unfold digitValue
  rw [if_pos h]

/-- The decimal digits are the digits to the base ten. -/
theorem isDigitIn_ten {c : Char} (h : c.isDigit = true) : isDigitIn 10 c = true := by
  have hnine : c.toNat ≤ '9'.toNat := by
    unfold Char.isDigit at h
    simp only [Bool.and_eq_true, decide_eq_true_eq] at h
    exact h.2
  unfold isDigitIn
  rw [digitValue_of_isDigit h]
  change decide (c.toNat - 48 < 10) = true
  have hnine' : c.toNat ≤ 57 := hnine
  exact decide_eq_true (by omega)

/-- Printed numbers are read back. -/
theorem ofDigits_decimal (n : ℕ) : ofDigits 10 (decimal n) = n := by
  have hfold : ofDigits 10 (decimal n) = Nat.ofDigitChars 10 (decimal n) 0 := by
    rw [Nat.ofDigitChars_eq_foldl]
    unfold ofDigits
    apply List.foldl_ext
    intro m c hc
    rw [digitValue_of_isDigit (isDigit_of_mem_decimal hc)]
    rfl
  rw [hfold]
  exact Nat.ofDigitChars_ten_toDigits

/-- `strtoul` reads what `%u` has printed. -/
theorem strtoul_decimal {n : ℕ} (hn : n < 2 ^ 32) : strtoul (decimal n) = (n, []) := by
  rcases Nat.eq_zero_or_pos n with rfl | hpos
  · rfl
  obtain ⟨c, cs, hc⟩ := List.exists_cons_of_ne_nil (decimal_ne_nil n)
  have hall : ∀ d ∈ decimal n, isDigitIn 10 d = true :=
    fun d hd => isDigitIn_ten (isDigit_of_mem_decimal hd)
  have hdigit : c.isDigit = true := isDigit_of_mem_decimal (by rw [hc]; exact List.mem_cons_self)
  -- no leading zero, so the base is ten
  have hzero : c ≠ '0' := by
    rintro rfl
    exact head_decimal hpos (by rw [hc]; rfl)
  have hsign : sign ((decimal n).dropWhile isSpace) = (false, decimal n) := by
    have hminus : c ≠ '-' := by
      rintro rfl
      exact absurd hdigit (by decide)
    have hplus : c ≠ '+' := by
      rintro rfl
      exact absurd hdigit (by decide)
    have hspace : ¬ isSpace c = true := by
      rw [isSpace_of_isDigit hdigit]
      exact Bool.false_ne_true
    rw [hc, List.dropWhile_cons_of_neg hspace, sign, if_neg hminus, if_neg hplus]
  have hbase : basePrefix (decimal n) = (10, decimal n) := by
    rw [hc]
    unfold basePrefix
    split
    · rename_i heq
      exact absurd (List.cons.inj heq).1 hzero
    · rename_i heq
      exact absurd (List.cons.inj heq).1 hzero
    · rfl
  unfold strtoul
  rw [hsign]
  dsimp only
  rw [hbase]
  dsimp only
  rw [List.takeWhile_eq_self_iff.mpr hall, List.dropWhile_eq_nil_iff.mpr hall,
    if_neg (decimal_ne_nil n), ofDigits_decimal, if_neg (by omega), if_neg Bool.false_ne_true]

/-! ## Hexadecimal numbers -/

/-- A digit as `%x` prints it. -/
def IsLowerHex (c : Char) : Prop := c ∈ "0123456789abcdef".toList

instance (c : Char) : Decidable (IsLowerHex c) := inferInstanceAs (Decidable (c ∈ _))

/-- What holds of the sixteen digits holds of every one. -/
theorem IsLowerHex.elim {p : Char → Prop} [DecidablePred p] {c : Char} (hc : IsLowerHex c)
    (h : "0123456789abcdef".toList.all (p ·) = true) : p c :=
  of_decide_eq_true (List.all_eq_true.mp h c hc)

/-- The printed hexadecimal digits are digits to the base sixteen. -/
theorem isDigitIn_of_isLowerHex {c : Char} (hc : IsLowerHex c) : isDigitIn 16 c = true :=
  hc.elim (p := fun c => isDigitIn 16 c = true) (by decide)

/-- They have no other spelling. -/
theorem toLower_of_isLowerHex {c : Char} (hc : IsLowerHex c) : c.toLower = c :=
  hc.elim (p := fun c => c.toLower = c) (by decide)

/-- They stand for numbers below sixteen. -/
theorem digitValue_lt_of_isLowerHex {c : Char} (hc : IsLowerHex c) :
    (digitValue c).getD 0 < 16 :=
  hc.elim (p := fun c => (digitValue c).getD 0 < 16) (by decide)

/-- Different ones stand for different numbers. -/
theorem digitValue_inj {c d : Char} (hc : IsLowerHex c) (hd : IsLowerHex d)
    (h : (digitValue c).getD 0 = (digitValue d).getD 0) : c = d := by
  revert h
  refine hd.elim (p := fun d => (digitValue c).getD 0 = (digitValue d).getD 0 → c = d) ?_
  exact hc.elim (p := fun c => "0123456789abcdef".toList.all (fun d =>
    decide ((digitValue c).getD 0 = (digitValue d).getD 0 → c = d)) = true) (by decide)

/-- The last digit counts once. -/
theorem ofDigits_concat (b : ℕ) (ds : List Char) (c : Char) :
    ofDigits b (ds ++ [c]) = b * ofDigits b ds + (digitValue c).getD 0 := by
  unfold ofDigits
  rw [List.foldl_append]
  rfl

/-- Numbers of the same width are determined by their values. -/
theorem ofDigits_inj {ds es : List Char} (hds : ∀ c ∈ ds, IsLowerHex c)
    (hes : ∀ c ∈ es, IsLowerHex c) (hlen : ds.length = es.length)
    (h : ofDigits 16 ds = ofDigits 16 es) : ds = es := by
  induction ds using List.reverseRecOn generalizing es with
  | nil => exact (List.eq_nil_of_length_eq_zero hlen.symm).symm
  | append_singleton ds c ih =>
    cases es using List.reverseRecOn with
    | nil =>
      rw [List.length_append] at hlen
      cases hlen
    | append_singleton es d =>
      have hc := hds c (List.mem_append_right _ List.mem_cons_self)
      have hd := hes d (List.mem_append_right _ List.mem_cons_self)
      have hclt := digitValue_lt_of_isLowerHex hc
      have hdlt := digitValue_lt_of_isLowerHex hd
      rw [ofDigits_concat, ofDigits_concat] at h
      rw [List.length_append, List.length_append] at hlen
      rw [ih (fun x hx => hds x (List.mem_append_left _ hx))
        (fun x hx => hes x (List.mem_append_left _ hx)) (Nat.add_right_cancel hlen) (by omega),
        digitValue_inj hc hd (by omega)]

/-- Zeros in front count nothing. -/
theorem ofDigits_zeros (k : ℕ) (ds : List Char) :
    ofDigits 16 (List.replicate k '0' ++ ds) = ofDigits 16 ds := by
  induction k with
  | zero => rfl
  | succ k ih => exact ih

/-- What `%x` prints. -/
def hexadecimal (n : ℕ) : List Char := Nat.toDigits 16 n

/-- A number below sixteen is printed as such a digit. -/
theorem isLowerHex_digitChar {d : ℕ} (hd : d < 16) : IsLowerHex d.digitChar := by
  revert d
  decide

/-- The last digit is the remainder. -/
theorem hexadecimal_of_le {n : ℕ} (h : 16 ≤ n) :
    hexadecimal n = hexadecimal (n / 16) ++ [(n % 16).digitChar] :=
  Nat.toDigits_of_base_le (by omega) h

/-- A number is printed in such digits. -/
theorem isLowerHex_of_mem_hexadecimal {n : ℕ} {c : Char} (hc : c ∈ hexadecimal n) :
    IsLowerHex c := by
  induction n using Nat.strongRecOn with
  | _ n ih =>
    by_cases hlt : n < 16
    · rw [hexadecimal, Nat.toDigits_of_lt_base hlt, List.mem_singleton] at hc
      rw [hc]
      exact isLowerHex_digitChar hlt
    · rw [hexadecimal_of_le (Nat.le_of_not_lt hlt), List.mem_append, List.mem_singleton] at hc
      rcases hc with hc | rfl
      · exact ih (n / 16) (Nat.div_lt_self (by omega) (by omega)) hc
      · exact isLowerHex_digitChar (Nat.mod_lt _ (by omega))

/-- One digit is read back. -/
theorem digitValue_digitChar {d : ℕ} (hd : d < 16) : (digitValue d.digitChar).getD 0 = d := by
  revert d
  decide

/-- Numbers printed to the base sixteen are read back. -/
theorem ofDigits_hexadecimal (n : ℕ) : ofDigits 16 (hexadecimal n) = n := by
  induction n using Nat.strongRecOn with
  | _ n ih =>
    by_cases hlt : n < 16
    · rw [hexadecimal, Nat.toDigits_of_lt_base hlt, ← List.nil_append [n.digitChar],
        ofDigits_concat, digitValue_digitChar hlt]
      change 16 * 0 + n = n
      omega
    · rw [hexadecimal_of_le (Nat.le_of_not_lt hlt), ofDigits_concat,
        ih (n / 16) (Nat.div_lt_self (by omega) (by omega)),
        digitValue_digitChar (Nat.mod_lt _ (by omega)), Nat.div_add_mod]

/-- `strtoul` reads hexadecimal digits behind `0x`. -/
theorem strtoul_hex {ds : List Char} (hne : ds ≠ []) (hds : ∀ c ∈ ds, IsLowerHex c)
    (hlt : ofDigits 16 ds < 2 ^ 32) : strtoul ('0' :: 'x' :: ds) = (ofDigits 16 ds, []) := by
  obtain ⟨d, cs, rfl⟩ := List.exists_cons_of_ne_nil hne
  have hall : ∀ c ∈ d :: cs, isDigitIn 16 c = true := fun c hc => isDigitIn_of_isLowerHex (hds c hc)
  have hsign : sign (('0' :: 'x' :: d :: cs).dropWhile isSpace) =
      (false, '0' :: 'x' :: d :: cs) := rfl
  have hbase : basePrefix ('0' :: 'x' :: d :: cs) = (16, d :: cs) := by
    unfold basePrefix
    exact if_pos ⟨Or.inl rfl, hall d List.mem_cons_self⟩
  unfold strtoul
  rw [hsign]
  dsimp only
  rw [hbase]
  dsimp only
  rw [List.takeWhile_eq_self_iff.mpr hall, List.dropWhile_eq_nil_iff.mpr hall, if_neg hne,
    if_neg (Nat.not_le.mpr hlt), if_neg Bool.false_ne_true]

/-- The digits that `%0kx` prints. -/
theorem isLowerHex_of_mem_leftpad {k n : ℕ} {c : Char}
    (hc : c ∈ (hexadecimal n).leftpad k '0') : IsLowerHex c := by
  rw [List.leftpad, List.mem_append] at hc
  rcases hc with hzero | hdigit
  · rw [List.eq_of_mem_replicate hzero]
    decide
  · exact isLowerHex_of_mem_hexadecimal hdigit

/-- Padding does not matter. -/
theorem ofDigits_leftpad (k n : ℕ) : ofDigits 16 ((hexadecimal n).leftpad k '0') = n := by
  rw [List.leftpad, ofDigits_zeros, ofDigits_hexadecimal]

/-- A number below `16 ^ k` is padded to `k` digits. -/
theorem length_leftpad_hexadecimal {k n : ℕ} (hk : 0 < k) (h : n < 16 ^ k) :
    ((hexadecimal n).leftpad k '0').length = k := by
  have hlen : (hexadecimal n).length ≤ k := (Nat.length_toDigits_le_iff (by omega) hk).mpr h
  rw [List.length_leftpad]
  omega

/-! ## Bytes -/

/-- Characters are encoded one by one. -/
theorem bytes_append (s t : List Char) : bytes (s ++ t) = bytes s ++ bytes t :=
  List.flatMap_append

/-- An ASCII character is one byte. -/
theorem utf8EncodeChar_ascii {c : Char} (h : c.toNat < 0x80) :
    String.utf8EncodeChar c = [UInt8.ofNat c.toNat] :=
  if_pos (Nat.le_of_lt_succ h)

/-- Every other character consists of bytes that are not ASCII. -/
theorem le_of_mem_utf8EncodeChar {c : Char} (h : 0x80 ≤ c.toNat) {b : UInt8}
    (hb : b ∈ String.utf8EncodeChar c) : 0x80 ≤ b.toNat := by
  have hbyte : ∀ n, 0x80 ≤ n → n < 256 → 0x80 ≤ (UInt8.ofNat n).toNat := by
    intro n hle hlt
    rwa [UInt8.toNat_ofNat_of_lt' hlt]
  have hnot : ¬ c.val.toNat ≤ 0x7f := Nat.not_le.mpr h
  rw [String.utf8EncodeChar, if_neg hnot] at hb
  split at hb
  · simp only [List.mem_cons, List.not_mem_nil, or_false] at hb
    rcases hb with rfl | rfl <;> exact hbyte _ (by omega) (by omega)
  · split at hb
    · simp only [List.mem_cons, List.not_mem_nil, or_false] at hb
      rcases hb with rfl | rfl | rfl <;> exact hbyte _ (by omega) (by omega)
    · simp only [List.mem_cons, List.not_mem_nil, or_false] at hb
      rcases hb with rfl | rfl | rfl | rfl <;> exact hbyte _ (by omega) (by omega)

/-- An ASCII byte only occurs in its own character. -/
theorem eq_of_ascii_mem {c d : Char} (hd : d.toNat < 0x80)
    (h : UInt8.ofNat d.toNat ∈ String.utf8EncodeChar c) : c = d := by
  have hlt : ∀ e : Char, e.toNat < 0x80 → (UInt8.ofNat e.toNat).toNat = e.toNat := fun e he =>
    UInt8.toNat_ofNat_of_lt' (Nat.lt_trans he (by decide))
  by_cases hascii : c.toNat < 0x80
  · rw [utf8EncodeChar_ascii hascii, List.mem_singleton] at h
    have hnat := congrArg UInt8.toNat h
    rw [hlt d hd, hlt c hascii] at hnat
    exact Char.toNat_inj.mp hnat.symm
  · have hhigh := le_of_mem_utf8EncodeChar (Nat.le_of_not_lt hascii) h
    rw [hlt d hd] at hhigh
    exact absurd hd (Nat.not_lt.mpr hhigh)

/-- A text without NULs has none in its bytes. -/
theorem zero_notMem_bytes {text : List Char} (h : '\x00' ∉ text) : 0 ∉ bytes text := by
  intro hzero
  obtain ⟨c, hc, hb⟩ := List.mem_flatMap.mp hzero
  exact h (eq_of_ascii_mem (d := '\x00') (by decide) hb ▸ hc)

/-- An ASCII byte stands between whole characters. -/
theorem bytes_split_ascii {t : List Char} {front behind : List UInt8} {x : UInt8}
    (hx : x.toNat < 0x80) (h : bytes t = front ++ x :: behind) :
    (∃ s, front = bytes s) ∧ ∃ s, behind = bytes s := by
  induction t generalizing front with
  | nil => exact absurd h.symm (List.append_ne_nil_of_right_ne_nil _ (List.cons_ne_nil _ _))
  | cons c t ih =>
    rw [bytes, List.flatMap_cons, List.append_eq_append_iff] at h
    rcases h with ⟨middle, rfl, hrest⟩ | ⟨middle, hc, hrest⟩
    · obtain ⟨⟨s, rfl⟩, hbehind⟩ := ih hrest
      exact ⟨⟨c :: s, rfl⟩, hbehind⟩
    · cases middle with
      | nil =>
        obtain ⟨-, hbehind⟩ := @ih [] hrest.symm
        refine ⟨⟨[c], ?_⟩, hbehind⟩
        rw [bytes, List.flatMap_singleton, hc, List.append_nil]
      | cons y middle =>
        -- the byte is in the character, which then is ASCII and this byte alone
        obtain ⟨rfl, rfl⟩ := List.cons.inj hrest
        have hmem : x ∈ String.utf8EncodeChar c := hc ▸ List.mem_append_right _ List.mem_cons_self
        have hascii : c.toNat < 0x80 := by
          by_contra hhigh
          exact absurd hx (Nat.not_lt.mpr (le_of_mem_utf8EncodeChar (Nat.le_of_not_lt hhigh) hmem))
        have hlength := congrArg List.length hc
        rw [utf8EncodeChar_ascii hascii, List.length_append, List.length_singleton,
          List.length_cons] at hlength
        have hfront : front = [] := List.length_eq_zero_iff.mp (by omega)
        have hmiddle : middle = [] := List.length_eq_zero_iff.mp (by omega)
        exact ⟨⟨[], hfront⟩, ⟨t, by rw [hmiddle]; rfl⟩⟩

/-- Behind ASCII bytes a character starts. -/
theorem bytes_drop_ascii {t : List Char} {front behind : List UInt8}
    (hfront : ∀ x ∈ front, x.toNat < 0x80) (h : bytes t = front ++ behind) :
    ∃ s, behind = bytes s := by
  induction front generalizing t with
  | nil => exact ⟨t, h.symm⟩
  | cons x front ih =>
    obtain ⟨-, s, hs⟩ := @bytes_split_ascii t [] _ x (hfront x List.mem_cons_self) h
    exact ih (fun y hy => hfront y (List.mem_cons_of_mem x hy)) hs.symm

end CText
