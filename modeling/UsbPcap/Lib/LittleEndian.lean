import Mathlib.Data.Nat.Digits.Defs
import Mathlib.Data.Nat.Digits.Lemmas
import Mathlib.Tactic.Common

/-!
# Fixed-width little-endian fields

`encode w n` is the `w`-byte little-endian image of `n`, `decode` the number a run of bytes stands
for. Decoding an encoded field gives the number back modulo `256 ^ w`.
-/

namespace LittleEndian

/-- The `w` little-endian bytes of `n`; higher bytes are dropped. -/
def encode (w n : ℕ) : List UInt8 :=
  (List.range w).map fun i => UInt8.ofNat (n / 256 ^ i)

/-- The number with the given little-endian bytes. -/
def decode (bs : List UInt8) : ℕ :=
  Nat.ofDigits 256 (bs.map UInt8.toNat)

@[simp] theorem length_encode (w n : ℕ) : (encode w n).length = w := by
  simp [encode]

theorem encode_succ (w n : ℕ) : encode (w + 1) n = encode w n ++ [UInt8.ofNat (n / 256 ^ w)] := by
  simp [encode, List.range_succ]

theorem decode_append (as bs : List UInt8) :
    decode (as ++ bs) = decode as + 256 ^ as.length * decode bs := by
  simp [decode, Nat.ofDigits_append]

@[simp] theorem decode_singleton (b : UInt8) : decode [b] = b.toNat := by
  simp [decode]

/-- A field read back is the number modulo the range of the field. -/
theorem decode_encode (w n : ℕ) : decode (encode w n) = n % 256 ^ w := by
  induction w with
  | zero => simp [decode, encode, Nat.mod_one]
  | succ w ih =>
    have hbyte : (2 : ℕ) ^ 8 = 256 := rfl
    rw [encode_succ, decode_append, ih, length_encode, decode_singleton, UInt8.toNat_ofNat',
      hbyte, Nat.mod_pow_succ]

/-- A field of `w` bytes stands for a number below `256 ^ w`. -/
theorem decode_lt (bs : List UInt8) : decode bs < 256 ^ bs.length := by
  have h : ∀ d ∈ bs.map UInt8.toNat, d < 256 := by
    intro d hd
    obtain ⟨b, -, rfl⟩ := List.mem_map.mp hd
    exact b.toNat_lt
  simpa [decode] using Nat.ofDigits_lt_base_pow_length (by decide) h

end LittleEndian
