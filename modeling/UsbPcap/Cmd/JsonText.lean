import UsbPcap.Cmd.Options
import UsbPcap.Lib.Json
import Mathlib.Data.UInt

/-!
# Strings in JSON output

`json_print_escaped` goes over the bytes of a C string, and a JSON decoder over the characters of
the UTF-8 text that these are. Bytes outside of ASCII are written as they are, so that a character
keeps all its bytes, and the others are one character each. `decode_jsonPrintEscaped` says that the
decoder finds the string again, and `decode_printJsonError` that every error report is an object.
-/

namespace UsbPcap.Cmd

open CText Json

/-! ## `cmd.c` -/

/-- What `json_print_escaped` writes for a byte. -/
def escapeByte (c : UInt8) : List UInt8 :=
  if c = '\\'.toUInt8 then literal "\\\\"
  else if c = '"'.toUInt8 then literal "\\\""
  else if c = '\x08'.toUInt8 then literal "\\b"
  else if c = '\x0c'.toUInt8 then literal "\\f"
  else if c = '\n'.toUInt8 then literal "\\n"
  else if c = '\r'.toUInt8 then literal "\\r"
  else if c = '\t'.toUInt8 then literal "\\t"
  else if c < 0x20 then literal "\\u" ++ bytes ((hexadecimal c.toNat).leftpad 4 '0')
  else [c]

/-- The loop of `json_print_escaped`, which ends at the terminator. -/
def escapeBytes : List UInt8 → List UInt8
  | [] => []
  | c :: ptr => if c = 0 then [] else escapeByte c ++ escapeBytes ptr

/-- `json_print_escaped`; a null pointer is printed like an empty string. -/
def jsonPrintEscaped (value : Option (List UInt8)) : List UInt8 :=
  literal "\"" ++ value.elim [] escapeBytes ++ literal "\""

/-- `print_json_error` -/
def printJsonError (code message hint : Option (List UInt8)) : List UInt8 :=
  literal "\x7b\"ok\":false,\"errorCode\":" ++ jsonPrintEscaped code ++
    literal ",\"message\":" ++ jsonPrintEscaped message ++
    (if hint.isSome then literal ",\"hint\":" ++ jsonPrintEscaped hint else []) ++
    literal "\x7d\n"

/-! ## Characters -/

/-- What is written for a character. -/
def escapeChar (c : Char) : List Char :=
  if c = '\\' then ['\\', '\\']
  else if c = '"' then ['\\', '"']
  else if c = '\x08' then ['\\', 'b']
  else if c = '\x0c' then ['\\', 'f']
  else if c = '\n' then ['\\', 'n']
  else if c = '\r' then ['\\', 'r']
  else if c = '\t' then ['\\', 't']
  else if c.toNat < 0x20 then '\\' :: 'u' :: (hexadecimal c.toNat).leftpad 4 '0'
  else [c]

/-- On ASCII the two agree character by character. -/
theorem escapeByte_ascii :
    ∀ n < 0x80, escapeByte (UInt8.ofNat n) = bytes (escapeChar (Char.ofNat n)) := by
  decide +kernel

/-- Bytes outside ASCII are printed as they are. -/
theorem escapeByte_high {c : UInt8} (h : 0x80 ≤ c.toNat) : escapeByte c = [c] := by
  have hne : ∀ d : UInt8, d.toNat < 0x80 → c ≠ d := by
    rintro d hd rfl
    exact absurd h (Nat.not_le.mpr hd)
  have hprinted : ¬ c < 0x20 := by
    rw [UInt8.lt_iff_toNat_lt]
    exact Nat.not_lt.mpr (Nat.le_trans (by decide) h)
  rw [escapeByte]
  iterate 7 rw [if_neg (hne _ (by decide))]
  exact if_neg hprinted

/-- So are characters. -/
theorem escapeChar_high {c : Char} (h : 0x80 ≤ c.toNat) : escapeChar c = [c] := by
  have hne : ∀ d : Char, d.toNat < 0x80 → c ≠ d := by
    rintro d hd rfl
    exact absurd h (Nat.not_le.mpr hd)
  rw [escapeChar]
  iterate 7 rw [if_neg (hne _ (by decide))]
  exact if_neg (Nat.not_lt.mpr (Nat.le_trans (by decide) h))

/-- The bytes of one character are escaped to the bytes of its escape. -/
theorem flatMap_escapeByte (c : Char) :
    (String.utf8EncodeChar c).flatMap escapeByte = bytes (escapeChar c) := by
  by_cases hascii : c.toNat < 0x80
  · rw [utf8EncodeChar_ascii hascii, List.flatMap_singleton, escapeByte_ascii _ hascii,
      Char.ofNat_toNat]
  · have hle := Nat.le_of_not_lt hascii
    have hbytes : (String.utf8EncodeChar c).flatMap escapeByte =
        (String.utf8EncodeChar c).flatMap fun b => [b] :=
      List.flatMap_congr fun b hb => escapeByte_high (le_of_mem_utf8EncodeChar hle hb)
    rw [hbytes, List.flatMap_singleton', escapeChar_high hle]
    exact (List.flatMap_singleton _ _).symm

/-- Up to the NUL, bytes are escaped one by one. -/
theorem escapeBytes_eq_flatMap {s : List UInt8} (h : 0 ∉ s) :
    escapeBytes s = s.flatMap escapeByte := by
  induction s with
  | nil => rfl
  | cons c s ih =>
    have hc : c ≠ 0 := fun hzero => h (hzero ▸ List.mem_cons_self)
    rw [escapeBytes, if_neg hc, ih (mt (List.mem_cons_of_mem c) h), List.flatMap_cons]

/-- A string between quotation marks, with its escapes. -/
def quoted (s : List Char) : List Char := '"' :: (s.flatMap escapeChar ++ ['"'])

/-- The bytes of a text are printed as those of its quotation. -/
theorem jsonPrintEscaped_bytes {s : List Char} (h : '\x00' ∉ s) :
    jsonPrintEscaped (some (bytes s)) = bytes (quoted s) := by
  have hflat : (bytes s).flatMap escapeByte = bytes (s.flatMap escapeChar) := by
    rw [bytes, List.flatMap_assoc, bytes, List.flatMap_assoc]
    exact List.flatMap_congr fun c _ => flatMap_escapeByte c
  rw [jsonPrintEscaped, Option.elim_some, escapeBytes_eq_flatMap (zero_notMem_bytes h), hflat,
    quoted, ← List.singleton_append, bytes_append, bytes_append, List.append_assoc]
  rfl

/-- An ASCII byte is escaped by ASCII bytes, and a byte that is not ASCII by itself. -/
theorem escapeByte_cases (c : UInt8) : escapeByte c = [c] ∨
    (c.toNat < 0x80 ∧ ∃ x xs, escapeByte c = x :: xs ∧ ∀ y ∈ x :: xs, y.toNat < 0x80) := by
  by_cases hascii : c.toNat < 0x80
  · have hescaped : ∀ n < 0x80, escapeByte (UInt8.ofNat n) ≠ [] ∧
        (escapeByte (UInt8.ofNat n)).all fun y => y.toNat < 0x80 := by
      decide +kernel
    obtain ⟨hne, hall⟩ := hescaped c.toNat hascii
    rw [UInt8.ofNat_toNat] at hne hall
    obtain ⟨x, xs, hx⟩ := List.exists_cons_of_ne_nil hne
    rw [hx] at hall
    exact Or.inr ⟨hascii, x, xs, hx, fun y hy => of_decide_eq_true (List.all_eq_true.mp hall y hy)⟩
  · exact Or.inl (escapeByte_high (Nat.le_of_not_lt hascii))

/-- What is written for a string is UTF-8 only if the string is, with any bytes in front. -/
theorem eq_bytes_of_escaped {front s : List UInt8} {t : List Char}
    (h : bytes t = front ++ s.flatMap escapeByte) : ∃ text, front ++ s = bytes text := by
  induction s generalizing front t with
  | nil => exact ⟨t, h.symm⟩
  | cons c s ih =>
    rw [List.flatMap_cons] at h
    rcases escapeByte_cases c with hself | ⟨hascii, x, xs, hescaped, hxs⟩
    · rw [hself, ← List.append_assoc] at h
      obtain ⟨text, htext⟩ := ih h
      exact ⟨text, by rw [← htext, List.append_assoc, List.singleton_append]⟩
    · rw [hescaped, List.cons_append] at h
      obtain ⟨⟨before, rfl⟩, after, hafter⟩ := bytes_split_ascii (hxs x List.mem_cons_self) h
      obtain ⟨rest, hrest⟩ :=
        bytes_drop_ascii (fun y hy => hxs y (List.mem_cons_of_mem x hy)) hafter.symm
      obtain ⟨text, htext⟩ := @ih [] rest hrest.symm
      have hone : ∀ n < 0x80, bytes [Char.ofNat n] = [UInt8.ofNat n] := by
        decide +kernel
      have hc := hone c.toNat hascii
      rw [UInt8.ofNat_toNat] at hc
      refine ⟨before ++ [Char.ofNat c.toNat] ++ text, ?_⟩
      rw [bytes_append, bytes_append, hc, ← htext, List.append_assoc, List.nil_append,
        List.singleton_append]

/-! ## Decoding -/

/-- An escaped character denotes the character. -/
theorem denotes_escapeChar (c : Char) : Denotes (escapeChar c) c := by
  have hnamed : ∀ e d, escaped e = some d → c = d → Denotes ['\\', e] c := by
    rintro e d he rfl
    exact denotes_escaped he
  rw [escapeChar]
  split
  · exact hnamed '\\' _ rfl (by assumption)
  split
  · exact hnamed '"' _ rfl (by assumption)
  split
  · exact hnamed 'b' _ rfl (by assumption)
  split
  · exact hnamed 'f' _ rfl (by assumption)
  split
  · exact hnamed 'n' _ rfl (by assumption)
  split
  · exact hnamed 'r' _ rfl (by assumption)
  split
  · exact hnamed 't' _ rfl (by assumption)
  split
  · rename_i h
    refine denotes_unicode (length_leftpad_hexadecimal (by decide) (by omega)) ?_
      (ofDigits_leftpad 4 _) (by omega)
    exact List.all_eq_true.mpr fun d hd => isDigitIn_of_isLowerHex (isLowerHex_of_mem_leftpad hd)
  · rename_i hbackslash hquote _ _ _ _ _ hcontrol
    exact denotes_self ⟨hquote, hbackslash, Nat.le_of_not_lt hcontrol⟩

/-- So a quoted text is read back, up to its quote. -/
theorem string_quoted (s rest : List Char) :
    string (s.flatMap escapeChar ++ '"' :: rest) = some (s, rest) :=
  string_flatMap (fun c _ => denotes_escapeChar c) rest

/-- And means the text. -/
theorem means_quoted (s : List Char) : Means (quoted s) (.string s) := by
  refine means_string fun rest => ?_
  rw [List.append_assoc, List.singleton_append]
  exact string_quoted s rest

/-- What `json_print_escaped` writes for a string is a JSON text of that string. -/
theorem decode_jsonPrintEscaped (s : List Char) (h : '\x00' ∉ s) :
    decode (jsonPrintEscaped (some (bytes s))) = some (.string s) := by
  rw [jsonPrintEscaped_bytes h, ← List.append_nil (quoted s)]
  exact decode_of_means (means_quoted s) rfl

/-- A text with one character of each kind. -/
theorem decode_jsonPrintEscaped_sample :
    '\x00' ∉ ['\\', '"', '\x01', 'é', '😀'] ∧
      decode (jsonPrintEscaped (some (bytes ['\\', '"', '\x01', 'é', '😀']))) =
        some (.string ['\\', '"', '\x01', 'é', '😀']) :=
  ⟨by decide, decode_jsonPrintEscaped _ (by decide)⟩

/-- Every error report is one JSON object with the report's texts. -/
theorem decode_printJsonError (error : ErrorReport) (hcode : '\x00' ∉ error.code.toList)
    (hmessage : '\x00' ∉ error.message.toList) (hhint : '\x00' ∉ error.hint.toList) :
    decode (printJsonError (some (literal error.code)) (some (literal error.message))
      (some (literal error.hint))) =
      some (.object [("ok".toList, .bool false), ("errorCode".toList, .string error.code.toList),
        ("message".toList, .string error.message.toList),
        ("hint".toList, .string error.hint.toList)]) := by
  have hmeans := means_object (.cons (@means_member "ok".toList _ _ (by decide) means_false)
    (.cons (@means_member "errorCode".toList _ _ (by decide) (means_quoted error.code.toList))
      (.cons (@means_member "message".toList _ _ (by decide) (means_quoted error.message.toList))
        (.cons (@means_member "hint".toList _ _ (by decide) (means_quoted error.hint.toList))
          .nil))))
  rw [← @decode_of_means _ _ hmeans ['\n'] rfl]
  simp only [printJsonError, literal, jsonPrintEscaped_bytes hcode, jsonPrintEscaped_bytes hmessage,
    jsonPrintEscaped_bytes hhint, Option.isSome_some, if_true, ← bytes_append, separated_cons_cons,
    separated_singleton, member, List.append_assoc, List.cons_append, List.nil_append,
    String.reduceToList]

end UsbPcap.Cmd
