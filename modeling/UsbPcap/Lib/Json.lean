import Mathlib.Algebra.Field.Rat
import Mathlib.Data.List.Forall2
import UsbPcap.Lib.CText

/-!
# JSON texts

A decoder for JSON: UTF-8 first, then the grammar of values, with the white space that it allows
between tokens. Numbers are exact, and an escaped surrogate that is not part of a pair stands for
the replacement character.

`Means` says that a text denotes a value wherever it stands. There is one rule for every kind of
value, so that a program that prints JSON piece by piece can be compared with the document that it
means.
-/

namespace Json

open CText

inductive Value where
  | null
  | bool (b : Bool)
  | number (n : ℚ)
  | string (s : List Char)
  | array (elements : List Value)
  | object (members : List (List Char × Value))

/-! ## The decoder -/

def isWhitespace (c : Char) : Bool := c ∈ [' ', '\t', '\n', '\r']

def skipWhitespace (text : List Char) : List Char := text.dropWhile isWhitespace

/-- A piece of a string: a character, or a UTF-16 unit that is escaped by its number. -/
inductive Piece where
  | char (c : Char)
  | unit (u : ℕ)
deriving DecidableEq, Repr

/-- The character of a unit that stands alone. -/
def scalar (u : ℕ) : Char := if 0xD800 ≤ u ∧ u < 0xE000 then '\uFFFD' else Char.ofNat u

/-- The characters of the pieces; two units may be a surrogate pair. -/
def join : List Piece → List Char
  | [] => []
  | .char c :: pieces => c :: join pieces
  | .unit u :: .unit low :: pieces =>
    if (0xD800 ≤ u ∧ u < 0xDC00) ∧ 0xDC00 ≤ low ∧ low < 0xE000 then
      Char.ofNat (0x10000 + (u - 0xD800) * 0x400 + (low - 0xDC00)) :: join pieces
    else scalar u :: join (.unit low :: pieces)
  | .unit u :: pieces => scalar u :: join pieces

/-- The character behind a backslash that stands for another one. -/
def escaped : Char → Option Char
  | '"' => some '"'
  | '\\' => some '\\'
  | '/' => some '/'
  | 'b' => some '\x08'
  | 'f' => some '\x0c'
  | 'n' => some '\n'
  | 'r' => some '\r'
  | 't' => some '\t'
  | _ => none

/-- Put something in front of what was read. -/
def prepend {α : Type*} (x : α) (result : List α × List Char) : List α × List Char :=
  (x :: result.1, result.2)

/-- The pieces of a string up to its closing quotation mark. -/
def pieces : List Char → Option (List Piece × List Char)
  | [] => none
  | c :: rest =>
    if c = '"' then some ([], rest)
    else if c = '\\' then
      match rest with
      | [] => none
      | e :: rest =>
        if e = 'u' then
          match rest with
          | x :: y :: z :: w :: rest =>
            if [x, y, z, w].all (isDigitIn 16) then
              (pieces rest).map (prepend (.unit (ofDigits 16 [x, y, z, w])))
            else none
          | _ => none
        else (escaped e).bind fun c => (pieces rest).map (prepend (.char c))
    else if c.toNat < 0x20 then none
    else (pieces rest).map (prepend (.char c))

/-- A string behind its opening quotation mark. -/
def string (text : List Char) : Option (List Char × List Char) :=
  (pieces text).map fun result => (join result.1, result.2)

/-- One or more digits. -/
def digits (text : List Char) : Option (List Char × List Char) :=
  if text.takeWhile Char.isDigit = [] then none
  else some (text.takeWhile Char.isDigit, text.dropWhile Char.isDigit)

/-- The digits in front of the point: `0`, or a run that does not start with it. -/
def integer (text : List Char) : Option (ℕ × List Char) :=
  if text.head? = some '0' then some (0, text.tail)
  else (digits text).map fun result => (Nat.ofDigitChars 10 result.1 0, result.2)

/-- What follows the point, if there is one. -/
def fraction (text : List Char) : Option (ℚ × List Char) :=
  if text.head? = some '.' then
    (digits text.tail).map fun result =>
      ((Nat.ofDigitChars 10 result.1 0 : ℚ) / 10 ^ result.1.length, result.2)
  else some (0, text)

/-- The power of ten, if one is given. -/
def exponent (text : List Char) : Option (ℚ × List Char) :=
  if text.head? = some 'e' ∨ text.head? = some 'E' then
    (digits (sign text.tail).2).map fun result =>
      let power : ℚ := 10 ^ Nat.ofDigitChars 10 result.1 0
      (if (sign text.tail).1 then 1 / power else power, result.2)
  else some (1, text)

def number (text : List Char) : Option (ℚ × List Char) := do
  let (n, rest) ← integer (if text.head? = some '-' then text.tail else text)
  let (f, rest) ← fraction rest
  let (e, rest) ← exponent rest
  return ((if text.head? = some '-' then -1 else 1) * (n + f) * e, rest)

/-- `true`, `false` and `null`. -/
def name (text : List Char) : Option (Value × List Char) :=
  (("true".toList.isPrefixOf? text).map fun rest => (.bool true, rest)) <|>
    (("false".toList.isPrefixOf? text).map fun rest => (.bool false, rest)) <|>
      ("null".toList.isPrefixOf? text).map fun rest => (.null, rest)

/-- The text behind a character that must come next. -/
def token (c : Char) (text : List Char) : Option (List Char) :=
  if (skipWhitespace text).head? = some c then some (skipWhitespace text).tail else none

/-- One or more items with commas between them and `close` behind the last one. -/
def items {α : Type*} (item : List Char → Option (α × List Char)) (close : Char) :
    ℕ → List Char → Option (List α × List Char)
  | 0, _ => none
  | bound + 1, text =>
    match item text with
    | none => none
    | some (x, rest) =>
      match token ',' rest with
      | some rest => (items item close bound rest).map (prepend x)
      | none => (token close rest).map fun rest => ([x], rest)

/-- Any number of items, which is at most the number of characters. -/
def list {α : Type*} (item : List Char → Option (α × List Char)) (close : Char)
    (text : List Char) : Option (List α × List Char) :=
  match token close text with
  | some rest => some ([], rest)
  | none => items item close text.length text

/-- A key, a colon and a value. -/
def keyed {α : Type} (value : List Char → Option (α × List Char)) (text : List Char) :
    Option ((List Char × α) × List Char) := do
  let (key, rest) ← (token '"' text).bind string
  let (v, rest) ← (token ':' rest).bind value
  return ((key, v), rest)

/-- A value and what follows it. A level of nesting takes one unit of fuel. -/
def value : ℕ → List Char → Option (Value × List Char)
  | 0, _ => none
  | fuel + 1, text =>
    match skipWhitespace text with
    | [] => none
    | c :: rest =>
      if c = '"' then (string rest).map fun result => (.string result.1, result.2)
      else if c = '[' then
        (list (value fuel) ']' rest).map fun result => (.array result.1, result.2)
      else if c = '{' then
        (list (keyed (value fuel)) '}' rest).map fun result => (.object result.1, result.2)
      else if c = '-' ∨ c.isDigit then
        (number (c :: rest)).map fun result => (.number result.1, result.2)
      else name (c :: rest)

/-- The characters of a UTF-8 text. -/
def decodeUtf8 (text : List UInt8) : Option (List Char) :=
  text.toByteArray.utf8Decode?.map Array.toList

/-- The value of a JSON text. There are at most as many levels as characters. -/
def decode (text : List UInt8) : Option Value := do
  let text ← decodeUtf8 text
  let (v, rest) ← value text.length text
  if skipWhitespace rest = [] then some v else none

/-! ## Bytes and tokens -/

/-- What was encoded is decoded again. -/
theorem decodeUtf8_bytes (text : List Char) : decodeUtf8 (bytes text) = some text := by
  have h : (bytes text).toByteArray.utf8Decode? = some text.toArray := List.utf8Decode?_utf8Encode
  rw [decodeUtf8, h, Option.map_some, List.toList_toArray]

/-- Only a UTF-8 text is decoded. -/
theorem eq_bytes_of_decodeUtf8 {text : List UInt8} {cs : List Char}
    (h : decodeUtf8 text = some cs) : text = bytes cs := by
  obtain ⟨decoded, hdecoded, rfl⟩ := Option.map_eq_some_iff.mp h
  obtain ⟨s, hs⟩ := ByteArray.isSome_utf8Decode?_iff.mp (Option.isSome_of_mem hdecoded)
  have hbytes : text.toByteArray.data.toList = (bytes s).toByteArray.data.toList :=
    congrArg (fun b => b.data.toList) hs
  rw [List.toList_data_toByteArray, List.toList_data_toByteArray] at hbytes
  rw [hs, List.utf8Decode?_utf8Encode] at hdecoded
  rw [← Option.some.inj hdecoded]
  exact hbytes

/-- Nothing is skipped before a character that is no blank. -/
theorem skipWhitespace_cons {c : Char} (h : isWhitespace c = false) (rest : List Char) :
    skipWhitespace (c :: rest) = c :: rest :=
  List.dropWhile_cons_of_neg (by rw [h]; exact Bool.false_ne_true)

/-- A token is taken where it stands. -/
theorem token_self {c : Char} (h : isWhitespace c = false) (rest : List Char) :
    token c (c :: rest) = some rest := by
  rw [token, skipWhitespace_cons h]
  exact if_pos rfl

/-- And only there. -/
theorem token_ne {c d : Char} (h : isWhitespace c = false) (hne : c ≠ d) (rest : List Char) :
    token d (c :: rest) = none := by
  rw [token, skipWhitespace_cons h]
  exact if_neg fun heq => hne (Option.some.inj heq)

/-! ## Strings -/

/-- A text that stands for one character of a string. -/
def Denotes (text : List Char) (c : Char) : Prop :=
  ∃ piece, (piece = .char c ∨ piece = .unit c.toNat ∧ c.toNat < 0xD800) ∧
    ∀ rest, pieces (text ++ rest) = (pieces rest).map (prepend piece)

/-- A character that stands for itself in a string. -/
def Plain (c : Char) : Prop := c ≠ '"' ∧ c ≠ '\\' ∧ 0x20 ≤ c.toNat

instance (c : Char) : Decidable (Plain c) := inferInstanceAs (Decidable (_ ∧ _ ∧ _))

/-- A plain character stands for itself in a string. -/
theorem denotes_self {c : Char} (h : Plain c) : Denotes [c] c := by
  obtain ⟨hquote, hbackslash, hcontrol⟩ := h
  refine ⟨.char c, Or.inl rfl, fun rest => ?_⟩
  rw [List.singleton_append, pieces.eq_def]
  dsimp only
  rw [if_neg hquote, if_neg hbackslash, if_neg (Nat.not_lt.mpr hcontrol)]

/-- A backslash and a letter. -/
theorem denotes_escaped {e c : Char} (h : escaped e = some c) : Denotes ['\\', e] c := by
  refine ⟨.char c, Or.inl rfl, fun rest => ?_⟩
  have hu : e ≠ 'u' := by
    rintro rfl
    cases h
  rw [List.cons_append, List.singleton_append, pieces.eq_def]
  dsimp only
  rw [if_neg (by decide), if_pos rfl, if_neg hu, h, Option.bind_some]

/-- A backslash and the number of the character. -/
theorem denotes_unicode {ds : List Char} {c : Char} (hlength : ds.length = 4)
    (hhex : ds.all (isDigitIn 16) = true) (h : ofDigits 16 ds = c.toNat) (hlt : c.toNat < 0xD800) :
    Denotes ('\\' :: 'u' :: ds) c := by
  obtain ⟨x, y, z, w, rfl⟩ := List.length_eq_four.mp hlength
  refine ⟨.unit c.toNat, Or.inr ⟨rfl, hlt⟩, fun rest => ?_⟩
  simp only [List.cons_append, List.nil_append]
  rw [pieces.eq_def]
  dsimp only
  rw [if_neg (by decide), if_pos rfl, if_pos rfl, if_pos hhex, h]

/-- A unit below the surrogates is a character of its own. -/
theorem join_unit {u : ℕ} (h : u < 0xD800) (rest : List Piece) :
    join (.unit u :: rest) = Char.ofNat u :: join rest := by
  have hscalar : scalar u = Char.ofNat u := if_neg fun hu => absurd hu.1 (Nat.not_le.mpr h)
  rcases rest with _ | ⟨c | low, rest⟩
  · simp only [join, hscalar]
  · simp only [join, hscalar]
  · rw [join, if_neg fun hu => absurd hu.1.1 (Nat.not_le.mpr h), hscalar]

/-- A string whose characters are written one after the other. -/
theorem string_flatMap {encode : Char → List Char} {s : List Char}
    (h : ∀ c ∈ s, Denotes (encode c) c) (rest : List Char) :
    string (s.flatMap encode ++ '"' :: rest) = some (s, rest) := by
  have hpieces : ∃ ps,
      pieces (s.flatMap encode ++ '"' :: rest) = some (ps, rest) ∧ join ps = s := by
    induction s with
    | nil => exact ⟨[], pieces.eq_def _, rfl⟩
    | cons c s ih =>
      obtain ⟨ps, hps, hjoin⟩ := ih fun d hd => h d (List.mem_cons_of_mem c hd)
      obtain ⟨piece, hpiece, hread⟩ := h c List.mem_cons_self
      refine ⟨piece :: ps, ?_, ?_⟩
      · rw [List.flatMap_cons, List.append_assoc, hread, hps]
        rfl
      · rcases hpiece with rfl | ⟨rfl, hlt⟩
        · rw [join, hjoin]
        · rw [join_unit hlt, hjoin, Char.ofNat_toNat]
  obtain ⟨ps, hps, hjoin⟩ := hpieces
  rw [string, hps, Option.map_some, hjoin]

/-- A string of plain characters ends at the first quote. -/
theorem string_plain {s : List Char} (h : ∀ c ∈ s, Plain c) (rest : List Char) :
    string (s ++ '"' :: rest) = some (s, rest) := by
  have hread := string_flatMap (fun c hc => denotes_self (h c hc)) rest
  rwa [List.flatMap_singleton'] at hread

/-- The test of a literal text. -/
theorem plain_of_all {s : List Char} (h : s.all fun c => Plain c) : ∀ c ∈ s, Plain c :=
  fun c hc => of_decide_eq_true (List.all_eq_true.mp h c hc)

/-- Hexadecimal digits are plain. -/
theorem plain_of_isLowerHex {c : Char} (h : IsLowerHex c) : Plain c := h.elim (by decide)

/-! ## Values wherever they stand -/

/-- Nothing follows that could belong to a number. -/
def Ends (rest : List Char) : Prop :=
  ∀ c ∈ rest.head?, c.isDigit = false ∧ c ∉ ['.', 'e', 'E']

/-- A number ends before any character that could not be part of it. -/
theorem ends_cons {c : Char} (h : c.isDigit = false ∧ c ∉ ['.', 'e', 'E']) (rest : List Char) :
    Ends (c :: rest) := by
  intro d hd
  rw [← Option.some.inj hd]
  exact h

/-- There its digits end too. -/
theorem Ends.stopsDigits {rest : List Char} (h : Ends rest) : StopsDigits rest := by
  cases rest with
  | nil => rfl
  | cons c rest =>
    refine List.takeWhile_cons_of_neg ?_
    rw [(h c rfl).1]
    exact Bool.false_ne_true

/-- And no fraction and no exponent follows. -/
theorem Ends.head_ne {rest : List Char} (h : Ends rest) {c : Char} (hc : c ∈ ['.', 'e', 'E']) :
    rest.head? ≠ some c :=
  fun hhead => (h c hhead).2 hc

/-- The text denotes the value, whatever follows that does not continue a number. It starts with its
first token, which is not a closing bracket. -/
structure Means (text : List Char) (v : Value) : Prop where
  head : ∃ c rest, text = c :: rest ∧ isWhitespace c = false ∧ c ≠ ']'
  value : ∀ fuel rest, text.length ≤ fuel → Ends rest → value fuel (text ++ rest) = some (v, rest)

/-- No value begins with a closing bracket. -/
theorem Means.token_none {text : List Char} {v : Value} (h : Means text v) (rest : List Char) :
    token ']' (text ++ rest) = none := by
  obtain ⟨c, cs, rfl, hspace, hne⟩ := h.head
  exact token_ne hspace hne _

/-- `true` means true. -/
theorem means_true : Means "true".toList (.bool true) where
  head := ⟨_, _, rfl, by decide, by decide⟩
  value := by
    rintro (_ | fuel) rest hfuel -
    · exact absurd hfuel (by decide)
    · rfl

/-- `false` means false. -/
theorem means_false : Means "false".toList (.bool false) where
  head := ⟨_, _, rfl, by decide, by decide⟩
  value := by
    rintro (_ | fuel) rest hfuel -
    · exact absurd hfuel (by decide)
    · rfl

/-- A string literal is a value if its characters are read as the string. -/
theorem means_string {body s : List Char} (h : ∀ rest, string (body ++ rest) = some (s, rest)) :
    Means ('"' :: body) (.string s) where
  head := ⟨_, _, rfl, by decide, by decide⟩
  value := by
    rintro (_ | fuel) rest hfuel -
    · rw [List.length_cons] at hfuel
      omega
    · rw [List.cons_append, Json.value, skipWhitespace_cons (by decide)]
      dsimp only
      rw [if_pos rfl, h, Option.map_some]

/-- A plain text between quotes means that string. -/
theorem means_plain {s : List Char} (h : ∀ c ∈ s, Plain c) :
    Means ('"' :: (s ++ ['"'])) (.string s) := by
  refine means_string fun rest => ?_
  rw [List.append_assoc, List.singleton_append]
  exact string_plain h rest

/-- A printed number is read up to its end. -/
theorem integer_decimal (n : ℕ) {rest : List Char} (hrest : StopsDigits rest) :
    integer (decimal n ++ rest) = some (n, rest) := by
  rcases Nat.eq_zero_or_pos n with rfl | hpos
  · exact if_pos rfl
  · have hhead : (decimal n ++ rest).head? ≠ some '0' := by
      rw [List.head?_append_of_ne_nil _ (decimal_ne_nil n)]
      exact head_decimal hpos
    rw [integer, if_neg hhead, digits, takeWhile_decimal_append n hrest,
      dropWhile_decimal_append n hrest, if_neg (decimal_ne_nil n), Option.map_some, decimal,
      Nat.ofDigitChars_ten_toDigits]

/-- And is no fraction. -/
theorem number_decimal (n : ℕ) {rest : List Char} (hrest : Ends rest) :
    number (decimal n ++ rest) = some ((n : ℚ), rest) := by
  obtain ⟨c, cs, hc⟩ := List.exists_cons_of_ne_nil (decimal_ne_nil n)
  have hdigit : c.isDigit = true := isDigit_of_mem_decimal (by rw [hc]; exact List.mem_cons_self)
  have hminus : (decimal n ++ rest).head? ≠ some '-' := by
    rw [hc]
    intro h
    rw [Option.some.inj h] at hdigit
    exact absurd hdigit (by decide)
  have hfraction : fraction rest = some (0, rest) := if_neg (hrest.head_ne (by decide))
  have hexponent : exponent rest = some (1, rest) :=
    if_neg (not_or.mpr ⟨hrest.head_ne (by decide), hrest.head_ne (by decide)⟩)
  rw [number, if_neg hminus, if_neg hminus, integer_decimal n hrest.stopsDigits]
  simp only [Option.bind_eq_bind, Option.bind_some, hfraction, hexponent, add_zero, mul_one,
    one_mul]
  rfl

/-- A printed number means that number. -/
theorem means_decimal (n : ℕ) : Means (decimal n) (.number n) := by
  obtain ⟨c, cs, hc⟩ := List.exists_cons_of_ne_nil (decimal_ne_nil n)
  have hdigit : c.isDigit = true := isDigit_of_mem_decimal (by rw [hc]; exact List.mem_cons_self)
  have hne : ∀ d : Char, d.isDigit = false → c ≠ d := by
    rintro d hd rfl
    rw [hdigit] at hd
    cases hd
  have hspace : isWhitespace c = false := by
    refine decide_eq_false ?_
    simp only [List.mem_cons, List.not_mem_nil, or_false, not_or]
    exact ⟨hne ' ' (by decide), hne '\t' (by decide), hne '\n' (by decide), hne '\r' (by decide)⟩
  refine ⟨⟨c, cs, hc, hspace, hne ']' (by decide)⟩, ?_⟩
  rintro (_ | fuel) rest hfuel hrest
  · rw [hc, List.length_cons] at hfuel
    omega
  · have hnumber := number_decimal n hrest
    rw [hc, List.cons_append] at hnumber ⊢
    rw [Json.value, skipWhitespace_cons hspace]
    dsimp only
    rw [if_neg (hne '"' (by decide)), if_neg (hne '[' (by decide)), if_neg (hne '{' (by decide)),
      if_pos (Or.inr hdigit), hnumber, Option.map_some]

/-! ## Arrays and objects -/

/-- A comma ends a number. -/
theorem ends_comma (rest : List Char) : Ends (',' :: rest) :=
  ends_cons ⟨by decide, by decide⟩ rest

/-- A list of texts with commas between them. -/
def separated (texts : List (List Char)) : List Char := List.intercalate [','] texts

/-- One text needs no comma. -/
theorem separated_singleton (text : List Char) : separated [text] = text :=
  List.intercalate_singleton

/-- The first of several texts is followed by a comma. -/
theorem separated_cons_cons (text next : List Char) (texts : List (List Char)) :
    separated (text :: next :: texts) = text ++ ',' :: separated (next :: texts) := by
  rw [separated, List.intercalate_cons_cons, List.append_assoc]
  rfl

/-- All but the first have a comma before them. -/
theorem separated_cons (text : List Char) (texts : List (List Char)) :
    separated (text :: texts) = text ++ texts.flatMap (',' :: ·) := by
  induction texts generalizing text with
  | nil => rw [separated_singleton, List.flatMap_nil, List.append_nil]
  | cons next texts ih => rw [separated_cons_cons, ih, List.flatMap_cons, List.cons_append]

/-- No text is longer than the whole. -/
theorem length_le_separated {text : List Char} {texts : List (List Char)} (h : text ∈ texts) :
    text.length ≤ (separated texts).length := by
  induction texts with
  | nil => exact absurd h List.not_mem_nil
  | cons first texts ih =>
    rcases List.mem_cons.mp h with rfl | hrest
    · rw [separated_cons, List.length_append]
      exact Nat.le_add_right _ _
    · cases texts with
      | nil => exact absurd hrest List.not_mem_nil
      | cons next texts =>
        have hle := ih hrest
        rw [separated_cons_cons, List.length_append, List.length_cons]
        omega

/-- There are at most as many texts as characters, and one. -/
theorem length_texts_le (texts : List (List Char)) :
    texts.length ≤ (separated texts).length + 1 := by
  induction texts with
  | nil => exact Nat.zero_le _
  | cons text texts ih =>
    cases texts with
    | nil => exact Nat.succ_le_succ (Nat.zero_le _)
    | cons next texts =>
      rw [separated_cons_cons, List.length_append, List.length_cons (a := ',')]
      rw [List.length_cons]
      omega

section Items

variable {α : Type*} {item : List Char → Option (α × List Char)} {close : Char}

/-- The item is read from the text, whatever follows that does not continue a number. -/
def Parses (item : List Char → Option (α × List Char)) (text : List Char) (x : α) : Prop :=
  ∀ rest, Ends rest → item (text ++ rest) = some (x, rest)

/-- A closing bracket or brace. -/
def Closes (close : Char) : Prop := close ∈ [']', '}']

instance (close : Char) : Decidable (Closes close) := inferInstanceAs (Decidable (_ ∈ _))

/-- A closing bracket is taken as such, and ends a number. -/
theorem Closes.token (h : Closes close) (rest : List Char) :
    token close (close :: rest) = some rest ∧ token ',' (close :: rest) = none ∧
      Ends (close :: rest) := by
  simp only [Closes, List.mem_cons, List.not_mem_nil, or_false] at h
  rcases h with rfl | rfl
  · exact ⟨token_self (by decide) _, token_ne (by decide) (by decide) _,
      ends_cons ⟨by decide, by decide⟩ _⟩
  · exact ⟨token_self (by decide) _, token_ne (by decide) (by decide) _,
      ends_cons ⟨by decide, by decide⟩ _⟩

/-- No items can be read where the first cannot. -/
theorem items_none {text : List Char} (h : item text = none) (bound : ℕ) :
    items item close bound text = none := by
  cases bound with
  | zero => rfl
  | succ bound => rw [items, h]

/-- A bound on the number of items is enough. -/
theorem items_separated (hclose : Closes close) {text : List Char} {x : α}
    {texts : List (List Char)} {xs : List α}
    (h : List.Forall₂ (Parses item) (text :: texts) (x :: xs)) {bound : ℕ}
    (hbound : texts.length < bound) (rest : List Char) :
    items item close bound (separated (text :: texts) ++ close :: rest) =
      some (x :: xs, rest) := by
  induction texts generalizing text x xs bound with
  | nil =>
    obtain ⟨bound, rfl⟩ := Nat.exists_eq_add_one_of_ne_zero (Nat.ne_zero_of_lt hbound)
    obtain ⟨hx, hrest⟩ := List.forall₂_cons.mp h
    obtain ⟨hself, hcomma, hends⟩ := hclose.token rest
    rw [List.forall₂_nil_left_iff.mp hrest, separated_singleton, items, hx _ hends]
    dsimp only
    rw [hcomma]
    dsimp only
    rw [hself, Option.map_some]
  | cons next texts ih =>
    obtain ⟨bound, rfl⟩ := Nat.exists_eq_add_one_of_ne_zero (Nat.ne_zero_of_lt hbound)
    obtain ⟨hx, hrest⟩ := List.forall₂_cons.mp h
    obtain ⟨y, ys, hy, hys, rfl⟩ := List.forall₂_cons_left_iff.mp hrest
    rw [separated_cons_cons, List.append_assoc, List.cons_append, items, hx _ (ends_comma _)]
    dsimp only
    rw [token_self (by decide)]
    dsimp only
    rw [ih (.cons hy hys) (Nat.lt_of_succ_lt_succ hbound), Option.map_some]
    rfl

/-- The items between the brackets, none of which looks like the closing one. -/
theorem list_separated (hclose : Closes close) {texts : List (List Char)} {xs : List α}
    (h : List.Forall₂ (Parses item) texts xs)
    (hhead : ∀ text ∈ texts, ∀ rest, token close (text ++ rest) = none) (rest : List Char) :
    list item close (separated texts ++ close :: rest) = some (xs, rest) := by
  rw [list]
  cases h with
  | nil =>
    have hempty : token close (separated [] ++ close :: rest) = some rest := (hclose.token rest).1
    rw [hempty]
  | @cons text x texts xs hx hxs =>
    have hnone : token close (separated (text :: texts) ++ close :: rest) = none := by
      rw [separated_cons, List.append_assoc]
      exact hhead text List.mem_cons_self _
    have hbound : texts.length < (separated (text :: texts) ++ close :: rest).length := by
      have hle := length_texts_le (text :: texts)
      rw [List.length_cons] at hle
      rw [List.length_append, List.length_cons]
      omega
    rw [hnone]
    exact items_separated hclose (.cons hx hxs) hbound rest

/-- The same for items in any relation to their texts that says how each is read. -/
theorem list_of_forall₂ (hclose : Closes close) {R : List Char → α → Prop}
    {texts : List (List Char)} {xs : List α} (h : List.Forall₂ R texts xs)
    (hitem : ∀ text x, R text x → text.length ≤ (separated texts).length → Parses item text x)
    (hhead : ∀ text x, R text x → ∀ rest, token close (text ++ rest) = none) (rest : List Char) :
    list item close (separated texts ++ close :: rest) = some (xs, rest) := by
  have hlength : ∀ text ∈ texts, text.length ≤ (separated texts).length :=
    fun text ht => length_le_separated ht
  have hparses : List.Forall₂ (Parses item) texts xs :=
    ((List.forall₂_and_left _ _).mpr ⟨hlength, h⟩).imp fun text x hx => hitem text x hx.2 hx.1
  have hheads : ∀ text ∈ texts, ∀ rest, token close (text ++ rest) = none :=
    ((List.forall₂_and_left _ _).mp (h.imp fun text x hx => ⟨hhead text x hx, hx⟩)).1
  exact list_separated hclose hparses hheads rest

end Items

/-- The texts of some values between brackets mean their array. -/
theorem means_array {texts : List (List Char)} {vs : List Value} (h : List.Forall₂ Means texts vs) :
    Means ('[' :: (separated texts ++ [']'])) (.array vs) where
  head := ⟨_, _, rfl, by decide, by decide⟩
  value := by
    rintro (_ | fuel) rest hfuel -
    · rw [List.length_cons] at hfuel
      omega
    · simp only [List.length_cons, List.length_append, List.length_nil] at hfuel
      have hle : (separated texts).length ≤ fuel := by omega
      have hlist := list_of_forall₂ (by decide) h
        (fun text v hv htext rest hrest => hv.value fuel rest (Nat.le_trans htext hle) hrest)
        (fun text v hv => hv.token_none) rest
      rw [List.cons_append, List.append_assoc, List.singleton_append, Json.value,
        skipWhitespace_cons (by decide)]
      dsimp only
      rw [if_neg (by decide), if_pos rfl, hlist, Option.map_some]

/-- A key, a colon and a value. -/
def MeansMember (text : List Char) (member : List Char × Value) : Prop :=
  ∃ body valueText, text = '"' :: (body ++ ':' :: valueText) ∧
    (∀ rest, string (body ++ rest) = some (member.1, rest)) ∧ Means valueText member.2

/-- A member with a key that needs no escapes. -/
def member (key text : List Char) : List Char := '"' :: (key ++ '"' :: ':' :: text)

/-- A plain key and the text of a value mean a member. -/
theorem means_member {key text : List Char} {v : Value} (hkey : key.all fun c => Plain c)
    (h : Means text v) : MeansMember (member key text) (key, v) := by
  refine ⟨key ++ ['"'], text, ?_, fun rest => ?_, h⟩
  · rw [member, List.append_assoc, List.singleton_append]
  · rw [List.append_assoc, List.singleton_append]
    exact string_plain (plain_of_all hkey) rest

/-- No member begins with a closing brace. -/
theorem MeansMember.token_none {text : List Char} {m : List Char × Value} (h : MeansMember text m)
    (rest : List Char) : token '}' (text ++ rest) = none := by
  obtain ⟨body, valueText, rfl, -, -⟩ := h
  exact token_ne (by decide) (by decide) _

/-- A member is read with as much fuel as it has characters. -/
theorem MeansMember.parses {text : List Char} {m : List Char × Value} (h : MeansMember text m)
    {fuel : ℕ} (hfuel : text.length ≤ fuel) : Parses (keyed (value fuel)) text m := by
  obtain ⟨body, valueText, rfl, hkey, hv⟩ := h
  rw [List.length_cons, List.length_append, List.length_cons] at hfuel
  intro rest hrest
  rw [List.cons_append, List.append_assoc, List.cons_append, keyed, token_self (by decide)]
  simp only [Option.bind_eq_bind, Option.bind_some, hkey]
  rw [token_self (by decide)]
  simp only [Option.bind_some, hv.value fuel rest (by omega) hrest]
  rfl

/-- The texts of some members between braces mean their object. -/
theorem means_object {texts : List (List Char)} {ms : List (List Char × Value)}
    (h : List.Forall₂ MeansMember texts ms) :
    Means ('{' :: (separated texts ++ ['}'])) (.object ms) where
  head := ⟨_, _, rfl, by decide, by decide⟩
  value := by
    rintro (_ | fuel) rest hfuel -
    · rw [List.length_cons] at hfuel
      omega
    · simp only [List.length_cons, List.length_append, List.length_nil] at hfuel
      have hle : (separated texts).length ≤ fuel := by omega
      have hlist := list_of_forall₂ (by decide) h
        (fun text m hm htext => hm.parses (Nat.le_trans htext hle))
        (fun text m hm => hm.token_none) rest
      rw [List.cons_append, List.append_assoc, List.singleton_append, Json.value,
        skipWhitespace_cons (by decide)]
      dsimp only
      rw [if_neg (by decide), if_neg (by decide), if_pos rfl, hlist, Option.map_some]

/-! ## Whole texts -/

/-- The bytes of a text are decoded to what the text means. -/
theorem decode_of_means {text : List Char} {v : Value} (h : Means text v) {rest : List Char}
    (hrest : skipWhitespace rest = []) : decode (bytes (text ++ rest)) = some v := by
  have hends : Ends rest := by
    intro c hc
    have hspace : isWhitespace c = true :=
      List.dropWhile_eq_nil_iff.mp hrest c (List.mem_of_mem_head? hc)
    have hmem : c ∈ [' ', '\t', '\n', '\r'] := of_decide_eq_true hspace
    simp only [List.mem_cons, List.not_mem_nil, or_false] at hmem
    rcases hmem with rfl | rfl | rfl | rfl <;> decide
  have hvalue := h.value (text ++ rest).length rest (by
    rw [List.length_append]
    omega) hends
  rw [decode, decodeUtf8_bytes]
  simp only [Option.bind_eq_bind, Option.bind_some, hvalue, hrest, if_true]

/-- A comma is not the start of a value. -/
theorem value_comma (fuel : ℕ) (rest : List Char) : value fuel (',' :: rest) = none := by
  cases fuel with
  | zero => rfl
  | succ fuel => rfl

/-- An array does not start with a comma. -/
theorem value_array_comma (fuel : ℕ) (rest : List Char) :
    value fuel ('[' :: ',' :: rest) = none := by
  cases fuel with
  | zero => rfl
  | succ fuel =>
    rw [value, skipWhitespace_cons (by decide)]
    dsimp only
    rw [if_neg (by decide), if_pos rfl, list, token_ne (by decide) (by decide)]
    dsimp only
    rw [items_none (value_comma fuel rest), Option.map_none]

/-- An object whose first member has no value is no value. -/
theorem value_member_none {key text : List Char} (hkey : key.all fun c => Plain c)
    (h : ∀ fuel, value fuel text = none) (fuel : ℕ) :
    value fuel ('{' :: member key text) = none := by
  cases fuel with
  | zero => rfl
  | succ fuel =>
    have hkeyed : keyed (value fuel) (member key text) = none := by
      rw [keyed, member, token_self (by decide)]
      simp only [Option.bind_eq_bind, Option.bind_some, string_plain (plain_of_all hkey)]
      rw [token_self (by decide)]
      simp only [Option.bind_some, h, Option.bind_none]
    rw [value, skipWhitespace_cons (by decide)]
    dsimp only
    rw [if_neg (by decide), if_neg (by decide), if_pos rfl, list, member,
      token_ne (by decide) (by decide), ← member]
    dsimp only
    rw [items_none hkeyed, Option.map_none]

/-- What is no value with any fuel is not decoded. -/
theorem decode_eq_none {text : List Char} (h : ∀ fuel, value fuel text = none) :
    decode (bytes text) = none := by
  rw [decode, decodeUtf8_bytes]
  simp only [Option.bind_eq_bind, Option.bind_some, h, Option.bind_none]

end Json
