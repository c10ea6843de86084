/-
# Base64, in the two dialects in use

`standard` is the ordinary alphabet with `=` padding; `urlSafeNoPad` replaces `+` and `/` by
`-` and `_` and writes no padding.  The decoders are as strict as the encoders are canonical:
padding must be present exactly when the dialect writes it, and the bits of the last character
that carry no data must be zero.

`decode_encode` is the round trip.  It also makes `encode` injective, which is what a
fingerprint taken in base64 rests on.
-/
import Mathlib.Data.List.Basic
import Mathlib.Data.UInt
import Picoshift.Lib.Str

namespace Picoshift

namespace Base64

/-- A dialect: which alphabet, and whether the output is padded. -/
structure Engine where
  urlSafe : Bool
  pad : Bool

/-- `general_purpose::STANDARD`. -/
def standard : Engine := ⟨false, true⟩

/-- `general_purpose::URL_SAFE_NO_PAD`. -/
def urlSafeNoPad : Engine := ⟨true, false⟩

variable (e : Engine)

/-- The character of a six-bit value. -/
def digit (n : Nat) : Char :=
  if n < 26 then Char.ofNat (65 + n)
  else if n < 52 then Char.ofNat (97 + (n - 26))
  else if n < 62 then Char.ofNat (48 + (n - 52))
  else if n = 62 then (if e.urlSafe then '-' else '+')
  else if e.urlSafe then '_'
  else '/'

/-- The six-bit value of a character. -/
def value (c : Char) : Option Nat :=
  let n := c.toNat
  if 65 ≤ n ∧ n ≤ 90 then some (n - 65)
  else if 97 ≤ n ∧ n ≤ 122 then some (n - 97 + 26)
  else if 48 ≤ n ∧ n ≤ 57 then some (n - 48 + 52)
  else if c = (if e.urlSafe then '-' else '+') then some 62
  else if c = (if e.urlSafe then '_' else '/') then some 63
  else none

/-! ## 1. Encoding and decoding -/

/-- Three bytes become four characters; a last group of one or two bytes becomes two or
three. -/
def encodeL : List UInt8 → List Char
  | [] => []
  | [a] =>
    [digit e (a.toNat / 4), digit e (a.toNat % 4 * 16)] ++ if e.pad then ['=', '='] else []
  | [a, b] =>
    [digit e (a.toNat / 4), digit e (a.toNat % 4 * 16 + b.toNat / 16),
      digit e (b.toNat % 16 * 4)] ++ if e.pad then ['='] else []
  | a :: b :: c :: rest =>
    digit e (a.toNat / 4) :: digit e (a.toNat % 4 * 16 + b.toNat / 16) ::
      digit e (b.toNat % 16 * 4 + c.toNat / 64) :: digit e (c.toNat % 64) :: encodeL rest

/-- A last group of two characters: one byte, no stray bits. -/
def decode2 (a b : Char) : Option (List UInt8) :=
  match value e a, value e b with
  | some x, some y => if y % 16 = 0 then some [UInt8.ofNat (x * 4 + y / 16)] else none
  | _, _ => none

/-- A last group of three characters: two bytes, no stray bits. -/
def decode3 (a b c : Char) : Option (List UInt8) :=
  match value e a, value e b, value e c with
  | some x, some y, some z =>
    if z % 4 = 0 then some [UInt8.ofNat (x * 4 + y / 16), UInt8.ofNat (y % 16 * 16 + z / 4)]
    else none
  | _, _, _ => none

/-- A full group: three bytes. -/
def decode4 (a b c d : Char) : Option (List UInt8) :=
  match value e a, value e b, value e c, value e d with
  | some x, some y, some z, some w =>
    some [UInt8.ofNat (x * 4 + y / 16), UInt8.ofNat (y % 16 * 16 + z / 4),
      UInt8.ofNat (z % 4 * 64 + w)]
  | _, _, _, _ => none

/-- Decoding, group by group.  Padding may only stand in the last group, and only when the
dialect writes it. -/
def decodeL : List Char → Option (List UInt8)
  | [] => some []
  | [_] => none
  | [a, b] => if e.pad then none else decode2 e a b
  | [a, b, c] => if e.pad then none else decode3 e a b c
  | a :: b :: c :: d :: rest =>
    if e.pad ∧ rest = [] ∧ d = '=' then (if c = '=' then decode2 e a b else decode3 e a b c)
    else
      match decode4 e a b c d, decodeL rest with
      | some x, some y => some (x ++ y)
      | _, _ => none

/-- `engine.encode(bytes)`. -/
def encode (bs : List UInt8) : String := String.ofList (encodeL e bs)

/-- `engine.decode(text)`. -/
def decode (s : String) : Option (List UInt8) := decodeL e s.toList

/-! ## 2. The round trip -/

theorem value_digit {n : Nat} (h : n < 64) : value e (digit e n) = some n := by
  obtain ⟨url, pad⟩ := e
  have key : ∀ (url pad : Bool) (n : Fin 64),
      value ⟨url, pad⟩ (digit ⟨url, pad⟩ n) = some n.val := by decide
  exact key url pad ⟨n, h⟩

/-- No data character is a padding character or a blank. -/
theorem digit_ne_pad (n : Nat) (h : n < 64) :
    digit e n ≠ '=' ∧ Str.isWhitespace (digit e n) = false := by
  obtain ⟨url, pad⟩ := e
  have key : ∀ (url pad : Bool) (n : Fin 64), digit ⟨url, pad⟩ n ≠ '=' ∧
      Str.isWhitespace (digit ⟨url, pad⟩ n) = false := by decide
  exact key url pad ⟨n, h⟩

theorem ofNat_eq_of_toNat {a : UInt8} {n : Nat} (h : n = a.toNat) : UInt8.ofNat n = a := by
  subst h; simp

theorem decode2_digit (a : UInt8) :
    decode2 e (digit e (a.toNat / 4)) (digit e (a.toNat % 4 * 16)) = some [a] := by
  have ha : a.toNat < 256 := a.toNat_lt
  simp only [decode2, value_digit e (by omega : a.toNat / 4 < 64),
    value_digit e (by omega : a.toNat % 4 * 16 < 64)]
  rw [if_pos (by omega), ofNat_eq_of_toNat (a := a) (by omega)]

theorem decode3_digit (a b : UInt8) :
    decode3 e (digit e (a.toNat / 4)) (digit e (a.toNat % 4 * 16 + b.toNat / 16))
      (digit e (b.toNat % 16 * 4)) = some [a, b] := by
  have ha : a.toNat < 256 := a.toNat_lt
  have hb : b.toNat < 256 := b.toNat_lt
  simp only [decode3, value_digit e (by omega : a.toNat / 4 < 64),
    value_digit e (by omega : a.toNat % 4 * 16 + b.toNat / 16 < 64),
    value_digit e (by omega : b.toNat % 16 * 4 < 64)]
  rw [if_pos (by omega), ofNat_eq_of_toNat (a := a) (by omega),
    ofNat_eq_of_toNat (a := b) (by omega)]

theorem decode4_digit (a b c : UInt8) :
    decode4 e (digit e (a.toNat / 4)) (digit e (a.toNat % 4 * 16 + b.toNat / 16))
      (digit e (b.toNat % 16 * 4 + c.toNat / 64)) (digit e (c.toNat % 64)) = some [a, b, c] := by
  have ha : a.toNat < 256 := a.toNat_lt
  have hb : b.toNat < 256 := b.toNat_lt
  have hc : c.toNat < 256 := c.toNat_lt
  simp only [decode4, value_digit e (by omega : a.toNat / 4 < 64),
    value_digit e (by omega : a.toNat % 4 * 16 + b.toNat / 16 < 64),
    value_digit e (by omega : b.toNat % 16 * 4 + c.toNat / 64 < 64),
    value_digit e (by omega : c.toNat % 64 < 64)]
  rw [ofNat_eq_of_toNat (a := a) (by omega), ofNat_eq_of_toNat (a := b) (by omega),
    ofNat_eq_of_toNat (a := c) (by omega)]

theorem decodeL_encodeL (bs : List UInt8) : decodeL e (encodeL e bs) = some bs := by
  induction bs using encodeL.induct with
  | case1 => rfl
  | case2 a =>
    cases hp : e.pad with
    | true => simp [encodeL, decodeL, hp, decode2_digit]
    | false => simp [encodeL, decodeL, hp, decode2_digit]
  | case3 a b =>
    have hne := (digit_ne_pad e (b.toNat % 16 * 4) (by omega)).1
    cases hp : e.pad with
    | true => simp [encodeL, decodeL, hp, decode3_digit, hne]
    | false => simp [encodeL, decodeL, hp, decode3_digit]
  | case4 a b c rest ih =>
    -- the fourth character of a full group is never `=`, so the padding branch is not taken
    have hne := (digit_ne_pad e (c.toNat % 64) (by omega)).1
    rw [encodeL, decodeL, if_neg (fun h => hne h.2.2), decode4_digit, ih]
    rfl

@[simp] theorem decode_encode (bs : List UInt8) : decode e (encode e bs) = some bs := by
  rw [decode, encode, String.toList_ofList, decodeL_encodeL]

theorem encode_injective {as bs : List UInt8} (h : encode e as = encode e bs) : as = bs := by
  have := congrArg (decode e) h
  rwa [decode_encode, decode_encode, Option.some.injEq] at this

/-- Every character of an encoding is a data character or padding. -/
theorem mem_encodeL {bs : List UInt8} {c : Char} (h : c ∈ encodeL e bs) :
    c = '=' ∨ ∃ n < 64, c = digit e n := by
  induction bs using encodeL.induct with
  | case1 => exact absurd h (by simp [encodeL])
  | case2 a =>
    have ha : a.toNat < 256 := a.toNat_lt
    simp only [encodeL, List.cons_append, List.nil_append, List.mem_cons] at h
    rcases h with rfl | rfl | h
    · exact Or.inr ⟨_, by omega, rfl⟩
    · exact Or.inr ⟨_, by omega, rfl⟩
    · split at h
      · exact Or.inl (by simpa using h)
      · exact absurd h (by simp)
  | case3 a b =>
    have ha : a.toNat < 256 := a.toNat_lt
    have hb : b.toNat < 256 := b.toNat_lt
    simp only [encodeL, List.cons_append, List.nil_append, List.mem_cons] at h
    rcases h with rfl | rfl | rfl | h
    · exact Or.inr ⟨_, by omega, rfl⟩
    · exact Or.inr ⟨_, by omega, rfl⟩
    · exact Or.inr ⟨_, by omega, rfl⟩
    · split at h
      · exact Or.inl (by simpa using h)
      · exact absurd h (by simp)
  | case4 a b c' rest ih =>
    have ha : a.toNat < 256 := a.toNat_lt
    have hb : b.toNat < 256 := b.toNat_lt
    have hc : c'.toNat < 256 := c'.toNat_lt
    simp only [encodeL, List.mem_cons] at h
    rcases h with rfl | rfl | rfl | rfl | h
    · exact Or.inr ⟨_, by omega, rfl⟩
    · exact Or.inr ⟨_, by omega, rfl⟩
    · exact Or.inr ⟨_, by omega, rfl⟩
    · exact Or.inr ⟨_, by omega, rfl⟩
    · exact ih h

/-- An encoding holds no blank, so trimming it changes nothing. -/
@[simp] theorem trim_encode (bs : List UInt8) : Str.trim (encode e bs) = encode e bs := by
  refine Str.trim_eq_self fun c hc => ?_
  rw [encode, String.toList_ofList] at hc
  rcases mem_encodeL e hc with rfl | ⟨n, hn, rfl⟩
  · decide
  · exact (digit_ne_pad e n hn).2

/-- An encoding holds no dot, so encodings joined by dots can be told apart. -/
theorem dot_not_mem_encode (bs : List UInt8) : '.' ∉ (encode e bs).toList := by
  intro h
  rw [encode, String.toList_ofList] at h
  have key : ∀ (url pad : Bool) (n : Fin 64), '.' ≠ digit ⟨url, pad⟩ n := by decide
  rcases mem_encodeL e h with h | ⟨n, hn, h⟩
  · exact absurd h (by decide)
  · exact key e.urlSafe e.pad ⟨n, hn⟩ h

end Base64

end Picoshift
