/-
# The public key of the signing key

`JwtKeys::generate` publishes the modulus and the exponent of its RSA key.  It takes them out of the
DER text of the public key by hand (`parse_rsa_integers`): positions are advanced over tags and lengths,
tags are not looked at, and every index is checked by Rust alone.  Here `none` is a panic.

The main result is that on the text of a key there is none, and that what is returned is the modulus and
the exponent (`parse_rsa_integers_exact`).  Only the modulus loses its sign byte, so this is for exponents
that have none, as 65537.

A length is read into a `usize` of 64 bits.  Positions are numbers: a position behind the end of the text
panics, whether it wraps around or not.
-/
import Picoshift.Lib.Base64
import Picoshift.Lib.Der

namespace Picoshift.OAuth

open Der

/-! ## 1. Slices -/

section Slices

variable {α : Type} {l a m b : List α} {pos stop : Nat}

/-- `&l[pos..]`. -/
def sliceFrom (l : List α) (pos : Nat) : Option (List α) :=
  if pos ≤ l.length then some (l.drop pos) else none

/-- `&l[pos..stop]`. -/
def slice (l : List α) (pos stop : Nat) : Option (List α) :=
  if pos ≤ stop ∧ stop ≤ l.length then some ((l.take stop).drop pos) else none

theorem sliceFrom_eq_some (hl : l = a ++ b) (hpos : pos = a.length) : sliceFrom l pos = some b := by
  subst hl hpos
  rw [sliceFrom, if_pos (by rw [List.length_append]; omega), List.drop_left]

theorem slice_eq_some (hl : l = a ++ m ++ b) (hpos : pos = a.length) (hstop : stop = pos + m.length) :
    slice l pos stop = some m := by
  subst hl hpos hstop
  have hbound : a.length + m.length ≤ (a ++ m ++ b).length := by
    rw [List.length_append, List.length_append]
    omega
  rw [slice, if_pos ⟨Nat.le_add_right .., hbound⟩, ← List.length_append, List.take_left, List.drop_left]

end Slices

/-! ## 2. Lengths -/

/-- `JwtKeys::der_len_size`. -/
def derLenSize : List UInt8 → Option Nat
  | [] => none
  | first :: _ => some (if first < 0x80 then 1 else 1 + (first &&& 0x7f).toNat)

/-- The loop of `read_der_len`: `num` bytes are still to be read. -/
def readDerLenLoop : Nat → List UInt8 → UInt64 → Option UInt64
  | 0, _, len => some len
  | _ + 1, [], _ => none
  | num + 1, b :: der, len => readDerLenLoop num der ((len <<< 8) ||| b.toUInt64)

/-- `JwtKeys::read_der_len`. -/
def readDerLen : List UInt8 → Option UInt64
  | [] => none
  | first :: der =>
    if first < 0x80 then some first.toUInt64 else readDerLenLoop (first &&& 0x7f).toNat der 0

/-- One past the largest `usize`. -/
def usizeBound : Nat := 18446744073709551616

/-- Shifting a byte in, as long as nothing is shifted out. -/
theorem toNat_shift_or {len : UInt64} {b : UInt8} (h : len.toNat * 256 + b.toNat < usizeBound) :
    ((len <<< 8) ||| b.toUInt64).toNat = len.toNat * 256 + b.toNat := by
  have hb : b.toNat < 2 ^ 8 := b.toNat_lt
  have hfits : len.toNat <<< 8 < 2 ^ 64 := by
    have hmul : len.toNat <<< 8 = len.toNat * 256 := Nat.shiftLeft_eq len.toNat 8
    rw [usizeBound] at h
    omega
  have hshift : (len <<< 8).toNat = len.toNat <<< 8 :=
    (UInt64.toNat_shiftLeft len 8).trans (Nat.mod_eq_of_lt hfits)
  rw [UInt64.toNat_or, hshift, UInt8.toNat_toUInt64, ← Nat.shiftLeft_add_eq_or_of_lt hb, Nat.shiftLeft_eq]

theorem readDerLenLoop_append {len : UInt64} {bs : List UInt8} (h : ofBe len.toNat bs < usizeBound)
    (rest : List UInt8) :
    (readDerLenLoop bs.length (bs ++ rest) len).map UInt64.toNat = some (ofBe len.toNat bs) := by
  induction bs generalizing len with
  | nil => rfl
  | cons b bs ih =>
    have hstep : ((len <<< 8) ||| b.toUInt64).toNat = len.toNat * 256 + b.toNat :=
      toNat_shift_or (Nat.lt_of_le_of_lt (le_ofBe _ bs) h)
    rw [List.length_cons, List.cons_append, readDerLenLoop, ih (by rw [hstep]; exact h), hstep]
    rfl

/-- The first byte of a long length. -/
theorem long_first {k : Nat} (h : k < 127) :
    ¬ UInt8.ofNat (0x80 + k) < 0x80 ∧ (UInt8.ofNat (0x80 + k) &&& 0x7f).toNat = k := by
  have hall : ∀ k < 127, ¬ UInt8.ofNat (0x80 + k) < 0x80 ∧
      (UInt8.ofNat (0x80 + k) &&& 0x7f).toNat = k := by decide
  exact hall k h

/-- The one byte of a short length. -/
theorem short_first {n : Nat} (h : n < 0x80) :
    UInt8.ofNat n < 0x80 ∧ (UInt8.ofNat n).toNat = n := by
  have htoNat : (UInt8.ofNat n).toNat = n := by
    rw [UInt8.toNat_ofNat']
    exact Nat.mod_eq_of_lt (by omega)
  refine ⟨?_, htoNat⟩
  rw [UInt8.lt_iff_toNat_lt, htoNat]
  exact h

/-- The size of a length is recovered, for every length that DER can write in this form. -/
theorem derLenSize_encodeLen {n : Nat} (h : (beBytes n).length < 127) (rest : List UInt8) :
    derLenSize (encodeLen n ++ rest) = some (encodeLen n).length := by
  rw [encodeLen]
  split
  · rename_i hshort
    rw [List.cons_append, derLenSize, if_pos (short_first hshort).1]
    rfl
  · obtain ⟨hfirst, hcount⟩ := long_first h
    rw [List.cons_append, derLenSize, if_neg hfirst, hcount, List.length_cons, Nat.add_comm]

theorem length_beBytes_of_usize {n : Nat} (h : n < usizeBound) : (beBytes n).length ≤ 8 :=
  length_beBytes_le_iff.mpr (Nat.lt_of_lt_of_le h (by decide))

/-- The value of a length is recovered, if it is a `usize`. -/
theorem readDerLen_encodeLen {n : Nat} (h : n < usizeBound) (rest : List UInt8) :
    (readDerLen (encodeLen n ++ rest)).map UInt64.toNat = some n := by
  rw [encodeLen]
  split
  · rename_i hshort
    obtain ⟨hfirst, htoNat⟩ := short_first hshort
    rw [List.cons_append, readDerLen, if_pos hfirst, Option.map_some, UInt8.toNat_toUInt64, htoNat]
  · have hlength := length_beBytes_of_usize h
    obtain ⟨hfirst, hcount⟩ := long_first (k := (beBytes n).length) (by omega)
    have hvalue : ofBe (0 : UInt64).toNat (beBytes n) = n := ofBe_beBytes n
    rw [List.cons_append, readDerLen, if_neg hfirst, hcount,
      readDerLenLoop_append (by rw [hvalue]; exact h), hvalue]

/-! ## 3. The two integers -/

/-- `if !n.is_empty() && n[0] == 0 { n.remove(0); }`. -/
def dropSign (n : List UInt8) : List UInt8 := if n.head? = some 0 then n.tail else n

/-- `JwtKeys::parse_rsa_integers`. -/
def parseRsaIntegers (der : List UInt8) : Option (List UInt8 × List UInt8) := do
  let pos := 0
  let pos := pos + 1 -- SEQUENCE tag 0x30
  let pos := pos + (← derLenSize (← sliceFrom der pos))
  let pos := pos + 1 -- INTEGER tag 0x02
  let nLen ← readDerLen (← sliceFrom der pos)
  let pos := pos + (← derLenSize (← sliceFrom der pos))
  let n := dropSign (← slice der pos (pos + nLen.toNat))
  let pos := pos + nLen.toNat
  let pos := pos + 1 -- INTEGER tag 0x02
  let eLen ← readDerLen (← sliceFrom der pos)
  let pos := pos + (← derLenSize (← sliceFrom der pos))
  let e ← slice der pos (pos + eLen.toNat)
  return (n, e)

/-- The DER text of an RSA public key: `SEQUENCE { INTEGER n, INTEGER e }`. -/
def rsaPublicKey (n e : Nat) : List UInt8 := Der.sequence (integer n ++ integer e)

theorem rsaPublicKey_eq (n e : Nat) : rsaPublicKey n e =
    0x30 :: (encodeLen (integer n ++ integer e).length ++
      (tlv 0x02 (integerContent n) ++ tlv 0x02 (integerContent e))) := rfl

/-- A value inside a text, read from its tag on: its length, the size of that length, and its content. -/
theorem value_at {l a b content : List UInt8} {tag : UInt8} (hl : l = a ++ tlv tag content ++ b)
    (hcontent : content.length < usizeBound) :
    ∃ rest len, sliceFrom l (a.length + 1) = some rest ∧ readDerLen rest = some len ∧
      len.toNat = content.length ∧ derLenSize rest = some (encodeLen content.length).length ∧
      slice l (a.length + 1 + (encodeLen content.length).length)
        (a.length + 1 + (encodeLen content.length).length + content.length) = some content := by
  have hlength := length_beBytes_of_usize hcontent
  obtain ⟨len, hlen, hvalue⟩ := Option.map_eq_some_iff.mp (readDerLen_encodeLen hcontent (content ++ b))
  refine ⟨encodeLen content.length ++ (content ++ b), len, ?_, hlen, hvalue,
    derLenSize_encodeLen (by omega) _, ?_⟩
  · exact sliceFrom_eq_some (a := a ++ [tag]) (by simp [hl, tlv]) (by simp)
  · exact slice_eq_some (a := a ++ tag :: encodeLen content.length) (b := b) (by simp [hl, tlv])
      (by simp; omega) rfl

/-- What the parser takes out of a sequence of two values, whatever its length says. -/
theorem parseRsaIntegers_tlv {size : Nat} {n e : List UInt8} (hsize : (beBytes size).length < 127)
    (hn : n.length < usizeBound) (he : e.length < usizeBound) :
    parseRsaIntegers (0x30 :: (encodeLen size ++ (tlv 0x02 n ++ tlv 0x02 e))) = some (dropSign n, e) := by
  generalize hhead : 0x30 :: encodeLen size = head
  generalize hder : 0x30 :: (encodeLen size ++ (tlv 0x02 n ++ tlv 0x02 e)) = der
  have hsequence : sliceFrom der (0 + 1) = some (encodeLen size ++ (tlv 0x02 n ++ tlv 0x02 e)) :=
    sliceFrom_eq_some (a := [0x30]) hder.symm rfl
  -- where the two values stand
  have hpos : 0 + 1 + (encodeLen size).length = head.length := by
    rw [← hhead, List.length_cons]
    omega
  have hpos' : head.length + 1 + (encodeLen n.length).length + n.length = (head ++ tlv 0x02 n).length := by
    simp only [tlv, List.length_append, List.length_cons]
    omega
  have hvalues : der = head ++ tlv 0x02 n ++ tlv 0x02 e := by simp [← hder, ← hhead]
  have hlast : der = head ++ tlv 0x02 n ++ tlv 0x02 e ++ [] := by rw [hvalues, List.append_nil]
  obtain ⟨nText, nLen, hnText, hnLen, hnValue, hnSize, hmodulus⟩ := value_at hvalues hn
  obtain ⟨eText, eLen, heText, heLen, heValue, heSize, hexponent⟩ := value_at hlast he
  rw [hpos'] at hmodulus
  unfold parseRsaIntegers
  dsimp only [Option.bind_eq_bind]
  rw [hsequence, Option.bind_some, derLenSize_encodeLen hsize, Option.bind_some, hpos, hnText,
    Option.bind_some, hnLen, Option.bind_some, Option.bind_some, hnSize, Option.bind_some, hnValue, hpos',
    hmodulus, Option.bind_some, heText, Option.bind_some, heLen, Option.bind_some, Option.bind_some, heSize,
    Option.bind_some, heValue, hexponent, Option.bind_some]
  rfl

/-- The sign byte is dropped and nothing else. -/
theorem dropSign_integerContent {n : Nat} (hn : 0 < n) : dropSign (integerContent n) = beBytes n := by
  rcases integerContent_cases hn with h | h
  · rw [h, dropSign, if_neg (head?_beBytes n)]
  · rw [h]
    rfl

/-- One past the largest length of a slice. -/
def sliceBound : Nat := 9223372036854775808

/-- The length of a key is written in few bytes. -/
theorem length_beBytes_key {n e : Nat} (hn : (integerContent n).length < usizeBound)
    (he : (integerContent e).length < usizeBound) :
    (beBytes (integer n ++ integer e).length).length < 127 := by
  have hnLen := length_encodeLen_le (length_beBytes_of_usize hn)
  have heLen := length_encodeLen_le (length_beBytes_of_usize he)
  have hlength : (integer n ++ integer e).length < 256 ^ 9 := by
    rw [usizeBound] at hn he
    simp only [integer, tlv, List.length_append, List.length_cons]
    omega
  exact Nat.lt_of_le_of_lt (length_beBytes_le_iff.mpr hlength) (by decide)

/-- A key that can be written down: the modulus fits into a slice and the length of the exponent into a
`usize`. -/
structure KeyParts (n e : Nat) : Prop where
  modulus_pos : 0 < n
  exponent_pos : 0 < e
  modulus_length : (beBytes n).length < sliceBound
  exponent_length : (integerContent e).length < usizeBound

/-- The exponent is returned with its sign byte, if it has one. -/
theorem parseRsaIntegers_rsaPublicKey {n e : Nat} (h : KeyParts n e) :
    parseRsaIntegers (rsaPublicKey n e) = some (beBytes n, integerContent e) := by
  have hmodulus : (integerContent n).length < usizeBound := by
    have hlength := h.modulus_length
    rw [sliceBound] at hlength
    rw [usizeBound]
    rcases integerContent_cases h.modulus_pos with hcontent | hcontent
    · rw [hcontent]
      omega
    · rw [hcontent, List.length_cons]
      omega
  rw [rsaPublicKey_eq, parseRsaIntegers_tlv (length_beBytes_key hmodulus h.exponent_length) hmodulus
    h.exponent_length, dropSign_integerContent h.modulus_pos]

/-- `n_b64` and `e_b64` of `JwtKeys::generate`, from the raw public key. -/
def publishedKey (raw : List UInt8) : Option (String × String) :=
  (parseRsaIntegers raw).map fun (n, e) =>
    (Base64.encode Base64.urlSafeNoPad n, Base64.encode Base64.urlSafeNoPad e)

/-- The number that a client reads in a published component. -/
def componentValue (b64 : String) : Option Nat := (Base64.decode Base64.urlSafeNoPad b64).map (ofBe 0)

/-- What is published is the key that signs, with a sign byte or without. -/
theorem componentValue_publishedKey {n e : Nat} (h : KeyParts n e) :
    ∃ nB64 eB64, publishedKey (rsaPublicKey n e) = some (nB64, eB64) ∧
      componentValue nB64 = some n ∧ componentValue eB64 = some e := by
  refine ⟨_, _, by rw [publishedKey, parseRsaIntegers_rsaPublicKey h, Option.map_some], ?_, ?_⟩
  · rw [componentValue, Base64.decode_encode, Option.map_some, ofBe_beBytes]
  · rw [componentValue, Base64.decode_encode, Option.map_some, ofBe_integerContent h.exponent_pos]

/-- **The integers of a key are taken out exactly**, and no index is out of range. -/
theorem parse_rsa_integers_exact {n e : Nat} (hn : 0 < n) (he : 0 < e)
    (hlength : (beBytes n).length < sliceBound) (hlength' : (beBytes e).length < usizeBound)
    (hfirst : ∀ b, (beBytes e).head? = some b → b < 0x80) :
    parseRsaIntegers (rsaPublicKey n e) = some (beBytes n, beBytes e) ∧
      ∀ (size : Nat) (rest : List UInt8),
        (size < usizeBound → (readDerLen (encodeLen size ++ rest)).map UInt64.toNat = some size) ∧
          ((beBytes size).length < 127 →
            derLenSize (encodeLen size ++ rest) = some (encodeLen size).length) := by
  have hcontent := integerContent_of_lt he hfirst
  refine ⟨?_, fun size rest => ⟨fun hsize => readDerLen_encodeLen hsize rest,
    fun hsize => derLenSize_encodeLen hsize rest⟩⟩
  rw [← hcontent] at hlength' ⊢
  exact parseRsaIntegers_rsaPublicKey ⟨hn, he, hlength, hlength'⟩

/-- A modulus that needs a sign byte, with the usual exponent. -/
theorem parse_rsa_integers_exact_small :
    parseRsaIntegers (rsaPublicKey 40961 65537) = some ([0xa0, 0x01], [0x01, 0x00, 0x01]) := by
  have hn : beBytes 40961 = [0xa0, 0x01] := by decide
  have he : beBytes 65537 = [0x01, 0x00, 0x01] := by decide
  have hfirst : ∀ b, (beBytes 65537).head? = some b → b < 0x80 := by
    intro b hb
    rw [he] at hb
    rw [← Option.some.inj hb]
    decide
  have hkey := (parse_rsa_integers_exact (n := 40961) (e := 65537) (by decide) (by decide) (by decide)
    (by decide) hfirst).1
  rw [hkey, hn, he]

end Picoshift.OAuth
