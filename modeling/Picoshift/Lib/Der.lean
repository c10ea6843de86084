/-
# Numbers and lengths in DER

The distinguished encoding rules write a value as a tag, a length and a content.  A length below 128
is one byte.  A longer one is a byte that counts the bytes of the length, with its top bit set, and
then those bytes, the highest first and none too many.  The content of an INTEGER is its bytes in two's
complement, so a number whose first byte has its top bit set gets a zero in front.

Only what a writer must write is defined here.  `ofBe` is the number that bytes stand for, and
`ofBe_beBytes` and `head?_beBytes` say that `beBytes` is the shortest way to write it.
-/
import Mathlib.Data.Nat.Digits.Lemmas
import Mathlib.Data.UInt

namespace Picoshift

namespace Der

/-! ## 1. Bytes of a number -/

/-- The bytes of a number, the highest first and none too many; zero has none. -/
def beBytes (n : Nat) : List UInt8 := ((Nat.digits 256 n).map UInt8.ofNat).reverse

/-- The number that the bytes stand for, with `acc` in front of them. -/
def ofBe (acc : Nat) (bs : List UInt8) : Nat := bs.foldl (fun acc b => acc * 256 + b.toNat) acc

theorem ofBe_beBytes (n : Nat) : ofBe 0 (beBytes n) = n := by
  have hbyte : ∀ d ∈ Nat.digits 256 n, (UInt8.ofNat d).toNat = d := by
    intro d hd
    have hlt : d < 256 := Nat.digits_lt_base (by decide) hd
    rw [UInt8.toNat_ofNat']
    exact Nat.mod_eq_of_lt hlt
  have hdigits : ∀ l : List Nat, (∀ d ∈ l, (UInt8.ofNat d).toNat = d) →
      (l.map UInt8.ofNat).foldr (fun b acc => acc * 256 + b.toNat) 0 = Nat.ofDigits 256 l := by
    intro l hl
    induction l with
    | nil => rfl
    | cons d l ih =>
      obtain ⟨hd, hrest⟩ := List.forall_mem_cons.mp hl
      rw [List.map_cons, List.foldr_cons, ih hrest, hd, Nat.ofDigits_cons]
      omega
  rw [ofBe, beBytes, List.foldl_reverse, hdigits _ hbyte, Nat.ofDigits_digits]

/-- There is no zero in front. -/
theorem head?_beBytes (n : Nat) : (beBytes n).head? ≠ some 0 := by
  intro h
  rw [beBytes, List.head?_reverse, List.getLast?_map, Option.map_eq_some_iff] at h
  obtain ⟨d, hlast, hd⟩ := h
  obtain ⟨hne, hget⟩ := List.mem_getLast?_eq_getLast hlast
  have hn : n ≠ 0 := Nat.digits_ne_nil_iff_ne_zero.mp hne
  have hlt : d < 256 := Nat.digits_lt_base (by decide) (List.mem_of_getLast? hlast)
  have hzero : d = 0 := by
    have htoNat := congrArg UInt8.toNat hd
    rw [UInt8.toNat_ofNat'] at htoNat
    exact (Nat.mod_eq_of_lt hlt).symm.trans htoNat
  exact Nat.getLast_digit_ne_zero 256 hn (hget.symm.trans hzero)

theorem length_beBytes_le_iff {n k : Nat} : (beBytes n).length ≤ k ↔ n < 256 ^ k := by
  rw [beBytes, List.length_reverse, List.length_map, Nat.digits_length_le_iff (by decide)]

theorem beBytes_eq_nil_iff {n : Nat} : beBytes n = [] ↔ n = 0 := by
  rw [beBytes, List.reverse_eq_nil_iff, List.map_eq_nil_iff, Nat.digits_eq_nil_iff_eq_zero]

theorem le_ofBe (acc : Nat) (bs : List UInt8) : acc ≤ ofBe acc bs := by
  induction bs generalizing acc with
  | nil => exact Nat.le_refl acc
  | cons b bs ih =>
    have hrest := ih (acc * 256 + b.toNat)
    rw [ofBe, List.foldl_cons, ← ofBe]
    omega

/-! ## 2. Lengths and values -/

def encodeLen (n : Nat) : List UInt8 :=
  if n < 0x80 then [UInt8.ofNat n] else UInt8.ofNat (0x80 + (beBytes n).length) :: beBytes n

theorem length_encodeLen_le {n k : Nat} (h : (beBytes n).length ≤ k) : (encodeLen n).length ≤ k + 1 := by
  rw [encodeLen]
  split
  · exact Nat.le_add_left 1 k
  · exact Nat.succ_le_succ h

/-- A tag, a length and a content. -/
def tlv (tag : UInt8) (content : List UInt8) : List UInt8 :=
  tag :: (encodeLen content.length ++ content)

/-- The content of a non-negative INTEGER. -/
def integerContent (n : Nat) : List UInt8 :=
  match beBytes n with
  | [] => [0]
  | b :: bs => if b < 0x80 then b :: bs else 0 :: b :: bs

/-- `INTEGER n`. -/
def integer (n : Nat) : List UInt8 := tlv 0x02 (integerContent n)

/-- `SEQUENCE` of what is given. -/
def sequence (content : List UInt8) : List UInt8 := tlv 0x30 content

/-- A number that begins with a small byte is written as it is. -/
theorem integerContent_of_lt {n : Nat} (hn : 0 < n) (h : ∀ b, (beBytes n).head? = some b → b < 0x80) :
    integerContent n = beBytes n := by
  rw [integerContent]
  cases hbytes : beBytes n with
  | nil => exact absurd (beBytes_eq_nil_iff.mp hbytes) (Nat.ne_of_gt hn)
  | cons b bs =>
    rw [hbytes] at h
    exact if_pos (h b rfl)

/-- The content is the bytes, with a zero in front or not. -/
theorem integerContent_cases {n : Nat} (hn : 0 < n) :
    integerContent n = beBytes n ∨ integerContent n = 0 :: beBytes n := by
  rw [integerContent]
  cases hbytes : beBytes n with
  | nil => exact absurd (beBytes_eq_nil_iff.mp hbytes) (Nat.ne_of_gt hn)
  | cons b bs =>
    dsimp only
    split
    · exact Or.inl rfl
    · exact Or.inr rfl

/-- A zero in front does not change the number. -/
theorem ofBe_integerContent {n : Nat} (hn : 0 < n) : ofBe 0 (integerContent n) = n := by
  rcases integerContent_cases hn with h | h
  · rw [h, ofBe_beBytes]
  · have hzero : ofBe 0 (0 :: beBytes n) = ofBe 0 (beBytes n) := rfl
    rw [h, hzero, ofBe_beBytes]

end Der

end Picoshift
