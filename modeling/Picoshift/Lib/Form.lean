/-
# `application/x-www-form-urlencoded`

The format of query strings and of form bodies: pairs joined by `&`, name and value joined by
the first `=`, a blank written `+`, every byte outside a small set written `%XX`.

`parse` reads any bytes whatever (it never fails: what is not UTF-8 is decoded lossily);
`serialize` is what a browser writes.  `parse_serialize` says that every list of pairs
survives the trip, which is all a form has to do.
-/
import Picoshift.Lib.Str
import Picoshift.Lib.Utf8

namespace Picoshift

namespace Form

/-! ## 1. Reading -/

/-- The value of a hexadecimal digit. -/
def hexVal (b : UInt8) : Option Nat :=
  let n := b.toNat
  if 48 ≤ n ∧ n ≤ 57 then some (n - 48)
  else if 65 ≤ n ∧ n ≤ 70 then some (n - 55)
  else if 97 ≤ n ∧ n ≤ 102 then some (n - 87)
  else none

/-- `%XX` becomes its byte; a `%` that is not followed by two digits stays. -/
def percentDecode : List UInt8 → List UInt8
  | [] => []
  | [a] => [a]
  | [a, b] => [a, b]
  | a :: b :: c :: rest =>
    if a = 0x25 then
      match hexVal b, hexVal c with
      | some x, some y => UInt8.ofNat (x * 16 + y) :: percentDecode rest
      | _, _ => a :: percentDecode (b :: c :: rest)
    else a :: percentDecode (b :: c :: rest)

/-- `+` becomes a blank. -/
def replacePlus (bs : List UInt8) : List UInt8 := bs.map fun b => if b = 0x2b then 0x20 else b

/-- A name or a value, decoded. -/
def decode (bs : List UInt8) : String := Utf8.lossy (percentDecode (replacePlus bs))

/-- One `name=value` sequence; without a `=` the value is empty. -/
def parsePair (bs : List UInt8) : String × String :=
  match Str.splitOnceL 0x3d bs with
  | some (n, v) => (decode n, decode v)
  | none => (decode bs, decode [])

/-- `form_urlencoded::parse`. -/
def parse (bs : List UInt8) : List (String × String) :=
  ((Str.splitL 0x26 bs).filter (· ≠ [])).map parsePair

/-! ## 2. Writing -/

/-- The bytes that stand for themselves: letters, digits and `*-._`. -/
def unreserved (n : Nat) : Bool :=
  (48 ≤ n && n ≤ 57) || (65 ≤ n && n ≤ 90) || (97 ≤ n && n ≤ 122) || n == 42 || n == 45 ||
    n == 46 || n == 95

/-- An upper-case hexadecimal digit. -/
def hexDigit (n : Nat) : UInt8 := UInt8.ofNat (if n < 10 then 48 + n else 55 + n)

/-- `byte_serialize`, one byte. -/
def encodeByte (b : UInt8) : List UInt8 :=
  if unreserved b.toNat then [b]
  else if b = 0x20 then [0x2b]
  else [0x25, hexDigit (b.toNat / 16), hexDigit (b.toNat % 16)]

/-- A name or a value, encoded. -/
def encode (s : String) : List UInt8 := (Utf8.encode s).flatMap encodeByte

/-- One pair. -/
def encodePair (p : String × String) : List UInt8 := encode p.1 ++ 0x3d :: encode p.2

/-- The serializer: pairs in order, joined by `&`. -/
def serialize : List (String × String) → List UInt8
  | [] => []
  | [p] => encodePair p
  | p :: q :: ps => encodePair p ++ 0x26 :: serialize (q :: ps)

/-! ## 3. Reading what was written -/

/-- Byte by byte: what is written is neither `&` nor `=`, and reading it back gives the byte. -/
theorem encodeByte_spec (b : UInt8) :
    (0x26 : UInt8) ∉ encodeByte b ∧ (0x3d : UInt8) ∉ encodeByte b ∧
      ∀ rest, percentDecode (replacePlus (encodeByte b ++ rest))
        = b :: percentDecode (replacePlus rest) := by
  have hb : b.toNat < 256 := b.toNat_lt
  unfold encodeByte
  split_ifs with h1 h2
  · -- a byte that stands for itself is not `%`, `+`, `&` or `=`
    have hne : b.toNat ≠ 0x25 ∧ b.toNat ≠ 0x2b ∧ b.toNat ≠ 0x26 ∧ b.toNat ≠ 0x3d := by
      simp only [unreserved, Bool.or_eq_true, Bool.and_eq_true, decide_eq_true_eq, beq_iff_eq] at h1
      omega
    have h25 : b ≠ 0x25 := fun e => hne.1 (by rw [e]; rfl)
    have h2b : b ≠ 0x2b := fun e => hne.2.1 (by rw [e]; rfl)
    have h26 : b ≠ 0x26 := fun e => hne.2.2.1 (by rw [e]; rfl)
    have h3d : b ≠ 0x3d := fun e => hne.2.2.2 (by rw [e]; rfl)
    refine ⟨by simpa using h26.symm, by simpa using h3d.symm, fun rest => ?_⟩
    simp only [replacePlus, List.singleton_append, List.map_cons, if_neg h2b]
    generalize rest.map (fun b => if b = 0x2b then (0x20 : UInt8) else b) = r
    match r with
    | [] => rfl
    | [_] => rfl
    | _ :: _ :: _ => rw [percentDecode, if_neg h25]
  · refine ⟨by decide, by decide, fun rest => ?_⟩
    simp only [replacePlus, List.singleton_append, List.map_cons, if_true, h2]
    generalize rest.map (fun b => if b = 0x2b then (0x20 : UInt8) else b) = r
    match r with
    | [] => rfl
    | [_] => rfl
    | _ :: _ :: _ => rw [percentDecode, if_neg (by decide)]
  · -- the sixteen digits are checked one by one
    have key : ∀ n : Fin 16, hexDigit n ≠ 0x26 ∧ hexDigit n ≠ 0x3d ∧ hexDigit n ≠ 0x2b ∧
        hexVal (hexDigit n) = some n.val := by decide
    obtain ⟨a1, a2, a3, a4⟩ := key ⟨b.toNat / 16, by omega⟩
    obtain ⟨c1, c2, c3, c4⟩ := key ⟨b.toNat % 16, by omega⟩
    refine ⟨?_, ?_, fun rest => ?_⟩
    · simp only [List.mem_cons, List.not_mem_nil, or_false, not_or]
      exact ⟨by decide, a1.symm, c1.symm⟩
    · simp only [List.mem_cons, List.not_mem_nil, or_false, not_or]
      exact ⟨by decide, a2.symm, c2.symm⟩
    · have hpct : (0x25 : UInt8) ≠ 0x2b := by decide
      have hval : UInt8.ofNat (b.toNat / 16 * 16 + b.toNat % 16) = b := by
        rw [show b.toNat / 16 * 16 + b.toNat % 16 = b.toNat by omega]; simp
      simp only [replacePlus, List.cons_append, List.nil_append, List.map_cons, if_neg hpct,
        if_neg a3, if_neg c3]
      rw [percentDecode, if_pos rfl, a4, c4]
      simp only [hval]

theorem encode_not_mem (s : String) :
    (0x26 : UInt8) ∉ encode s ∧ (0x3d : UInt8) ∉ encode s := by
  constructor
  · intro h
    obtain ⟨b, -, hb⟩ := List.mem_flatMap.mp h
    exact (encodeByte_spec b).1 hb
  · intro h
    obtain ⟨b, -, hb⟩ := List.mem_flatMap.mp h
    exact (encodeByte_spec b).2.1 hb

theorem percentDecode_flatMap_encodeByte (bs : List UInt8) :
    percentDecode (replacePlus (bs.flatMap encodeByte)) = bs := by
  induction bs with
  | nil => rfl
  | cons b bs ih => rw [List.flatMap_cons, (encodeByte_spec b).2.2, ih]

@[simp] theorem decode_encode (s : String) : decode (encode s) = s := by
  rw [decode, encode, percentDecode_flatMap_encodeByte, Utf8.lossy_encode]

theorem parsePair_encodePair (p : String × String) : parsePair (encodePair p) = p := by
  rw [parsePair, encodePair, Str.splitOnceL_append (encode_not_mem p.1).2]
  simp only [decode_encode]

theorem encodePair_ne_nil (p : String × String) : encodePair p ≠ [] := by
  simp [encodePair]

theorem amp_not_mem_encodePair (p : String × String) : (0x26 : UInt8) ∉ encodePair p := by
  simp only [encodePair, List.mem_append, List.mem_cons, not_or]
  exact ⟨(encode_not_mem p.1).1, by decide, (encode_not_mem p.2).1⟩

/-- Every list of pairs survives the trip through a form body. -/
theorem parse_serialize (ps : List (String × String)) : parse (serialize ps) = ps := by
  induction ps using serialize.induct with
  | case1 => rfl
  | case2 p =>
    rw [serialize, parse, Str.splitL_of_not_mem (amp_not_mem_encodePair p)]
    simp [encodePair_ne_nil, parsePair_encodePair]
  | case3 p q ps ih =>
    rw [parse] at ih
    rw [serialize, parse, Str.splitL_append (amp_not_mem_encodePair p),
      List.filter_cons_of_pos (by simpa using encodePair_ne_nil p), List.map_cons,
      parsePair_encodePair, ih]

/-! ## 4. The characters of what is written -/

/-- What is written for a byte is visible ASCII and holds no `#`, so it can stand in a query as it is. -/
theorem mem_encodeByte {b c : UInt8} (h : c ∈ encodeByte b) :
    0x20 < c.toNat ∧ c.toNat < 0x80 ∧ c ≠ 0x23 := by
  have hb : b.toNat < 256 := b.toNat_lt
  have key : ∀ n : Fin 16, 0x20 < (hexDigit n).toNat ∧ (hexDigit n).toNat < 0x80 ∧ hexDigit n ≠ 0x23 := by decide
  unfold encodeByte at h
  split_ifs at h with h1 h2
  · have hrange : 0x20 < b.toNat ∧ b.toNat < 0x80 ∧ b.toNat ≠ 0x23 := by
      simp only [unreserved, Bool.or_eq_true, Bool.and_eq_true, decide_eq_true_eq, beq_iff_eq] at h1
      omega
    rw [List.mem_singleton.mp h]
    exact ⟨hrange.1, hrange.2.1, fun hc => hrange.2.2 (by rw [hc]; rfl)⟩
  · rw [List.mem_singleton.mp h]
    decide
  · simp only [List.mem_cons, List.not_mem_nil, or_false] at h
    rcases h with rfl | rfl | rfl
    · decide
    · exact key ⟨b.toNat / 16, by omega⟩
    · exact key ⟨b.toNat % 16, by omega⟩

theorem mem_encodePair {p : String × String} {c : UInt8} (h : c ∈ encodePair p) :
    0x20 < c.toNat ∧ c.toNat < 0x80 ∧ c ≠ 0x23 := by
  have htext : ∀ s : String, c ∈ encode s → 0x20 < c.toNat ∧ c.toNat < 0x80 ∧ c ≠ 0x23 := by
    intro s hs
    obtain ⟨b, -, hb⟩ := List.mem_flatMap.mp hs
    exact mem_encodeByte hb
  rcases List.mem_append.mp h with h | h
  · exact htext _ h
  · rcases List.mem_cons.mp h with rfl | h
    · decide
    · exact htext _ h

theorem mem_serialize {ps : List (String × String)} {c : UInt8} (h : c ∈ serialize ps) :
    0x20 < c.toNat ∧ c.toNat < 0x80 ∧ c ≠ 0x23 := by
  induction ps using serialize.induct with
  | case1 => cases h
  | case2 p => exact mem_encodePair h
  | case3 p q ps ih =>
    rcases List.mem_append.mp h with h | h
    · exact mem_encodePair h
    · rcases List.mem_cons.mp h with rfl | h
      · decide
      · exact ih h

theorem serialize_ne_nil {ps : List (String × String)} (hne : ps ≠ []) : serialize ps ≠ [] := by
  match ps with
  | [] => exact absurd rfl hne
  | [p] => exact encodePair_ne_nil p
  | p :: q :: ps => exact List.append_ne_nil_of_left_ne_nil (encodePair_ne_nil p) _

/-- One more pair. -/
theorem serialize_append_singleton {ps : List (String × String)} (hne : ps ≠ []) (p : String × String) :
    serialize (ps ++ [p]) = serialize ps ++ 0x26 :: encodePair p := by
  induction ps using serialize.induct with
  | case1 => exact absurd rfl hne
  | case2 q => rfl
  | case3 q r ps ih =>
    have hrest := ih (List.cons_ne_nil _ _)
    rw [List.cons_append, List.cons_append, serialize, ← List.cons_append, hrest, serialize]
    simp

end Form

end Picoshift
