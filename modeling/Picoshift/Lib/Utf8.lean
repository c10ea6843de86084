/-
# UTF-8: encoding, strict decoding, lossy decoding

Bytes are lists of `UInt8`.  `encode` is the core encoder.  The decoders read one byte at a
time and keep the bytes of an unfinished character in `pend`; `classify` says what a run of
one to four bytes is: a complete character, the beginning of one, or neither.

* `fromUtf8` is `str::from_utf8`: it succeeds exactly on well-formed input.
* `lossy` is `String::from_utf8_lossy`: every maximal beginning of a character that is not
  continued, and every byte that cannot begin one, becomes one U+FFFD.

Two facts are used elsewhere.  Decoding undoes encoding (`fromUtf8_encode`, `lossy_encode`).
An ASCII byte is a BARRIER (`lossyGo_append_ascii`): whatever stands behind it cannot change how
the bytes in front of it are read, which is why the head of a message can be read off a buffer
that already holds part of the body.
-/
import Mathlib.Data.List.Basic
import Mathlib.Data.UInt

namespace Picoshift

namespace Utf8

/-- The UTF-8 bytes of a string. -/
def encode (s : String) : List UInt8 := s.toList.flatMap String.utf8EncodeChar

/-! ## 1. What a run of bytes is -/

/-- One to four bytes: a character, the beginning of one, or neither. -/
inductive Class where
  | char (c : Char)
  | more
  | bad

/-- A continuation byte. -/
def isCont (n : Nat) : Bool := 0x80 ≤ n && n ≤ 0xbf

/-- The second byte of a three-byte character: no overlong forms, no surrogates. -/
def second3 (a b : Nat) : Bool :=
  if a = 0xe0 then 0xa0 ≤ b && b ≤ 0xbf
  else if a = 0xed then 0x80 ≤ b && b ≤ 0x9f
  else isCont b

/-- The second byte of a four-byte character: no overlong forms, nothing above U+10FFFF. -/
def second4 (a b : Nat) : Bool :=
  if a = 0xf0 then 0x90 ≤ b && b ≤ 0xbf
  else if a = 0xf4 then 0x80 ≤ b && b ≤ 0x8f
  else isCont b

/-- What the bytes `l`, all but the last of which were the beginning of a character, are. -/
def classify (l : List UInt8) : Class :=
  match l.map UInt8.toNat with
  | [a] =>
    if a < 0x80 then .char (Char.ofNat a)
    else if 0xc2 ≤ a && a ≤ 0xf4 then .more
    else .bad
  | [a, b] =>
    if a < 0xe0 then
      if isCont b then .char (Char.ofNat ((a - 0xc0) * 64 + (b - 0x80))) else .bad
    else if a < 0xf0 then (if second3 a b then .more else .bad)
    else if second4 a b then .more
    else .bad
  | [a, b, c] =>
    if a < 0xf0 then
      if isCont c then
        .char (Char.ofNat ((a - 0xe0) * 4096 + (b - 0x80) * 64 + (c - 0x80)))
      else .bad
    else if isCont c then .more
    else .bad
  | [a, b, c, d] =>
    if isCont d then
      .char (Char.ofNat ((a - 0xf0) * 262144 + (b - 0x80) * 4096 + (c - 0x80) * 64 + (d - 0x80)))
    else .bad
  | _ => .bad

/-! ## 2. The decoders -/

/-- U+FFFD REPLACEMENT CHARACTER. -/
def replacement : Char := Char.ofNat 0xfffd

/-- Lossy decoding; `pend` holds the bytes of the character being read. -/
def lossyGo (pend : List UInt8) : List UInt8 → List Char
  | [] => if pend = [] then [] else [replacement]
  | b :: bs =>
    match classify (pend ++ [b]) with
    | .char c => c :: lossyGo [] bs
    | .more => lossyGo (pend ++ [b]) bs
    | .bad =>
      if pend = [] then replacement :: lossyGo [] bs
      else
        -- the unfinished character is dropped and `b` is read afresh
        match classify [b] with
        | .char c => replacement :: c :: lossyGo [] bs
        | .more => replacement :: lossyGo [b] bs
        | .bad => replacement :: replacement :: lossyGo [] bs

/-- `String::from_utf8_lossy`. -/
def lossy (bs : List UInt8) : String := String.ofList (lossyGo [] bs)

/-- Strict decoding; `pend` holds the bytes of the character being read. -/
def strictGo (pend : List UInt8) : List UInt8 → Option (List Char)
  | [] => if pend = [] then some [] else none
  | b :: bs =>
    match classify (pend ++ [b]) with
    | .char c => (strictGo [] bs).map (c :: ·)
    | .more => strictGo (pend ++ [b]) bs
    | .bad => none

/-- `str::from_utf8`. -/
def fromUtf8 (bs : List UInt8) : Option String := (strictGo [] bs).map String.ofList

/-! ## 3. Decoding undoes encoding -/

theorem toNat_ofNat_of_lt {n : Nat} (h : n < 256) : (UInt8.ofNat n).toNat = n := by
  rw [UInt8.toNat_ofNat']
  exact Nat.mod_eq_of_lt h

/-! What the beginnings of an encoded character are, for each of the four lengths. -/

theorem classify_one {v : Nat} (h : v ≤ 0x7f) :
    classify [UInt8.ofNat v] = .char (Char.ofNat v) := by
  simp only [classify, List.map_cons, List.map_nil, toNat_ofNat_of_lt (by omega : v < 256)]
  rw [if_pos (by omega)]

theorem classify_two {v : Nat} (hmin : 0x7f < v) (hmax : v ≤ 0x7ff) :
    classify [UInt8.ofNat (v / 64 % 32 + 0xc0)] = .more ∧
    classify [UInt8.ofNat (v / 64 % 32 + 0xc0), UInt8.ofNat (v % 64 + 0x80)] =
      .char (Char.ofNat v) := by
  have ha : v / 64 % 32 + 0xc0 < 256 := by omega
  have hb : v % 64 + 0x80 < 256 := by omega
  constructor
  · simp only [classify, List.map_cons, List.map_nil, toNat_ofNat_of_lt ha]
    rw [if_neg (by omega), if_pos (by simp; omega)]
  · simp only [classify, List.map_cons, List.map_nil, toNat_ofNat_of_lt ha, toNat_ofNat_of_lt hb]
    rw [if_pos (by omega), if_pos (by simp [isCont]; omega),
      show (v / 64 % 32 + 0xc0 - 0xc0) * 64 + (v % 64 + 0x80 - 0x80) = v by omega]

theorem classify_three {v : Nat} (hmin : 0x7ff < v) (hmax : v ≤ 0xffff)
    (hvalid : v < 0xd800 ∨ 0xdfff < v) :
    classify [UInt8.ofNat (v / 4096 % 16 + 0xe0)] = .more ∧
    classify [UInt8.ofNat (v / 4096 % 16 + 0xe0), UInt8.ofNat (v / 64 % 64 + 0x80)] = .more ∧
    classify [UInt8.ofNat (v / 4096 % 16 + 0xe0), UInt8.ofNat (v / 64 % 64 + 0x80),
      UInt8.ofNat (v % 64 + 0x80)] = .char (Char.ofNat v) := by
  have ha : v / 4096 % 16 + 0xe0 < 256 := by omega
  have hb : v / 64 % 64 + 0x80 < 256 := by omega
  have hd : v % 64 + 0x80 < 256 := by omega
  refine ⟨?_, ?_, ?_⟩
  · simp only [classify, List.map_cons, List.map_nil, toNat_ofNat_of_lt ha]
    rw [if_neg (by omega), if_pos (by simp; omega)]
  · simp only [classify, List.map_cons, List.map_nil, toNat_ofNat_of_lt ha, toNat_ofNat_of_lt hb]
    rw [if_neg (by omega), if_pos (by omega), if_pos]
    unfold second3 isCont
    split_ifs <;> simp <;> omega
  · simp only [classify, List.map_cons, List.map_nil, toNat_ofNat_of_lt ha, toNat_ofNat_of_lt hb,
      toNat_ofNat_of_lt hd]
    rw [if_pos (by omega), if_pos (by simp [isCont]; omega),
      show (v / 4096 % 16 + 0xe0 - 0xe0) * 4096 + (v / 64 % 64 + 0x80 - 0x80) * 64
        + (v % 64 + 0x80 - 0x80) = v by omega]

theorem classify_four {v : Nat} (hmin : 0xffff < v) (hmax : v < 0x110000) :
    classify [UInt8.ofNat (v / 262144 % 8 + 0xf0)] = .more ∧
    classify [UInt8.ofNat (v / 262144 % 8 + 0xf0), UInt8.ofNat (v / 4096 % 64 + 0x80)] = .more ∧
    classify [UInt8.ofNat (v / 262144 % 8 + 0xf0), UInt8.ofNat (v / 4096 % 64 + 0x80),
      UInt8.ofNat (v / 64 % 64 + 0x80)] = .more ∧
    classify [UInt8.ofNat (v / 262144 % 8 + 0xf0), UInt8.ofNat (v / 4096 % 64 + 0x80),
      UInt8.ofNat (v / 64 % 64 + 0x80), UInt8.ofNat (v % 64 + 0x80)] = .char (Char.ofNat v) := by
  have ha : v / 262144 % 8 + 0xf0 < 256 := by omega
  have hb : v / 4096 % 64 + 0x80 < 256 := by omega
  have hd : v / 64 % 64 + 0x80 < 256 := by omega
  have he : v % 64 + 0x80 < 256 := by omega
  refine ⟨?_, ?_, ?_, ?_⟩
  · simp only [classify, List.map_cons, List.map_nil, toNat_ofNat_of_lt ha]
    rw [if_neg (by omega), if_pos (by simp; omega)]
  · simp only [classify, List.map_cons, List.map_nil, toNat_ofNat_of_lt ha, toNat_ofNat_of_lt hb]
    rw [if_neg (by omega), if_neg (by omega), if_pos]
    unfold second4 isCont
    split_ifs <;> simp <;> omega
  · simp only [classify, List.map_cons, List.map_nil, toNat_ofNat_of_lt ha, toNat_ofNat_of_lt hb,
      toNat_ofNat_of_lt hd]
    rw [if_neg (by omega), if_pos (by simp [isCont]; omega)]
  · simp only [classify, List.map_cons, List.map_nil, toNat_ofNat_of_lt ha, toNat_ofNat_of_lt hb,
      toNat_ofNat_of_lt hd, toNat_ofNat_of_lt he]
    rw [if_pos (by simp [isCont]; omega),
      show (v / 262144 % 8 + 0xf0 - 0xf0) * 262144 + (v / 4096 % 64 + 0x80 - 0x80) * 4096
        + (v / 64 % 64 + 0x80 - 0x80) * 64 + (v % 64 + 0x80 - 0x80) = v by omega]

/-- The four shapes of an encoded character, byte by byte, with what each beginning is. -/
theorem classify_encodeChar (c : Char) :
    (∃ a, String.utf8EncodeChar c = [a] ∧ classify [a] = .char c) ∨
    (∃ a b, String.utf8EncodeChar c = [a, b] ∧ classify [a] = .more ∧
      classify [a, b] = .char c) ∨
    (∃ a b d, String.utf8EncodeChar c = [a, b, d] ∧ classify [a] = .more ∧
      classify [a, b] = .more ∧ classify [a, b, d] = .char c) ∨
    (∃ a b d e, String.utf8EncodeChar c = [a, b, d, e] ∧ classify [a] = .more ∧
      classify [a, b] = .more ∧ classify [a, b, d] = .more ∧ classify [a, b, d, e] = .char c) := by
  have hc : Char.ofNat c.val.toNat = c := Char.ofNat_toNat c
  have hv : c.val.toNat < 0xd800 ∨ 0xdfff < c.val.toNat ∧ c.val.toNat < 0x110000 := c.valid
  generalize hn : c.val.toNat = v at hc hv
  subst hc
  simp only [String.utf8EncodeChar, hn]
  split_ifs with h1 h2 h3
  · exact Or.inl ⟨_, rfl, classify_one h1⟩
  · exact Or.inr (Or.inl ⟨_, _, rfl, classify_two (by omega) h2⟩)
  · exact Or.inr (Or.inr (Or.inl ⟨_, _, _, rfl, classify_three (by omega) h3 (by omega)⟩))
  · exact Or.inr (Or.inr (Or.inr ⟨_, _, _, _, rfl, classify_four (by omega) (by omega)⟩))

theorem lossyGo_encodeChar (c : Char) (bs : List UInt8) :
    lossyGo [] (String.utf8EncodeChar c ++ bs) = c :: lossyGo [] bs := by
  rcases classify_encodeChar c with ⟨a, h, h1⟩ | ⟨a, b, h, h1, h2⟩ | ⟨a, b, d, h, h1, h2, h3⟩ |
    ⟨a, b, d, e, h, h1, h2, h3, h4⟩
  · simp [h, lossyGo, h1]
  · simp [h, lossyGo, h1, h2]
  · simp [h, lossyGo, h1, h2, h3]
  · simp [h, lossyGo, h1, h2, h3, h4]

theorem strictGo_encodeChar (c : Char) (bs : List UInt8) :
    strictGo [] (String.utf8EncodeChar c ++ bs) = (strictGo [] bs).map (c :: ·) := by
  rcases classify_encodeChar c with ⟨a, h, h1⟩ | ⟨a, b, h, h1, h2⟩ | ⟨a, b, d, h, h1, h2, h3⟩ |
    ⟨a, b, d, e, h, h1, h2, h3, h4⟩
  · simp [h, strictGo, h1]
  · simp [h, strictGo, h1, h2]
  · simp [h, strictGo, h1, h2, h3]
  · simp [h, strictGo, h1, h2, h3, h4]

theorem lossyGo_encode_append (l : List Char) (bs : List UInt8) :
    lossyGo [] (l.flatMap String.utf8EncodeChar ++ bs) = l ++ lossyGo [] bs := by
  induction l with
  | nil => rfl
  | cons c l ih => rw [List.flatMap_cons, List.append_assoc, lossyGo_encodeChar, ih, List.cons_append]

theorem lossyGo_encode (l : List Char) : lossyGo [] (l.flatMap String.utf8EncodeChar) = l := by
  have happend := lossyGo_encode_append l []
  rwa [List.append_nil, lossyGo, if_pos rfl, List.append_nil] at happend

theorem strictGo_encode (l : List Char) :
    strictGo [] (l.flatMap String.utf8EncodeChar) = some l := by
  induction l with
  | nil => rfl
  | cons c l ih => rw [List.flatMap_cons, strictGo_encodeChar, ih]; rfl

@[simp] theorem lossy_encode (s : String) : lossy (encode s) = s := by
  rw [lossy, encode, lossyGo_encode, String.ofList_toList]

@[simp] theorem fromUtf8_encode (s : String) : fromUtf8 (encode s) = some s := by
  rw [fromUtf8, encode, strictGo_encode, Option.map_some, String.ofList_toList]

theorem encode_injective {s t : String} (h : encode s = encode t) : s = t := by
  have := congrArg lossy h
  rwa [lossy_encode, lossy_encode] at this

/-! ## 4. An ASCII byte is a barrier -/

/-- An ASCII byte is never the continuation of anything. -/
theorem classify_append_ascii {pend : List UInt8} {b : UInt8} (hb : b.toNat < 0x80)
    (hp : pend ≠ []) : classify (pend ++ [b]) = .bad := by
  have hcont : isCont b.toNat = false := by simp [isCont]; omega
  have h3 : ∀ a, second3 a b.toNat = false := by
    intro a; unfold second3; split_ifs <;> simp [hcont] <;> omega
  have h4 : ∀ a, second4 a b.toNat = false := by
    intro a; unfold second4; split_ifs <;> simp [hcont] <;> omega
  match pend, hp with
  | [a], _ => simp [classify, hcont, h3, h4]
  | [a, c], _ => simp [classify, hcont]
  | [a, c, d], _ => simp [classify, hcont]
  | a :: c :: d :: e :: r, _ => cases r <;> simp [classify]

theorem classify_ascii {b : UInt8} (hb : b.toNat < 0x80) :
    classify [b] = .char (Char.ofNat b.toNat) := by
  simp [classify, hb]

theorem encodeChar_ascii {c : Char} (h : c.toNat < 0x80) :
    String.utf8EncodeChar c = [UInt8.ofNat c.toNat] := by
  have hle : c.val.toNat ≤ 0x7f := by
    have : c.val.toNat < 0x80 := h
    omega
  simp only [String.utf8EncodeChar, hle, if_true]
  rfl

/-- A text of ASCII characters has one byte for each. -/
theorem encode_ascii {s : String} (h : ∀ c ∈ s.toList, c.toNat < 0x80) :
    encode s = s.toList.map fun c => UInt8.ofNat c.toNat := by
  rw [encode]
  generalize s.toList = l at h
  induction l with
  | nil => rfl
  | cons c l ih =>
    rw [List.flatMap_cons, encodeChar_ascii (h c List.mem_cons_self),
      ih fun d hd => h d (List.mem_cons_of_mem _ hd)]
    rfl

/-- An ASCII byte stands for its own character and for nothing else. -/
theorem toNat_eq_of_mem_encodeChar {c : Char} {b : UInt8} (hb : b.toNat < 0x80)
    (h : b ∈ String.utf8EncodeChar c) : c.toNat = b.toNat := by
  have hbig : ∀ n, 0x80 ≤ n → n < 256 → b ≠ UInt8.ofNat n := by
    rintro n hlow hhigh rfl
    rw [toNat_ofNat_of_lt hhigh] at hb
    omega
  have hval : c.toNat = c.val.toNat := rfl
  rw [hval]
  simp only [String.utf8EncodeChar] at h
  split_ifs at h <;> simp only [List.mem_cons, List.not_mem_nil, or_false] at h
  · rw [h, toNat_ofNat_of_lt (by omega)]
  · rcases h with h | h <;> exact absurd h (hbig _ (by omega) (by omega))
  · rcases h with h | h | h <;> exact absurd h (hbig _ (by omega) (by omega))
  · rcases h with h | h | h | h <;> exact absurd h (hbig _ (by omega) (by omega))

theorem not_mem_encode {s : String} {b : UInt8} (hb : b.toNat < 0x80)
    (h : ∀ c ∈ s.toList, c.toNat ≠ b.toNat) : b ∉ encode s := by
  rw [encode, List.mem_flatMap]
  rintro ⟨c, hc, hmem⟩
  exact h c hc (toNat_eq_of_mem_encodeChar hb hmem)

theorem encode_append (s t : String) : encode (s ++ t) = encode s ++ encode t := by
  rw [encode, String.toList_append, List.flatMap_append]
  rfl

theorem encode_join (ls : List String) : encode (String.join ls) = ls.flatMap encode := by
  have hfold : ∀ (ls : List String) (acc : String),
      encode (ls.foldl (· ++ ·) acc) = encode acc ++ ls.flatMap encode := by
    intro ls
    induction ls with
    | nil => simp
    | cons l ls ih =>
      intro acc
      rw [List.foldl_cons, ih, encode_append, List.flatMap_cons, List.append_assoc]
  exact hfold ls ""

/-- Reading past an ASCII byte closes whatever was open: the rest is read from scratch. -/
theorem lossyGo_append_ascii (as : List UInt8) {b : UInt8} (hb : b.toNat < 0x80)
    (bs : List UInt8) (pend : List UInt8) :
    lossyGo pend (as ++ b :: bs) = lossyGo pend as ++ Char.ofNat b.toNat :: lossyGo [] bs := by
  induction as generalizing pend with
  | nil =>
    by_cases hp : pend = []
    · subst hp; simp [lossyGo, classify_ascii hb]
    · simp [lossyGo, classify_append_ascii hb hp, classify_ascii hb, hp]
  | cons a as ih =>
    simp only [List.cons_append, lossyGo]
    cases classify (pend ++ [a]) with
    | char c => simp [ih]
    | more => simp [ih]
    | bad =>
      by_cases hp : pend = []
      · simp [hp, ih]
      · simp only [hp, if_false]
        cases classify [a] <;> simp [ih]

/-- An ASCII byte is read by itself. -/
theorem lossyGo_ascii_cons {b : UInt8} (hb : b.toNat < 0x80) (bs : List UInt8) :
    lossyGo [] (b :: bs) = Char.ofNat b.toNat :: lossyGo [] bs :=
  lossyGo_append_ascii [] hb bs []

/-- Text of ASCII bytes is read byte by byte, whatever follows it. -/
theorem lossyGo_asciis_append {as : List UInt8} (has : ∀ a ∈ as, a.toNat < 0x80) (bs : List UInt8) :
    lossyGo [] (as ++ bs) = (as.map fun a => Char.ofNat a.toNat) ++ lossyGo [] bs := by
  induction as with
  | nil => rfl
  | cons a as ih =>
    obtain ⟨ha, has⟩ := List.forall_mem_cons.mp has
    rw [List.cons_append, lossyGo_ascii_cons ha, ih has]
    rfl

/-- And whatever stands in front of it. -/
theorem lossyGo_append_asciis (as : List UInt8) {bs : List UInt8} (hbs : ∀ b ∈ bs, b.toNat < 0x80) :
    lossyGo [] (as ++ bs) = lossyGo [] as ++ bs.map fun b => Char.ofNat b.toNat := by
  cases bs with
  | nil => simp
  | cons b bs =>
    obtain ⟨hb, hbs⟩ := List.forall_mem_cons.mp hbs
    have hrest := lossyGo_asciis_append hbs []
    rw [List.append_nil, lossyGo, if_pos rfl, List.append_nil] at hrest
    rw [lossyGo_append_ascii as hb, hrest]
    rfl

/-! ## 5. Where ASCII characters come from -/

/-- The bytes that the decoder keeps while a character is open. -/
def Open (pend : List UInt8) : Prop := ∀ p, p <+: pend → p ≠ [] → classify p = .more

theorem open_nil : Open [] := fun _ hp hne => absurd (List.prefix_nil.mp hp) hne

theorem Open.append {pend : List UInt8} (h : Open pend) {b : UInt8}
    (hb : classify (pend ++ [b]) = .more) : Open (pend ++ [b]) := by
  intro p hp hne
  rcases List.prefix_concat_iff.mp hp with rfl | hp
  · exact hb
  · exact h p hp hne

theorem toNat_ofNat_of_valid {n : Nat} (h : n.isValidChar) : (Char.ofNat n).toNat = n := by
  rw [Char.ofNat, dif_pos h]
  rfl

theorem isCont_range {b : Nat} (h : isCont b = true) : 0x80 ≤ b ∧ b ≤ 0xbf := by
  simpa [isCont] using h

theorem second3_range {a b : Nat} (h : second3 a b = true) :
    (0x80 ≤ b ∧ b ≤ 0xbf) ∧ (a = 0xe0 → 0xa0 ≤ b) ∧ (a = 0xed → b ≤ 0x9f) := by
  unfold second3 isCont at h
  split_ifs at h <;> simp at h <;> omega

theorem second4_range {a b : Nat} (h : second4 a b = true) :
    (0x80 ≤ b ∧ b ≤ 0xbf) ∧ (a = 0xf0 → 0x90 ≤ b) ∧ (a = 0xf4 → b ≤ 0x8f) := by
  unfold second4 isCont at h
  split_ifs at h <;> simp at h <;> omega

theorem classify_one_more {a : UInt8} (h : classify [a] = .more) : 0xc2 ≤ a.toNat ∧ a.toNat ≤ 0xf4 := by
  simp only [classify, List.map_cons, List.map_nil] at h
  split_ifs at h with h1 h2
  simpa using h2

theorem classify_two_more {a b : UInt8} (h : classify [a, b] = .more) :
    (a.toNat < 0xf0 ∧ second3 a.toNat b.toNat = true ∨ 0xf0 ≤ a.toNat ∧ second4 a.toNat b.toNat = true) ∧
      0xe0 ≤ a.toNat := by
  simp only [classify, List.map_cons, List.map_nil] at h
  split_ifs at h with h1 h2 h3 h4 h5
  · exact ⟨Or.inl ⟨h3, h4⟩, by omega⟩
  · exact ⟨Or.inr ⟨by omega, h5⟩, by omega⟩

theorem classify_three_more {a b d : UInt8} (h : classify [a, b, d] = .more) :
    0xf0 ≤ a.toNat ∧ isCont d.toNat = true := by
  simp only [classify, List.map_cons, List.map_nil] at h
  split_ifs at h with h1 h2 h3
  exact ⟨by omega, h3⟩

/-! A character of several bytes is not an ASCII character, for each of the three lengths. -/

theorem not_ascii_two {a b : UInt8} {c : Char} (h1 : classify [a] = .more) (h : classify [a, b] = .char c) :
    0x80 ≤ c.toNat := by
  obtain ⟨hmin, -⟩ := classify_one_more h1
  simp only [classify, List.map_cons, List.map_nil] at h
  split_ifs at h with hlead hcont
  obtain rfl := Class.char.inj h
  have hb := isCont_range hcont
  rw [toNat_ofNat_of_valid (Or.inl (by omega))]
  omega

theorem not_ascii_three {a b d : UInt8} {c : Char} (h2 : classify [a, b] = .more)
    (h : classify [a, b, d] = .char c) : 0x80 ≤ c.toNat := by
  obtain ⟨hsecond, hmin⟩ := classify_two_more h2
  simp only [classify, List.map_cons, List.map_nil] at h
  split_ifs at h with hlead hcont
  obtain rfl := Class.char.inj h
  have hd := isCont_range hcont
  have hb := second3_range (hsecond.resolve_right fun h => by omega).2
  have hvalid : ((a.toNat - 0xe0) * 4096 + (b.toNat - 0x80) * 64 + (d.toNat - 0x80)).isValidChar := by
    -- the surrogates are between the two
    rcases Nat.lt_or_ge a.toNat 0xee with hlt | hge
    · exact Or.inl (by omega)
    · exact Or.inr ⟨by omega, by omega⟩
  rw [toNat_ofNat_of_valid hvalid]
  omega

theorem not_ascii_four {a b d e : UInt8} {c : Char} (h1 : classify [a] = .more) (h2 : classify [a, b] = .more)
    (h3 : classify [a, b, d] = .more) (h : classify [a, b, d, e] = .char c) : 0x80 ≤ c.toNat := by
  obtain ⟨-, hmax⟩ := classify_one_more h1
  obtain ⟨hsecond, -⟩ := classify_two_more h2
  obtain ⟨hlead, hcont⟩ := classify_three_more h3
  simp only [classify, List.map_cons, List.map_nil] at h
  split_ifs at h with hcont'
  obtain rfl := Class.char.inj h
  have hd := isCont_range hcont
  have he := isCont_range hcont'
  have hb := second4_range (hsecond.resolve_left fun h => by omega).2
  rw [toNat_ofNat_of_valid (Or.inr ⟨by omega, by omega⟩)]
  omega

/-- A character that was open is not an ASCII character. -/
theorem not_ascii_of_open {pend : List UInt8} (h : Open pend) (hne : pend ≠ []) {b : UInt8} {c : Char}
    (hc : classify (pend ++ [b]) = .char c) : 0x80 ≤ c.toNat := by
  match pend, hne with
  | [a], _ => exact not_ascii_two (h [a] List.prefix_rfl (by simp)) hc
  | [a, b'], _ => exact not_ascii_three (h [a, b'] List.prefix_rfl (by simp)) hc
  | [a, b', c'], _ =>
    exact not_ascii_four (h [a] ⟨[b', c'], rfl⟩ (by simp)) (h [a, b'] ⟨[c'], rfl⟩ (by simp))
      (h [a, b', c'] List.prefix_rfl (by simp)) hc
  | a :: b' :: c' :: d :: r, _ =>
    cases r <;> simp [classify] at hc

theorem classify_single {b : UInt8} {c : Char} (h : classify [b] = .char c) : c.toNat = b.toNat := by
  simp only [classify, List.map_cons, List.map_nil] at h
  split_ifs at h with h1
  obtain rfl := Class.char.inj h
  exact toNat_ofNat_of_valid (Or.inl (by omega))

/-- What a byte can lead to: a replacement, the character that it ends, and what is read behind it. -/
theorem mem_lossyGo_cons {pend : List UInt8} (hopen : Open pend) {b : UInt8} {bs : List UInt8} {c : Char}
    (h : c ∈ lossyGo pend (b :: bs)) :
    c = replacement ∨ (∃ front, Open front ∧ classify (front ++ [b]) = .char c) ∨
      ∃ front, Open front ∧ c ∈ lossyGo front bs := by
  rw [lossyGo] at h
  split at h
  · rename_i d hd
    rcases List.mem_cons.mp h with rfl | h
    · exact Or.inr (Or.inl ⟨pend, hopen, hd⟩)
    · exact Or.inr (Or.inr ⟨[], open_nil, h⟩)
  · rename_i hmore
    exact Or.inr (Or.inr ⟨_, hopen.append hmore, h⟩)
  · split at h
    · exact (List.mem_cons.mp h).imp_right fun h => Or.inr ⟨[], open_nil, h⟩
    · -- the byte is read afresh
      split at h
      · rename_i d hd
        refine (List.mem_cons.mp h).imp_right fun h => ?_
        rcases List.mem_cons.mp h with rfl | h
        · exact Or.inl ⟨[], open_nil, hd⟩
        · exact Or.inr ⟨[], open_nil, h⟩
      · rename_i hmore
        exact (List.mem_cons.mp h).imp_right fun h => Or.inr ⟨_, open_nil.append hmore, h⟩
      · rcases List.mem_cons.mp h with h | h
        · exact Or.inl h
        · exact (List.mem_cons.mp h).imp_right fun h => Or.inr ⟨[], open_nil, h⟩

/-- An ASCII character of the decoded text was a byte. -/
theorem ascii_of_mem_lossyGo {bs : List UInt8} {c : Char} (hc : c.toNat < 0x80) {pend : List UInt8}
    (hopen : Open pend) (h : c ∈ lossyGo pend bs) : ∃ b ∈ bs, b.toNat = c.toNat := by
  have hreplacement : c ≠ replacement := by
    rintro rfl
    exact absurd hc (by decide)
  induction bs generalizing pend with
  | nil =>
    rw [lossyGo] at h
    split at h
    · cases h
    · exact absurd (List.mem_singleton.mp h) hreplacement
  | cons b bs ih =>
    rcases mem_lossyGo_cons hopen h with h | ⟨front, hfront, hchar⟩ | ⟨front, hfront, h⟩
    · exact absurd h hreplacement
    · -- a character of one byte, since the others are not ASCII
      by_cases hnil : front = []
      · subst hnil
        exact ⟨b, List.mem_cons_self, (classify_single hchar).symm⟩
      · exact absurd (not_ascii_of_open hfront hnil hchar) (by omega)
    · obtain ⟨b', hb', heq⟩ := ih hfront h
      exact ⟨b', List.mem_cons_of_mem _ hb', heq⟩

end Utf8

end Picoshift
