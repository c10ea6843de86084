/-
# JSON text

`fromSlice` reads a JSON text by the grammar: values with blanks between tokens, escapes and
surrogate pairs in strings, no leading zeros in numbers, the last of several members of one
name.  `text` writes a value in compact form.

`fromSlice_text`: a value whose numbers are integers and whose objects name each member once is
read back as it was written.  The reader takes fuel, and the length of the text is enough,
because every nested call has at least one character less to read.
-/
import Picoshift.Lib.Json
import Picoshift.Lib.Utf8

namespace Picoshift

namespace Json

/-! ## 1. Reading -/

def isBlank (c : Char) : Bool := c == ' ' || c == '\n' || c == '\r' || c == '\t'

def skipBlanks (l : List Char) : List Char := l.dropWhile isBlank

/-- The value of a hexadecimal digit. -/
def hexVal (c : Char) : Option Nat :=
  let n := c.toNat
  if 48 ≤ n ∧ n ≤ 57 then some (n - 48)
  else if 65 ≤ n ∧ n ≤ 70 then some (n - 55)
  else if 97 ≤ n ∧ n ≤ 102 then some (n - 87)
  else none

/-- The four digits of a `\u` escape. -/
def hex4 : List Char → Option (Nat × List Char)
  | a :: b :: c :: d :: rest =>
    match hexVal a, hexVal b, hexVal c, hexVal d with
    | some a, some b, some c, some d => some (((a * 16 + b) * 16 + c) * 16 + d, rest)
    | _, _, _, _ => none
  | _ => none

/-- The escapes of one letter. -/
def shortEscapes : List (Char × Char) :=
  [('"', '"'), ('\\', '\\'), ('/', '/'), ('b', '\x08'), ('f', '\x0c'), ('n', '\n'), ('r', '\r'),
    ('t', '\t')]

/-- What stands behind a backslash. -/
def readEscape : List Char → Option (Char × List Char)
  | 'u' :: rest =>
    match hex4 rest with
    | none => none
    | some (hi, rest) =>
      if 0xd800 ≤ hi ∧ hi ≤ 0xdbff then
        match rest with
        | '\\' :: 'u' :: rest =>
          match hex4 rest with
          | some (lo, rest) =>
            if 0xdc00 ≤ lo ∧ lo ≤ 0xdfff then
              some (Char.ofNat (0x10000 + (hi - 0xd800) * 0x400 + (lo - 0xdc00)), rest)
            else none
          | none => none
        | _ => none
      else if 0xdc00 ≤ hi ∧ hi ≤ 0xdfff then none
      else some (Char.ofNat hi, rest)
  | c :: rest => (shortEscapes.lookup c).map fun d => (d, rest)
  | [] => none

/-- A string, from behind its opening quote. -/
def readString : Nat → List Char → Option (List Char × List Char)
  | 0, _ => none
  | _ + 1, [] => none
  | n + 1, c :: rest =>
    if c = '"' then some ([], rest)
    else if c = '\\' then
      (readEscape rest).bind fun r => (readString n r.2).map fun s => (r.1 :: s.1, s.2)
    else if c.toNat < 0x20 then none
    else (readString n rest).map fun s => (c :: s.1, s.2)

/-- The digits of an integer, without a superfluous zero in front. -/
def readDigits (l : List Char) : Option (List Char × List Char) :=
  let ds := l.takeWhile Char.isDigit
  if ds = [] ∨ (ds.head? = some '0' ∧ ds ≠ ['0']) then none
  else some (ds, l.dropWhile Char.isDigit)

/-- The fraction and the exponent, as text. -/
def readFraction (l : List Char) : Option (List Char × List Char) :=
  let frac := match l with
    | '.' :: rest =>
      let ds := rest.takeWhile Char.isDigit
      if ds = [] then none else some ('.' :: ds, rest.dropWhile Char.isDigit)
    | _ => some ([], l)
  frac.bind fun (f, l) =>
    match l with
    | c :: rest =>
      if c = 'e' ∨ c = 'E' then
        let sign := rest.takeWhile fun c => c == '+' || c == '-'
        let rest := rest.drop sign.length
        let ds := rest.takeWhile Char.isDigit
        if ds = [] ∨ sign.length > 1 then none
        else some (f ++ c :: sign ++ ds, rest.dropWhile Char.isDigit)
      else some (f, l)
    | [] => some (f, l)

/-- A number. -/
def readNumber (l : List Char) : Option (Json × List Char) :=
  let neg := l.head? = some '-'
  (readDigits (if neg then l.tail else l)).bind fun (ds, rest) =>
    (readFraction rest).map fun (f, rest') =>
      let n : Int := Nat.ofDigitChars 10 ds 0
      if f = [] then (.num (if neg then -n else n), rest')
      else (.float (String.ofList ((if neg then ['-'] else []) ++ ds ++ f)), rest')

/-- The members of an object as they were read: a later one replaces an earlier one. -/
def collectFields (fields : List (String × Json)) : List (String × Json) :=
  fields.foldl (fun acc kv => acc.filter (fun p => p.1 ≠ kv.1) ++ [kv]) []

mutual

def readValue : Nat → List Char → Option (Json × List Char)
  | 0, _ => none
  | n + 1, l =>
    match l with
    | '{' :: rest =>
      match skipBlanks rest with
      | '}' :: rest => some (.obj [], rest)
      | rest => (readMembers n rest).map fun r => (.obj (collectFields r.1), r.2)
    | '[' :: rest =>
      match skipBlanks rest with
      | ']' :: rest => some (.arr [], rest)
      | rest => (readElems n rest).map fun r => (.arr r.1, r.2)
    | '"' :: rest =>
      (readString (rest.length + 1) rest).map fun r => (.str (String.ofList r.1), r.2)
    | 't' :: 'r' :: 'u' :: 'e' :: rest => some (.bool true, rest)
    | 'f' :: 'a' :: 'l' :: 's' :: 'e' :: rest => some (.bool false, rest)
    | 'n' :: 'u' :: 'l' :: 'l' :: rest => some (.null, rest)
    | l => readNumber l

/-- The elements of an array, to behind its closing bracket. -/
def readElems : Nat → List Char → Option (List Json × List Char)
  | 0, _ => none
  | n + 1, l =>
    (readValue n l).bind fun v =>
      match skipBlanks v.2 with
      | ',' :: rest => (readElems n (skipBlanks rest)).map fun r => (v.1 :: r.1, r.2)
      | ']' :: rest => some ([v.1], rest)
      | _ => none

/-- The members of an object, to behind its closing brace. -/
def readMembers : Nat → List Char → Option (List (String × Json) × List Char)
  | 0, _ => none
  | n + 1, l =>
    match l with
    | '"' :: rest =>
      (readString (rest.length + 1) rest).bind fun k =>
        match skipBlanks k.2 with
        | ':' :: rest =>
          (readValue n (skipBlanks rest)).bind fun v =>
            match skipBlanks v.2 with
            | ',' :: rest =>
              (readMembers n (skipBlanks rest)).map fun r =>
                ((String.ofList k.1, v.1) :: r.1, r.2)
            | '}' :: rest => some ([(String.ofList k.1, v.1)], rest)
            | _ => none
        | _ => none
    | _ => none

end

/-- A whole text is one value, with blanks around it. -/
def parse (l : List Char) : Option Json :=
  (readValue (l.length + 1) (skipBlanks l)).bind fun r =>
    if skipBlanks r.2 = [] then some r.1 else none

/-- A reader of JSON texts.  It has no limit on numbers or on nesting, as the readers that are linked have; where their
limits count, the reader is a parameter. -/
def fromSlice (bs : List UInt8) : Option Json := (Utf8.fromUtf8 bs).bind fun s => parse s.toList

/-! ## 2. Writing -/

/-- The escape of a control character: `\u00XX`. -/
def hexDigit (n : Nat) : Char := Char.ofNat (if n < 10 then 48 + n else 87 + n)

/-- One character of a string. -/
def escapeChar (c : Char) : List Char :=
  if c = '"' then ['\\', '"']
  else if c = '\\' then ['\\', '\\']
  else if c = '\n' then ['\\', 'n']
  else if c = '\r' then ['\\', 'r']
  else if c = '\t' then ['\\', 't']
  else if c = '\x08' then ['\\', 'b']
  else if c = '\x0c' then ['\\', 'f']
  else if c.toNat < 0x20 then
    ['\\', 'u', '0', '0', hexDigit (c.toNat / 16), hexDigit (c.toNat % 16)]
  else [c]

/-- A string, from behind its opening quote. -/
def stringText (s : List Char) : List Char := s.flatMap escapeChar ++ ['"']

def intText (n : Int) : List Char :=
  if n < 0 then '-' :: Nat.toDigits 10 n.natAbs else Nat.toDigits 10 n.natAbs

mutual

/-- `serde_json::to_string`. -/
def text : Json → List Char
  | .null => ['n', 'u', 'l', 'l']
  | .bool true => ['t', 'r', 'u', 'e']
  | .bool false => ['f', 'a', 'l', 's', 'e']
  | .num n => intText n
  | .float t => t.toList
  | .str s => '"' :: stringText s.toList
  | .arr [] => ['[', ']']
  | .arr (x :: xs) => '[' :: (text x ++ elemsText xs)
  | .obj [] => ['{', '}']
  | .obj ((k, v) :: kvs) =>
    '{' :: '"' :: (stringText k.toList ++ ':' :: (text v ++ membersText kvs))

/-- What follows an element of an array. -/
def elemsText : List Json → List Char
  | [] => [']']
  | x :: xs => ',' :: (text x ++ elemsText xs)

/-- What follows a member of an object. -/
def membersText : List (String × Json) → List Char
  | [] => ['}']
  | (k, v) :: kvs => ',' :: '"' :: (stringText k.toList ++ ':' :: (text v ++ membersText kvs))

end

mutual

/-- Integers only, and no member named twice. -/
def plain : Json → Bool
  | .float _ => false
  | .arr xs => plainElems xs
  | .obj fields => decide (fields.map Prod.fst).Nodup && plainFields fields
  | _ => true

def plainElems : List Json → Bool
  | [] => true
  | x :: xs => plain x && plainElems xs

def plainFields : List (String × Json) → Bool
  | [] => true
  | (_, v) :: kvs => plain v && plainFields kvs

end

/-! ## 3. Strings and numbers are read back -/

theorem hexVal_hexDigit {n : Nat} (h : n < 16) : hexVal (hexDigit n) = some n := by
  have key : ∀ n : Fin 16, hexVal (hexDigit n) = some n.val := by decide
  exact key ⟨n, h⟩

/-- One escaped character costs the reader one unit of fuel. -/
theorem readString_escapeChar (n : Nat) (c : Char) (l : List Char) :
    readString (n + 1) (escapeChar c ++ l) = (readString n l).map fun s => (c :: s.1, s.2) := by
  unfold escapeChar
  split_ifs with h1 h2 h3 h4 h5 h6 h7 h8
  · subst h1; rfl
  · subst h2; rfl
  · subst h3; rfl
  · subst h4; rfl
  · subst h5; rfl
  · subst h6; rfl
  · subst h7; rfl
  · -- a control character: four digits, and no surrogate
    have e1 := hexVal_hexDigit (n := c.toNat / 16) (by omega)
    have e2 := hexVal_hexDigit (n := c.toNat % 16) (by omega)
    have e0 : hexVal '0' = some 0 := by decide
    have hn : ((0 * 16 + 0) * 16 + c.toNat / 16) * 16 + c.toNat % 16 = c.toNat := by omega
    have hesc : readEscape ('u' :: '0' :: '0' :: hexDigit (c.toNat / 16) ::
        hexDigit (c.toNat % 16) :: l) = some (c, l) := by
      simp only [readEscape, hex4, e0, e1, e2, hn]
      rw [if_neg (by omega), if_neg (by omega), Char.ofNat_toNat]
    simp only [List.cons_append, List.nil_append, readString]
    rw [if_neg (by decide), if_pos trivial, hesc, Option.bind_some]
  · simp only [List.cons_append, List.nil_append, readString]
    rw [if_neg h1, if_neg h2, if_neg h8]

theorem readString_text (s rest : List Char) :
    ∀ n, s.length < n → readString n (stringText s ++ rest) = some (s, rest) := by
  induction s with
  | nil =>
    intro n hn
    obtain ⟨m, rfl⟩ := Nat.exists_eq_succ_of_ne_zero (Nat.ne_of_gt hn)
    rfl
  | cons c s ih =>
    intro n hn
    obtain ⟨m, rfl⟩ := Nat.exists_eq_succ_of_ne_zero (Nat.ne_of_gt (Nat.zero_lt_of_lt hn))
    have hlen : s.length < m := by simpa using hn
    have hcons : stringText (c :: s) ++ rest = escapeChar c ++ (stringText s ++ rest) := by
      simp [stringText]
    rw [hcons, Nat.succ_eq_add_one, readString_escapeChar, ih m hlen]
    rfl

theorem length_lt_stringText (s : List Char) : s.length < (stringText s).length := by
  induction s with
  | nil => decide
  | cons c s ih =>
    have hpos : 0 < (escapeChar c).length := by
      unfold escapeChar
      repeat' split
      all_goals exact Nat.succ_pos _
    have hcons : stringText (c :: s) = escapeChar c ++ stringText s := by simp [stringText]
    rw [hcons, List.length_append, List.length_cons]
    omega

/-- What may follow a number: nothing that would carry it on. -/
def endsNumber (rest : List Char) : Prop :=
  ∀ c, rest.head? = some c → c.isDigit = false ∧ c ≠ '.' ∧ c ≠ 'e' ∧ c ≠ 'E'

theorem endsNumber_cons {c : Char} (hc : c.isDigit = false ∧ c ≠ '.' ∧ c ≠ 'e' ∧ c ≠ 'E')
    (rest : List Char) : endsNumber (c :: rest) := by
  intro d hd
  rw [List.head?_cons, Option.some.injEq] at hd
  exact hd ▸ hc

theorem takeWhile_isDigit_of_endsNumber {rest : List Char} (h : endsNumber rest) :
    rest.takeWhile Char.isDigit = [] ∧ rest.dropWhile Char.isDigit = rest := by
  cases rest with
  | nil => exact ⟨rfl, rfl⟩
  | cons c l =>
    have hc := (h c rfl).1
    constructor
    · rw [List.takeWhile_cons, hc]; rfl
    · rw [List.dropWhile_cons, hc]; rfl

/-- Only zero is written with a zero in front. -/
theorem head_toDigits (n : Nat) : (Nat.toDigits 10 n).head? = some '0' → n = 0 := by
  induction n using Nat.strong_induction_on with
  | _ n ih =>
    intro h
    rcases Nat.lt_or_ge n 10 with hn | hn
    · rw [Nat.toDigits_of_lt_base hn] at h
      have key : ∀ n : Fin 10, [Nat.digitChar n].head? = some '0' → n.val = 0 := by decide
      exact key ⟨n, hn⟩ h
    · rw [Nat.toDigits_of_base_le (by decide) hn,
        List.head?_append_of_ne_nil _ Nat.toDigits_ne_nil] at h
      have := ih (n / 10) (by omega) h
      omega

theorem readDigits_toDigits (n : Nat) {rest : List Char} (h : endsNumber rest) :
    readDigits (Nat.toDigits 10 n ++ rest) = some (Nat.toDigits 10 n, rest) := by
  have hall : ∀ c ∈ Nat.toDigits 10 n, c.isDigit = true := fun c hc =>
    Nat.isDigit_of_mem_toDigits (by decide) (by decide) hc
  have htake : (Nat.toDigits 10 n ++ rest).takeWhile Char.isDigit = Nat.toDigits 10 n := by
    rw [List.takeWhile_append_of_pos hall, (takeWhile_isDigit_of_endsNumber h).1, List.append_nil]
  have hdrop : (Nat.toDigits 10 n ++ rest).dropWhile Char.isDigit = rest := by
    rw [List.dropWhile_append_of_pos hall, (takeWhile_isDigit_of_endsNumber h).2]
  have hok : ¬ (Nat.toDigits 10 n = [] ∨
      ((Nat.toDigits 10 n).head? = some '0' ∧ Nat.toDigits 10 n ≠ ['0'])) := by
    rintro (h0 | ⟨h0, hne⟩)
    · exact Nat.toDigits_ne_nil h0
    · rw [head_toDigits n h0] at hne
      exact hne (Nat.toDigits_zero 10)
  simp only [readDigits, htake, hdrop, if_neg hok]

theorem readFraction_of_endsNumber {rest : List Char} (h : endsNumber rest) :
    readFraction rest = some ([], rest) := by
  cases rest with
  | nil => rfl
  | cons c l =>
    obtain ⟨-, hdot, he, hE⟩ := h c rfl
    unfold readFraction
    split
    · rename_i heq
      exact absurd (List.cons.inj heq).1 hdot
    · simp only [Option.bind_some]
      rw [if_neg (by simp [he, hE])]

theorem toDigits_head (n : Nat) : ∃ c l, Nat.toDigits 10 n = c :: l ∧ c.isDigit = true := by
  cases h : Nat.toDigits 10 n with
  | nil => exact absurd h Nat.toDigits_ne_nil
  | cons c l =>
    refine ⟨c, l, rfl, Nat.isDigit_of_mem_toDigits (by decide : 0 < 10) (by decide) (n := n) ?_⟩
    rw [h]; exact List.mem_cons_self

theorem readNumber_intText (n : Int) {rest : List Char} (h : endsNumber rest) :
    readNumber (intText n ++ rest) = some (.num n, rest) := by
  unfold intText
  split
  · rename_i hneg
    have hval : -((n.natAbs : Nat) : Int) = n := by omega
    simp only [readNumber, List.cons_append, List.head?_cons, if_true, List.tail_cons,
      readDigits_toDigits _ h, Option.bind_some, readFraction_of_endsNumber h, Option.map_some,
      Nat.ofDigitChars_ten_toDigits, hval]
  · rename_i hneg
    have hval : ((n.natAbs : Nat) : Int) = n := by omega
    obtain ⟨c, l, hcl, hc⟩ := toDigits_head n.natAbs
    have hhead : ¬ (Nat.toDigits 10 n.natAbs ++ rest).head? = some '-' := by
      rw [hcl, List.cons_append, List.head?_cons, Option.some.injEq]
      rintro rfl
      exact absurd hc (by decide)
    simp only [readNumber, if_neg hhead, readDigits_toDigits _ h, Option.bind_some,
      readFraction_of_endsNumber h, Option.map_some, Nat.ofDigitChars_ten_toDigits, if_true, hval]

/-! ## 4. Values are read back -/

theorem skipBlanks_cons {c : Char} (h : isBlank c = false) (l : List Char) :
    skipBlanks (c :: l) = c :: l := by
  rw [skipBlanks, List.dropWhile_cons, h]; rfl

/-- A digit or a sign opens a number and nothing else. -/
theorem readValue_number {c : Char} (hc : c.isDigit = true ∨ c = '-') (n : Nat) (l : List Char) :
    readValue (n + 1) (c :: l) = readNumber (c :: l) := by
  have hne : ∀ d : Char, d.isDigit = false → d ≠ '-' → c ≠ d := by
    rintro d hd hd' rfl
    rcases hc with hc | hc
    · rw [hc] at hd; exact absurd hd (by decide)
    · exact hd' hc
  rw [readValue]
  -- what is left are the cases of the other opening characters
  all_goals
    intro rest h
    exact hne _ (by decide) (by decide) (List.cons.inj h).1

theorem intText_head (n : Int) : ∃ c l, intText n = c :: l ∧ (c.isDigit = true ∨ c = '-') := by
  unfold intText
  split
  · exact ⟨'-', _, rfl, Or.inr rfl⟩
  · obtain ⟨c, l, h, hc⟩ := toDigits_head n.natAbs
    exact ⟨c, l, h, Or.inl hc⟩

/-- A written value begins with a character that is neither blank nor a closing bracket. -/
theorem text_head {j : Json} (hj : plain j = true) :
    ∃ c l, text j = c :: l ∧ isBlank c = false ∧ c ≠ ']' := by
  match j with
  | .null => exact ⟨_, _, rfl, by decide, by decide⟩
  | .bool true => exact ⟨_, _, rfl, by decide, by decide⟩
  | .bool false => exact ⟨_, _, rfl, by decide, by decide⟩
  | .num n =>
    obtain ⟨c, l, h, hc⟩ := intText_head n
    refine ⟨c, l, by rw [text, h], ?_, ?_⟩
    · have hb : ∀ d : Char, d = ' ' ∨ d = '\n' ∨ d = '\r' ∨ d = '\t' → c ≠ d := by
        rintro d hd rfl
        rcases hc with hc | rfl
        · rcases hd with rfl | rfl | rfl | rfl <;> exact absurd hc (by decide)
        · revert hd; decide
      simp [isBlank, hb]
    · rintro rfl
      rcases hc with hc | hc
      · exact absurd hc (by decide)
      · exact absurd hc (by decide)
  | .float _ => exact absurd hj (by simp [plain])
  | .str s => exact ⟨_, _, by rw [text], by decide, by decide⟩
  | .arr [] => exact ⟨_, _, by rw [text], by decide, by decide⟩
  | .arr (x :: xs) => exact ⟨_, _, by rw [text], by decide, by decide⟩
  | .obj [] => exact ⟨_, _, by rw [text], by decide, by decide⟩
  | .obj ((k, v) :: kvs) => exact ⟨_, _, by rw [text], by decide, by decide⟩

theorem collectFields_of_nodup {fields : List (String × Json)}
    (h : (fields.map Prod.fst).Nodup) : collectFields fields = fields := by
  have key : ∀ (l acc : List (String × Json)), ((acc ++ l).map Prod.fst).Nodup →
      l.foldl (fun acc kv => acc.filter (fun p => p.1 ≠ kv.1) ++ [kv]) acc = acc ++ l := by
    intro l
    induction l with
    | nil => intro acc _; simp
    | cons kv l ih =>
      intro acc hacc
      -- no earlier member has this name, so the filter drops nothing
      have hfilter : acc.filter (fun p => p.1 ≠ kv.1) = acc := by
        rw [List.filter_eq_self]
        intro p hp
        rw [decide_eq_true_eq]
        rintro heq
        rw [List.map_append, List.nodup_append] at hacc
        exact hacc.2.2 p.1 (List.mem_map_of_mem hp) kv.1 (by simp) heq
      rw [List.foldl_cons, hfilter, ih (acc ++ [kv]) (by simpa using hacc)]
      simp
  exact key fields [] (by simpa using h)

/-- The statement of the round trip at one value. -/
def readsBack (j : Json) : Prop :=
  ∀ n rest, (text j).length < n → endsNumber rest → readValue n (text j ++ rest) = some (j, rest)

/-- Fuel that exceeds the length of a text is not used up. -/
theorem readsBack_of_succ {j : Json} (h : ∀ m rest, (text j).length ≤ m → endsNumber rest →
    readValue (m + 1) (text j ++ rest) = some (j, rest)) : readsBack j := by
  intro n rest hn hrest
  cases n with
  | zero => exact absurd hn (Nat.not_lt_zero _)
  | succ m => exact h m rest (Nat.le_of_lt_succ hn) hrest

/-- An element and what follows it. -/
theorem readElems_cons {x : Json} (hx : readsBack x) {n : Nat} {t : List Char}
    (hn : (text x).length < n) {c : Char} (hc : isBlank c = false)
    (hnum : c.isDigit = false ∧ c ≠ '.' ∧ c ≠ 'e' ∧ c ≠ 'E') :
    readElems (n + 1) (text x ++ c :: t) =
      match c :: t with
      | ',' :: rest => (readElems n (skipBlanks rest)).map fun r => (x :: r.1, r.2)
      | ']' :: rest => some ([x], rest)
      | _ => none := by
  rw [readElems, hx n (c :: t) hn (endsNumber_cons hnum t), Option.bind_some]
  simp only [skipBlanks_cons hc]

/-- A member and what follows it. -/
theorem readMembers_cons {k : String} {v : Json} (hp : plain v = true) (hv : readsBack v)
    {n : Nat} {t rest : List Char} (hn : (text v).length < n) {c : Char} (hc : isBlank c = false)
    (hnum : c.isDigit = false ∧ c ≠ '.' ∧ c ≠ 'e' ∧ c ≠ 'E') :
    readMembers (n + 1)
        ('"' :: (stringText k.toList ++ ':' :: (text v ++ c :: t)) ++ rest) =
      match c :: (t ++ rest) with
      | ',' :: rest => (readMembers n (skipBlanks rest)).map fun r => ((k, v) :: r.1, r.2)
      | '}' :: rest => some ([(k, v)], rest)
      | _ => none := by
  have hlen := length_lt_stringText k.toList
  obtain ⟨d, l, hdl, hblank, -⟩ := text_head hp
  have hread := hv n (c :: (t ++ rest)) hn (endsNumber_cons hnum _)
  simp only [List.cons_append, List.append_assoc]
  rw [readMembers, readString_text _ _ _ (by simp only [List.length_append]; omega),
    Option.bind_some]
  simp only [skipBlanks_cons (by decide : isBlank ':' = false), String.ofList_toList]
  rw [hdl, List.cons_append] at hread ⊢
  rw [skipBlanks_cons hblank, hread, Option.bind_some]
  simp only [skipBlanks_cons hc]

mutual

theorem readValue_text : (j : Json) → plain j = true → readsBack j
  | .null, _ => readsBack_of_succ fun _ _ _ _ => rfl
  | .bool true, _ => readsBack_of_succ fun _ _ _ _ => rfl
  | .bool false, _ => readsBack_of_succ fun _ _ _ _ => rfl
  | .num k, _ => by
    refine readsBack_of_succ fun m rest _ hrest => ?_
    obtain ⟨c, l, h, hc⟩ := intText_head k
    have hnum := readNumber_intText k hrest
    rw [text]
    rw [h, List.cons_append] at hnum ⊢
    rw [readValue_number hc, hnum]
  | .float _, h => absurd h (by simp [plain])
  | .str s, _ => by
    refine readsBack_of_succ fun m rest _ _ => ?_
    have hlen := length_lt_stringText s.toList
    rw [text, List.cons_append, readValue,
      readString_text _ _ _ (by rw [List.length_append]; omega)]
    simp
  | .arr [], _ => readsBack_of_succ fun _ _ _ _ => rfl
  | .arr (x :: xs), h => by
    refine readsBack_of_succ fun m rest hm _ => ?_
    rw [plain, plainElems, Bool.and_eq_true] at h
    rw [text, List.length_cons] at hm
    have helems := readElems_text xs h.2 x (readValue_text x h.1) m rest (by omega)
    obtain ⟨c, l, hcl, hblank, hbr⟩ := text_head h.1
    rw [text, List.cons_append, List.append_assoc, readValue]
    rw [hcl, List.cons_append] at helems ⊢
    simp only [skipBlanks_cons hblank]
    split
    · rename_i heq
      exact absurd (List.cons.inj heq).1 hbr
    · rw [helems]; rfl
  | .obj [], _ => readsBack_of_succ fun _ _ _ _ => rfl
  | .obj ((k, v) :: kvs), h => by
    refine readsBack_of_succ fun m rest hm _ => ?_
    rw [plain, plainFields, Bool.and_eq_true, Bool.and_eq_true, decide_eq_true_eq] at h
    rw [text, List.length_cons] at hm
    have hmembers := readMembers_text kvs h.2.2 k v h.2.1 (readValue_text v h.2.1) m rest
      (by omega)
    rw [text, List.cons_append, readValue, List.cons_append]
    simp only [skipBlanks_cons (by decide : isBlank '"' = false)]
    rw [List.cons_append] at hmembers
    show (readMembers m _).map _ = _
    rw [hmembers, Option.map_some, collectFields_of_nodup h.1]

theorem readElems_text : (xs : List Json) → plainElems xs = true → ∀ x, readsBack x →
    ∀ n rest, (text x ++ elemsText xs).length < n →
      readElems n (text x ++ (elemsText xs ++ rest)) = some (x :: xs, rest)
  | [], _ => by
    intro x hx n rest hn
    obtain ⟨m, rfl⟩ := Nat.exists_eq_succ_of_ne_zero (Nat.ne_of_gt (Nat.zero_lt_of_lt hn))
    rw [elemsText] at hn ⊢
    rw [List.length_append, List.length_singleton] at hn
    rw [Nat.succ_eq_add_one, List.cons_append,
      readElems_cons hx (by omega) (by decide) (by decide)]
    rfl
  | y :: ys, h => by
    intro x hx n rest hn
    obtain ⟨m, rfl⟩ := Nat.exists_eq_succ_of_ne_zero (Nat.ne_of_gt (Nat.zero_lt_of_lt hn))
    rw [plainElems, Bool.and_eq_true] at h
    rw [elemsText, List.length_append, List.length_cons] at hn
    have htail := readElems_text ys h.2 y (readValue_text y h.1) m rest (by omega)
    obtain ⟨c, l, hcl, hblank, -⟩ := text_head h.1
    rw [elemsText, Nat.succ_eq_add_one, List.cons_append,
      readElems_cons hx (by omega) (by decide) (by decide), List.append_assoc]
    rw [hcl, List.cons_append] at htail ⊢
    simp only [skipBlanks_cons hblank]
    rw [htail]; rfl

theorem readMembers_text : (kvs : List (String × Json)) → plainFields kvs = true → ∀ k v,
    plain v = true → readsBack v → ∀ n rest,
    ('"' :: (stringText k.toList ++ ':' :: (text v ++ membersText kvs))).length < n →
      readMembers n ('"' :: (stringText k.toList ++ ':' :: (text v ++ membersText kvs)) ++ rest) =
        some ((k, v) :: kvs, rest)
  | [], _ => by
    intro k v hp hv n rest hn
    obtain ⟨m, rfl⟩ := Nat.exists_eq_succ_of_ne_zero (Nat.ne_of_gt (Nat.zero_lt_of_lt hn))
    rw [membersText] at hn ⊢
    simp only [List.length_cons, List.length_append, List.length_nil] at hn
    rw [Nat.succ_eq_add_one, readMembers_cons hp hv (by omega) (by decide) (by decide)]
    rfl
  | (k', v') :: kvs, h => by
    intro k v hp hv n rest hn
    obtain ⟨m, rfl⟩ := Nat.exists_eq_succ_of_ne_zero (Nat.ne_of_gt (Nat.zero_lt_of_lt hn))
    rw [plainFields, Bool.and_eq_true] at h
    rw [membersText] at hn ⊢
    simp only [List.length_cons, List.length_append] at hn
    have htail := readMembers_text kvs h.2 k' v' h.1 (readValue_text v' h.1) m rest (by
      simp only [List.length_cons, List.length_append]; omega)
    rw [Nat.succ_eq_add_one, readMembers_cons hp hv (by omega) (by decide) (by decide)]
    rw [List.cons_append] at htail
    simp only [List.cons_append, skipBlanks_cons (by decide : isBlank '"' = false), htail]
    rfl

end

/-- A plain value, written in compact form and read again. -/
theorem fromSlice_text {j : Json} (hj : plain j = true) :
    fromSlice (Utf8.encode (String.ofList (text j))) = some j := by
  obtain ⟨c, l, hcl, hblank, -⟩ := text_head hj
  have hread := readValue_text j hj ((text j).length + 1) [] (Nat.lt_succ_self _)
    (fun c hc => absurd hc (by simp))
  rw [List.append_nil] at hread
  have hskip : skipBlanks (text j) = text j := by rw [hcl, skipBlanks_cons hblank]
  rw [fromSlice, Utf8.fromUtf8_encode, Option.bind_some, String.toList_ofList, parse, hskip, hread,
    Option.bind_some]
  rfl

end Json

end Picoshift
