/-
# The string methods of the standard library

Text is handled with a handful of `str` methods: prefix tests, `split_once`, `splitn`, `trim`,
`lines`, `split_whitespace`, `contains`, and `parse` at an unsigned type.  Each is defined here
on the list of characters, where its recursion is visible, and lifted to `String`.

Three facts about them carry weight later: a separator that does not occur in the first part is
found where it was put (`splitOnce_append`), a prefix that was put in front can be taken off again
(`stripPrefix_append`), and the lines in front of an empty line do not depend on what follows it
(`linesL_blank`).
-/
import Mathlib.Data.List.Infix

namespace Picoshift

namespace Str

/-! ## 1. Prefixes and substrings -/

/-- `s.starts_with(p)`. -/
def startsWith (s p : String) : Bool := p.toList.isPrefixOf s.toList

/-- `s.strip_prefix(p)`. -/
def stripPrefix (s p : String) : Option String :=
  if startsWith s p then some (String.ofList (s.toList.drop p.toList.length)) else none

/-- `s.contains(p)`, on characters. -/
def containsL (p : List Char) : List Char → Bool
  | [] => p.isEmpty
  | x :: xs => p.isPrefixOf (x :: xs) || containsL p xs

/-- `s.contains(p)`. -/
def contains (s p : String) : Bool := containsL p.toList s.toList

theorem containsL_iff {p l : List Char} : containsL p l = true ↔ p <:+: l := by
  induction l with
  | nil => rw [containsL, List.isEmpty_iff, List.infix_nil]
  | cons x l ih => rw [containsL, Bool.or_eq_true, List.isPrefixOf_iff_prefix, ih, List.infix_cons_iff]

theorem contains_iff {s p : String} : contains s p = true ↔ p.toList <:+: s.toList := containsL_iff

/-- A text without `c` that occurs in a text with one occurs in front of it or behind it. -/
theorem infix_append_cons {α : Type} {c : α} {p : List α} (h : c ∉ p) {a b : List α} :
    p <:+: a ++ c :: b ↔ p <:+: a ∨ p <:+: b := by
  rw [List.infix_append_iff, List.infix_cons_iff]
  constructor
  · rintro (ha | (hpre | hb) | ⟨l, r, rfl, hl, hr⟩)
    · exact Or.inl ha
    · cases p with
      | nil => exact Or.inl List.nil_infix
      | cons x p =>
        rw [(List.cons_prefix_cons.mp hpre).1] at h
        exact absurd List.mem_cons_self h
    · exact Or.inr hb
    · cases r with
      | nil => exact Or.inl (by simpa using hl.isInfix)
      | cons x r =>
        rw [(List.cons_prefix_cons.mp hr).1] at h
        exact absurd (by simp) h
  · rintro (ha | hb)
    · exact Or.inl ha
    · exact Or.inr (Or.inl (Or.inr hb))

/-- The characters of a literal: unifying it with `String.ofList` lists them, where evaluating
`toList` would decode it. -/
theorem toList_eq_of_eq_ofList {s : String} {l : List Char} (h : s = String.ofList l) :
    s.toList = l := by
  rw [h, String.toList_ofList]

theorem startsWith_iff {s p : String} : startsWith s p = true ↔ ∃ t, s = p ++ t := by
  rw [startsWith, List.isPrefixOf_iff_prefix]
  constructor
  · rintro ⟨t, ht⟩
    exact ⟨String.ofList t, by rw [← String.toList_inj, String.toList_append,
      String.toList_ofList, ht]⟩
  · rintro ⟨t, rfl⟩
    exact ⟨t.toList, by rw [String.toList_append]⟩

@[simp] theorem startsWith_append (p t : String) : startsWith (p ++ t) p = true :=
  startsWith_iff.mpr ⟨t, rfl⟩

@[simp] theorem stripPrefix_append (p t : String) : stripPrefix (p ++ t) p = some t := by
  rw [stripPrefix, if_pos (startsWith_append p t), String.toList_append, List.drop_left,
    String.ofList_toList]

/-- A text that neither begins with `k` nor is the beginning of it is not made to begin with it by
what follows. -/
theorem startsWith_append_of_clash {p k : String} (h : (startsWith p k || startsWith k p) = false)
    (t : String) : startsWith (p ++ t) k = false := by
  rw [Bool.or_eq_false_iff] at h
  rw [← Bool.not_eq_true, startsWith, List.isPrefixOf_iff_prefix, String.toList_append]
  intro hpre
  rcases List.prefix_or_prefix_of_prefix hpre (List.prefix_append _ _) with hk | hp
  · rw [startsWith, List.isPrefixOf_iff_prefix.mpr hk] at h
    exact absurd h.1 (by simp)
  · rw [startsWith, startsWith, List.isPrefixOf_iff_prefix.mpr hp] at h
    exact absurd h.2 (by simp)

theorem stripPrefix_append_of_clash {p k : String} (h : (startsWith p k || startsWith k p) = false)
    (t : String) : stripPrefix (p ++ t) k = none := by
  rw [stripPrefix, startsWith_append_of_clash h]
  rfl

/-- On literals these are decided on lists of characters: a literal is `String.ofList` of its own, and
nothing has to be decoded. -/
theorem startsWith_ofList (l p : List Char) :
    startsWith (String.ofList l) (String.ofList p) = p.isPrefixOf l := by
  rw [startsWith, String.toList_ofList, String.toList_ofList]

theorem stripPrefix_ofList_eq_none {l p : List Char} (h : p.isPrefixOf l = false) :
    stripPrefix (String.ofList l) (String.ofList p) = none := by
  rw [stripPrefix, startsWith_ofList, h]
  rfl

theorem clash_ofList {l p : List Char} (h : (p.isPrefixOf l || l.isPrefixOf p) = false) :
    (startsWith (String.ofList l) (String.ofList p) ||
      startsWith (String.ofList p) (String.ofList l)) = false := by
  rw [startsWith_ofList, startsWith_ofList, h]

/-! ## 2. Splitting -/

section Split

variable {α : Type} [DecidableEq α]

/-- `s.split_once(c)`, on characters or on bytes. -/
def splitOnceL (c : α) : List α → Option (List α × List α)
  | [] => none
  | x :: xs => if x = c then some ([], xs) else (splitOnceL c xs).map fun r => (x :: r.1, r.2)

/-- `s.split(c)`, on characters or on bytes. -/
def splitL (c : α) : List α → List (List α)
  | [] => [[]]
  | x :: xs =>
    if x = c then [] :: splitL c xs
    else
      match splitL c xs with
      | [] => [[x]]
      | y :: ys => (x :: y) :: ys

theorem splitOnceL_append {c : α} {a : List α} (h : c ∉ a) (b : List α) :
    splitOnceL c (a ++ c :: b) = some (a, b) := by
  induction a with
  | nil => simp [splitOnceL]
  | cons x a ih =>
    have hx : x ≠ c := fun e => h (e ▸ List.mem_cons_self)
    rw [List.cons_append, splitOnceL, if_neg hx, ih fun hm => h (List.mem_cons_of_mem _ hm)]
    rfl

/-- Pieces that do not contain the separator come back one by one. -/
theorem splitL_append {c : α} {a : List α} (h : c ∉ a) (b : List α) :
    splitL c (a ++ c :: b) = a :: splitL c b := by
  induction a with
  | nil => simp [splitL]
  | cons x a ih =>
    have hx : x ≠ c := fun e => h (e ▸ List.mem_cons_self)
    rw [List.cons_append, splitL, if_neg hx, ih fun hm => h (List.mem_cons_of_mem _ hm)]

theorem splitL_of_not_mem {c : α} {a : List α} (h : c ∉ a) : splitL c a = [a] := by
  induction a with
  | nil => rfl
  | cons x a ih =>
    have hx : x ≠ c := fun e => h (e ▸ List.mem_cons_self)
    rw [splitL, if_neg hx, ih fun hm => h (List.mem_cons_of_mem _ hm)]

/-- Two texts joined at the FIRST separator are equal part by part. -/
theorem append_cons_inj_left {c : α} {a a' b b' : List α} (h : c ∉ a) (h' : c ∉ a')
    (heq : a ++ c :: b = a' ++ c :: b') : a = a' ∧ b = b' := by
  have hsplit := congrArg (splitOnceL c) heq
  rw [splitOnceL_append h, splitOnceL_append h', Option.some.injEq, Prod.mk.injEq] at hsplit
  exact hsplit

/-- Two texts joined at the LAST separator are equal part by part. -/
theorem append_cons_inj_right {c : α} {a a' b b' : List α} (h : c ∉ b) (h' : c ∉ b')
    (heq : a ++ c :: b = a' ++ c :: b') : a = a' ∧ b = b' := by
  have hrev := congrArg List.reverse heq
  simp only [List.reverse_append, List.reverse_cons, List.append_assoc,
    List.singleton_append] at hrev
  obtain ⟨hb, ha⟩ := append_cons_inj_left (mt List.mem_reverse.mp h) (mt List.mem_reverse.mp h')
    hrev
  exact ⟨List.reverse_injective ha, List.reverse_injective hb⟩

end Split

/-- A decimal number as characters. -/
theorem toList_toString (n : Nat) : (toString n).toList = Nat.toDigits 10 n := by
  rw [Nat.toString_eq_ofList_toDigits, String.toList_ofList]

theorem toDigits_inj {m n : Nat} (h : Nat.toDigits 10 m = Nat.toDigits 10 n) : m = n := by
  have hval := congrArg (fun l => Nat.ofDigitChars 10 l 0) h
  simpa only [Nat.ofDigitChars_ten_toDigits] using hval

theorem not_mem_toDigits {c : Char} (h : c.isDigit = false) (n : Nat) :
    c ∉ Nat.toDigits 10 n := by
  intro hc
  have hdigit := Nat.isDigit_of_mem_toDigits (by decide) (by decide) hc
  rw [h] at hdigit
  cases hdigit

/-- `s.split_once(c)`. -/
def splitOnce (s : String) (c : Char) : Option (String × String) :=
  (splitOnceL c s.toList).map fun r => (String.ofList r.1, String.ofList r.2)

/-- `s.splitn(n, c)`, on characters. -/
def splitnL : Nat → Char → List Char → List (List Char)
  | 0, _, _ => []
  | 1, _, l => [l]
  | n + 2, c, l =>
    match splitOnceL c l with
    | none => [l]
    | some (a, b) => a :: splitnL (n + 1) c b

/-- `s.splitn(n, c)`. -/
def splitn (s : String) (n : Nat) (c : Char) : List String :=
  (splitnL n c s.toList).map String.ofList

/-- A separator that the first part does not contain is found where it was put. -/
theorem splitOnce_append {a : String} {c : Char} (h : c ∉ a.toList) (b : String) :
    splitOnce (a ++ String.ofList [c] ++ b) c = some (a, b) := by
  rw [splitOnce, String.toList_append, String.toList_append, String.toList_ofList,
    List.append_assoc, List.singleton_append, splitOnceL_append h]
  simp [String.ofList_toList]

/-- Splitting into at most `n` pieces, at a piece without the separator. -/
theorem splitnL_append {c : Char} {a : List Char} (h : c ∉ a) (n : Nat) (b : List Char) :
    splitnL (n + 2) c (a ++ c :: b) = a :: splitnL (n + 1) c b := by
  rw [splitnL, splitOnceL_append h]

/-! ## 3. Blanks, lines and words -/

/-- `char::is_whitespace`: the Unicode property `White_Space`. -/
def isWhitespace (c : Char) : Bool :=
  let n := c.toNat
  (0x9 ≤ n && n ≤ 0xd) || n == 0x20 || n == 0x85 || n == 0xa0 || n == 0x1680 ||
    (0x2000 ≤ n && n ≤ 0x200a) || n == 0x2028 || n == 0x2029 || n == 0x202f || n == 0x205f ||
    n == 0x3000

/-- `s.trim()`, on characters. -/
def trimL (l : List Char) : List Char :=
  ((l.dropWhile isWhitespace).reverse.dropWhile isWhitespace).reverse

/-- `s.trim()`. -/
def trim (s : String) : String := String.ofList (trimL s.toList)

/-- A `\r` in front of the line feed belongs to the line end. -/
def stripCr (l : List Char) : List Char := if l.getLast? = some '\r' then l.dropLast else l

/-- `s.lines()`, on characters; `acc` is the line being read. -/
def linesGo (acc : List Char) : List Char → List (List Char)
  | [] => if acc = [] then [] else [acc]
  | x :: xs => if x = '\n' then stripCr acc :: linesGo [] xs else linesGo (acc ++ [x]) xs

/-- `s.lines()`, on characters. -/
def linesL (l : List Char) : List (List Char) := linesGo [] l

/-- `s.lines()`. -/
def lines (s : String) : List String := (linesL s.toList).map String.ofList

/-- A line feed separates what is in front of it from what is behind it. -/
theorem linesGo_append (acc a b : List Char) :
    linesGo acc (a ++ '\n' :: b) = linesGo acc (a ++ ['\n']) ++ linesGo [] b := by
  induction a generalizing acc with
  | nil => simp [linesGo]
  | cons x a ih =>
    simp only [List.cons_append, linesGo]
    split
    · rw [ih, List.cons_append]
    · exact ih _

theorem linesGo_ne_nil (acc a : List Char) : linesGo acc (a ++ ['\n']) ≠ [] := by
  induction a generalizing acc with
  | nil => simp [linesGo]
  | cons x a ih =>
    simp only [List.cons_append, linesGo]
    split
    · exact List.cons_ne_nil _ _
    · exact ih _

/-- Two line ends in a row: the lines in front of them are fixed, an empty line follows, and
whatever stands behind comes after that. -/
theorem linesL_blank (a : List Char) : ∃ first more, ∀ b,
    linesL (a ++ '\r' :: '\n' :: '\r' :: '\n' :: b) = first :: more ++ [] :: linesL b := by
  obtain ⟨first, more, hlines⟩ := List.exists_cons_of_ne_nil (linesGo_ne_nil [] (a ++ ['\r']))
  refine ⟨first, more, fun b => ?_⟩
  have hsplit := linesGo_append [] (a ++ ['\r']) ('\r' :: '\n' :: b)
  rw [hlines, List.append_assoc] at hsplit
  exact hsplit

/-- The text with these lines, each closed by a line feed. -/
def unlines : List String → String
  | [] => ""
  | l :: ls => l ++ "\n" ++ unlines ls

@[simp] theorem unlines_append (ls ms : List String) :
    unlines (ls ++ ms) = unlines ls ++ unlines ms := by
  induction ls with
  | nil => simp [unlines]
  | cons l ls ih => simp [unlines, ih, String.append_assoc]

theorem linesGo_line {l : List Char} (h : '\n' ∉ l) (acc rest : List Char) :
    linesGo acc (l ++ '\n' :: rest) = stripCr (acc ++ l) :: linesGo [] rest := by
  induction l generalizing acc with
  | nil => simp [linesGo]
  | cons x l ih =>
    have hx : x ≠ '\n' := fun e => h (e ▸ List.mem_cons_self)
    rw [List.cons_append, linesGo, if_neg hx, ih fun hm => h (List.mem_cons_of_mem _ hm),
      List.append_assoc, List.singleton_append]

/-- Reading a text line by line gives back the lines it was written with. -/
theorem lines_unlines {ls : List String}
    (h : ∀ l ∈ ls, '\n' ∉ l.toList ∧ l.toList.getLast? ≠ some '\r') : lines (unlines ls) = ls := by
  induction ls with
  | nil => rfl
  | cons l ls ih =>
    obtain ⟨hlf, hcr⟩ := h l List.mem_cons_self
    have hrest := ih fun l' hl' => h l' (List.mem_cons_of_mem _ hl')
    have htext : (unlines (l :: ls)).toList = l.toList ++ '\n' :: (unlines ls).toList := by
      simp [unlines]
    rw [lines, linesL, htext, linesGo_line hlf, List.nil_append, stripCr, if_neg hcr, List.map_cons,
      String.ofList_toList]
    rw [lines, linesL] at hrest
    rw [hrest]

/-- `s.split_whitespace()`, on characters; `acc` is the word being read. -/
def wordsGo (acc : List Char) : List Char → List (List Char)
  | [] => if acc = [] then [] else [acc]
  | x :: xs =>
    if isWhitespace x then (if acc = [] then wordsGo [] xs else acc :: wordsGo [] xs)
    else wordsGo (acc ++ [x]) xs

/-- `s.split_whitespace()`. -/
def splitWhitespace (s : String) : List String := (wordsGo [] s.toList).map String.ofList

/-- A word, up to the white space behind it. -/
theorem wordsGo_append {w : List Char} (hw : ∀ c ∈ w, isWhitespace c = false) {acc : List Char}
    (hne : acc ++ w ≠ []) {x : Char} (hx : isWhitespace x = true) (rest : List Char) :
    wordsGo acc (w ++ x :: rest) = (acc ++ w) :: wordsGo [] rest := by
  induction w generalizing acc with
  | nil =>
    rw [List.append_nil] at hne
    rw [List.nil_append, wordsGo, if_pos hx, if_neg hne, List.append_nil]
  | cons c w ih =>
    obtain ⟨hc, hw⟩ := List.forall_mem_cons.mp hw
    rw [List.cons_append, wordsGo, hc, if_neg Bool.false_ne_true, ih hw (by simp)]
    simp

/-- The value of a string of decimal digits, `none` when it is empty or holds anything else. -/
def digitsL (l : List Char) : Option Nat :=
  if l.isEmpty || !l.all Char.isDigit then none
  else some (l.foldl (fun n c => n * 10 + (c.toNat - '0'.toNat)) 0)

/-- A number is read back from its decimal digits. -/
theorem digitsL_toDigits (n : Nat) : digitsL (Nat.toDigits 10 n) = some n := by
  have hdigits : (Nat.toDigits 10 n).all Char.isDigit = true :=
    List.all_eq_true.mpr fun _ hc => Nat.isDigit_of_mem_toDigits (by decide) (by decide) hc
  have hne : (Nat.toDigits 10 n).isEmpty = false := by
    rw [List.isEmpty_eq_false_iff]
    exact Nat.toDigits_ne_nil
  have hval : (Nat.toDigits 10 n).foldl (fun m c => m * 10 + (c.toNat - '0'.toNat)) 0 = n := by
    have h := Nat.ofDigitChars_ten_toDigits (n := n)
    rw [Nat.ofDigitChars_eq_foldl] at h
    simpa only [Nat.mul_comm] using h
  rw [digitsL, hdigits, hne, hval]
  rfl

/-- `s.parse()` at an unsigned type with maximum `bound`: an optional `+`, digits, no
overflow. -/
def parseUnsigned (bound : Nat) (s : String) : Option Nat :=
  let l := match s.toList with
    | '+' :: l => l
    | l => l
  (digitsL l).filter (· ≤ bound)

theorem dropWhile_eq_self_of_forall {p : Char → Bool} {l : List Char}
    (h : ∀ c ∈ l, p c = false) : l.dropWhile p = l := by
  cases l with
  | nil => rfl
  | cons x l => rw [List.dropWhile_cons, h x List.mem_cons_self]; rfl

/-- A scan that stops inside a list stops at the same place when the list is extended. -/
theorem takeWhile_append_of_stop {α : Type} {p : α → Bool} {l : List α}
    (h : ∃ a ∈ l, p a = false) (m : List α) : (l ++ m).takeWhile p = l.takeWhile p := by
  induction l with
  | nil => obtain ⟨a, ha, -⟩ := h; exact absurd ha (by simp)
  | cons x l ih =>
    rw [List.cons_append, List.takeWhile_cons, List.takeWhile_cons]
    cases hx : p x with
    | false => rfl
    | true =>
      obtain ⟨a, ha, hpa⟩ := h
      rcases List.mem_cons.mp ha with rfl | ha
      · rw [hx] at hpa; exact absurd hpa (by simp)
      · rw [ih ⟨a, ha, hpa⟩]

/-- Text without blanks has nothing to trim. -/
theorem trim_eq_self {s : String} (h : ∀ c ∈ s.toList, isWhitespace c = false) : trim s = s := by
  have h1 : s.toList.dropWhile isWhitespace = s.toList := dropWhile_eq_self_of_forall h
  have h2 : s.toList.reverse.dropWhile isWhitespace = s.toList.reverse :=
    dropWhile_eq_self_of_forall fun c hc => h c (List.mem_reverse.mp hc)
  rw [trim, trimL, h1, h2, List.reverse_reverse, String.ofList_toList]

end Str

end Picoshift
