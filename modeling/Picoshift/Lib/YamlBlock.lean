/-
# Block collections

Sequences and mappings are written by INDENTATION: an entry of a sequence begins with a dash, an entry of a mapping
with a key and a colon, and what stands further to the right belongs to the entry before it.  A reader works in two
stages.  `tokens` cuts the text into dashes, keys and scalars and notes the columns of the first two; a scalar is
double-quoted, or PLAIN, that is, the text of a line as it is.  `readItem` then keeps the collections that are open, one
inside the other, and says for every node where in the document it is.

What is read is a part of YAML 1.2.  A scalar stands in the line of its key or its dash; only a quoted one goes on in
the next line.  Values may not be empty.  Comments, tabs between tokens, quoted keys, flow collections, block scalars,
single quotes, anchors, aliases, tags and directives are refused; so is, as YAML demands, a key that is there twice.

Of a text that was written behind a key as it is, `run_value` says what the reader can make of it: a plain scalar is
a text that `isPlainScalar`, and otherwise the text is quoted or there is no scalar in its line.
-/
import Picoshift.Lib.Yaml
import Picoshift.Lib.YamlScalar

namespace Picoshift.Yaml

open Transducer

/-! ## 1. Plain scalars -/

/-- A visible character. -/
def isNs (c : Char) : Bool :=
  printable c && c != '\n' && c != '\r' && c != ' ' && c != '\t' && c.toNat != 0xfeff

/-- The characters that cannot begin a plain scalar: a comma, brackets, braces, the signs of comments, anchors,
aliases, tags, block scalars, quotation marks, the percent and the at sign, and the backtick. -/
def isIndicator (c : Char) : Bool :=
  [0x2c, 0x5b, 0x5d, 0x7b, 0x7d, 0x23, 0x26, 0x2a, 0x21, 0x7c, 0x3e, 0x27, 0x22, 0x25, 0x40, 0x60].contains c.toNat

/-- The characters that can, in front of a visible one. -/
def isLead (c : Char) : Bool := c == '-' || c == '?' || c == ':'

/-- The second character may stand behind the first one: a colon and a blank make a key, a blank and a hash a
comment. -/
def follows (prev c : Char) : Bool :=
  (isNs c || Quoted.isBlank c) && !(prev == ':' && Quoted.isBlank c) && !(Quoted.isBlank prev && c == '#')

/-- The characters may stand behind the first one and behind each other. -/
def plainBody : Char → List Char → Bool
  | _, [] => true
  | prev, c :: s => follows prev c && plainBody c s

/-- The character may stand at the end. -/
def closes (c : Char) : Bool := !Quoted.isBlank c && c != ':'

/-- The text is a plain scalar of one line. -/
def isPlainScalar : List Char → Bool
  | [] => false
  | c :: s => isNs c && !isIndicator c && !(isLead c && (s.head?.all Quoted.isBlank)) && plainBody c s &&
      closes (s.getLastD c)

/-! ## 2. Tokens -/

inductive Token where
  | dash (col : Nat)
  | key (col : Nat) (text : List Char)
  | scalar (text : List Char)
  deriving DecidableEq, Repr

/-- What is in front of a token in its line: nothing, a dash, or a key. -/
inductive Place where
  | line
  | item
  | value
  deriving DecidableEq, Repr

namespace Block

/-- Where the scanner is: in front of a token; behind a character that is an indicator or the beginning of a plain
scalar; in a key or a plain scalar, with blanks and perhaps a colon that belong to it if it goes on; in a quoted
scalar; or behind one. -/
inductive Mode where
  | gap (place : Place) (col : Nat)
  | lead (place : Place) (col : Nat) (first : Char)
  | plain (place : Place) (col : Nat) (text blanks : List Char) (colon : Bool)
  | quoted (q : Quoted.Mode) (text : List Char)
  | closed
  deriving DecidableEq, Repr

/-- The beginning of a line. -/
def start : Mode := .gap .line 0

/-- A key ends, and `m` follows. -/
def endKey (place : Place) (col : Nat) (text : List Char) (m : Mode) : Option (List Token × Mode) :=
  match place with
  | .value => none
  | _ => some ([.key col text], m)

/-- A plain scalar ends with its line. -/
def endScalar (place : Place) (text : List Char) : Option (List Token × Mode) :=
  match place with
  | .line => none
  | _ => some ([.scalar text], start)

/-- What belongs to a text that goes on. -/
def pending (blanks : List Char) (colon : Bool) : List Char := blanks ++ if colon then [':'] else []

/-- A character of a key or a plain scalar. -/
def plainNext (place : Place) (col : Nat) (text blanks : List Char) (colon : Bool) (c : Char) :
    Option (List Token × Mode) :=
  if c = '\n' then
    if colon then endKey place col text start else endScalar place text
  else if Quoted.isBlank c then
    if colon then (if c = ' ' then endKey place col text (.gap .value 0) else none)
    else some ([], .plain place col text (blanks ++ [c]) false)
  else if c = '#' ∧ colon = false ∧ blanks ≠ [] then none
  else if c = ':' then
    if colon then some ([], .plain place col (text ++ pending blanks colon) [] true)
    else some ([], .plain place col text blanks true)
  else if isNs c then some ([], .plain place col (text ++ pending blanks colon ++ [c]) [] false)
  else none

def next : Mode → Char → Option (List Token × Mode)
  | .gap place col, c =>
    if c = ' ' then some ([], .gap place (col + 1))
    else if c = '\n' then some ([], start)
    else if c = '"' then (if place = .line then none else some ([], .quoted (.text []) []))
    else if isLead c then some ([], .lead place col c)
    else if isNs c ∧ isIndicator c = false then some ([], .plain place col [c] [] false)
    else none
  | .lead place col first, c =>
    if c = ' ' ∨ c = '\n' then
      if first = '-' ∧ place ≠ .value then
        some ([.dash col], if c = ' ' then .gap .item (col + 2) else start)
      else none
    else if c = '\t' then none
    else if first = ':' then plainNext place col [] [] true c
    else plainNext place col [first] [] false c
  | .plain place col text blanks colon, c => plainNext place col text blanks colon c
  | .quoted q text, c =>
    match Quoted.next q c with
    | some (out, q') => some ([], .quoted q' (text ++ out))
    | none =>
      if c = '"' then (Quoted.finish q).map fun rest => ([.scalar (text ++ rest)], .closed)
      else none
  | .closed, c =>
    if c = ' ' then some ([], .closed)
    else if c = '\n' then some ([], start)
    else none

def scanner : Transducer Mode Char Token := ⟨next⟩

theorem scanner_next (m : Mode) (c : Char) : scanner.next m c = Block.next m c := rfl

end Block

/-- The tokens of a text that ends with a line. -/
def tokens (s : List Char) : Option (List Token) :=
  match Block.scanner.run Block.start s with
  | some (toks, .gap .line 0) => some toks
  | _ => none

theorem tokens_eq_some {s : List Char} {toks : List Token} :
    tokens s = some toks ↔ Block.scanner.run Block.start s = some (toks, Block.start) := by
  unfold tokens
  split
  · rename_i toks' hrun
    rw [hrun, Block.start]
    simp
  · rename_i hrun
    refine iff_of_false nofun ?_
    intro h
    exact hrun toks h

namespace Block

/-! ## 3. A plain scalar is read as it is -/

/-- The blanks and the colon that a mode remembers go with the last character. -/
structure Mirrors (prev : Char) (blanks : List Char) (colon : Bool) : Prop where
  colon_eq : colon = (prev == ':')
  blanks_eq : colon = false → blanks.isEmpty = !Quoted.isBlank prev

theorem isBlank_iff {c : Char} : Quoted.isBlank c = true ↔ c = ' ' ∨ c = '\t' := by
  simp [Quoted.isBlank]

theorem isNs_ne {c : Char} (h : isNs c = true) : c ≠ '\n' ∧ Quoted.isBlank c = false := by
  simp only [isNs, Bool.and_eq_true, bne_iff_ne] at h
  refine ⟨h.1.1.1.1.2, ?_⟩
  rw [← Bool.not_eq_true, isBlank_iff]
  rintro (rfl | rfl)
  · exact h.1.1.2 rfl
  · exact h.1.2 rfl

section PlainNext

variable (col : Nat) (text : List Char) {blanks : List Char} {colon : Bool} {prev c : Char}

/-- **One more character of the text behind a key.** -/
theorem plainNext_of_follows (hm : Mirrors prev blanks colon) (hc : c ≠ '\n')
    (h : follows prev c = true) : ∃ text' blanks' colon',
      plainNext .value col text blanks colon c = some ([], .plain .value col text' blanks' colon') ∧
        text' ++ pending blanks' colon' = text ++ pending blanks colon ++ [c] ∧
        Mirrors c blanks' colon' := by
  simp only [follows, Bool.and_eq_true, Bool.not_eq_true', Bool.or_eq_true] at h
  obtain ⟨⟨hkind, hkey⟩, hcomment⟩ := h
  rw [plainNext, if_neg hc]
  by_cases hblank : Quoted.isBlank c = true
  · -- no colon in front of it
    rw [hblank, Bool.and_true, ← hm.colon_eq] at hkey
    subst hkey
    refine ⟨text, blanks ++ [c], false, ?_, by simp [pending], ⟨?_, fun _ => ?_⟩⟩
    · rw [if_pos hblank]
      rfl
    · rcases isBlank_iff.mp hblank with rfl | rfl <;> rfl
    · rw [hblank]
      simp
  · have hns : isNs c = true := hkind.resolve_right hblank
    rw [if_neg hblank]
    have hhash : ¬ (c = '#' ∧ colon = false ∧ blanks ≠ []) := by
      rintro ⟨rfl, hcolon, hblanks⟩
      have hprev := hm.blanks_eq hcolon
      rw [List.isEmpty_eq_false_iff.mpr hblanks, Eq.comm, Bool.not_eq_false'] at hprev
      rw [hprev] at hcomment
      exact absurd hcomment (by decide)
    rw [if_neg hhash]
    by_cases hcolon : c = ':'
    · subst hcolon
      rw [if_pos rfl]
      cases colon with
      | true => exact ⟨_, [], true, rfl, by simp [pending], ⟨rfl, nofun⟩⟩
      | false => exact ⟨text, blanks, true, rfl, by simp [pending], ⟨rfl, nofun⟩⟩
    · rw [if_neg hcolon, if_pos hns]
      refine ⟨_, [], false, rfl, by simp [pending], ⟨by simpa using hcolon, fun _ => ?_⟩⟩
      rw [(isNs_ne hns).2]
      rfl

theorem plainNext_of_not_follows (hm : Mirrors prev blanks colon) (hc : c ≠ '\n')
    (h : follows prev c = false) : plainNext .value col text blanks colon c = none := by
  rw [plainNext, if_neg hc]
  by_cases hblank : Quoted.isBlank c = true
  · have hcolon : colon = true := by
      have hne : c ≠ '#' := by
        rintro rfl
        exact absurd hblank (by decide)
      rw [hm.colon_eq]
      simpa [follows, hblank, hne] using h
    subst hcolon
    rw [if_pos hblank, if_pos rfl]
    split <;> rfl
  · rw [if_neg hblank]
    by_cases hns : isNs c = true
    · -- the text goes on with a comment
      have hhash : c = '#' ∧ Quoted.isBlank prev = true := by
        simp only [follows, hns, hblank, Bool.true_or, Bool.and_false, Bool.not_false, Bool.true_and,
          Bool.not_eq_false', Bool.and_eq_true, beq_iff_eq] at h
        exact ⟨h.2, h.1⟩
      have hcolon : colon = false := by
        rw [hm.colon_eq]
        rcases isBlank_iff.mp hhash.2 with rfl | rfl <;> rfl
      have hblanks : blanks ≠ [] := by
        have hempty := hm.blanks_eq hcolon
        rw [hhash.2] at hempty
        exact List.isEmpty_eq_false_iff.mp hempty
      rw [if_pos ⟨hhash.1, hcolon, hblanks⟩]
    · have hne : c ≠ ':' := by
        rintro rfl
        exact hns (by decide)
      rw [if_neg hne, if_neg hns, ite_self]

end PlainNext

theorem run_plain (col : Nat) (text : List Char) {s : List Char} (hs : '\n' ∉ s) {blanks : List Char}
    {colon : Bool} {prev : Char} (hm : Mirrors prev blanks colon) :
    (plainBody prev s = true → ∃ text' blanks' colon',
      scanner.run (.plain .value col text blanks colon) s =
          some ([], .plain .value col text' blanks' colon') ∧
        text' ++ pending blanks' colon' = text ++ pending blanks colon ++ s ∧
        Mirrors (s.getLastD prev) blanks' colon') ∧
    (plainBody prev s = false → scanner.run (.plain .value col text blanks colon) s = none) := by
  induction s generalizing text blanks colon prev with
  | nil => exact ⟨fun _ => ⟨text, blanks, colon, rfl, (List.append_nil _).symm, hm⟩, nofun⟩
  | cons c s ih =>
    obtain ⟨hc, hs⟩ := List.ne_and_not_mem_of_not_mem_cons hs
    rw [plainBody]
    cases hfollows : follows prev c with
    | false =>
      refine ⟨nofun, fun _ => ?_⟩
      rw [run]
      have hnone : scanner.next (.plain .value col text blanks colon) c = none :=
        plainNext_of_not_follows col text hm (Ne.symm hc) hfollows
      rw [hnone]
    | true =>
      obtain ⟨text₁, blanks₁, colon₁, hnext, htext, hm₁⟩ :=
        plainNext_of_follows col text hm (Ne.symm hc) hfollows
      obtain ⟨hgood, hbad⟩ := ih text₁ hs hm₁
      have hrun := run_cons_of_next (T := scanner) (m := .plain .value col text blanks colon) hnext s
      rw [hrun, Bool.true_and, List.getLastD_cons]
      constructor
      · intro hbody
        obtain ⟨text', blanks', colon', hrun', htext', hm'⟩ := hgood hbody
        refine ⟨text', blanks', colon', ?_, ?_, hm'⟩
        · rw [hrun']
          rfl
        · rw [htext', htext]
          simp
      · intro hbody
        rw [hbad hbody]
        rfl

/-- A plain scalar behind a key, after its first character. -/
def opened (col : Nat) (c : Char) : Mode := .plain .value col (if c = ':' then [] else [c]) [] (c == ':')

theorem mirrors_first (c : Char) (h : isNs c = true) : Mirrors c [] (c == ':') :=
  ⟨rfl, fun _ => by rw [(isNs_ne h).2]; rfl⟩

theorem first_append (c : Char) : (if c = ':' then [] else [c]) ++ pending [] (c == ':') = [c] := by
  by_cases h : c = ':'
  · simp [h, pending]
  · simp [h, pending]

/-- What a colon, a dash or a question mark begins is decided by the next character. -/
theorem run_lead (col : Nat) (c d : Char) (s : List Char) :
    scanner.run (.lead .value col c) (d :: s) =
      if Quoted.isBlank d = true ∨ d = '\n' then none else scanner.run (opened col c) (d :: s) := by
  have hnext : scanner.next (.lead .value col c) d =
      if Quoted.isBlank d = true ∨ d = '\n' then none else scanner.next (opened col c) d := by
    rw [scanner_next, scanner_next, Block.next]
    by_cases hspace : d = ' ' ∨ d = '\n'
    · have hblank : Quoted.isBlank d = true ∨ d = '\n' :=
        hspace.imp_left fun h => isBlank_iff.mpr (Or.inl h)
      rw [if_pos hspace, if_pos hblank, if_neg (by simp)]
    · rw [if_neg hspace]
      by_cases htab : d = '\t'
      · rw [if_pos htab, if_pos (Or.inl (isBlank_iff.mpr (Or.inr htab)))]
      · have hblank : ¬ (Quoted.isBlank d = true ∨ d = '\n') := by
          rw [isBlank_iff]
          tauto
        rw [if_neg htab, if_neg hblank, opened, Block.next]
        by_cases hcolon : c = ':'
        · rw [hcolon]
          rfl
        · rw [if_neg hcolon, if_neg hcolon, beq_eq_false_iff_ne.mpr hcolon]
  rw [run, hnext]
  by_cases hblank : Quoted.isBlank d = true ∨ d = '\n'
  · rw [if_pos hblank, if_pos hblank]
  · rw [if_neg hblank, if_neg hblank, run]

/-- A scalar up to the end of its line. -/
theorem run_opened_of {c : Char} (hc : isNs c = true) {l : List Char} (hbody : plainBody c l = true)
    (hl : '\n' ∉ l) : ∀ col, ∃ t blanks colon,
      scanner.run (opened col c) l = some ([], .plain .value col t blanks colon) ∧
        t ++ pending blanks colon = c :: l ∧ Mirrors (l.getLastD c) blanks colon := by
  intro col
  have hgood := (run_plain col (if c = ':' then [] else [c]) hl (mirrors_first c hc)).1 hbody
  rwa [first_append, List.singleton_append] at hgood

/-- A character that may stand at the end leaves nothing behind. -/
theorem pending_of_closes {c : Char} {blanks : List Char} {colon : Bool} (hm : Mirrors c blanks colon)
    (h : closes c = true) : blanks = [] ∧ colon = false := by
  simp only [closes, Bool.and_eq_true, Bool.not_eq_true', bne_iff_ne] at h
  have hcolon : colon = false := by
    rw [hm.colon_eq]
    exact beq_eq_false_iff_ne.mpr h.2
  refine ⟨?_, hcolon⟩
  have hempty := hm.blanks_eq hcolon
  rw [h.1] at hempty
  exact List.isEmpty_iff.mp hempty

theorem closes_of_pending {c : Char} (hm : Mirrors c [] false) : closes c = true := by
  have hblank := hm.blanks_eq rfl
  rw [List.isEmpty_nil, Eq.comm, Bool.not_eq_true'] at hblank
  rw [closes, hblank, bne, ← hm.colon_eq]
  rfl

/-- The end of the line is the end of the scalar. -/
theorem run_opened_line (col : Nat) {c : Char} (hc : isNs c = true) {l : List Char} (hl : '\n' ∉ l)
    (hbody : plainBody c l = true) (hcloses : closes (l.getLastD c) = true) (rest : List Char) :
    scanner.run (opened col c) (l ++ '\n' :: rest) =
      prepend [.scalar (c :: l)] (scanner.run start rest) := by
  obtain ⟨t, blanks, colon, hrun, htext, hm⟩ := run_opened_of hc hbody hl col
  obtain ⟨rfl, rfl⟩ := pending_of_closes hm hcloses
  rw [pending, if_neg Bool.false_ne_true, List.append_nil, List.append_nil] at htext
  rw [run_append_of _ _ hrun, htext]
  exact prepend_nil _

/-- A scalar that was read to the end of its line is the line, or shorter. -/
theorem run_opened_eq_some {col : Nat} {c : Char} (hc : isNs c = true) {l : List Char} (hl : '\n' ∉ l)
    {rest : List Char} {toks : List Token} {m : Mode}
    (h : scanner.run (opened col c) (l ++ '\n' :: rest) = some (toks, m)) :
    plainBody c l = true ∧ ∃ t toks', toks = .scalar t :: toks' ∧
      scanner.run start rest = some (toks', m) ∧
        (t.length < (c :: l).length ∨ t = c :: l ∧ closes (l.getLastD c) = true) := by
  obtain ⟨out₁, m₁, out₂, hrun, hrun', rfl⟩ := run_append_eq_some h
  have hbody : plainBody c l = true := by
    by_contra hbody
    have hbad := (run_plain col (if c = ':' then [] else [c]) hl (mirrors_first c hc)).2
    rw [opened, hbad (Bool.not_eq_true _ ▸ hbody)] at hrun
    cases hrun
  refine ⟨hbody, ?_⟩
  obtain ⟨t, blanks, colon, hrun₁, htext, hm⟩ := run_opened_of hc hbody hl col
  rw [hrun₁] at hrun
  cases hrun
  obtain ⟨out₃, m₃, out₄, hnext, hrest, rfl⟩ := run_cons_eq_some hrun'
  cases colon with
  | true => cases hnext
  | false =>
    cases hnext
    refine ⟨t, out₄, rfl, hrest, ?_⟩
    rw [pending, if_neg Bool.false_ne_true, List.append_nil] at htext
    by_cases hblanks : blanks = []
    · subst hblanks
      rw [List.append_nil] at htext
      exact Or.inr ⟨htext, closes_of_pending hm⟩
    · left
      have hlength := congrArg List.length htext
      rw [List.length_append] at hlength
      have hpos := List.length_pos_iff.mpr hblanks
      omega

/-! ## 4. What can stand behind a key -/

theorem isLead_isNs {c : Char} (h : isLead c = true) : isNs c = true ∧ isIndicator c = false := by
  simp only [isLead, Bool.or_eq_true, beq_iff_eq] at h
  rcases h with (rfl | rfl) | rfl <;> decide

theorem isPlainScalar_cons {c : Char} {l : List Char} : isPlainScalar (c :: l) = true ↔
    isNs c = true ∧ isIndicator c = false ∧ (isLead c = true → ∃ d ∈ l.head?, Quoted.isBlank d = false) ∧
      plainBody c l = true ∧ closes (l.getLastD c) = true := by
  rw [isPlainScalar]
  cases l with
  | nil => simp [and_assoc]
  | cons d l => simp [and_assoc, ← Bool.not_eq_true, imp_iff_not_or]

theorem not_mem_newline {c : Char} {l : List Char} (h : plainBody c l = true) : '\n' ∉ l := by
  induction l generalizing c with
  | nil => exact List.not_mem_nil
  | cons d l ih =>
    rw [plainBody, Bool.and_eq_true] at h
    rintro (_ | ⟨_, hmem⟩)
    · simp only [follows, Bool.and_eq_true] at h
      exact absurd h.1.1.1 (by decide)
    · exact ih h.2 hmem

/-- A character that is neither a blank, nor a break, nor a quotation mark begins a plain scalar. -/
theorem run_gap {col : Nat} {c : Char} (hspace : c ≠ ' ') (hbreak : c ≠ '\n') (hquote : c ≠ '"')
    (s : List Char) : scanner.run (.gap .value col) (c :: s) =
      if isLead c then scanner.run (.lead .value col c) s
      else if isNs c = true ∧ isIndicator c = false then scanner.run (opened col c) s
      else none := by
  have hnext : scanner.next (.gap .value col) c =
      if isLead c then some ([], .lead .value col c)
      else if isNs c ∧ isIndicator c = false then some ([], opened col c)
      else none := by
    rw [scanner_next, Block.next, if_neg hspace, if_neg hbreak, if_neg hquote]
    by_cases hlead : isLead c = true
    · rw [if_pos hlead, if_pos hlead]
    · have hcolon : c ≠ ':' := by
        rintro rfl
        exact hlead rfl
      rw [if_neg hlead, if_neg hlead, opened, if_neg hcolon, beq_eq_false_iff_ne.mpr hcolon]
  rw [run, hnext]
  split
  · rename_i h
    split at h
    · cases h
    · rename_i hlead
      rw [if_neg hlead]
      split at h
      · cases h
      · rename_i hplain
        rw [if_neg hplain]
  · rename_i out m h
    split at h
    · rename_i hlead
      cases h
      rw [if_pos hlead, prepend_nil]
    · rename_i hlead
      rw [if_neg hlead]
      split at h
      · rename_i hplain
        cases h
        rw [if_pos hplain, prepend_nil]
      · cases h

/-- **A plain scalar behind a key is read as it is.** -/
theorem run_of_isPlainScalar {l : List Char} (h : isPlainScalar l = true) (col : Nat) (rest : List Char) :
    scanner.run (.gap .value col) (l ++ '\n' :: rest) =
      prepend [.scalar l] (scanner.run start rest) := by
  cases l with
  | nil => cases h
  | cons c l =>
    obtain ⟨hns, hindicator, hlead, hbody, hcloses⟩ := isPlainScalar_cons.mp h
    have hopened := run_opened_line col hns (not_mem_newline hbody) hbody hcloses rest
    obtain ⟨hbreak, hblank⟩ := isNs_ne hns
    have hspace : c ≠ ' ' := by
      rintro rfl
      cases hblank
    have hquote : c ≠ '"' := by
      rintro rfl
      cases hindicator
    rw [List.cons_append, run_gap hspace hbreak hquote, ← hopened]
    by_cases hc : isLead c = true
    · rw [if_pos hc]
      obtain ⟨d, hd, hd'⟩ := hlead hc
      cases l with
      | nil => cases hd
      | cons e l =>
        obtain rfl : e = d := Option.some.inj hd
        have hne : e ≠ '\n' := fun heq => not_mem_newline hbody (heq ▸ List.mem_cons_self)
        rw [List.cons_append, run_lead, if_neg (by simp [hd', hne])]
    · rw [if_neg hc, if_pos ⟨hns, hindicator⟩]

theorem run_gap_eq_some {col : Nat} {c : Char} (hspace : c ≠ ' ') (hbreak : c ≠ '\n') (hquote : c ≠ '"')
    {l rest : List Char} {toks : List Token} {m : Mode}
    (h : scanner.run (.gap .value col) (c :: (l ++ '\n' :: rest)) = some (toks, m)) :
    isNs c = true ∧ isIndicator c = false ∧
      (isLead c = true → ∃ d ∈ l.head?, Quoted.isBlank d = false) ∧
      scanner.run (opened col c) (l ++ '\n' :: rest) = some (toks, m) := by
  rw [run_gap hspace hbreak hquote] at h
  split at h
  · rename_i hlead
    obtain ⟨hns, hindicator⟩ := isLead_isNs hlead
    cases l with
    | nil =>
      rw [List.nil_append, run_lead, if_pos (Or.inr rfl)] at h
      cases h
    | cons d l =>
      rw [List.cons_append, run_lead] at h
      split at h
      · cases h
      · rename_i hd
        refine ⟨hns, hindicator, fun _ => ⟨d, rfl, ?_⟩, h⟩
        rw [← Bool.not_eq_true]
        exact fun hblank => hd (Or.inl hblank)
  · rename_i hlead
    split at h
    · rename_i hplain
      exact ⟨hplain.1, hplain.2, fun hc => absurd hc hlead, h⟩
    · cases h

/-- **What the text behind a key can be.**  Its line is blank; or a quoted scalar begins in it; or there is a plain
scalar, and if that is the whole line, the line `isPlainScalar`. -/
theorem run_value {l : List Char} (hl : '\n' ∉ l) {col : Nat} {rest : List Char} {toks : List Token}
    {m : Mode} (h : scanner.run (.gap .value col) (l ++ '\n' :: rest) = some (toks, m)) :
    scanner.run start rest = some (toks, m) ∨
    (∃ spaces b, l = spaces ++ '"' :: b ∧
      scanner.run (.quoted (.text []) []) (b ++ '\n' :: rest) = some (toks, m)) ∨
    ∃ t toks', toks = .scalar t :: toks' ∧ scanner.run start rest = some (toks', m) ∧
      (t.length < l.length ∨ t = l ∧ isPlainScalar l = true) := by
  induction l generalizing col with
  | nil =>
    obtain ⟨out₁, m₁, out₂, hnext, hrun, rfl⟩ := run_cons_eq_some h
    cases hnext
    exact Or.inl hrun
  | cons c l ih =>
    obtain ⟨hc, hl'⟩ := List.ne_and_not_mem_of_not_mem_cons hl
    rw [List.cons_append] at h
    by_cases hspace : c = ' '
    · subst hspace
      obtain ⟨out₁, m₁, out₂, hnext, hrun, rfl⟩ := run_cons_eq_some h
      cases hnext
      rcases ih hl' hrun with hblank | ⟨spaces, b, rfl, hquoted⟩ | ⟨t, toks', htoks, hrest, hlength⟩
      · exact Or.inl hblank
      · exact Or.inr (Or.inl ⟨' ' :: spaces, b, rfl, hquoted⟩)
      · refine Or.inr (Or.inr ⟨t, toks', htoks, hrest, Or.inl ?_⟩)
        rw [List.length_cons]
        rcases hlength with hlt | ⟨rfl, -⟩
        · omega
        · omega
    · by_cases hquote : c = '"'
      · subst hquote
        obtain ⟨out₁, m₁, out₂, hnext, hrun, rfl⟩ := run_cons_eq_some h
        cases hnext
        exact Or.inr (Or.inl ⟨[], l, rfl, hrun⟩)
      · right
        right
        obtain ⟨hns, hindicator, hlead, hrun⟩ := run_gap_eq_some hspace (Ne.symm hc) hquote h
        obtain ⟨hbody, t, toks', htoks, hrest, hlength⟩ := run_opened_eq_some hns hl' hrun
        refine ⟨t, toks', htoks, hrest, hlength.imp_right ?_⟩
        rintro ⟨ht, hcloses⟩
        exact ⟨ht, isPlainScalar_cons.mpr ⟨hns, hindicator, hlead, hbody, hcloses⟩⟩

/-! ## 5. Quoted scalars -/

theorem run_quoted_of {q q' : Quoted.Mode} {u out : List Char}
    (h : Quoted.scanner.run q u = some (out, q')) (text : List Char) :
    scanner.run (.quoted q text) u = some ([], .quoted q' (text ++ out)) := by
  induction u generalizing q text out with
  | nil =>
    obtain ⟨rfl, rfl⟩ := Prod.mk.inj (Option.some.inj h)
    rw [List.append_nil]
    rfl
  | cons c u ih =>
    obtain ⟨out₁, q₁, out₂, hnext, hrun, rfl⟩ := run_cons_eq_some h
    have hnext' : scanner.next (.quoted q text) c = some ([], .quoted q₁ (text ++ out₁)) := by
      have hq : Quoted.next q c = some (out₁, q₁) := hnext
      rw [scanner_next, Block.next, hq]
    rw [run_cons_of_next hnext', ih hrun, List.append_assoc]
    rfl

/-- A mark closes the text where its value ends. -/
theorem next_quoted_of_finish {q : Quoted.Mode} {rest : List Char} (h : Quoted.finish q = some rest)
    (text : List Char) :
    scanner.next (.quoted q text) '"' = some ([.scalar (text ++ rest)], .closed) := by
  cases q with
  | text blanks =>
    cases h
    rfl
  | fold escaped extra cr =>
    cases h
    rfl
  | escape => cases h
  | hex left value => cases h

theorem run_of_decode {u v : List Char} (h : Quoted.decode u = some v) (rest : List Char) :
    scanner.run (.quoted (.text []) []) (u ++ '"' :: rest) =
      prepend [.scalar v] (scanner.run .closed rest) := by
  obtain ⟨out, q, tail, hrun, hfinish, rfl⟩ := Quoted.decode_eq_some.mp h
  rw [run_append_of _ _ (run_quoted_of hrun []), prepend_nil,
    run_cons_of_next (next_quoted_of_finish hfinish _)]
  rfl

theorem exists_quoted {q : Quoted.Mode} {text s : List Char} {toks : List Token}
    (h : scanner.run (.quoted q text) s = some (toks, start)) :
    ∃ u out q' tail rest toks', s = u ++ '"' :: rest ∧ Quoted.scanner.run q u = some (out, q') ∧
      Quoted.finish q' = some tail ∧ toks = .scalar (text ++ out ++ tail) :: toks' ∧
        scanner.run .closed rest = some (toks', start) := by
  induction s generalizing q text with
  | nil => cases h
  | cons c s ih =>
    obtain ⟨out₁, m₁, out₂, hnext, hrun, rfl⟩ := run_cons_eq_some h
    rw [scanner_next, Block.next] at hnext
    cases hq : Quoted.next q c with
    | some p =>
      obtain ⟨out, q₁⟩ := p
      rw [hq] at hnext
      cases hnext
      obtain ⟨u, out', q', tail, rest, toks', rfl, hrunq, hfinish, htoks, hrest⟩ := ih hrun
      refine ⟨c :: u, out ++ out', q', tail, rest, toks', rfl, ?_, hfinish, ?_, hrest⟩
      · rw [run_cons_of_next (T := Quoted.scanner) hq, hrunq]
        rfl
      · simpa using htoks
    | none =>
      rw [hq] at hnext
      dsimp only at hnext
      split at hnext
      · rename_i hc
        subst hc
        obtain ⟨tail, hfinish, heq⟩ := Option.map_eq_some_iff.mp hnext
        cases heq
        exact ⟨[], [], q, tail, s, out₂, rfl, rfl, hfinish, by simp, hrun⟩
      · cases hnext

/-- **What a quoted text can be**: its value is that of the text up to some mark. -/
theorem exists_decode {s : List Char} {toks : List Token}
    (h : scanner.run (.quoted (.text []) []) s = some (toks, start)) :
    ∃ u v rest toks', s = u ++ '"' :: rest ∧ Quoted.decode u = some v ∧ toks = .scalar v :: toks' ∧
      scanner.run .closed rest = some (toks', start) := by
  obtain ⟨u, out, q, tail, rest, toks', hs, hrun, hfinish, htoks, hrest⟩ := exists_quoted h
  exact ⟨u, out ++ tail, rest, toks', hs, Quoted.decode_eq_some.mpr ⟨out, q, tail, hrun, hfinish, rfl⟩,
    by simpa using htoks, hrest⟩

/-! ## 6. The first token of a line -/

/-- Nothing but blanks, or part of a key, is behind the scanner in its line. -/
def AtLine : Mode → Prop
  | .gap place _ => place = .line
  | .lead place _ _ => place = .line
  | .plain place _ _ _ _ => place = .line
  | .quoted _ _ => False
  | .closed => False

theorem next_atLine {m m' : Mode} {c : Char} {out : List Token} (hm : AtLine m)
    (h : Block.next m c = some (out, m')) :
    (out = [] ∧ AtLine m') ∨ (∃ col, out = [.dash col]) ∨ ∃ col text, out = [.key col text] := by
  have hplain : ∀ {col text blanks colon}, plainNext .line col text blanks colon c = some (out, m') →
      (out = [] ∧ AtLine m') ∨ (∃ col, out = [.dash col]) ∨ ∃ col text, out = [.key col text] := by
    intro col text blanks colon h
    unfold plainNext at h
    simp only [endKey, endScalar] at h
    repeat' split at h
    all_goals cases h
    all_goals first | exact Or.inl ⟨rfl, rfl⟩ | exact Or.inr (Or.inr ⟨_, _, rfl⟩)
  cases m with
  | gap place col =>
    obtain rfl : place = .line := hm
    rw [Block.next] at h
    rw [if_pos rfl] at h
    repeat' split at h
    all_goals cases h
    all_goals exact Or.inl ⟨rfl, rfl⟩
  | lead place col first =>
    obtain rfl : place = .line := hm
    rw [Block.next] at h
    split at h
    · split at h
      · cases h
        exact Or.inr (Or.inl ⟨_, rfl⟩)
      · cases h
    · split at h
      · cases h
      · split at h
        · exact hplain h
        · exact hplain h
  | plain place col text blanks colon =>
    obtain rfl : place = .line := hm
    exact hplain h
  | quoted q text => exact hm.elim
  | closed => exact hm.elim

/-- A line does not begin with a scalar. -/
theorem head_ne_scalar {m m' : Mode} (hm : AtLine m) {s : List Char} {tok : Token} {toks : List Token}
    (h : scanner.run m s = some (tok :: toks, m')) (t : List Char) : tok ≠ .scalar t := by
  induction s generalizing m with
  | nil => cases h
  | cons c s ih =>
    obtain ⟨out₁, m₁, out₂, hnext, hrun, heq⟩ := run_cons_eq_some h
    rcases next_atLine hm hnext with ⟨rfl, hm₁⟩ | ⟨col, rfl⟩ | ⟨col, text, rfl⟩
    · exact ih hm₁ (heq ▸ hrun)
    · rw [(List.cons.inj heq).1]
      nofun
    · rw [(List.cons.inj heq).1]
      nofun

/-! ## 7. A text behind a key -/

/-- What follows cannot be taken for the end of a quoted text: there is no mark in it, or the first one follows a
colon and a space. -/
def Apart (rest : List Char) : Prop :=
  '"' ∉ rest ∨ ∃ F rest', '"' ∉ F ∧ rest = F ++ [':', ' '] ++ '"' :: rest'

/-- A quoted scalar does not have itself as its value. -/
theorem not_decode_self {spaces b rest u rest' : List Char} (hrest : Apart rest)
    (hlast : (spaces ++ '"' :: b).getLast? ≠ some ' ')
    (heq : b ++ '\n' :: rest = u ++ '"' :: rest') :
    Quoted.decode u ≠ some (spaces ++ '"' :: b) := by
  intro h
  have hearly : ¬ ∃ x, b = u ++ '"' :: x := by
    rintro ⟨x, hb⟩
    have hlt := Quoted.weight_lt_of_closed h hb
    rw [total_append, total_cons] at hlt
    omega
  rcases hrest with hnone | ⟨F, rest₁, hF, rfl⟩
  · exact hearly (Quoted.exists_of_not_mem (by simpa using hnone) heq)
  · have heq' : b ++ (('\n' :: F) ++ [':', ' ']) ++ '"' :: rest₁ = u ++ '"' :: rest' := by
      rw [← heq]
      simp
    exact (Quoted.decode_open (by simpa using hF) h heq').elim hearly hlast

/-- **A text that is read back behind a key is a plain scalar**, if it does not end with a space and what follows is
apart. -/
theorem isPlainScalar_of_run {name rest : List Char} (hlast : name.getLast? ≠ some ' ') (hrest : Apart rest)
    {col : Nat} {toks : List Token}
    (h : scanner.run (.gap .value col) (name ++ '\n' :: rest) = some (.scalar name :: toks, start)) :
    isPlainScalar name = true := by
  -- the first line of what is read: all of the text, or less
  obtain ⟨l, tail, hl, hline, hname⟩ : ∃ l tail, '\n' ∉ l ∧ name ++ '\n' :: rest = l ++ '\n' :: tail ∧
      (name = l ∧ rest = tail ∨ ∃ x, name = l ++ '\n' :: x ∧ tail = x ++ '\n' :: rest) := by
    by_cases hmem : '\n' ∈ name
    · obtain ⟨l, x, rfl, hl⟩ := List.eq_append_cons_of_mem hmem
      exact ⟨l, x ++ '\n' :: rest, hl, by simp, Or.inr ⟨x, rfl, rfl⟩⟩
    · exact ⟨name, rest, hmem, rfl, Or.inl ⟨rfl, rfl⟩⟩
  have hlength : l.length ≤ name.length := by
    rcases hname with ⟨rfl, -⟩ | ⟨x, rfl, -⟩
    · exact le_refl _
    · simp
  rw [hline] at h
  rcases run_value hl h with hblank | ⟨spaces, b, rfl, hquoted⟩ | ⟨t, toks', htoks, -, hplain⟩
  · exact absurd rfl (head_ne_scalar (m := start) rfl hblank name)
  · exfalso
    obtain ⟨u, v, rest', toks', hs, hdecode, htoks, -⟩ := exists_decode hquoted
    obtain rfl : name = v := Token.scalar.inj (List.cons.inj htoks).1
    rcases hname with ⟨rfl, rfl⟩ | ⟨x, rfl, rfl⟩
    · exact not_decode_self hrest hlast hs hdecode
    · have hsplit : spaces ++ '"' :: b ++ '\n' :: x = spaces ++ '"' :: (b ++ '\n' :: x) := by simp
      have hs' : (b ++ '\n' :: x) ++ '\n' :: rest = u ++ '"' :: rest' := by
        rw [← hs]
        simp
      rw [hsplit] at hlast hdecode
      exact not_decode_self hrest hlast hs' hdecode
  · obtain rfl : name = t := Token.scalar.inj (List.cons.inj htoks).1
    rcases hplain with hlt | ⟨hl', hplain⟩
    · omega
    · rw [hl']
      exact hplain

end Block

/-! ## 8. The tree -/

/-- How to get from a collection to an entry. -/
inductive Step where
  | index (i : Nat)
  | field (key : List Char)
  deriving DecidableEq, Repr

/-- A node of a document. -/
inductive Node where
  | scalar (text : List Char)
  | sequence
  | mapping
  deriving DecidableEq, Repr

/-- An open collection: its column, and which entry is being read. -/
inductive Frame where
  | seq (col : Nat) (i : Nat)
  /-- Of a mapping, also the keys so far. -/
  | map (col : Nat) (key : List Char) (seen : List (List Char))
  deriving DecidableEq, Repr

namespace Frame

def col : Frame → Nat
  | .seq col _ => col
  | .map col _ _ => col

def step : Frame → Step
  | .seq _ i => .index i
  | .map _ key _ => .field key

/-- What belongs to the entry may begin so: further to the right, or, in a mapping, with a dash below the key. -/
def admits (f : Frame) : Token → Bool
  | .dash col => decide (f.col < col) || (match f with
    | .map c _ _ => c == col
    | .seq _ _ => false)
  | .key col _ => decide (f.col < col)
  | .scalar _ => true

/-- The collection ends in front of a key at this column. -/
def endsBefore (col : Nat) (f : Frame) : Bool := decide (col < f.col) || (match f with
  | .seq c _ => c == col
  | .map _ _ _ => false)

end Frame

namespace Tree

/-- The open collections, from the inside out, and whether the value of an entry is still to come. -/
structure State where
  stack : List Frame
  awaiting : Bool
  deriving DecidableEq, Repr

/-- Where a value would stand, from the outside in. -/
def path (stack : List Frame) : List Step := (stack.map Frame.step).reverse

/-- A value begins. -/
def fill (stack : List Frame) : Token → List (List Step × Node) × State
  | .dash col => ([(path stack, .sequence)], ⟨.seq col 0 :: stack, true⟩)
  | .key col key => ([(path stack, .mapping)], ⟨.map col key [key] :: stack, true⟩)
  | .scalar text => ([(path stack, .scalar text)], ⟨stack, false⟩)

/-- The next entry of an open collection begins. -/
def resume (stack : List Frame) : Token → Option State
  | .dash col =>
    match stack.dropWhile fun f => col < f.col with
    | .seq c i :: rest => if c = col then some ⟨.seq c (i + 1) :: rest, true⟩ else none
    | _ => none
  | .key col key =>
    match stack.dropWhile (Frame.endsBefore col) with
    | .map c _ seen :: rest =>
      if c = col ∧ key ∉ seen then some ⟨.map c key (key :: seen) :: rest, true⟩ else none
    | _ => none
  | .scalar _ => none

def next (s : State) (tok : Token) : Option (List (List Step × Node) × State) :=
  if s.awaiting then
    if s.stack.head?.all (·.admits tok) then some (fill s.stack tok) else none
  else (resume s.stack tok).map fun s => ([], s)

def reader : Transducer State Token (List Step × Node) := ⟨next⟩

/-- The token behind a key or a dash gives the place its node. -/
theorem next_awaiting {stack : List Frame} {tok : Token} {out : List (List Step × Node)} {s : State}
    (h : reader.next ⟨stack, true⟩ tok = some (out, s)) :
    ∃ node, out = [(path stack, node)] ∧ ∀ text, node = .scalar text → tok = .scalar text := by
  have hnext : (if stack.head?.all (·.admits tok) then some (fill stack tok) else none) = some (out, s) := h
  split at hnext
  · cases tok with
    | dash col =>
      cases hnext
      exact ⟨.sequence, rfl, nofun⟩
    | key col key =>
      cases hnext
      exact ⟨.mapping, rfl, nofun⟩
    | scalar text =>
      cases hnext
      refine ⟨.scalar text, rfl, ?_⟩
      rintro _ ⟨⟩
      rfl
  · cases hnext

end Tree

/-- The nodes of a document, or of an entry of a sequence. -/
def nodes (toks : List Token) : Option (List (List Step × Node)) :=
  match Tree.reader.run ⟨[], true⟩ toks with
  | some (out, s) => if s.awaiting then none else some out
  | none => none

theorem nodes_eq_some {toks : List Token} {doc : List (List Step × Node)} :
    nodes toks = some doc ↔ ∃ stack, Tree.reader.run ⟨[], true⟩ toks = some (doc, ⟨stack, false⟩) := by
  unfold nodes
  cases Tree.reader.run ⟨[], true⟩ toks with
  | none => simp
  | some p =>
    obtain ⟨out, stack, awaiting⟩ := p
    cases awaiting with
    | true => simp
    | false => simp

/-- The scalar at a place. -/
def scalarAt (doc : List (List Step × Node)) (path : List Step) : Option (List Char) :=
  match doc.lookup path with
  | some (.scalar text) => some text
  | _ => none

section Begins

variable {toks toks' : List Token} {doc out : List (List Step × Node)}

/-- What the first tokens of a document say, stays. -/
theorem lookup_of_run (h : nodes (toks ++ toks') = some doc) {s : Tree.State}
    (hrun : Tree.reader.run ⟨[], true⟩ toks = some (out, s)) {path : List Step} {node : Node}
    (hnode : out.lookup path = some node) : doc.lookup path = some node := by
  obtain ⟨stack, hall⟩ := nodes_eq_some.mp h
  rw [run_append_of _ _ hrun] at hall
  obtain ⟨out', -, rfl⟩ := prepend_eq_some.mp hall
  rw [List.lookup_append, hnode]
  rfl

/-- If the first tokens of a document end behind a key or a dash, and there is a scalar at that place, then it is the
next token. -/
theorem exists_scalar (h : nodes (toks ++ toks') = some doc) {stack : List Frame}
    (hrun : Tree.reader.run ⟨[], true⟩ toks = some (out, ⟨stack, true⟩))
    (hnone : out.lookup (Tree.path stack) = none) {text : List Char}
    (htext : scalarAt doc (Tree.path stack) = some text) : ∃ rest, toks' = .scalar text :: rest := by
  obtain ⟨stack', hall⟩ := nodes_eq_some.mp h
  rw [run_append_of _ _ hrun] at hall
  obtain ⟨out', hrest, rfl⟩ := prepend_eq_some.mp hall
  cases toks' with
  | nil => cases hrest
  | cons tok rest =>
    obtain ⟨out₁, s₁, out₂, hnext, -, rfl⟩ := run_cons_eq_some hrest
    obtain ⟨node, rfl, hnode⟩ := Tree.next_awaiting hnext
    rw [scalarAt, List.lookup_append, hnone, Option.none_or, List.cons_append, List.lookup_cons,
      beq_self_eq_true] at htext
    cases node with
    | scalar text' =>
      cases htext
      exact ⟨rest, by rw [hnode text rfl]⟩
    | sequence => cases htext
    | mapping => cases htext

end Begins

/-! ## 9. The entries of a sequence -/

/-- The token stands to the right of a column. -/
def Token.deeper (col : Nat) : Token → Bool
  | .dash c => decide (col < c)
  | .key c _ => decide (col < c)
  | .scalar _ => true

/-- The tokens in front of the first dash at a column, and the tokens behind each such dash. -/
def entries (col : Nat) : List Token → Option (List Token × List (List Token))
  | [] => some ([], [])
  | tok :: toks =>
    match entries col toks with
    | none => none
    | some (first, rest) =>
      if tok = .dash col then some ([], first :: rest)
      else if tok.deeper col then some (tok :: first, rest)
      else none

/-- The entries of a text that is a sequence, each with its nodes. -/
def readSequence (s : List Char) : Option (List (List (List Step × Node))) :=
  match tokens s with
  | some (.dash col :: toks) =>
    match entries col (.dash col :: toks) with
    | some ([], items) => items.mapM nodes
    | _ => none
  | _ => none

theorem Token.ne_dash_of_deeper {col : Nat} {tok : Token} (h : tok.deeper col = true) :
    tok ≠ .dash col := by
  rintro rfl
  simp [Token.deeper] at h

theorem entries_append {col : Nat} {toks : List Token} (h : toks.all (Token.deeper col) = true)
    (toks' : List Token) :
    entries col (toks ++ toks') = (entries col toks').map fun p => (toks ++ p.1, p.2) := by
  induction toks with
  | nil => simp
  | cons tok toks ih =>
    rw [List.all_cons, Bool.and_eq_true] at h
    rw [List.cons_append, entries, ih h.2]
    cases entries col toks' with
    | none => rfl
    | some p => simp [h.1, Token.ne_dash_of_deeper h.1]

/-- What is in front of the first dash begins as the whole does. -/
theorem exists_of_entries {col : Nat} {toks first : List Token} {items : List (List Token)} {tok : Token}
    (h : entries col toks = some (tok :: first, items)) : ∃ toks', toks = tok :: toks' := by
  cases toks with
  | nil => cases h
  | cons tok' toks =>
    rw [entries] at h
    split at h
    · cases h
    · split at h
      · cases h
      · split at h
        · cases h
          exact ⟨toks, rfl⟩
        · cases h

/-- The first entry of a sequence. -/
theorem entries_dash_append {col : Nat} {toks : List Token} (h : toks.all (Token.deeper col) = true)
    (toks' : List Token) : entries col (.dash col :: (toks ++ toks')) =
      (entries col toks').map fun p => ([], (toks ++ p.1) :: p.2) := by
  rw [entries, entries_append h]
  cases entries col toks' with
  | none => rfl
  | some p => simp

end Picoshift.Yaml
