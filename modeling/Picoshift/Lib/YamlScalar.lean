/-
# Double-quoted scalars

Between two quotation marks a YAML text means more than it says.  A backslash begins an ESCAPE, a line break is FOLDED,
together with the blanks around it, into one space or into fewer breaks, and characters below the space are not
allowed.  `Quoted.next` reads such a text character by character, by the rules of YAML 1.2; `decode` is the value of
a whole text, up to the mark that closes it.

What is read never gets more.  Counting line breaks and backslashes twice, the value weighs no more than the text
(`weight_decode`), and as much only if nothing was escaped, folded or dropped (`run_text`).  So a program that writes
a text between quotation marks as it is gets it back exactly when the text is CLEAN (`decode_of_clean`), and nothing
that follows the text can make up for it (`eq_of_decode`).
-/
import Picoshift.Lib.Transducer

namespace Picoshift.Yaml

open Transducer

namespace Quoted

/-! ## 1. The scanner -/

/-- Where the scanner is: in a line, after some blanks; behind a line break and blanks and breaks after it; behind a
backslash; or inside of a character's number. -/
inductive Mode where
  | text (blanks : List Char)
  /-- The first break was `escaped` or not, `extra` breaks have followed, and the last character was a carriage
  return or not. -/
  | fold (escaped : Bool) (extra : Nat) (cr : Bool)
  | escape
  /-- `left` digits are to come after the next one. -/
  | hex (left : Nat) (value : Nat)
  deriving DecidableEq, Repr

def isBlank (c : Char) : Bool := c == ' ' || c == '\t'

/-- What folded breaks come to. -/
def folded (escaped : Bool) (extra : Nat) : List Char :=
  if extra = 0 then (if escaped then [] else [' ']) else List.replicate extra '\n'

/-- The character that an escape of one letter means. -/
def escapeValue : Char → Option Char
  | '0' => some (Char.ofNat 0x00)
  | 'a' => some (Char.ofNat 0x07)
  | 'b' => some (Char.ofNat 0x08)
  | 't' => some '\t'
  | '\t' => some '\t'
  | 'n' => some '\n'
  | 'v' => some (Char.ofNat 0x0b)
  | 'f' => some (Char.ofNat 0x0c)
  | 'r' => some '\r'
  | 'e' => some (Char.ofNat 0x1b)
  | ' ' => some ' '
  | '"' => some '"'
  | '/' => some '/'
  | '\\' => some '\\'
  | 'N' => some (Char.ofNat 0x85)
  | '_' => some (Char.ofNat 0xa0)
  | 'L' => some (Char.ofNat 0x2028)
  | 'P' => some (Char.ofNat 0x2029)
  | _ => none

/-- The digits that follow an escape, but for the first one. -/
def hexLeft : Char → Option Nat
  | 'x' => some 1
  | 'u' => some 3
  | 'U' => some 7
  | _ => none

def hexDigit (c : Char) : Option Nat :=
  if '0' ≤ c ∧ c ≤ '9' then some (c.toNat - '0'.toNat)
  else if 'a' ≤ c ∧ c ≤ 'f' then some (c.toNat - 'a'.toNat + 10)
  else if 'A' ≤ c ∧ c ≤ 'F' then some (c.toNat - 'A'.toNat + 10)
  else none

/-- What a character makes the scanner write.  Blanks are kept back until it is known that the line goes on; a mark
that would close the text is left to the caller. -/
def next : Mode → Char → Option (List Char × Mode)
  | .text blanks, c =>
    if isBlank c then some ([], .text (blanks ++ [c]))
    else if c = '\n' then some ([], .fold false 0 false)
    else if c = '\r' then some ([], .fold false 0 true)
    else if c = '\\' then some (blanks, .escape)
    else if c = '"' ∨ c.toNat < 0x20 then none
    else some (blanks ++ [c], .text [])
  | .fold escaped extra cr, c =>
    if isBlank c then some ([], .fold escaped extra false)
    else if c = '\n' then some ([], .fold escaped (if cr then extra else extra + 1) false)
    else if c = '\r' then some ([], .fold escaped (extra + 1) true)
    else if c = '\\' then some (folded escaped extra, .escape)
    else if c = '"' ∨ c.toNat < 0x20 then none
    else some (folded escaped extra ++ [c], .text [])
  | .escape, c =>
    if c = '\n' then some ([], .fold true 0 false)
    else if c = '\r' then some ([], .fold true 0 true)
    else match hexLeft c with
      | some left => some ([], .hex left 0)
      | none => (escapeValue c).map fun v => ([v], .text [])
  | .hex left value, c =>
    (hexDigit c).bind fun d =>
      let value := value * 16 + d
      match left with
      | left + 1 => some ([], .hex left value)
      | 0 => if value.isValidChar then some ([Char.ofNat value], .text []) else none

def scanner : Transducer Mode Char Char := ⟨next⟩

/-- What is still to be written when the closing mark comes. -/
def finish : Mode → Option (List Char)
  | .text blanks => some blanks
  | .fold escaped extra _ => some (folded escaped extra)
  | .escape => none
  | .hex _ _ => none

/-- The value of the text between two marks. -/
def decode (u : List Char) : Option (List Char) :=
  match scanner.run (.text []) u with
  | none => none
  | some (out, m) => (finish m).map (out ++ ·)

theorem decode_eq_some {u v : List Char} : decode u = some v ↔ ∃ out m rest,
    scanner.run (.text []) u = some (out, m) ∧ finish m = some rest ∧ v = out ++ rest := by
  unfold decode
  cases scanner.run (.text []) u with
  | none => simp
  | some p =>
    obtain ⟨out, m⟩ := p
    cases hfinish : finish m with
    | none => simp [hfinish]
    | some rest => simp [hfinish, eq_comm]

/-! ## 2. Clean texts -/

/-- A character that means itself wherever it stands. -/
def clean (c : Char) : Bool := c != '"' && c != '\\' && (c == '\t' || decide (0x20 ≤ c.toNat))

theorem next_text_of_clean {c : Char} (h : clean c = true) (blanks : List Char) :
    next (.text blanks) c =
      if isBlank c then some ([], .text (blanks ++ [c])) else some (blanks ++ [c], .text []) := by
  simp only [clean, Bool.and_eq_true, bne_iff_ne, Bool.or_eq_true, beq_iff_eq, decide_eq_true_eq] at h
  obtain ⟨⟨hquote, hback⟩, htab⟩ := h
  rw [next]
  by_cases hblank : isBlank c = true
  · rw [if_pos hblank, if_pos hblank]
  · rw [if_neg hblank, if_neg hblank]
    have hc : 0x20 ≤ c.toNat := by
      refine htab.resolve_left ?_
      rintro rfl
      exact hblank rfl
    have hne : ∀ d : Char, d.toNat < 0x20 → c ≠ d := by
      rintro d hd rfl
      omega
    rw [if_neg (hne '\n' (by decide)), if_neg (hne '\r' (by decide)), if_neg hback,
      if_neg (by simp only [hquote, false_or]; omega)]

/-- A clean text is passed through. -/
theorem run_of_clean {s : List Char} (h : s.all clean = true) (blanks : List Char) :
    ∃ out blanks', scanner.run (.text blanks) s = some (out, .text blanks') ∧
      out ++ blanks' = blanks ++ s := by
  induction s generalizing blanks with
  | nil => exact ⟨[], blanks, rfl, (List.append_nil _).symm⟩
  | cons c s ih =>
    rw [List.all_cons, Bool.and_eq_true] at h
    have hnext := next_text_of_clean h.1 blanks
    by_cases hblank : isBlank c = true
    · rw [if_pos hblank] at hnext
      obtain ⟨out, blanks', hrun, heq⟩ := ih h.2 (blanks ++ [c])
      refine ⟨out, blanks', ?_, by rw [heq]; simp⟩
      rw [run_cons_of_next hnext, hrun]
      rfl
    · rw [if_neg hblank] at hnext
      obtain ⟨out, blanks', hrun, heq⟩ := ih h.2 []
      refine ⟨blanks ++ [c] ++ out, blanks', ?_, ?_⟩
      · rw [run_cons_of_next hnext, hrun]
        rfl
      · rw [List.append_assoc, heq]
        simp

theorem decode_of_clean {s : List Char} (h : s.all clean = true) : decode s = some s := by
  obtain ⟨out, blanks, hrun, heq⟩ := run_of_clean h []
  rw [decode_eq_some]
  exact ⟨out, _, blanks, hrun, rfl, heq.symm⟩

/-! ## 3. The value weighs no more than the text -/

/-- Breaks and backslashes count twice. -/
def weight (c : Char) : Nat := if c = '\n' ∨ c = '\r' ∨ c = '\\' then 2 else 1

theorem weight_break {c : Char} (h : c = '\n' ∨ c = '\r' ∨ c = '\\') : weight c = 2 := if_pos h

theorem weight_pos (c : Char) : 1 ≤ weight c := by
  unfold weight
  split <;> omega

theorem weight_le (c : Char) : weight c ≤ 2 := by
  unfold weight
  split <;> omega

/-- What a mode has not written yet. -/
def owed : Mode → Nat
  | .text blanks => total weight blanks
  | .fold escaped extra _ => total weight (folded escaped extra)
  | .escape => 1
  | .hex _ _ => 1

theorem total_folded (escaped : Bool) (extra : Nat) : total weight (folded escaped extra) =
    if extra = 0 then (if escaped then 0 else 1) else 2 * extra := by
  have hbreaks : ∀ n, total weight (List.replicate n '\n') = 2 * n := by
    intro n
    induction n with
    | zero => rfl
    | succ n ih =>
      rw [List.replicate_succ, total_cons, ih, weight_break (Or.inl rfl)]
      omega
  unfold folded
  split
  · cases escaped <;> rfl
  · exact hbreaks extra

theorem total_folded_succ_le (escaped : Bool) (extra : Nat) :
    total weight (folded escaped (extra + 1)) ≤ total weight (folded escaped extra) + 2 := by
  rw [total_folded, total_folded, if_neg (Nat.succ_ne_zero extra)]
  split
  · omega
  · omega

/-- What one character in a line comes to. -/
theorem next_text_le {blanks : List Char} {c : Char} {out : List Char} {m : Mode}
    (h : next (.text blanks) c = some (out, m)) :
    (clean c = true ∧ next (.text blanks) c =
      if isBlank c then some ([], .text (blanks ++ [c])) else some (blanks ++ [c], .text [])) ∨
    total weight out + owed m < total weight blanks + weight c := by
  by_cases hclean : clean c = true
  · exact Or.inl ⟨hclean, next_text_of_clean hclean blanks⟩
  · right
    rw [next] at h
    split at h
    · rename_i hblank
      refine absurd ?_ hclean
      rcases Bool.or_eq_true_iff.mp hblank with hc | hc
      · rw [beq_iff_eq.mp hc]
        decide
      · rw [beq_iff_eq.mp hc]
        decide
    · split at h
      · rename_i hc
        cases h
        rw [weight_break (Or.inl hc)]
        simp [owed, folded, weight]
      · split at h
        · rename_i hc
          cases h
          rw [weight_break (Or.inr (Or.inl hc))]
          simp [owed, folded, weight]
        · split at h
          · rename_i hc
            cases h
            rw [weight_break (Or.inr (Or.inr hc))]
            simp [owed]
          · rename_i hback
            split at h
            · cases h
            · rename_i hc
              refine absurd ?_ hclean
              rw [not_or, Nat.not_lt] at hc
              simp [clean, hc.1, hback, hc.2]

theorem next_fold_le {escaped cr : Bool} {extra : Nat} {c : Char} {out : List Char} {m : Mode}
    (h : next (.fold escaped extra cr) c = some (out, m)) :
    total weight out + owed m ≤ total weight (folded escaped extra) + weight c := by
  rw [next] at h
  split at h
  · cases h
    simp [owed]
  · split at h
    · rename_i hc
      cases h
      rw [weight_break (Or.inl hc), owed, total_nil, Nat.zero_add]
      split
      · omega
      · exact total_folded_succ_le escaped extra
    · split at h
      · rename_i hc
        cases h
        rw [weight_break (Or.inr (Or.inl hc)), owed, total_nil, Nat.zero_add]
        exact total_folded_succ_le escaped extra
      · have hpos := weight_pos c
        split at h
        · cases h
          rw [owed]
          omega
        · split at h
          · cases h
          · cases h
            simp [owed]

/-- A backslash pays for what is escaped. -/
theorem next_escape_le {c : Char} {out : List Char} {m : Mode} (h : next .escape c = some (out, m)) :
    total weight out + owed m ≤ 1 + weight c := by
  have hpos := weight_pos c
  rw [next] at h
  split at h
  · cases h
    simp [owed, folded]
  · split at h
    · cases h
      simp [owed, folded]
    · split at h
      · cases h
        simp [owed]
      · obtain ⟨v, -, heq⟩ := Option.map_eq_some_iff.mp h
        cases heq
        have hv := weight_le v
        simp only [owed, total_cons, total_nil]
        omega

theorem next_hex_le {left value : Nat} {c : Char} {out : List Char} {m : Mode}
    (h : next (.hex left value) c = some (out, m)) : total weight out + owed m ≤ 1 + weight c := by
  have hpos := weight_pos c
  rw [next] at h
  obtain ⟨d, -, hd⟩ := Option.bind_eq_some_iff.mp h
  cases left with
  | succ left =>
    cases hd
    simp [owed]
  | zero =>
    dsimp only at hd
    split at hd
    · cases hd
      have hv := weight_le (Char.ofNat (value * 16 + d))
      simp only [owed, total_cons, total_nil]
      omega
    · cases hd

/-- **No character makes up for more than itself.** -/
theorem next_le (m : Mode) (c : Char) (out : List Char) (m' : Mode)
    (h : next m c = some (out, m')) : total weight out + owed m' ≤ owed m + weight c := by
  cases m with
  | text blanks =>
    rcases next_text_le h with ⟨-, hnext⟩ | hlt
    · rw [hnext] at h
      split at h
      · cases h
        simp [owed]
      · cases h
        simp [owed]
    · exact Nat.le_of_lt hlt
  | fold escaped extra cr => exact next_fold_le h
  | escape => exact next_escape_le h
  | hex left value => exact next_hex_le h

theorem run_weight {m m' : Mode} {s out : List Char} (h : scanner.run m s = some (out, m')) :
    total weight out + owed m' ≤ owed m + total weight s :=
  run_le next_le h

theorem weight_finish {m : Mode} {rest : List Char} (h : finish m = some rest) :
    total weight rest = owed m := by
  cases m with
  | text blanks =>
    cases h
    rfl
  | fold escaped extra cr =>
    cases h
    rfl
  | escape => cases h
  | hex left value => cases h

theorem weight_decode {u v : List Char} (h : decode u = some v) :
    total weight v ≤ total weight u := by
  obtain ⟨out, m, rest, hrun, hfinish, rfl⟩ := decode_eq_some.mp h
  have hle := run_weight hrun
  rw [total_append, weight_finish hfinish]
  simpa [owed] using hle

/-- A text that is not clean loses something. -/
theorem run_text {blanks s out : List Char} {m : Mode}
    (h : scanner.run (.text blanks) s = some (out, m)) :
    s.all clean = true ∨ total weight out + owed m < total weight blanks + total weight s := by
  induction s generalizing blanks out with
  | nil => exact Or.inl rfl
  | cons c s ih =>
    obtain ⟨out₁, m₁, out₂, hnext, hrun, rfl⟩ := run_cons_eq_some h
    rw [List.all_cons, Bool.and_eq_true, total_append, total_cons]
    have hrest := run_weight hrun
    rcases next_text_le hnext with ⟨hclean, heq⟩ | hlt
    · have hnext' := hnext.symm.trans heq
      split at hnext'
      · cases hnext'
        refine (ih hrun).imp (fun hs => ⟨hclean, hs⟩) fun hlt => ?_
        rw [total_append, total_cons, total_nil] at hlt
        rw [total_nil]
        omega
      · cases hnext'
        refine (ih hrun).imp (fun hs => ⟨hclean, hs⟩) fun hlt => ?_
        rw [total_append, total_cons, total_nil]
        rw [total_nil] at hlt
        omega
    · exact Or.inr (by omega)

theorem clean_of_decode {s : List Char} (h : decode s = some s) : s.all clean = true := by
  obtain ⟨out, m, rest, hrun, hfinish, heq⟩ := decode_eq_some.mp h
  refine (run_text hrun).resolve_right ?_
  have hweight : total weight s = total weight out + total weight rest := by
    rw [← total_append, ← heq]
  rw [weight_finish hfinish] at hweight
  rw [total_nil]
  omega

/-! ## 4. What follows the text -/

/-- A mark that does not close the text was escaped. -/
theorem next_quote {m m' : Mode} {out : List Char} (h : next m '"' = some (out, m')) :
    m = .escape ∧ out = ['"'] := by
  cases m with
  | text blanks => exact absurd h (by simp [next, isBlank])
  | fold escaped extra cr => exact absurd h (by simp [next, isBlank])
  | escape =>
    cases h
    exact ⟨rfl, rfl⟩
  | hex left value => exact absurd h (by simp [next, hexDigit])

/-- Its place in the value is in front of its place in the text. -/
theorem decode_append_quote {u₁ u₂ v : List Char} (h : decode (u₁ ++ '"' :: u₂) = some v) :
    ∃ v₁ v₂, v = v₁ ++ '"' :: v₂ ∧ total weight v₁ < total weight u₁ := by
  obtain ⟨out, m, rest, hrun, -, rfl⟩ := decode_eq_some.mp h
  obtain ⟨out₁, m₁, out₂, hrun₁, hrun₂, rfl⟩ := run_append_eq_some hrun
  obtain ⟨out₃, m₃, out₄, hnext, -, rfl⟩ := run_cons_eq_some hrun₂
  obtain ⟨rfl, rfl⟩ := next_quote hnext
  refine ⟨out₁, out₄ ++ rest, by simp, ?_⟩
  have hle := run_weight hrun₁
  simp only [owed, total_nil] at hle
  omega

/-- **What is read back is what was written, and no more.**  When a text is written between two marks as it is, and
what is read from the first one on has the text as its value, then the text is clean, and it was read up to the
second one. -/
theorem eq_of_decode {s u rest rest' : List Char} (h : decode u = some s)
    (heq : s ++ '"' :: rest = u ++ '"' :: rest') : u = s ∧ s.all clean = true := by
  rcases List.append_eq_append_iff.mp heq with ⟨x, rfl, hx⟩ | ⟨x, rfl, hx⟩
  · cases x with
    | nil =>
      rw [List.append_nil] at h
      exact ⟨List.append_nil s, clean_of_decode h⟩
    | cons c x =>
      -- the second mark was escaped, so the value has a mark where the text has none
      obtain rfl : '"' = c := (List.cons.inj hx).1
      exfalso
      by_cases hmem : '"' ∈ s
      · obtain ⟨s₁, s₂, hs, hs₁⟩ := List.eq_append_cons_of_mem hmem
        have h' := h
        rw [hs, List.append_assoc, List.cons_append, ← hs] at h'
        obtain ⟨v₁, v₂, hv, hlt⟩ := decode_append_quote h'
        rcases List.append_eq_append_iff.mp (hs.symm.trans hv) with ⟨y, rfl, -⟩ | ⟨y, rfl, hy⟩
        · rw [total_append] at hlt
          omega
        · cases y with
          | nil => exact absurd hlt (by simp)
          | cons d y =>
            obtain rfl : '"' = d := (List.cons.inj hy).1
            exact hs₁ (by simp)
      · obtain ⟨v₁, v₂, rfl, -⟩ := decode_append_quote h
        exact hmem (by simp)
  · -- the text was closed too early
    cases x with
    | nil =>
      rw [List.append_nil] at h ⊢
      exact ⟨rfl, clean_of_decode h⟩
    | cons c x =>
      have hle := weight_decode h
      rw [total_append, total_cons] at hle
      have hpos := weight_pos c
      omega

/-- A colon and a space leave no doubt. -/
theorem run_colon_space {m m' : Mode} {u out : List Char}
    (h : scanner.run m (u ++ [':', ' ']) = some (out, m')) : m' = .text [' '] := by
  obtain ⟨out₁, m₁, out₂, -, hrun, rfl⟩ := run_append_eq_some h
  obtain ⟨out₃, m₃, out₄, hcolon, hrun', rfl⟩ := run_cons_eq_some hrun
  have hm₃ : m₃ = .text [] := by
    cases m₁ with
    | text blanks =>
      cases hcolon
      rfl
    | fold escaped extra cr =>
      cases hcolon
      rfl
    | escape => cases hcolon
    | hex left value => cases hcolon
  subst hm₃
  cases hrun'
  rfl

/-- A mark that is not in the second part is in the first one. -/
theorem exists_of_not_mem {b F u rest : List Char} (hF : '"' ∉ F) (heq : b ++ F = u ++ '"' :: rest) :
    ∃ x, b = u ++ '"' :: x := by
  rcases List.append_eq_append_iff.mp heq with ⟨x, -, rfl⟩ | ⟨x, rfl, hx⟩
  · exact absurd (by simp) hF
  · cases x with
    | nil =>
      obtain rfl : '"' :: rest = F := hx
      exact absurd List.mem_cons_self hF
    | cons c x =>
      obtain rfl : '"' = c := (List.cons.inj hx).1
      exact ⟨x, rfl⟩

/-- A text that is open at its end goes on to the next mark.  If a colon and a space are in front of that, the text
closes there, and its value ends with the space. -/
theorem decode_open {b F rest u rest' v : List Char} (hF : '"' ∉ F) (h : decode u = some v)
    (heq : b ++ (F ++ [':', ' ']) ++ '"' :: rest = u ++ '"' :: rest') :
    (∃ x, b = u ++ '"' :: x) ∨ v.getLast? = some ' ' := by
  have hends : u = b ++ (F ++ [':', ' ']) → v.getLast? = some ' ' := by
    rintro rfl
    obtain ⟨out, m, tail, hrun, hfinish, rfl⟩ := decode_eq_some.mp h
    rw [← List.append_assoc] at hrun
    rw [run_colon_space hrun] at hfinish
    cases hfinish
    simp
  rcases List.append_eq_append_iff.mp heq with ⟨x, hu, hx⟩ | ⟨x, hu, hx⟩
  · cases x with
    | nil => exact Or.inr (hends (hu.trans (List.append_nil _)))
    | cons c x =>
      -- the mark was passed, but it is not escaped
      obtain rfl : '"' = c := (List.cons.inj hx).1
      obtain ⟨out, m, tail, hrun, -, -⟩ := decode_eq_some.mp h
      rw [hu] at hrun
      obtain ⟨out₁, m₁, out₂, hrun₁, hrun₂, -⟩ := run_append_eq_some hrun
      rw [← List.append_assoc] at hrun₁
      obtain ⟨out₃, m₃, out₄, hnext, -, -⟩ := run_cons_eq_some hrun₂
      rw [run_colon_space hrun₁] at hnext
      cases hnext
  · cases x with
    | nil => exact Or.inr (hends ((List.append_nil _).symm.trans hu.symm))
    | cons c x =>
      obtain rfl : '"' = c := (List.cons.inj hx).1
      exact Or.inl (exists_of_not_mem (by simp [hF]) hu)

theorem weight_lt_of_closed {b u x v : List Char} (h : decode u = some v) (hb : b = u ++ '"' :: x) :
    total weight v < total weight b := by
  have hle := weight_decode h
  have hpos := weight_pos '"'
  rw [hb, total_append, total_cons]
  omega

end Quoted

end Picoshift.Yaml
