/-
# Fields, cut sets and JSON text, as Go has them

`strings.FieldsFunc` cuts a text into its fields, the longest runs without a separator; `strings.Trim`
takes the characters of a cut set from both ends; `json.Marshal` writes an array of texts on one line.

A program that takes such an array apart by its fields and trims the quotes and brackets away sees the same
as if it did so with every text on its own (`cleanFields_marshal`): the brackets at the ends are trimmed with
the quotes, and the commas between the texts separate.
-/
import Mathlib.Data.List.DropRight
import Picoshift.Lib.JsonText

namespace Picoshift

namespace Go

/-! ## 1. Fields -/

section Fields

variable (sep : Char → Bool)

/-- `strings.FieldsFunc`; `acc` is the field that is being read. -/
def fieldsGo (acc : List Char) : List Char → List (List Char)
  | [] => if acc = [] then [] else [acc]
  | x :: xs =>
    if sep x then (if acc = [] then fieldsGo [] xs else acc :: fieldsGo [] xs)
    else fieldsGo (acc ++ [x]) xs

/-- `strings.FieldsFunc(s, sep)`. -/
def fieldsFunc (l : List Char) : List (List Char) := fieldsGo sep [] l

variable {sep}

/-- A separator separates. -/
theorem fieldsGo_append_cons {x : Char} (hx : sep x = true) (acc a b : List Char) :
    fieldsGo sep acc (a ++ x :: b) = fieldsGo sep acc a ++ fieldsFunc sep b := by
  induction a generalizing acc with
  | nil =>
    simp only [List.nil_append, fieldsGo, hx, if_true, fieldsFunc]
    split <;> rfl
  | cons y a ih =>
    rw [List.cons_append, fieldsGo, fieldsGo, ih, ih]
    split
    · split
      · rfl
      · rfl
    · rfl

/-- A field stands in the text. -/
theorem infix_of_mem_fieldsGo {acc l f : List Char} (h : f ∈ fieldsGo sep acc l) : f <:+: acc ++ l := by
  induction l generalizing acc with
  | nil =>
    rw [fieldsGo] at h
    split at h
    · cases h
    · rw [List.mem_singleton] at h
      rw [h, List.append_nil]
  | cons x l ih =>
    rw [fieldsGo] at h
    have hrest : f ∈ fieldsGo sep [] l → f <:+: acc ++ x :: l := by
      intro hmem
      refine (ih hmem).trans ⟨acc ++ [x], [], ?_⟩
      simp
    split at h
    · split at h
      · exact hrest h
      · rcases List.mem_cons.mp h with rfl | h
        · exact ⟨[], x :: l, rfl⟩
        · exact hrest h
    · have hfield := ih h
      rwa [List.append_assoc, List.singleton_append] at hfield

end Fields

/-! ## 2. Trimming -/

section Trim

variable (cut : Char → Bool)

/-- `strings.Trim(s, cutset)`. -/
def trim (l : List Char) : List Char := (l.dropWhile cut).rdropWhile cut

variable {cut}

theorem trim_cons {c : Char} (hc : cut c = true) (l : List Char) : trim cut (c :: l) = trim cut l := by
  rw [trim, List.dropWhile_cons_of_pos hc, trim]

theorem trim_concat {c : Char} (hc : cut c = true) (l : List Char) :
    trim cut (l ++ [c]) = trim cut l := by
  rw [trim, trim, List.dropWhile_append]
  split
  · rename_i hempty
    rw [List.isEmpty_iff.mp hempty, List.dropWhile_cons_of_pos hc]
    rfl
  · rw [List.rdropWhile_concat_pos _ _ _ hc]

theorem trim_infix (l : List Char) : trim cut l <:+: l :=
  (List.rdropWhile_prefix cut _).isInfix.trans (List.dropWhile_suffix cut).isInfix

end Trim

/-! ## 3. Trimmed fields -/

section Clean

variable (sep cut : Char → Bool)

def cleanFields (l : List Char) : List (List Char) := (fieldsFunc sep l).map (trim cut)

variable {sep cut} {c d : Char}

theorem cleanFields_append_cons {x : Char} (hx : sep x = true) (a b : List Char) :
    cleanFields sep cut (a ++ x :: b) = cleanFields sep cut a ++ cleanFields sep cut b := by
  rw [cleanFields, fieldsFunc, fieldsGo_append_cons hx, List.map_append]
  rfl

/-- A character of the cut set in front of a field is not seen. -/
theorem cleanFields_cons (hcut : cut c = true) (hc : sep c = false) (hd : sep d = false) (l : List Char) :
    cleanFields sep cut (c :: d :: l) = cleanFields sep cut (d :: l) := by
  have hgo : ∀ acc : List Char, acc ≠ [] →
      (fieldsGo sep (c :: acc) l).map (trim cut) = (fieldsGo sep acc l).map (trim cut) := by
    induction l with
    | nil =>
      intro acc hacc
      rw [fieldsGo, fieldsGo, if_neg (List.cons_ne_nil c acc), if_neg hacc, List.map_singleton,
        List.map_singleton, trim_cons hcut]
    | cons x l ih =>
      intro acc hacc
      rw [fieldsGo, fieldsGo, if_neg (List.cons_ne_nil c acc), if_neg hacc]
      split
      · rw [List.map_cons, List.map_cons, trim_cons hcut]
      · exact ih (acc ++ [x]) (by simp)
  have hfirst := hgo [d] (List.cons_ne_nil d [])
  simpa only [cleanFields, fieldsFunc, fieldsGo, hc, hd, Bool.false_eq_true, if_false, List.nil_append,
    List.singleton_append] using hfirst

/-- Nor is one behind a field. -/
theorem cleanFields_concat (hcut : cut c = true) (hc : sep c = false) (hd : sep d = false) (l : List Char) :
    cleanFields sep cut (l ++ [d, c]) = cleanFields sep cut (l ++ [d]) := by
  have hgo : ∀ acc : List Char,
      (fieldsGo sep acc (l ++ [d, c])).map (trim cut) = (fieldsGo sep acc (l ++ [d])).map (trim cut) := by
    induction l with
    | nil =>
      intro acc
      have hfield := trim_concat hcut (acc ++ [d])
      simpa [fieldsGo, hc, hd] using hfield
    | cons x l ih =>
      intro acc
      rw [List.cons_append, List.cons_append, fieldsGo, fieldsGo]
      split
      · split
        · exact ih []
        · rw [List.map_cons, List.map_cons, ih []]
      · exact ih (acc ++ [x])
  exact hgo []

end Clean

/-! ## 4. JSON text -/

/-- What `json.Marshal` writes for a character of a text.  It escapes for HTML too. -/
def escapeChar (c : Char) : List Char :=
  if c = '"' then ['\\', '"']
  else if c = '\\' then ['\\', '\\']
  else if c = '\n' then ['\\', 'n']
  else if c = '\r' then ['\\', 'r']
  else if c = '\t' then ['\\', 't']
  else if c.toNat = 8 then ['\\', 'b']
  else if c.toNat = 12 then ['\\', 'f']
  else if c.toNat < 0x20 ∨ c = '<' ∨ c = '>' ∨ c = '&' ∨ c.toNat = 0x2028 ∨ c.toNat = 0x2029 then
    ['\\', 'u', Json.hexDigit (c.toNat / 4096 % 16), Json.hexDigit (c.toNat / 256 % 16),
      Json.hexDigit (c.toNat / 16 % 16), Json.hexDigit (c.toNat % 16)]
  else [c]

/-- A text in quotes. -/
def quote (s : String) : List Char := '"' :: (s.toList.flatMap escapeChar ++ ['"'])

/-- `json.Marshal` of an array of texts. -/
def marshal (ss : List String) : List Char := '[' :: (List.intercalate [','] (ss.map quote) ++ [']'])

section Marshal

variable {sep cut : Char → Bool}

theorem cleanFields_intercalate (hcomma : sep ',' = true) (ls : List (List Char)) :
    cleanFields sep cut (List.intercalate [','] ls) = ls.flatMap (cleanFields sep cut) := by
  induction ls with
  | nil => rfl
  | cons l ls ih =>
    cases ls with
    | nil => simp [List.intercalate]
    | cons l' ls =>
      have hjoin : List.intercalate [','] (l :: l' :: ls) = l ++ ',' :: List.intercalate [','] (l' :: ls) := by
        simp [List.intercalate]
      rw [hjoin, cleanFields_append_cons hcomma, ih]
      exact List.flatMap_cons.symm

/-- The texts joined with commas begin and end with a quote. -/
theorem exists_intercalate_quote {ss : List String} (h : ss ≠ []) :
    (∃ l, List.intercalate [','] (ss.map quote) = '"' :: l) ∧
      ∃ l, List.intercalate [','] (ss.map quote) = l ++ ['"'] := by
  induction ss with
  | nil => exact absurd rfl h
  | cons s ss ih =>
    cases ss with
    | nil => exact ⟨⟨s.toList.flatMap escapeChar ++ ['"'], by simp [List.intercalate, quote]⟩,
        '"' :: s.toList.flatMap escapeChar, by simp [List.intercalate, quote]⟩
    | cons s' ss =>
      have hjoin : List.intercalate [','] ((s :: s' :: ss).map quote) =
          quote s ++ ',' :: List.intercalate [','] ((s' :: ss).map quote) := by
        simp [List.intercalate]
      obtain ⟨-, l, hl⟩ := ih (List.cons_ne_nil _ _)
      rw [hjoin]
      refine ⟨⟨_, rfl⟩, quote s ++ ',' :: l, ?_⟩
      rw [hl, List.append_assoc, List.cons_append]

/-- **Every text is taken apart on its own.** -/
theorem cleanFields_marshal (hcomma : sep ',' = true) (hquote : sep '"' = false)
    (hopen : sep '[' = false ∧ cut '[' = true) (hclose : sep ']' = false ∧ cut ']' = true)
    {ss : List String} (h : ss ≠ []) :
    cleanFields sep cut (marshal ss) = ss.flatMap fun s => cleanFields sep cut (quote s) := by
  obtain ⟨⟨l, hl⟩, l', hl'⟩ := exists_intercalate_quote h
  calc cleanFields sep cut (marshal ss)
      = cleanFields sep cut ('[' :: '"' :: (l ++ [']'])) := by rw [marshal, hl, List.cons_append]
    _ = cleanFields sep cut ('"' :: (l ++ [']'])) := cleanFields_cons hopen.2 hopen.1 hquote _
    _ = cleanFields sep cut (l' ++ ['"', ']']) := by
        rw [← List.cons_append, ← hl, hl', List.append_assoc, List.singleton_append]
    _ = cleanFields sep cut (l' ++ ['"']) := cleanFields_concat hclose.2 hclose.1 hquote _
    _ = ss.flatMap fun s => cleanFields sep cut (quote s) := by
        rw [← hl', cleanFields_intercalate hcomma, List.flatMap_map]

end Marshal

end Go

end Picoshift
