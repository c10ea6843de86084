/-
# Literal block scalars

A YAML scanner reads a scalar that is introduced by `|` line by line.  How far the block is indented
is found out from its first line that is not blank, and from blank lines in front of it that are
longer; a tab in place of indentation is an error.  From then on every line that is indented at
least so far belongs to the scalar, without its indentation; blank lines do in any case.  The first
other line ends it.  With clip chomping blank lines at the end do not count.

A line here is what stands between two line breaks.  YAML knows more breaks than the line feed
(`isBreak`); texts that hold the others inside their lines are not read by this module.

The indentation that a whole block has in common does not matter (`readBlock_indent`), so a block
that was written by indenting lines carries the lines' own text (`carried`).
-/
import Mathlib.Data.List.DropRight
import Mathlib.Data.List.TakeWhile
import Mathlib.Order.Lattice
import Picoshift.Lib.Lines

namespace Picoshift.Yaml

abbrev Line := List Char

/-! ## 1. Lines -/

/-- The line breaks other than the line feed. -/
def isBreak (c : Char) : Bool :=
  c == '\r' || c.toNat == 0x85 || c.toNat == 0x2028 || c.toNat == 0x2029

/-- The characters a YAML stream may hold. -/
def printable (c : Char) : Bool :=
  let n := c.toNat
  n == 0x09 || n == 0x0a || n == 0x0d || (0x20 ≤ n && n ≤ 0x7e) || n == 0x85 ||
    (0xa0 ≤ n && n ≤ 0xd7ff) || (0xe000 ≤ n && n ≤ 0xfffd) || (0x10000 ≤ n && n ≤ 0x10ffff)

/-- How far a line is indented. -/
def spaces (l : Line) : Nat := (l.takeWhile (· == ' ')).length

/-- There is nothing but indentation. -/
def blank (l : Line) : Bool := l.all (· == ' ')

/-- What follows the indentation. -/
def lead (l : Line) : Option Char := (l.dropWhile (· == ' ')).head?

/-- Nothing but a comment. -/
def comment (l : Line) : Bool := lead l == some '#'

/-! ## 2. The scanner -/

/-- How far the block is indented; `m` is what the blank lines so far were. -/
def detect (m : Nat) : List Line → Nat
  | [] => m
  | l :: ls => if blank l then detect (max m l.length) ls else max m (spaces l)

/-- The first line that is not blank has a tab in its indentation. -/
def startsWithTab : List Line → Bool
  | [] => false
  | l :: ls => if blank l then startsWithTab ls else lead l == some '\t'

/-- The line belongs to a block that is indented by `k`. -/
def inside (k : Nat) (l : Line) : Bool := blank l || decide (k ≤ spaces l)

/-- A literal scalar inside a mapping that is indented by `parent`: its lines, and the lines that
follow it. -/
def scanLiteral (parent : Nat) (ls : List Line) : Option (List Line × List Line) :=
  let k := max (detect 0 ls) (parent + 1)
  let rest := ls.dropWhile (inside k)
  if startsWithTab ls || (rest.head?.bind lead) == some '\t' then none
  else some ((ls.takeWhile (inside k)).map (·.drop k), rest)

/-- Clip chomping: the text of the scalar. -/
def clip (ls : List Line) : List Char := Str.unlinesL (ls.rdropWhile (·.isEmpty))

/-- The last value of a document, when it is a literal scalar: nothing but blank lines and comments
may follow. -/
def readBlock (parent : Nat) (ls : List Line) : Option (List Char) :=
  match scanLiteral parent ls with
  | none => none
  | some (content, rest) =>
    if rest.all fun l => blank l || comment l then some (clip content) else none

/-! ## 3. Common indentation -/

/-- The line with `b` more spaces. -/
def indent (b : Nat) (l : Line) : Line := List.replicate b ' ' ++ l

/-- What the lines of a block have of indentation of their own. -/
def margin (ls : List Line) : Nat := detect 0 ls

/-- The lines that a block carries, and those behind its end. -/
def carried (ls : List Line) : List Line :=
  (ls.takeWhile (inside (margin ls))).map (·.drop (margin ls))

def leftOver (ls : List Line) : List Line := ls.dropWhile (inside (margin ls))

/-- The scanner gets to the end of the block. -/
def wellFormed (ls : List Line) : Bool :=
  !startsWithTab ls && (leftOver ls).all fun l => blank l || comment l

section Indent

variable (b : Nat) (l : Line)

@[simp] theorem spaces_indent : spaces (indent b l) = b + spaces l := by
  induction b with
  | zero => simp [indent]
  | succ b ih =>
    rw [indent] at ih
    rw [spaces, indent, List.replicate_succ, List.cons_append, List.takeWhile_cons_of_pos (by rfl),
      List.length_cons, ← spaces, ih]
    omega

@[simp] theorem lead_indent : lead (indent b l) = lead l := by
  induction b with
  | zero => simp [indent]
  | succ b ih =>
    rw [indent] at ih
    rw [lead, indent, List.replicate_succ, List.cons_append, List.dropWhile_cons_of_pos (by rfl),
      ← lead, ih]

@[simp] theorem blank_indent : blank (indent b l) = blank l := by
  simp [blank, indent]

@[simp] theorem comment_indent : comment (indent b l) = comment l := by
  rw [comment, lead_indent]
  rfl

@[simp] theorem length_indent : (indent b l).length = b + l.length := by
  simp [indent]

theorem drop_indent (k : Nat) : (indent b l).drop (b + k) = l.drop k := by
  rw [indent, ← List.drop_drop, List.drop_left' (by simp)]

@[simp] theorem inside_indent (k : Nat) : inside (b + k) (indent b l) = inside k l := by
  simp [inside]

theorem detect_indent (m : Nat) (ls : List Line) :
    detect (b + m) (ls.map (indent b)) = b + detect m ls := by
  induction ls generalizing m with
  | nil => rfl
  | cons l ls ih =>
    rw [List.map_cons, detect, detect, blank_indent, length_indent, spaces_indent,
      Nat.add_max_add_left, Nat.add_max_add_left]
    split
    · exact ih _
    · rfl

theorem startsWithTab_indent (ls : List Line) :
    startsWithTab (ls.map (indent b)) = startsWithTab ls := by
  induction ls with
  | nil => rfl
  | cons l ls ih => rw [List.map_cons, startsWithTab, startsWithTab, blank_indent, lead_indent, ih]

end Indent

theorem detect_indent_zero (b : Nat) {ls : List Line} (h : ls ≠ []) :
    detect 0 (ls.map (indent b)) = b + margin ls := by
  cases ls with
  | nil => exact absurd rfl h
  | cons l ls =>
    rw [margin, List.map_cons, detect, detect, blank_indent, length_indent, spaces_indent,
      Nat.zero_max, Nat.zero_max, Nat.zero_max, Nat.zero_max, detect_indent]
    split <;> rfl

theorem takeWhile_inside_indent (b k : Nat) (ls : List Line) :
    (ls.map (indent b)).takeWhile (inside (b + k)) = (ls.takeWhile (inside k)).map (indent b) := by
  rw [List.takeWhile_map]
  congr 2
  funext l
  exact inside_indent b l k

theorem dropWhile_inside_indent (b k : Nat) (ls : List Line) :
    (ls.map (indent b)).dropWhile (inside (b + k)) = (ls.dropWhile (inside k)).map (indent b) := by
  rw [List.dropWhile_map]
  congr 2
  funext l
  exact inside_indent b l k

/-- A blank line or a comment has no tab in its indentation. -/
theorem lead_ne_tab {l : Line} (h : (blank l || comment l) = true) : lead l ≠ some '\t' := by
  intro hlead
  rcases Bool.or_eq_true_iff.mp h with hblank | hcomment
  · have hnil : l.dropWhile (· == ' ') = [] := by
      rw [List.dropWhile_eq_nil_iff]
      exact List.all_eq_true.mp hblank
    rw [lead, hnil] at hlead
    cases hlead
  · rw [comment, hlead] at hcomment
    exact absurd hcomment (by decide)

theorem scanLiteral_indent {parent b : Nat} (hb : parent < b) {ls : List Line} (h : ls ≠ []) :
    scanLiteral parent (ls.map (indent b)) =
      if startsWithTab ls || ((leftOver ls).head?.bind lead) == some '\t' then none
      else some (carried ls, (leftOver ls).map (indent b)) := by
  have hk : max (detect 0 (ls.map (indent b))) (parent + 1) = b + margin ls := by
    rw [detect_indent_zero b h]
    omega
  have hcontent : ((ls.takeWhile (inside (margin ls))).map (indent b)).map
      (·.drop (b + margin ls)) = carried ls := by
    rw [List.map_map]
    exact List.map_congr_left fun l _ => drop_indent b l (margin ls)
  have hhead : ((leftOver ls).map (indent b)).head?.bind lead = (leftOver ls).head?.bind lead := by
    cases leftOver ls with
    | nil => rfl
    | cons l rest => exact lead_indent b l
  rw [scanLiteral, hk, takeWhile_inside_indent, dropWhile_inside_indent, hcontent,
    startsWithTab_indent, ← leftOver, hhead]

/-- **A block that was written by indenting lines.**  It is read exactly when the lines are well
formed, and then it holds the lines they carry. -/
theorem readBlock_indent {parent b : Nat} (hb : parent < b) {ls : List Line} (h : ls ≠ []) :
    readBlock parent (ls.map (indent b)) =
      if wellFormed ls then some (clip (carried ls)) else none := by
  have hrest : ((leftOver ls).map (indent b)).all (fun l => blank l || comment l) =
      (leftOver ls).all fun l => blank l || comment l := by
    rw [List.all_map]
    congr 1
    funext l
    simp
  rw [readBlock, scanLiteral_indent hb h, wellFormed]
  cases htab : startsWithTab ls with
  | true => rfl
  | false =>
    cases hall : (leftOver ls).all fun l => blank l || comment l with
    | true =>
      have hlead : (leftOver ls).head?.bind lead ≠ some '\t' := by
        cases hleft : leftOver ls with
        | nil => exact nofun
        | cons l rest =>
          rw [hleft, List.all_cons, Bool.and_eq_true] at hall
          exact lead_ne_tab hall.1
      rw [Bool.false_or, if_neg (by simpa using hlead)]
      dsimp only
      rw [hrest, hall]
      rfl
    | false =>
      split
      · rfl
      · rename_i heq
        split at heq
        · cases heq
        · cases heq
          rw [hrest, hall]
          rfl

/-! ## 4. What a block carries -/

/-- A carried line is a line without the margin. -/
theorem exists_of_mem_carried {ls : List Line} {l : Line} (h : l ∈ carried ls) :
    ∃ l' ∈ ls, l = l'.drop (margin ls) ∧ inside (margin ls) l' = true := by
  obtain ⟨l', hl', rfl⟩ := List.mem_map.mp h
  exact ⟨l', (List.takeWhile_sublist _).subset hl', rfl, List.mem_takeWhile_imp hl'⟩

/-- Of a well-formed block every line is carried that is neither blank nor a comment. -/
theorem mem_carried {ls : List Line} (h : wellFormed ls = true) {l : Line} (hl : l ∈ ls)
    (hblank : blank l = false) (hcomment : comment l = false) :
    margin ls ≤ spaces l ∧ l.drop (margin ls) ∈ carried ls := by
  rw [wellFormed, Bool.and_eq_true, List.all_eq_true] at h
  rw [← List.takeWhile_append_dropWhile (p := inside (margin ls)) (l := ls), List.mem_append] at hl
  rcases hl with hl | hl
  · have hinside := List.mem_takeWhile_imp hl
    rw [inside, hblank, Bool.false_or, decide_eq_true_eq] at hinside
    exact ⟨hinside, List.mem_map_of_mem hl⟩
  · have hrest := h.2 l hl
    rw [hblank, hcomment] at hrest
    cases hrest

/-- Dropping indentation and putting it back. -/
theorem eq_replicate_append_drop {k : Nat} {l : Line} (h : k ≤ spaces l) :
    l = List.replicate k ' ' ++ l.drop k := by
  induction k generalizing l with
  | zero => rfl
  | succ k ih =>
    cases l with
    | nil => exact absurd h (by simp [spaces])
    | cons c l =>
      by_cases hc : c = ' '
      · subst hc
        rw [spaces, List.takeWhile_cons_of_pos (by rfl), List.length_cons] at h
        rw [List.replicate_succ, List.drop_succ_cons, List.cons_append, ← ih (by rw [spaces]; omega)]
      · exact absurd h (by simp [spaces, hc])

/-- Chomping takes away empty lines only. -/
theorem mem_rdropWhile_isEmpty {ls : List Line} {l : Line} (hl : l ≠ []) :
    l ∈ ls.rdropWhile (·.isEmpty) ↔ l ∈ ls := by
  have hmem : l ∈ ls ↔ l ∈ ls.rdropWhile (·.isEmpty) ∨ l ∈ ls.rtakeWhile (·.isEmpty) := by
    rw [← List.mem_append, List.rdropWhile_append_rtakeWhile]
  rw [hmem, or_iff_left]
  intro htake
  exact hl (List.isEmpty_iff.mp (List.mem_rtakeWhile_imp htake))

/-- The lines of the text of a scalar are its lines, but for empty ones. -/
theorem mem_splitL_clip {ls : List Line} (hls : ∀ l ∈ ls, '\n' ∉ l) {l : Line} (hl : l ≠ []) :
    l ∈ Str.splitL '\n' (clip ls) ↔ l ∈ ls := by
  have hclip : ∀ l ∈ ls.rdropWhile (·.isEmpty), '\n' ∉ l := by
    intro l hmem
    by_cases hnil : l = []
    · rw [hnil]
      exact List.not_mem_nil
    · exact hls l ((mem_rdropWhile_isEmpty hnil).mp hmem)
  rw [clip, Str.splitL_unlinesL hclip, List.mem_append, List.mem_singleton, or_iff_left hl,
    mem_rdropWhile_isEmpty hl]

/-! ## 5. Documents with other line breaks -/

/-- The lines of a document: YAML breaks them in more places than at its line feeds. -/
def breakLines (doc : List Char) : List Line := (Str.linesL doc).flatMap (List.splitOnP isBreak)

/-- Only what is in front of the first break is indented. -/
theorem splitOnP_indent (b : Nat) (l : Line) :
    (indent b l).splitOnP isBreak = (l.splitOnP isBreak).modifyHead (indent b) := by
  induction b with
  | zero => cases h : l.splitOnP isBreak <;> simp [indent, h]
  | succ b ih =>
    have hspace : isBreak ' ' = false := by decide
    rw [indent] at ih
    rw [indent, List.replicate_succ, List.cons_append, List.splitOnP_cons_eq_if_modifyHead, hspace,
      if_neg Bool.false_ne_true, ih]
    cases l.splitOnP isBreak <;> rfl

/-- The block of a scalar can go to the last line.  The first line that is not blank has no tab in its
indentation; it is indented as far as the blank lines in front of it are long, which is `m` so far; and the
lines that follow are indented as far as it is. -/
def aligned (m : Nat) : List Line → Bool
  | [] => true
  | l :: ls => if blank l then aligned (max m l.length) ls
    else lead l != some '\t' && decide (m ≤ spaces l) && ls.all (inside (spaces l))

theorem le_detect (m : Nat) (ls : List Line) : m ≤ detect m ls := by
  induction ls generalizing m with
  | nil => exact Nat.le_refl m
  | cons l ls ih =>
    rw [detect]
    split
    · exact (Nat.le_max_left _ _).trans (ih _)
    · exact Nat.le_max_left _ _

theorem aligned_iff (m : Nat) (ls : List Line) :
    aligned m ls = true ↔ startsWithTab ls = false ∧ ∀ l ∈ ls, inside (detect m ls) l = true := by
  induction ls generalizing m with
  | nil => simp [aligned, startsWithTab]
  | cons l ls ih =>
    rw [aligned, startsWithTab, detect, List.forall_mem_cons]
    cases hblank : blank l with
    | true =>
      have hin : ∀ k, inside k l = true := fun k => by rw [inside, hblank, Bool.true_or]
      simp only [if_true, ih, hin, true_and]
    | false =>
      have hin : inside (max m (spaces l)) l = true ↔ m ≤ spaces l := by
        simp [inside, hblank]
      rw [if_neg Bool.false_ne_true, if_neg Bool.false_ne_true, if_neg Bool.false_ne_true, hin,
        Bool.and_eq_true, Bool.and_eq_true, List.all_eq_true, decide_eq_true_iff, bne_iff_ne, and_assoc,
        beq_eq_false_iff_ne]
      refine and_congr_right fun _ => and_congr_right fun hm => ?_
      rw [Nat.max_eq_right hm]

/-- A scalar that is indented further than its parent is read to the last line exactly when the lines are
aligned. -/
theorem scanLiteral_eq_nil_iff {parent : Nat} {ls : List Line} (h : parent < detect 0 ls) :
    (∃ content, scanLiteral parent ls = some (content, [])) ↔ aligned 0 ls = true := by
  have hall : ls.dropWhile (inside (detect 0 ls)) = [] ↔ ∀ l ∈ ls, inside (detect 0 ls) l = true :=
    List.dropWhile_eq_nil_iff
  rw [scanLiteral, Nat.max_eq_left h, aligned_iff, ← hall]
  cases startsWithTab ls with
  | true => simp
  | false =>
    constructor
    · rintro ⟨content, hscan⟩
      split at hscan
      · cases hscan
      · exact ⟨rfl, (Prod.mk.inj (Option.some.inj hscan)).2⟩
    · rintro ⟨-, hnil⟩
      exact ⟨_, by rw [hnil]; rfl⟩

/-- Lines that begin with no indentation of their own are aligned when they are indented. -/
theorem aligned_indent {m b : Nat} (hm : m ≤ b) {ls : List Line}
    (h : ∀ l ∈ ls, l.head? ≠ some ' ' ∧ l.head? ≠ some '\t') : aligned m (ls.map (indent b)) = true := by
  have hinside : ∀ l, inside b (indent b l) = true := fun l => by simp [inside]
  induction ls generalizing m with
  | nil => rfl
  | cons l ls ih =>
    rw [List.forall_mem_cons] at h
    cases l with
    | nil =>
      have hblank : blank [] = true := rfl
      rw [List.map_cons, aligned, blank_indent, length_indent, if_pos hblank]
      exact ih (Nat.max_le.mpr ⟨hm, Nat.le_refl b⟩) h.2
    | cons c l =>
      have hc : (c == ' ') = false := by simpa using h.1.1
      have hblank : blank (c :: l) = false := by rw [blank, List.all_cons, hc, Bool.false_and]
      have hspaces : spaces (c :: l) = 0 := by rw [spaces, List.takeWhile_cons_of_neg (by simp [hc])]; rfl
      have hlead : lead (c :: l) = some c := by rw [lead, List.dropWhile_cons_of_neg (by simp [hc])]; rfl
      rw [List.map_cons, aligned, blank_indent, hblank, if_neg Bool.false_ne_true, lead_indent, hlead,
        spaces_indent, hspaces]
      simpa [hm, hinside] using h.1.2

/-! ## 6. A block in the middle of a document -/

/-- The line with `b` more spaces, unless it is empty. -/
def pad (b : Nat) (l : Line) : Line := if l = [] then [] else indent b l

end Picoshift.Yaml
