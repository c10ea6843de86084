/-
# Lines and the white space around them

Programs that edit a text by lines seldom agree on what a line is: one splits at line feeds, another
drops a final carriage return, a third trims the text as a whole or every field of a line.  What they
agree on is the line UP TO WHITE SPACE AT ITS ENDS.

`Padded l m` says that `l` is `m` with white space around it.  Trimming does not see padding
(`Padded.trimL`), and trimming a whole text changes its lines by padding only
(`exists_line_of_trimL`, `exists_line_trimL`).
-/
import Mathlib.Data.List.DropRight
import Picoshift.Lib.Str

namespace Picoshift

namespace Str

/-- There is only white space. -/
def Blank (l : List Char) : Prop := ∀ c ∈ l, isWhitespace c = true

/-- The first text is the second one with white space around it. -/
def Padded (l m : List Char) : Prop := ∃ w w', Blank w ∧ Blank w' ∧ l = w ++ m ++ w'

/-! ## 1. Trimming -/

theorem blank_nil : Blank [] := nofun

theorem Blank.append {a b : List Char} (ha : Blank a) (hb : Blank b) : Blank (a ++ b) :=
  fun c hc => (List.mem_append.mp hc).elim (ha c) (hb c)

theorem Blank.reverse {a : List Char} (ha : Blank a) : Blank a.reverse :=
  fun c hc => ha c (List.mem_reverse.mp hc)

theorem Blank.not_mem {a : List Char} (ha : Blank a) {c : Char} (hc : isWhitespace c = false) :
    c ∉ a := by
  intro hmem
  rw [ha c hmem] at hc
  cases hc

theorem Padded.refl (l : List Char) : Padded l l := ⟨[], [], blank_nil, blank_nil, by simp⟩

theorem Padded.trans {a b c : List Char} (h : Padded a b) (h' : Padded b c) : Padded a c := by
  obtain ⟨w, w', hw, hw', rfl⟩ := h
  obtain ⟨x, x', hx, hx', rfl⟩ := h'
  exact ⟨w ++ x, x' ++ w', hw.append hx, hx'.append hw', by simp⟩

theorem dropWhile_blank_append {w : List Char} (hw : Blank w) (l : List Char) :
    (w ++ l).dropWhile isWhitespace = l.dropWhile isWhitespace := by
  induction w with
  | nil => rfl
  | cons c w ih =>
    rw [List.cons_append, List.dropWhile_cons_of_pos (hw c List.mem_cons_self),
      ih fun c hc => hw c (List.mem_cons_of_mem _ hc)]

/-- The white space that `dropWhile` drops. -/
theorem exists_blank_append_dropWhile (l : List Char) :
    ∃ w, Blank w ∧ l = w ++ l.dropWhile isWhitespace :=
  ⟨l.takeWhile isWhitespace, fun _ hc => List.mem_takeWhile_imp hc,
    (List.takeWhile_append_dropWhile ..).symm⟩

theorem padded_trimL (l : List Char) : Padded l (trimL l) := by
  obtain ⟨w, hw, hl⟩ := exists_blank_append_dropWhile l
  obtain ⟨w', hw', hl'⟩ := exists_blank_append_dropWhile (l.dropWhile isWhitespace).reverse
  refine ⟨w, w'.reverse, hw, hw'.reverse, ?_⟩
  have hrev := congrArg List.reverse hl'
  rw [List.reverse_reverse, List.reverse_append] at hrev
  rw [trimL, List.append_assoc, ← hrev]
  exact hl

/-- Trimming does not see white space at the ends. -/
theorem Padded.trimL {l m : List Char} (h : Padded l m) : Str.trimL l = Str.trimL m := by
  obtain ⟨w, w', hw, hw', rfl⟩ := h
  have hback : Str.trimL (m ++ w') = Str.trimL m := by
    rw [Str.trimL, Str.trimL, List.dropWhile_append]
    split
    · rename_i hempty
      rw [List.isEmpty_iff.mp hempty, List.dropWhile_eq_nil_iff.mpr hw']
    · rw [List.reverse_append, dropWhile_blank_append hw'.reverse]
  rw [← hback, List.append_assoc, Str.trimL, Str.trimL, dropWhile_blank_append hw]

@[simp] theorem trimL_trimL (l : List Char) : trimL (trimL l) = trimL l := (padded_trimL l).trimL.symm

/-- A text that neither begins nor ends with white space is left alone. -/
theorem trimL_eq_self {l : List Char} (hhead : ∀ c, l.head? = some c → isWhitespace c = false)
    (hlast : ∀ c, l.getLast? = some c → isWhitespace c = false) : trimL l = l := by
  have hdrop : ∀ m : List Char, (∀ c, m.head? = some c → isWhitespace c = false) →
      m.dropWhile isWhitespace = m := by
    intro m hm
    cases m with
    | nil => rfl
    | cons c m => rw [List.dropWhile_cons_of_neg (by rw [hm c rfl]; decide)]
  rw [trimL, hdrop l hhead, hdrop l.reverse (by rwa [List.head?_reverse]), List.reverse_reverse]

theorem mem_of_mem_trimL {l : List Char} {c : Char} (h : c ∈ trimL l) : c ∈ l := by
  obtain ⟨w, w', -, -, hl⟩ := padded_trimL l
  rw [hl]
  simp [h]

theorem length_trimL_le (l : List Char) : (trimL l).length ≤ l.length := by
  obtain ⟨w, w', -, -, hl⟩ := padded_trimL l
  have hlength := congrArg List.length hl
  simp only [List.length_append] at hlength
  omega

/-- There is nothing around a text that is trimmed. -/
theorem Padded.eq_of_trimL {l m : List Char} (h : Padded l m) (htrim : Str.trimL l = l) : m = l := by
  have hshort := length_trimL_le m
  rw [← h.trimL, htrim] at hshort
  obtain ⟨w, w', -, -, rfl⟩ := h
  simp only [List.length_append] at hshort
  obtain rfl : w = [] := List.eq_nil_of_length_eq_zero (by omega)
  obtain rfl : w' = [] := List.eq_nil_of_length_eq_zero (by omega)
  simp

/-- Two texts that are trimmed, with something between them. -/
theorem trimL_append_cons {a b : List Char} (ha : trimL a = a) (hb : trimL b = b) {c : Char}
    (hc : isWhitespace c = false) : trimL (a ++ c :: b) = a ++ c :: b := by
  refine trimL_eq_self (fun x hx => ?_) (fun x hx => ?_)
  · cases a with
    | nil => exact Option.some.inj hx ▸ hc
    | cons y a =>
      obtain rfl : y = x := Option.some.inj hx
      by_contra hspace
      have hpad : Padded (y :: a) a := ⟨[y], [], by simpa [Blank] using hspace, blank_nil, by simp⟩
      exact absurd (hpad.eq_of_trimL ha) (by simp)
  · cases b using List.reverseRecOn with
    | nil =>
      rw [List.getLast?_concat] at hx
      exact Option.some.inj hx ▸ hc
    | append_singleton b y =>
      rw [← List.cons_append, ← List.append_assoc, List.getLast?_concat] at hx
      obtain rfl : y = x := Option.some.inj hx
      by_contra hspace
      have hpad : Padded (b ++ [y]) b := ⟨[], [y], blank_nil, by simpa [Blank] using hspace, by simp⟩
      exact absurd (hpad.eq_of_trimL hb) (by simp)

/-- What is not white space stays in front. -/
theorem head?_trimL {l : List Char} {c : Char} (h : l.head? = some c)
    (hc : isWhitespace c = false) : (trimL l).head? = some c := by
  obtain ⟨w, w', hw, hw', hl⟩ := padded_trimL l
  cases w with
  | cons x w =>
    rw [hl] at h
    have hx : x = c := Option.some.inj h
    rw [hx] at hw
    exact absurd List.mem_cons_self (hw.not_mem hc)
  | nil =>
    cases htrim : trimL l with
    | nil =>
      rw [htrim] at hl
      rw [hl] at h
      exact absurd (List.mem_of_mem_head? h) (hw'.not_mem hc)
    | cons x rest =>
      rw [htrim] at hl
      rw [hl] at h
      exact h

/-- A carriage return at the end is white space. -/
theorem padded_stripCr (l : List Char) : Padded l (stripCr l) := by
  rw [stripCr]
  split
  · rename_i hlast
    refine ⟨[], ['\r'], blank_nil, by simp [Blank, isWhitespace], ?_⟩
    rw [List.nil_append]
    exact (List.dropLast_append_getLast? _ hlast).symm
  · exact Padded.refl l

/-! ## 2. Splitting -/

section Split

variable {α : Type} [DecidableEq α]

theorem splitL_ne_nil (c : α) (l : List α) : splitL c l ≠ [] := by
  induction l with
  | nil => exact List.cons_ne_nil _ _
  | cons x l ih =>
    rw [splitL]
    split
    · exact List.cons_ne_nil _ _
    · split <;> exact List.cons_ne_nil _ _

/-- No piece holds the separator. -/
theorem not_mem_of_mem_splitL {c : α} {l a : List α} (h : a ∈ splitL c l) : c ∉ a := by
  induction l generalizing a with
  | nil =>
    rw [splitL, List.mem_singleton] at h
    rw [h]
    exact List.not_mem_nil
  | cons x l ih =>
    rw [splitL] at h
    split at h
    · rcases List.mem_cons.mp h with rfl | h
      · exact List.not_mem_nil
      · exact ih h
    · rename_i hx
      split at h
      · rename_i hnil
        exact absurd hnil (splitL_ne_nil c l)
      · rename_i y ys hsplit
        rcases List.mem_cons.mp h with rfl | h
        · intro hmem
          rcases List.mem_cons.mp hmem with rfl | hmem
          · exact hx rfl
          · exact ih (hsplit ▸ List.mem_cons_self) hmem
        · exact ih (hsplit ▸ List.mem_cons_of_mem _ h)

/-- The pieces stand in the text, the first one at its beginning. -/
theorem infix_of_mem_splitL {c : α} {l a : List α} (h : a ∈ splitL c l) : a <:+: l := by
  have hall : ∀ l : List α, ∀ y ys, splitL c l = y :: ys → y <+: l ∧ ∀ a ∈ ys, a <:+: l := by
    intro l
    induction l with
    | nil =>
      intro y ys h
      rw [splitL, List.cons.injEq] at h
      obtain ⟨rfl, rfl⟩ := h
      exact ⟨List.prefix_rfl, fun a ha => absurd ha List.not_mem_nil⟩
    | cons x l ih =>
      intro y ys h
      obtain ⟨z, zs, hsplit⟩ := List.exists_cons_of_ne_nil (splitL_ne_nil c l)
      obtain ⟨hz, hzs⟩ := ih z zs hsplit
      have hcons : l <:+: x :: l := (List.suffix_cons x l).isInfix
      rw [splitL, hsplit] at h
      split at h
      · rw [List.cons.injEq] at h
        obtain ⟨rfl, rfl⟩ := h
        refine ⟨List.nil_prefix, fun a ha => ?_⟩
        rcases List.mem_cons.mp ha with rfl | ha
        · exact hz.isInfix.trans hcons
        · exact (hzs a ha).trans hcons
      · rw [List.cons.injEq] at h
        obtain ⟨rfl, rfl⟩ := h
        exact ⟨List.prefix_cons_inj x |>.mpr hz, fun a ha => (hzs a ha).trans hcons⟩
  obtain ⟨y, ys, hsplit⟩ := List.exists_cons_of_ne_nil (splitL_ne_nil c l)
  obtain ⟨hy, hys⟩ := hall l y ys hsplit
  rw [hsplit] at h
  rcases List.mem_cons.mp h with rfl | h
  · exact hy.isInfix
  · exact hys a h

/-- Splitting at the first separator of a text. -/
theorem splitOnceL_eq_some {c : α} {l a b : List α} :
    splitOnceL c l = some (a, b) ↔ c ∉ a ∧ l = a ++ c :: b := by
  constructor
  · intro h
    induction l generalizing a with
    | nil => cases h
    | cons x l ih =>
      rw [splitOnceL] at h
      split at h
      · rename_i hx
        cases h
        exact ⟨List.not_mem_nil, by rw [hx]; rfl⟩
      · rename_i hx
        obtain ⟨⟨a', b'⟩, hrest, heq⟩ := Option.map_eq_some_iff.mp h
        cases heq
        obtain ⟨hmem, rfl⟩ := ih hrest
        refine ⟨?_, rfl⟩
        rintro (_ | ⟨_, hmem'⟩)
        · exact hx rfl
        · exact hmem hmem'
  · rintro ⟨h, rfl⟩
    exact splitOnceL_append h b

/-- A separator separates, wherever it stands. -/
theorem splitL_append_cons (c : α) (a b : List α) :
    splitL c (a ++ c :: b) = splitL c a ++ splitL c b := by
  induction a with
  | nil => simp [splitL]
  | cons x a ih =>
    rw [List.cons_append, splitL, splitL, ih]
    split
    · rfl
    · cases hsplit : splitL c a with
      | nil => exact absurd hsplit (splitL_ne_nil c a)
      | cons y ys => rfl

/-- Joining with separators and splitting again splits every part. -/
theorem splitL_intercalate {c : α} {ls : List (List α)} (h : ls ≠ []) :
    splitL c (List.intercalate [c] ls) = ls.flatMap (splitL c) := by
  induction ls with
  | nil => exact absurd rfl h
  | cons l ls ih =>
    cases ls with
    | nil => simp [List.intercalate]
    | cons l' ls =>
      rw [List.flatMap_cons, ← ih (List.cons_ne_nil _ _), ← splitL_append_cons]
      simp [List.intercalate]

/-- Parts without the separator, joined with it and some text behind it: the parts come back, with the text in
front of all but the first. -/
theorem splitL_intercalate_cons {c : α} {t a : List α} {as : List (List α)} (ht : c ∉ t)
    (h : ∀ x ∈ a :: as, c ∉ x) :
    splitL c (List.intercalate (c :: t) (a :: as)) = a :: as.map (t ++ ·) := by
  induction as generalizing a with
  | nil =>
    rw [List.intercalate_singleton]
    exact splitL_of_not_mem (h a List.mem_cons_self)
  | cons b bs ih =>
    rw [List.forall_mem_cons, List.forall_mem_cons] at h
    have hjoin : List.intercalate (c :: t) (a :: b :: bs) =
        a ++ c :: List.intercalate (c :: t) ((t ++ b) :: bs) := by
      cases bs <;> simp [List.intercalate]
    have hparts : ∀ x ∈ (t ++ b) :: bs, c ∉ x := by
      rw [List.forall_mem_cons, List.mem_append, not_or]
      exact ⟨⟨ht, h.2.1⟩, h.2.2⟩
    rw [hjoin, splitL_append h.1, ih hparts, List.map_cons]

/-- Read backwards, the pieces come backwards. -/
theorem splitL_reverse (c : α) (l : List α) :
    splitL c l.reverse = ((splitL c l).map List.reverse).reverse := by
  induction hn : l.length using Nat.strong_induction_on generalizing l with
  | h n ih =>
    by_cases hc : c ∈ l
    · obtain ⟨a, b, rfl⟩ := List.append_of_mem hc
      have ha := ih a.length (by simp at hn; omega) a rfl
      have hb := ih b.length (by simp at hn; omega) b rfl
      rw [List.reverse_append, List.reverse_cons, List.append_assoc, List.singleton_append,
        splitL_append_cons, splitL_append_cons, ha, hb, List.map_append, List.reverse_append]
    · rw [splitL_of_not_mem hc, splitL_of_not_mem (mt List.mem_reverse.mp hc)]
      rfl

/-- A piece of a longer text is a piece of the text, empty, or one with the new character. -/
theorem mem_splitL_cons {c x : α} {l a : List α} (h : a ∈ splitL c (x :: l)) :
    a = [] ∨ a ∈ splitL c l ∨ ∃ b ∈ splitL c l, a = x :: b := by
  rw [splitL] at h
  split at h
  · exact (List.mem_cons.mp h).imp_right Or.inl
  · split at h
    · rename_i hnil
      exact absurd hnil (splitL_ne_nil c l)
    · rename_i y ys hsplit
      rw [hsplit]
      rcases List.mem_cons.mp h with rfl | h
      · exact Or.inr (Or.inr ⟨y, List.mem_cons_self, rfl⟩)
      · exact Or.inr (Or.inl (List.mem_cons_of_mem _ h))

/-- And every piece of the text is one of the longer text, or one with the new character is. -/
theorem mem_splitL_cons_of_mem {c x : α} {l a : List α} (h : a ∈ splitL c l) :
    a ∈ splitL c (x :: l) ∨ x :: a ∈ splitL c (x :: l) := by
  rw [splitL]
  split
  · exact Or.inl (List.mem_cons_of_mem _ h)
  · split
    · rename_i hnil
      exact absurd hnil (splitL_ne_nil c l)
    · rename_i y ys hsplit
      rw [hsplit] at h
      rcases List.mem_cons.mp h with rfl | h
      · exact Or.inr List.mem_cons_self
      · exact Or.inl (List.mem_cons_of_mem _ h)

end Split

/-! ## 3. The lines of a trimmed text -/

/-- White space in front of a text adds blank lines, and white space in front of the first line. -/
theorem mem_splitL_blank_append {w t a : List Char} (hw : Blank w) {c : Char}
    (h : a ∈ splitL c (w ++ t)) :
    Blank a ∨ ∃ b ∈ splitL c t, ∃ x, Blank x ∧ a = x ++ b := by
  induction w generalizing a with
  | nil => exact Or.inr ⟨a, h, [], blank_nil, rfl⟩
  | cons y w ih =>
    have hrest : Blank w := fun z hz => hw z (List.mem_cons_of_mem _ hz)
    have hfirst : Blank [y] := fun z hz => hw z (List.mem_singleton.mp hz ▸ List.mem_cons_self)
    rcases mem_splitL_cons h with rfl | hmem | ⟨b, hb, rfl⟩
    · exact Or.inl blank_nil
    · exact ih hrest hmem
    · rcases ih hrest hb with hblank | ⟨b', hb', x, hx, rfl⟩
      · exact Or.inl (hfirst.append hblank)
      · exact Or.inr ⟨b', hb', y :: x, hfirst.append hx, rfl⟩

theorem exists_mem_splitL_blank_append {w t b : List Char} (hw : Blank w) {c : Char}
    (h : b ∈ splitL c t) : ∃ x, Blank x ∧ x ++ b ∈ splitL c (w ++ t) := by
  induction w with
  | nil => exact ⟨[], blank_nil, h⟩
  | cons y w ih =>
    have hfirst : Blank [y] := fun z hz => hw z (List.mem_singleton.mp hz ▸ List.mem_cons_self)
    obtain ⟨x, hx, hmem⟩ := ih fun z hz => hw z (List.mem_cons_of_mem _ hz)
    rcases mem_splitL_cons_of_mem hmem with hmem | hmem
    · exact ⟨x, hx, hmem⟩
    · exact ⟨y :: x, hfirst.append hx, hmem⟩

/-- The same behind the text. -/
theorem mem_splitL_append_blank {w t a : List Char} (hw : Blank w) {c : Char}
    (h : a ∈ splitL c (t ++ w)) :
    Blank a ∨ ∃ b ∈ splitL c t, ∃ x, Blank x ∧ a = b ++ x := by
  have hrev : a.reverse ∈ splitL c (w.reverse ++ t.reverse) := by
    rw [← List.reverse_append, splitL_reverse, List.mem_reverse]
    exact List.mem_map_of_mem h
  rcases mem_splitL_blank_append hw.reverse hrev with hblank | ⟨b, hb, x, hx, heq⟩
  · exact Or.inl (a.reverse_reverse ▸ hblank.reverse)
  · rw [splitL_reverse, List.mem_reverse] at hb
    obtain ⟨b', hb', rfl⟩ := List.mem_map.mp hb
    refine Or.inr ⟨b', hb', x.reverse, hx.reverse, ?_⟩
    rw [← a.reverse_reverse, heq, List.reverse_append, List.reverse_reverse]

theorem exists_mem_splitL_append_blank {w t b : List Char} (hw : Blank w) {c : Char}
    (h : b ∈ splitL c t) : ∃ x, Blank x ∧ b ++ x ∈ splitL c (t ++ w) := by
  have hrev : b.reverse ∈ splitL c t.reverse := by
    rw [splitL_reverse, List.mem_reverse]
    exact List.mem_map_of_mem h
  obtain ⟨x, hx, hmem⟩ := exists_mem_splitL_blank_append hw.reverse hrev
  rw [← List.reverse_append, splitL_reverse, List.mem_reverse] at hmem
  obtain ⟨a, ha, heq⟩ := List.mem_map.mp hmem
  refine ⟨x.reverse, hx.reverse, ?_⟩
  have ha' := congrArg List.reverse heq
  rw [List.reverse_reverse, List.reverse_append, List.reverse_reverse] at ha'
  rwa [← ha']

/-- A line of a text that is not blank is, up to padding, a line of the trimmed text. -/
theorem exists_line_trimL {t a : List Char} {c : Char} (h : a ∈ splitL c t) (ha : ¬ Blank a) :
    ∃ b ∈ splitL c (trimL t), Padded a b := by
  obtain ⟨w, w', hw, hw', ht⟩ := padded_trimL t
  rw [ht] at h
  rcases mem_splitL_append_blank hw' h with hblank | ⟨a', ha', x', hx', rfl⟩
  · exact absurd hblank ha
  · rcases mem_splitL_blank_append hw ha' with hblank | ⟨b, hb, x, hx, rfl⟩
    · exact absurd (hblank.append hx') ha
    · exact ⟨b, hb, x, x', hx, hx', rfl⟩

/-- And a line of the trimmed text is, up to padding, a line of the text. -/
theorem exists_line_of_trimL {t b : List Char} {c : Char} (h : b ∈ splitL c (trimL t)) :
    ∃ a ∈ splitL c t, Padded a b := by
  obtain ⟨w, w', hw, hw', ht⟩ := padded_trimL t
  obtain ⟨x, hx, hmem⟩ := exists_mem_splitL_blank_append hw h
  obtain ⟨x', hx', hmem'⟩ := exists_mem_splitL_append_blank hw' hmem
  rw [← ht] at hmem'
  exact ⟨_, hmem', x, x', hx, hx', rfl⟩

/-! ## 4. Texts made of lines -/

/-- The text with these lines, each closed by a line feed. -/
def unlinesL (ls : List (List Char)) : List Char := ls.flatMap (· ++ ['\n'])

/-- Splitting at line feeds finds the lines, and then the pieces of what follows. -/
theorem splitL_unlinesL_append_text {ls : List (List Char)} (h : ∀ l ∈ ls, '\n' ∉ l)
    (text : List Char) : splitL '\n' (unlinesL ls ++ text) = ls ++ splitL '\n' text := by
  induction ls with
  | nil => rfl
  | cons l ls ih =>
    obtain ⟨hl, hls⟩ := List.forall_mem_cons.mp h
    rw [unlinesL, List.flatMap_cons, List.append_assoc, List.append_assoc, List.singleton_append,
      splitL_append hl, ← unlinesL, ih hls]
    rfl

/-- Splitting at line feeds finds the lines, and what stands behind the last line feed. -/
theorem splitL_unlinesL_append {ls : List (List Char)} (h : ∀ l ∈ ls, '\n' ∉ l) {tail : List Char}
    (htail : '\n' ∉ tail) : splitL '\n' (unlinesL ls ++ tail) = ls ++ [tail] := by
  rw [splitL_unlinesL_append_text h, splitL_of_not_mem htail]

theorem toList_unlines (ls : List String) :
    (unlines ls).toList = unlinesL (ls.map String.toList) := by
  induction ls with
  | nil => rfl
  | cons l ls ih =>
    rw [unlines, String.toList_append, String.toList_append, ih, List.map_cons, unlinesL, unlinesL,
      List.flatMap_cons]
    rfl

theorem splitL_unlinesL {ls : List (List Char)} (h : ∀ l ∈ ls, '\n' ∉ l) :
    splitL '\n' (unlinesL ls) = ls ++ [[]] := by
  have happend := splitL_unlinesL_append h List.not_mem_nil
  rwa [List.append_nil] at happend

/-- Lines without white space survive that the text is trimmed. -/
theorem splitL_trimL_unlinesL {ls : List (List Char)} (hne : ls ≠ [])
    (h : ∀ l ∈ ls, l ≠ [] ∧ ∀ c ∈ l, isWhitespace c = false) : splitL '\n' (trimL (unlinesL ls)) = ls := by
  obtain ⟨front, last, rfl⟩ : ∃ front last, ls = front ++ [last] :=
    ⟨ls.dropLast, ls.getLast hne, (List.dropLast_append_getLast hne).symm⟩
  have hplain : ∀ l ∈ front ++ [last], '\n' ∉ l := by
    intro l hl hmem
    exact absurd ((h l hl).2 _ hmem) (by decide)
  have htext : unlinesL (front ++ [last]) = unlinesL front ++ last ++ ['\n'] := by simp [unlinesL]
  have hpadded : Padded (unlinesL front ++ last ++ ['\n']) (unlinesL front ++ last) :=
    ⟨[], ['\n'], blank_nil, fun c hc => by rw [List.mem_singleton.mp hc]; decide, rfl⟩
  have htrim : trimL (unlinesL front ++ last) = unlinesL front ++ last := by
    obtain ⟨hlast, hchars⟩ := h last (List.mem_append_right _ List.mem_cons_self)
    refine trimL_eq_self (fun c hc => ?_) fun c hc => ?_
    · cases front with
      | nil => exact hchars c (List.mem_of_mem_head? hc)
      | cons l front =>
        obtain ⟨hl, hlchars⟩ := h l List.mem_cons_self
        obtain ⟨x, l, rfl⟩ := List.exists_cons_of_ne_nil hl
        cases hc
        exact hlchars _ List.mem_cons_self
    · rw [List.getLast?_append_of_ne_nil _ hlast] at hc
      exact hchars c (List.mem_of_mem_getLast? hc)
  rw [htext, hpadded.trimL, htrim, splitL_unlinesL_append (fun l hl => hplain l (List.mem_append_left _ hl))
    (hplain last (List.mem_append_right _ List.mem_cons_self))]

/-- What stands behind the last line feed is a line, unless it is empty. -/
theorem linesL_of_not_mem {l : List Char} (h : '\n' ∉ l) : linesL l = if l = [] then [] else [l] := by
  have hgo : ∀ acc, linesGo acc l = if acc ++ l = [] then [] else [acc ++ l] := by
    induction l with
    | nil =>
      intro acc
      rw [linesGo, List.append_nil]
    | cons x l ih =>
      intro acc
      have hx : x ≠ '\n' := fun e => h (e ▸ List.mem_cons_self)
      rw [linesGo, if_neg hx, ih fun hm => h (List.mem_cons_of_mem _ hm), List.append_assoc,
        List.singleton_append]
  exact hgo []

/-- `lines` finds them without their carriage returns. -/
theorem linesL_unlinesL {ls : List (List Char)} (h : ∀ l ∈ ls, '\n' ∉ l) :
    linesL (unlinesL ls) = ls.map stripCr := by
  induction ls with
  | nil => rfl
  | cons l ls ih =>
    obtain ⟨hl, hls⟩ := List.forall_mem_cons.mp h
    rw [linesL] at ih
    rw [linesL, unlinesL, List.flatMap_cons, List.append_assoc, List.singleton_append,
      linesGo_line hl, ← unlinesL, ih hls]
    rfl

/-- What does not see a carriage return at the end of a line, nor empty lines, finds the same in the
`lines` of a text and in its pieces between line feeds. -/
theorem exists_mem_linesL_iff {P : List Char → Prop} (hcr : ∀ l, P (stripCr l) ↔ P l)
    (hnil : ¬ P []) (t : List Char) : (∃ l ∈ linesL t, P l) ↔ ∃ l ∈ splitL '\n' t, P l := by
  -- with the line that is being read in front
  have hgo : ∀ acc, '\n' ∉ acc →
      ((∃ l ∈ linesGo acc t, P l) ↔ ∃ l ∈ splitL '\n' (acc ++ t), P l) := by
    induction t with
    | nil =>
      intro acc hacc
      rw [List.append_nil, splitL_of_not_mem hacc, linesGo]
      split
      · rename_i hempty
        simp [hempty, hnil]
      · rfl
    | cons x t ih =>
      intro acc hacc
      rw [linesGo]
      split
      · rename_i hx
        subst hx
        rw [splitL_append hacc]
        simp only [List.mem_cons, exists_eq_or_imp, hcr]
        exact or_congr_right (ih [] List.not_mem_nil)
      · rename_i hx
        rw [ih (acc ++ [x]) (by simp [hacc, Ne.symm hx]), List.append_assoc,
          List.singleton_append]
  exact hgo [] List.not_mem_nil

/-- Separators at the end of a text make empty pieces. -/
theorem exists_splitL_rdropWhile {α : Type} [DecidableEq α] (c : α) (l : List α) :
    ∃ n, splitL c l = splitL c (l.rdropWhile (· == c)) ++ List.replicate n [] := by
  induction l using List.reverseRecOn with
  | nil => exact ⟨0, by simp⟩
  | append_singleton l x ih =>
    by_cases hx : x = c
    · subst hx
      obtain ⟨n, hn⟩ := ih
      refine ⟨n + 1, ?_⟩
      rw [List.rdropWhile_concat_pos _ _ _ (by simp), splitL_append_cons, hn, List.append_assoc,
        List.replicate_succ']
      rfl
    · exact ⟨0, by rw [List.rdropWhile_concat_neg _ _ _ (by simp [hx])]; simp⟩

/-! ## 5. Replacing -/

/-- `s.replace(p, r)`, on characters; `skip` characters of the last match are still to be passed over. -/
def replaceGo (p r : List Char) : (skip : Nat) → List Char → List Char
  | _, [] => []
  | skip + 1, _ :: l => replaceGo p r skip l
  | 0, c :: l => if p.isPrefixOf (c :: l) then r ++ replaceGo p r (p.length - 1) l else c :: replaceGo p r 0 l

/-- `s.replace(p, r)`, for a `p` that is not empty. -/
def replace (s p r : String) : String := String.ofList (replaceGo p.toList r.toList 0 s.toList)

end Str

end Picoshift
