/-
# Patterns of Lua

A pattern is a row of items: a class of bytes, once or repeated, or a parenthesis.  The matcher goes through
the items and takes from the subject what they ask for.  A repetition with `*` or `+` takes as much as it can and
gives back as long as the rest does not match; one with `-` takes as little as it can.  What stands between
parentheses is captured; a pattern without parentheses captures the whole match.

The syntax that is read here is a part of Lua's: `.`, `%s`, sets of all bytes but one, letters, digits and
underscores, the three repetitions, parentheses, and the two anchors.  Lua strings are strings of bytes.

§4 says what three families of patterns mean: a literal text (`run_bytes`), a run of one class
(`matchAt_run`, `gmatch_run`), and the text between two runs of a class (`matchAt_between`).
-/
import Mathlib.Data.List.DropRight
import Picoshift.Lib.Lines
import Picoshift.Lib.Utf8

namespace Picoshift.Lua

/-! ## 1. Patterns -/

/-- What one byte can be. -/
inductive Class where
  | any
  | space
  | byte (b : UInt8)
  | not (b : UInt8)
  deriving DecidableEq, Repr

def Class.accepts : Class → UInt8 → Bool
  | .any, _ => true
  | .space, c => (9 ≤ c && c ≤ 13) || c == 32
  | .byte b, c => c == b
  | .not b, c => c != b

/-- `*`, `+` and `-`. -/
inductive Times where
  | star
  | plus
  | lazy
  deriving DecidableEq, Repr

inductive Item where
  | one (c : Class)
  | rep (c : Class) (t : Times)
  | enter
  | leave
  | eos
  deriving DecidableEq, Repr

structure Pattern where
  anchored : Bool
  items : List Item
  deriving DecidableEq, Repr

/-! ## 2. Their syntax -/

inductive Token where
  | cls (c : Class)
  | times (t : Times)
  | enter
  | leave
  | eos
  deriving DecidableEq, Repr

/-- A character that stands for itself. -/
def isPlain (c : Char) : Bool := c.isAlphanum || c == '_'

def tokens : List Char → Option (List Token)
  | [] => some []
  | ['$'] => some [.eos]
  | '.' :: p => (tokens p).map (.cls .any :: ·)
  | '%' :: 's' :: p => (tokens p).map (.cls .space :: ·)
  | '[' :: '^' :: c :: ']' :: p => (tokens p).map (.cls (.not (UInt8.ofNat c.toNat)) :: ·)
  | '*' :: p => (tokens p).map (.times .star :: ·)
  | '+' :: p => (tokens p).map (.times .plus :: ·)
  | '-' :: p => (tokens p).map (.times .lazy :: ·)
  | '(' :: p => (tokens p).map (.enter :: ·)
  | ')' :: p => (tokens p).map (.leave :: ·)
  | c :: p => if isPlain c then (tokens p).map (.cls (.byte (UInt8.ofNat c.toNat)) :: ·) else none

/-- A repetition belongs to the class in front of it. -/
def items : List Token → Option (List Item)
  | [] => some []
  | .cls c :: .times t :: p => (items p).map (.rep c t :: ·)
  | .cls c :: p => (items p).map (.one c :: ·)
  | .times _ :: _ => none
  | .enter :: p => (items p).map (.enter :: ·)
  | .leave :: p => (items p).map (.leave :: ·)
  | .eos :: p => (items p).map (.eos :: ·)

def parse (text : String) : Option Pattern :=
  match text.toList with
  | '^' :: p => ((tokens p).bind items).map (⟨true, ·⟩)
  | p => ((tokens p).bind items).map (⟨false, ·⟩)

/-! ## 3. The matcher -/

/-- A parenthesis that was opened: what is left of the subject there, and what it captured once it is closed. -/
structure Capture where
  start : List UInt8
  text : Option (List UInt8)

/-- The last parenthesis that is open is closed in front of `s`. -/
def close (s : List UInt8) : List Capture → Option (List Capture)
  | [] => none
  | cap :: caps =>
    match close s caps, cap.text with
    | some caps, _ => some (cap :: caps)
    | none, none => some (⟨cap.start, some (cap.start.take (cap.start.length - s.length))⟩ :: caps)
    | none, some _ => none

/-- `max_expand`: as many as possible, and back as long as `k` fails. -/
def maxExpand {β : Type} (c : Class) (k : List UInt8 → Option β) : List UInt8 → Option β
  | [] => k []
  | x :: s => if c.accepts x then (maxExpand c k s).or (k (x :: s)) else k (x :: s)

/-- `min_expand`: as few as possible, and on as long as `k` fails. -/
def minExpand {β : Type} (c : Class) (k : List UInt8 → Option β) : List UInt8 → Option β
  | [] => k []
  | x :: s => (k (x :: s)).or (if c.accepts x then minExpand c k s else none)

/-- `match`: the captures, and what is left of the subject. -/
def run : List Item → List UInt8 → List Capture → Option (List Capture × List UInt8)
  | [], s, caps => some (caps, s)
  | .one _ :: _, [], _ => none
  | .one c :: p, x :: s, caps => if c.accepts x then run p s caps else none
  | .rep c .star :: p, s, caps => maxExpand c (fun r => run p r caps) s
  | .rep _ .plus :: _, [], _ => none
  | .rep c .plus :: p, x :: s, caps =>
    if c.accepts x then maxExpand c (fun r => run p r caps) s else none
  | .rep c .lazy :: p, s, caps => minExpand c (fun r => run p r caps) s
  | .enter :: p, s, caps => run p s (caps ++ [⟨s, none⟩])
  | .leave :: p, s, caps => (close s caps).bind (run p s)
  | .eos :: p, s, caps => if s = [] then run p s caps else none

/-- The items match at the beginning of the subject: what is captured, and what is left. -/
def matchAt (p : List Item) (s : List UInt8) : Option (List (List UInt8) × List UInt8) :=
  (run p s []).bind fun (caps, rest) =>
    if caps.isEmpty then some ([s.take (s.length - rest.length)], rest)
    else (caps.mapM Capture.text).map (·, rest)

/-- The first place where the items match. -/
def firstMatch (p : List Item) : List UInt8 → Option (List (List UInt8) × List UInt8)
  | [] => matchAt p []
  | x :: s => (matchAt p (x :: s)).or (firstMatch p s)

/-- `local capture = subject:match(text)`. -/
def strMatch (text : String) (s : List UInt8) : Option (List UInt8) :=
  (parse text).bind fun p =>
    (if p.anchored then matchAt p.items s else firstMatch p.items s).bind (·.1.head?)

/-- The matches of the items one after the other; a match of nothing goes on behind the next byte. -/
def gmatchGo (p : List Item) : Nat → List UInt8 → List (List (List UInt8))
  | 0, _ => []
  | fuel + 1, s =>
    match matchAt p s with
    | none => if s = [] then [] else gmatchGo p fuel s.tail
    | some (caps, rest) =>
      caps :: if rest.length < s.length then gmatchGo p fuel rest
        else if s = [] then [] else gmatchGo p fuel s.tail

/-- `for capture in subject:gmatch(text)`. -/
def gmatch (text : String) (s : List UInt8) : List (List UInt8) :=
  match parse text with
  | none => []
  | some p => (gmatchGo p.items (s.length + 1) s).filterMap List.head?

/-! ## 4. What patterns mean -/

section Expand

variable {β : Type} {c : Class} {k : List UInt8 → Option β}

/-- What matches behind the longest run is taken there. -/
theorem maxExpand_eq {s : List UInt8} (h : (k (s.dropWhile c.accepts)).isSome) :
    maxExpand c k s = k (s.dropWhile c.accepts) := by
  induction s with
  | nil => rfl
  | cons x s ih =>
    rw [maxExpand]
    split
    · rename_i hx
      rw [List.dropWhile_cons_of_pos hx] at h ⊢
      obtain ⟨b, hb⟩ := Option.isSome_iff_exists.mp h
      rw [ih h, hb, Option.some_or]
    · rename_i hx
      rw [List.dropWhile_cons_of_neg hx]

/-- A run up to the end. -/
theorem maxExpand_nil (b : β) (s : List UInt8) :
    maxExpand c (fun r => if r = [] then some b else none) s = if s.all c.accepts then some b else none := by
  induction s with
  | nil => rfl
  | cons x s ih =>
    rw [maxExpand, List.all_cons, ih]
    cases c.accepts x <;> simp

theorem rtakeWhile_cons (p : UInt8 → Bool) (x : UInt8) (s : List UInt8) :
    (x :: s).rtakeWhile p = if (x :: s).all p then x :: s else s.rtakeWhile p := by
  by_cases hs : ∀ y ∈ s, p y = true
  · have hself : s.rtakeWhile p = s := List.rtakeWhile_eq_self_iff.mpr hs
    have hall : s.all p = true := List.all_eq_true.mpr hs
    have hrev : ∀ y ∈ s.reverse, p y = true := fun y hy => hs y (List.mem_reverse.mp hy)
    rw [List.all_cons, hall, Bool.and_true, hself, List.rtakeWhile, List.reverse_cons,
      List.takeWhile_append_of_pos hrev]
    cases hx : p x <;> simp [hx]
  · have hall : s.all p = false := by
      rw [← Bool.not_eq_true, List.all_eq_true]
      exact hs
    have hlength : (s.reverse.takeWhile p).length ≠ s.reverse.length := by
      intro heq
      have hself := List.takeWhile_eq_self_iff.mp
        ((List.takeWhile_prefix p).eq_of_length heq)
      exact hs fun y hy => hself y (List.mem_reverse.mpr hy)
    rw [List.all_cons, hall, Bool.and_false, if_neg Bool.false_ne_true, List.rtakeWhile, List.reverse_cons,
      List.takeWhile_append, if_neg hlength, List.rtakeWhile]

/-- The shortest text behind which only bytes of a class are left. -/
theorem minExpand_any {p : UInt8 → Bool} {g : List UInt8 → β}
    (hk : ∀ r, k r = if r.all p then some (g r) else none) (s : List UInt8) :
    minExpand .any k s = some (g (s.rtakeWhile p)) := by
  induction s with
  | nil => exact hk []
  | cons x s ih =>
    rw [minExpand, hk, ih, rtakeWhile_cons]
    split
    · rfl
    · rfl

end Expand

/-- A literal text in front of other items. -/
theorem run_bytes (bs : List UInt8) (p : List Item) (s : List UInt8) (caps : List Capture) :
    run (bs.map (fun b => .one (.byte b)) ++ p) s caps =
      if bs.isPrefixOf s then run p (s.drop bs.length) caps else none := by
  induction bs generalizing s with
  | nil => rfl
  | cons b bs ih =>
    cases s with
    | nil => rfl
    | cons x s =>
      rw [List.map_cons, List.cons_append, run, ih]
      by_cases hb : b = x
      · simp [Class.accepts, List.isPrefixOf, hb]
      · simp [Class.accepts, List.isPrefixOf, hb, Ne.symm hb]

/-- Closing the only parenthesis. -/
theorem close_singleton (s start : List UInt8) : close s [⟨start, none⟩] =
    some [⟨start, some (start.take (start.length - s.length))⟩] := rfl

/-- What was taken in front of a rest. -/
theorem take_length_sub (a b : List UInt8) : (a ++ b).take ((a ++ b).length - b.length) = a := by
  rw [List.length_append, Nat.add_sub_cancel, List.take_left]

/-- A run of a class, captured. -/
theorem matchAt_run (c : Class) (s : List UInt8) : matchAt [.enter, .rep c .plus, .leave] s =
    if (s.takeWhile c.accepts).isEmpty then none
    else some ([s.takeWhile c.accepts], s.dropWhile c.accepts) := by
  cases s with
  | nil => rfl
  | cons x s =>
    cases hx : c.accepts x with
    | false => simp [matchAt, run, hx]
    | true =>
      have htake := take_length_sub ((x :: s).takeWhile c.accepts) ((x :: s).dropWhile c.accepts)
      rw [List.takeWhile_append_dropWhile, List.dropWhile_cons_of_pos hx] at htake
      rw [List.dropWhile_cons_of_pos hx]
      have hrun : run [.enter, .rep c .plus, .leave] (x :: s) [] =
          some ([⟨x :: s, some ((x :: s).takeWhile c.accepts)⟩], s.dropWhile c.accepts) := by
        have hleave : ∀ r, run [.leave] r [⟨x :: s, none⟩] =
            some ([⟨x :: s, some ((x :: s).take ((x :: s).length - r.length))⟩], r) := fun r => rfl
        rw [run, List.nil_append, run, if_pos hx, maxExpand_eq (by rw [hleave]; rfl), hleave, htake]
      rw [matchAt, hrun, List.takeWhile_cons_of_pos hx]
      rfl

/-- What stands between a run of a class at the beginning and one at the end, captured. -/
theorem matchAt_between (c : Class) (s : List UInt8) :
    matchAt [.rep c .star, .enter, .rep .any .lazy, .leave, .rep c .star, .eos] s =
      some ([(s.dropWhile c.accepts).rdropWhile c.accepts], []) := by
  -- behind the parenthesis only the class may follow
  have hend : ∀ start r, run [.leave, .rep c .star, .eos] r [⟨start, none⟩] =
      if r.all c.accepts then some ([⟨start, some (start.take (start.length - r.length))⟩], []) else none := by
    intro start r
    rw [run, close_singleton, Option.bind_some, run]
    rw [← maxExpand_nil]
    congr 1
    funext r'
    cases r' <;> rfl
  have hinner : ∀ start, run [.enter, .rep .any .lazy, .leave, .rep c .star, .eos] start [] =
      some ([⟨start, some (start.rdropWhile c.accepts)⟩], []) := by
    intro start
    rw [run, List.nil_append, run, minExpand_any (hend start)]
    have htake := take_length_sub (start.rdropWhile c.accepts) (start.rtakeWhile c.accepts)
    rw [List.rdropWhile_append_rtakeWhile] at htake
    rw [htake]
  rw [matchAt, run, maxExpand_eq (by rw [hinner]; rfl), hinner]
  rfl

/-- The text up to the first separator is the longest run of other bytes. -/
theorem splitL_eq (b : UInt8) (s : List UInt8) : Str.splitL b s =
    s.takeWhile (Class.not b).accepts :: (match s.dropWhile (Class.not b).accepts with
      | [] => []
      | _ :: rest => Str.splitL b rest) := by
  induction s with
  | nil => rfl
  | cons x s ih =>
    by_cases hx : x = b
    · have hout : (Class.not b).accepts x = false := by simp [Class.accepts, hx]
      rw [Str.splitL, if_pos hx, List.takeWhile_cons_of_neg (by simp [hout]),
        List.dropWhile_cons_of_neg (by simp [hout])]
    · have hin : (Class.not b).accepts x = true := by simp [Class.accepts, hx]
      rw [Str.splitL, if_neg hx, ih, List.takeWhile_cons_of_pos hin, List.dropWhile_cons_of_pos hin]

/-- **The runs of all bytes but one are what lies between the others.** -/
theorem gmatchGo_run (b : UInt8) {fuel : Nat} {s : List UInt8} (h : s.length < fuel) :
    gmatchGo [.enter, .rep (.not b) .plus, .leave] fuel s =
      ((Str.splitL b s).filter (fun a => !a.isEmpty)).map ([·]) := by
  -- a separator at the beginning makes no difference to the pieces that are not empty
  have hsep : ∀ s, (Str.splitL b (b :: s)).filter (fun a => !a.isEmpty) =
      (Str.splitL b s).filter (fun a => !a.isEmpty) := by
    intro s
    rw [Str.splitL, if_pos rfl]
    rfl
  induction fuel generalizing s with
  | zero => cases h
  | succ fuel ih =>
    cases s with
    | nil => rfl
    | cons x s =>
      rw [List.length_cons] at h
      rw [gmatchGo, matchAt_run]
      by_cases hx : x = b
      · have hout : ¬ (Class.not b).accepts x = true := by simp [Class.accepts, hx]
        rw [List.takeWhile_cons_of_neg hout, hx, hsep]
        exact ih (s := s) (by omega)
      · have hin : (Class.not b).accepts x = true := by simp [Class.accepts, hx]
        have hshort := (List.dropWhile_suffix (Class.not b).accepts (l := s)).length_le
        rw [splitL_eq, List.takeWhile_cons_of_pos hin, List.dropWhile_cons_of_pos hin]
        simp only [List.isEmpty_cons, Bool.false_eq_true, if_false, List.length_cons]
        rw [if_pos (by omega), ih (by omega)]
        cases hrest : s.dropWhile (Class.not b).accepts with
        | nil => rfl
        | cons y rest =>
          have hy : y = b := by
            have hhead := List.head?_dropWhile_not (Class.not b).accepts s
            rw [hrest] at hhead
            simpa [Class.accepts] using hhead
          rw [hy, hsep]
          rfl

theorem gmatch_run {text : String} {b : UInt8}
    (h : parse text = some ⟨false, [.enter, .rep (.not b) .plus, .leave]⟩) (s : List UInt8) :
    gmatch text s = (Str.splitL b s).filter (fun a => !a.isEmpty) := by
  rw [gmatch, h]
  dsimp only
  rw [gmatchGo_run b (Nat.lt_succ_self _), List.filterMap_map]
  exact List.filterMap_some

end Picoshift.Lua
