/-
# The head of an HTTP message

A head is a first line and FIELDS, each a name, a colon and a value, with CRLF behind every line and
an empty line at the end.  `readFields` is what a receiver makes of one: names are compared without
regard to case, so they are read in lower case, and the blanks around a value do not belong to it.

`readFields_head` is the round trip: fields that are written line by line are read back one by one,
whatever follows the head.  It asks of a name that it has no colon and no line feed, and of a value
that it has no line feed.
-/
import Mathlib.Data.UInt
import Picoshift.Lib.Lines
import Picoshift.Lib.Utf8

namespace Picoshift

namespace HttpHead

/-- A field: its name and the bytes of its value. -/
abbrev Field := String × List UInt8

/-! ## 1. Reading -/

/-- A blank around a value. -/
def isOws (b : UInt8) : Bool := b == 32 || b == 9

/-- A value without the blanks around it. -/
def strip (v : List UInt8) : List UInt8 := ((v.dropWhile isOws).reverse.dropWhile isOws).reverse

/-- A line without the CR in front of its LF. -/
def dropCr (l : List UInt8) : List UInt8 := if l.getLast? = some 13 then l.dropLast else l

/-- A name in lower case. -/
def lowerName (name : String) : String := String.ofList (name.toList.map Char.toLower)

/-- The text of the bytes of a name. -/
def nameOf (bytes : List UInt8) : String := String.ofList (bytes.map fun b => Char.ofNat b.toNat)

/-- One line with a colon. -/
def readField (line : List UInt8) : Option Field :=
  (Str.splitOnceL 58 line).map fun (k, v) => (lowerName (nameOf k), strip v)

/-- The fields of a head: the lines behind the first, up to an empty one. -/
def readFields (head : List UInt8) : List Field :=
  ((((Str.splitL 10 head).map dropCr).drop 1).takeWhile (· ≠ [])).filterMap readField

/-- The values of the fields with this name. -/
def valuesOf (name : String) (fields : List Field) : List (List UInt8) :=
  fields.filterMap fun f => if f.1 = name then some f.2 else none

theorem valuesOf_cons (name : String) (f : Field) (fs : List Field) :
    valuesOf name (f :: fs) =
      if f.1 = name then f.2 :: valuesOf name fs else valuesOf name fs := by
  rw [valuesOf, List.filterMap_cons]
  by_cases hf : f.1 = name
  · rw [if_pos hf, if_pos hf]
    rfl
  · rw [if_neg hf, if_neg hf]
    rfl

theorem valuesOf_append (name : String) (fs gs : List Field) :
    valuesOf name (fs ++ gs) = valuesOf name fs ++ valuesOf name gs :=
  List.filterMap_append

/-- Fields with other names may be dropped. -/
theorem valuesOf_filter {p : Field → Bool} {name : String} {fs : List Field}
    (h : ∀ f ∈ fs, f.1 = name → p f = true) : valuesOf name (fs.filter p) = valuesOf name fs := by
  induction fs with
  | nil => rfl
  | cons f fs ih =>
    have htail := ih fun g hg => h g (List.mem_cons_of_mem _ hg)
    cases hp : p f with
    | true => rw [List.filter_cons_of_pos hp, valuesOf_cons, valuesOf_cons, htail]
    | false =>
      have hf : f.1 ≠ name := fun e => by
        rw [h f List.mem_cons_self e] at hp
        cases hp
      rw [List.filter_cons_of_neg (by simp [hp]), valuesOf_cons, if_neg hf, htail]

/-! ## 2. Writing -/

/-- The bytes of a field. -/
def fieldBytes (f : Field) : List UInt8 := Utf8.encode f.1 ++ 58 :: 32 :: (f.2 ++ [13, 10])

/-- A field that can be written: nothing in it is taken for a separator. -/
structure FieldOk (f : Field) : Prop where
  name : ∀ c ∈ f.1.toList, c.toNat < 128 ∧ c ≠ ':' ∧ c ≠ '\n'
  value : (10 : UInt8) ∉ f.2

/-- A name of ASCII characters is read back. -/
theorem nameOf_encode {s : String} (h : ∀ c ∈ s.toList, c.toNat < 128) :
    nameOf (Utf8.encode s) = s := by
  have hchar : ∀ c ∈ s.toList, Char.ofNat (UInt8.ofNat c.toNat).toNat = c := by
    intro c hc
    have hlt := h c hc
    rw [Utf8.toNat_ofNat_of_lt (by omega), Char.ofNat_toNat]
  rw [Utf8.encode_ascii h, nameOf, List.map_map, ← String.toList_inj, String.toList_ofList]
  exact (List.map_congr_left hchar).trans (List.map_id _)

theorem dropWhile_of_head {p : UInt8 → Bool} {l : List UInt8}
    (h : ∀ b, l.head? = some b → p b = false) : l.dropWhile p = l := by
  cases l with
  | nil => rfl
  | cons b l => rw [List.dropWhile_cons, h b rfl]; rfl

/-- A value without blanks around it. -/
theorem strip_eq_self {v : List UInt8} (hhead : ∀ b, v.head? = some b → isOws b = false)
    (hlast : ∀ b, v.getLast? = some b → isOws b = false) : strip v = v := by
  rw [strip, dropWhile_of_head hhead, dropWhile_of_head, List.reverse_reverse]
  intro b hb
  rw [List.head?_reverse] at hb
  exact hlast b hb

/-- The blank behind the colon does not belong to the value. -/
theorem strip_blank (v : List UInt8) : strip (32 :: v) = strip v := by
  rw [strip, List.dropWhile_cons, if_pos (by rfl : isOws 32 = true), strip]

/-- The line of a field, without its line end. -/
theorem readField_line {f : Field} (h : FieldOk f) :
    readField (Utf8.encode f.1 ++ 58 :: 32 :: f.2) = some (lowerName f.1, strip f.2) := by
  have hcolon : (58 : UInt8) ∉ Utf8.encode f.1 := by
    exact Utf8.not_mem_encode (by decide) fun c hc he => (h.name c hc).2.1 (Char.toNat_inj.mp he)
  have hname := nameOf_encode fun c hc => (h.name c hc).1
  rw [readField, Str.splitOnceL_append hcolon, Option.map_some]
  simp only [hname, strip_blank]

theorem dropCr_append (l : List UInt8) : dropCr (l ++ [13]) = l := by
  simp [dropCr]

/-- The lines of fields, up to whatever is left of the head. -/
theorem splitL_fields {fs : List Field} (h : ∀ f ∈ fs, FieldOk f) (rest : List UInt8) :
    (Str.splitL 10 (fs.flatMap fieldBytes ++ rest)).map dropCr =
      fs.map (fun f => Utf8.encode f.1 ++ 58 :: 32 :: f.2) ++ (Str.splitL 10 rest).map dropCr := by
  induction fs with
  | nil => rfl
  | cons f fs ih =>
    obtain ⟨hf, hfs⟩ := List.forall_mem_cons.mp h
    have hname : (10 : UInt8) ∉ Utf8.encode f.1 := by
      exact Utf8.not_mem_encode (by decide) fun c hc he => (hf.name c hc).2.2 (Char.toNat_inj.mp he)
    have hline : (10 : UInt8) ∉ Utf8.encode f.1 ++ 58 :: 32 :: (f.2 ++ [13]) := by
      simp [hname, hf.value]
    have hsplit : (f :: fs).flatMap fieldBytes ++ rest =
        (Utf8.encode f.1 ++ 58 :: 32 :: (f.2 ++ [13])) ++ 10 :: (fs.flatMap fieldBytes ++ rest) := by
      simp [fieldBytes]
    have hcr : Utf8.encode f.1 ++ 58 :: 32 :: (f.2 ++ [13]) =
        (Utf8.encode f.1 ++ 58 :: 32 :: f.2) ++ [13] := by simp
    rw [hsplit, Str.splitL_append hline, List.map_cons, ih hfs, hcr, dropCr_append]
    rfl

/-- **The round trip**: the fields of a head are read back, whatever follows it. -/
theorem readFields_head {first : List UInt8} (hfirst : (10 : UInt8) ∉ first) {fs : List Field}
    (h : ∀ f ∈ fs, FieldOk f) (rest : List UInt8) :
    readFields (first ++ 13 :: 10 :: (fs.flatMap fieldBytes ++ 13 :: 10 :: rest)) =
      fs.map fun f => (lowerName f.1, strip f.2) := by
  have hfirst' : (10 : UInt8) ∉ first ++ [13] := by simp [hfirst]
  have hsplit : first ++ 13 :: 10 :: (fs.flatMap fieldBytes ++ 13 :: 10 :: rest) =
      (first ++ [13]) ++ 10 :: (fs.flatMap fieldBytes ++ 13 :: 10 :: rest) := by simp
  have hend : (Str.splitL 10 (13 :: 10 :: rest)).map dropCr = [] :: (Str.splitL 10 rest).map dropCr := by
    have : (13 : UInt8) :: 10 :: rest = [13] ++ 10 :: rest := rfl
    rw [this, Str.splitL_append (by decide)]
    rfl
  have hlines : ∀ l ∈ fs.map (fun f => Utf8.encode f.1 ++ 58 :: 32 :: f.2), decide (l ≠ []) = true := by
    intro l hl
    obtain ⟨f, -, rfl⟩ := List.mem_map.mp hl
    simp
  rw [readFields, hsplit, Str.splitL_append hfirst', List.map_cons, List.drop_one, List.tail_cons,
    splitL_fields h, hend, List.takeWhile_append_of_pos hlines]
  simp only [List.takeWhile_cons, ne_eq, not_true_eq_false, decide_false, Bool.false_eq_true, if_false,
    List.append_nil, List.filterMap_map]
  have hread : ∀ f ∈ fs, (readField ∘ fun f => Utf8.encode f.1 ++ 58 :: 32 :: f.2) f =
      (some ∘ fun f : Field => (lowerName f.1, strip f.2)) f := fun f hf => readField_line (h f hf)
  rw [List.filterMap_congr hread, List.filterMap_eq_map]

end HttpHead

end Picoshift
