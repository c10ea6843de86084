/-
# Reading the forms of an HTML page

What a browser needs of a page in order to post a form back: the tags with their attributes,
the references decoded, and the values of the input fields.

The reader is a machine over characters.  It only ever appends to the tags it has found, so a
page can be read piece by piece (`scan_append`), which is how a page that is pasted together
from fixed text and inserted values is analysed.  A value without a double quote, inserted
between double quotes, arrives whole (`scan_quoted`).
-/
import Mathlib.Data.List.Basic

namespace Picoshift

namespace Html

/-! ## 1. References -/

/-- Decode the references for the four characters that a page has to escape.  A reference is
decoded once: what it stands for is not looked at again. -/
def decodeRefs : List Char → List Char
  | '&' :: 'a' :: 'm' :: 'p' :: ';' :: rest => '&' :: decodeRefs rest
  | '&' :: 'l' :: 't' :: ';' :: rest => '<' :: decodeRefs rest
  | '&' :: 'g' :: 't' :: ';' :: rest => '>' :: decodeRefs rest
  | '&' :: 'q' :: 'u' :: 'o' :: 't' :: ';' :: rest => '"' :: decodeRefs rest
  | c :: rest => c :: decodeRefs rest
  | [] => []

theorem decodeRefs_cons {c : Char} (h : c ≠ '&') (rest : List Char) :
    decodeRefs (c :: rest) = c :: decodeRefs rest := by
  rw [decodeRefs]
  all_goals
    intro _ heq
    exact absurd heq h

/-! ## 2. Tags -/

structure Tag where
  name : List Char
  attrs : List (String × String)
  deriving DecidableEq, Repr

/-- The attribute's value. -/
def Tag.attr (t : Tag) (name : String) : Option String := t.attrs.lookup name

/-- `t` with one more attribute. -/
def Tag.push (t : Tag) (name value : List Char) : Tag :=
  { t with attrs := t.attrs ++ [(String.ofList name, String.ofList (decodeRefs value))] }

/-- Where in a page the reader is. -/
inductive Mode where
  | text
  | tagName (name : List Char)
  | between (tag : Tag)
  | attrName (tag : Tag) (name : List Char)
  | beforeValue (tag : Tag) (name : List Char)
  | quoted (tag : Tag) (name : List Char) (quote : Char) (value : List Char)
  | unquoted (tag : Tag) (name : List Char) (value : List Char)
  deriving DecidableEq, Repr

def isBlank (c : Char) : Bool := c == ' ' || c == '\n' || c == '\r' || c == '\t'

/-- One character: the tags that it completes, and where the reader is then. -/
def step (m : Mode) (c : Char) : List Tag × Mode :=
  match m with
  | .text => ([], if c = '<' then .tagName [] else .text)
  | .tagName name =>
    if c = '>' then ([⟨name, []⟩], .text)
    else if isBlank c then ([], .between ⟨name, []⟩)
    else ([], .tagName (name ++ [c]))
  | .between tag =>
    if c = '>' then ([tag], .text)
    else if isBlank c then ([], .between tag)
    else ([], .attrName tag [c])
  | .attrName tag name =>
    if c = '=' then ([], .beforeValue tag name)
    else if c = '>' then ([tag.push name []], .text)
    else if isBlank c then ([], .between (tag.push name []))
    else ([], .attrName tag (name ++ [c]))
  | .beforeValue tag name =>
    if c = '"' ∨ c = '\'' then ([], .quoted tag name c [])
    else if c = '>' then ([tag.push name []], .text)
    else if isBlank c then ([], .beforeValue tag name)
    else ([], .unquoted tag name [c])
  | .quoted tag name quote value =>
    if c = quote then ([], .between (tag.push name value))
    else ([], .quoted tag name quote (value ++ [c]))
  | .unquoted tag name value =>
    if c = '>' then ([tag.push name value], .text)
    else if isBlank c then ([], .between (tag.push name value))
    else ([], .unquoted tag name (value ++ [c]))

/-- Read a text from a mode: its tags in order, and the mode at its end. -/
def scan (m : Mode) : List Char → List Tag × Mode
  | [] => ([], m)
  | c :: l => ((step m c).1 ++ (scan (step m c).2 l).1, (scan (step m c).2 l).2)

/-- A page is read piece by piece. -/
theorem scan_append {m m' m'' : Mode} {a b : List Char} {ts us : List Tag}
    (ha : scan m a = (ts, m')) (hb : scan m' b = (us, m'')) : scan m (a ++ b) = (ts ++ us, m'') := by
  induction a generalizing m ts with
  | nil =>
    rw [scan, Prod.mk.injEq] at ha
    obtain ⟨rfl, rfl⟩ := ha
    exact hb
  | cons c a ih =>
    rw [scan, Prod.mk.injEq] at ha
    have htail := ih (m := (step m c).2) (Prod.ext rfl ha.2)
    rw [List.cons_append, scan, htail, ← ha.1, List.append_assoc]

/-- What is inserted between quotes arrives whole. -/
theorem scan_quoted (tag : Tag) (name : List Char) {quote : Char} {v : List Char} (h : quote ∉ v)
    (value : List Char) :
    scan (.quoted tag name quote value) v = ([], .quoted tag name quote (value ++ v)) := by
  induction v generalizing value with
  | nil => simp [scan]
  | cons c v ih =>
    have hc : c ≠ quote := fun e => h (e ▸ List.mem_cons_self)
    have hv : quote ∉ v := fun hm => h (List.mem_cons_of_mem _ hm)
    have hstep : step (.quoted tag name quote value) c = ([], .quoted tag name quote (value ++ [c])) := by
      simp only [step, if_neg hc]
    rw [scan, hstep, ih hv]
    simp

/-! ## 3. Submitting a form -/

/-- The name and value that an input field submits, given what the user typed into the named
fields; a hidden field submits the value the page gave it. -/
def submitted (typed : List (String × String)) (t : Tag) : Option (String × String) :=
  if t.name = "input".toList then
    (t.attr "name").map fun name =>
      if t.attr "type" = some "hidden" then (name, (t.attr "value").getD "")
      else (name, (typed.lookup name).getD "")
  else none

/-- The fields of the page, as they are posted. -/
def submitFields (page : String) (typed : List (String × String)) : List (String × String) :=
  (scan .text page.toList).1.filterMap (submitted typed)

/-- Only input tags submit anything. -/
theorem filterMap_submitted (typed : List (String × String)) (ts : List Tag) :
    ts.filterMap (submitted typed) =
      (ts.filter fun t => t.name = "input".toList).filterMap (submitted typed) := by
  rw [List.filterMap_filter]
  refine List.filterMap_congr fun t _ => ?_
  unfold submitted
  split <;> simp_all

end Html

end Picoshift
