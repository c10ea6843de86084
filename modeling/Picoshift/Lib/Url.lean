/-
# Where the authority of a URL ends

Parsing a URL is the business of the `url` crate, which is a parameter here (`UrlCrate`).  What is known of it is
what the URL Standard says about the FRONT of a text: controls and blanks around it and tabs and line feeds in it
do not count, a scheme ends at the first colon, and an authority ends at the next `/`, `?` or `#`.  `head` reads
that much off a text.  What two URLs must share to lead to the same place is their ORIGIN: scheme, host and port.
`LawfulUrl` says that the crate takes the origin from the head.

Three things differ from scheme to scheme.

* `http` and the other SPECIAL schemes always have an authority, behind any number of slashes, and a backslash is
  as good as a slash: `http:localhost` and `http:\\localhost` lead where `http://localhost` leads.
* Any other scheme has one only behind `//`.  `com.example.app:/callback` has none, and `myapp:///callback` has an
  empty one.
* `file` has rules of its own, about drive letters; nothing is said about it.

The theorems are about text that is extended on the RIGHT, because that is what a prefix test on raw strings
allows: a text that is `settled` keeps its head whatever is appended (`head_append_of_settled`), a `dead` one never
gets a scheme, and any other one can be extended to a URL with any host (`exists_head_of_open`).
-/
import Mathlib.Data.List.DropRight
import Picoshift.Lib.Form

namespace Picoshift

/-- Scheme, host and port: what says where a URL leads.  The port is absent when it is the scheme's own, which is
how `port()` of the crate reports it. -/
structure Origin where
  scheme : String
  host : Option String
  port : Option Nat
  deriving DecidableEq, Repr

/-- The part of the `url` crate that the server uses.  A `Url` is a value of the crate, and only its accessors say
anything about it. -/
structure UrlCrate where
  Url : Type
  /-- `Url::parse`. -/
  parse : String → Option Url
  asStr : Url → String
  scheme : Url → String
  hostStr : Url → Option String
  port : Url → Option Nat
  path : Url → String
  query : Url → Option String
  setPath : Url → String → Url
  setQuery : Url → Option String → Url
  /-- `url.query_pairs_mut().append_pair(name, value)`. -/
  appendPair : Url → String → String → Url
  /-- The constant that the server unwraps when it has nothing better. -/
  errorUrl : Url
  parse_errorUrl : parse "http://localhost/error" = some errorUrl

namespace UrlCrate

def origin (url : UrlCrate) (u : url.Url) : Origin := ⟨url.scheme u, url.hostStr u, url.port u⟩

/-- The origin a text leads to, if it is a URL at all. -/
def originOf (url : UrlCrate) (text : String) : Option Origin := (url.parse text).map url.origin

/-- `append_pair` after `append_pair`. -/
def appendPairs (url : UrlCrate) (u : url.Url) (pairs : List (String × String)) : url.Url :=
  pairs.foldl (fun u p => url.appendPair u p.1 p.2) u

end UrlCrate

namespace Url

/-! ## 1. Characters -/

/-- A control or a blank: not counted at either end of a text. -/
def isC0 (c : Char) : Bool := c.toNat ≤ 0x20

/-- Not counted anywhere. -/
def isTabOrNewline (c : Char) : Bool := c == '\t' || c == '\n' || c == '\r'

/-- ASCII lower case. -/
def lower (c : Char) : Char :=
  if 65 ≤ c.toNat ∧ c.toNat ≤ 90 then Char.ofNat (c.toNat + 32) else c

def isAlpha (c : Char) : Bool :=
  (65 ≤ c.toNat && c.toNat ≤ 90) || (97 ≤ c.toNat && c.toNat ≤ 122)

/-- A letter, a digit, `+`, `-` or `.`. -/
def isSchemeChar (c : Char) : Bool :=
  isAlpha c || (48 ≤ c.toNat && c.toNat ≤ 57) || c == '+' || c == '-' || c == '.'

/-- A scheme: a letter, then scheme characters. -/
def validScheme : List Char → Bool
  | [] => false
  | c :: cs => isAlpha c && cs.all isSchemeChar

/-- The special schemes, without `file`. -/
def special (scheme : List Char) : Bool :=
  ["http", "https", "ws", "wss", "ftp"].any fun s => s.toList == scheme

/-- What a special scheme takes for a slash. -/
def isSlash (c : Char) : Bool := c == '/' || c == '\\'

/-- What ends an authority; a backslash does so in the special schemes only. -/
def isDelim (sp : Bool) (c : Char) : Bool := c == '/' || c == '?' || c == '#' || (sp && c == '\\')

/-! ## 2. The front of a text -/

/-- The text without what does not count, but for its end. -/
def squeeze (l : List Char) : List Char := (l.filter fun c => !isTabOrNewline c).dropWhile isC0

/-- The text without what does not count. -/
def clean (l : List Char) : List Char := (squeeze l).rdropWhile isC0

/-- The scheme of a text, in lower case, and what stands behind its colon. -/
def splitScheme (t : List Char) : Option (List Char × List Char) :=
  match t.dropWhile isSchemeChar with
  | ':' :: rest =>
    if validScheme (t.takeWhile isSchemeChar) then some ((t.takeWhile isSchemeChar).map lower, rest) else none
  | _ => none

/-- What the front of a text says. -/
inductive Head where
  /-- There is no scheme, so the text is no URL by itself. -/
  | relative
  /-- A scheme whose URL has no authority. -/
  | rootless (scheme : List Char)
  /-- A scheme and the text of an authority, which may be empty. -/
  | authority (scheme text : List Char)
  /-- The scheme `file`, and all that follows it. -/
  | file (rest : List Char)
  deriving DecidableEq, Repr

/-- What stands behind the colon of a scheme. -/
def Head.of (s r : List Char) : Head :=
  if s = "file".toList then .file r
  else if special s then .authority s ((r.dropWhile isSlash).takeWhile fun c => !isDelim true c)
  else
    match r with
    | '/' :: '/' :: r => .authority s (r.takeWhile fun c => !isDelim false c)
    | _ => .rootless s

def headOf (t : List Char) : Head :=
  match splitScheme t with
  | none => .relative
  | some (s, r) => .of s r

/-- The head of a text, once it is cleaned. -/
def head (l : List Char) : Head := headOf (clean l)

/-- What stands behind the last `@` of an authority: the host and the port. -/
def afterAt (l : List Char) : List Char := (l.reverse.takeWhile (· ≠ '@')).reverse

/-- A host name of small letters, which every reader takes as it is. -/
def plain (h : List Char) : Prop := h ≠ [] ∧ ∀ c ∈ h, 97 ≤ c.toNat ∧ c.toNat ≤ 122

/-! ## 3. Extending text on the right -/

/-- Behind the colon, nothing more can happen to the head. -/
def settledAfter (s r : List Char) : Bool :=
  if s = "file".toList then false
  else if special s then (r.dropWhile isSlash).any (isDelim true)
  else
    match r with
    | [] => false
    | ['/'] => false
    | '/' :: '/' :: r => r.any (isDelim false)
    | _ => true

/-- The head of the text has been closed: by the end of an authority, or because there will be none. -/
def settled (l : List Char) : Bool :=
  match splitScheme (squeeze l) with
  | none => false
  | some (s, r) => settledAfter s r

/-- No text that begins like this has a scheme. -/
def dead (l : List Char) : Bool :=
  (splitScheme (squeeze l)).isNone && !(squeeze l).isEmpty && !validScheme (squeeze l)

/-- The text has the scheme `file`. -/
def isFile (l : List Char) : Bool :=
  match splitScheme (squeeze l) with
  | none => false
  | some (s, _) => s == "file".toList

end Url

/-- **What is assumed of the crate**: the URL Standard's rules about the front of a text, and that adding a query
parameter and writing a URL out do not change where it leads. -/
structure LawfulUrl (url : UrlCrate) : Prop where
  /-- A text without a scheme is refused. -/
  relative : ∀ {l : String}, Url.head l.toList = .relative → url.originOf l = none
  /-- A URL without an authority has neither host nor port. -/
  rootless : ∀ {l : String} {s : List Char}, Url.head l.toList = .rootless s →
    url.originOf l = some ⟨String.ofList s, none, none⟩
  /-- Host and port stand in the authority: what follows it does not count, once something does. -/
  authority : ∀ {l l' : String} {s a : List Char}, Url.head l.toList = .authority s a →
    Url.head l'.toList = .authority s a → Url.settled l.toList = true → Url.settled l'.toList = true →
    url.originOf l = url.originOf l'
  /-- The user information ends at the last `@`, and a plain host name is taken as it is. -/
  host : ∀ {l : String} {s a : List Char}, Url.head l.toList = .authority s a →
    Url.settled l.toList = true → Url.plain (Url.afterAt a) →
    url.originOf l = some ⟨String.ofList s, some (String.ofList (Url.afterAt a)), none⟩
  origin_appendPair : ∀ (u : url.Url) (name value : String), url.origin (url.appendPair u name value) = url.origin u
  originOf_asStr : ∀ u : url.Url, url.originOf (url.asStr u) = some (url.origin u)

namespace Url

/-! ## 4. What parsing the front looks at -/

theorem lower_ok {c : Char} (h : isSchemeChar c = true) :
    isSchemeChar (lower c) = true ∧ isAlpha (lower c) = isAlpha c := by
  -- a scheme character is ASCII, and there are only 128 of those
  have hc : c.toNat < 128 := by
    simp only [isSchemeChar, isAlpha, Bool.or_eq_true, Bool.and_eq_true, decide_eq_true_eq,
      beq_iff_eq] at h
    rcases h with (((h | h) | h) | h) | h
    · omega
    · omega
    · subst h; decide
    · subst h; decide
    · subst h; decide
  have key : ∀ n : Fin 128, isSchemeChar (Char.ofNat n) = true →
      isSchemeChar (lower (Char.ofNat n)) = true ∧
        isAlpha (lower (Char.ofNat n)) = isAlpha (Char.ofNat n) := by decide
  have := key ⟨c.toNat, hc⟩
  rw [Char.ofNat_toNat] at this
  exact this h

theorem validScheme_iff {s : List Char} :
    validScheme s = true ↔ s.head?.any isAlpha = true ∧ ∀ c ∈ s, isSchemeChar c = true := by
  cases s with
  | nil => simp [validScheme]
  | cons c cs =>
    simp only [validScheme, Bool.and_eq_true, List.all_eq_true, List.head?_cons, Option.any_some,
      List.mem_cons, forall_eq_or_imp]
    constructor
    · rintro ⟨h1, h2⟩
      exact ⟨h1, by simp [isSchemeChar, h1], h2⟩
    · rintro ⟨h1, -, h2⟩
      exact ⟨h1, h2⟩

theorem splitScheme_eq_some {t s r : List Char} :
    splitScheme t = some (s, r) ↔ ∃ s₀, validScheme s₀ = true ∧ s = s₀.map lower ∧ t = s₀ ++ ':' :: r := by
  constructor
  · intro h
    unfold splitScheme at h
    split at h
    · rename_i rest hrest
      split at h
      · rename_i hv
        rw [Option.some.injEq, Prod.mk.injEq] at h
        obtain ⟨rfl, rfl⟩ := h
        exact ⟨_, hv, rfl, by rw [← hrest, List.takeWhile_append_dropWhile]⟩
      · exact absurd h (by simp)
    · exact absurd h (by simp)
  · rintro ⟨s₀, hv, rfl, rfl⟩
    have hall := (validScheme_iff.mp hv).2
    have hcolon : isSchemeChar ':' = false := by decide
    have htake : (s₀ ++ ':' :: r).takeWhile isSchemeChar = s₀ := by
      rw [List.takeWhile_append_of_pos hall, List.takeWhile_cons, hcolon]; simp
    have hdrop : (s₀ ++ ':' :: r).dropWhile isSchemeChar = ':' :: r := by
      rw [List.dropWhile_append_of_pos hall, List.dropWhile_cons, hcolon]; simp
    simp only [splitScheme, hdrop, htake, hv, if_true]

/-- What is not dropped from the end keeps everything before it. -/
theorem rdropWhile_append_cons {p : Char → Bool} {x : Char} (hx : p x = false) (a b : List Char) :
    (a ++ x :: b).rdropWhile p = a ++ x :: b.rdropWhile p := by
  induction b using List.reverseRecOn with
  | nil =>
    rw [List.rdropWhile_nil, List.rdropWhile_concat_neg]
    simp [hx]
  | append_singleton b y ih =>
    have hassoc : a ++ x :: (b ++ [y]) = (a ++ x :: b) ++ [y] := by simp
    by_cases hy : p y = true
    · rw [hassoc, List.rdropWhile_concat_pos _ _ _ hy, List.rdropWhile_concat_pos _ _ _ hy, ih]
    · rw [hassoc, List.rdropWhile_concat_neg _ _ _ hy, List.rdropWhile_concat_neg _ _ _ hy, hassoc]

/-- Appending to a text appends to what counts of it. -/
theorem squeeze_append {l : List Char} (hl : squeeze l ≠ []) (m : List Char) :
    squeeze (l ++ m) = squeeze l ++ m.filter fun c => !isTabOrNewline c := by
  unfold squeeze at hl ⊢
  rw [List.filter_append, List.dropWhile_append]
  rw [if_neg (by simpa using hl)]

theorem squeeze_append_nil {l : List Char} (hl : squeeze l = []) (m : List Char) :
    squeeze (l ++ m) = squeeze m := by
  unfold squeeze at hl ⊢
  rw [List.filter_append, List.dropWhile_append, if_pos (by simpa using hl)]

/-- The head of a text whose scheme is there. -/
theorem head_of_splitScheme {l s r : List Char} (h : splitScheme (squeeze l) = some (s, r)) :
    head l = .of s (r.rdropWhile isC0) := by
  obtain ⟨s₀, hv, rfl, ht⟩ := splitScheme_eq_some.mp h
  have hcolon : isC0 ':' = false := by decide
  have hsplit : splitScheme (clean l) = some (s₀.map lower, r.rdropWhile isC0) :=
    splitScheme_eq_some.mpr ⟨s₀, hv, rfl, by rw [clean, ht, rdropWhile_append_cons hcolon]⟩
  rw [head, headOf, hsplit]

theorem splitScheme_append {l s r : List Char} (h : splitScheme (squeeze l) = some (s, r)) (m : List Char) :
    splitScheme (squeeze (l ++ m)) = some (s, r ++ m.filter fun c => !isTabOrNewline c) := by
  obtain ⟨s₀, hv, rfl, ht⟩ := splitScheme_eq_some.mp h
  have hne : squeeze l ≠ [] := by
    rw [ht]
    exact List.append_ne_nil_of_right_ne_nil _ (List.cons_ne_nil _ _)
  refine splitScheme_eq_some.mpr ⟨s₀, hv, rfl, ?_⟩
  rw [squeeze_append hne, ht, List.append_assoc, List.cons_append]

/-! ## 5. A head that is settled -/

/-- A list that meets a stop is what comes before the first one, the stop and a rest. -/
theorem exists_stop {p : Char → Bool} {l : List Char} (h : l.any p = true) :
    ∃ a d q, l = a ++ d :: q ∧ (∀ c ∈ a, p c = false) ∧ p d = true := by
  induction l with
  | nil => simp at h
  | cons x l ih =>
    cases hx : p x with
    | true => exact ⟨[], x, l, rfl, by simp, hx⟩
    | false =>
      obtain ⟨a, d, q, rfl, ha, hd⟩ := ih (by simpa [hx] using h)
      refine ⟨x :: a, d, q, rfl, ?_, hd⟩
      rintro c (_ | ⟨_, hc⟩)
      · exact hx
      · exact ha c hc

theorem takeWhile_stop {p : Char → Bool} {a q : List Char} {d : Char} (ha : ∀ c ∈ a, p c = false)
    (hd : p d = true) : (a ++ d :: q).takeWhile (fun c => !p c) = a := by
  rw [List.takeWhile_append_of_pos (fun c hc => by simp [ha c hc]), List.takeWhile_cons]
  simp [hd]

theorem isDelim_not_isC0 {sp : Bool} {d : Char} (hd : isDelim sp d = true) : isC0 d = false := by
  simp only [isDelim, Bool.or_eq_true, Bool.and_eq_true, beq_iff_eq] at hd
  rcases hd with ((rfl | rfl) | rfl) | ⟨-, rfl⟩ <;> decide

/-- In a special scheme a settled text has met the end of its authority behind its slashes. -/
theorem exists_authority_special {r : List Char} (h : (r.dropWhile isSlash).any (isDelim true) = true) :
    ∃ x d q a, r = x ++ d :: q ∧ isC0 d = false ∧ ∀ q',
      ((x ++ d :: q').dropWhile isSlash).takeWhile (fun c => !isDelim true c) = a ∧
        ((x ++ d :: q').dropWhile isSlash).any (isDelim true) = true := by
  obtain ⟨a, d, q, heq, ha, hd⟩ := exists_stop h
  have hr : r = (r.takeWhile isSlash ++ a) ++ d :: q := by
    rw [List.append_assoc, ← heq, List.takeWhile_append_dropWhile]
  refine ⟨_, d, q, a, hr, isDelim_not_isC0 hd, fun q' => ?_⟩
  have hslashes : ∀ c ∈ r.takeWhile isSlash, isSlash c = true :=
    List.all_eq_true.mp List.all_takeWhile
  have hstart : (a ++ d :: q').dropWhile isSlash = a ++ d :: q' := by
    cases a with
    | nil =>
      -- the slashes are all before it
      have hnot : isSlash d = false := by
        have hne : r.dropWhile isSlash ≠ [] := by rw [heq]; exact List.cons_ne_nil _ _
        have hhead := List.head_dropWhile_not isSlash hne
        simpa [heq] using hhead
      rw [List.nil_append, List.dropWhile_cons_of_neg (by simp [hnot])]
    | cons c a =>
      have hc := ha c List.mem_cons_self
      have hnot : isSlash c = false := by
        simp only [isDelim, Bool.or_eq_false_iff, Bool.true_and] at hc
        simp [isSlash, hc.1.1.1, hc.2]
      rw [List.cons_append, List.dropWhile_cons_of_neg (by simp [hnot])]
  rw [List.append_assoc, List.dropWhile_append_of_pos hslashes, hstart]
  exact ⟨takeWhile_stop ha hd, List.any_eq_true.mpr ⟨d, by simp, hd⟩⟩

/-- Without `//` behind its colon, a scheme that is not special has no authority. -/
theorem of_eq_rootless {s r : List Char} (hfile : s ≠ "file".toList) (hspecial : special s = false)
    (hr : ¬ ['/', '/'] <+: r) : Head.of s r = .rootless s := by
  unfold Head.of
  rw [if_neg hfile, if_neg (by simp [hspecial])]
  split
  · rename_i q
    exact absurd ⟨q, rfl⟩ hr
  · rfl

/-- What can never get `//` in front, whatever follows. -/
theorem not_slashes_prefix {r : List Char} (h : r ≠ []) (h' : r ≠ ['/']) (hr : ¬ ['/', '/'] <+: r)
    (m : List Char) : ¬ ['/', '/'] <+: r ++ m := by
  match r, h, h', hr with
  | [c], _, h', _ =>
    rintro ⟨q, hq⟩
    exact h' (by rw [← (List.cons.inj hq).1])
  | c :: d :: r, _, _, hr =>
    simp only [List.cons_append, List.cons_prefix_cons, List.nil_prefix, and_true] at hr ⊢
    exact hr

/-- **A settled head stays**, whatever follows, and stays settled. -/
theorem of_append_of_settled {s r : List Char} (h : settledAfter s r = true) (m : List Char) :
    Head.of s ((r ++ m).rdropWhile isC0) = Head.of s r ∧ settledAfter s (r ++ m) = true := by
  by_cases hfile : s = "file".toList
  · simp [settledAfter, hfile] at h
  by_cases hspecial : special s = true
  · simp only [settledAfter, if_neg hfile, if_pos hspecial] at h
    obtain ⟨x, d, q, a, rfl, hd, hall⟩ := exists_authority_special h
    rw [List.append_assoc, List.cons_append, rdropWhile_append_cons hd]
    simp only [Head.of, settledAfter, if_neg hfile, if_pos hspecial, (hall _).1, (hall _).2, and_self]
  rw [Bool.not_eq_true] at hspecial
  by_cases hslashes : ['/', '/'] <+: r
  · obtain ⟨r, rfl⟩ := hslashes
    simp only [settledAfter, if_neg hfile, hspecial, Bool.false_eq_true, if_false, List.cons_append,
      List.nil_append] at h
    obtain ⟨a, d, q, rfl, ha, hd⟩ := exists_stop h
    have hassoc : (['/', '/'] ++ (a ++ d :: q)) ++ m = (['/', '/'] ++ a) ++ d :: (q ++ m) := by simp
    rw [hassoc, rdropWhile_append_cons (isDelim_not_isC0 hd)]
    simp only [Head.of, settledAfter, if_neg hfile, hspecial, Bool.false_eq_true, if_false, List.cons_append,
      List.nil_append, takeWhile_stop ha hd, true_and]
    exact List.any_eq_true.mpr ⟨d, by simp, hd⟩
  · have hne : r ≠ [] ∧ r ≠ ['/'] := by
      constructor <;> rintro rfl <;> simp [settledAfter, hspecial] at h
    have hmore := not_slashes_prefix hne.1 hne.2 hslashes m
    have hprefix : ¬ ['/', '/'] <+: (r ++ m).rdropWhile isC0 :=
      fun hp => hmore (hp.trans (List.rdropWhile_prefix _ _))
    refine ⟨by rw [of_eq_rootless hfile hspecial hprefix, of_eq_rootless hfile hspecial hslashes], ?_⟩
    unfold settledAfter
    rw [if_neg hfile, if_neg (by simp [hspecial])]
    split
    · rename_i hnil
      exact absurd (List.append_eq_nil_iff.mp hnil).1 hne.1
    · rename_i hone
      rcases List.append_eq_singleton_iff.mp hone with h | h
      · exact absurd h.1 hne.1
      · exact absurd h.1 hne.2
    · rename_i q hq
      exact absurd ⟨q, hq.symm⟩ hmore
    · rfl

/-- Whatever is appended to a settled text, its head is the same, and it is settled. -/
theorem head_append_of_settled {l : List Char} (h : settled l = true) (m : List Char) :
    head (l ++ m) = head l ∧ settled (l ++ m) = true := by
  unfold settled at h
  split at h
  · exact absurd h (by simp)
  · rename_i s r hs
    have hmore := of_append_of_settled h (m.filter fun c => !isTabOrNewline c)
    have hnone := of_append_of_settled h []
    rw [List.append_nil] at hnone
    rw [head_of_splitScheme (splitScheme_append hs m), head_of_splitScheme hs, hmore.1, hnone.1, settled,
      splitScheme_append hs m]
    exact ⟨rfl, hmore.2⟩

/-- The beginning of a scheme is one. -/
theorem validScheme_of_append {a b : List Char} (h : validScheme (a ++ b) = true) (ha : a ≠ []) :
    validScheme a = true := by
  rw [validScheme_iff] at h ⊢
  obtain ⟨c, a, rfl⟩ := List.exists_cons_of_ne_nil ha
  exact ⟨h.1, fun d hd => h.2 d (List.mem_append_left _ hd)⟩

/-- Whatever is appended to a dead text, it gets no scheme. -/
theorem head_append_of_dead {l : List Char} (h : dead l = true) (m : List Char) :
    head (l ++ m) = .relative := by
  simp only [dead, Bool.and_eq_true, Bool.not_eq_true', List.isEmpty_eq_false_iff, Option.isNone_iff_eq_none] at h
  obtain ⟨⟨hsplit, hne⟩, hscheme⟩ := h
  cases hs : splitScheme (clean (l ++ m)) with
  | none => rw [head, headOf, hs]
  | some sr =>
    obtain ⟨s, r⟩ := sr
    obtain ⟨s₀, hv, -, ht⟩ := splitScheme_eq_some.mp hs
    obtain ⟨q, hq⟩ := List.rdropWhile_prefix isC0 (squeeze (l ++ m))
    rw [← clean, ht, squeeze_append hne, List.append_assoc, List.cons_append] at hq
    -- the dead text ends inside the scheme, or has the scheme
    rcases List.append_eq_append_iff.mp hq with ⟨x, hx, hrest⟩ | ⟨x, hx, -⟩
    · rcases x with _ | ⟨c, x⟩
      · rw [List.append_nil] at hx
        rw [hx, hv] at hscheme
        cases hscheme
      · obtain ⟨rfl, -⟩ := List.cons.inj hrest
        rw [splitScheme_eq_some.mpr ⟨s₀, hv, rfl, hx⟩] at hsplit
        cases hsplit
    · rw [validScheme_of_append (hx ▸ hv) hne] at hscheme
      cases hscheme

/-! ## 6. A head that is open -/

theorem afterAt_append (t : List Char) {h : List Char} (hat : '@' ∉ h) :
    afterAt (t ++ '@' :: h) = h := by
  have hall : ∀ c ∈ h.reverse, (decide (c ≠ '@')) = true := by
    intro c hc
    refine decide_eq_true fun e => hat ?_
    rw [← e]; exact List.mem_reverse.mp hc
  rw [afterAt, List.reverse_append, List.reverse_cons, List.append_assoc,
    List.takeWhile_append_of_pos hall]
  simp

theorem afterAt_eq_self {h : List Char} (hat : '@' ∉ h) : afterAt h = h := by
  have hall : ∀ c ∈ h.reverse, (decide (c ≠ '@')) = true := by
    intro c hc
    refine decide_eq_true fun e => hat ?_
    rw [← e]; exact List.mem_reverse.mp hc
  have htake : (h.reverse ++ []).takeWhile (fun c => decide (c ≠ '@')) = h.reverse ++ [] :=
    List.takeWhile_append_of_pos hall
  rw [List.append_nil] at htake
  rw [afterAt, htake, List.reverse_reverse]

/-- Appending what begins and goes on with characters that count. -/
theorem squeeze_append_text (l : List Char) {c : Char} {y : List Char} (hc : isC0 c = false)
    (hy : ∀ d ∈ c :: y, isTabOrNewline d = false) : squeeze (l ++ c :: y) = squeeze l ++ c :: y := by
  have hfilter : (c :: y).filter (fun c => !isTabOrNewline c) = c :: y :=
    List.filter_eq_self.mpr fun d hd => by simp [hy d hd]
  by_cases hl : squeeze l = []
  · rw [squeeze_append_nil hl, hl, List.nil_append, squeeze, hfilter, List.dropWhile_cons_of_neg (by simp [hc])]
  · rw [squeeze_append hl, hfilter]

/-- The head of a text that is settled behind its colon. -/
theorem head_of_settledAfter {l s r : List Char} (hs : splitScheme (squeeze l) = some (s, r))
    (hsettled : settledAfter s r = true) : head l = .of s r ∧ settled l = true := by
  have hkeeps := (of_append_of_settled hsettled []).1
  rw [List.append_nil] at hkeeps
  rw [head_of_splitScheme hs, hkeeps, settled, hs]
  exact ⟨rfl, hsettled⟩

/-- No special scheme, and not `file`, ends in an `x`. -/
theorem not_special_concat_x (t : List Char) :
    t ++ ['x'] ≠ "file".toList ∧ special (t ++ ['x']) = false := by
  have hlast : ∀ w : List Char, w.getLast? ≠ some 'x' → t ++ ['x'] ≠ w := by
    rintro w hw rfl
    exact hw (by simp)
  have hends : ∀ w ∈ ["http", "https", "ws", "wss", "ftp"], w.toList.getLast? ≠ some 'x' := by decide
  refine ⟨hlast _ (by decide), ?_⟩
  simp only [special, List.any_eq_false, beq_iff_eq]
  exact fun w hw heq => hlast w.toList (hends w hw) heq.symm

theorem mem_plain {h : List Char} (hplain : plain h) {c : Char} (hc : c ∈ h) :
    isTabOrNewline c = false ∧ c ≠ '@' ∧ ∀ sp, isDelim sp c = false := by
  obtain ⟨hlow, hhigh⟩ := hplain.2 c hc
  have key : ∀ d : Char, d.toNat < 97 → c ≠ d := by
    rintro d hd rfl
    omega
  simp [isTabOrNewline, isDelim, key '\t' (by decide), key '\n' (by decide), key '\r' (by decide),
    key '@' (by decide), key '/' (by decide), key '?' (by decide), key '#' (by decide), key '\\' (by decide)]

/-- Behind `//` an authority runs to the next slash, in a scheme that is not special. -/
theorem of_root {s a : List Char} (hfile : s ≠ "file".toList) (hspecial : special s = false)
    (ha : ∀ c ∈ a, isDelim false c = false) :
    Head.of s ('/' :: '/' :: (a ++ ['/'])) = .authority s a ∧ settledAfter s ('/' :: '/' :: (a ++ ['/'])) = true := by
  have hslash : isDelim false '/' = true := by decide
  unfold Head.of settledAfter
  simp only [if_neg hfile, hspecial, Bool.false_eq_true, if_false, takeWhile_stop ha hslash, true_and]
  exact List.any_eq_true.mpr ⟨'/', by simp, hslash⟩

/-- In a special scheme the user information can still be ended, and a host follows. -/
theorem of_special {s r h : List Char} (hspecial : special s = true)
    (hopen : (r.dropWhile isSlash).any (isDelim true) = false) (hh : ∀ c ∈ h, isDelim true c = false) :
    Head.of s (r ++ '@' :: (h ++ ['/'])) = .authority s (r.dropWhile isSlash ++ '@' :: h) ∧
      settledAfter s (r ++ '@' :: (h ++ ['/'])) = true := by
  have hfile : s ≠ "file".toList := by
    rintro rfl
    exact absurd hspecial (by decide)
  have hslash : isDelim true '/' = true := by decide
  have hdrop : (r ++ '@' :: (h ++ ['/'])).dropWhile isSlash =
      (r.dropWhile isSlash ++ '@' :: h) ++ '/' :: [] := by
    rw [List.dropWhile_append]
    split
    · rename_i hnil
      rw [List.isEmpty_iff.mp hnil, List.dropWhile_cons_of_neg (by decide), List.nil_append, List.cons_append]
    · rw [List.append_assoc, List.cons_append]
  have hauthority : ∀ c ∈ r.dropWhile isSlash ++ '@' :: h, isDelim true c = false := by
    intro c hc
    rcases List.mem_append.mp hc with hc | hc
    · simpa using List.any_eq_false.mp hopen c hc
    · rcases List.mem_cons.mp hc with rfl | hc
      · decide
      · exact hh c hc
  unfold Head.of settledAfter
  simp only [if_neg hfile, if_pos hspecial, hdrop, takeWhile_stop hauthority hslash, true_and]
  exact List.any_eq_true.mpr ⟨'/', by simp, hslash⟩

/-- Text that is neither settled nor dead can be extended to a URL with any plain host: finish the scheme, or end
the user information with `@`, and write the host. -/
theorem exists_head_of_open {l : List Char} (hopen : settled l = false) (hdead : dead l = false)
    (hfile : isFile l = false) {h : List Char} (hplain : plain h) :
    ∃ y s a, head (l ++ y) = .authority s a ∧ settled (l ++ y) = true ∧ afterAt a = h := by
  have htext : ∀ c ∈ h ++ ['/'], isTabOrNewline c = false := by
    intro c hc
    rcases List.mem_append.mp hc with hc | hc
    · exact (mem_plain hplain hc).1
    · rw [List.mem_singleton.mp hc]; decide
  have hat : '@' ∉ h := fun hm => (mem_plain hplain hm).2.1 rfl
  have hdelim : ∀ sp, ∀ c ∈ h, isDelim sp c = false := fun sp c hc => (mem_plain hplain hc).2.2 sp
  cases hs : splitScheme (squeeze l) with
  | none =>
    -- the scheme is not finished: make it one that nobody has
    have hscheme : validScheme (squeeze l ++ ['x']) = true := by
      have hstart : squeeze l = [] ∨ validScheme (squeeze l) = true := by
        simpa [dead, hs, or_iff_not_imp_left] using hdead
      rcases hstart with hnil | hvalid
      · rw [hnil]; decide
      · obtain ⟨hfirst, hall⟩ := validScheme_iff.mp hvalid
        refine validScheme_iff.mpr ⟨?_, fun c hc => ?_⟩
        · cases hl : squeeze l with
          | nil => simp [hl] at hfirst
          | cons c t => simpa [hl] using hfirst
        · rcases List.mem_append.mp hc with hc | hc
          · exact hall c hc
          · rw [List.mem_singleton.mp hc]; decide
    have hsplit : splitScheme (squeeze (l ++ 'x' :: ':' :: '/' :: '/' :: (h ++ ['/']))) =
        some ((squeeze l).map lower ++ ['x'], '/' :: '/' :: (h ++ ['/'])) := by
      refine splitScheme_eq_some.mpr ⟨squeeze l ++ ['x'], hscheme, ?_, ?_⟩
      · rw [List.map_append]; rfl
      · rw [squeeze_append_text l (by decide) ?_]
        · simp
        · intro d hd
          simp only [List.mem_cons] at hd
          rcases hd with rfl | rfl | rfl | rfl | hd <;> first | decide | exact htext d hd
    obtain ⟨hnotFile, hnotSpecial⟩ := not_special_concat_x ((squeeze l).map lower)
    have hroot := of_root hnotFile hnotSpecial (hdelim false)
    obtain ⟨hhead, hsettled⟩ := head_of_settledAfter hsplit hroot.2
    exact ⟨_, _, h, hhead.trans hroot.1, hsettled, afterAt_eq_self hat⟩
  | some sr =>
    obtain ⟨s, r⟩ := sr
    have hnotFile : s ≠ "file".toList := by simpa [isFile, hs] using hfile
    have hnotSettled : settledAfter s r = false := by simpa [settled, hs] using hopen
    -- what is appended counts, so it ends up behind the rest
    have hextend : ∀ {c : Char} {y a : List Char}, isC0 c = false → (∀ d ∈ c :: y, isTabOrNewline d = false) →
        Head.of s (r ++ c :: y) = .authority s a ∧ settledAfter s (r ++ c :: y) = true → afterAt a = h →
        ∃ y s a, head (l ++ y) = .authority s a ∧ settled (l ++ y) = true ∧ afterAt a = h := by
      intro c y a hc hy hof ha
      have hsplit := splitScheme_append hs (c :: y)
      rw [List.filter_eq_self.mpr fun d hd => by simp [hy d hd]] at hsplit
      obtain ⟨hhead, hsettled⟩ := head_of_settledAfter hsplit hof.2
      exact ⟨_, _, a, hhead.trans hof.1, hsettled, ha⟩
    have hatText : ∀ d ∈ '@' :: (h ++ ['/']), isTabOrNewline d = false := by
      rintro d (_ | ⟨_, hd⟩)
      · decide
      · exact htext d hd
    cases hspecial : special s with
    | true =>
      have hopen' : (r.dropWhile isSlash).any (isDelim true) = false := by
        unfold settledAfter at hnotSettled
        rwa [if_neg hnotFile, if_pos hspecial] at hnotSettled
      exact hextend (by decide) hatText (of_special hspecial hopen' (hdelim true)) (afterAt_append _ hat)
    | false =>
      unfold settledAfter at hnotSettled
      rw [if_neg hnotFile, if_neg (by simp [hspecial])] at hnotSettled
      split at hnotSettled
      · -- neither of the two slashes has come
        refine hextend (c := '/') (y := '/' :: (h ++ ['/'])) (by decide) ?_
          (of_root hnotFile hspecial (hdelim false)) (afterAt_eq_self hat)
        intro d hd
        simp only [List.mem_cons] at hd
        rcases hd with rfl | rfl | hd <;> first | decide | exact htext d hd
      · refine hextend (c := '/') (y := h ++ ['/']) (by decide) ?_
          (of_root hnotFile hspecial (hdelim false)) (afterAt_eq_self hat)
        intro d hd
        simp only [List.mem_cons] at hd
        rcases hd with rfl | hd <;> first | decide | exact htext d hd
      · rename_i r'
        have hauthority : ∀ c ∈ r' ++ '@' :: h, isDelim false c = false := by
          intro c hc
          rcases List.mem_append.mp hc with hc | hc
          · simpa using List.any_eq_false.mp hnotSettled c hc
          · rcases List.mem_cons.mp hc with rfl | hc
            · decide
            · exact hdelim false c hc
        have hroot := of_root hnotFile hspecial hauthority
        rw [List.append_assoc, List.cons_append] at hroot
        exact hextend (by decide) hatText hroot (afterAt_append _ hat)
      · cases hnotSettled

theorem plain_of_all {h : List Char} (hne : h ≠ [])
    (hall : (h.all fun c => 97 ≤ c.toNat ∧ c.toNat ≤ 122) = true) : plain h :=
  ⟨hne, fun c hc => of_decide_eq_true (List.all_eq_true.mp hall c hc)⟩

/-- Some plain host is not in the list: one longer than all of it. -/
theorem exists_plain_not_mem (l : List String) : ∃ h, plain h ∧ String.ofList h ∉ l := by
  obtain ⟨n, hn⟩ : ∃ n, ∀ h ∈ l, h.toList.length ≤ n := by
    induction l with
    | nil => exact ⟨0, by simp⟩
    | cons a l ih =>
      obtain ⟨n, hn⟩ := ih
      refine ⟨max a.toList.length n, fun h hh => ?_⟩
      rcases List.mem_cons.mp hh with rfl | hh
      · exact le_max_left _ _
      · exact (hn h hh).trans (le_max_right _ _)
  refine ⟨List.replicate (n + 1) 'a', ⟨by simp, fun c hc => ?_⟩, fun hmem => ?_⟩
  · rw [List.eq_of_mem_replicate hc]
    decide
  · have hlength := hn _ hmem
    rw [String.toList_ofList, List.length_replicate] at hlength
    omega

/-- The rules about `file` never come into a text that is settled. -/
theorem head_ne_file_of_settled {l : List Char} (h : settled l = true) (rest : List Char) : head l ≠ .file rest := by
  unfold settled at h
  split at h
  · exact absurd h (by simp)
  · rename_i s r hs
    have hnotFile : s ≠ "file".toList := by
      rintro rfl
      simp [settledAfter] at h
    rw [head_of_splitScheme hs, Head.of.eq_def, if_neg hnotFile]
    split
    · nofun
    · split <;> nofun

end Url

namespace LawfulUrl

variable {url : UrlCrate}

/-- **What is appended to a settled text does not change where it leads**, or whether it is a URL. -/
theorem originOf_append (hurl : LawfulUrl url) {text : String} (hsettled : Url.settled text.toList = true)
    (rest : String) : url.originOf (text ++ rest) = url.originOf text := by
  obtain ⟨hhead, hstays⟩ := Url.head_append_of_settled hsettled rest.toList
  rw [← String.toList_append] at hhead hstays
  cases h : Url.head text.toList with
  | relative => rw [hurl.relative h, hurl.relative (hhead.trans h)]
  | rootless s => rw [hurl.rootless h, hurl.rootless (hhead.trans h)]
  | authority s a => exact hurl.authority (hhead.trans h) h hstays hsettled
  | file r => exact absurd h (Url.head_ne_file_of_settled hsettled r)

/-- What is appended to a dead text does not make it a URL. -/
theorem originOf_append_of_dead (hurl : LawfulUrl url) {text : String} (hdead : Url.dead text.toList = true)
    (rest : String) : url.originOf (text ++ rest) = none := by
  refine hurl.relative ?_
  rw [String.toList_append]
  exact Url.head_append_of_dead hdead rest.toList

/-- Any other text can be made a URL of any plain host. -/
theorem exists_originOf_of_open (hurl : LawfulUrl url) {text : String} (hopen : Url.settled text.toList = false)
    (hdead : Url.dead text.toList = false) (hfile : Url.isFile text.toList = false) {h : List Char}
    (hplain : Url.plain h) : ∃ rest origin, url.originOf (text ++ rest) = some origin ∧
      origin.host = some (String.ofList h) := by
  obtain ⟨y, s, a, hhead, hsettled, rfl⟩ := Url.exists_head_of_open hopen hdead hfile hplain
  have htext : (text ++ String.ofList y).toList = text.toList ++ y := by
    rw [String.toList_append, String.toList_ofList]
  rw [← htext] at hhead hsettled
  exact ⟨String.ofList y, _, hurl.host hhead hsettled hplain, rfl⟩

end LawfulUrl

/-! ## 6. The parameters of an `http` URL -/

namespace Url

/-- ASCII bytes, read as text. -/
def asciiText (bs : List UInt8) : List Char := bs.map fun b => Char.ofNat b.toNat

theorem encode_asciiText {bs : List UInt8} (h : ∀ b ∈ bs, b.toNat < 0x80) :
    Utf8.encode (String.ofList (asciiText bs)) = bs := by
  have hchar : ∀ b ∈ bs, (Char.ofNat b.toNat).toNat = b.toNat := by
    intro b hb
    exact Utf8.toNat_ofNat_of_valid (Or.inl (Nat.lt_trans (h b hb) (by decide)))
  have hascii : ∀ c ∈ (String.ofList (asciiText bs)).toList, c.toNat < 0x80 := by
    intro c hc
    rw [String.toList_ofList, asciiText] at hc
    obtain ⟨b, hb, rfl⟩ := List.mem_map.mp hc
    rw [hchar b hb]
    exact h b hb
  rw [Utf8.encode_ascii hascii, String.toList_ofList, asciiText, List.map_map]
  conv_rhs => rw [← List.map_id bs]
  refine List.map_congr_left fun b hb => ?_
  show UInt8.ofNat (Char.ofNat b.toNat).toNat = b
  rw [hchar b hb, UInt8.ofNat_toNat]

/-- Parameters, as they stand in a query. -/
def pairsText (pairs : List (String × String)) : String := String.ofList (asciiText (Form.serialize pairs))

theorem pairsText_ne_empty {pairs : List (String × String)} (h : pairs ≠ []) : pairsText pairs ≠ "" := by
  intro hempty
  have hnil := congrArg String.toList hempty
  rw [pairsText, String.toList_ofList, asciiText] at hnil
  exact Form.serialize_ne_nil h (List.map_eq_nil_iff.mp hnil)

/-- A query with one more parameter. -/
def addPair (query : Option String) (pair : String) : String :=
  match query with
  | none => pair
  | some q => if q = "" then pair else q ++ "&" ++ pair

/-- One more parameter. -/
theorem pairsText_append_singleton {pairs : List (String × String)} (h : pairs ≠ []) (p : String × String) :
    pairsText (pairs ++ [p]) = pairsText pairs ++ "&" ++ pairsText [p] := by
  have hamp : "&" = String.ofList ['&'] := rfl
  rw [pairsText, Form.serialize_append_singleton h, pairsText, pairsText, hamp, ← String.ofList_append,
    ← String.ofList_append, asciiText, List.map_append, List.map_cons, List.append_assoc]
  rfl

end Url

/-- An `http` or `https` URL. -/
def UrlCrate.IsHttp (url : UrlCrate) (u : url.Url) : Prop := url.scheme u = "http" ∨ url.scheme u = "https"

/-- **What is assumed of the crate about `http` URLs**, and of a host name that it takes as it is.  A path that was
parsed has been normalised, and is read as itself behind any host; what is written out is read as what it was; and a
parameter is appended to the query and to nothing else. -/
structure LawfulHttp (url : UrlCrate) (host : String) : Prop where
  rebase : ∀ {u : url.Url}, url.IsHttp u → ∃ v, url.parse ("https://" ++ host ++ url.path u) = some v ∧
    url.IsHttp v ∧ url.hostStr v = some host ∧ url.path v = url.path u ∧ url.query v = none
  parse_asStr : ∀ {u : url.Url}, url.IsHttp u → url.parse (url.asStr u) = some u
  keeps_appendPair : ∀ (u : url.Url) (name value : String),
    url.scheme (url.appendPair u name value) = url.scheme u ∧
      url.hostStr (url.appendPair u name value) = url.hostStr u ∧
      url.path (url.appendPair u name value) = url.path u
  query_appendPair : ∀ (u : url.Url) (name value : String), url.query (url.appendPair u name value) =
    some (Url.addPair (url.query u) (Url.pairsText [(name, value)]))

namespace LawfulHttp

variable {url : UrlCrate} {host : String}

/-- Parameters change the query only. -/
theorem keeps_appendPairs (hurl : LawfulHttp url host) (u : url.Url) (pairs : List (String × String)) :
    url.scheme (url.appendPairs u pairs) = url.scheme u ∧
      url.hostStr (url.appendPairs u pairs) = url.hostStr u ∧ url.path (url.appendPairs u pairs) = url.path u := by
  induction pairs generalizing u with
  | nil => exact ⟨rfl, rfl, rfl⟩
  | cons p pairs ih =>
    obtain ⟨hscheme, hhost, hpath⟩ := hurl.keeps_appendPair u p.1 p.2
    obtain ⟨hscheme', hhost', hpath'⟩ := ih (url.appendPair u p.1 p.2)
    exact ⟨hscheme'.trans hscheme, hhost'.trans hhost, hpath'.trans hpath⟩

/-- The query of a URL that had none. -/
theorem query_appendPairs (hurl : LawfulHttp url host) {u : url.Url} (hquery : url.query u = none)
    {pairs : List (String × String)} (hne : pairs ≠ []) :
    url.query (url.appendPairs u pairs) = some (Url.pairsText pairs) := by
  induction pairs using List.reverseRecOn with
  | nil => exact absurd rfl hne
  | append_singleton pairs p ih =>
    rw [UrlCrate.appendPairs, List.foldl_append, List.foldl_cons, List.foldl_nil, ← UrlCrate.appendPairs,
      hurl.query_appendPair]
    by_cases hpairs : pairs = []
    · subst hpairs
      rw [UrlCrate.appendPairs, List.foldl_nil, hquery]
      rfl
    · rw [ih hpairs, Url.addPair, if_neg (Url.pairsText_ne_empty hpairs), Url.pairsText_append_singleton hpairs]

/-- **A URL with parameters, behind a host**: written out and read again, it has the host, the path and the
parameters. -/
theorem reread (hurl : LawfulHttp url host) {u : url.Url} (hu : url.IsHttp u) {pairs : List (String × String)}
    (hne : pairs ≠ []) : ∃ v, url.parse ("https://" ++ host ++ url.path u) = some v ∧
      ∃ w, url.parse (url.asStr (url.appendPairs v pairs)) = some w ∧ url.hostStr w = some host ∧
        url.path w = url.path u ∧ url.query w = some (Url.pairsText pairs) := by
  obtain ⟨v, hv, hhttp, hhost, hpath, hquery⟩ := hurl.rebase hu
  obtain ⟨hscheme, hhost', hpath'⟩ := hurl.keeps_appendPairs v pairs
  have hhttp' : url.IsHttp (url.appendPairs v pairs) := by
    rw [UrlCrate.IsHttp, hscheme]
    exact hhttp
  exact ⟨v, hv, _, hurl.parse_asStr hhttp', hhost'.trans hhost, hpath'.trans hpath,
    hurl.query_appendPairs hquery hne⟩

end LawfulHttp

end Picoshift
