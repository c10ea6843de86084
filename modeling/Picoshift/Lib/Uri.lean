/-
# The URIs of the `http` crate

A `Uri` is read from one of four forms: `*`, an origin form that begins with `/`, an absolute form with a scheme,
and an authority alone.  The reader is stricter than a URL parser in some places and laxer in others: a
port need not be a number, a path may have characters that should be encoded, and a URI has at most 65534
bytes.

What is of interest here is the path with its query.  `pathText` is how `path_and_query` writes it, and
`pathText_cases` says what it can be: `*`, or a text that is a path again and begins with `/` or, behind an
authority without a path, with `?`.  Such a text can be read behind an authority of its own
(`isSome_parse_absolute`), and by itself unless it begins with `?` (`isSome_parse_pathLike`).
-/
import Mathlib.Data.List.Basic
import Mathlib.Data.List.Count

namespace Picoshift

/-- A URI: its scheme, and the texts of its authority and of its path and query. -/
structure Uri where
  scheme : Option (List Char)
  authority : List Char
  pathAndQuery : List Char
  deriving DecidableEq, Repr

namespace Uri

/-! ## 1. Characters -/

/-- How many bytes a text has. -/
def byteLen : List Char → Nat
  | [] => 0
  | c :: s => c.utf8Size + byteLen s

/-- `MAX_LEN`. -/
def maxLen : Nat := 65534

/-- `SCHEME_CHARS`, but for the colon. -/
def isSchemeChar (c : Char) : Bool := c.isAlphanum || ['+', '-', '.', '~'].contains c

/-- `URI_CHARS`, but for those that mean something in an authority. -/
def isPlainChar (c : Char) : Bool :=
  c.isAlphanum || ['!', '$', '&', Char.ofNat 0x27, '(', ')', '*', '+', ',', '-', '.', ';', '=', '_', '~'].contains c

/-- What ends an authority. -/
def isEnd (c : Char) : Bool := c == '/' || c == '?' || c == '#'

/-- The characters of a path, with those that should be encoded but are let through. -/
def isPathChar (c : Char) : Bool :=
  let n := c.toNat
  n == 0x21 || (0x24 ≤ n && n ≤ 0x3b) || n == 0x3d || (0x40 ≤ n && n ≤ 0x5f) || (0x61 ≤ n && n ≤ 0x7a) ||
    n == 0x7c || n == 0x7e || 0x7f ≤ n || n == 0x22 || n == 0x7b || n == 0x7d

/-- The characters of a query. -/
def isQueryChar (c : Char) : Bool :=
  let n := c.toNat
  n == 0x21 || (0x24 ≤ n && n ≤ 0x3b) || n == 0x3d || (0x3f ≤ n && n ≤ 0x7e) || 0x7f ≤ n

/-! ## 2. The readers -/

/-- The text of a scheme in front of `://`, and what follows. -/
def readScheme : List Char → Option (List Char × List Char)
  | ':' :: '/' :: '/' :: s => some ([], s)
  | c :: s => if isSchemeChar c then (readScheme s).map fun (scheme, s) => (c :: scheme, s) else none
  | [] => none

/-- `Scheme2::parse`: the scheme if there is one, and what follows; `none` if it is too long. -/
def parseScheme (s : List Char) : Option (Option (List Char) × List Char) :=
  if (s.take 7).map Char.toLower = ['h', 't', 't', 'p', ':', '/', '/'] then
    some (some ['h', 't', 't', 'p'], s.drop 7)
  else if (s.take 8).map Char.toLower = ['h', 't', 't', 'p', 's', ':', '/', '/'] then
    some (some ['h', 't', 't', 'p', 's'], s.drop 8)
  else if byteLen s ≤ 3 then some (none, s)
  else
    match readScheme s with
    | none => some (none, s)
    | some (scheme, rest) => if 64 < scheme.length then none else some (some scheme, rest)

/-- What `Authority::parse` keeps on its way. -/
structure Scan where
  colons : Nat
  opened : Bool
  closed : Bool
  percent : Bool
  deriving DecidableEq, Repr

/-- One character of an authority. -/
def Scan.step (st : Scan) (c : Char) : Option Scan :=
  if c = ':' then if 8 ≤ st.colons then none else some { st with colons := st.colons + 1 }
  else if c = '[' then if st.percent || st.opened then none else some { st with opened := true }
  else if c = ']' then
    if !st.opened || st.closed then none else some { st with closed := true, colons := 0, percent := false }
  else if c = '@' then some { st with colons := 0, percent := false }
  else if c = '%' then some { st with percent := true }
  else if isPlainChar c then some st
  else none

/-- The loop of `Authority::parse`: what it kept, the authority and what follows. -/
def Scan.run (st : Scan) : List Char → Option (Scan × List Char × List Char)
  | [] => some (st, [], [])
  | c :: s =>
    if isEnd c then some (st, [], c :: s)
    else (st.step c).bind fun st => (st.run s).map fun (st, authority, rest) => (st, c :: authority, rest)

/-- The checks behind the loop. -/
def Scan.ok (st : Scan) (authority : List Char) : Bool :=
  st.opened == st.closed && decide (st.colons ≤ 1) && authority.getLast? != some '@' && !st.percent

/-- `Authority::parse`: the authority, which may be empty, and what follows. -/
def parseAuthority (s : List Char) : Option (List Char × List Char) :=
  (Scan.run ⟨0, false, false, false⟩ s).bind fun (st, authority, rest) =>
    if st.ok authority then some (authority, rest) else none

/-- A query, up to a fragment. -/
def readQuery : List Char → Option (List Char)
  | [] => some []
  | c :: s =>
    if c = '#' then some []
    else if isQueryChar c then (readQuery s).map (c :: ·) else none

/-- `PathAndQuery::from_shared`. -/
def readPath : List Char → Option (List Char)
  | [] => some []
  | c :: s =>
    if c = '?' then (readQuery s).map (c :: ·)
    else if c = '#' then some []
    else if isPathChar c then (readPath s).map (c :: ·) else none

/-- `parse_full`. -/
def parseFull (s : List Char) : Option Uri :=
  (parseScheme s).bind fun (scheme, s) =>
  (parseAuthority s).bind fun (authority, rest) =>
  match scheme with
  | none => if rest = [] then some ⟨none, authority, []⟩ else none
  | some scheme =>
    if authority = [] then none
    else (readPath rest).map fun path => ⟨some scheme, authority, path⟩

/-- `Uri::from_shared`. -/
def parse (s : List Char) : Option Uri :=
  if maxLen < byteLen s then none
  else
  match s with
  | [] => none
  | ['*'] => some ⟨none, [], ['*']⟩
  | '/' :: s => (readPath ('/' :: s)).map fun path => ⟨none, [], path⟩
  | s => parseFull s

/-- `uri.path_and_query().map(|pq| pq.as_str()).unwrap_or("/")`. -/
def pathText (u : Uri) : List Char :=
  if u.scheme.isSome || u.authority.isEmpty then
    if u.pathAndQuery = [] then ['/'] else u.pathAndQuery
  else ['/']

/-! ## 3. Lengths -/

theorem byteLen_cons (c : Char) (s : List Char) : byteLen (c :: s) = c.utf8Size + byteLen s := rfl

theorem byteLen_append (a b : List Char) : byteLen (a ++ b) = byteLen a + byteLen b := by
  induction a with
  | nil => exact (Nat.zero_add _).symm
  | cons c a ih => rw [List.cons_append, byteLen_cons, byteLen_cons, ih, Nat.add_assoc]

theorem byteLen_le_of_suffix {a b : List Char} (h : a <:+ b) : byteLen a ≤ byteLen b := by
  obtain ⟨t, rfl⟩ := h
  rw [byteLen_append]
  omega

theorem readScheme_suffix {s scheme rest : List Char} (h : readScheme s = some (scheme, rest)) : rest <:+ s := by
  fun_induction readScheme s generalizing scheme with
  | case1 s =>
    cases h
    exact ⟨[':', '/', '/'], rfl⟩
  | case2 c s _ _ ih =>
    obtain ⟨⟨scheme', rest'⟩, hread, heq⟩ := Option.map_eq_some_iff.mp h
    cases heq
    exact (ih hread).trans (List.suffix_cons c s)
  | case3 => cases h
  | case4 => cases h

theorem parseScheme_suffix {s rest : List Char} {scheme : Option (List Char)}
    (h : parseScheme s = some (scheme, rest)) : rest <:+ s := by
  rw [parseScheme] at h
  split at h
  · cases h
    exact List.drop_suffix 7 s
  split at h
  · cases h
    exact List.drop_suffix 8 s
  split at h
  · cases h
    exact List.suffix_refl s
  split at h
  · cases h
    exact List.suffix_refl s
  · rename_i hread
    split at h
    · cases h
    · cases h
      exact readScheme_suffix hread

/-! ## 4. Authorities -/

/-- What follows an authority is nothing, or begins with what ends one. -/
theorem Scan.run_rest {st st' : Scan} {s authority rest : List Char}
    (h : st.run s = some (st', authority, rest)) :
    authority ++ rest = s ∧ ∀ c, rest.head? = some c → isEnd c = true := by
  induction s generalizing st authority with
  | nil =>
    cases h
    exact ⟨rfl, fun c hc => by cases hc⟩
  | cons c s ih =>
    rw [Scan.run] at h
    split at h
    · rename_i hc
      cases h
      refine ⟨rfl, fun d hd => ?_⟩
      rw [List.head?_cons, Option.some.injEq] at hd
      rwa [← hd]
    · obtain ⟨st₁, -, h⟩ := Option.bind_eq_some_iff.mp h
      obtain ⟨⟨st₂, authority₂, rest₂⟩, hrun, heq⟩ := Option.map_eq_some_iff.mp h
      cases heq
      obtain ⟨happend, hhead⟩ := ih hrun
      exact ⟨by rw [List.cons_append, happend], hhead⟩

theorem parseAuthority_rest {s authority rest : List Char} (h : parseAuthority s = some (authority, rest)) :
    authority ++ rest = s ∧ ∀ c, rest.head? = some c → isEnd c = true := by
  obtain ⟨⟨st, authority', rest'⟩, hrun, h⟩ := Option.bind_eq_some_iff.mp h
  dsimp only at h
  split at h
  · cases h
    exact Scan.run_rest hrun
  · cases h

/-- One character more. -/
theorem Scan.run_cons {st st' : Scan} {c : Char} (hend : isEnd c = false) (hstep : st.step c = some st')
    (s : List Char) : st.run (c :: s) =
      (st'.run s).map fun (st, authority, rest) => (st, c :: authority, rest) := by
  rw [Scan.run, hend, hstep]
  rfl

/-- The characters of a host, with the colons. -/
def isHostChar (c : Char) : Bool := isPlainChar c || c == ':'

theorem isEnd_of_isHostChar {c : Char} (h : isHostChar c = true) : isEnd c = false := by
  rw [← Bool.not_eq_true]
  intro hend
  simp only [isEnd, Bool.or_eq_true, beq_iff_eq] at hend
  rcases hend with (rfl | rfl) | rfl <;> exact absurd h (by decide)

theorem Scan.step_plain {c : Char} (h : isPlainChar c = true) (st : Scan) : st.step c = some st := by
  have hne : ∀ d, isPlainChar d = false → c ≠ d := by
    rintro d hd rfl
    rw [h] at hd
    cases hd
  rw [Scan.step, if_neg (hne ':' (by decide)), if_neg (hne '[' (by decide)), if_neg (hne ']' (by decide)),
    if_neg (hne '@' (by decide)), if_neg (hne '%' (by decide)), if_pos h]

/-- A run of the characters of a host: only the colons are counted. -/
theorem Scan.run_host {st : Scan} {a : List Char} (h : ∀ c ∈ a, isHostChar c = true)
    (hcolons : st.colons + a.count ':' ≤ 8) (s : List Char) : st.run (a ++ s) =
      (Scan.run { st with colons := st.colons + a.count ':' } s).map fun (st, authority, rest) =>
        (st, a ++ authority, rest) := by
  induction a generalizing st with
  | nil => simp
  | cons c a ih =>
    rw [List.forall_mem_cons] at h
    have hend := isEnd_of_isHostChar h.1
    by_cases hc : c = ':'
    · subst hc
      rw [List.count_cons_self] at hcolons ⊢
      have hstep : st.step ':' = some { st with colons := st.colons + 1 } := by
        rw [Scan.step, if_pos rfl, if_neg (by omega)]
      rw [List.cons_append, Scan.run_cons hend hstep, ih h.2 (by dsimp only; omega), Option.map_map]
      dsimp only
      rw [Nat.add_assoc, Nat.add_comm 1]
      rfl
    · have hplain : isPlainChar c = true := by
        rcases Bool.or_eq_true_iff.mp h.1 with hplain | hcolon
        · exact hplain
        · exact absurd (eq_of_beq hcolon) hc
      rw [List.count_cons_of_ne hc] at hcolons ⊢
      rw [List.cons_append, Scan.run_cons hend (Scan.step_plain hplain st), ih h.2 hcolons, Option.map_map]
      rfl

/-! ## 5. Paths -/

/-- A query that was read is read again as it is. -/
theorem readQuery_again {s q : List Char} (h : readQuery s = some q) :
    readQuery q = some q ∧ byteLen q ≤ byteLen s := by
  induction s generalizing q with
  | nil =>
    cases h
    exact ⟨rfl, Nat.le_refl _⟩
  | cons c s ih =>
    rw [readQuery] at h
    split at h
    · cases h
      exact ⟨rfl, Nat.zero_le _⟩
    · rename_i hfragment
      split at h
      · rename_i hc
        obtain ⟨q', hread, rfl⟩ := Option.map_eq_some_iff.mp h
        obtain ⟨hagain, hle⟩ := ih hread
        refine ⟨?_, ?_⟩
        · rw [readQuery, if_neg hfragment, if_pos hc, hagain]
          rfl
        · rw [byteLen_cons, byteLen_cons]
          omega
      · cases h

/-- So is a path; it begins as the text it was read from, unless that is a fragment. -/
theorem readPath_again {s p : List Char} (h : readPath s = some p) :
    readPath p = some p ∧ byteLen p ≤ byteLen s ∧ (p ≠ [] → p.head? = s.head?) := by
  induction s generalizing p with
  | nil =>
    cases h
    exact ⟨rfl, Nat.le_refl _, fun _ => rfl⟩
  | cons c s ih =>
    rw [readPath] at h
    split at h
    · rename_i hquery
      obtain ⟨q, hread, rfl⟩ := Option.map_eq_some_iff.mp h
      obtain ⟨hagain, hle⟩ := readQuery_again hread
      refine ⟨?_, ?_, fun _ => rfl⟩
      · rw [readPath, if_pos hquery, hagain]
        rfl
      · rw [byteLen_cons, byteLen_cons]
        omega
    · rename_i hquery
      split at h
      · cases h
        exact ⟨rfl, Nat.zero_le _, fun hne => absurd rfl hne⟩
      · rename_i hfragment
        split at h
        · rename_i hc
          obtain ⟨p', hread, rfl⟩ := Option.map_eq_some_iff.mp h
          obtain ⟨hagain, hle, -⟩ := ih hread
          refine ⟨?_, ?_, fun _ => rfl⟩
          · rw [readPath, if_neg hquery, if_neg hfragment, if_pos hc, hagain]
            rfl
          · rw [byteLen_cons, byteLen_cons]
            omega
        · cases h

/-- What the path of a URI can be. -/
inductive PathLike (p : List Char) : Prop where
  | star (h : p = ['*'])
  | slash (h : p.head? = some '/') (again : readPath p = some p)
  | query (h : p.head? = some '?') (again : readPath p = some p)

/-- A path that may be missing. -/
theorem pathLike_of_readPath {rest path : List Char} (hread : readPath rest = some path)
    (hrest : ∀ c, rest.head? = some c → isEnd c = true) (hlen : byteLen rest ≤ maxLen) :
    PathLike (if path = [] then ['/'] else path) ∧ byteLen (if path = [] then ['/'] else path) ≤ maxLen := by
  obtain ⟨hagain, hle, hfirst⟩ := readPath_again hread
  cases path with
  | nil => exact ⟨.slash rfl rfl, by decide⟩
  | cons c path =>
    rw [if_neg (List.cons_ne_nil c path)]
    refine ⟨?_, by omega⟩
    have hhead := (hfirst (List.cons_ne_nil c path)).symm
    have hc := hrest c hhead
    simp only [isEnd, Bool.or_eq_true, beq_iff_eq] at hc
    rcases hc with (rfl | rfl) | rfl
    · exact .slash rfl hagain
    · exact .query rfl hagain
    · -- a fragment leaves no path
      rw [readPath, if_neg (by decide), if_pos rfl] at hagain
      cases hagain

/-- **The path of a URI** is `*`, or can be read as a path again and begins with `/` or `?`; and it is not
too long. -/
theorem pathText_cases {s : List Char} {u : Uri} (h : parse s = some u) :
    PathLike (pathText u) ∧ byteLen (pathText u) ≤ maxLen := by
  unfold parse at h
  split at h
  · cases h
  rename_i hlen
  split at h
  · cases h
  · cases h
    exact ⟨.star rfl, by decide⟩
  · -- the origin form
    obtain ⟨path, hread, rfl⟩ := Option.map_eq_some_iff.mp h
    refine pathLike_of_readPath hread (fun c hc => ?_) (Nat.le_of_not_lt hlen)
    obtain rfl : '/' = c := Option.some.inj hc
    rfl
  · obtain ⟨⟨scheme, s₁⟩, hscheme, h⟩ := Option.bind_eq_some_iff.mp h
    obtain ⟨⟨authority, rest⟩, hauthority, h⟩ := Option.bind_eq_some_iff.mp h
    obtain ⟨happend, hhead⟩ := parseAuthority_rest hauthority
    dsimp only at h
    split at h
    · -- an authority alone has no path
      split at h
      · cases h
        have htext : pathText ⟨none, authority, []⟩ = ['/'] := by cases authority <;> rfl
        rw [htext]
        exact ⟨.slash rfl rfl, by decide⟩
      · cases h
    · split at h
      · cases h
      · obtain ⟨path, hread, rfl⟩ := Option.map_eq_some_iff.mp h
        have hsuffix : rest <:+ _ := List.IsSuffix.trans ⟨authority, happend⟩ (parseScheme_suffix hscheme)
        exact pathLike_of_readPath hread hhead
          (Nat.le_trans (byteLen_le_of_suffix hsuffix) (Nat.le_of_not_lt hlen))

/-! ## 6. Reading a path again -/

/-- A URI that does not begin like the two short forms. -/
theorem parse_eq_parseFull {s : List Char} (hlen : byteLen s ≤ maxLen) (hne : s ≠ []) (hstar : s ≠ ['*'])
    (hslash : s.head? ≠ some '/') : parse s = parseFull s := by
  unfold parse
  rw [if_neg (Nat.not_lt.mpr hlen)]
  split
  · exact absurd rfl hne
  · exact absurd rfl hstar
  · exact absurd rfl hslash
  · rfl

/-- A query by itself is no URI. -/
theorem parse_query (s : List Char) : parse ('?' :: s) = none := by
  by_cases hlen : byteLen ('?' :: s) ≤ maxLen
  · rw [parse_eq_parseFull hlen (by simp) (by simp) (by simp), parseFull]
    have hread : readScheme ('?' :: s) = none := by
      rw [readScheme, if_neg (by decide)]
      simp
    have hscheme : parseScheme ('?' :: s) = some (none, '?' :: s) := by
      rw [parseScheme, if_neg (by simp), if_neg (by simp), hread]
      split <;> rfl
    rw [hscheme, Option.bind_some]
    rfl
  · unfold parse
    rw [if_pos (Nat.lt_of_not_le hlen)]

/-- **The path of a URI is a URI by itself**, unless it begins with its query. -/
theorem isSome_parse_pathLike {p : List Char} (h : PathLike p) (hlen : byteLen p ≤ maxLen) :
    (parse p).isSome ↔ p.head? ≠ some '?' := by
  cases h with
  | star h =>
    subst h
    decide
  | slash h again =>
    cases p with
    | nil => cases h
    | cons c p =>
      obtain rfl : c = '/' := Option.some.inj h
      unfold parse
      rw [if_neg (Nat.not_lt.mpr hlen)]
      simp [again]
  | query h again =>
    cases p with
    | nil => cases h
    | cons c p =>
      obtain rfl : c = '?' := Option.some.inj h
      rw [parse_query]
      simp

/-- A text that is an authority, also in front of more: what is kept behind it, and that it is enough. -/
structure Authority (a : List Char) : Prop where
  run : ∃ colons brackets, colons ≤ 1 ∧ ∀ s, Scan.run ⟨0, false, false, false⟩ (a ++ s) =
    (Scan.run ⟨colons, brackets, brackets, false⟩ s).map fun (st, authority, rest) => (st, a ++ authority, rest)
  ne_nil : a ≠ []
  last : a.getLast? ≠ some '@'

/-- No character of a host is an `@`. -/
theorem at_not_mem {a : List Char} (h : ∀ c ∈ a, isHostChar c = true) : '@' ∉ a :=
  fun hmem => absurd (h '@' hmem) (by decide)

/-- A host with at most one colon, in front of its port. -/
theorem authority_host {a : List Char} (h : ∀ c ∈ a, isHostChar c = true) (hcolons : a.count ':' ≤ 1)
    (hne : a ≠ []) : Authority a := by
  refine ⟨⟨a.count ':', false, hcolons, fun s => ?_⟩, hne, fun hlast => ?_⟩
  · rw [Scan.run_host h (by dsimp only; omega), Nat.zero_add]
  · exact at_not_mem h (List.mem_of_getLast? hlast)

/-- A host with colons is put into brackets: those up to the closing one are forgotten behind it. -/
theorem authority_brackets {host port : List Char} (hhost : ∀ c ∈ host, isHostChar c = true)
    (hcolons : host.count ':' ≤ 8) (hport : ∀ c ∈ port, isHostChar c = true) (hone : port.count ':' ≤ 1) :
    Authority ('[' :: (host ++ ']' :: port)) := by
  have hopens : Scan.step ⟨0, false, false, false⟩ '[' = some ⟨0, true, false, false⟩ := rfl
  have hcloses : ∀ colons, Scan.step ⟨colons, true, false, false⟩ ']' = some ⟨0, true, true, false⟩ :=
    fun _ => rfl
  refine ⟨⟨port.count ':', true, hone, fun s => ?_⟩, List.cons_ne_nil _ _, fun hlast => ?_⟩
  · rw [List.cons_append, List.append_assoc, List.cons_append, Scan.run_cons (by decide) hopens,
      Scan.run_host hhost (by dsimp only; omega), Scan.run_cons (by decide) (hcloses _),
      Scan.run_host hport (by dsimp only; omega), Nat.zero_add]
    simp only [Option.map_map]
    congr 1
    funext ⟨st, authority, rest⟩
    simp
  · have hmem := List.mem_of_getLast? hlast
    rw [List.mem_cons, List.mem_append, List.mem_cons] at hmem
    rcases hmem with hmem | hmem | hmem | hmem
    · exact absurd hmem (by decide)
    · exact at_not_mem hhost hmem
    · exact absurd hmem (by decide)
    · exact at_not_mem hport hmem

/-- **The path of a URI can be put behind an authority**, as long as the whole is not too long. -/
theorem isSome_parse_absolute {a p : List Char} (ha : Authority a) (h : PathLike p) :
    (parse (['h', 't', 't', 'p', ':', '/', '/'] ++ (a ++ p))).isSome ↔
      byteLen (['h', 't', 't', 'p', ':', '/', '/'] ++ (a ++ p)) ≤ maxLen := by
  by_cases hlen : byteLen (['h', 't', 't', 'p', ':', '/', '/'] ++ (a ++ p)) ≤ maxLen
  · refine iff_of_true ?_ hlen
    obtain ⟨⟨colons, brackets, hcolons, hrun⟩, hne, hlast⟩ := ha
    have hscheme : parseScheme (['h', 't', 't', 'p', ':', '/', '/'] ++ (a ++ p)) =
        some (some ['h', 't', 't', 'p'], a ++ p) := by
      rw [parseScheme, if_pos (by simp)]
      rfl
    -- the authority ends with the text, or takes the star with it
    obtain ⟨b, rest, hauthority, hrest⟩ : ∃ b rest, parseAuthority (a ++ p) = some (a ++ b, rest) ∧
        (readPath rest).isSome := by
      have hend : ∀ c, p.head? = some c → isEnd c = true → parseAuthority (a ++ p) = some (a ++ [], p) := by
        intro c hc hend
        cases p with
        | nil => cases hc
        | cons d p =>
          obtain rfl : d = c := Option.some.inj hc
          rw [parseAuthority, hrun, Scan.run, if_pos hend]
          simp [Scan.ok, hcolons, hlast]
      cases h with
      | star h =>
        refine ⟨['*'], [], ?_, rfl⟩
        rw [h, parseAuthority, hrun, Scan.run_cons (by decide) (Scan.step_plain (by decide) _), Scan.run]
        simp [Scan.ok, hcolons]
      | slash h again => exact ⟨[], p, hend _ h rfl, Option.isSome_of_eq_some again⟩
      | query h again => exact ⟨[], p, hend _ h rfl, Option.isSome_of_eq_some again⟩
    rw [parse_eq_parseFull hlen (by simp) (by simp) (by simp), parseFull, hscheme, Option.bind_some]
    dsimp only
    rw [hauthority, Option.bind_some]
    dsimp only
    rw [if_neg (by simp [hne]), Option.isSome_map, hrest]
  · refine iff_of_false ?_ hlen
    unfold parse
    rw [if_pos (Nat.lt_of_not_le hlen)]
    simp

end Uri

end Picoshift
