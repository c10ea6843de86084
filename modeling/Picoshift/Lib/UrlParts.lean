/-
# A URL as its parts

A parser that follows the grammar and nothing else: scheme, authority, path, query and fragment, each as it is
written.  It is what the crate does on texts that need no normalisation, and enough to run the server on concrete
requests.  Two things make it total: a control or a blank inside a text is written as `%`, so that a URL can be
written out again, and a `file` URL has no host.

`Parts.Ok` is what every URL that was parsed satisfies, and it is all that writing one out and reading it again needs
(`parse_asText`).  Hence the parser is lawful (`lawfulUrl_partsCrate`).
-/
import Picoshift.Lib.Url

namespace Picoshift

namespace Url

/-! ## 1. Parts -/

structure Parts where
  scheme : List Char
  authority : Option (List Char)
  path : List Char
  query : Option (List Char)
  fragment : Option (List Char)
  deriving DecidableEq, Repr

/-- What follows the path. -/
def Parts.afterPath (u : Parts) : List Char := u.query.elim [] ('?' :: ·) ++ u.fragment.elim [] ('#' :: ·)

/-- What follows the colon. -/
def Parts.rest (u : Parts) : List Char :=
  u.authority.elim [] (fun a => '/' :: '/' :: a) ++ (u.path ++ u.afterPath)

def Parts.asText (u : Parts) : List Char := u.scheme ++ ':' :: u.rest

/-- The port a scheme stands for. -/
def defaultPort (scheme : List Char) : Option Nat :=
  if scheme = "http".toList ∨ scheme = "ws".toList then some 80
  else if scheme = "https".toList ∨ scheme = "wss".toList then some 443
  else if scheme = "ftp".toList then some 21
  else none

/-- What may not stand in a host name. -/
def forbiddenHost (c : Char) : Bool :=
  isC0 c || c.toNat == 0x7f || ['#', '%', '/', ':', '<', '>', '?', '@', '[', '\\', ']', '^', '|'].contains c

/-- The port behind the `:`; nothing is as good as the default. -/
def parsePort (l : List Char) : Option (Option Nat) :=
  if l = [] then some none else ((Str.digitsL l).filter (· ≤ 65535)).map some

/-- `host:port`, with the host in lower case. -/
def parseHostPort (l : List Char) : Option (List Char × Option Nat) :=
  match l with
  | '[' :: rest =>
    match Str.splitOnceL ']' rest with
    | some (h, []) => some ('[' :: h.map lower ++ [']'], none)
    | some (h, ':' :: p) => (parsePort p).map fun n => ('[' :: h.map lower ++ [']'], n)
    | _ => none
  | _ =>
    let (h, p) := (Str.splitOnceL ':' l).getD (l, [])
    if h = [] || h.any forbiddenHost then none else (parsePort p).map fun n => (h.map lower, n)

def Parts.hostPort (u : Parts) : Option (List Char × Option Nat) :=
  u.authority.bind fun a => parseHostPort (afterAt a)

/-- The port, unless it is the one that the scheme stands for. -/
def Parts.port (u : Parts) : Option Nat :=
  (u.hostPort.bind Prod.snd).filter fun n => defaultPort u.scheme != some n

/-- A URL that can be written out and read again. -/
structure Parts.Ok (u : Parts) : Prop where
  scheme_ok : validScheme u.scheme = true
  lower_ok : u.scheme.map lower = u.scheme
  /-- Without an authority there is nothing that looks like one. -/
  rootless_ok : u.authority = none → special u.scheme = false ∧ (u.scheme = "file".toList ∨ ¬ ['/', '/'] <+: u.path)
  /-- An authority ends where the path begins, and names a host. -/
  authority_ok : ∀ a, u.authority = some a → u.scheme ≠ "file".toList ∧
    (∀ c ∈ a, isDelim (special u.scheme) c = false) ∧ (parseHostPort (afterAt a)).isSome = true ∧
    ((u.path = [] ∧ special u.scheme = false) ∨ ∃ p, u.path = '/' :: p)
  path_ok : ∀ c ∈ u.path, c ≠ '?' ∧ c ≠ '#' ∧ (special u.scheme = true → c ≠ '\\')
  query_ok : ∀ q ∈ u.query, '#' ∉ q
  visible : ∀ c ∈ u.rest, isC0 c = false

/-! ## 2. Parsing -/

/-- A control or a blank, once it has been encoded. -/
def shown (c : Char) : Char := if isC0 c then '%' else c

/-- The authority of what stands behind a colon, and what follows it. -/
def frontOf (s r : List Char) : Option (List Char) × List Char :=
  if s = "file".toList then (none, r)
  else if special s then
    (some ((r.dropWhile isSlash).takeWhile fun c => !isDelim true c),
      (r.dropWhile isSlash).dropWhile fun c => !isDelim true c)
  else
    match r with
    | '/' :: '/' :: r => (some (r.takeWhile fun c => !isDelim false c), r.dropWhile fun c => !isDelim false c)
    | _ => (none, r)

/-- The path of the text behind an authority: a special scheme knows no backslash and no empty path. -/
def pathOf (sp : Bool) (tail : List Char) : List Char :=
  let path := tail.takeWhile fun c => c != '?' && c != '#'
  if sp then
    if path = [] then ['/'] else path.map fun c => if c = '\\' then '/' else c
  else path

def queryOf (tail : List Char) : Option (List Char) :=
  match tail.dropWhile (fun c => c != '?' && c != '#') with
  | '?' :: t => some (t.takeWhile (· != '#'))
  | _ => none

def fragmentOf (tail : List Char) : Option (List Char) :=
  match tail.dropWhile (· != '#') with
  | '#' :: t => some t
  | _ => none

/-- The parts of the text behind the colon of a scheme. -/
def Parts.of (s r : List Char) : Parts where
  scheme := s
  authority := (frontOf s (r.map shown)).1
  path := pathOf (special s) (frontOf s (r.map shown)).2
  query := queryOf (frontOf s (r.map shown)).2
  fragment := fragmentOf (frontOf s (r.map shown)).2

/-- The authority, if there is one, has to name a host. -/
def Parts.hostOk (u : Parts) : Bool := u.authority.all fun a => (parseHostPort (afterAt a)).isSome

def parseParts (l : List Char) : Option Parts :=
  (splitScheme (clean l)).bind fun (s, r) => if (Parts.of s r).hostOk then some (.of s r) else none

/-! ## 3. Writing out and reading again -/

theorem takeWhile_dropWhile_stop {α : Type} {p : α → Bool} {a b : List α} (ha : ∀ c ∈ a, p c = true)
    (hb : ∀ c ∈ b.head?, p c = false) : (a ++ b).takeWhile p = a ∧ (a ++ b).dropWhile p = b := by
  rw [List.dropWhile_append_of_pos ha, List.takeWhile_append_of_pos ha]
  cases b with
  | nil => simp
  | cons c b => simp [hb c (by simp)]

namespace Parts

variable {u : Parts}

theorem afterPath_head (u : Parts) : ∀ c ∈ u.afterPath.head?, c = '?' ∨ c = '#' := by
  unfold afterPath
  cases u.query <;> cases u.fragment <;> simp

/-- What stands behind the authority is taken apart into path, query and fragment. -/
theorem Ok.tail (h : u.Ok) (hpath : u.path = [] → special u.scheme = false) :
    pathOf (special u.scheme) (u.path ++ u.afterPath) = u.path ∧ queryOf (u.path ++ u.afterPath) = u.query ∧
      fragmentOf (u.path ++ u.afterPath) = u.fragment := by
  have hall : ∀ c ∈ u.path, (c != '?' && c != '#') = true := by
    intro c hc
    simp [(h.path_ok c hc).1, (h.path_ok c hc).2.1]
  obtain ⟨htake, hdrop⟩ := takeWhile_dropWhile_stop (b := u.afterPath) hall fun c hc => by
    rcases u.afterPath_head c hc with rfl | rfl <;> decide
  refine ⟨?_, ?_, ?_⟩
  · rw [pathOf, htake]
    cases hsp : special u.scheme with
    | false => rfl
    | true =>
      have hne : u.path ≠ [] := fun hnil => by simp [hpath hnil] at hsp
      simp only [if_true, if_neg hne]
      conv_rhs => rw [← List.map_id u.path]
      exact List.map_congr_left fun c hc => if_neg ((h.path_ok c hc).2.2 hsp)
  · rw [queryOf, hdrop, afterPath]
    cases hq : u.query with
    | none => cases u.fragment <;> rfl
    | some q =>
      have hquery : ∀ c ∈ q, (c != '#') = true := by
        intro c hc
        rw [bne_iff_ne]
        rintro rfl
        exact h.query_ok q hq hc
      have hstop := (takeWhile_dropWhile_stop (b := u.fragment.elim [] ('#' :: ·)) hquery fun c hc => by
        cases hf : u.fragment with
        | none => simp [hf] at hc
        | some f =>
          rw [hf] at hc
          simp only [Option.elim_some, List.head?_cons, Option.mem_some_iff] at hc
          simp [← hc]).1
      simp [hstop]
  · have hnone : ∀ c ∈ u.path ++ u.query.elim [] ('?' :: ·), (c != '#') = true := by
      intro c hc
      rw [bne_iff_ne]
      rintro rfl
      rcases List.mem_append.mp hc with hc | hc
      · exact (h.path_ok _ hc).2.1 rfl
      · cases hq : u.query with
        | none => simp [hq] at hc
        | some q =>
          rw [hq] at hc
          rcases List.mem_cons.mp hc with hc | hc
          · exact absurd hc (by decide)
          · exact h.query_ok q hq hc
    rw [fragmentOf, afterPath, ← List.append_assoc, List.dropWhile_append_of_pos hnone]
    cases u.fragment <;> simp

/-- The text behind the colon is taken apart into the authority and what follows it. -/
theorem Ok.front (h : u.Ok) : frontOf u.scheme u.rest = (u.authority, u.path ++ u.afterPath) := by
  unfold frontOf rest
  cases ha : u.authority with
  | none =>
    obtain ⟨hspecial, hpath⟩ := h.rootless_ok ha
    by_cases hfile : u.scheme = "file".toList
    · rw [if_pos hfile]; rfl
    · rw [if_neg hfile, if_neg (by simp [hspecial])]
      have hslashes : ¬ ['/', '/'] <+: u.path ++ u.afterPath := by
        have hnot := hpath.resolve_left hfile
        have hhead := u.afterPath_head
        have hslash : ∀ q, u.afterPath ≠ '/' :: q := by
          intro q hq
          have := hhead '/' (by rw [hq]; rfl)
          simp at this
        cases hp : u.path with
        | nil =>
          rintro ⟨q, hq⟩
          exact hslash _ hq.symm
        | cons c p =>
          cases p with
          | nil =>
            rintro ⟨q, hq⟩
            exact hslash _ (List.cons.inj hq).2.symm
          | cons d p =>
            rw [hp] at hnot
            simpa [List.cons_prefix_cons] using hnot
      show (match u.path ++ u.afterPath with
        | '/' :: '/' :: r => _
        | _ => _) = _
      split
      · rename_i q hq
        exact absurd ⟨q, hq.symm⟩ hslashes
      · rfl
  | some a =>
    obtain ⟨hfile, hdelim, hhost, hpath⟩ := h.authority_ok a ha
    have htail : ∀ c ∈ (u.path ++ u.afterPath).head?, isDelim (special u.scheme) c = true := by
      intro c hc
      rcases hpath with ⟨hnil, -⟩ | ⟨p, hp⟩
      · rw [hnil, List.nil_append] at hc
        rcases u.afterPath_head c hc with rfl | rfl <;> simp [isDelim]
      · rw [hp] at hc
        obtain rfl : '/' = c := by simpa using hc
        simp [isDelim]
    obtain ⟨htake, hdrop⟩ := takeWhile_dropWhile_stop (p := fun c => !isDelim (special u.scheme) c) (a := a)
      (b := u.path ++ u.afterPath) (fun c hc => by simp [hdelim c hc]) (fun c hc => by simp [htail c hc])
    rw [if_neg hfile]
    cases hspecial : special u.scheme with
    | false =>
      rw [hspecial] at htake hdrop
      simp only [Bool.false_eq_true, if_false, Option.elim_some, List.cons_append, htake, hdrop]
    | true =>
      rw [hspecial] at htake hdrop hdelim
      obtain ⟨c, a, rfl⟩ : ∃ c a', a = c :: a' := by
        cases a with
        | nil => exact absurd hhost (by decide)
        | cons c a => exact ⟨c, a, rfl⟩
      have hslash : isSlash c = false := by
        have hc := hdelim c List.mem_cons_self
        simp only [isDelim, Bool.or_eq_false_iff, Bool.true_and] at hc
        simp [isSlash, hc.1.1.1, hc.2]
      have hslashes : ('/' :: '/' :: (c :: a) ++ (u.path ++ u.afterPath)).dropWhile isSlash =
          (c :: a) ++ (u.path ++ u.afterPath) := by
        simp only [List.cons_append]
        rw [List.dropWhile_cons_of_pos (by decide), List.dropWhile_cons_of_pos (by decide),
          List.dropWhile_cons_of_neg (by simp [hslash])]
      simp only [if_true, Option.elim_some, hslashes, htake, hdrop]

/-- The text behind the colon gives the parts it was put together from. -/
theorem Ok.of_rest (h : u.Ok) : Parts.of u.scheme u.rest = u := by
  have hshown : u.rest.map shown = u.rest := by
    conv_rhs => rw [← List.map_id u.rest]
    exact List.map_congr_left fun c hc => by simp [shown, h.visible c hc]
  have hpath : u.path = [] → special u.scheme = false := by
    intro hnil
    cases ha : u.authority with
    | none => exact (h.rootless_ok ha).1
    | some a =>
      rcases (h.authority_ok a ha).2.2.2 with ⟨-, hspecial⟩ | ⟨p, hp⟩
      · exact hspecial
      · rw [hnil] at hp
        cases hp
  obtain ⟨hpathOf, hqueryOf, hfragmentOf⟩ := h.tail hpath
  unfold Parts.of
  rw [hshown, h.front]
  simp only [hpathOf, hqueryOf, hfragmentOf]

theorem Ok.hostOk (h : u.Ok) : u.hostOk = true := by
  unfold Parts.hostOk
  cases ha : u.authority with
  | none => rfl
  | some a => exact (h.authority_ok a ha).2.2.1

/-- A text in which everything counts is clean. -/
theorem clean_of_visible {l : List Char} (h : ∀ c ∈ l, isC0 c = false) : clean l = l := by
  have htab : ∀ c, isC0 c = false → isTabOrNewline c = false := by
    intro c hc
    by_contra htab
    simp only [isTabOrNewline, Bool.not_eq_false, Bool.or_eq_true, beq_iff_eq] at htab
    rcases htab with (rfl | rfl) | rfl <;> exact absurd hc (by decide)
  have hfilter : l.filter (fun c => !isTabOrNewline c) = l :=
    List.filter_eq_self.mpr fun c hc => by simp [htab c (h c hc)]
  have hdrop : l.dropWhile isC0 = l := Str.dropWhile_eq_self_of_forall h
  rw [clean, squeeze, hfilter, hdrop, List.rdropWhile_eq_self_iff]
  intro hne
  simp [h _ (List.getLast_mem hne)]

theorem isSchemeChar_visible {c : Char} (h : isSchemeChar c = true) : isC0 c = false := by
  by_contra hc
  simp only [isC0, Bool.not_eq_false, decide_eq_true_eq] at hc
  simp only [isSchemeChar, isAlpha, Bool.or_eq_true, Bool.and_eq_true, decide_eq_true_eq, beq_iff_eq] at h
  rcases h with (((h | h) | rfl) | rfl) | rfl
  · omega
  · omega
  all_goals exact absurd hc (by decide)

theorem Ok.splitScheme (h : u.Ok) : splitScheme (clean u.asText) = some (u.scheme, u.rest) := by
  have hvisible : ∀ c ∈ u.asText, isC0 c = false := by
    intro c hc
    rcases List.mem_append.mp hc with hc | hc
    · exact isSchemeChar_visible ((validScheme_iff.mp h.scheme_ok).2 c hc)
    · rcases List.mem_cons.mp hc with rfl | hc
      · decide
      · exact h.visible c hc
  rw [clean_of_visible hvisible]
  exact splitScheme_eq_some.mpr ⟨u.scheme, h.scheme_ok, h.lower_ok.symm, rfl⟩

/-- **A URL that is written out is read as what it was.** -/
theorem Ok.parse_asText (h : u.Ok) : parseParts u.asText = some u := by
  rw [parseParts, h.splitScheme, Option.bind_some]
  simp only [h.of_rest, h.hostOk, if_true]

end Parts

/-! ## 4. What is parsed can be written out -/

theorem isC0_shown (c : Char) : isC0 (shown c) = false := by
  unfold shown
  split
  · decide
  · rename_i hc
    simpa using hc

/-- Where the authority comes from, and what follows it. -/
theorem frontOf_cases (s r : List Char) :
    (frontOf s r = (none, r) ∧ special s = false ∧ (s = "file".toList ∨ ¬ ['/', '/'] <+: r)) ∨
      ∃ a t, frontOf s r = (some a, t) ∧ s ≠ "file".toList ∧ (∀ c ∈ a ++ t, c ∈ r) ∧
        (∀ c ∈ a, isDelim (special s) c = false) ∧ ∀ c ∈ t.head?, isDelim (special s) c = true := by
  have hstops : ∀ (p : Char → Bool) (l : List Char), (∀ c ∈ l.takeWhile (fun c => !p c), p c = false) ∧
      ∀ c ∈ (l.dropWhile fun c => !p c).head?, p c = true := by
    intro p l
    refine ⟨fun c hc => by simpa using List.all_eq_true.mp List.all_takeWhile c hc, fun c hc => ?_⟩
    have hhead := List.head?_dropWhile_not (fun c => !p c) l
    rw [Option.mem_def.mp hc] at hhead
    simpa using hhead
  by_cases hfile : s = "file".toList
  · subst hfile
    exact Or.inl ⟨rfl, by decide, Or.inl rfl⟩
  cases hspecial : special s with
  | true =>
    obtain ⟨htake, hdrop⟩ := hstops (isDelim true) (r.dropWhile isSlash)
    refine Or.inr ⟨_, _, by unfold frontOf; rw [if_neg hfile, if_pos hspecial], hfile, fun c hc => ?_, htake, hdrop⟩
    rw [List.takeWhile_append_dropWhile] at hc
    exact (List.dropWhile_sublist _).subset hc
  | false =>
    by_cases hslashes : ['/', '/'] <+: r
    · obtain ⟨r, rfl⟩ := hslashes
      obtain ⟨htake, hdrop⟩ := hstops (isDelim false) r
      refine Or.inr ⟨_, _, by unfold frontOf; rw [if_neg hfile, if_neg (by simp [hspecial])]; rfl, hfile,
        fun c hc => ?_, htake, hdrop⟩
      rw [List.takeWhile_append_dropWhile] at hc
      exact List.mem_append_right _ hc
    · refine Or.inl ⟨?_, rfl, Or.inr hslashes⟩
      unfold frontOf
      rw [if_neg hfile, if_neg (by simp [hspecial])]
      split
      · rename_i q
        exact absurd ⟨q, rfl⟩ hslashes
      · rfl

theorem pathOf_special (tail : List Char) (h : ∀ c ∈ tail.head?, isDelim true c = true) :
    ∃ p, pathOf true tail = '/' :: p := by
  unfold pathOf
  cases tail with
  | nil => exact ⟨[], rfl⟩
  | cons d t =>
    have hd := h d (by simp)
    simp only [isDelim, Bool.or_eq_true, Bool.true_and, beq_iff_eq] at hd
    rcases hd with ((rfl | rfl) | rfl) | rfl
    · exact ⟨_, by simp; rfl⟩
    · exact ⟨[], by simp⟩
    · exact ⟨[], by simp⟩
    · exact ⟨_, by simp; rfl⟩

theorem pathOf_plain (tail : List Char) (h : ∀ c ∈ tail.head?, isDelim false c = true) :
    pathOf false tail = [] ∨ ∃ p, pathOf false tail = '/' :: p := by
  unfold pathOf
  cases tail with
  | nil => exact Or.inl rfl
  | cons d t =>
    have hd := h d (by simp)
    simp only [isDelim, Bool.or_eq_true, Bool.false_and, beq_iff_eq, Bool.false_eq_true, or_false] at hd
    rcases hd with (rfl | rfl) | rfl
    · exact Or.inr ⟨_, by simp; rfl⟩
    · exact Or.inl (by simp)
    · exact Or.inl (by simp)

/-- A path holds no delimiter of a later part. -/
theorem mem_pathOf {sp : Bool} {tail : List Char} {c : Char} (h : c ∈ pathOf sp tail) :
    c ≠ '?' ∧ c ≠ '#' ∧ (sp = true → c ≠ '\\') ∧ (c ∈ tail ∨ c = '/') := by
  have htake : ∀ d ∈ tail.takeWhile (fun c => c != '?' && c != '#'), d ≠ '?' ∧ d ≠ '#' ∧ d ∈ tail := by
    intro d hd
    have hd' := List.all_eq_true.mp List.all_takeWhile d hd
    simp only [Bool.and_eq_true, bne_iff_ne] at hd'
    exact ⟨hd'.1, hd'.2, (List.takeWhile_sublist _).subset hd⟩
  unfold pathOf at h
  dsimp only at h
  split at h
  · split at h
    · rw [List.mem_singleton.mp h]
      simp
    · obtain ⟨d, hd, rfl⟩ := List.mem_map.mp h
      obtain ⟨h1, h2, hmem⟩ := htake d hd
      split
      · simp
      · rename_i hne
        exact ⟨h1, h2, fun _ => hne, Or.inl hmem⟩
  · rename_i hsp
    obtain ⟨h1, h2, hmem⟩ := htake c h
    exact ⟨h1, h2, fun hs => absurd hs hsp, Or.inl hmem⟩

theorem mem_queryOf {tail q : List Char} (h : queryOf tail = some q) : '#' ∉ q ∧ ∀ c ∈ q, c ∈ tail := by
  unfold queryOf at h
  split at h
  · rename_i t ht
    rw [Option.some.injEq] at h
    subst h
    refine ⟨fun hc => ?_, fun c hc => ?_⟩
    · have := List.all_eq_true.mp List.all_takeWhile _ hc
      simp at this
    · have hmem : c ∈ tail.dropWhile (fun c => c != '?' && c != '#') := by
        rw [ht]
        exact List.mem_cons_of_mem _ ((List.takeWhile_sublist _).subset hc)
      exact (List.dropWhile_sublist _).subset hmem
  · cases h

theorem mem_fragmentOf {tail f : List Char} (h : fragmentOf tail = some f) : ∀ c ∈ f, c ∈ tail := by
  unfold fragmentOf at h
  split at h
  · rename_i t ht
    rw [Option.some.injEq] at h
    subst h
    intro c hc
    have hmem : c ∈ tail.dropWhile (fun c => c != '#') := by
      rw [ht]
      exact List.mem_cons_of_mem _ hc
    exact (List.dropWhile_sublist _).subset hmem
  · cases h

theorem validScheme_lower {s : List Char} (h : validScheme s = true) :
    validScheme (s.map lower) = true := by
  rw [validScheme_iff] at h ⊢
  refine ⟨?_, fun c hc => ?_⟩
  · cases s with
    | nil => exact absurd h.1 (by simp)
    | cons c cs =>
      have hl := lower_ok (h.2 c List.mem_cons_self)
      simpa [hl.2] using h.1
  · obtain ⟨d, hd, rfl⟩ := List.mem_map.mp hc
    exact (lower_ok (h.2 d hd)).1

theorem map_lower_idem (s : List Char) : (s.map lower).map lower = s.map lower := by
  have hl : ∀ c, lower (lower c) = lower c := by
    intro c
    unfold lower
    split_ifs with h h2
    · have hn : (Char.ofNat (c.toNat + 32)).toNat = c.toNat + 32 := by
        have hv : (c.toNat + 32).isValidChar := Or.inl (by omega)
        rw [Char.ofNat, dif_pos hv]; rfl
      rw [hn] at h2
      omega
    · rfl
    · rfl
  rw [List.map_map]
  exact List.map_congr_left fun c _ => hl c

namespace Parts

/-- The parts of any text behind a scheme are in order, if the authority names a host. -/
theorem ok_of {s : List Char} (hvalid : validScheme s = true) (hlower : s.map lower = s) {r : List Char}
    (hhost : (Parts.of s r).hostOk = true) : (Parts.of s r).Ok := by
  have hshown : ∀ c ∈ r.map shown, isC0 c = false := by
    intro c hc
    obtain ⟨d, -, rfl⟩ := List.mem_map.mp hc
    exact isC0_shown d
  have hcases := frontOf_cases s (r.map shown)
  unfold Parts.of Parts.hostOk at *
  generalize r.map shown = r at *
  generalize hfront : frontOf s r = front at *
  obtain ⟨authority, tail⟩ := front
  have htail : ∀ c ∈ tail, c ∈ r := by
    rcases hcases with ⟨heq, -⟩ | ⟨a, t, heq, -, hmem, -⟩
    · intro c hc
      rwa [(Prod.mk.inj heq).2] at hc
    · intro c hc
      rw [(Prod.mk.inj heq).2] at hc
      exact hmem c (List.mem_append_right _ hc)
  refine ⟨hvalid, hlower, ?_, ?_, fun c hc => ?_, fun q hq => (mem_queryOf hq).1, fun c hc => ?_⟩
  · rintro (rfl : authority = none)
    rcases hcases with ⟨heq, hspecial, hroot⟩ | ⟨a, t, heq, -⟩
    · refine ⟨hspecial, hroot.imp_right fun hno hp => hno ?_⟩
      have hprefix : pathOf (special s) tail <+: r := by
        rw [(Prod.mk.inj heq).2, hspecial, pathOf]
        exact List.takeWhile_prefix _
      exact hp.trans hprefix
    · cases (Prod.mk.inj heq).1
  · rintro a (rfl : authority = some a)
    rcases hcases with ⟨heq, -⟩ | ⟨a', t, heq, hfile, -, hdelim, hstop⟩
    · cases (Prod.mk.inj heq).1
    · obtain ⟨ha, rfl⟩ := Prod.mk.inj heq
      obtain rfl := Option.some.inj ha
      refine ⟨hfile, hdelim, hhost, ?_⟩
      cases hspecial : special s with
      | true =>
        rw [hspecial] at hstop
        exact Or.inr (pathOf_special _ hstop)
      | false =>
        rw [hspecial] at hstop
        exact (pathOf_plain _ hstop).imp_left fun hnil => ⟨hnil, rfl⟩
  · exact ⟨(mem_pathOf hc).1, (mem_pathOf hc).2.1, (mem_pathOf hc).2.2.1⟩
  · -- every character comes from the text, or is a delimiter that was put between two parts
    have hauthority : ∀ a, authority = some a → ∀ c ∈ a, c ∈ r := by
      rintro a rfl c hc
      rcases hcases with ⟨heq, -⟩ | ⟨a', t, heq, -, hmem, -⟩
      · cases (Prod.mk.inj heq).1
      · obtain rfl := Option.some.inj (Prod.mk.inj heq).1
        exact hmem c (List.mem_append_left _ hc)
    simp only [Parts.rest, Parts.afterPath, List.mem_append] at hc
    rcases hc with hc | hc | hc | hc
    · cases authority with
      | none => cases hc
      | some a =>
        simp only [Option.elim_some, List.mem_cons] at hc
        rcases hc with rfl | rfl | hc
        · decide
        · decide
        · exact hshown c (hauthority a rfl c hc)
    · rcases (mem_pathOf hc).2.2.2 with hmem | rfl
      · exact hshown c (htail c hmem)
      · decide
    · cases hq : queryOf tail with
      | none => simp [hq] at hc
      | some q =>
        simp only [hq, Option.elim_some, List.mem_cons] at hc
        rcases hc with rfl | hc
        · decide
        · exact hshown c (htail c ((mem_queryOf hq).2 c hc))
    · cases hf : fragmentOf tail with
      | none => simp [hf] at hc
      | some f =>
        simp only [hf, Option.elim_some, List.mem_cons] at hc
        rcases hc with rfl | hc
        · decide
        · exact hshown c (htail c (mem_fragmentOf hf c hc))

/-- What is parsed is in order. -/
theorem ok_of_parseParts {l : List Char} {u : Parts} (h : parseParts l = some u) : u.Ok := by
  obtain ⟨⟨s, r⟩, hsplit, hof⟩ := Option.bind_eq_some_iff.mp h
  obtain ⟨s₀, hvalid, rfl, -⟩ := splitScheme_eq_some.mp hsplit
  dsimp only at hof
  split at hof
  · rename_i hhost
    rw [Option.some.injEq] at hof
    rw [← hof]
    exact ok_of (validScheme_lower hvalid) (map_lower_idem s₀) hhost
  · cases hof

/-- `append_pair`, on the parts. -/
def appendPair (u : Parts) (name value : String) : Parts :=
  let pair := asciiText (Form.encodePair (name, value))
  { u with
    query := match u.query with
      | none => some pair
      | some [] => some pair
      | some q => some (q ++ '&' :: pair) }

/-- Another query, of characters that count. -/
theorem Ok.withQuery {u : Parts} (h : u.Ok) {q : List Char} (hq : ∀ c ∈ q, isC0 c = false ∧ c ≠ '#') :
    Ok { u with query := some q } where
  scheme_ok := h.scheme_ok
  lower_ok := h.lower_ok
  rootless_ok := h.rootless_ok
  authority_ok := h.authority_ok
  path_ok := h.path_ok
  query_ok := by
    intro q' hq' hc
    obtain rfl : q = q' := Option.some.inj hq'
    exact (hq _ hc).2 rfl
  visible := by
    intro c hc
    simp only [rest, afterPath, List.mem_append, Option.elim_some, List.mem_cons] at hc
    have hold := h.visible c
    simp only [rest, afterPath, List.mem_append] at hold
    rcases hc with hc | hc | (rfl | hc) | hc
    · exact hold (Or.inl hc)
    · exact hold (Or.inr (Or.inl hc))
    · decide
    · exact (hq c hc).1
    · exact hold (Or.inr (Or.inr (Or.inr hc)))

theorem mem_asciiText_encodePair {p : String × String} {c : Char}
    (h : c ∈ asciiText (Form.encodePair p)) : isC0 c = false ∧ c ≠ '#' := by
  obtain ⟨b, hb, rfl⟩ := List.mem_map.mp h
  obtain ⟨hlow, hhigh, hne⟩ := Form.mem_encodePair hb
  have hnat : (Char.ofNat b.toNat).toNat = b.toNat :=
    Utf8.toNat_ofNat_of_valid (Or.inl (Nat.lt_trans hhigh (by decide)))
  refine ⟨by simpa [isC0, hnat] using hlow, fun heq => hne ?_⟩
  rw [heq] at hnat
  exact UInt8.toNat_inj.mp hnat.symm

theorem Ok.appendPair {u : Parts} (h : u.Ok) (name value : String) : (u.appendPair name value).Ok := by
  unfold Parts.appendPair
  dsimp only
  split
  · exact h.withQuery fun c hc => mem_asciiText_encodePair hc
  · exact h.withQuery fun c hc => mem_asciiText_encodePair hc
  · rename_i q _ hquery
    refine h.withQuery fun c hc => ?_
    rcases List.mem_append.mp hc with hc | hc
    · have hmem : c ∈ u.rest := by simp [rest, afterPath, hquery, hc]
      exact ⟨h.visible c hmem, fun heq => h.query_ok q hquery (heq ▸ hc)⟩
    · rcases List.mem_cons.mp hc with rfl | hc
      · decide
      · exact mem_asciiText_encodePair hc

end Parts

/-! ## 5. The parser is lawful -/

/-- The URL that a text gives, with what is known of it. -/
def parseOk (text : String) : Option { u : Parts // u.Ok } :=
  match h : parseParts text.toList with
  | some u => some ⟨u, Parts.ok_of_parseParts h⟩
  | none => none

end Url

open Url in
def partsCrate : UrlCrate where
  Url := { u : Parts // u.Ok }
  parse := parseOk
  asStr u := String.ofList u.1.asText
  scheme u := String.ofList u.1.scheme
  hostStr u := u.1.hostPort.map fun hp => String.ofList hp.1
  port u := u.1.port
  path u := String.ofList u.1.path
  query u := u.1.query.map String.ofList
  setPath u path := (parseOk (String.ofList { u.1 with path := path.toList }.asText)).getD u
  setQuery u query := (parseOk (String.ofList { u.1 with query := query.map String.toList }.asText)).getD u
  appendPair u name value := ⟨u.1.appendPair name value, u.2.appendPair name value⟩
  errorUrl := (parseOk "http://localhost/error").get (by decide +kernel)
  parse_errorUrl := (Option.some_get _).symm

namespace Url

/-- The origin that the parts of a URL give. -/
def Parts.origin (u : Parts) : Origin :=
  ⟨String.ofList u.scheme, u.hostPort.map fun hp => String.ofList hp.1, u.port⟩

theorem originOf_partsCrate (text : String) :
    partsCrate.originOf text = (parseParts text.toList).map Parts.origin := by
  have hparse : (parseOk text).map (fun u => u.1.origin) = (parseParts text.toList).map Parts.origin := by
    unfold parseOk
    split
    · rename_i u h
      simp [h]
    · rename_i h
      simp [h]
  exact hparse

/-! ### What a control is written as changes nothing else -/

theorem shown_eq_iff {c d : Char} (hd : isC0 d = false) (hne : d ≠ '%') : shown c = d ↔ c = d := by
  unfold shown
  split
  · rename_i hc
    constructor
    · exact fun h => absurd h.symm hne
    · rintro rfl
      rw [hd] at hc
      cases hc
  · exact Iff.rfl

theorem beq_shown {d : Char} (hd : isC0 d = false) (hne : d ≠ '%') (c : Char) : (shown c == d) = (c == d) := by
  rw [Bool.eq_iff_iff, beq_iff_eq, beq_iff_eq, shown_eq_iff hd hne]

theorem isSlash_shown (c : Char) : isSlash (shown c) = isSlash c := by
  unfold isSlash
  rw [beq_shown (by decide) (by decide), beq_shown (by decide) (by decide)]

theorem isDelim_shown (sp : Bool) (c : Char) : isDelim sp (shown c) = isDelim sp c := by
  unfold isDelim
  rw [beq_shown (by decide) (by decide), beq_shown (by decide) (by decide), beq_shown (by decide) (by decide),
    beq_shown (by decide) (by decide)]

theorem slashes_shown {r : List Char} : ['/', '/'] <+: r.map shown ↔ ['/', '/'] <+: r := by
  match r with
  | [] => simp
  | [c] => simp
  | c :: d :: r =>
    have h : ∀ c, '/' = shown c ↔ '/' = c := by
      intro c
      rw [eq_comm, shown_eq_iff (by decide) (by decide), eq_comm]
    simp [List.cons_prefix_cons, h]

theorem afterAt_map_shown (a : List Char) : afterAt (a.map shown) = (afterAt a).map shown := by
  have hat : (fun c => decide (c ≠ '@')) ∘ shown = fun c => decide (c ≠ '@') := by
    funext c
    simp [shown_eq_iff (c := c) (d := '@') (by decide) (by decide)]
  rw [afterAt, ← List.map_reverse, List.takeWhile_map, hat, ← List.map_reverse, afterAt]

/-- The authority of the head is the authority of the parts. -/
theorem frontOf_of_authority {s r s' a : List Char} (h : Head.of s r = .authority s' a) :
    s' = s ∧ (frontOf s (r.map shown)).1 = some (a.map shown) := by
  have hslash : isSlash ∘ shown = isSlash := funext isSlash_shown
  have hdelim : ∀ sp, (fun c => !isDelim sp c) ∘ shown = fun c => !isDelim sp c :=
    fun sp => funext fun c => by simp [isDelim_shown]
  unfold Head.of at h
  split at h
  · cases h
  rename_i hfile
  split at h
  · rename_i hspecial
    obtain ⟨rfl, rfl⟩ := Head.authority.inj h
    unfold frontOf
    rw [if_neg hfile, if_pos hspecial, List.dropWhile_map, hslash, List.takeWhile_map, hdelim]
    exact ⟨rfl, rfl⟩
  · rename_i hspecial
    split at h
    · rename_i r
      obtain ⟨rfl, rfl⟩ := Head.authority.inj h
      have hcons : ('/' :: '/' :: r).map shown = '/' :: '/' :: r.map shown := rfl
      unfold frontOf
      rw [if_neg hfile, if_neg hspecial, hcons]
      simp only [List.takeWhile_map, hdelim, true_and]
    · cases h

/-- The front of a text with a head other than `relative`. -/
theorem exists_of_head {l : List Char} {hd : Head} (h : head l = hd) (hne : hd ≠ .relative) :
    ∃ s r, splitScheme (clean l) = some (s, r) ∧ Head.of s r = hd := by
  unfold head headOf at h
  split at h
  · exact absurd h.symm hne
  · rename_i s r hs
    exact ⟨s, r, hs, h⟩

/-- The parts of a text with an authority: its origin is that of the authority. -/
theorem originOf_authority {l : String} {s a : List Char} (h : head l.toList = .authority s a) :
    partsCrate.originOf l = (parseHostPort ((afterAt a).map shown)).map fun hp =>
      ⟨String.ofList s, some (String.ofList hp.1), hp.2.filter fun n => defaultPort s != some n⟩ := by
  obtain ⟨s', r, hsplit, hof⟩ := exists_of_head h nofun
  obtain ⟨rfl, hfront⟩ := frontOf_of_authority hof
  rw [originOf_partsCrate, parseParts, hsplit, Option.bind_some]
  simp only [Parts.hostOk, Parts.of, hfront, Option.all_some, afterAt_map_shown]
  cases hhost : parseHostPort ((afterAt a).map shown) with
  | none => simp
  | some hp => simp [Parts.origin, Parts.hostPort, Parts.port, afterAt_map_shown, hhost]

theorem parseHostPort_plain {h : List Char} (hplain : plain h) : parseHostPort h = some (h, none) := by
  have hne : ∀ d : Char, d.toNat < 97 → d ∉ h := fun d hd hmem => by
    have := (hplain.2 d hmem).1
    omega
  have hcolon : Str.splitOnceL ':' h = none := by
    have hnone : ∀ l : List Char, ':' ∉ l → Str.splitOnceL ':' l = none := by
      intro l
      induction l with
      | nil => exact fun _ => rfl
      | cons x l ih =>
        intro hx
        have hxne : x ≠ ':' := fun heq => hx (heq ▸ List.mem_cons_self)
        rw [Str.splitOnceL, if_neg hxne, ih fun hm => hx (List.mem_cons_of_mem _ hm)]
        rfl
    exact hnone h (hne ':' (by decide))
  have hallowed : h.any forbiddenHost = false := by
    rw [List.any_eq_false]
    intro c hc
    obtain ⟨hlow, hhigh⟩ := hplain.2 c hc
    have key : ∀ n : Fin 128, 97 ≤ n.val → n.val ≤ 122 → forbiddenHost (Char.ofNat n) = false := by decide
    have := key ⟨c.toNat, by omega⟩ hlow hhigh
    rw [Char.ofNat_toNat] at this
    simp [this]
  have hlower : h.map lower = h := by
    conv_rhs => rw [← List.map_id h]
    refine List.map_congr_left fun c hc => if_neg fun hupper => ?_
    have := (hplain.2 c hc).1
    omega
  unfold parseHostPort
  split
  · exact absurd List.mem_cons_self (hne '[' (by decide))
  · simp [hcolon, hallowed, hlower, hplain.1, parsePort]

theorem map_shown_plain {h : List Char} (hplain : plain h) : h.map shown = h := by
  conv_rhs => rw [← List.map_id h]
  refine List.map_congr_left fun c hc => if_neg ?_
  have := (hplain.2 c hc).1
  simp only [isC0, decide_eq_true_eq]
  omega

/-- A text whose head has no authority has no host. -/
theorem originOf_rootless {l : String} {s : List Char} (h : head l.toList = .rootless s) :
    partsCrate.originOf l = some ⟨String.ofList s, none, none⟩ := by
  obtain ⟨s', r, hsplit, hof⟩ := exists_of_head h nofun
  have hfront : s' = s ∧ (frontOf s' (r.map shown)).1 = none := by
    unfold Head.of at hof
    split at hof
    · cases hof
    rename_i hfile
    split at hof
    · cases hof
    rename_i hspecial
    split at hof
    · cases hof
    · rename_i hslashes
      have hno : ¬ ['/', '/'] <+: r.map shown := by
        rw [slashes_shown]
        rintro ⟨q, hq⟩
        exact hslashes q hq.symm
      rcases frontOf_cases s' (r.map shown) with ⟨heq, -⟩ | ⟨a, t, heq, -⟩
      · exact ⟨Head.rootless.inj hof, by rw [heq]⟩
      · unfold frontOf at heq
        rw [if_neg hfile, if_neg hspecial] at heq
        split at heq
        · rename_i q hq
          exact absurd ⟨q, hq.symm⟩ hno
        · cases (Prod.mk.inj heq).1
  obtain ⟨rfl, hnone⟩ := hfront
  rw [originOf_partsCrate, parseParts, hsplit, Option.bind_some]
  simp [Parts.hostOk, Parts.of, hnone, Parts.origin, Parts.hostPort, Parts.port]

end Url

theorem lawfulUrl_partsCrate : LawfulUrl partsCrate where
  relative := by
    intro l h
    have hsplit : Url.splitScheme (Url.clean l.toList) = none := by
      cases hs : Url.splitScheme (Url.clean l.toList) with
      | none => rfl
      | some sr =>
        rw [Url.head, Url.headOf, hs] at h
        dsimp only at h
        unfold Url.Head.of at h
        split at h
        · cases h
        · split at h
          · cases h
          · split at h <;> cases h
    rw [Url.originOf_partsCrate, Url.parseParts, hsplit]
    rfl
  rootless := Url.originOf_rootless
  authority h h' _ _ := by rw [Url.originOf_authority h, Url.originOf_authority h']
  host h _ hplain := by
    rw [Url.originOf_authority h, Url.map_shown_plain hplain, Url.parseHostPort_plain hplain]
    rfl
  origin_appendPair u name value := rfl
  originOf_asStr u := by
    rw [Url.originOf_partsCrate]
    show (Url.parseParts (String.ofList u.1.asText).toList).map _ = _
    rw [String.toList_ofList, u.2.parse_asText]
    rfl

namespace Url

/-- The URL that stands for a path behind a host. -/
theorem Parts.Ok.rebase {u : Parts} (h : u.Ok) (hspecial : special u.scheme = true) {host : List Char}
    (hdelim : ∀ c ∈ host, isDelim true c = false ∧ isC0 c = false)
    (hhost : (parseHostPort (afterAt host)).isSome = true) :
    Ok ⟨"https".toList, some host, u.path, none, none⟩ := by
  obtain ⟨a, ha⟩ : ∃ a, u.authority = some a := by
    cases ha : u.authority with
    | none => exact absurd (h.rootless_ok ha).1 (by simp [hspecial])
    | some a => exact ⟨a, rfl⟩
  have hslash : ∃ p, u.path = '/' :: p := by
    rcases (h.authority_ok a ha).2.2.2 with ⟨-, hno⟩ | hslash
    · rw [hspecial] at hno
      cases hno
    · exact hslash
  have hscheme : validScheme "https".toList = true ∧ "https".toList.map lower = "https".toList ∧
      "https".toList ≠ "file".toList := by decide
  refine ⟨hscheme.1, hscheme.2.1, nofun, ?_, fun c hc => ?_, nofun, fun c hc => ?_⟩
  · rintro a' heq
    obtain rfl := Option.some.inj heq
    exact ⟨hscheme.2.2, fun c hc => (hdelim c hc).1, hhost, Or.inr hslash⟩
  · obtain ⟨h1, h2, h3⟩ := h.path_ok c hc
    exact ⟨h1, h2, fun _ => h3 hspecial⟩
  · simp only [rest, afterPath, Option.elim_some, Option.elim_none, List.append_nil, List.mem_append,
      List.mem_cons] at hc
    rcases hc with (rfl | rfl | hc) | hc
    · decide
    · decide
    · exact (hdelim c hc).2
    · exact h.visible c (by simp [rest, hc])

theorem parseOk_asText (u : { u : Parts // u.Ok }) : parseOk (String.ofList u.1.asText) = some u := by
  unfold parseOk
  split
  · rename_i v hv
    rw [String.toList_ofList, u.2.parse_asText, Option.some.injEq] at hv
    exact congrArg some (Subtype.ext hv.symm)
  · rename_i hv
    rw [String.toList_ofList, u.2.parse_asText] at hv
    cases hv

theorem Parts.query_appendPair (u : Parts) (name value : String) :
    (u.appendPair name value).query.map String.ofList =
      some (addPair (u.query.map String.ofList) (pairsText [(name, value)])) := by
  unfold Parts.appendPair
  cases hq : u.query with
  | none => rfl
  | some q =>
    cases q with
    | nil => rfl
    | cons c q =>
      have hne : String.ofList (c :: q) ≠ "" := by
        intro h
        have hlist := congrArg String.toList h
        rw [String.toList_ofList] at hlist
        cases hlist
      have hamp : "&" = String.ofList ['&'] := rfl
      rw [Option.map_some, Option.map_some, Option.some.injEq, addPair.eq_def]
      simp only [if_neg hne]
      rw [hamp, pairsText, ← String.ofList_append, ← String.ofList_append, Form.serialize]
      simp

theorem parse_partsCrate (text : String) : partsCrate.parse text = parseOk text := rfl

theorem path_partsCrate (u : { u : Parts // u.Ok }) : partsCrate.path u = String.ofList u.1.path := rfl

theorem scheme_partsCrate (u : { u : Parts // u.Ok }) : partsCrate.scheme u = String.ofList u.1.scheme := rfl

/-- The schemes of `IsHttp` are special. -/
theorem special_of_isHttp {u : { u : Parts // u.Ok }} (h : partsCrate.IsHttp u) : special u.1.scheme = true := by
  have hscheme : ∀ s : String, partsCrate.scheme u = s → u.1.scheme = s.toList := by
    rintro s rfl
    rw [scheme_partsCrate, String.toList_ofList]
  rcases h with h | h <;> rw [hscheme _ h] <;> decide

theorem exists_rebase (u : { u : Parts // u.Ok }) (hspecial : special u.1.scheme = true) {host : String}
    (hdelim : ∀ c ∈ host.toList, isDelim true c = false ∧ isC0 c = false)
    (hhost : parseHostPort (afterAt host.toList) = some (host.toList, none)) :
    ∃ v, partsCrate.parse ("https://" ++ host ++ partsCrate.path u) = some v ∧ partsCrate.IsHttp v ∧
      partsCrate.hostStr v = some host ∧ partsCrate.path v = partsCrate.path u ∧ partsCrate.query v = none := by
  have hok := u.2.rebase hspecial hdelim (by rw [hhost]; rfl)
  have htext : "https://" ++ host ++ String.ofList u.1.path = String.ofList
      (Parts.asText ⟨"https".toList, some host.toList, u.1.path, none, none⟩) := by
    rw [← String.toList_inj, String.toList_ofList]
    simp [Parts.asText, Parts.rest, Parts.afterPath]
  have hparse : partsCrate.parse ("https://" ++ host ++ partsCrate.path u) = some ⟨_, hok⟩ := by
    rw [parse_partsCrate, path_partsCrate, htext]
    exact parseOk_asText ⟨_, hok⟩
  have hname : (parseHostPort (afterAt host.toList)).map (fun hp => String.ofList hp.1) = some host := by
    rw [hhost, Option.map_some, String.ofList_toList]
  have hscheme : partsCrate.scheme ⟨_, hok⟩ = "https" := by rw [scheme_partsCrate, String.ofList_toList]
  exact ⟨⟨_, hok⟩, hparse, Or.inr hscheme, hname, rfl, rfl⟩

end Url

/-- For a host that is read as it is. -/
theorem lawfulHttp_partsCrate {host : String}
    (hchars : (host.toList.all fun c => !Url.isDelim true c && !Url.isC0 c) = true)
    (hhost : Url.parseHostPort (Url.afterAt host.toList) = some (host.toList, none)) :
    LawfulHttp partsCrate host where
  rebase := by
    intro u hu
    have hdelim : ∀ c ∈ host.toList, Url.isDelim true c = false ∧ Url.isC0 c = false := by
      simpa using hchars
    exact Url.exists_rebase u (Url.special_of_isHttp hu) hdelim hhost
  parse_asStr := by
    intro u _
    exact (Url.parse_partsCrate _).trans (Url.parseOk_asText u)
  keeps_appendPair u name value := ⟨rfl, rfl, rfl⟩
  query_appendPair u name value := Url.Parts.query_appendPair u.1 name value

end Picoshift
