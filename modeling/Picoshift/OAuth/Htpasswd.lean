/-
# The user store of an htpasswd text

`UserStore::from_htpasswd` reads a text line by line: blank lines and lines that start with `#` are
passed over, the first `:` separates a user from a password, and both are trimmed.

`Reads l user password` says what one line says, as a relation.  The store accepts what some line of
the text says (`accepts_fromHtpasswd`), and white space around a line changes what it says only when
it stands in front of a `#` (`Reads.padded`, `Reads.of_padded`).

The other way round, a text is written from pairs and from lines that say nothing, in any order and
with either line end (`Written`).  The store has exactly the pairs, in their order.
-/
import Picoshift.Lib.Lines
import Picoshift.OAuth.Types

namespace Picoshift.OAuth

/-- `UserStore::from_htpasswd`. -/
def UserStore.fromHtpasswd (data : String) : UserStore :=
  ⟨((Str.lines data).filter fun l => !(Str.trim l).isEmpty && !Str.startsWith l "#").filterMap
    fun line => (Str.splitOnce line ':').map fun (user, pass) =>
      ⟨Str.trim user, Str.trim pass, none, none⟩⟩

/-- The store lets the user in with this password. -/
def UserStore.Accepts (store : UserStore) (user password : String) : Prop :=
  (store.authenticate user password).isSome = true

/-- What a line says. -/
def Reads (l : List Char) (user password : String) : Prop :=
  l.head? ≠ some '#' ∧ ∃ a b, ':' ∉ a ∧ l = a ++ ':' :: b ∧
    user.toList = Str.trimL a ∧ password.toList = Str.trimL b

/-! ## 1. One line -/

section Reads

variable {l m : List Char} {user password : String}

/-- What is read is trimmed, and a line feed or a `:` in a user is never read. -/
theorem Reads.clean (h : Reads l user password) :
    Str.trimL user.toList = user.toList ∧ Str.trimL password.toList = password.toList ∧
      ':' ∉ user.toList ∧ ('\n' ∉ l → '\n' ∉ user.toList ∧ '\n' ∉ password.toList) := by
  obtain ⟨-, a, b, ha, rfl, huser, hpassword⟩ := h
  rw [huser, hpassword]
  refine ⟨Str.trimL_trimL a, Str.trimL_trimL b, mt Str.mem_of_mem_trimL ha, fun hline => ?_⟩
  refine ⟨fun hmem => hline ?_, fun hmem => hline ?_⟩
  · exact List.mem_append_left _ (Str.mem_of_mem_trimL hmem)
  · exact List.mem_append_right _ (List.mem_cons_of_mem _ (Str.mem_of_mem_trimL hmem))

/-- A line says one thing. -/
theorem Reads.unique {user' password' : String} (h : Reads l user password)
    (h' : Reads l user' password') : user = user' ∧ password = password' := by
  obtain ⟨-, a, b, ha, hl, huser, hpassword⟩ := h
  obtain ⟨-, a', b', ha', hl', huser', hpassword'⟩ := h'
  obtain ⟨rfl, rfl⟩ := Str.append_cons_inj_left ha ha' (hl.symm.trans hl')
  exact ⟨String.toList_inj.mp (huser.trans huser'.symm),
    String.toList_inj.mp (hpassword.trans hpassword'.symm)⟩

/-- A blank line says nothing. -/
theorem not_reads_of_blank (h : Str.Blank l) : ¬ Reads l user password := by
  rintro ⟨-, a, b, -, rfl, -, -⟩
  exact h.not_mem (by decide) (List.mem_append_right a List.mem_cons_self)

theorem blank_head_ne {w : List Char} (hw : Str.Blank w) (hne : w ≠ []) (m : List Char) :
    (w ++ m).head? ≠ some '#' := by
  cases w with
  | nil => exact absurd rfl hne
  | cons c w =>
    intro hhead
    have hc : c = '#' := Option.some.inj hhead
    have hblank := hw c List.mem_cons_self
    rw [hc] at hblank
    exact absurd hblank (by decide)

/-- White space around a line does not change what it says. -/
theorem Reads.padded (hpad : Str.Padded l m) (h : Reads m user password) :
    Reads l user password := by
  obtain ⟨w, w', hw, hw', rfl⟩ := hpad
  obtain ⟨hhead, a, b, ha, rfl, huser, hpassword⟩ := h
  refine ⟨?_, w ++ a, b ++ w', ?_, by simp, ?_, ?_⟩
  · by_cases hnil : w = []
    · subst hnil
      cases a with
      | nil => exact fun h => absurd h (by simp)
      | cons c a => exact hhead
    · rw [List.append_assoc]
      exact blank_head_ne hw hnil _
  · rw [List.mem_append]
    exact not_or.mpr ⟨hw.not_mem (by decide), ha⟩
  · rw [huser]
    exact (Str.Padded.trimL ⟨w, [], hw, Str.blank_nil, by simp⟩).symm
  · rw [hpassword]
    exact (Str.Padded.trimL ⟨[], w', Str.blank_nil, hw', by simp⟩).symm

/-- The `:` of a line is not in the white space around it. -/
theorem exists_of_padded {a b : List Char} (hpad : Str.Padded l m) (ha : ':' ∉ a)
    (hl : l = a ++ ':' :: b) : ∃ w w' a' b', Str.Blank w ∧ Str.Blank w' ∧ ':' ∉ a' ∧
      m = a' ++ ':' :: b' ∧ a = w ++ a' ∧ b = b' ++ w' := by
  obtain ⟨w, w', hw, hw', rfl⟩ := hpad
  have hmem : ':' ∈ w ++ m ++ w' := hl ▸ List.mem_append_right a List.mem_cons_self
  simp only [List.mem_append, hw.not_mem (show Str.isWhitespace ':' = false by decide),
    hw'.not_mem (show Str.isWhitespace ':' = false by decide), or_false, false_or] at hmem
  obtain ⟨a', b', rfl, ha'⟩ := List.eq_append_cons_of_mem hmem
  have hwa : ':' ∉ w ++ a' := by
    rw [List.mem_append]
    exact not_or.mpr ⟨hw.not_mem (by decide), ha'⟩
  have hsame : a ++ ':' :: b = (w ++ a') ++ ':' :: (b' ++ w') := by
    rw [← hl]
    simp
  obtain ⟨hawa, hbwb⟩ := Str.append_cons_inj_left ha hwa hsame
  exact ⟨w, w', a', b', hw, hw', ha', rfl, hawa, hbwb⟩

/-- Taking white space away can turn a line into a comment, and nothing else. -/
theorem Reads.of_padded (hpad : Str.Padded l m) (h : Reads l user password)
    (hhead : m.head? ≠ some '#') : Reads m user password := by
  obtain ⟨-, a, b, ha, hl, huser, hpassword⟩ := h
  obtain ⟨w, w', a', b', hw, hw', ha', rfl, rfl, rfl⟩ := exists_of_padded hpad ha hl
  refine ⟨hhead, a', b', ha', rfl, ?_, ?_⟩
  · rw [huser]
    exact Str.Padded.trimL ⟨w, [], hw, Str.blank_nil, by simp⟩
  · rw [hpassword]
    exact Str.Padded.trimL ⟨[], w', Str.blank_nil, hw', by simp⟩

/-- A user whose line becomes a comment has a name that starts with `#`. -/
theorem Reads.user_head (hpad : Str.Padded l m) (h : Reads l user password)
    (hhead : m.head? = some '#') : user.toList.head? = some '#' := by
  obtain ⟨-, a, b, ha, hl, huser, -⟩ := h
  obtain ⟨w, w', a', b', hw, -, -, rfl, rfl, rfl⟩ := exists_of_padded hpad ha hl
  have hfirst : a'.head? = some '#' := by
    cases a' with
    | nil => exact absurd hhead (by simp)
    | cons c a' => exact hhead
  have huserPad : Str.Padded (w ++ a') a' := ⟨w, [], hw, Str.blank_nil, by simp⟩
  rw [huser, huserPad.trimL]
  exact Str.head?_trimL hfirst (by decide)

/-- For any other user white space does not matter at all. -/
theorem Reads.of_padded_of_ne (hpad : Str.Padded l m) (h : Reads l user password)
    (hne : user.toList.head? ≠ some '#') : Reads m user password :=
  h.of_padded hpad fun hhead => hne (h.user_head hpad hhead)

end Reads

/-! ## 2. The store -/

/-- The carriage return that `lines` drops does not matter. -/
theorem reads_stripCr {l : List Char} {user password : String} :
    Reads (Str.stripCr l) user password ↔ Reads l user password := by
  refine ⟨Reads.padded (Str.padded_stripCr l), fun h => h.of_padded (Str.padded_stripCr l) ?_⟩
  intro hhead
  rw [Str.stripCr] at hhead
  split at hhead
  · cases l with
    | nil => cases hhead
    | cons c l =>
      cases l with
      | nil => cases hhead
      | cons c' l => exact h.1 hhead
  · exact h.1 hhead

theorem startsWith_hash {l : String} :
    Str.startsWith l "#" = true ↔ l.toList.head? = some '#' := by
  rw [Str.startsWith]
  cases l.toList with
  | nil => simp
  | cons c rest =>
    by_cases hc : c = '#'
    · simp [hc]
    · simp [hc, Ne.symm hc]

/-- A line that holds a `:` is not blank. -/
theorem trim_isEmpty {l : String} (h : ':' ∈ l.toList) : (Str.trim l).isEmpty = false := by
  rw [Bool.eq_false_iff, ne_eq, String.isEmpty_iff]
  intro hempty
  obtain ⟨w, w', hw, hw', hl⟩ := Str.padded_trimL l.toList
  have htrim : Str.trimL l.toList = [] := by
    rw [← String.toList_ofList (l := Str.trimL l.toList)]
    exact congrArg String.toList hempty
  rw [htrim, List.append_nil] at hl
  rw [hl] at h
  exact (hw.append hw').not_mem (by decide) h

/-- A line that is taken, as the source takes it. -/
theorem exists_entry_iff {l : String} {user password : String} :
    ((!(Str.trim l).isEmpty && !Str.startsWith l "#") = true ∧
      ∃ a b, Str.splitOnce l ':' = some (a, b) ∧ Str.trim a = user ∧ Str.trim b = password) ↔
    Reads l.toList user password := by
  have hhash : Str.startsWith l "#" = false ↔ l.toList.head? ≠ some '#' := by
    rw [← Bool.not_eq_true, startsWith_hash]
  constructor
  · rintro ⟨hline, a, b, hsplit, rfl, rfl⟩
    obtain ⟨⟨a', b'⟩, hchars, heq⟩ := Option.map_eq_some_iff.mp hsplit
    obtain ⟨rfl, rfl⟩ := Prod.mk.inj heq
    obtain ⟨ha, hl⟩ := Str.splitOnceL_eq_some.mp hchars
    rw [Bool.and_eq_true, Bool.not_eq_true', Bool.not_eq_true'] at hline
    exact ⟨hhash.mp hline.2, a', b', ha, hl, by simp [Str.trim], by simp [Str.trim]⟩
  · rintro ⟨hhead, a, b, ha, hl, huser, hpassword⟩
    have hcolon : ':' ∈ l.toList := hl ▸ List.mem_append_right a List.mem_cons_self
    refine ⟨by rw [trim_isEmpty hcolon, hhash.mpr hhead]; rfl, String.ofList a, String.ofList b,
      ?_, ?_, ?_⟩
    · rw [Str.splitOnce, Str.splitOnceL_eq_some.mpr ⟨ha, hl⟩]
      rfl
    · rw [Str.trim, String.toList_ofList, ← huser, String.ofList_toList]
    · rw [Str.trim, String.toList_ofList, ← hpassword, String.ofList_toList]

/-- **What the store accepts**: what some line of the text says. -/
theorem accepts_fromHtpasswd {data : String} {user password : String} :
    (UserStore.fromHtpasswd data).Accepts user password ↔
      ∃ l ∈ Str.splitL '\n' data.toList, Reads l user password := by
  have hlines : (∃ l ∈ Str.linesL data.toList, Reads l user password) ↔
      ∃ l ∈ Str.splitL '\n' data.toList, Reads l user password :=
    Str.exists_mem_linesL_iff (fun _ => reads_stripCr) (not_reads_of_blank Str.blank_nil) _
  have hstrings : (∃ l ∈ Str.lines data, Reads l.toList user password) ↔
      ∃ l ∈ Str.linesL data.toList, Reads l user password := by
    rw [Str.lines]
    simp only [List.mem_map, exists_exists_and_eq_and, String.toList_ofList]
  rw [← hlines, ← hstrings, UserStore.Accepts, UserStore.authenticate, List.find?_isSome]
  simp only [← exists_entry_iff, UserStore.fromHtpasswd, List.mem_filterMap, List.mem_filter,
    Option.map_eq_some_iff, Bool.and_eq_true, beq_iff_eq]
  constructor
  · rintro ⟨entry, ⟨l, ⟨hl, hline⟩, ⟨a, b⟩, hsplit, rfl⟩, hu, hp⟩
    exact ⟨l, hl, hline, a, b, hsplit, hu, hp⟩
  · rintro ⟨l, hl, hline, a, b, hsplit, hu, hp⟩
    exact ⟨_, ⟨l, ⟨hl, hline⟩, ⟨a, b⟩, hsplit, rfl⟩, hu, hp⟩

/-! ## 3. Written texts -/

/-- A text that trimming leaves alone. -/
structure Tight (s : String) : Prop where
  head : ∀ c, s.toList.head? = some c → Str.isWhitespace c = false
  last : ∀ c, s.toList.getLast? = some c → Str.isWhitespace c = false

/-- A user and a password that can be written on a line. -/
structure Writable (user password : String) : Prop where
  colon : ':' ∉ user.toList
  hash : user.toList.head? ≠ some '#'
  user_lf : '\n' ∉ user.toList
  password_lf : '\n' ∉ password.toList
  user_tight : Tight user
  password_tight : Tight password

/-- A line that says nothing: a blank one, a comment, or one without a `:`. -/
structure Ignorable (l : List Char) : Prop where
  lf : '\n' ∉ l
  says_nothing : Str.Blank l ∨ l.head? = some '#' ∨ ':' ∉ l

/-- What a line is written from. -/
inductive Line where
  | entry (user password : String) (h : Writable user password)
  | other (l : List Char) (h : Ignorable l)

inductive LineEnd where
  | lf
  | crlf

namespace Line

def chars : Line → List Char
  | entry user password _ => user.toList ++ ':' :: password.toList
  | other l _ => l

def pair : Line → Option (String × String)
  | entry user password _ => some (user, password)
  | other _ _ => none

theorem lf_not_mem (line : Line) : '\n' ∉ line.chars := by
  cases line with
  | entry user password h =>
    rw [chars, List.mem_append, List.mem_cons]
    rintro (hmem | hmem | hmem)
    · exact h.user_lf hmem
    · exact absurd hmem (by decide)
    · exact h.password_lf hmem
  | other l h => exact h.lf

/-- A line says its pair, and nothing else. -/
theorem reads_iff (line : Line) {user password : String} :
    Reads line.chars user password ↔ line.pair = some (user, password) := by
  cases line with
  | entry u p h =>
    have hreads : Reads (entry u p h).chars u p := by
      refine ⟨?_, u.toList, p.toList, h.colon, rfl,
        (Str.trimL_eq_self h.user_tight.head h.user_tight.last).symm,
        (Str.trimL_eq_self h.password_tight.head h.password_tight.last).symm⟩
      rw [chars, List.head?_append]
      cases hu : u.toList.head? with
      | none => exact fun hc => absurd (Option.some.inj hc) (by decide)
      | some c => exact fun hc => h.hash (hu.trans hc)
    rw [pair, Option.some.injEq, Prod.mk.injEq]
    refine ⟨fun h' => hreads.unique h', ?_⟩
    rintro ⟨rfl, rfl⟩
    exact hreads
  | other l h =>
    rw [pair, chars]
    refine ⟨fun hreads => ?_, fun hnone => absurd hnone (by simp)⟩
    rcases h.says_nothing with hblank | hhash | hcolon
    · exact absurd hreads (not_reads_of_blank hblank)
    · exact absurd hhash hreads.1
    · obtain ⟨-, a, b, -, rfl, -⟩ := hreads
      exact absurd (List.mem_append_right a List.mem_cons_self) hcolon

end Line

def LineEnd.chars : LineEnd → List Char
  | .lf => ['\n']
  | .crlf => ['\r', '\n']

/-- Lines with their ends, and perhaps a last line that has none. -/
structure Written where
  ended : List (Line × LineEnd)
  last : Option Line

namespace Written

def text (w : Written) : String :=
  String.ofList (w.ended.flatMap (fun line => line.1.chars ++ line.2.chars) ++
    (w.last.map Line.chars).getD [])

/-- The pairs of the text, in their order. -/
def pairs (w : Written) : List (String × String) :=
  (w.ended.map Prod.fst ++ w.last.toList).filterMap Line.pair

end Written

/-- What the source makes of one line. -/
def lineEntry (l : List Char) : Option UserEntry :=
  if !(Str.trim (String.ofList l)).isEmpty && !Str.startsWith (String.ofList l) "#" then
    (Str.splitOnce (String.ofList l) ':').map fun (user, pass) =>
      ⟨Str.trim user, Str.trim pass, none, none⟩
  else none

theorem users_fromHtpasswd (data : String) :
    (UserStore.fromHtpasswd data).users = (Str.linesL data.toList).filterMap lineEntry := by
  rw [UserStore.fromHtpasswd, List.filterMap_filter, Str.lines, List.filterMap_map]
  refine List.filterMap_congr fun l _ => ?_
  rw [Function.comp_apply, lineEntry]

theorem lineEntry_eq_some_iff {l : List Char} {e : UserEntry} :
    lineEntry l = some e ↔ ∃ user password, Reads l user password ∧ e = ⟨user, password, none, none⟩ := by
  have hentry := @exists_entry_iff (String.ofList l)
  rw [String.toList_ofList] at hentry
  simp only [← hentry, lineEntry, Option.ite_none_right_eq_some, Option.map_eq_some_iff]
  constructor
  · rintro ⟨hline, ⟨a, b⟩, hsplit, rfl⟩
    exact ⟨_, _, ⟨hline, a, b, hsplit, rfl, rfl⟩, rfl⟩
  · rintro ⟨user, password, ⟨hline, a, b, hsplit, rfl, rfl⟩, rfl⟩
    exact ⟨hline, ⟨a, b⟩, hsplit, rfl⟩

/-- The entry of a pair. -/
def UserEntry.ofPair (pair : String × String) : UserEntry := ⟨pair.1, pair.2, none, none⟩

/-- A line that was written is read as its pair; a carriage return that `lines` takes from its end
makes no difference. -/
theorem lineEntry_line (line : Line) {l : List Char}
    (hl : ∀ user password, Reads l user password ↔ Reads line.chars user password) :
    lineEntry l = line.pair.map UserEntry.ofPair := by
  ext e
  simp only [lineEntry_eq_some_iff, hl, line.reads_iff, Option.map_eq_some_iff, Prod.exists,
    UserEntry.ofPair, eq_comm (a := e)]

/-- One line of the text. -/
theorem filterMap_lineEntry_cons (line : Line) (e : LineEnd) (rest : List Char) :
    (Str.linesL (line.chars ++ e.chars ++ rest)).filterMap lineEntry =
      (line.pair.map UserEntry.ofPair).toList ++ (Str.linesL rest).filterMap lineEntry := by
  have hcons : ∀ l, (∀ user password, Reads l user password ↔ Reads line.chars user password) →
      (l :: Str.linesL rest).filterMap lineEntry =
        (line.pair.map UserEntry.ofPair).toList ++ (Str.linesL rest).filterMap lineEntry := by
    intro l hl
    rw [List.filterMap_cons, lineEntry_line line hl]
    cases line.pair <;> rfl
  cases e with
  | lf =>
    rw [LineEnd.chars, List.append_assoc, List.singleton_append, Str.linesL,
      Str.linesGo_line line.lf_not_mem]
    exact hcons _ fun _ _ => reads_stripCr
  | crlf =>
    have hlf : '\n' ∉ line.chars ++ ['\r'] := by
      rw [List.mem_append, not_or]
      exact ⟨line.lf_not_mem, by decide⟩
    have hstrip : Str.stripCr (line.chars ++ ['\r']) = line.chars := by
      rw [Str.stripCr, if_pos List.getLast?_concat, List.dropLast_concat]
    have htext : line.chars ++ LineEnd.crlf.chars ++ rest = (line.chars ++ ['\r']) ++ '\n' :: rest := by
      simp [LineEnd.chars]
    rw [htext, Str.linesL, Str.linesGo_line hlf, List.nil_append, hstrip]
    exact hcons _ fun _ _ => Iff.rfl

/-- The line without an end. -/
theorem filterMap_lineEntry_last (line : Line) :
    (Str.linesL line.chars).filterMap lineEntry = (line.pair.map UserEntry.ofPair).toList := by
  have hentry := lineEntry_line line fun _ _ => Iff.rfl
  rw [Str.linesL_of_not_mem line.lf_not_mem, ← hentry]
  split
  · rename_i hempty
    have hnone : lineEntry [] = none := by
      rw [Option.eq_none_iff_forall_ne_some]
      intro e he
      obtain ⟨user, password, hreads, -⟩ := lineEntry_eq_some_iff.mp he
      exact not_reads_of_blank Str.blank_nil hreads
    rw [hempty, hnone]
    rfl
  · rw [List.filterMap_cons]
    cases lineEntry line.chars <;> rfl

/-- The store of a written text has its pairs. -/
theorem users_text (w : Written) :
    (UserStore.fromHtpasswd w.text).users = w.pairs.map UserEntry.ofPair := by
  obtain ⟨ended, last⟩ := w
  rw [users_fromHtpasswd, Written.text, Written.pairs, String.toList_ofList]
  induction ended with
  | nil =>
    cases last with
    | none => rfl
    | some line =>
      simp only [List.flatMap_nil, List.nil_append, Option.map_some, Option.getD_some,
        filterMap_lineEntry_last, List.map_nil, Option.toList_some, List.filterMap_cons,
        List.filterMap_nil]
      cases line.pair <;> rfl
  | cons line ended ih =>
    rw [List.flatMap_cons, List.append_assoc, filterMap_lineEntry_cons, ih, List.map_cons,
      List.cons_append, List.filterMap_cons]
    cases line.1.pair <;> rfl

/-- **A written text is read back**: the store has exactly the pairs, in their order, and it lets in
exactly those users with their passwords. -/
theorem htpasswd_reads_back (w : Written) :
    (UserStore.fromHtpasswd w.text).users = w.pairs.map UserEntry.ofPair ∧
      ∀ user password, (UserStore.fromHtpasswd w.text).Accepts user password ↔
        (user, password) ∈ w.pairs := by
  refine ⟨users_text w, fun user password => ?_⟩
  rw [UserStore.Accepts, UserStore.authenticate, users_text, List.find?_isSome]
  simp only [List.mem_map, exists_exists_and_eq_and, UserEntry.ofPair, Bool.and_eq_true, beq_iff_eq]
  constructor
  · rintro ⟨⟨u, p⟩, hmem, rfl, rfl⟩
    exact hmem
  · exact fun hmem => ⟨(user, password), hmem, rfl, rfl⟩

end Picoshift.OAuth
