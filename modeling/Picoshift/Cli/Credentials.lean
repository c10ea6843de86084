/-
# What the user commands do to credentials

A Go program splits and trims the text one way, YAML another and the simulator a third, so four
things can go wrong with an edit.

* The user name or the password is not CLEAN: it holds a line feed, or white space at an end, or the
  name holds a `:`.  Then what is written is read as something else.
* A line of the old text is read as the user's although it is not written like one, as ` alice:x`
  or `alice :x` are.  It is neither replaced nor deleted.
* A name starts with `#`.  Such a line is a comment, unless white space stands in front of it, and
  trimming and indentation take white space away.
* A line holds a line break that only YAML knows.  Then anything may be found in the Secret.

The first theorem says exactly when an add or a delete that succeeds has its effect
(`command_effective_iff`), the second exactly when it leaves all other users alone
(`command_keeps_others_iff`).  There one more thing can go wrong: a read that fails for any reason
counts as an empty text, and the others are gone.  Where none of this happens the commands do what
they are for (`Command.Ordinary.fits`).
-/
import Picoshift.Cli.User

namespace Picoshift.Cli

open Yaml (Line)
open OAuth (Reads)

/-! ## 1. Credentials -/

/-- The store of a text lets the user in with this password. -/
def Accepts (text user password : String) : Prop :=
  (OAuth.UserStore.fromHtpasswd text).Accepts user password

/-- Some of the lines says so. -/
def Says (ls : List Line) (user password : String) : Prop := ∃ l ∈ ls, Reads l user password

theorem accepts_eq {text : String} :
    Accepts text = Says (Str.splitL '\n' text.toList) := by
  funext user password
  exact propext OAuth.accepts_fromHtpasswd

theorem not_accepts_empty (user password : String) : ¬ Accepts "" user password := by
  rw [accepts_eq]
  rintro ⟨l, hl, hreads⟩
  rw [show Str.splitL '\n' "".toList = [[]] from rfl, List.mem_singleton] at hl
  rw [hl] at hreads
  exact OAuth.not_reads_of_blank Str.blank_nil hreads

/-- It comes through trimming, and is on one line. -/
def Clean (s : String) : Prop := Str.trimL s.toList = s.toList ∧ '\n' ∉ s.toList

/-- A name that can be read. -/
def CleanName (s : String) : Prop := Clean s ∧ ':' ∉ s.toList

instance (s : String) : Decidable (Clean s) := inferInstanceAs (Decidable (_ ∧ _))

instance (s : String) : Decidable (CleanName s) := inferInstanceAs (Decidable (_ ∧ _))

/-- Names that are read on a line are clean, and so are passwords. -/
theorem clean_of_reads {l : Line} (hl : '\n' ∉ l) {user password : String}
    (h : Reads l user password) : CleanName user ∧ Clean password := by
  obtain ⟨huser, hpassword, hcolon, hlines⟩ := h.clean
  obtain ⟨huser', hpassword'⟩ := hlines hl
  exact ⟨⟨⟨huser, huser'⟩, hcolon⟩, hpassword, hpassword'⟩

/-- A clean credential says what it should, unless it is a comment. -/
theorem reads_credential {user password : String} (huser : CleanName user)
    (hpassword : Clean password) (hhead : user.toList.head? ≠ some '#') :
    Reads (credential user password) user password := by
  refine ⟨?_, user.toList, password.toList, huser.2, rfl, huser.1.1.symm, hpassword.1.symm⟩
  rw [credential]
  cases hlist : user.toList with
  | nil => exact fun h => absurd h (by simp)
  | cons c rest =>
    rw [hlist] at hhead
    exact hhead

/-! ## 2. What a block carries of a line -/

/-- The line is carried by the block, and says so there. -/
def Arrives (ls : List Line) (l : Line) (user password : String) : Prop :=
  Yaml.margin ls ≤ Yaml.spaces (Str.stripCr l) ∧
    (Str.stripCr l).drop (Yaml.margin ls) ∈ Yaml.carried ls ∧
    Reads ((Str.stripCr l).drop (Yaml.margin ls)) user password

theorem blank_replicate (k : Nat) : Str.Blank (List.replicate k ' ') := by
  intro c hc
  rw [(List.mem_replicate.mp hc).2]
  decide

/-- Indentation is padding. -/
theorem padded_drop {k : Nat} {l : Line} (h : k ≤ Yaml.spaces l) : Str.Padded l (l.drop k) :=
  ⟨List.replicate k ' ', [], blank_replicate k, Str.blank_nil, by
    rw [List.append_nil]
    exact Yaml.eq_replicate_append_drop h⟩

theorem padded_dropWhile (l : Line) : Str.Padded l (l.dropWhile (· == ' ')) := by
  refine ⟨l.takeWhile (· == ' '), [], fun c hc => ?_, Str.blank_nil, by simp⟩
  have hspace := List.mem_takeWhile_imp hc
  rw [beq_iff_eq] at hspace
  rw [hspace]
  decide

theorem padded_arriving {ls : List Line} {l : Line}
    (h : Yaml.margin ls ≤ Yaml.spaces (Str.stripCr l)) :
    Str.Padded l ((Str.stripCr l).drop (Yaml.margin ls)) :=
  (Str.padded_stripCr l).trans (padded_drop h)

/-- Lines of indentation say nothing. -/
theorem not_reads_of_blank_drop {l : Line} (h : Yaml.blank l = true) (k : Nat)
    {user password : String} : ¬ Reads (l.drop k) user password := by
  refine OAuth.not_reads_of_blank fun c hc => ?_
  have hspace := List.all_eq_true.mp h c (List.mem_of_mem_drop hc)
  rw [beq_iff_eq] at hspace
  rw [hspace]
  decide

/-- What a line says when it arrives it said before. -/
theorem Arrives.reads {ls : List Line} {l : Line} {user password : String}
    (h : Arrives ls l user password) : Reads l user password :=
  h.2.2.padded (padded_arriving h.1)

/-- And what a line of a readable block says arrives, but for names that start with `#`. -/
theorem arrives_of_reads {htpasswd : List Char} (hreadable : Readable (blockLines htpasswd))
    {l : Line} (hl : l ∈ writtenLines htpasswd) {user password : String}
    (hreads : Reads l user password) (hhead : user.toList.head? ≠ some '#') :
    Arrives (blockLines htpasswd) l user password := by
  have hstripped : Reads (Str.stripCr l) user password := OAuth.reads_stripCr.mpr hreads
  have hblank : Yaml.blank (Str.stripCr l) = false := by
    rw [← Bool.not_eq_true]
    intro hblank
    exact not_reads_of_blank_drop hblank 0 hstripped
  have hcomment : Yaml.comment (Str.stripCr l) = false := by
    rw [← Bool.not_eq_true]
    intro hcomment
    refine hhead (hstripped.user_head (padded_dropWhile _) ?_)
    simpa [Yaml.comment, Yaml.lead] using hcomment
  obtain ⟨hmargin, hcarried⟩ := Yaml.mem_carried hreadable.2
    (List.mem_map_of_mem (f := Str.stripCr) hl) hblank hcomment
  exact ⟨hmargin, hcarried, hstripped.of_padded_of_ne (padded_drop hmargin) hhead⟩

/-- What is carried has arrived. -/
theorem says_carried_iff {htpasswd : List Char} {user password : String} :
    Says (Yaml.carried (blockLines htpasswd)) user password ↔
      ∃ l ∈ writtenLines htpasswd, l ≠ [] ∧ Arrives (blockLines htpasswd) l user password := by
  constructor
  · rintro ⟨l, hl, hreads⟩
    obtain ⟨l', hl', rfl, hinside⟩ := Yaml.exists_of_mem_carried hl
    obtain ⟨l'', hl'', rfl⟩ := List.mem_map.mp hl'
    have hmargin : Yaml.margin (blockLines htpasswd) ≤ Yaml.spaces (Str.stripCr l'') := by
      rw [Yaml.inside, Bool.or_eq_true, decide_eq_true_eq] at hinside
      exact hinside.resolve_left fun hblank => not_reads_of_blank_drop hblank _ hreads
    refine ⟨l'', hl'', ?_, hmargin, hl, hreads⟩
    rintro rfl
    exact not_reads_of_blank_drop (l := Str.stripCr []) rfl _ hreads
  · rintro ⟨l, -, -, -, hcarried, hreads⟩
    exact ⟨_, hcarried, hreads⟩

/-! ## 3. What an apply leads to -/

/-- **Properties of the credentials after an apply.**  Where the lines are plain the block decides;
elsewhere the property has to hold of every text. -/
theorem forall_apply_iff {htpasswd : List Char} {Q : (String → String → Prop) → Prop} :
    (∀ kubectl ctx text, applyHtpasswdSecret kubectl ctx htpasswd = some text → Q (Accepts text)) ↔
      (PlainLines (blockLines htpasswd) → Readable (blockLines htpasswd) →
        Q (Says (Yaml.carried (blockLines htpasswd)))) ∧
      (¬ PlainLines (blockLines htpasswd) → ∀ text, Q (Accepts text)) := by
  have hsame : ∀ {kubectl ctx text}, PlainLines (blockLines htpasswd) →
      applyHtpasswdSecret kubectl ctx htpasswd = some text →
      Accepts text = Says (Yaml.carried (blockLines htpasswd)) := by
    intro kubectl ctx text hplain happly
    funext user password
    exact propext ((accepts_of_apply hplain happly).2 user password)
  let ctx : Context := ⟨"kind-picoshift", by decide +kernel⟩
  constructor
  · intro hall
    refine ⟨fun hplain hreadable => ?_, fun hplain text => ?_⟩
    · have happly : applyHtpasswdSecret Kubectl.reading ctx htpasswd = _ := apply_reading hreadable
      rw [← hsame hplain happly]
      exact hall _ _ _ happly
    · obtain ⟨kubectl, happly⟩ := exists_apply hplain ctx text
      exact hall _ _ _ happly
  · rintro ⟨hplain, hother⟩ kubectl ctx text happly
    by_cases hlines : PlainLines (blockLines htpasswd)
    · rw [hsame hlines happly]
      exact hplain hlines (accepts_of_apply hlines happly).1
    · exact hother hlines text

/-- The lines of the block that a command writes. -/
def Command.block (c : Command) (current : String) : List Line :=
  blockLines ((c.edit current).getD [])

/-- The lines that a command keeps, and its own. -/
def Command.Writes (c : Command) (current : String) (l : Line) : Prop :=
  l ∈ keptLines current c.username ∨ l ∈ c.newLines

/-- A line says so, and still does in the block when the name starts with `#`. -/
def Command.Shows (c : Command) (current : String) (l : Line) (v q : String) : Prop :=
  Reads l v q ∧ (v.toList.head? = some '#' → Arrives (c.block current) l v q)

/-- Some line that the command writes shows it. -/
def Command.Shown (c : Command) (current : String) (v q : String) : Prop :=
  ∃ l, c.Writes current l ∧ c.Shows current l v q

/-- No line that the command writes holds another line break of YAML. -/
def Command.Plain (c : Command) (current : String) : Prop :=
  ∀ l, c.Writes current l → ∀ ch ∈ Str.stripCr l, Yaml.isBreak ch = false

instance (c : Command) (current : String) : Decidable (c.Plain current) :=
  decidable_of_iff ((keptLines current c.username ++ c.newLines).all
      (fun l => (Str.stripCr l).all (!Yaml.isBreak ·)) = true) (by
    simp only [List.all_eq_true, List.mem_append, Bool.not_eq_true']
    exact Iff.rfl)

/-- There is nobody to delete, or YAML does not take the block. -/
def Command.Refused (c : Command) (current : String) : Prop :=
  c.edit current = none ∨ c.Plain current ∧ ¬ Readable (c.block current)

section Edit

variable {c : Command} {current : String} {htpasswd : List Char}

theorem Command.block_eq (h : c.edit current = some htpasswd) :
    c.block current = blockLines htpasswd := by
  rw [Command.block, h]
  rfl

theorem Command.plain_iff (h : c.edit current = some htpasswd) :
    c.Plain current ↔ PlainLines (blockLines htpasswd) := by
  rw [PlainLines, blockLines, List.forall_mem_map]
  refine forall_congr' fun l => ?_
  by_cases hnil : l = []
  · subst hnil
    have hnone : ∀ ch ∈ Str.stripCr [], Yaml.isBreak ch = false :=
      fun ch hch => absurd hch List.not_mem_nil
    exact ⟨fun _ _ => hnone, fun _ _ => hnone⟩
  · rw [Command.mem_writtenLines h hnil]
    exact Iff.rfl

theorem Command.Writes.newline_not_mem {l : Line} (h : c.Writes current l) : '\n' ∉ l := by
  rcases h with h | h
  · exact Str.not_mem_of_mem_splitL (mem_keptLines.mp h).1
  · cases c with
    | add user password => exact Str.not_mem_of_mem_splitL h
    | delete user => exact absurd h List.not_mem_nil

theorem Command.Shown.clean {v q : String} (h : c.Shown current v q) : CleanName v ∧ Clean q := by
  obtain ⟨l, hwrites, hreads, -⟩ := h
  exact clean_of_reads hwrites.newline_not_mem hreads

/-- **What is said in a block that can be read is what the command shows.** -/
theorem Command.says_carried (h : c.edit current = some htpasswd)
    (hreadable : Readable (blockLines htpasswd)) :
    Says (Yaml.carried (blockLines htpasswd)) = c.Shown current := by
  funext v q
  rw [says_carried_iff, Command.Shown]
  refine propext (exists_congr fun l => ⟨?_, ?_⟩)
  · rintro ⟨hl, hne, harrives⟩
    refine ⟨(Command.mem_writtenLines h hne).mp hl, harrives.reads, fun _ => ?_⟩
    rw [Command.block_eq h]
    exact harrives
  · rintro ⟨hwrites, hreads, hhash⟩
    have hne : l ≠ [] := by
      rintro rfl
      exact OAuth.not_reads_of_blank Str.blank_nil hreads
    have hl := (Command.mem_writtenLines h hne).mpr hwrites
    refine ⟨hl, hne, ?_⟩
    by_cases hhead : v.toList.head? = some '#'
    · rw [← Command.block_eq h]
      exact hhash hhead
    · exact arrives_of_reads hreadable hl hreads hhead

end Edit

/-- **Properties of the credentials after a command**: unless the command is refused, they are
decided by what it shows, and by nothing when there are other line breaks. -/
theorem Command.forall_edit_iff {c : Command} {current : String}
    {Q : (String → String → Prop) → Prop} :
    (∀ htpasswd, c.edit current = some htpasswd → ∀ kubectl ctx text,
      applyHtpasswdSecret kubectl ctx htpasswd = some text → Q (Accepts text)) ↔
    c.Refused current ∨ (c.Plain current → Q (c.Shown current)) ∧
      (¬ c.Plain current → ∀ text, Q (Accepts text)) := by
  rw [Command.Refused]
  cases hedit : c.edit current with
  | none => exact ⟨fun _ => Or.inl (Or.inl rfl), fun _ _ => nofun⟩
  | some htpasswd =>
    rw [Command.block_eq hedit, Command.plain_iff hedit]
    by_cases hreadable : Readable (blockLines htpasswd)
    · rw [← Command.says_carried hedit hreadable]
      simp only [Option.some.injEq, forall_eq', forall_apply_iff, hreadable, true_implies,
        reduceCtorEq, not_true, and_false, or_self, false_or]
    · simp only [Option.some.injEq, forall_eq', forall_apply_iff, hreadable, false_implies,
        implies_true, true_and, reduceCtorEq, not_false_eq_true, and_true, false_or]
      tauto

/-! ## 5. The effect of a command -/

/-- The user gets in with this password, and with no other. -/
def OnlyPassword (accepts : String → String → Prop) (user password : String) : Prop :=
  accepts user password ∧ ∀ other, accepts user other → other = password

/-- What a command is for. -/
def Command.Effect (accepts : String → String → Prop) : Command → Prop
  | .add user password => OnlyPassword accepts user password
  | .delete user => ∀ password, ¬ accepts user password

/-- When a command has its effect.  An added user and the password are clean, and no line that is
kept shows the user with another password; a name that starts with `#` needs a kept line that shows
this one, as the new line is a comment.  A name that is not clean is nobody's; no line that is kept
shows a deleted user with any other name. -/
def Command.Effective (current : String) : Command → Prop
  | .add user password => (Command.add user password).Plain current ∧ CleanName user ∧
      Clean password ∧
      (∀ l ∈ keptLines current user, ∀ other,
        (Command.add user password).Shows current l user other → other = password) ∧
      (user.toList.head? = some '#' → ∃ l ∈ keptLines current user,
        (Command.add user password).Shows current l user password)
  | .delete user => CleanName user → (Command.delete user).Plain current ∧
      ∀ l ∈ keptLines current user, ∀ password, ¬ (Command.delete user).Shows current l user password

/-- A clean credential is one line. -/
theorem newLines_add {user password : String} (huser : CleanName user) (hpassword : Clean password) :
    (Command.add user password).newLines = [credential user password] := by
  refine Str.splitL_of_not_mem ?_
  rw [credential, List.mem_append, List.mem_cons]
  exact not_or.mpr ⟨huser.1.2, not_or.mpr ⟨by decide, hpassword.2⟩⟩

/-- What a clean credential shows of its user. -/
theorem Command.shows_credential {current user password : String} (huser : CleanName user)
    (hpassword : Clean password) {other : String} :
    (Command.add user password).Shows current (credential user password) user other ↔
      user.toList.head? ≠ some '#' ∧ other = password := by
  constructor
  · rintro ⟨⟨hcomment, a, b, ha, heq, -, hother⟩, -⟩
    rw [credential] at heq hcomment
    obtain ⟨-, rfl⟩ := Str.append_cons_inj_left huser.2 ha heq
    refine ⟨fun hhead => hcomment ?_, String.toList_inj.mp (hother.trans hpassword.1)⟩
    rw [List.head?_append, hhead]
    rfl
  · rintro ⟨hhead, rfl⟩
    exact ⟨reads_credential huser hpassword hhead, fun h => absurd h hhead⟩

/-- What the block of an added user shows of the user. -/
theorem Command.onlyPassword_shown_iff {current user password : String} :
    OnlyPassword ((Command.add user password).Shown current) user password ↔
      CleanName user ∧ Clean password ∧
      (∀ l ∈ keptLines current user, ∀ other,
        (Command.add user password).Shows current l user other → other = password) ∧
      (user.toList.head? = some '#' → ∃ l ∈ keptLines current user,
        (Command.add user password).Shows current l user password) := by
  constructor
  · rintro ⟨hshown, honly⟩
    obtain ⟨huser, hpassword⟩ := hshown.clean
    refine ⟨huser, hpassword, fun l hl other hshows => honly other ⟨l, Or.inl hl, hshows⟩,
      fun hhead => ?_⟩
    obtain ⟨l, hl | hl, hshows⟩ := hshown
    · exact ⟨l, hl, hshows⟩
    · -- the new line is a comment
      rw [newLines_add huser hpassword, List.mem_singleton] at hl
      rw [hl, Command.shows_credential huser hpassword] at hshows
      exact absurd hhead hshows.1
  · rintro ⟨huser, hpassword, hkept, hhash⟩
    have hnew : credential user password ∈ (Command.add user password).newLines := by
      rw [newLines_add huser hpassword]
      exact List.mem_cons_self
    refine ⟨?_, fun other hshown => ?_⟩
    · by_cases hhead : user.toList.head? = some '#'
      · obtain ⟨l, hl, hshows⟩ := hhash hhead
        exact ⟨l, Or.inl hl, hshows⟩
      · exact ⟨_, Or.inr hnew, (Command.shows_credential huser hpassword).mpr ⟨hhead, rfl⟩⟩
    · obtain ⟨l, hl | hl, hshows⟩ := hshown
      · exact hkept l hl other hshows
      · rw [newLines_add huser hpassword, List.mem_singleton] at hl
        rw [hl, Command.shows_credential huser hpassword] at hshows
        exact hshows.2

/-- Some text lets in any user with a clean name. -/
theorem exists_accepts {user : String} (h : CleanName user) :
    ∃ text password, Accepts text user password := by
  refine ⟨String.ofList (' ' :: credential user "x"), "x", ?_⟩
  have hline : '\n' ∉ ' ' :: credential user "x" := by
    rw [credential, List.mem_cons, List.mem_append]
    exact not_or.mpr ⟨by decide, not_or.mpr ⟨h.1.2, by decide +kernel⟩⟩
  rw [accepts_eq, String.toList_ofList, Str.splitL_of_not_mem hline]
  have hpad : Str.Padded (' ' :: user.toList) user.toList :=
    ⟨[' '], [], by simp [Str.Blank, Str.isWhitespace], Str.blank_nil, by simp⟩
  refine ⟨_, List.mem_singleton_self _, by simp, ' ' :: user.toList, "x".toList, ?_, rfl,
    (hpad.trimL.trans h.1.1).symm, by decide +kernel⟩
  rw [List.mem_cons]
  exact not_or.mpr ⟨by decide, h.2⟩

/-- Only clean names are let in. -/
theorem cleanName_of_accepts {text user password : String} (h : Accepts text user password) :
    CleanName user := by
  rw [accepts_eq] at h
  obtain ⟨l, hl, hreads⟩ := h
  exact (clean_of_reads (Str.not_mem_of_mem_splitL hl) hreads).1

/-- What the block shows has the effect, or any text would, exactly when the command is
effective. -/
theorem Command.effective_iff (c : Command) (current : String) :
    ((c.Plain current → c.Effect (c.Shown current)) ∧
      (¬ c.Plain current → ∀ text, c.Effect (Accepts text))) ↔ c.Effective current := by
  cases c with
  | add user password =>
    rw [Command.Effective, ← Command.onlyPassword_shown_iff]
    constructor
    · rintro ⟨hplain, hother⟩
      have hlines : (Command.add user password).Plain current := by
        by_contra hlines
        exact not_accepts_empty _ _ (hother hlines "").1
      exact ⟨hlines, hplain hlines⟩
    · rintro ⟨hlines, honly⟩
      exact ⟨fun _ => honly, fun h => absurd hlines h⟩
  | delete user =>
    constructor
    · rintro ⟨hplain, hother⟩ huser
      have hlines : (Command.delete user).Plain current := by
        by_contra hlines
        obtain ⟨text, password, haccepts⟩ := exists_accepts huser
        exact hother hlines text password haccepts
      exact ⟨hlines, fun l hl password hshows => hplain hlines password ⟨l, Or.inl hl, hshows⟩⟩
    · intro heffective
      refine ⟨fun _ password hshown => ?_, fun hlines text password haccepts => ?_⟩
      · obtain ⟨l, hl | hl, hshows⟩ := id hshown
        · exact (heffective hshown.clean.1).2 l hl password hshows
        · exact absurd hl List.not_mem_nil
      · exact hlines (heffective (cleanName_of_accepts haccepts)).1

/-- A run that reads the Secret, with a `kubectl` that reads what YAML reads. -/
def readingEnv (readOk : Bool) : Env := ⟨⟨"kind-picoshift", by decide +kernel⟩, readOk, .reading⟩

/-- Nobody else has lost or gained a credential. -/
def SameOthers (user : String) (before after : String → String → Prop) : Prop :=
  ∀ v, v ≠ user → ∀ q, before v q ↔ after v q

/-- The users that a command for `user` can lose: all of them when the read failed, the one whose
name is the user's without white space around it, and those whose names start with `#`. -/
def Endangered (readOk : Bool) (user v : String) : Prop :=
  readOk = false ∨ v.toList = Str.trimL user.toList ∨ v.toList.head? = some '#'

/-- When a command leaves the others alone: the lines of its own show nobody else who was not there,
and somebody endangered is shown by some line. -/
def Command.KeepsOthers (c : Command) (readOk : Bool) (secret : String) : Prop :=
  let current := currentText readOk secret
  c.Plain current ∧ ∀ v, v ≠ c.username → ∀ q,
    (∀ l ∈ c.newLines, c.Shows current l v q → Accepts secret v q) ∧
    (Endangered readOk c.username v → Accepts secret v q → c.Shown current v q)

/-- Kept lines say what the text said. -/
theorem accepts_of_kept {readOk : Bool} {secret user v q : String} {l : Line}
    (hl : l ∈ keptLines (currentText readOk secret) user) (hreads : Reads l v q) :
    Accepts secret v q := by
  have hline := (mem_keptLines.mp hl).1
  cases readOk with
  | false =>
    -- there are no lines in an empty text
    obtain rfl : l = [] := List.mem_singleton.mp hline
    exact absurd rfl (mem_keptLines.mp hl).2.1
  | true =>
    obtain ⟨l', hl', hpad⟩ := Str.exists_line_of_trimL hline
    rw [accepts_eq]
    exact ⟨l', hl', hreads.padded hpad⟩

/-- And all that it said of users that are not endangered. -/
theorem exists_kept {readOk : Bool} {secret user v q : String}
    (h : ¬ Endangered readOk user v) (haccepts : Accepts secret v q) :
    ∃ l ∈ keptLines (currentText readOk secret) user, Reads l v q := by
  simp only [Endangered, not_or, Bool.not_eq_false] at h
  obtain ⟨rfl, htrim, hhead⟩ := h
  rw [accepts_eq] at haccepts
  obtain ⟨l, hl, hreads⟩ := haccepts
  obtain ⟨l', hl', hpad⟩ := Str.exists_line_trimL hl fun hblank =>
    OAuth.not_reads_of_blank hblank hreads
  have hreads' := hreads.of_padded_of_ne hpad hhead
  refine ⟨l', mem_keptLines.mpr ⟨hl', ?_, ?_⟩, hreads'⟩
  · rintro rfl
    exact OAuth.not_reads_of_blank Str.blank_nil hreads'
  · -- a line of the user's would say the trimmed name
    rw [← Bool.not_eq_true, isLineOf_iff]
    rintro ⟨rest, hcolon, rfl⟩
    obtain ⟨-, a, b, ha, heq, hv, -⟩ := hreads'
    obtain ⟨rfl, -⟩ := Str.append_cons_inj_left hcolon ha heq
    exact htrim hv

/-- No text shows exactly the same others as every text. -/
theorem not_sameOthers_all {user : String} {before : String → String → Prop} :
    ¬ ∀ text, SameOthers user before (Accepts text) := by
  intro hall
  obtain ⟨v, hv, hclean⟩ : ∃ v, v ≠ user ∧ CleanName v := by
    by_cases huser : user = "a"
    · refine ⟨"b", ?_, by decide +kernel⟩
      rw [huser]
      decide +kernel
    · exact ⟨"a", Ne.symm huser, by decide +kernel⟩
  obtain ⟨text, q, haccepts⟩ := exists_accepts hclean
  exact not_accepts_empty v q ((hall "" v hv q).mp ((hall text v hv q).mpr haccepts))

theorem Command.sameOthers_shown_iff (c : Command) (readOk : Bool) (secret : String) :
    SameOthers c.username (Accepts secret) (c.Shown (currentText readOk secret)) ↔
    ∀ v, v ≠ c.username → ∀ q,
      (∀ l ∈ c.newLines, c.Shows (currentText readOk secret) l v q → Accepts secret v q) ∧
      (Endangered readOk c.username v → Accepts secret v q →
        c.Shown (currentText readOk secret) v q) := by
  refine forall_congr' fun v => forall_congr' fun _ => forall_congr' fun q => ⟨?_, ?_⟩
  · intro hsame
    exact ⟨fun l hl hshows => hsame.mpr ⟨l, Or.inr hl, hshows⟩, fun _ => hsame.mp⟩
  · rintro ⟨hgained, hlost⟩
    constructor
    · intro haccepts
      by_cases hdanger : Endangered readOk c.username v
      · exact hlost hdanger haccepts
      · obtain ⟨l, hl, hreads⟩ := exists_kept hdanger haccepts
        exact ⟨l, Or.inl hl, hreads, fun hhead => absurd (Or.inr (Or.inr hhead)) hdanger⟩
    · rintro ⟨l, hl | hl, hshows⟩
      · exact accepts_of_kept hl hshows.1
      · exact hgained l hl hshows

/-- What the block shows leaves the others alone, or any text would, exactly when the command does. -/
theorem Command.keepsOthers_iff (c : Command) (readOk : Bool) (secret : String) :
    ((c.Plain (currentText readOk secret) →
        SameOthers c.username (Accepts secret) (c.Shown (currentText readOk secret))) ∧
      (¬ c.Plain (currentText readOk secret) →
        ∀ text, SameOthers c.username (Accepts secret) (Accepts text))) ↔
    c.KeepsOthers readOk secret := by
  rw [Command.KeepsOthers, ← Command.sameOthers_shown_iff]
  constructor
  · rintro ⟨hplain, hother⟩
    have hlines : c.Plain (currentText readOk secret) := by
      by_contra hlines
      exact not_sameOthers_all (hother hlines)
    exact ⟨hlines, hplain hlines⟩
  · rintro ⟨hlines, hsame⟩
    exact ⟨fun _ => hsame, fun h => absurd hlines h⟩

/-- Every line that says something is written as its user's, and no name starts with `#`. -/
def Tidy (text : String) : Prop :=
  ∀ l ∈ Str.splitL '\n' text.toList, ∀ v q, Reads l v q →
    isLineOf v l = true ∧ v.toList.head? ≠ some '#'

/-- The name and the password are clean, and the name does not start with `#`. -/
def Command.Ordinary : Command → Prop
  | .add user password => CleanName user ∧ Clean password ∧ user.toList.head? ≠ some '#'
  | .delete user => CleanName user ∧ user.toList.head? ≠ some '#'

theorem Command.Ordinary.cleanName {c : Command} (h : c.Ordinary) : CleanName c.username := by
  cases c with
  | add user password => exact h.1
  | delete user => exact h.1

/-- Texts made of ordinary credentials are tidy. -/
theorem tidy_of_credentials {text : String} (h : ∀ l ∈ Str.splitL '\n' text.toList, l = [] ∨
    ∃ v q, l = credential v q ∧ (Command.add v q).Ordinary) : Tidy text := by
  intro l hl v q hreads
  rcases h l hl with rfl | ⟨v', q', rfl, huser, hpassword, hhead⟩
  · exact absurd hreads (OAuth.not_reads_of_blank Str.blank_nil)
  · obtain ⟨rfl, rfl⟩ := hreads.unique (reads_credential huser hpassword hhead)
    exact ⟨isLineOf_iff.mpr ⟨_, huser.2, rfl⟩, hhead⟩

/-- No kept line of a tidy text says anything of the user. -/
theorem Tidy.not_reads_kept {current user : String} (htidy : Tidy current) {l : Line}
    (hl : l ∈ keptLines current user) (q : String) : ¬ Reads l user q := by
  intro hreads
  obtain ⟨hline, -, hof⟩ := mem_keptLines.mp hl
  obtain ⟨l', hl', hpad⟩ := Str.exists_line_of_trimL hline
  obtain ⟨rest, hcolon, heq⟩ := isLineOf_iff.mp (htidy l' hl' user q (hreads.padded hpad)).1
  obtain ⟨-, a, b, ha, rfl, huser, -⟩ := hreads
  obtain ⟨w, w', a', b', hw, -, ha', hab, hwa, -⟩ := OAuth.exists_of_padded hpad hcolon heq
  obtain ⟨rfl, -⟩ := Str.append_cons_inj_left ha ha' hab
  -- trimming does not make the name longer, so there is nothing in front of it
  have hlength := Str.length_trimL_le a
  rw [← huser, hwa, List.length_append] at hlength
  have hw0 : w = [] := List.eq_nil_of_length_eq_zero (by omega)
  rw [hw0, List.nil_append] at hwa
  rw [← Bool.not_eq_true, isLineOf_iff] at hof
  exact hof ⟨b, hcolon, by rw [hwa]⟩

/-- **An ordinary command on a tidy text does what it is for, and nothing else.** -/
theorem Command.Ordinary.fits {c : Command} {current : String} (h : c.Ordinary)
    (htidy : Tidy current) (hplain : c.Plain current) :
    c.Effective current ∧ c.KeepsOthers true current := by
  have hendangered : ∀ v, v ≠ c.username → ∀ q, Endangered true c.username v →
      ¬ Accepts current v q := by
    rintro v hv q (hread | htrim | hhead) haccepts
    · cases hread
    · exact hv (String.toList_inj.mp (htrim.trans h.cleanName.1.1))
    · rw [accepts_eq] at haccepts
      obtain ⟨l, hl, hreads⟩ := haccepts
      exact (htidy l hl v q hreads).2 hhead
  cases c with
  | add user password =>
    obtain ⟨huser, hpassword, hhead⟩ := h
    refine ⟨⟨hplain, huser, hpassword, fun l hl other hshows => ?_, fun hhash => absurd hhash hhead⟩,
      hplain, fun v hv q => ⟨fun l hl hshows => ?_, fun hdanger haccepts => ?_⟩⟩
    · exact absurd hshows.1 (htidy.not_reads_kept hl other)
    · rw [newLines_add huser hpassword, List.mem_singleton] at hl
      rw [hl] at hshows
      exact absurd (hshows.1.unique (reads_credential huser hpassword hhead)).1 hv
    · exact absurd haccepts (hendangered v hv q hdanger)
  | delete user =>
    refine ⟨fun _ => ⟨hplain, fun l hl password hshows => ?_⟩,
      hplain, fun v hv q => ⟨fun l hl => absurd hl List.not_mem_nil, fun hdanger haccepts => ?_⟩⟩
    · exact htidy.not_reads_kept hl password hshows.1
    · exact absurd haccepts (hendangered v hv q hdanger)

end Picoshift.Cli
