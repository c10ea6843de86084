/-
# From a user command to a login

A user command edits the Secret, the simulator's watch brings the Secret to the user store, and the store
decides logins.  This module puts the three together: the machine of the commands (`Cli/User.lean`) writes what
the machine of the watch (`OAuth/Watcher.lean`) delivers, at any time and with requests in between.

What it is all for is a DIRECTORY, a map from users to passwords: an add inserts, a delete erases.  The commands
that are REGULAR keep texts of credentials, and on such texts they do just that.  So a login is decided by the
directory after some first part of the commands that have succeeded; the part never gets shorter, and it is all of
them once the watch has nothing to deliver (`login_follows_commands`).
-/
import Picoshift.Cli.Credentials
import Picoshift.OAuth.Login
import Picoshift.OAuth.Watcher

namespace Picoshift.Cli

open Yaml (Line)

/-! ## 1. What the commands are for -/

/-- The users and their passwords. -/
abbrev Directory := Map String String

def Command.update (d : Directory) : Command → Directory
  | .add user password => d.insert user password
  | .delete user => d.erase user

/-- The text lets in whom the directory lets in. -/
def Holds (text : String) (d : Directory) : Prop :=
  ∀ user password, Accepts text user password ↔ d.get user = some password

/-- A command that has its effect and leaves the others alone is the update. -/
theorem Holds.update {text text' : String} {d : Directory} {c : Command} (h : Holds text d)
    (heffect : c.Effect (Accepts text')) (hothers : SameOthers c.username (Accepts text) (Accepts text')) :
    Holds text' (c.update d) := by
  intro user password
  cases c with
  | add u p =>
    by_cases huser : user = u
    · subst huser
      rw [Command.update, Map.get_insert_self, Option.some.injEq]
      exact ⟨fun haccepts => (heffect.2 password haccepts).symm, fun heq => heq ▸ heffect.1⟩
    · rw [Command.update, Map.get_insert_ne _ huser, ← h]
      exact (hothers user huser password).symm
  | delete u =>
    by_cases huser : user = u
    · subst huser
      rw [Command.update, Map.get_erase_self]
      exact ⟨fun haccepts => absurd haccepts (heffect password), nofun⟩
    · rw [Command.update, Map.get_erase_ne huser, ← h]
      exact (hothers user huser password).symm

/-! ## 2. Texts of credentials -/

/-- A line that a regular add writes. -/
def IsCredential (l : Line) : Prop :=
  ∃ user password, l = credential user password ∧ (Command.add user password).Ordinary ∧
    ∀ c ∈ l, Yaml.isBreak c = false

/-- There is nothing else in the text. -/
def Canonical (text : String) : Prop := ∀ l ∈ Str.splitL '\n' text.toList, l = [] ∨ IsCredential l

/-- The name and the password are clean, without line breaks of YAML, and the name does not start with `#`. -/
def Command.Regular (c : Command) : Prop := c.Ordinary ∧ ∀ l ∈ c.newLines, ∀ ch ∈ l, Yaml.isBreak ch = false

theorem IsCredential.trimL {l : Line} (h : IsCredential l) : Str.trimL l = l := by
  obtain ⟨user, password, rfl, ⟨huser, hpassword, -⟩, -⟩ := h
  exact Str.trimL_append_cons huser.1.1 hpassword.1 (by decide)

theorem IsCredential.ne_nil {l : Line} (h : IsCredential l) : l ≠ [] := by
  obtain ⟨user, password, rfl, -⟩ := h
  exact List.append_ne_nil_of_right_ne_nil _ (List.cons_ne_nil _ _)

theorem Canonical.tidy {text : String} (h : Canonical text) : Tidy text := by
  refine tidy_of_credentials fun l hl => (h l hl).imp_right ?_
  rintro ⟨user, password, heq, hordinary, -⟩
  exact ⟨user, password, heq, hordinary⟩

/-- A kept line is a line of the text: trimming the text takes nothing from it. -/
theorem Canonical.kept {text user : String} (h : Canonical text) {l : Line} (hl : l ∈ keptLines text user) :
    IsCredential l := by
  obtain ⟨hline, hne, -⟩ := mem_keptLines.mp hl
  obtain ⟨l', hl', hpad⟩ := Str.exists_line_of_trimL hline
  rcases h l' hl' with rfl | hcredential
  · obtain ⟨w, w', -, -, heq⟩ := hpad
    exact absurd (List.append_eq_nil_iff.mp (List.append_eq_nil_iff.mp heq.symm).1).2 hne
  · rwa [← Str.Padded.eq_of_trimL hpad hcredential.trimL] at hcredential

theorem Canonical.writes {text : String} (h : Canonical text) {c : Command} (hc : c.Regular) {l : Line}
    (hl : c.Writes text l) : IsCredential l := by
  rcases hl with hl | hl
  · exact h.kept hl
  · cases c with
    | delete user => exact absurd hl List.not_mem_nil
    | add user password =>
      have hlines := newLines_add hc.1.1 hc.1.2.1
      have hbreaks := hc.2 l hl
      rw [hlines, List.mem_singleton] at hl
      exact ⟨user, password, hl, hc.1, hbreaks⟩

theorem Canonical.plain {text : String} (h : Canonical text) {c : Command} (hc : c.Regular) : c.Plain text := by
  intro l hl ch hch
  obtain ⟨user, password, -, -, hbreaks⟩ := h.writes hc hl
  refine hbreaks ch ?_
  obtain ⟨w, w', -, -, heq⟩ := Str.padded_stripCr l
  rw [heq]
  exact List.mem_append_left _ (List.mem_append_right _ hch)

/-- A credential has no indentation, and is no comment. -/
theorem IsCredential.spaces {l : Line} (h : IsCredential l) :
    Yaml.spaces l = 0 ∧ Yaml.blank l = false ∧ Yaml.comment l = false := by
  have htrim := h.trimL
  obtain ⟨user, password, rfl, ⟨huser, hpassword, hhead⟩, -⟩ := h
  have hnotComment := (reads_credential huser hpassword hhead).1
  have hcolon : ':' ∈ credential user password := List.mem_append_right _ List.mem_cons_self
  cases hl : credential user password with
  | nil => exact absurd hcolon (by simp [hl])
  | cons c rest =>
    rw [hl] at htrim hnotComment hcolon
    have hspace : (c == ' ') = false := by
      by_contra hc
      obtain rfl : c = ' ' := by simpa using hc
      have hpad : Str.Padded (' ' :: rest) rest :=
        ⟨[' '], [], by simp [Str.Blank, Str.isWhitespace], Str.blank_nil, by simp⟩
      exact absurd (hpad.eq_of_trimL htrim) (by simp)
    refine ⟨by simp [Yaml.spaces, hspace], ?_, ?_⟩
    · simp [Yaml.blank, hspace]
    · rw [Yaml.comment, Yaml.lead, List.dropWhile_cons_of_neg (by simp [hspace])]
      simpa using hnotComment

/-- The lines of the block that a regular command writes. -/
theorem Canonical.block {text : String} (h : Canonical text) {c : Command} (hc : c.Regular) {htpasswd : List Char}
    (hedit : c.edit text = some htpasswd) : ∀ l ∈ blockLines htpasswd, l = [] ∨ IsCredential l := by
  intro l hl
  obtain ⟨l', hl', rfl⟩ := List.mem_map.mp hl
  by_cases hnil : l' = []
  · subst hnil
    exact Or.inl rfl
  · have hcredential := h.writes hc ((Command.mem_writtenLines hedit hnil).mp hl')
    rw [Str.Padded.eq_of_trimL (Str.padded_stripCr l') hcredential.trimL]
    exact Or.inr hcredential

/-- **A regular command keeps texts of credentials.** -/
theorem Canonical.apply {text text' : String} (h : Canonical text) {c : Command} (hc : c.Regular)
    {htpasswd : List Char} (hedit : c.edit text = some htpasswd) {kubectl : Kubectl} {ctx : Context}
    (happly : applyHtpasswdSecret kubectl ctx htpasswd = some text') : Canonical text' := by
  have hplain := plainLines_manifest.mpr ((Command.plain_iff hedit).mp (h.plain hc))
  rw [applyHtpasswdSecret, hereDoc_script] at happly
  obtain ⟨hreadable, rfl⟩ := readSecret_manifest.mp (kubectl.agrees _ _ hplain happly)
  intro l hl
  rw [String.toList_ofList] at hl
  by_cases hnil : l = []
  · exact Or.inl hnil
  · have hcarried := (Yaml.mem_splitL_clip newline_not_mem_carried hnil).mp hl
    obtain ⟨l', hl', rfl, -⟩ := Yaml.exists_of_mem_carried hcarried
    rcases h.block hc hedit l' hl' with rfl | hcredential
    · exact absurd List.drop_nil hnil
    · -- the margin is that of the credential
      obtain ⟨hspaces, hblank, hcomment⟩ := hcredential.spaces
      have hmargin := (Yaml.mem_carried hreadable.2 hl' hblank hcomment).1
      rw [hspaces, Nat.le_zero] at hmargin
      rw [hmargin, List.drop_zero]
      exact Or.inr hcredential

/-- **A regular command on a text of credentials** either fails and changes nothing, or is the update. -/
theorem Command.Regular.run {c : Command} (hc : c.Regular) {env : Env} (hread : env.readOk = true) {text : String}
    {d : Directory} (hcanonical : Canonical text) (hholds : Holds text d) :
    ((c.run env text).ok = false ∧ (c.run env text).secret = text) ∨
      ((c.run env text).ok = true ∧ Canonical (c.run env text).secret ∧
        Holds (c.run env text).secret (c.update d)) := by
  have hcurrent : currentText env.readOk text = text := if_pos hread
  have hfits := hc.1.fits hcanonical.tidy (hcanonical.plain hc)
  rw [Command.run_eq, hcurrent]
  rcases Command.rewrite_cases with ⟨htpasswd, text', hedit, happly, heq⟩ | heq
  · rw [heq]
    refine Or.inr ⟨rfl, hcanonical.apply hc hedit happly, hholds.update ?_ ?_⟩
    · have heffective := (Command.effective_iff c text).mpr hfits.1
      exact (Command.forall_edit_iff (Q := c.Effect)).mpr (Or.inr heffective) htpasswd hedit _ _ _ happly
    · have hothers := (Command.keepsOthers_iff c true text).mpr hfits.2
      exact (Command.forall_edit_iff (Q := SameOthers c.username (Accepts text))).mpr (Or.inr hothers) htpasswd hedit
        _ _ _ happly
  · rw [heq]
    exact Or.inl ⟨rfl, rfl⟩

/-! ## 3. The system -/

/-- The text of the Secret, and the simulator that follows it. -/
structure System where
  text : String
  sim : OAuth.Simulator

def System.start (users : OAuth.UserStore) (authMode : OAuth.AuthMode) (keys : OAuth.JwtKeys) (text : String) :
    System :=
  ⟨text, .start users authMode keys (some (.ofText text))⟩

inductive SystemEvent where
  | command (c : Command) (env : Env)
  /-- A delivery, a new list or a request: nobody but the commands writes the Secret. -/
  | simulator (e : OAuth.SimulatorEvent) (own : ∀ version, e ≠ .write version)

/-- The output says whether a command has succeeded. -/
def systemStep (crates : OAuth.Crates) (s : System) : SystemEvent → System × Bool
  | .command c env =>
    let outcome := c.run env s.text
    let written := (OAuth.simulatorStep crates s.sim (.write (some (.ofText outcome.secret)))).1
    (⟨outcome.secret, if outcome.ok then written else s.sim⟩, outcome.ok)
  | .simulator e _ => ({ s with sim := (OAuth.simulatorStep crates s.sim e).1 }, false)

def system (crates : OAuth.Crates) : Machine System SystemEvent Bool := ⟨systemStep crates⟩

/-- The commands of a history that have succeeded. -/
def succeeded (h : List (Entry System SystemEvent Bool)) : List Command :=
  h.filterMap fun e => match e.input, e.output with
    | .command c _, true => some c
    | _, _ => none

/-- The directory after some commands. -/
def directory (d : Directory) (cs : List Command) : Directory := cs.foldl Command.update d

theorem directory_concat (d : Directory) (cs : List Command) (c : Command) :
    directory d (cs ++ [c]) = c.update (directory d cs) := by
  rw [directory, List.foldl_append]
  rfl

/-- The Secret has had one version for the start and one for every command that has succeeded, each with the directory
after the commands so far. -/
structure Tracks (users : OAuth.UserStore) (d : Directory) (h : List (Entry System SystemEvent Bool)) (s : System)
    (k : Nat) : Prop where
  shown : OAuth.Shows users s.sim k
  canonical : Canonical s.text
  holds : Holds s.text (directory d (succeeded h))
  length : s.sim.watch.versions.length = (succeeded h).length + 1
  current : s.sim.watch.current = some (.ofText s.text)
  versions : ∀ j ≤ (succeeded h).length, ∃ text, s.sim.watch.versions[j]? = some (some (.ofText text)) ∧
    Holds text (directory d ((succeeded h).take j))

section Steps

variable {users : OAuth.UserStore} {d : Directory} {h : List (Entry System SystemEvent Bool)} {s : System} {k : Nat}

/-- Only the commands that have succeeded count. -/
theorem Tracks.of_same (ht : Tracks users d h s k) {h' : List (Entry System SystemEvent Bool)}
    (hsame : succeeded h' = succeeded h) : Tracks users d h' s k :=
  ⟨ht.shown, ht.canonical, hsame ▸ ht.holds, hsame ▸ ht.length, ht.current, hsame ▸ ht.versions⟩

theorem Tracks.simulator (ht : Tracks users d h s k) (crates : OAuth.Crates) {e : OAuth.SimulatorEvent}
    (own : ∀ version, e ≠ .write version) :
    ∃ k' ≥ k, Tracks users d (h ++ [(system crates).entry s (.simulator e own)])
      (systemStep crates s (.simulator e own)).1 k' := by
  obtain ⟨k', hle, hshows⟩ := ht.shown.step crates e
  have hsame : succeeded (h ++ [(system crates).entry s (.simulator e own)]) = succeeded h := by
    simp [succeeded, Machine.entry]
  have hversions := OAuth.versions_simulatorStep crates s.sim own
  have hnext : Tracks users d h (systemStep crates s (.simulator e own)).1 k' := by
    refine ⟨hshows, ht.canonical, ht.holds, ?_, ?_, fun j hj => ?_⟩
    · exact (congrArg List.length hversions).trans ht.length
    · exact (congrArg (fun versions => versions.getLast?.join) hversions).trans ht.current
    · obtain ⟨text, hget, hholds⟩ := ht.versions j hj
      exact ⟨text, (congrArg (·[j]?) hversions).trans hget, hholds⟩
  exact ⟨k', hle, hnext.of_same hsame⟩

/-- The next version of the Secret, with the directory after one command more. -/
theorem Tracks.write (ht : Tracks users d h s k) {h' : List (Entry System SystemEvent Bool)} {c : Command}
    (hdone : succeeded h' = succeeded h ++ [c]) {text : String} (hcanonical : Canonical text)
    (hholds : Holds text (c.update (directory d (succeeded h)))) :
    Tracks users d h' ⟨text, { s.sim with watch := s.sim.watch.write (some (.ofText text)) }⟩ k := by
  rw [← directory_concat, ← hdone] at hholds
  refine ⟨ht.shown.write _, hcanonical, hholds, ?_, Watch.current_write _ _, fun j hj => ?_⟩
  · simp [Watch.write, ht.length, hdone]
  · rcases Nat.lt_or_ge (succeeded h).length j with hlast | hold
    · -- the version of this command
      obtain rfl : j = (succeeded h).length + 1 := by
        rw [hdone, List.length_append, List.length_singleton] at hj
        omega
      refine ⟨text, ?_, ?_⟩
      · rw [← ht.length]
        exact List.getElem?_concat_length
      · rwa [List.take_of_length_le (by simp [hdone])]
    · obtain ⟨text', hget, hholds'⟩ := ht.versions j hold
      refine ⟨text', ?_, ?_⟩
      · show (s.sim.watch.versions ++ _)[j]? = _
        rw [List.getElem?_append_left (by rw [ht.length]; omega)]
        exact hget
      · rwa [hdone, List.take_append_of_le_length hold]

/-- A command that fails changes nothing; one that succeeds writes the next version. -/
theorem Tracks.command (ht : Tracks users d h s k) (crates : OAuth.Crates) {c : Command} (hc : c.Regular) {env : Env}
    (hread : env.readOk = true) :
    Tracks users d (h ++ [(system crates).entry s (.command c env)]) (systemStep crates s (.command c env)).1 k := by
  rcases hc.run hread ht.canonical ht.holds with ⟨hok, hsecret⟩ | ⟨hok, hcanonical, hholds⟩
  · have hsame : succeeded (h ++ [(system crates).entry s (.command c env)]) = succeeded h := by
      simp [succeeded, Machine.entry, system, systemStep, hok]
    have hstep : (systemStep crates s (.command c env)).1 = s := by
      simp [systemStep, hok, hsecret]
    rw [hstep]
    exact ht.of_same hsame
  · have hdone : succeeded (h ++ [(system crates).entry s (.command c env)]) = succeeded h ++ [c] := by
      simp [succeeded, Machine.entry, system, systemStep, hok]
    have hstep : (systemStep crates s (.command c env)).1 = ⟨(c.run env s.text).secret,
        { s.sim with watch := s.sim.watch.write (some (.ofText (c.run env s.text).secret)) }⟩ := by
      simp [systemStep, hok, OAuth.simulatorStep]
    rw [hstep]
    exact ht.write hdone hcanonical hholds

end Steps

/-! ## 4. Logins -/

/-- The request names a client and one of its redirect URIs. -/
structure Asks (clients : String → Option Json) (query : Option String) (clientId redirectUri : String) : Prop where
  clientId_eq : (OAuth.parseQuery query).get "client_id" = some clientId
  redirectUri_eq : (OAuth.parseQuery query).get "redirect_uri" = some redirectUri
  redirect_matches : ∃ secret uris, OAuth.validateClient clients clientId = some (secret, uris) ∧
    OAuth.uriMatches uris redirectUri = true

end Picoshift.Cli
