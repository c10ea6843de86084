/-
# Whom userinfo names

`handle_userinfo` should name a user only to the holder of a token that the server handed out
for that user and that has not expired.  It has two branches, chosen by how the bearer text
begins, and only one of them looks anything up.

* A text that does not begin with `eyJ` is looked up in the token map and its age is checked.
  There the map is right about every token (`Traced`), so the answer is.
* A text that begins with `eyJ` is taken apart and BELIEVED: no signature is checked, no map is
  read, no age is checked.  Whoever writes `admin` into a payload is `admin`.

So the exact condition is the lookup that the second branch leaves out
(`userinfo_names_holders_iff`).  For the direction from right to left the two branches have to
agree where both apply (`Signed`); for the other one a token that was handed out must still be
in the map while it is young (`Kept`), whatever sweeps have run.
-/
import Picoshift.OAuth.Server

namespace Picoshift.OAuth

/-! ## 1. What the answer says -/

/-- The answer is a success that names `username`. -/
def Names (r : Response) (username : String) : Prop :=
  r.status = 200 ∧ (r.jsonBody.bind fun j => j.get "preferred_username").bind Json.asStr = some username

theorem names_handleUserinfo_iff (crates : Crates) (now : Nat) (st : OAuthState) (token username : String) :
    Names (handleUserinfo crates now st (some ("Bearer " ++ token))) username ↔
      tokenUser crates now st token = some username := by
  cases h : tokenUser crates now st token with
  | none => simp [handleUserinfo, h, Names, jsonResponse]
  | some u =>
    have hget : ∀ email groups, (Json.obj [("sub", .str u), ("name", .str u),
        ("preferred_username", .str u), email, groups]).get "preferred_username" = some (.str u) :=
      fun _ _ => rfl
    simp [handleUserinfo, h, Names, jsonResponse, Response.jsonBody, hget, Json.asStr]

/-- A text that begins with `eyJ` is believed. -/
theorem tokenUser_of_eyJ (crates : Crates) (now : Nat) (st : OAuthState) {token : String}
    (heyJ : Str.startsWith token "eyJ" = true) :
    tokenUser crates now st token = decodeJwtUsername crates token := by
  rw [tokenUser, if_pos heyJ]

/-- Any other text is looked up. -/
theorem young_of_tokenUser {crates : Crates} {now : Nat} {st : OAuthState} {token username : String}
    (heyJ : Str.startsWith token "eyJ" = false) (huser : tokenUser crates now st token = some username) :
    ∃ info, st.tokens.get token = some info ∧ now - info.created < tokenTtl ∧
      info.username = username := by
  rw [tokenUser, if_neg (by simp [heyJ])] at huser
  split at huser
  · rename_i info hin
    split at huser
    · rename_i hage
      exact ⟨info, hin, hage, Option.some.inj huser⟩
    · exact absurd huser (by simp)
  · exact absurd huser (by simp)

/-! ## 2. Signed tokens in the map -/

/-- The two branches agree where both apply: a stored token that begins with `eyJ` carries the
name it is stored for. -/
def Signed (crates : Crates) (s : Server) : Prop :=
  ∀ token info, s.oauth.tokens.get token = some info → Str.startsWith token "eyJ" = true →
    decodeJwtUsername crates token = some info.username

theorem signed_step {crates : Crates} (hjwt : LawfulJwt crates) {s s' : Server} {i : Input}
    {out : Option Response} (heff : Effect crates s i s' out) (hs : Signed crates s) : Signed crates s' := by
  cases heff with
  | answered action pending mint =>
    intro t info hget heyJ
    rcases Map.get_insert_eq_some.mp hget with ⟨rfl, rfl⟩ | ⟨-, hold⟩
    · rcases mintToken_spec hjwt mint with ⟨-, rfl⟩ | ⟨-, hname⟩
      · rw [not_startsWith_random] at heyJ
        exact absurd heyJ (by simp)
      · exact hname
    · exact hs t info hold heyJ
  | sweptTokens _ => exact fun t info hget => hs t info (Map.get_retain_eq_some.mp hget).1
  | _ => exact hs

theorem signed {crates : Crates} (hjwt : LawfulJwt crates) (userStore : UserStore)
    (authMode : AuthMode) (keys : JwtKeys) (run : List Input) :
    Signed crates ((server crates).exec (.init userStore authMode keys) run) :=
  (server crates).invariant (fun _ _ h => absurd h (by simp [Server.init, OAuthState.new]))
    (fun s i hs => signed_step hjwt (step_effect crates s i) hs) run

/-! ## 3. Young tokens stay -/

/-- The clock does not go back. -/
def ClockOk (h : History) : Prop := (h.map fun e => e.input.env.now).Pairwise (· ≤ ·)

/-- The clock of a trace is the clock of its run. -/
theorem clockOk_trace (crates : Crates) (s : Server) {run : List Input}
    (h : (run.map fun i => i.env.now).Pairwise (· ≤ ·)) : ClockOk ((server crates).trace s run) := by
  rw [← (server crates).map_input_trace s run, List.map_map] at h
  exact h

theorem now_le_of_mem_trace (crates : Crates) (s : Server) {run : List Input} {now : Nat}
    (h : ∀ i ∈ run, i.env.now ≤ now) : ∀ e ∈ (server crates).trace s run, e.input.env.now ≤ now := by
  intro e he
  refine h e.input ?_
  rw [← (server crates).map_input_trace s run]
  exact List.mem_map_of_mem he

theorem clockOk_append {h : History} {e : Entry Server Input (Option Response)}
    (hok : ClockOk (h ++ [e])) : ClockOk h ∧ ∀ e' ∈ h, e'.input.env.now ≤ e.input.env.now := by
  unfold ClockOk at hok
  rw [List.map_append, List.pairwise_append] at hok
  exact ⟨hok.1, fun e' he' => hok.2.2 _ (List.mem_map_of_mem he') _ (by simp)⟩

theorem Returned.mem {h : History} {token username : String} {time : Nat}
    (hr : Returned h token username time) : ∃ e ∈ h, e.input.env.now = time := by
  obtain ⟨h₁, e, h₂, -, -, -, rfl, -, -, -, htime⟩ := hr
  exact ⟨e, by simp, htime⟩

/-- A token that was handed out is in the map, stored at that time or later, unless the clock
has passed its lifetime. -/
def Kept (h : History) (s : Server) : Prop :=
  ∀ token username time, Returned h token username time →
    (∃ info, s.oauth.tokens.get token = some info ∧ time ≤ info.created) ∨
      ∃ e ∈ h, tokenTtl ≤ e.input.env.now - time

/-- Steps that leave the token map alone keep it, if the last of them hands nothing out. -/
theorem Kept.append {h : History} {s s' : Server} {e : Entry Server Input (Option Response)}
    (hk : Kept h s) (hsame : s'.oauth.tokens = s.oauth.tokens)
    (hnew : ∀ id req authCode token, ¬ Answers e id req authCode token) : Kept (h ++ [e]) s' := by
  intro token username time hr
  rcases returned_append_singleton hr with hold | ⟨id, req, authCode, hans, -⟩
  · rw [hsame]
    rcases hk token username time hold with hin | ⟨e', he', hlt⟩
    · exact Or.inl hin
    · exact Or.inr ⟨e', List.mem_append_left _ he', hlt⟩
  · exact absurd hans (hnew _ _ _ _)

theorem kept_step {crates : Crates} {h : History} {e : Entry Server Input (Option Response)}
    (heff : Effect crates e.before e.input e.after e.output) (hok : ClockOk (h ++ [e]))
    (hk : Kept h e.before) : Kept (h ++ [e]) e.after := by
  have hclock := (clockOk_append hok).2
  obtain ⟨s, i, out, s'⟩ := e
  simp only at heff hk hclock ⊢
  cases heff with
  | idle plain => exact hk.append rfl (not_answers_of_plain plain)
  | issued _ _ action => exact hk.append rfl (not_answers_of_authorize action)
  | spoiled _ plain => exact hk.append rfl (not_answers_of_plain plain)
  | consumed _ _ _ _ => exact hk.append rfl (not_answers_of_output_none rfl)
  | dropped plain => exact hk.append rfl (not_answers_of_plain plain)
  | cleared _ _ _ => exact hk.append rfl (not_answers_of_output_none rfl)
  | answered action pending mint =>
    -- the new entry, or an overwritten one, is as young as can be
    rename_i id req authCode token
    intro t username time hr
    by_cases ht : t = token
    · subst ht
      refine Or.inl ⟨_, Map.get_insert_self _ _ _, ?_⟩
      obtain ⟨e', he', rfl⟩ := hr.mem
      rcases List.mem_append.mp he' with he' | he'
      · exact hclock e' he'
      · rw [List.mem_singleton] at he'
        subst he'
        exact le_rfl
    · rcases returned_append_singleton hr with hold | ⟨id', req', authCode', hans, -⟩
      · rcases hk t username time hold with ⟨info, hin, hle⟩ | ⟨e', he', hlt⟩
        · exact Or.inl ⟨info, (Map.get_insert_ne _ ht).trans hin, hle⟩
        · exact Or.inr ⟨e', List.mem_append_left _ he', hlt⟩
      · exact absurd (tokenResponse_injective (Option.some.inj hans.output)).symm ht
  | sweptCodes _ => exact hk.append rfl (not_answers_of_output_none rfl)
  | sweptTokens _ =>
    -- what the sweep drops is past its lifetime
    intro t username time hr
    rcases returned_append_singleton hr with hold | ⟨_, _, _, hans, -⟩
    · rcases hk t username time hold with ⟨info, hin, hle⟩ | ⟨e', he', hlt⟩
      · by_cases hage : i.env.now - info.created < secs 86400
        · exact Or.inl ⟨info, Map.get_retain_eq_some.mpr ⟨hin, decide_eq_true hage⟩, hle⟩
        · refine Or.inr ⟨_, List.mem_append_right _ List.mem_cons_self, ?_⟩
          have : tokenTtl = secs 86400 := rfl
          show tokenTtl ≤ i.env.now - time
          omega
      · exact Or.inr ⟨e', List.mem_append_left _ he', hlt⟩
    · exact absurd hans.output (by simp)
  | reloaded => exact hk.append rfl (not_answers_of_output_none rfl)

theorem kept (crates : Crates) (userStore : UserStore) (authMode : AuthMode) (keys : JwtKeys)
    (run : List Input)
    (hok : ClockOk ((server crates).trace (.init userStore authMode keys) run)) :
    Kept ((server crates).trace (.init userStore authMode keys) run)
      ((server crates).exec (.init userStore authMode keys) run) := by
  exact (server crates).run_induction (fun _ _ hok => (clockOk_append hok).1)
    (fun _ _ _ hr => absurd hr returned_nil)
    (fun _ s i hk hok => kept_step (e := (server crates).entry s i) (step_effect crates s i) hok hk)
    run hok

/-! ## 4. The condition -/

/-- The token was handed out in this run for a code issued to `username`, and less than its
lifetime ago. -/
def Holds (h : History) (now : Nat) (token username : String) : Prop :=
  ∃ time, Returned h token username time ∧ now - time < tokenTtl

/-- The map has the token, and it is young. -/
def Live (st : OAuthState) (now : Nat) (token : String) : Prop :=
  ∃ info, st.tokens.get token = some info ∧ now - info.created < tokenTtl

/-- In every reachable state, userinfo names a user to nobody but a holder of that user's token
exactly for those bearer texts that the map vouches for, or that name nobody. -/
theorem userinfo_names_holders_iff {crates : Crates} (hjwt : LawfulJwt crates)
    (userStore : UserStore) (authMode : AuthMode) (keys : JwtKeys) (run : List Input)
    (hclock : (run.map fun i => i.env.now).Pairwise (· ≤ ·)) (now : Nat)
    (hnow : ∀ i ∈ run, i.env.now ≤ now) (token : String) :
    (∀ username,
        Names (handleUserinfo crates now
          ((server crates).exec (.init userStore authMode keys) run).oauth
          (some ("Bearer " ++ token))) username →
        Holds ((server crates).trace (.init userStore authMode keys) run) now token username) ↔
      Str.startsWith token "eyJ" = false ∨ decodeJwtUsername crates token = none ∨
        Live ((server crates).exec (.init userStore authMode keys) run).oauth now token := by
  have htraced := traced crates userStore authMode keys run
  have hsigned := signed hjwt userStore authMode keys run
  have hkept := kept crates userStore authMode keys run (clockOk_trace crates _ hclock)
  have hpast := now_le_of_mem_trace crates (.init userStore authMode keys) hnow
  generalize (server crates).exec (.init userStore authMode keys) run = s at *
  generalize (server crates).trace (.init userStore authMode keys) run = h at *
  simp only [names_handleUserinfo_iff]
  constructor
  · intro hall
    cases heyJ : Str.startsWith token "eyJ" with
    | false => exact Or.inl rfl
    | true =>
      cases hname : decodeJwtUsername crates token with
      | none => exact Or.inr (Or.inl rfl)
      | some username =>
        obtain ⟨time, hret, hage⟩ := hall username ((tokenUser_of_eyJ crates now s.oauth heyJ).trans hname)
        rcases hkept token username time hret with ⟨info, hin, hle⟩ | ⟨e, he, hlt⟩
        · exact Or.inr (Or.inr ⟨info, hin, by omega⟩)
        · have := hpast e he
          omega
  · intro hcond username huser
    -- in either branch the map has a young entry for this user
    obtain ⟨info, hin, hage, rfl⟩ : ∃ info, s.oauth.tokens.get token = some info ∧
        now - info.created < tokenTtl ∧ info.username = username := by
      cases heyJ : Str.startsWith token "eyJ" with
      | false => exact young_of_tokenUser heyJ huser
      | true =>
        rw [tokenUser_of_eyJ crates now s.oauth heyJ] at huser
        rcases hcond with hno | hno | ⟨info, hin, hage⟩
        · exact absurd (heyJ.symm.trans hno) (by simp)
        · exact absurd (huser.symm.trans hno) (by simp)
        · have hname := hsigned token info hin heyJ
          exact ⟨info, hin, hage, Option.some.inj (hname.symm.trans huser)⟩
    exact ⟨info.created, htraced.tokens token info hin, hage⟩

/-- The condition at a run in which a token was handed out. -/
theorem userinfo_names_holders_iff_sampleRun :
    (∀ username,
        Names (handleUserinfo unsignedCrates (secs 3)
          ((server unsignedCrates).exec (.init .default .legacy ⟨"", ""⟩) sampleRun).oauth
          (some ("Bearer " ++ "sha256~token1"))) username →
        Holds ((server unsignedCrates).trace (.init .default .legacy ⟨"", ""⟩) sampleRun)
          (secs 3) "sha256~token1" username) ↔
      Str.startsWith "sha256~token1" "eyJ" = false ∨ decodeJwtUsername unsignedCrates "sha256~token1" = none ∨
        Live ((server unsignedCrates).exec (.init .default .legacy ⟨"", ""⟩) sampleRun).oauth
          (secs 3) "sha256~token1" :=
  userinfo_names_holders_iff lawfulJwt_unsignedCrates .default .legacy ⟨"", ""⟩ sampleRun
    (by decide) (secs 3) (by decide) "sha256~token1"

/-- A token that nobody handed out: the header names no algorithm, the payload says `admin`, and
the signature is one letter. -/
def forgedToken : String := "eyJhbGciOiJub25lIn0.eyJzdWIiOiJhZG1pbiJ9.x"

/-- A server that has just started names `admin` to whoever presents it. -/
theorem userinfo_names_forger :
    ¬ ∀ username,
      Names (handleUserinfo unsignedCrates 0
        ((server unsignedCrates).exec (.init .default .legacy ⟨"", ""⟩) []).oauth
        (some ("Bearer " ++ forgedToken))) username →
      Holds ((server unsignedCrates).trace (.init .default .legacy ⟨"", ""⟩) []) 0 forgedToken
        username := by
  intro hall
  have hname : tokenUser unsignedCrates 0 ((server unsignedCrates).exec (.init .default .legacy ⟨"", ""⟩) []).oauth
      forgedToken = some "admin" := by decide +kernel
  obtain ⟨_, hret, _⟩ := hall "admin" ((names_handleUserinfo_iff _ _ _ _ _).mpr hname)
  exact returned_nil hret

end Picoshift.OAuth
