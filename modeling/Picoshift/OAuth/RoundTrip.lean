/-
# From the token back to its user

`handle_token` writes a token and `handle_userinfo` reads it, and the two share no code: the writer
picks a format by the mode, the reader by how the text begins; the writer puts the user's e-mail
address and groups into the claims, the reader looks them up again.

`token_round_trip` says that they agree.  A random token begins with `sha256~` and is looked up, a
signed one begins with `eyJ` and is taken apart, and neither can be mistaken for the other.  The one
that is looked up is still there, whatever sweeps have run (`Kept`), and still belongs to its user,
since random values do not repeat (`Owned`).
-/
import Picoshift.OAuth.Exchange
import Picoshift.OAuth.Userinfo

namespace Picoshift.OAuth

/-! ## 1. The two ends -/

/-- The claims inside a token in compact form. -/
def jwtClaims (crates : Crates) (token : String) : Option Json :=
  match Str.splitn token 3 '.' with
  | _ :: part :: _ => (Base64.decode Base64.urlSafeNoPad part).bind crates.fromSlice
  | _ => none

theorem jwtClaims_compactJwt {crates : Crates} {headerTail payload signature : List UInt8} {claims : Json}
    (h : crates.fromSlice payload = some claims) :
    jwtClaims crates (compactJwt headerTail payload signature) = some claims := by
  simp [jwtClaims, splitn_compactJwt, h]

/-- A member of the answer. -/
def Response.member (r : Response) (name : String) : Option Json := r.jsonBody.bind fun j => j.get name

/-- What userinfo reports of a user. -/
theorem member_handleUserinfo {crates : Crates} {now : Nat} {st : OAuthState} {token username : String}
    (h : tokenUser crates now st token = some username) :
    let r := handleUserinfo crates now st (some ("Bearer " ++ token))
    r.member "email" = some (.str (st.userStore.profile username).1) ∧
      r.member "groups" = some (.ofStrings (st.userStore.profile username).2) := by
  simp only [handleUserinfo, Option.getD_some, Str.stripPrefix_append, h]
  exact ⟨rfl, rfl⟩

/-- A signed token carries the claims it was made from. -/
theorem jwtClaims_of_mint {crates : Crates} (hjwt : LawfulJwt crates) {env : Env} {st : OAuthState}
    {keys : JwtKeys} (hkeys : st.jwtKeys = some keys) {username clientId token : String}
    (h : mintToken crates env st username clientId = some token) :
    ∃ claims, jwtClaims crates token = some claims ∧
      ∀ name, claims.get name =
        (tokenClaims st.userStore username clientId env.unixSecs).get name := by
  rw [mintToken, hkeys] at h
  obtain ⟨headerTail, payload, signature, claims, rfl, hread, hget⟩ := hjwt.compact h
  exact ⟨claims, jwtClaims_compactJwt hread, hget⟩

/-! ## 2. The format -/

theorem Effect.jwtKeys {crates : Crates} {s s' : Server} {i : Input} {out : Option Response}
    (h : Effect crates s i s' out) : s'.oauth.jwtKeys = s.oauth.jwtKeys := by
  cases h <;> rfl

/-- The keys of the mode stay. -/
theorem jwtKeys_exec (crates : Crates) (userStore : UserStore) (authMode : AuthMode) (keys : JwtKeys)
    (run : List Input) :
    ((server crates).exec (.init userStore authMode keys) run).oauth.jwtKeys =
      if authMode = .oidc then some keys else none := by
  refine (server crates).invariant
    (P := fun s => s.oauth.jwtKeys = if authMode = .oidc then some keys else none) rfl ?_ run
  intro s i hs
  exact (step_effect crates s i).jwtKeys.trans hs

/-- The reader tells the formats apart: a token of the oidc mode begins with `eyJ`, any other one is
`sha256~` and a random text, and does not. -/
def FormatOk (authMode : AuthMode) (rand token : String) : Prop :=
  if authMode = .oidc then Str.startsWith token "eyJ" = true
  else token = "sha256~" ++ rand ∧ Str.startsWith token "eyJ" = false

theorem formatOk_of_mint {crates : Crates} (hjwt : LawfulJwt crates) {env : Env} {st : OAuthState}
    {authMode : AuthMode} {keys : JwtKeys}
    (hkeys : st.jwtKeys = if authMode = .oidc then some keys else none)
    {username clientId token : String} (h : mintToken crates env st username clientId = some token) :
    FormatOk authMode env.rand token := by
  rw [mintToken, hkeys] at h
  unfold FormatOk
  split
  · rename_i hmode
    rw [if_pos hmode] at h
    obtain ⟨headerTail, payload, signature, _, rfl, _⟩ := hjwt.compact h
    exact compactJwt_startsWith _ _ _
  · rename_i hmode
    rw [if_neg hmode] at h
    cases h
    exact ⟨rfl, not_startsWith_random _⟩

/-! ## 3. The whole way -/

/-- The token of an answered exchange is handed out by it. -/
theorem Answers.returned {crates : Crates} {userStore : UserStore} {authMode : AuthMode}
    {keys : JwtKeys} {past : List Input} {i : Input} {id : Nat} {req : TokenRequest}
    {authCode : AuthCode} {token : String}
    (hans : Answers ((server crates).entry
      ((server crates).exec (.init userStore authMode keys) past) i) id req authCode token)
    (rest : List Input) :
    Returned ((server crates).trace (.init userStore authMode keys) (past ++ i :: rest)) token
      authCode.username i.env.now := by
  have hissued := (traced crates userStore authMode keys past).exchanges _ _ hans.pending
  have htrace := (server crates).trace_append (.init userStore authMode keys) past (i :: rest)
  exact ⟨_, _, _, id, req, authCode, htrace, hans, hissued, rfl, rfl⟩

/-- **A token that was handed out for a user names that user as long as it lives.**  Userinfo
reports the e-mail address and the groups that stand in the claims of a signed token, and takes no
token of one format for one of the other. -/
theorem token_round_trip {crates : Crates} (hjwt : LawfulJwt crates) (userStore : UserStore)
    (authMode : AuthMode) (keys : JwtKeys) (past : List Input) (i : Input) (rest : List Input)
    (hclock : ((past ++ i :: rest).map fun j => j.env.now).Pairwise (· ≤ ·))
    (hfresh : Fresh ((server crates).trace (.init userStore authMode keys) (past ++ i :: rest)))
    {id : Nat} {req : TokenRequest} {authCode : AuthCode} {token : String}
    (hans : Answers ((server crates).entry
      ((server crates).exec (.init userStore authMode keys) past) i) id req authCode token)
    (now : Nat) (hnow : ∀ j ∈ past ++ i :: rest, j.env.now ≤ now) (hage : now - i.env.now < tokenTtl)
    (hstore : ((server crates).exec (.init userStore authMode keys)
        (past ++ i :: rest)).oauth.userStore =
      ((server crates).exec (.init userStore authMode keys) past).oauth.userStore) :
    let r := handleUserinfo crates now
      ((server crates).exec (.init userStore authMode keys) (past ++ i :: rest)).oauth
      (some ("Bearer " ++ token))
    Names r authCode.username ∧
      (authMode = .oidc → ∃ claims, jwtClaims crates token = some claims ∧
        r.member "email" = claims.get "email" ∧ r.member "groups" = claims.get "groups") ∧
      FormatOk authMode i.env.rand token := by
  have hkeys := jwtKeys_exec crates userStore authMode keys past
  have hmint := (hans.effect (step_effect crates _ i)).1
  have hformat := formatOk_of_mint hjwt hkeys hmint
  have hreturned := hans.returned rest
  have hkept := kept crates userStore authMode keys _ (clockOk_trace crates _ hclock)
  have hpast := now_le_of_mem_trace crates (.init userStore authMode keys) hnow
  have huser : tokenUser crates now
      ((server crates).exec (.init userStore authMode keys) (past ++ i :: rest)).oauth token =
        some authCode.username := by
    by_cases hmode : authMode = .oidc
    · -- the name is read off the token
      rw [FormatOk, if_pos hmode] at hformat
      rw [tokenUser_of_eyJ _ _ _ hformat]
      rcases mintToken_spec hjwt hmint with ⟨-, rfl⟩ | ⟨-, hname⟩
      · rw [not_startsWith_random] at hformat
        cases hformat
      · exact hname
    · -- the token is still in the map, and nobody else's
      rw [FormatOk, if_neg hmode] at hformat
      rcases hkept token _ _ hreturned with ⟨info, hin, hle⟩ | ⟨e, he, hold⟩
      · have howner := (owned hjwt hfresh).owner token _ _ info hreturned hin
        have hyoung : now - info.created < tokenTtl := by omega
        simp only [tokenUser, hformat.2, hin, hyoung, if_true, howner, Bool.false_eq_true, if_false]
      · have := hpast e he
        omega
  refine ⟨(names_handleUserinfo_iff _ _ _ _ _).mpr huser, fun hmode => ?_, hformat⟩
  rw [if_pos hmode] at hkeys
  obtain ⟨claims, hclaims, hget⟩ := jwtClaims_of_mint hjwt hkeys hmint
  obtain ⟨hemail, hgroups⟩ := member_handleUserinfo huser
  refine ⟨claims, hclaims, ?_, ?_⟩
  · rw [hemail, hget, hstore]
    rfl
  · rw [hgroups, hget, hstore]
    rfl

/-- A step that answers an exchange with 200 hands out a token. -/
theorem exists_answers {crates : Crates} {s : Server} {i : Input} {id : Nat}
    (haction : i.action = .tokenInsert id)
    (hok : ((server crates).entry s i).output.map Response.status = some 200) :
    ∃ req authCode token, Answers ((server crates).entry s i) id req authCode token := by
  obtain ⟨r, hr, hstatus⟩ := Option.map_eq_some_iff.mp hok
  have hplain : ¬ Plain i ((server crates).entry s i).output :=
    fun h => (h r hr).2 ⟨id, haction⟩ hstatus
  rcases Effect.issues_or_answers (e := (server crates).entry s i) (step_effect crates s i) hplain with
    ⟨_, hissues, -⟩ | ⟨id', req, authCode, token, hans⟩
  · rcases hissues.action with ⟨_, ha⟩ | ⟨_, ha⟩ <;> cases haction.symm.trans ha
  · cases haction.symm.trans hans.action
    exact ⟨req, authCode, token, hans⟩

/-- Storing a token leaves the users alone. -/
theorem userStore_tokenInsert (crates : Crates) (s : Server) (env : Env) (id : Nat) :
    ((server crates).exec s [⟨env, .tokenInsert id⟩]).oauth.userStore = s.oauth.userStore := by
  simp only [Machine.exec, server, step, storeToken]
  split
  · split <;> rfl
  · rfl

/-- The step that answers the exchange of the sample run. -/
def lastStep : Input := ⟨sampleEnv (secs 2) "token1", .tokenInsert 0⟩

/-- The end of a login and an exchange in oidc mode, and userinfo a day less a second later. -/
theorem token_round_trip_sampleRun :
    ∃ req authCode token,
      Answers ((server unsignedCrates).entry
          ((server unsignedCrates).exec (.init .default .oidc ⟨"key", "kid"⟩) (sampleRun.take 3))
          lastStep) 0 req authCode token ∧
        Names (handleUserinfo unsignedCrates (secs 86401)
          ((server unsignedCrates).exec (.init .default .oidc ⟨"key", "kid"⟩)
            (sampleRun.take 3 ++ [lastStep])).oauth
          (some ("Bearer " ++ token))) authCode.username := by
  have hok : ((server unsignedCrates).entry
      ((server unsignedCrates).exec (.init .default .oidc ⟨"key", "kid"⟩) (sampleRun.take 3))
      lastStep).output.map Response.status = some 200 := by decide +kernel
  obtain ⟨req, authCode, token, hans⟩ := exists_answers rfl hok
  have hfresh : Fresh ((server unsignedCrates).trace (.init .default .oidc ⟨"key", "kid"⟩)
      (sampleRun.take 3 ++ [lastStep])) := by
    unfold Fresh
    decide +kernel
  have hstore : ((server unsignedCrates).exec (.init .default .oidc ⟨"key", "kid"⟩)
      (sampleRun.take 3 ++ [lastStep])).oauth.userStore =
        ((server unsignedCrates).exec (.init .default .oidc ⟨"key", "kid"⟩)
          (sampleRun.take 3)).oauth.userStore := by
    rw [Machine.exec_append, lastStep, userStore_tokenInsert]
  have hclock : ((sampleRun.take 3 ++ [lastStep]).map fun j => j.env.now).Pairwise (· ≤ ·) := by decide
  have hnow : ∀ j ∈ sampleRun.take 3 ++ [lastStep], j.env.now ≤ secs 86401 := by decide
  refine ⟨req, authCode, token, hans, ?_⟩
  exact (token_round_trip lawfulJwt_unsignedCrates .default .oidc ⟨"key", "kid"⟩ (sampleRun.take 3)
    lastStep [] hclock hfresh hans (secs 86401) hnow (by decide) hstore).1

end Picoshift.OAuth
