/-
# From a code to its token

A client that has received a code from this server should get a token for it: the code is its own, it
has not been presented, its lifetime is not over, and the request brings everything the server asks
for.  `code_redeemed_iff` says when that is so.  Of the four things that can go wrong one is a matter of
routing, and decides alone:

* in byoidc mode every token request goes to the provider, also for codes issued here;
* a sweep takes the code in the last instant of its lifetime, when `handle_token` would still take it;
* a challenge without a method is read as S256, whatever the client has used;
* a secret in a Basic header is not read.

What happens to a code between its issue and the request is one equation, `codes_exec`: it is still
there unless a sweep found it too old.
-/
import Picoshift.OAuth.ClientAuth
import Picoshift.OAuth.Exchange
import Picoshift.OAuth.RoundTrip
import Picoshift.OAuth.Router

namespace Picoshift.OAuth

/-! ## 1. A code waits

Nobody presents the code and nobody draws it again: then it stays where it is, unless a sweep finds it
too old. -/

/-- The step presents `code`. -/
def Presents (i : Input) (code : String) : Prop :=
  ∃ id body authorization req, i.action = .tokenLookup id body authorization ∧
    parseTokenRequest body authorization = .ok req ∧ req.code = code

def Action.isCodeSweep : Action → Bool
  | .sweepCodes => true
  | _ => false

/-- The code is not dropped by the step, if it is a sweep. -/
def survives (i : Input) (authCode : AuthCode) : Bool :=
  !i.action.isCodeSweep || decide (i.env.now - authCode.created < codeTtl)

/-- Authorizing touches no code but the one it draws. -/
theorem codes_of_outcome {env : Env} {st : OAuthState} {out : OAuthState × Response} {code : String}
    (h : AuthorizeOutcome crates env st out) (hrand : out.2.status = 302 → env.rand ≠ code) :
    out.1.codes.get code = st.codes.get code := by
  rcases h with ⟨hst, -⟩ | ⟨g, -, rfl⟩
  · rw [hst]
  · exact Map.get_insert_ne _ (hrand rfl).symm

/-- Taking a code out leaves the others. -/
theorem codes_consumeCode (crates : Crates) (now : Nat) (st : OAuthState) {req : TokenRequest}
    {code : String} (h : code ≠ req.code) :
    (consumeCode crates now st req).1.codes.get code = st.codes.get code := by
  unfold consumeCode
  split
  · rfl
  · exact Map.get_erase_ne h

theorem codes_step_of_not_sweep {crates : Crates} {s : Server} {i : Input} {code : String}
    (hquiet : ¬ Presents i code) (hdrawn : drawn ((server crates).entry s i) ≠ some code)
    (hsweep : i.action.isCodeSweep = false) :
    (step crates s i).1.oauth.codes.get code = s.oauth.codes.get code := by
  have hrand : ∀ {r}, ((∃ req, i.action = .authorizeGet req) ∨ ∃ body, i.action = .authorizePost body) →
      (step crates s i).2 = some r → r.status = 302 → i.env.rand ≠ code := by
    intro r hact hout hstatus heq
    exact hdrawn ((drawn_of_authorize (e := (server crates).entry s i) hact hout hstatus).trans
      (congrArg some heq))
  cases haction : i.action with
  | authorizeGet req =>
    simp only [step, haction] at hrand ⊢
    exact codes_of_outcome (handleAuthorizeGet_outcome _ _ _ _) fun h => hrand (Or.inl ⟨_, rfl⟩) rfl h
  | authorizePost body =>
    simp only [step, haction] at hrand ⊢
    exact codes_of_outcome (handleAuthorizePost_outcome _ _ _ _) fun h => hrand (Or.inr ⟨_, rfl⟩) rfl h
  | tokenLookup id body authorization =>
    simp only [step, haction]
    split
    · rfl
    split
    · rfl
    rename_i req hreq
    have hne : code ≠ req.code := fun heq => hquiet ⟨id, body, authorization, req, haction, hreq, heq.symm⟩
    have hcodes := codes_consumeCode crates i.env.now s.oauth hne
    rcases hcons : consumeCode crates i.env.now s.oauth req with ⟨st, r | authCode⟩ <;>
      rwa [hcons] at hcodes
  | tokenClient id =>
    simp only [step, haction]
    split
    · split <;> rfl
    · rfl
  | tokenInsert id =>
    simp only [step, haction, storeToken]
    split
    · split <;> rfl
    · rfl
  | userinfo authorization => simp only [step, haction]
  | sweepCodes =>
    rw [haction] at hsweep
    cases hsweep
  | sweepTokens =>
    simp only [step, haction]
    rfl
  | reloadUsers store => simp only [step, haction]

theorem codes_step {crates : Crates} {s : Server} {i : Input} {code : String}
    (hquiet : ¬ Presents i code) (hdrawn : drawn ((server crates).entry s i) ≠ some code) :
    (step crates s i).1.oauth.codes.get code = (s.oauth.codes.get code).filter (survives i) := by
  cases hsweep : i.action.isCodeSweep with
  | false =>
    have htrue : survives i = fun _ => true := by
      funext authCode
      rw [survives, hsweep]
      rfl
    rw [codes_step_of_not_sweep hquiet hdrawn hsweep, htrue]
    cases s.oauth.codes.get code <;> rfl
  | true =>
    have hsurvives : survives i = fun authCode => decide (i.env.now - authCode.created < codeTtl) := by
      funext authCode
      rw [survives, hsweep]
      rfl
    rw [hsurvives]
    obtain ⟨env, action⟩ := i
    cases action with
    | sweepCodes => rfl
    | _ => cases hsweep

/-- What a whole run leaves of the code. -/
theorem codes_exec {crates : Crates} {s : Server} {run : List Input} {code : String}
    (hquiet : ∀ i ∈ run, ¬ Presents i code)
    (hdrawn : ∀ e ∈ (server crates).trace s run, drawn e ≠ some code) :
    ((server crates).exec s run).oauth.codes.get code =
      (s.oauth.codes.get code).filter fun authCode => run.all fun i => survives i authCode := by
  induction run generalizing s with
  | nil =>
    rw [Machine.exec_nil]
    cases s.oauth.codes.get code <;> rfl
  | cons i run ih =>
    have hstep := codes_step (hquiet i List.mem_cons_self) (hdrawn _ List.mem_cons_self)
    have hrest := ih (s := (step crates s i).1) (fun j hj => hquiet j (List.mem_cons_of_mem _ hj))
      (fun e he => hdrawn e (List.mem_cons_of_mem _ he))
    rw [hstep, Option.filter_filter] at hrest
    refine hrest.trans ?_
    simp only [List.all_cons]

/-! ## 2. Presenting a code -/

/-- The S256 challenge of a verifier. -/
def s256 (crates : Crates) (verifier : String) : String :=
  Base64.encode Base64.urlSafeNoPad (crates.sha256 (Utf8.encode verifier))

/-- The client computed the challenge from the verifier, by the method it names if it names one. -/
def ChallengeOf (crates : Crates) (method : Option String) (verifier challenge : String) : Prop :=
  match method with
  | some name =>
    (name = "S256" ∧ challenge = s256 crates verifier) ∨ (name = "plain" ∧ challenge = verifier)
  | none => challenge = s256 crates verifier ∨ challenge = verifier

/-- The request presents the code as its client should: with the client's id and secret, the latter in
the form or in a Basic header, and with the verifier of the challenge. -/
structure Presentation (crates : Crates) (env : Env) (post : HttpRequest) (req : TokenRequest)
    (code : String) (authCode : AuthCode) (secret : String) : Prop where
  method : post.method = .post
  path : post.path = "/oauth/token"
  parsed : parseTokenRequest post.body post.authText = .ok req
  code_eq : req.code = code
  clientId : req.clientId = authCode.clientId
  client : ∃ uris, validateClient env.clients req.clientId = some (secret, uris)
  secret_presented : req.clientSecret = secret ∨
    (post.authText.bind fun auth => Str.stripPrefix auth "Basic ").bind decodeBasic =
      some (req.clientId, secret)
  verifier : ∀ challenge, authCode.codeChallenge = some challenge → ∃ verifier,
    req.codeVerifier = some verifier ∧
      ChallengeOf crates authCode.codeChallengeMethod verifier challenge

/-- What stands between a code and its token: the mode; a sweep that finds the code too old, which within
its lifetime is one at its last instant; a method that was left out and is not S256; and a secret
that is asked for and does not come in the form. -/
structure RedeemOk (crates : Crates) (authMode : AuthMode) (rest : List Arrival) (req : TokenRequest)
    (authCode : AuthCode) (secret : String) : Prop where
  mode : authMode ≠ .byoidc
  unswept : ∀ b ∈ rest, b.event = .sweepCodes → b.env.now - authCode.created < codeTtl
  method : ∀ challenge verifier, authCode.codeChallenge = some challenge →
    req.codeVerifier = some verifier → authCode.codeChallengeMethod = none →
    challenge = s256 crates verifier
  secret : authCode.codeChallenge = none → secret = "" ∨ req.clientSecret = secret

/-- The signer signs the claims of every token. -/
def Signs (crates : Crates) : Prop :=
  ∀ kid store username clientId unixSecs key,
    (crates.jwtEncode kid (tokenClaims store username clientId unixSecs) key).isSome

theorem exists_mintToken {crates : Crates} (h : Signs crates) (env : Env) (st : OAuthState)
    (username clientId : String) : ∃ token, mintToken crates env st username clientId = some token := by
  unfold mintToken
  split
  · exact Option.isSome_iff_exists.mp (h _ _ _ _ _ _)
  · exact ⟨_, rfl⟩

theorem checkCode_eq_ok {crates : Crates} {now : Nat} {req : TokenRequest} {authCode : AuthCode}
    (hage : now - authCode.created ≤ codeTtl) (hid : req.clientId = authCode.clientId)
    (h : VerifierOk crates req authCode) : checkCode crates now req authCode = .ok () := by
  rw [checkCode, if_neg (Nat.not_lt.mpr hage), if_neg (not_not.mpr hid.symm)]
  cases hch : authCode.codeChallenge with
  | none => rfl
  | some challenge =>
    obtain ⟨verifier, hv, hok⟩ := h challenge hch
    simp only [hv, hok, if_true]

theorem checkClient_eq_ok {clients : String → Option Json} {req : TokenRequest} {authCode : AuthCode}
    (h : authCode.codeChallenge = none → SecretOk clients req) :
    checkClient clients req authCode = .ok () := by
  rw [checkClient]
  cases hch : authCode.codeChallenge with
  | some challenge => rfl
  | none =>
    obtain ⟨secret, uris, hclient, hsecret⟩ := h hch
    simp only [hclient]
    rw [if_neg]
    rintro ⟨hne, hneq⟩
    exact hsecret.elim hne hneq

/-- An exchange has the token for the code's user. -/
def Exchanged (out : OAuthState × Response) (username : String) (now : Nat) : Prop :=
  ∃ token, out.2 = tokenResponse token ∧ out.1.tokens.get token = some ⟨username, now⟩

/-- A code that is in the map and young buys a token exactly for the verifier and the secret. -/
theorem exchanged_iff {crates : Crates} (hsigns : Signs crates) {env : Env} {st : OAuthState}
    {req : TokenRequest} {authCode : AuthCode} (hfound : st.codes.get req.code = some authCode)
    (hage : env.now - authCode.created ≤ codeTtl) (hid : req.clientId = authCode.clientId) :
    Exchanged (exchange crates env st req) authCode.username env.now ↔
      VerifierOk crates req authCode ∧
        (authCode.codeChallenge = none → SecretOk env.clients req) := by
  rw [exchange, consumeCode]
  simp only [hfound]
  constructor
  · rintro ⟨token, hout, -⟩
    cases hcheck : checkCode crates env.now req authCode with
    | error r =>
      simp only [hcheck, Except.map] at hout
      exact absurd (hout ▸ checkCode_error hcheck) (not_refusal_tokenResponse token)
    | ok _ =>
      simp only [hcheck, Except.map] at hout
      cases hclient : checkClient env.clients req authCode with
      | error r =>
        simp only [hclient] at hout
        exact absurd (hout ▸ checkClient_error hclient) (not_refusal_tokenResponse token)
      | ok _ => exact ⟨(checkCode_ok hcheck).2, fun hch => checkClient_ok hclient hch⟩
  · rintro ⟨hverifier, hsecret⟩
    obtain ⟨token, hmint⟩ := exists_mintToken hsigns env
      { st with codes := st.codes.erase req.code } authCode.username req.clientId
    simp only [checkCode_eq_ok hage hid hverifier, Except.map, checkClient_eq_ok hsecret, storeToken, hmint]
    exact ⟨token, rfl, Map.get_insert_self _ _ _⟩

/-- A code that is not in the map buys nothing. -/
theorem not_exchanged (crates : Crates) (env : Env) {st : OAuthState} {req : TokenRequest}
    (hgone : st.codes.get req.code = none) (username : String) (now : Nat) :
    ¬ Exchanged (exchange crates env st req) username now := by
  rintro ⟨token, hout, -⟩
  rw [exchange, consumeCode] at hout
  simp only [hgone] at hout
  have hrefusal : Refusal (jsonResponse 400 (errorJson "invalid_grant" none)) := Or.inl rfl
  exact not_refusal_tokenResponse token (hout ▸ hrefusal)

section

variable {crates : Crates} {env : Env} {post : HttpRequest} {req : TokenRequest} {code secret : String}
  {authCode : AuthCode} (h : Presentation crates env post req code authCode secret)

include h

/-- The verifier passes exactly when a method that was left out was S256. -/
theorem Presentation.verifierOk_iff :
    VerifierOk crates req authCode ↔
      ∀ challenge verifier, authCode.codeChallenge = some challenge →
        req.codeVerifier = some verifier → authCode.codeChallengeMethod = none →
        challenge = s256 crates verifier := by
  have hverify : ∀ verifier challenge, verifyPkce crates verifier challenge "S256" = true ↔
      challenge = s256 crates verifier := by
    intro verifier challenge
    rw [verifyPkce, if_pos rfl, beq_iff_eq, s256]
    exact eq_comm
  constructor
  · intro hok challenge verifier hch hv hmethod
    obtain ⟨verifier', hv', hpkce⟩ := hok challenge hch
    cases hv.symm.trans hv'
    rw [hmethod] at hpkce
    exact (hverify verifier challenge).mp hpkce
  · intro hok challenge hch
    obtain ⟨verifier, hv, hof⟩ := h.verifier challenge hch
    refine ⟨verifier, hv, ?_⟩
    cases hmethod : authCode.codeChallengeMethod with
    | none => exact (hverify verifier challenge).mpr (hok challenge verifier hch hv hmethod)
    | some name =>
      rw [hmethod] at hof
      rcases hof with ⟨rfl, hs⟩ | ⟨rfl, rfl⟩
      · exact (hverify verifier challenge).mpr hs
      · simp [verifyPkce]

/-- The secret passes exactly when it is empty or stands in the form. -/
theorem Presentation.secretOk_iff :
    SecretOk env.clients req ↔ secret = "" ∨ req.clientSecret = secret := by
  obtain ⟨uris, hclient⟩ := h.client
  constructor
  · rintro ⟨secret', uris', hclient', hsecret⟩
    cases hclient.symm.trans hclient'
    exact hsecret
  · intro hsecret
    exact ⟨secret, uris, hclient, hsecret⟩

end

/-! ## 3. The two ends -/

/-- The events of a token request that nothing interrupts. -/
def postToken (env : Env) (outside : Outside) (id : Nat) (post : HttpRequest) : List Arrival :=
  [⟨env, outside, .request id post⟩, ⟨env, outside, .tokenClient id⟩, ⟨env, outside, .tokenInsert id⟩]

/-- The request is answered with 200 and an access token that is stored for the user. -/
def Redeemed (crates : Crates) (s : Server) (arrivals : List Arrival) (username : String) (now : Nat) :
    Prop :=
  ∃ r token, ((router crates).trace s arrivals).filterMap Entry.output = [r] ∧ r.status = 200 ∧
    r.member "access_token" = some (.str token) ∧
    ((router crates).exec s arrivals).oauth.tokens.get token = some ⟨username, now⟩

/-- The provider has no token for a code it did not issue. -/
def Outside.NoTokenFor (outside : Outside) (code : String) : Prop :=
  ∀ url form json, ("code", code) ∈ form → outside.post url form = some (some json) →
    json.get "access_token" = none

/-- The server issues `code` itself. -/
def IssuesItself (crates : Crates) (s : Server) (a : Arrival) (code : String) (authCode : AuthCode) :
    Prop :=
  ∃ i, toInput s.oauth.authMode a = some i ∧ Issues ((server crates).entry s i) code authCode

/-- The request presents `code`. -/
def Arrival.presents (a : Arrival) (code : String) : Prop :=
  ∃ id post req, a.event = .request id post ∧ post.method = .post ∧ post.path = "/oauth/token" ∧
    parseTokenRequest post.body post.authText = .ok req ∧ req.code = code

/-- A step of the server that presents a code is a request that does. -/
theorem presents_of_toInput {authMode : AuthMode} {a : Arrival} {i : Input} {code : String}
    (hinput : toInput authMode a = some i) (h : Presents i code) : a.presents code := by
  obtain ⟨id, body, authorization, req, haction, hparsed, hcode⟩ := h
  obtain ⟨action, hlocal, rfl⟩ := Option.map_eq_some_iff.mp hinput
  subst haction
  unfold localAction at hlocal
  split at hlocal
  · rename_i id' post hevent
    cases hhandler : handler authMode post with
    | token =>
      rw [hhandler] at hlocal
      cases hlocal
      obtain ⟨hmethod, hpath⟩ := postToken_of_handler hhandler
      exact ⟨id, post, req, hevent, hmethod, hpath, hparsed, hcode⟩
    | _ =>
      rw [hhandler] at hlocal
      cases hlocal
  all_goals cases hlocal

theorem consumeCode_error {crates : Crates} {now : Nat} {st : OAuthState} {req : TokenRequest}
    {r : Response} (h : (consumeCode crates now st req).2 = .error r) : Refusal r := by
  unfold consumeCode at h
  split at h
  · exact refusal_of_error h (Or.inl rfl)
  · rename_i authCode _
    cases hcheck : checkCode crates now req authCode with
    | error r' =>
      rw [hcheck] at h
      exact refusal_of_error h (checkCode_error hcheck)
    | ok _ =>
      rw [hcheck] at h
      cases h

/-- An exchange that is answered with 200 hands out a token. -/
theorem tokenResponse_of_exchange {crates : Crates} {env : Env} {st : OAuthState} {req : TokenRequest}
    (h : (exchange crates env st req).2.status = 200) :
    ∃ token, (exchange crates env st req).2 = tokenResponse token := by
  have hrefused : ∀ {r : Response}, Refusal r → r.status ≠ 200 := by
    rintro r (hr | hr) <;> rw [hr] <;> decide
  unfold exchange at h ⊢
  rcases hcons : consumeCode crates env.now st req with ⟨st', r | authCode⟩
  · rw [hcons] at h
    exact absurd h (hrefused (consumeCode_error (congrArg Prod.snd hcons)))
  · simp only [hcons] at h ⊢
    cases hclient : checkClient env.clients req authCode with
    | error r =>
      rw [hclient] at h
      exact absurd h (hrefused (checkClient_error hclient))
    | ok _ =>
      simp only [hclient, storeToken] at h ⊢
      split at h
      · cases h
      · rename_i token hmint
        exact ⟨token, rfl⟩

theorem code_of_parse {body : List UInt8} {authorization : Option String} {req : TokenRequest}
    {code : String} (h : parseTokenRequest body authorization = .ok req) (hcode : req.code = code) :
    (parseFormBody body).get "code" = some code := by
  simp only [parseTokenRequest] at h
  split at h
  · cases h
  split at h
  · cases h
  rename_i code' hget
  split at h
  · cases h
  · cases h
    rw [hget, ← hcode]

/-- The provider's answer carries no token. -/
theorem member_handleByoidcToken {outside : Outside} {code : String} (hforeign : outside.NoTokenFor code)
    {body : List UInt8} (hcode : (parseFormBody body).get "code" = some code) :
    (handleByoidcToken outside body).member "access_token" = none := by
  simp only [handleByoidcToken, hcode, Option.getD_some]
  split
  · decide
  split
  · decide
  split
  · decide
  split
  · decide
  · decide
  · rename_i json hpost
    exact hforeign _ _ json (by simp) hpost

section

variable {crates : Crates} {env : Env} {post : HttpRequest} {req : TokenRequest} {code secret : String}
  {authCode : AuthCode} (h : Presentation crates env post req code authCode secret) {s : Server}
  {id : Nat} (hid : s.exchanges.get id = none) (outside : Outside)

include h hid

/-- In the other modes a token request is an exchange with this server. -/
theorem redeemed_iff_exchanged (hmode : s.oauth.authMode ≠ .byoidc) (username : String) (now : Nat) :
    Redeemed crates s (postToken env outside id post) username now ↔
      Exchanged (exchange crates env s.oauth req) username now := by
  have hhandler := handler_postToken s.oauth.authMode h.method h.path
  rw [if_neg hmode] at hhandler
  have hall : ∀ a ∈ postToken env outside id post, (toInput s.oauth.authMode a).isSome := by
    simp [postToken, toInput, localAction, hhandler]
  have hinputs : inputs s.oauth.authMode (postToken env outside id post) =
      tokenSteps env id post.body post.authText := by
    simp [inputs, postToken, toInput, localAction, hhandler, tokenSteps]
  obtain ⟨hexec, houtputs⟩ := handleToken_eq_steps crates env s id post.body post.authText hid
  rw [handleToken_eq_exchange, h.parsed] at hexec houtputs
  rw [Redeemed, exec_router crates rfl, outputs_router crates rfl hall, hinputs, hexec, houtputs]
  constructor
  · rintro ⟨r, token, hr, hstatus, hmember, hstored⟩
    cases hr
    obtain ⟨token', hout⟩ := tokenResponse_of_exchange hstatus
    rw [hout] at hmember
    cases hmember
    exact ⟨token, hout, hstored⟩
  · rintro ⟨token, hout, hstored⟩
    exact ⟨_, token, rfl, by rw [hout]; rfl, by rw [hout]; rfl, hstored⟩

/-- In byoidc mode it is one with the provider. -/
theorem not_redeemed_of_byoidc (hmode : s.oauth.authMode = .byoidc) (hforeign : outside.NoTokenFor code)
    (username : String) (now : Nat) :
    ¬ Redeemed crates s (postToken env outside id post) username now := by
  have hhandler := handler_postToken s.oauth.authMode h.method h.path
  rw [if_pos hmode] at hhandler
  have houtputs : ((router crates).trace s (postToken env outside id post)).filterMap Entry.output =
      [handleByoidcToken outside post.body] := by
    simp [postToken, Machine.trace, Machine.entry, router, routerStep, toInput, localAction, hhandler,
      answerElsewhere, step, hid]
  rintro ⟨r, token, hr, -, hmember, -⟩
  rw [houtputs] at hr
  cases hr
  rw [member_handleByoidcToken hforeign (code_of_parse h.parsed h.code_eq)] at hmember
  cases hmember

end

/-- A code that goes out is dated. -/
theorem Issues.created {crates : Crates} {e : Entry Server Input (Option Response)} {code : String}
    {authCode : AuthCode} (heff : Effect crates e.before e.input e.after e.output)
    (h : Issues e code authCode) : authCode.created = e.input.env.now := by
  obtain ⟨r, hout, hstatus⟩ := h.redirected
  have hplain : ¬ Plain e.input e.output := fun hp => (hp r hout).1 hstatus
  rcases heff.issues_or_answers hplain with ⟨authCode', hissues, hcreated⟩ | ⟨id, req, _, token, hans⟩
  · cases (h.code_eq ▸ h.stored).symm.trans hissues.stored
    exact hcreated
  · exact absurd h.action fun haction => not_answers_of_authorize haction id req _ token hans

theorem event_of_codeSweep {authMode : AuthMode} {a : Arrival} {i : Input}
    (hinput : toInput authMode a = some i) (hsweep : i.action.isCodeSweep = true) :
    a.event = .sweepCodes := by
  obtain ⟨action, hlocal, rfl⟩ := Option.map_eq_some_iff.mp hinput
  simp only at hsweep
  unfold localAction at hlocal
  split at hlocal
  · split at hlocal <;> cases hlocal <;> cases hsweep
  · cases hlocal
    cases hsweep
  · cases hlocal
    cases hsweep
  · assumption
  · cases hlocal
    cases hsweep
  · cases hlocal
    cases hsweep

/-- The code outlives the sweeps of the run. -/
theorem all_survives_iff (authMode : AuthMode) (rest : List Arrival) (authCode : AuthCode) :
    ((inputs authMode rest).all fun i => survives i authCode) = true ↔
      ∀ b ∈ rest, b.event = .sweepCodes → b.env.now - authCode.created < codeTtl := by
  rw [List.all_eq_true]
  constructor
  · intro hall b hb hevent
    have hinput : toInput authMode b = some ⟨b.env, .sweepCodes⟩ := by
      rw [toInput, hevent]
      rfl
    have hsurvives := hall _ (List.mem_filterMap.mpr ⟨b, hb, hinput⟩)
    exact of_decide_eq_true hsurvives
  · intro hall i hi
    obtain ⟨b, hb, hinput⟩ := List.mem_filterMap.mp hi
    cases hsweep : i.action.isCodeSweep with
    | false => rw [survives, hsweep]; rfl
    | true =>
      have hlt := hall b hb (event_of_codeSweep hinput hsweep)
      rw [survives, hsweep, env_of_toInput hinput]
      exact decide_eq_true hlt

/-- Issuing a code draws it. -/
theorem Issues.drawn {e : Entry Server Input (Option Response)} {code : String} {authCode : AuthCode}
    (h : Issues e code authCode) : OAuth.drawn e = some code := by
  obtain ⟨r, hout, hstatus⟩ := h.redirected
  rw [h.code_eq]
  exact drawn_of_authorize h.action hout hstatus

/-- What is left of a code that was issued and not presented. -/
theorem code_waits {crates : Crates} {userStore : UserStore} {authMode : AuthMode} {keys : JwtKeys}
    {past : List Arrival} {a : Arrival} {rest : List Arrival}
    (hfresh : Fresh ((server crates).trace (.init userStore authMode keys)
      (inputs authMode (past ++ a :: rest))))
    {code : String} {authCode : AuthCode}
    (hissues : IssuesItself crates ((router crates).exec (.init userStore authMode keys) past) a code
      authCode)
    (hquiet : ∀ b ∈ rest, ¬ b.presents code) :
    authCode.created = a.env.now ∧
      ((router crates).exec (.init userStore authMode keys) (past ++ a :: rest)).oauth.codes.get code =
        if (inputs authMode rest).all fun i => survives i authCode then some authCode else none := by
  obtain ⟨i, hinput, hiss⟩ := hissues
  rw [exec_router_init, authMode_exec] at hinput
  rw [exec_router_init] at hiss
  have hinputs : inputs authMode (past ++ a :: rest) =
      inputs authMode past ++ i :: inputs authMode rest := by
    rw [inputs, List.filterMap_append, List.filterMap_cons_some hinput]
    rfl
  rw [exec_router_init, hinputs, Machine.exec_append]
  rw [hinputs, Machine.trace_append] at hfresh
  generalize (server crates).exec (.init userStore authMode keys) (inputs authMode past) = s at *
  have hdrawn : ∀ e ∈ (server crates).trace (step crates s i).1 (inputs authMode rest),
      drawn e ≠ some code := hfresh.not_drawn hiss.drawn
  have hquiet' : ∀ j ∈ inputs authMode rest, ¬ Presents j code := by
    intro j hj hpresents
    obtain ⟨b, hb, hj⟩ := List.mem_filterMap.mp hj
    exact hquiet b hb (presents_of_toInput hj hpresents)
  have hstored : (step crates s i).1.oauth.codes.get code = some authCode := hiss.stored
  have hexec := codes_exec hquiet' hdrawn
  rw [hstored, Option.filter_some] at hexec
  refine ⟨?_, hexec⟩
  rw [hiss.created (step_effect crates s i), ← env_of_toInput hinput]
  rfl

/-- **A code that the server issued itself, and that nobody has presented, is redeemed by its client
exactly where the server redeems codes at all, no sweep has taken the code in its last instant, the
challenge's method was named or is S256, and the secret is not asked for or comes in the form.** -/
theorem code_redeemed_iff {crates : Crates} (hsigns : Signs crates) (userStore : UserStore)
    (authMode : AuthMode) (keys : JwtKeys) (past : List Arrival) (a : Arrival) (rest : List Arrival)
    (hfresh : Fresh ((server crates).trace (.init userStore authMode keys)
      (inputs authMode (past ++ a :: rest))))
    {code : String} {authCode : AuthCode}
    (hissues : IssuesItself crates ((router crates).exec (.init userStore authMode keys) past) a code
      authCode)
    (hquiet : ∀ b ∈ rest, ¬ b.presents code)
    {env : Env} (hage : env.now - a.env.now ≤ codeTtl) {post : HttpRequest} {req : TokenRequest}
    {secret : String} (hpost : Presentation crates env post req code authCode secret)
    {outside : Outside} (hforeign : outside.NoTokenFor code) {id : Nat}
    (hid : ((router crates).exec (.init userStore authMode keys)
      (past ++ a :: rest)).exchanges.get id = none) :
    Redeemed crates ((router crates).exec (.init userStore authMode keys) (past ++ a :: rest))
        (postToken env outside id post) authCode.username env.now ↔
      RedeemOk crates authMode rest req authCode secret := by
  obtain ⟨hcreated, hwaits⟩ := code_waits hfresh hissues hquiet
  have hmode : ((router crates).exec (.init userStore authMode keys)
      (past ++ a :: rest)).oauth.authMode = authMode := by
    rw [exec_router_init, authMode_exec]
  generalize (router crates).exec (.init userStore authMode keys) (past ++ a :: rest) = s at *
  rw [← hpost.code_eq] at hwaits
  by_cases hbyoidc : authMode = .byoidc
  · have hnot := not_redeemed_of_byoidc hpost hid outside (hmode.trans hbyoidc) hforeign
      authCode.username env.now
    exact ⟨fun h => absurd h hnot, fun h => absurd hbyoidc h.mode⟩
  rw [redeemed_iff_exchanged hpost hid outside (hmode.symm ▸ hbyoidc)]
  by_cases hall : ((inputs authMode rest).all fun i => survives i authCode) = true
  · rw [if_pos hall] at hwaits
    rw [exchanged_iff hsigns hwaits (hcreated.symm ▸ hage) hpost.clientId, hpost.verifierOk_iff,
      hpost.secretOk_iff]
    have hunswept := (all_survives_iff authMode rest authCode).mp hall
    constructor
    · rintro ⟨hmethod, hsecret⟩
      exact ⟨hbyoidc, hunswept, hmethod, hsecret⟩
    · intro h
      exact ⟨h.method, h.secret⟩
  · rw [if_neg hall] at hwaits
    have hnot := not_exchanged crates env hwaits authCode.username env.now
    exact ⟨fun h => absurd h hnot,
      fun h => absurd ((all_survives_iff authMode rest authCode).mpr h.unswept) hall⟩

/-! ## 4. `oc login`

The same login, first where codes are redeemed here, then where the provider is asked. -/

/-- A redirect from authorizing issues a code. -/
theorem exists_issues {crates : Crates} {s : Server} {i : Input}
    (haction : (∃ req, i.action = .authorizeGet req) ∨ ∃ body, i.action = .authorizePost body)
    (hok : ((server crates).entry s i).output.map Response.status = some 302) :
    ∃ authCode, Issues ((server crates).entry s i) i.env.rand authCode := by
  obtain ⟨r, hr, hstatus⟩ := Option.map_eq_some_iff.mp hok
  have hplain : ¬ Plain i ((server crates).entry s i).output := fun h => (h r hr).1 hstatus
  rcases Effect.issues_or_answers (e := (server crates).entry s i) (step_effect crates s i) hplain with
    ⟨authCode, hissues, -⟩ | ⟨id, req, authCode, token, hans⟩
  · exact ⟨authCode, hissues⟩
  · exact absurd hans (not_answers_of_authorize haction id req authCode token)

theorem plain_tokenClaims (store : UserStore) (username clientId : String) (unixSecs : Nat) :
    (tokenClaims store username clientId unixSecs).plain = true := by
  have hgroups : ∀ xs : List String, Json.plainElems (xs.map Json.str) = true := by
    intro xs
    induction xs with
    | nil => rfl
    | cons x xs ih => simpa [Json.plainElems, Json.plain] using ih
  simp [tokenClaims, Json.plain, Json.plainFields, Json.ofStrings, hgroups]

theorem signs_unsignedCrates : Signs unsignedCrates := by
  intro kid store username clientId unixSecs key
  simp [unsignedCrates, plain_tokenClaims]

/-- A provider that refuses the codes it does not know. -/
def strictProvider : Outside where
  byoidc := some ⟨"https://entra.apps.ocp-sim.test/v2.0", "picoshift", "secret"⟩
  discovery := some ⟨"https://entra.apps.ocp-sim.test/authorize",
    "https://entra.apps.ocp-sim.test/token", "", "https://entra.apps.ocp-sim.test/keys"⟩
  post _ _ := some (some (.obj [("error", .str "invalid_grant")]))
  other _ _ := textResponse 404 "not found\n"

theorem noTokenFor_strictProvider (code : String) : strictProvider.NoTokenFor code := by
  intro url form json _ hpost
  cases hpost
  rfl

/-- `GET /oauth/authorize` with a Basic header. -/
def cliLogin : Arrival where
  env := sampleEnv (secs 1) "code1"
  outside := strictProvider
  event := .request 0
    { method := .get
      path := "/oauth/authorize"
      query := sampleAuthorize.query
      authorization := sampleAuthorize.authorization.map .text
      csrfToken := false
      body := [] }

/-- `POST /oauth/token` for its code. -/
def cliExchange : HttpRequest where
  method := .post
  path := "/oauth/token"
  query := none
  authorization := none
  csrfToken := false
  body := sampleTokenBody

def cliCode : AuthCode := ⟨"admin", "console", secs 1, none, none⟩

theorem presentation_cliExchange :
    Presentation unsignedCrates (sampleEnv (secs 301) "token1") cliExchange
      ⟨"code1", "console", "s3cret", none⟩ "code1" cliCode "s3cret" where
  method := rfl
  path := rfl
  parsed := by
    have hparsed : (parseTokenRequest cliExchange.body cliExchange.authText).toOption =
        some ⟨"code1", "console", "s3cret", none⟩ := by decide +kernel
    cases h : parseTokenRequest cliExchange.body cliExchange.authText with
    | error r =>
      rw [h] at hparsed
      cases hparsed
    | ok req =>
      rw [h] at hparsed
      cases hparsed
      rfl
  code_eq := rfl
  clientId := rfl
  client := ⟨["https://console.apps.ocp-sim.test/"], by decide +kernel⟩
  secret_presented := Or.inl rfl
  verifier := by
    intro challenge h
    cases h

theorem issuesItself_cliLogin :
    IssuesItself unsignedCrates (.init .default .legacy ⟨"", ""⟩) cliLogin "code1" cliCode := by
  have hinput : toInput .legacy cliLogin =
      some ⟨sampleEnv (secs 1) "code1", .authorizeGet sampleAuthorize⟩ := rfl
  refine ⟨_, hinput, ?_⟩
  have hentry : ((server unsignedCrates).entry (.init .default .legacy ⟨"", ""⟩)
        ⟨sampleEnv (secs 1) "code1", .authorizeGet sampleAuthorize⟩).output.map Response.status = some 302 ∧
      ((server unsignedCrates).entry (.init .default .legacy ⟨"", ""⟩)
        ⟨sampleEnv (secs 1) "code1", .authorizeGet sampleAuthorize⟩).after.oauth.codes.get "code1" =
          some cliCode := by
    decide +kernel
  obtain ⟨hredirected, hstored⟩ := hentry
  obtain ⟨authCode, hissues⟩ := exists_issues (Or.inl ⟨sampleAuthorize, rfl⟩) hredirected
  obtain rfl := Option.some.inj (hstored.symm.trans hissues.stored)
  exact hissues

/-- In the last instant of the code's lifetime, with a sweep a second earlier. -/
theorem code_redeemed_iff_cliLogin :
    Redeemed unsignedCrates
      ((router unsignedCrates).exec (.init .default .legacy ⟨"", ""⟩)
        ([] ++ cliLogin :: [⟨sampleEnv (secs 300) "", strictProvider, .sweepCodes⟩]))
      (postToken (sampleEnv (secs 301) "token1") strictProvider 0 cliExchange) "admin" (secs 301) := by
  refine (code_redeemed_iff signs_unsignedCrates .default .legacy ⟨"", ""⟩ [] cliLogin _ ?_
    issuesItself_cliLogin ?_ (by decide) presentation_cliExchange (noTokenFor_strictProvider "code1")
    rfl).mpr ?_
  · unfold Fresh
    decide +kernel
  · intro b hb
    rw [List.mem_singleton.mp hb]
    rintro ⟨_, _, _, hevent, -⟩
    cases hevent
  · refine ⟨by decide, ?_, ?_, fun _ => Or.inr rfl⟩
    · intro b hb _
      rw [List.mem_singleton.mp hb]
      decide
    · intro challenge verifier hch
      cases hch

/-- In byoidc mode the code is issued, and the provider is asked for the token: the answer is its
error, and the code is still in the map. -/
theorem code_redeemed_not_byoidc :
    let run := cliLogin :: postToken (sampleEnv (secs 2) "token1") strictProvider 0 cliExchange
    (((router unsignedCrates).trace (.init .default .byoidc ⟨"", ""⟩) run).map fun e =>
        e.output.map fun r => (r.status, (r.member "access_token").isSome)) =
      [some (302, false), some (200, false), none, none] ∧
    ((router unsignedCrates).exec (.init .default .byoidc ⟨"", ""⟩) run).oauth.codes.get "code1" =
      some cliCode := by
  decide +kernel

end Picoshift.OAuth
