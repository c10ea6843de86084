/-
# The server, step by step

Requests run concurrently.  Each lock acquisition and each call to the API server is one
atomic step, so a token exchange is THREE steps (take the code out, ask for the OAuthClient,
store the token) between which anything else may happen, and the eviction sweep is two.  An
exchange that is under way is an entry of `exchanges`, under an identifier of its own.

`step_effect` says once what a step can do.  Everything about runs is derived from it.

* `Traced`: every code, every exchange under way and every token of a reachable state has a
  history: the code was issued by an authorize step to a user who had authenticated, and the
  token was handed out for such a code.
* `handleToken_eq_steps`: a `handle_token` that nothing interrupts is the three steps in a row.
-/
import Picoshift.Lib.Machine
import Picoshift.OAuth.Handlers

namespace Picoshift.OAuth

/-! ## 1. The machine -/

/-- A token exchange between two of its steps: the code is already out of the map.  `checked`
says whether the OAuthClient has been asked for. -/
structure Exchange where
  checked : Bool
  req : TokenRequest
  authCode : AuthCode

structure Server where
  oauth : OAuthState
  exchanges : Map Nat Exchange

inductive Action where
  | authorizeGet (req : AuthorizeRequest)
  | authorizePost (body : List UInt8)
  | tokenLookup (id : Nat) (body : List UInt8) (authorization : Option String)
  | tokenClient (id : Nat)
  | tokenInsert (id : Nat)
  | userinfo (authorization : Option String)
  | sweepCodes
  | sweepTokens
  /-- The watcher of the htpasswd secret replaces the user store. -/
  | reloadUsers (store : UserStore)

structure Input where
  env : Env
  action : Action

def step (crates : Crates) (s : Server) (i : Input) : Server × Option Response :=
  match i.action with
  | .authorizeGet req =>
    let out := handleAuthorizeGet crates i.env s.oauth req
    ({ s with oauth := out.1 }, some out.2)
  | .authorizePost body =>
    let out := handleAuthorizePost crates i.env s.oauth body
    ({ s with oauth := out.1 }, some out.2)
  | .tokenLookup id body authorization =>
    if (s.exchanges.get id).isSome then (s, none)
    else
    match parseTokenRequest body authorization with
    | .error r => (s, some r)
    | .ok req =>
      match consumeCode crates i.env.now s.oauth req with
      | (st, .error r) => ({ s with oauth := st }, some r)
      | (st, .ok authCode) => (⟨st, s.exchanges.insert id ⟨false, req, authCode⟩⟩, none)
  | .tokenClient id =>
    match s.exchanges.get id with
    | some ⟨false, req, authCode⟩ =>
      match checkClient i.env.clients req authCode with
      | .error r => ({ s with exchanges := s.exchanges.erase id }, some r)
      | .ok () => ({ s with exchanges := s.exchanges.insert id ⟨true, req, authCode⟩ }, none)
    | _ => (s, none)
  | .tokenInsert id =>
    match s.exchanges.get id with
    | some ⟨true, req, authCode⟩ =>
      let out := storeToken crates i.env s.oauth req authCode
      (⟨out.1, s.exchanges.erase id⟩, some out.2)
    | _ => (s, none)
  | .userinfo authorization => (s, some (handleUserinfo crates i.env.now s.oauth authorization))
  | .sweepCodes => ({ s with oauth := sweepCodes i.env.now s.oauth }, none)
  | .sweepTokens => ({ s with oauth := sweepTokens i.env.now s.oauth }, none)
  | .reloadUsers store => ({ s with oauth := { s.oauth with userStore := store } }, none)

/-- The server as a machine. -/
def server (crates : Crates) : Machine Server Input (Option Response) := ⟨step crates⟩

/-- A server that has just started. -/
def Server.init (userStore : UserStore) (authMode : AuthMode) (keys : JwtKeys) : Server :=
  ⟨OAuthState.new userStore authMode keys, Map.empty⟩

/-- What happened in a run. -/
abbrev History := List (Entry Server Input (Option Response))

/-! ## 2. What a step can do -/

/-- The verifier that the code's challenge, if it records one, asks for. -/
def VerifierOk (crates : Crates) (req : TokenRequest) (authCode : AuthCode) : Prop :=
  ∀ challenge, authCode.codeChallenge = some challenge → ∃ verifier,
    req.codeVerifier = some verifier ∧
      verifyPkce crates verifier challenge (authCode.codeChallengeMethod.getD "S256") = true

/-- The client's secret, as the API server has it: empty, or the one that was presented. -/
def SecretOk (clients : String → Option Json) (req : TokenRequest) : Prop :=
  ∃ secret uris, validateClient clients req.clientId = some (secret, uris) ∧
    (secret = "" ∨ req.clientSecret = secret)

theorem checkCode_ok {crates : Crates} {now : Nat} {req : TokenRequest} {authCode : AuthCode}
    (h : checkCode crates now req authCode = .ok ()) :
    req.clientId = authCode.clientId ∧ VerifierOk crates req authCode := by
  unfold checkCode at h
  split at h
  · exact absurd h (by simp)
  split at h
  · exact absurd h (by simp)
  rename_i hid
  refine ⟨(not_not.mp hid).symm, ?_⟩
  intro challenge hch
  rw [hch] at h
  simp only at h
  split at h
  · rename_i verifier hv
    split at h
    · rename_i hok
      exact ⟨verifier, hv, hok⟩
    · exact absurd h (by simp)
  · exact absurd h (by simp)

theorem checkClient_ok {clients : String → Option Json} {req : TokenRequest} {authCode : AuthCode}
    (h : checkClient clients req authCode = .ok ()) (hch : authCode.codeChallenge = none) :
    SecretOk clients req := by
  unfold checkClient at h
  rw [hch] at h
  simp only at h
  split at h
  · exact absurd h (by simp)
  · rename_i secret uris hc
    split at h
    · exact absurd h (by simp)
    · rename_i hs
      refine ⟨secret, uris, hc, ?_⟩
      by_cases he : secret = ""
      · exact Or.inl he
      · exact Or.inr (not_not.mp fun hne => hs ⟨he, hne⟩)

/-- The answers that hand out neither a code nor a token. -/
def Plain (i : Input) (out : Option Response) : Prop :=
  ∀ r, out = some r → r.status ≠ 302 ∧ ((∃ id, i.action = .tokenInsert id) → r.status ≠ 200)

/-- What one step can do to the server, with everything it has checked. -/
inductive Effect (crates : Crates) (s : Server) (i : Input) : Server → Option Response → Prop where
  /-- Nothing changes. -/
  | idle {out : Option Response} (plain : Plain i out) : Effect crates s i s out
  /-- A code goes out. -/
  | issued {g : Grant} {r : Response} (granted : Granted i.env s.oauth g) (status : r.status = 302)
      (action : (∃ req, i.action = .authorizeGet req) ∨ ∃ body, i.action = .authorizePost body) :
      Effect crates s i
        { s with oauth.codes := s.oauth.codes.insert i.env.rand (g.authCode i.env.now) } (some r)
  /-- A code is taken out of the map, and refused. -/
  | spoiled (req : TokenRequest) {out : Option Response} (plain : Plain i out) :
      Effect crates s i { s with oauth.codes := s.oauth.codes.erase req.code } out
  /-- A code is taken out of the map, and accepted. -/
  | consumed {id : Nat} {req : TokenRequest} {authCode : AuthCode}
      (free : s.exchanges.get id = none) (found : s.oauth.codes.get req.code = some authCode)
      (clientId : req.clientId = authCode.clientId) (verifier : VerifierOk crates req authCode) :
      Effect crates s i
        { s with oauth.codes := s.oauth.codes.erase req.code
                 exchanges := s.exchanges.insert id ⟨false, req, authCode⟩ } none
  /-- An exchange ends without a token. -/
  | dropped {id : Nat} {out : Option Response} (plain : Plain i out) :
      Effect crates s i { s with exchanges := s.exchanges.erase id } out
  /-- The OAuthClient is in order. -/
  | cleared {id : Nat} {req : TokenRequest} {authCode : AuthCode}
      (action : i.action = .tokenClient id)
      (pending : s.exchanges.get id = some ⟨false, req, authCode⟩)
      (secret : authCode.codeChallenge = none → SecretOk i.env.clients req) :
      Effect crates s i { s with exchanges := s.exchanges.insert id ⟨true, req, authCode⟩ } none
  /-- A token goes out. -/
  | answered {id : Nat} {req : TokenRequest} {authCode : AuthCode} {token : String}
      (action : i.action = .tokenInsert id)
      (pending : s.exchanges.get id = some ⟨true, req, authCode⟩)
      (mint : mintToken crates i.env s.oauth authCode.username req.clientId = some token) :
      Effect crates s i
        { s with oauth.tokens := s.oauth.tokens.insert token ⟨authCode.username, i.env.now⟩
                 exchanges := s.exchanges.erase id } (some (tokenResponse token))
  | sweptCodes (action : i.action = .sweepCodes) :
      Effect crates s i { s with oauth := sweepCodes i.env.now s.oauth } none
  | sweptTokens (action : i.action = .sweepTokens) :
      Effect crates s i { s with oauth := sweepTokens i.env.now s.oauth } none
  | reloaded {store : UserStore} :
      Effect crates s i { s with oauth.userStore := store } none

theorem plain_none (i : Input) : Plain i none := fun _ h => absurd h (by simp)

theorem plain_some {i : Input} {r : Response} (hr : r.status ≠ 302)
    (ha : ∀ id, i.action = .tokenInsert id → r.status ≠ 200) : Plain i (some r) := by
  intro r' h
  rw [Option.some.injEq] at h
  subst h
  exact ⟨hr, fun ⟨id, hid⟩ => ha id hid⟩

/-- A refusal has a status of its own: neither a redirect nor a success. -/
def Refusal (r : Response) : Prop := r.status = 400 ∨ r.status = 401

theorem not_refusal_tokenResponse (token : String) : ¬ Refusal (tokenResponse token) := by
  rintro (h | h) <;> simp [tokenResponse, jsonResponse] at h

theorem refusal_of_error {α : Type} {r r' : Response}
    (h : (Except.error r' : Except Response α) = .error r) (hr : Refusal r') : Refusal r := by
  cases h
  exact hr

theorem parseTokenRequest_error {body : List UInt8} {authorization : Option String} {r : Response}
    (h : parseTokenRequest body authorization = .error r) : Refusal r := by
  unfold parseTokenRequest at h
  simp only at h
  split at h
  · exact refusal_of_error h (Or.inl rfl)
  split at h
  · exact refusal_of_error h (Or.inl rfl)
  split at h
  · exact refusal_of_error h (Or.inl rfl)
  · exact absurd h (by simp)

theorem checkCode_error {crates : Crates} {now : Nat} {req : TokenRequest} {authCode : AuthCode}
    {r : Response} (h : checkCode crates now req authCode = .error r) : Refusal r := by
  unfold checkCode at h
  split at h
  · exact refusal_of_error h (Or.inl rfl)
  split at h
  · exact refusal_of_error h (Or.inl rfl)
  split at h
  · exact absurd h (by simp)
  split at h
  · split at h
    · exact absurd h (by simp)
    · exact refusal_of_error h (Or.inl rfl)
  · exact refusal_of_error h (Or.inl rfl)

theorem checkClient_error {clients : String → Option Json} {req : TokenRequest}
    {authCode : AuthCode} {r : Response} (h : checkClient clients req authCode = .error r) :
    Refusal r := by
  unfold checkClient at h
  split at h
  · exact absurd h (by simp)
  split at h
  · exact refusal_of_error h (Or.inl rfl)
  split at h
  · exact refusal_of_error h (Or.inr rfl)
  · exact absurd h (by simp)

theorem Refusal.plain {r : Response} (h : Refusal r) (i : Input) : Plain i (some r) := by
  rcases h with h | h <;>
    exact plain_some (by rw [h]; decide) fun _ _ => by rw [h]; decide

theorem handleUserinfo_status (crates : Crates) (now : Nat) (st : OAuthState)
    (authorization : Option String) : (handleUserinfo crates now st authorization).status ≠ 302 := by
  unfold handleUserinfo
  split
  · decide
  split
  · decide
  · simp [jsonResponse]

/-- Authorizing, seen from the server. -/
theorem effect_of_outcome {crates : Crates} {s : Server} {i : Input} {out : OAuthState × Response}
    (hact : (∃ req, i.action = .authorizeGet req) ∨ ∃ body, i.action = .authorizePost body)
    (h : AuthorizeOutcome crates i.env s.oauth out) :
    Effect crates s i { s with oauth := out.1 } (some out.2) := by
  rcases h with ⟨hst, hr⟩ | ⟨g, hg, rfl⟩
  · rw [hst]
    refine .idle (plain_some hr fun id hid => ?_)
    rcases hact with ⟨_, ha⟩ | ⟨_, ha⟩ <;> rw [ha] at hid <;> exact absurd hid (by simp)
  · exact .issued hg rfl hact

/-- Lookup and removal of the code. -/
theorem effect_tokenLookup (crates : Crates) (s : Server) {i : Input} {id : Nat} {body : List UInt8}
    {authorization : Option String} (ha : i.action = .tokenLookup id body authorization) :
    Effect crates s i (step crates s i).1 (step crates s i).2 := by
  simp only [step, ha]
  split
  · exact .idle (plain_none i)
  rename_i hfree
  rw [Option.not_isSome_iff_eq_none] at hfree
  split
  · rename_i r hr
    exact .idle ((parseTokenRequest_error hr).plain i)
  · rename_i req hreq
    cases hcode : s.oauth.codes.get req.code with
    | none =>
      simp only [consumeCode, hcode]
      exact .idle (Refusal.plain (Or.inl rfl) i)
    | some authCode =>
      cases hcheck : checkCode crates i.env.now req authCode with
      | error r =>
        simp only [consumeCode, hcode, hcheck, Except.map]
        exact .spoiled req ((checkCode_error hcheck).plain i)
      | ok _ =>
        obtain ⟨hid, hv⟩ := checkCode_ok hcheck
        simp only [consumeCode, hcode, hcheck, Except.map]
        exact .consumed hfree hcode hid hv

/-- The look at the OAuthClient. -/
theorem effect_tokenClient (crates : Crates) (s : Server) {i : Input} {id : Nat}
    (ha : i.action = .tokenClient id) :
    Effect crates s i (step crates s i).1 (step crates s i).2 := by
  simp only [step, ha]
  split
  · rename_i req authCode hpend
    cases hcheck : checkClient i.env.clients req authCode with
    | error r => exact .dropped ((checkClient_error hcheck).plain i)
    | ok _ => exact .cleared ha hpend fun hch => checkClient_ok hcheck hch
  · exact .idle (plain_none i)

/-- The token goes into the map, and out. -/
theorem effect_tokenInsert (crates : Crates) (s : Server) {i : Input} {id : Nat}
    (ha : i.action = .tokenInsert id) :
    Effect crates s i (step crates s i).1 (step crates s i).2 := by
  simp only [step, ha]
  split
  · rename_i req authCode hpend
    cases hmint : mintToken crates i.env s.oauth authCode.username req.clientId with
    | none =>
      simp only [storeToken, hmint]
      exact .dropped (plain_some (by decide) fun _ _ => by decide)
    | some token =>
      simp only [storeToken, hmint]
      exact .answered ha hpend hmint
  · exact .idle (plain_none i)

theorem step_effect (crates : Crates) (s : Server) (i : Input) :
    Effect crates s i (step crates s i).1 (step crates s i).2 := by
  cases ha : i.action with
  | tokenLookup id body authorization => exact effect_tokenLookup crates s ha
  | tokenClient id => exact effect_tokenClient crates s ha
  | tokenInsert id => exact effect_tokenInsert crates s ha
  | authorizeGet req =>
    simp only [step, ha]
    exact effect_of_outcome (Or.inl ⟨req, ha⟩) (handleAuthorizeGet_outcome _ _ _ _)
  | authorizePost body =>
    simp only [step, ha]
    exact effect_of_outcome (Or.inr ⟨body, ha⟩) (handleAuthorizePost_outcome _ _ _ _)
  | userinfo authorization =>
    simp only [step, ha]
    refine .idle (plain_some (handleUserinfo_status _ _ _ _) fun id hid => ?_)
    rw [ha] at hid
    cases hid
  | sweepCodes =>
    simp only [step, ha]
    exact .sweptCodes ha
  | sweepTokens =>
    simp only [step, ha]
    exact .sweptTokens ha
  | reloadUsers store =>
    simp only [step, ha]
    exact .reloaded

/-! ## 3. Histories -/

/-- An authorize step that issued `code` with the record `authCode`, to a user who had
authenticated. -/
structure Issues (e : Entry Server Input (Option Response)) (code : String) (authCode : AuthCode) :
    Prop where
  action : (∃ req, e.input.action = .authorizeGet req) ∨ ∃ body, e.input.action = .authorizePost body
  redirected : ∃ r, e.output = some r ∧ r.status = 302
  code_eq : code = e.input.env.rand
  stored : e.after.oauth.codes.get code = some authCode
  authenticated : ∃ password entry,
    e.before.oauth.userStore.authenticate authCode.username password = some entry

/-- The last step of an exchange that handed out `token`. -/
structure Answers (e : Entry Server Input (Option Response)) (id : Nat) (req : TokenRequest)
    (authCode : AuthCode) (token : String) : Prop where
  action : e.input.action = .tokenInsert id
  pending : e.before.exchanges.get id = some ⟨true, req, authCode⟩
  output : e.output = some (tokenResponse token)

/-- `code` was issued with `authCode`. -/
def Issued (h : History) (code : String) (authCode : AuthCode) : Prop :=
  ∃ e ∈ h, Issues e code authCode

/-- `token` was handed out at `time` for a code that had been issued to `username`. -/
def Returned (h : History) (token username : String) (time : Nat) : Prop :=
  ∃ h₁ e h₂ id req authCode, h = h₁ ++ e :: h₂ ∧ Answers e id req authCode token ∧
    Issued h₁ req.code authCode ∧ authCode.username = username ∧ e.input.env.now = time

theorem Issued.append {h : History} {code : String} {authCode : AuthCode}
    (hi : Issued h code authCode) (e : Entry Server Input (Option Response)) :
    Issued (h ++ [e]) code authCode := by
  obtain ⟨e', he', hiss⟩ := hi
  exact ⟨e', List.mem_append_left _ he', hiss⟩

theorem Returned.append {h : History} {token username : String} {time : Nat}
    (hr : Returned h token username time) (e : Entry Server Input (Option Response)) :
    Returned (h ++ [e]) token username time := by
  obtain ⟨h₁, e', h₂, id, req, authCode, rfl, hrest⟩ := hr
  exact ⟨h₁, e', h₂ ++ [e], id, req, authCode, by simp, hrest⟩

theorem returned_nil {token username : String} {time : Nat} : ¬ Returned [] token username time := by
  rintro ⟨h₁, e, h₂, -, -, -, heq, -⟩
  exact absurd heq (by simp)

/-- A token is handed out earlier, or by the last step. -/
theorem returned_append_singleton {h : History} {e : Entry Server Input (Option Response)}
    {token username : String} {time : Nat} (hr : Returned (h ++ [e]) token username time) :
    Returned h token username time ∨
      ∃ id req authCode, Answers e id req authCode token ∧ Issued h req.code authCode ∧
        authCode.username = username ∧ e.input.env.now = time := by
  obtain ⟨h₁, e', h₂, id, req, authCode, heq, hrest⟩ := hr
  rcases List.eq_nil_or_concat h₂ with rfl | ⟨h₃, e₃, rfl⟩
  · obtain ⟨rfl, he⟩ := List.append_inj' heq (by simp)
    obtain rfl : e = e' := by simpa using he
    exact Or.inr ⟨id, req, authCode, hrest⟩
  · refine Or.inl ⟨h₁, e', h₃, id, req, authCode, ?_, hrest⟩
    rw [List.concat_eq_append, ← List.cons_append, ← List.append_assoc] at heq
    exact (List.append_inj' heq (by simp)).1

/-- A plain answer hands out no token. -/
theorem not_answers_of_plain {e : Entry Server Input (Option Response)}
    (h : Plain e.input e.output) (id : Nat) (req : TokenRequest) (authCode : AuthCode)
    (token : String) : ¬ Answers e id req authCode token := by
  intro hans
  exact (h _ hans.output).2 ⟨id, hans.action⟩ rfl

theorem not_answers_of_output_none {e : Entry Server Input (Option Response)} (h : e.output = none)
    (id : Nat) (req : TokenRequest) (authCode : AuthCode) (token : String) :
    ¬ Answers e id req authCode token := by
  intro hans
  exact absurd (h.symm.trans hans.output) (by simp)

theorem not_answers_of_authorize {e : Entry Server Input (Option Response)}
    (h : (∃ req, e.input.action = .authorizeGet req) ∨ ∃ body, e.input.action = .authorizePost body)
    (id : Nat) (req : TokenRequest) (authCode : AuthCode) (token : String) :
    ¬ Answers e id req authCode token := by
  intro hans
  rcases h with ⟨_, ha⟩ | ⟨_, ha⟩ <;> exact absurd (ha.symm.trans hans.action) (by simp)

/-- An answer that is not plain hands out a code or a token. -/
theorem Effect.issues_or_answers {crates : Crates} {e : Entry Server Input (Option Response)}
    (heff : Effect crates e.before e.input e.after e.output) (h : ¬ Plain e.input e.output) :
    (∃ authCode, Issues e e.input.env.rand authCode ∧ authCode.created = e.input.env.now) ∨
      ∃ id req authCode token, Answers e id req authCode token := by
  obtain ⟨s, i, out, s'⟩ := e
  simp only at heff h ⊢
  cases heff with
  | issued granted status action =>
    refine Or.inl ⟨_, ⟨action, ⟨_, rfl, status⟩, rfl, Map.get_insert_self _ _ _, ?_⟩, rfl⟩
    exact granted.authenticated
  | answered action pending mint => exact Or.inr ⟨_, _, _, _, action, pending, rfl⟩
  | idle plain => exact absurd plain h
  | spoiled _ plain => exact absurd plain h
  | dropped plain => exact absurd plain h
  | _ => exact absurd (plain_none i) h

/-- Everything the server holds has a history. -/
structure Traced (h : History) (s : Server) : Prop where
  codes : ∀ code authCode, s.oauth.codes.get code = some authCode → Issued h code authCode
  exchanges : ∀ id x, s.exchanges.get id = some x → Issued h x.req.code x.authCode
  tokens : ∀ token info, s.oauth.tokens.get token = some info →
    Returned h token info.username info.created

theorem traced_init (userStore : UserStore) (authMode : AuthMode) (keys : JwtKeys) :
    Traced [] (Server.init userStore authMode keys) where
  codes _ _ h := absurd h (by simp [Server.init, OAuthState.new])
  exchanges _ _ h := absurd h (by simp [Server.init])
  tokens _ _ h := absurd h (by simp [Server.init, OAuthState.new])

theorem Traced.append {h : History} {s : Server} (ht : Traced h s)
    (e : Entry Server Input (Option Response)) : Traced (h ++ [e]) s where
  codes code authCode hc := (ht.codes code authCode hc).append e
  exchanges id x hx := (ht.exchanges id x hx).append e
  tokens token info hi := (ht.tokens token info hi).append e

/-- One step keeps the histories. -/
theorem traced_step {crates : Crates} {h : History} {e : Entry Server Input (Option Response)}
    (heff : Effect crates e.before e.input e.after e.output) (ht : Traced h e.before) :
    Traced (h ++ [e]) e.after := by
  have ht' := ht.append e
  obtain ⟨s, i, out, s'⟩ := e
  simp only at heff ht ht' ⊢
  cases heff with
  | idle _ => exact ht'
  | issued granted status action =>
    rename_i g r
    refine ⟨?_, ht'.exchanges, ht'.tokens⟩
    intro code authCode hget
    rcases Map.get_insert_eq_some.mp hget with ⟨rfl, rfl⟩ | ⟨-, hold⟩
    · refine ⟨_, List.mem_append_right _ List.mem_cons_self, action, ⟨r, rfl, status⟩, rfl, hget, ?_⟩
      exact granted.authenticated
    · exact ht'.codes code authCode hold
  | spoiled _ _ =>
    exact ⟨fun code authCode hget => ht'.codes code authCode (Map.get_erase_eq_some.mp hget).2,
      ht'.exchanges, ht'.tokens⟩
  | consumed free found clientId verifier =>
    refine ⟨fun code authCode hget => ht'.codes code authCode (Map.get_erase_eq_some.mp hget).2, ?_,
      ht'.tokens⟩
    intro id x hget
    rcases Map.get_insert_eq_some.mp hget with ⟨rfl, rfl⟩ | ⟨-, hold⟩
    · exact ht'.codes _ _ found
    · exact ht'.exchanges id x hold
  | dropped _ =>
    exact ⟨ht'.codes, fun id x hget => ht'.exchanges id x (Map.get_erase_eq_some.mp hget).2,
      ht'.tokens⟩
  | cleared action pending secret =>
    rename_i id req authCode
    refine ⟨ht'.codes, ?_, ht'.tokens⟩
    intro id x hget
    rcases Map.get_insert_eq_some.mp hget with ⟨rfl, rfl⟩ | ⟨-, hold⟩
    · exact ht'.exchanges id ⟨false, req, authCode⟩ pending
    · exact ht'.exchanges id x hold
  | answered action pending mint =>
    rename_i id req authCode token
    refine ⟨ht'.codes, fun id x hget => ht'.exchanges id x (Map.get_erase_eq_some.mp hget).2, ?_⟩
    intro t info hget
    rcases Map.get_insert_eq_some.mp hget with ⟨rfl, rfl⟩ | ⟨-, hold⟩
    · exact ⟨h, _, [], id, req, authCode, rfl, ⟨action, pending, rfl⟩, ht.exchanges _ _ pending,
        rfl, rfl⟩
    · exact ht'.tokens t info hold
  | sweptCodes _ =>
    exact ⟨fun code authCode hget => ht'.codes code authCode (Map.get_retain_eq_some.mp hget).1,
      ht'.exchanges, ht'.tokens⟩
  | sweptTokens _ =>
    exact ⟨ht'.codes, ht'.exchanges,
      fun t info hget => ht'.tokens t info (Map.get_retain_eq_some.mp hget).1⟩
  | reloaded => exact ⟨ht'.codes, ht'.exchanges, ht'.tokens⟩

/-- Every reachable state has a history. -/
theorem traced (crates : Crates) (userStore : UserStore) (authMode : AuthMode) (keys : JwtKeys)
    (run : List Input) :
    Traced ((server crates).trace (.init userStore authMode keys) run)
      ((server crates).exec (.init userStore authMode keys) run) :=
  (server crates).history_induction (traced_init userStore authMode keys)
    (fun _ s i ht => traced_step (e := (server crates).entry s i) (step_effect crates s i) ht) run

/-! ## 4. A request that nothing interrupts -/

/-- The three steps of one exchange. -/
def tokenSteps (env : Env) (id : Nat) (body : List UInt8) (authorization : Option String) :
    List Input :=
  [⟨env, .tokenLookup id body authorization⟩, ⟨env, .tokenClient id⟩, ⟨env, .tokenInsert id⟩]

/-- Run in a row, the three steps of an exchange do what `handle_token` does, and the last
answer among them is its answer. -/
theorem handleToken_eq_steps (crates : Crates) (env : Env) (s : Server) (id : Nat)
    (body : List UInt8) (authorization : Option String) (hfree : s.exchanges.get id = none) :
    let out := handleToken crates env s.oauth body authorization
    (server crates).exec s (tokenSteps env id body authorization) = { s with oauth := out.1 } ∧
      (((server crates).trace s (tokenSteps env id body authorization)).filterMap Entry.output) =
        [out.2] := by
  simp only [tokenSteps, Machine.exec, Machine.trace, Machine.entry, server, handleToken]
  cases hreq : parseTokenRequest body authorization with
  | error r => simp [step, hfree, hreq]
  | ok req =>
    rcases hcons : consumeCode crates env.now s.oauth req with ⟨st, r | authCode⟩
    · simp [step, hfree, hreq, hcons]
    · cases hclient : checkClient env.clients req authCode with
      | error r => simp [step, hfree, hreq, hcons, hclient, Map.erase_insert hfree]
      | ok _ => simp [step, hfree, hreq, hcons, hclient, Map.erase_insert hfree]

/-! ## 5. A run

The default user logs in to a client with a secret and exchanges the code for a token. -/

def sampleEnv (now : Nat) (rand : String) : Env := ⟨now, 1700000000, rand, sampleClients⟩

/-- `GET /oauth/authorize` as `admin`. -/
def sampleAuthorize : AuthorizeRequest where
  query := some "client_id=console&redirect_uri=https://console.apps.ocp-sim.test/callback"
  authorization := some "Basic YWRtaW46YWRtaW4="
  csrfToken := false

/-- `POST /oauth/token` for the code `code1`. -/
def sampleTokenBody : List UInt8 :=
  Utf8.encode
    "grant_type=authorization_code&code=code1&client_id=console&client_secret=s3cret"

def sampleRun : List Input :=
  ⟨sampleEnv (secs 1) "code1", .authorizeGet sampleAuthorize⟩ ::
    tokenSteps (sampleEnv (secs 2) "token1") 0 sampleTokenBody none

/-- The run ends with a token of `admin` in the map. -/
example :
    (((server unsignedCrates).exec (.init .default .legacy ⟨"", ""⟩) sampleRun).oauth.tokens.get
      "sha256~token1") = some ⟨"admin", secs 2⟩ := by
  decide +kernel

end Picoshift.OAuth
