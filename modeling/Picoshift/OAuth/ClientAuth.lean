/-
# Two ways for a client to authenticate

A client may present its id and secret as form fields or in a Basic header, and the discovery
document offers both.  `handle_token` takes the id from either place but the secret from the
FORM only: `extract_client_id_from_basic` splits the credential at its colon and drops the
second half.

So the header does as well as the fields for every request that is refused anyway, that is
settled by a PKCE verifier, or whose client has no secret.  It fails for the requests that the
secret is there for (`basic_same_as_post_iff`).
-/
import Picoshift.OAuth.Handlers

namespace Picoshift.OAuth

/-! ## 1. The two requests -/

/-- The answers have one status, and the code and token maps are affected alike up to the value of
a new token. -/
def SameOutcome (st : OAuthState) (out₁ out₂ : OAuthState × Response) : Prop :=
  out₁.2.status = out₂.2.status ∧ out₁.1.codes = out₂.1.codes ∧
    ((out₁.1.tokens = st.tokens ∧ out₂.1.tokens = st.tokens) ∨
      ∃ token₁ token₂ info, out₁.1.tokens = st.tokens.insert token₁ info ∧
        out₂.1.tokens = st.tokens.insert token₂ info)

/-- `client_secret_basic`. -/
def tokenByBasic (crates : Crates) (env : Env) (st : OAuthState) (fields : List (String × String))
    (clientId secret : String) : OAuthState × Response :=
  handleToken crates env st (Form.serialize fields) (some (basicHeader clientId secret))

/-- `client_secret_post`. -/
def tokenByPost (crates : Crates) (env : Env) (st : OAuthState) (fields : List (String × String))
    (clientId secret : String) : OAuthState × Response :=
  handleToken crates env st
    (Form.serialize (fields ++ [("client_id", clientId), ("client_secret", secret)])) none

theorem extractClientIdFromBasic_basicHeader {clientId : String} (h : ':' ∉ clientId.toList)
    (secret : String) :
    extractClientIdFromBasic (some (basicHeader clientId secret)) = some clientId := by
  rw [extractClientIdFromBasic, Option.bind_some, basicHeader, Str.stripPrefix_append,
    Option.bind_some, decodeBasic_encode h]
  rfl

/-- The fields of a request other than the client's. -/
def parseOther (fields : List (String × String)) (clientId clientSecret : String) :
    Except Response TokenRequest :=
  if (Map.ofPairs fields).get "grant_type" = some "authorization_code" then
    match (Map.ofPairs fields).get "code" with
    | none => .error (jsonResponse 400 (errorJson "invalid_request" (some "missing code")))
    | some code => .ok ⟨code, clientId, clientSecret, (Map.ofPairs fields).get "code_verifier"⟩
  else .error (jsonResponse 400 (errorJson "unsupported_grant_type" none))

section Requests

variable {fields : List (String × String)} {clientId secret : String}
  (hfields : ∀ f ∈ fields, f.1 ≠ "client_id" ∧ f.1 ≠ "client_secret")

theorem grant_getD_eq_iff {o : Option String} :
    o.getD "" = "authorization_code" ↔ o = some "authorization_code" := by
  cases o with
  | none => simp
  | some s => simp

include hfields in
/-- The header gives the id, and an empty secret. -/
theorem parseTokenRequest_basic (hid : ':' ∉ clientId.toList) :
    parseTokenRequest (Form.serialize fields) (some (basicHeader clientId secret)) =
      parseOther fields clientId "" := by
  have hcid : (Map.ofPairs fields).get "client_id" = none :=
    Map.get_writeAll_of_not_mem fun f hf => (hfields f hf).1
  have hsec : (Map.ofPairs fields).get "client_secret" = none :=
    Map.get_writeAll_of_not_mem fun f hf => (hfields f hf).2
  simp only [parseTokenRequest, parseFormBody, Form.parse_serialize, parseOther, hcid, hsec,
    ne_eq, grant_getD_eq_iff, ite_not, extractClientIdFromBasic_basicHeader hid]
  rfl

/-- The form gives both. -/
theorem parseTokenRequest_post :
    parseTokenRequest
        (Form.serialize (fields ++ [("client_id", clientId), ("client_secret", secret)])) none =
      parseOther fields clientId secret := by
  have hget : ∀ name, name ≠ "client_id" → name ≠ "client_secret" →
      (Map.ofPairs (fields ++ [("client_id", clientId), ("client_secret", secret)])).get name =
        (Map.ofPairs fields).get name := by
    intro name h1 h2
    rw [Map.ofPairs, Map.writeAll_append]
    exact Map.get_writeAll_of_not_mem (by simp [Ne.symm h1, Ne.symm h2])
  have hcid : (Map.ofPairs (fields ++ [("client_id", clientId), ("client_secret", secret)])).get
      "client_id" = some clientId := by
    simp [Map.ofPairs, Map.writeAll_append]
  have hsec : (Map.ofPairs (fields ++ [("client_id", clientId), ("client_secret", secret)])).get
      "client_secret" = some secret := by
    simp [Map.ofPairs, Map.writeAll_append]
  simp only [parseTokenRequest, parseFormBody, Form.parse_serialize, parseOther, hcid, hsec,
    hget "grant_type" (by decide) (by decide), hget "code" (by decide) (by decide),
    hget "code_verifier" (by decide) (by decide), ne_eq, grant_getD_eq_iff, ite_not]
  rfl

end Requests

/-! ## 2. What the secret is used for -/

/-- What `handle_token` does with a request it could read. -/
def exchange (crates : Crates) (env : Env) (st : OAuthState) (req : TokenRequest) :
    OAuthState × Response :=
  match consumeCode crates env.now st req with
  | (st, .error r) => (st, r)
  | (st, .ok authCode) =>
    match checkClient env.clients req authCode with
    | .error r => (st, r)
    | .ok () => storeToken crates env st req authCode

theorem handleToken_eq_exchange (crates : Crates) (env : Env) (st : OAuthState) (body : List UInt8)
    (authorization : Option String) :
    handleToken crates env st body authorization =
      match parseTokenRequest body authorization with
      | .error r => (st, r)
      | .ok req => exchange crates env st req := rfl

/-- Taking the code out does not look at the secret, and touches no token. -/
theorem consumeCode_tokens (crates : Crates) (now : Nat) (st : OAuthState) (req : TokenRequest) :
    (consumeCode crates now st req).1.tokens = st.tokens := by
  unfold consumeCode
  split <;> rfl

theorem consumeCode_of_found {crates : Crates} {now : Nat} {st : OAuthState} {req : TokenRequest}
    {authCode : AuthCode} (hfound : st.codes.get req.code = some authCode)
    (hage : now - authCode.created ≤ codeTtl) (hid : authCode.clientId = req.clientId)
    (hch : authCode.codeChallenge = none) :
    (consumeCode crates now st req).2 = .ok authCode := by
  simp only [consumeCode, hfound, checkCode, if_neg (Nat.not_lt.mpr hage), hid, ne_eq,
    not_true_eq_false, if_false, hch]
  rfl

theorem found_of_consumeCode {crates : Crates} {now : Nat} {st : OAuthState} {req : TokenRequest}
    {authCode : AuthCode} (h : (consumeCode crates now st req).2 = .ok authCode) :
    st.codes.get req.code = some authCode ∧ now - authCode.created ≤ codeTtl ∧
      authCode.clientId = req.clientId := by
  unfold consumeCode at h
  split at h
  · exact absurd h (by simp)
  · rename_i ac hfound
    cases hcheck : checkCode crates now req ac with
    | error r => rw [hcheck] at h; exact absurd h (by simp [Except.map])
    | ok _ =>
      rw [hcheck] at h
      obtain rfl : ac = authCode := Except.ok.inj h
      unfold checkCode at hcheck
      split at hcheck
      · exact absurd hcheck (by simp)
      rename_i hage
      split at hcheck
      · exact absurd hcheck (by simp)
      rename_i hid
      exact ⟨hfound, Nat.not_lt.mp hage, not_not.mp hid⟩

/-- Minting succeeds or fails alike for one user and client at one time. -/
theorem mintToken_alike (crates : Crates) {env env' : Env} (st : OAuthState)
    (hsecs : env.unixSecs = env'.unixSecs) (username clientId : String) :
    (∃ token token', mintToken crates env st username clientId = some token ∧
        mintToken crates env' st username clientId = some token') ∨
      (mintToken crates env st username clientId = none ∧
        mintToken crates env' st username clientId = none) := by
  unfold mintToken
  rw [hsecs]
  cases st.jwtKeys with
  | none => exact Or.inl ⟨_, _, rfl, rfl⟩
  | some keys =>
    cases h : crates.jwtEncode keys.kid
        (tokenClaims st.userStore username clientId env'.unixSecs) keys.encodingKey with
    | none => exact Or.inr ⟨h, h⟩
    | some token => exact Or.inl ⟨token, token, h, h⟩

/-- Storing a token has one effect up to the token's value. -/
theorem sameOutcome_storeToken (crates : Crates) {env env' : Env} {st₀ st : OAuthState}
    (req req' : TokenRequest) (authCode : AuthCode) (htokens : st.tokens = st₀.tokens)
    (hnow : env.now = env'.now) (hsecs : env.unixSecs = env'.unixSecs)
    (hid : req.clientId = req'.clientId) :
    SameOutcome st₀ (storeToken crates env st req authCode)
      (storeToken crates env' st req' authCode) := by
  rw [SameOutcome, ← htokens, storeToken, storeToken, hnow, hid]
  rcases mintToken_alike crates st hsecs authCode.username req'.clientId with
    ⟨token, token', h, h'⟩ | ⟨h, h'⟩
  · rw [h, h']
    exact ⟨rfl, rfl, Or.inr ⟨token, token', ⟨authCode.username, env'.now⟩, rfl, rfl⟩⟩
  · rw [h, h']
    exact ⟨rfl, rfl, Or.inl ⟨rfl, rfl⟩⟩

theorem storeToken_status (crates : Crates) (env : Env) (st : OAuthState) (req : TokenRequest)
    (authCode : AuthCode) : (storeToken crates env st req authCode).2.status ≠ 401 := by
  unfold storeToken
  split
  · simp [jsonResponse]
  · simp [tokenResponse, jsonResponse]

/-- The client check with no secret at all. -/
theorem checkClient_without_secret {clients : String → Option Json} {code clientId : String}
    {verifier : Option String} {authCode : AuthCode} (hch : authCode.codeChallenge = none)
    {expected : String} {uris : List String}
    (hclient : validateClient clients clientId = some (expected, uris)) (secret : String) :
    checkClient clients ⟨code, clientId, secret, verifier⟩ authCode =
      if expected ≠ "" ∧ secret ≠ expected then
        .error (jsonResponse 401 (errorJson "invalid_client" (some "bad client_secret")))
      else .ok () := by
  simp only [checkClient, hch, hclient]

/-- A code that the client's secret is there for: the client is the code's, there is no challenge,
and the secret is right and not empty. -/
def NeedsSecret (clients : String → Option Json) (now : Nat) (st : OAuthState)
    (code clientId secret : String) : Prop :=
  secret ≠ "" ∧ ∃ authCode uris, st.codes.get code = some authCode ∧
    now - authCode.created ≤ codeTtl ∧ authCode.clientId = clientId ∧
    authCode.codeChallenge = none ∧ validateClient clients clientId = some (secret, uris)

/-- What the secret is there for once the code has been accepted. -/
def SecretDecides (clients : String → Option Json) (clientId secret : String) (authCode : AuthCode) :
    Prop :=
  secret ≠ "" ∧ authCode.codeChallenge = none ∧
    ∃ uris, validateClient clients clientId = some (secret, uris)

/-- The check of the client is the same with and without the secret, or the secret decides it. -/
theorem checkClient_secret (clients : String → Option Json) (code clientId secret : String)
    (verifier : Option String) (authCode : AuthCode) :
    (¬ SecretDecides clients clientId secret authCode ∧
      checkClient clients ⟨code, clientId, "", verifier⟩ authCode =
        checkClient clients ⟨code, clientId, secret, verifier⟩ authCode) ∨
    (SecretDecides clients clientId secret authCode ∧
      checkClient clients ⟨code, clientId, "", verifier⟩ authCode =
        .error (jsonResponse 401 (errorJson "invalid_client" (some "bad client_secret"))) ∧
      checkClient clients ⟨code, clientId, secret, verifier⟩ authCode = .ok ()) := by
  cases hch : authCode.codeChallenge with
  | some challenge =>
    -- a verifier has settled it
    refine Or.inl ⟨fun h => absurd (hch.symm.trans h.2.1) (by simp), ?_⟩
    simp only [checkClient, hch]
  | none =>
    rcases hclient : validateClient clients clientId with _ | ⟨expected, uris⟩
    · -- there is no such client
      refine Or.inl ⟨?_, by simp only [checkClient, hch, hclient]⟩
      rintro ⟨-, -, _, hcl⟩
      cases hclient.symm.trans hcl
    · rw [checkClient_without_secret hch hclient, checkClient_without_secret hch hclient]
      by_cases hright : expected ≠ "" ∧ secret = expected
      · obtain ⟨hne, rfl⟩ := hright
        refine Or.inr ⟨⟨hne, hch, uris, hclient⟩, if_pos ⟨hne, Ne.symm hne⟩, ?_⟩
        exact if_neg fun h => h.2 rfl
      · refine Or.inl ⟨?_, ?_⟩
        · rintro ⟨hne, -, _, hcl⟩
          cases hclient.symm.trans hcl
          exact hright ⟨hne, rfl⟩
        · by_cases hempty : expected = ""
          · rw [if_neg fun h => h.1 hempty, if_neg fun h => h.1 hempty]
          · rw [if_pos ⟨hempty, Ne.symm hempty⟩, if_pos ⟨hempty, fun h => hright ⟨hempty, h⟩⟩]

/-- A code that needs the secret is accepted without it. -/
theorem NeedsSecret.consumed {clients : String → Option Json} {now : Nat} {st : OAuthState}
    {code clientId secret : String}
    (h : NeedsSecret clients now st code clientId secret) (crates : Crates)
    (verifier : Option String) :
    ∃ authCode, (consumeCode crates now st ⟨code, clientId, "", verifier⟩).2 = .ok authCode ∧
      SecretDecides clients clientId secret authCode := by
  obtain ⟨hne, authCode, uris, hfound, hage, hid, hch, hclient⟩ := h
  exact ⟨authCode, consumeCode_of_found hfound hage hid hch, hne, hch, uris, hclient⟩

theorem needsSecret_iff_of_consumed {crates : Crates} {now : Nat} {st : OAuthState}
    {code clientId : String} {verifier : Option String} {authCode : AuthCode}
    (h : (consumeCode crates now st ⟨code, clientId, "", verifier⟩).2 = .ok authCode)
    (clients : String → Option Json) (secret : String) :
    NeedsSecret clients now st code clientId secret ↔
      SecretDecides clients clientId secret authCode := by
  constructor
  · intro hneeds
    obtain ⟨authCode', hok, hdecides⟩ := hneeds.consumed crates verifier
    cases h.symm.trans hok
    exact hdecides
  · rintro ⟨hne, hch, uris, hclient⟩
    obtain ⟨hget, hage, hid⟩ := found_of_consumeCode h
    exact ⟨hne, authCode, uris, hget, hage, hid, hch, hclient⟩

/-- Exchanges that differ in the secret only. -/
theorem sameOutcome_exchange_iff (crates : Crates) (env env' : Env) (st : OAuthState)
    (hnow : env.now = env'.now) (hsecs : env.unixSecs = env'.unixSecs)
    (hclients : env.clients = env'.clients) (code clientId secret : String)
    (verifier : Option String) :
    SameOutcome st (exchange crates env st ⟨code, clientId, "", verifier⟩)
        (exchange crates env' st ⟨code, clientId, secret, verifier⟩) ↔
      ¬ NeedsSecret env.clients env.now st code clientId secret := by
  have hsame : consumeCode crates env'.now st ⟨code, clientId, secret, verifier⟩ =
      consumeCode crates env.now st ⟨code, clientId, "", verifier⟩ := by
    rw [hnow]
    rfl
  have htokens := consumeCode_tokens crates env.now st ⟨code, clientId, "", verifier⟩
  unfold exchange
  rw [hsame, ← hclients]
  rcases hout : consumeCode crates env.now st ⟨code, clientId, "", verifier⟩ with ⟨st', r | authCode⟩
  · -- the code is refused
    rw [hout] at htokens
    refine iff_of_true ⟨rfl, rfl, Or.inl ⟨htokens, htokens⟩⟩ fun h => ?_
    obtain ⟨_, hok, -⟩ := h.consumed crates verifier
    rw [hout] at hok
    cases hok
  · rw [hout] at htokens
    rw [needsSecret_iff_of_consumed (congrArg Prod.snd hout)]
    have hstore := sameOutcome_storeToken crates ⟨code, clientId, "", verifier⟩
      ⟨code, clientId, secret, verifier⟩ authCode htokens hnow hsecs rfl
    rcases checkClient_secret env.clients code clientId secret verifier authCode with
      ⟨hno, hcheck⟩ | ⟨hdecides, hwithout, hwith⟩
    · refine iff_of_true ?_ hno
      simp only [hcheck]
      cases checkClient env.clients ⟨code, clientId, secret, verifier⟩ authCode with
      | error r => exact ⟨rfl, rfl, Or.inl ⟨htokens, htokens⟩⟩
      | ok _ => exact hstore
    · -- the right secret: refused in the header, accepted in the form
      refine iff_of_false (fun h => ?_) (not_not.mpr hdecides)
      simp only [hwithout, hwith] at h
      exact storeToken_status crates env' st' _ authCode h.1.symm

/-! ## 3. Header and fields -/

/-- The header does as well as the fields, unless the request is an exchange that depends on the
secret it carries. -/
theorem basic_same_as_post_iff (crates : Crates) (st : OAuthState) (clients : String → Option Json)
    (now unixSecs : Nat) (rand₁ rand₂ : String) (fields : List (String × String))
    (clientId secret : String) (hid : ':' ∉ clientId.toList)
    (hfields : ∀ f ∈ fields, f.1 ≠ "client_id" ∧ f.1 ≠ "client_secret") :
    SameOutcome st (tokenByBasic crates ⟨now, unixSecs, rand₁, clients⟩ st fields clientId secret)
        (tokenByPost crates ⟨now, unixSecs, rand₂, clients⟩ st fields clientId secret) ↔
      ¬ ((Map.ofPairs fields).get "grant_type" = some "authorization_code" ∧
        ∃ code, (Map.ofPairs fields).get "code" = some code ∧
          NeedsSecret clients now st code clientId secret) := by
  rw [tokenByBasic, tokenByPost, handleToken_eq_exchange, handleToken_eq_exchange,
    parseTokenRequest_basic hfields hid, parseTokenRequest_post]
  unfold parseOther
  by_cases hgrant : (Map.ofPairs fields).get "grant_type" = some "authorization_code"
  · simp only [hgrant, if_true, true_and]
    cases hcode : (Map.ofPairs fields).get "code" with
    | none =>
      exact iff_of_true ⟨rfl, rfl, Or.inl ⟨rfl, rfl⟩⟩ fun ⟨code, h, _⟩ => absurd h (by simp)
    | some code =>
      simp only [Option.some.injEq, exists_eq_left']
      exact sameOutcome_exchange_iff crates ⟨now, unixSecs, rand₁, clients⟩
        ⟨now, unixSecs, rand₂, clients⟩ st rfl rfl rfl code clientId secret _
  · simp only [hgrant, if_false, false_and, not_false_eq_true, iff_true]
    exact ⟨rfl, rfl, Or.inl ⟨rfl, rfl⟩⟩

/-- A state with one code, issued to `console` without a challenge. -/
def oneCode (challenge : Option String) : OAuthState :=
  { OAuthState.new .default .legacy ⟨"", ""⟩ with
    codes := Map.empty.insert "code1" ⟨"admin", "console", 0, challenge, some "plain"⟩ }

/-- The fields of an exchange of that code. -/
def codeFields : List (String × String) :=
  [("grant_type", "authorization_code"), ("code", "code1"), ("code_verifier", "verifier")]

/-- With a challenge, header and fields do equally well. -/
theorem basic_same_as_post_iff_challenge :
    (':' ∉ "console".toList ∧
      ∀ f ∈ codeFields, f.1 ≠ "client_id" ∧ f.1 ≠ "client_secret") ∧
    SameOutcome (oneCode (some "verifier"))
      (tokenByBasic unsignedCrates ⟨1, 1, "token1", sampleClients⟩ (oneCode (some "verifier"))
        codeFields "console" "s3cret")
      (tokenByPost unsignedCrates ⟨1, 1, "token2", sampleClients⟩ (oneCode (some "verifier"))
        codeFields "console" "s3cret") := by
  refine ⟨⟨by decide, by decide⟩, ?_⟩
  refine (basic_same_as_post_iff unsignedCrates (oneCode (some "verifier")) sampleClients 1 1 "token1"
    "token2" codeFields "console" "s3cret" (by decide) (by decide)).mpr ?_
  rintro ⟨-, code, hcode, -, authCode, -, hget, -, -, hch, -⟩
  obtain rfl : "code1" = code :=
    Option.some.inj ((by decide : (Map.ofPairs codeFields).get "code" = some "code1").symm.trans hcode)
  obtain rfl : AuthCode.mk "admin" "console" 0 (some "verifier") (some "plain") = authCode :=
    Option.some.inj ((Map.get_insert_self _ _ _).symm.trans hget)
  exact absurd hch (by simp)

/-- Without a challenge, the right secret is refused in the header and accepted in the fields. -/
theorem basic_secret_refused :
    ¬ SameOutcome (oneCode none)
      (tokenByBasic unsignedCrates ⟨1, 1, "token1", sampleClients⟩ (oneCode none) codeFields
        "console" "s3cret")
      (tokenByPost unsignedCrates ⟨1, 1, "token2", sampleClients⟩ (oneCode none) codeFields
        "console" "s3cret") := by
  rintro ⟨hstatus, -⟩
  exact absurd hstatus (by decide +kernel)

end Picoshift.OAuth
