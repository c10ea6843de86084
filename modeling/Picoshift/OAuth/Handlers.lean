/-
# The request handlers

`oauth/handlers.rs`: the two ways to authorize, the token exchange and userinfo.

A handler takes the state and what its surroundings give it and returns the new state with its
answer.  `handle_token` is the composition of the pieces between its lock acquisitions
(`parseTokenRequest`, `consumeCode`, `checkClient`, `storeToken`), because that is how
concurrent exchanges interleave; `handleToken` runs them one after another.
-/
import Picoshift.OAuth.Helpers

namespace Picoshift.OAuth

/-! ## 1. Issuing a code -/

/-- The redirect that carries a code and, if there is one, the caller's state.  A text that is no
URL is replaced by a constant one. -/
def redirectUrl (url : UrlCrate) (redirectUri code reqState : String) : url.Url :=
  let redirect := (url.parse redirectUri).getD url.errorUrl
  let redirect := url.appendPair redirect "code" code
  if reqState = "" then redirect else url.appendPair redirect "state" reqState

def issueAuthCode (crates : Crates) (env : Env) (st : OAuthState)
    (username clientId redirectUri reqState : String)
    (codeChallenge codeChallengeMethod : Option String) : OAuthState × Response :=
  let code := env.rand
  let authCode : AuthCode :=
    { username := username
      clientId := clientId
      created := env.now
      codeChallenge := codeChallenge
      codeChallengeMethod := codeChallengeMethod }
  let location := crates.url.asStr (redirectUrl crates.url redirectUri code reqState)
  ({ st with codes := st.codes.insert code authCode },
    ⟨302, [("location", location)], .text ""⟩)

/-! ## 2. Authorizing -/

/-- Some registered URI is a textual beginning of the requested one. -/
def uriMatches (redirectUris : List String) (redirectUri : String) : Bool :=
  redirectUris.any fun u => Str.startsWith redirectUri u

/-- The user and password of a Basic credential, behind the word `Basic`. -/
def decodeBasic (encoded : String) : Option (String × String) :=
  ((Base64.decode Base64.standard (Str.trim encoded)).bind Utf8.fromUtf8).bind
    fun cred => Str.splitOnce cred ':'

/-- The value of a Basic header. -/
def basicHeader (user pass : String) : String :=
  "Basic " ++ Base64.encode Base64.standard (Utf8.encode (user ++ ":" ++ pass))

/-- Credentials whose user has no colon are read back from their header. -/
theorem decodeBasic_encode {user : String} (h : ':' ∉ user.toList) (pass : String) :
    decodeBasic (Base64.encode Base64.standard (Utf8.encode (user ++ ":" ++ pass))) =
      some (user, pass) := by
  have hcolon : ":" = String.ofList [':'] := by decide
  rw [decodeBasic, Base64.trim_encode, Base64.decode_encode, Option.bind_some,
    Utf8.fromUtf8_encode, Option.bind_some, hcolon, Str.splitOnce_append h]

def unauthorized (body : String) : Response :=
  ⟨401, [("www-authenticate", "Basic realm=\"openshift\"")], .text body⟩

/-- A GET of `/oauth/authorize`: the query, the Authorization header if it is text, and whether
there is an X-CSRF-Token header. -/
structure AuthorizeRequest where
  query : Option String
  authorization : Option String
  csrfToken : Bool

def handleAuthorizeGet (crates : Crates) (env : Env) (st : OAuthState) (req : AuthorizeRequest) :
    OAuthState × Response :=
  let params := parseQuery req.query
  match params.get "client_id" with
  | none => (st, textResponse 400 "missing client_id\n")
  | some clientId =>
  match params.get "redirect_uri" with
  | none => (st, textResponse 400 "missing redirect_uri\n")
  | some redirectUri =>
  let reqState := (params.get "state").getD ""
  let responseType := (params.get "response_type").getD ""
  match validateClient env.clients clientId with
  | none => (st, textResponse 400 "unknown client_id\n")
  | some (_, redirectUris) =>
  if uriMatches redirectUris redirectUri = false then
    (st, textResponse 400 "redirect_uri mismatch\n")
  else
  match req.authorization.bind fun auth => Str.stripPrefix auth "Basic " with
  | some encoded =>
    match decodeBasic encoded with
    | some (user, pass) =>
      match st.userStore.authenticate user pass with
      | some _ =>
        issueAuthCode crates env st user clientId redirectUri reqState
          (params.get "code_challenge") (params.get "code_challenge_method")
      | none => (st, unauthorized "invalid credentials\n")
    | none => (st, unauthorized "invalid credentials\n")
  | none =>
    if req.csrfToken then (st, unauthorized "challenge\n")
    else
      let showError := (params.get "error").isSome
      (st, htmlResponse 200 (loginFormHtml clientId redirectUri reqState responseType showError))

def handleAuthorizePost (crates : Crates) (env : Env) (st : OAuthState) (body : List UInt8) :
    OAuthState × Response :=
  let params := parseFormBody body
  match params.get "client_id" with
  | none => (st, textResponse 400 "missing client_id\n")
  | some clientId =>
  match params.get "redirect_uri" with
  | none => (st, textResponse 400 "missing redirect_uri\n")
  | some redirectUri =>
  let reqState := (params.get "state").getD ""
  let responseType := (params.get "response_type").getD ""
  let username := (params.get "username").getD ""
  let password := (params.get "password").getD ""
  if username = "" ∨ st.userStore.authenticate username password = none then
    (st, htmlResponse 200 (loginFormHtml clientId redirectUri reqState responseType true))
  else
  match validateClient env.clients clientId with
  | none => (st, textResponse 400 "unknown client_id\n")
  | some (_, redirectUris) =>
  if uriMatches redirectUris redirectUri = false then
    (st, textResponse 400 "redirect_uri mismatch\n")
  else
    issueAuthCode crates env st username clientId redirectUri reqState
      (params.get "code_challenge") (params.get "code_challenge_method")

/-! ## 3. Exchanging a code for a token -/

def verifyPkce (crates : Crates) (verifier challenge method : String) : Bool :=
  if method = "S256" then
    Base64.encode Base64.urlSafeNoPad (crates.sha256 (Utf8.encode verifier)) == challenge
  else if method = "plain" then verifier == challenge
  else false

def extractClientIdFromBasic (authorization : Option String) : Option String :=
  ((authorization.bind fun auth => Str.stripPrefix auth "Basic ").bind decodeBasic).map Prod.fst

/-- What a token request presents. -/
structure TokenRequest where
  code : String
  clientId : String
  clientSecret : String
  codeVerifier : Option String
  deriving DecidableEq, Repr

/-- The request's fields, before any of the state is read.  The client id may come from a Basic
header; the secret comes from the form only. -/
def parseTokenRequest (body : List UInt8) (authorization : Option String) :
    Except Response TokenRequest :=
  let params := parseFormBody body
  if (params.get "grant_type").getD "" ≠ "authorization_code" then
    .error (jsonResponse 400 (errorJson "unsupported_grant_type" none))
  else
  match params.get "code" with
  | none => .error (jsonResponse 400 (errorJson "invalid_request" (some "missing code")))
  | some code =>
  match (params.get "client_id").orElse fun _ => extractClientIdFromBasic authorization with
  | none => .error (jsonResponse 400 (errorJson "invalid_request" (some "missing client_id")))
  | some clientId =>
    .ok { code := code
          clientId := clientId
          clientSecret := (params.get "client_secret").getD ""
          codeVerifier := params.get "code_verifier" }

/-- The checks on a code that has been taken out of the map. -/
def checkCode (crates : Crates) (now : Nat) (req : TokenRequest) (authCode : AuthCode) :
    Except Response Unit :=
  if now - authCode.created > codeTtl then
    .error (jsonResponse 400 (errorJson "invalid_grant" (some "code expired")))
  else if authCode.clientId ≠ req.clientId then
    .error (jsonResponse 400 (errorJson "invalid_grant" (some "client_id mismatch")))
  else
  match authCode.codeChallenge with
  | none => .ok ()
  | some challenge =>
    match req.codeVerifier with
    | some verifier =>
      if verifyPkce crates verifier challenge (authCode.codeChallengeMethod.getD "S256") then
        .ok ()
      else .error (jsonResponse 400 (errorJson "invalid_grant" (some "code_verifier mismatch")))
    | none =>
      .error (jsonResponse 400 (errorJson "invalid_request" (some "missing code_verifier")))

/-- Look the code up and remove it, in one step under the write lock, and check it. -/
def consumeCode (crates : Crates) (now : Nat) (st : OAuthState) (req : TokenRequest) :
    OAuthState × Except Response AuthCode :=
  match st.codes.get req.code with
  | none => (st, .error (jsonResponse 400 (errorJson "invalid_grant" none)))
  | some authCode =>
    ({ st with codes := st.codes.erase req.code },
      (checkCode crates now req authCode).map fun _ => authCode)

/-- The client's own secret, asked for only when the code records no challenge. -/
def checkClient (clients : String → Option Json) (req : TokenRequest) (authCode : AuthCode) :
    Except Response Unit :=
  match authCode.codeChallenge with
  | some _ => .ok ()
  | none =>
    match validateClient clients req.clientId with
    | none => .error (jsonResponse 400 (errorJson "invalid_client" none))
    | some (expectedSecret, _) =>
      if expectedSecret ≠ "" ∧ req.clientSecret ≠ expectedSecret then
        .error (jsonResponse 401 (errorJson "invalid_client" (some "bad client_secret")))
      else .ok ()

/-- The claims of a signed token. -/
def tokenClaims (store : UserStore) (username clientId : String) (unixSecs : Nat) : Json :=
  .obj
    [("iss", .str ("https://" ++ oauthHost ++ "." ++ domain)),
      ("sub", .str username),
      ("aud", .str clientId),
      ("preferred_username", .str username),
      ("email", .str (store.profile username).1),
      ("groups", .ofStrings (store.profile username).2),
      ("iat", .num unixSecs),
      ("exp", .num (unixSecs + tokenTtlSecs))]

/-- A signed token in oidc mode, a random one otherwise. -/
def mintToken (crates : Crates) (env : Env) (st : OAuthState) (username clientId : String) :
    Option String :=
  match st.jwtKeys with
  | some keys =>
    crates.jwtEncode keys.kid (tokenClaims st.userStore username clientId env.unixSecs)
      keys.encodingKey
  | none => some ("sha256~" ++ env.rand)

/-- The answer to an exchange that succeeds. -/
def tokenResponse (token : String) : Response :=
  jsonResponse 200
    (.obj
      [("access_token", .str token),
        ("token_type", .str "Bearer"),
        ("expires_in", .num tokenTtlSecs)])

theorem tokenResponse_injective {t t' : String} (h : tokenResponse t = tokenResponse t') : t = t' := by
  simp only [tokenResponse, jsonResponse, Response.mk.injEq, Body.json.injEq, Json.obj.injEq,
    List.cons.injEq, Prod.mk.injEq, Json.str.injEq] at h
  exact h.2.2.1.2

/-- Mint a token, store it for the code's user and hand it out. -/
def storeToken (crates : Crates) (env : Env) (st : OAuthState) (req : TokenRequest)
    (authCode : AuthCode) : OAuthState × Response :=
  match mintToken crates env st authCode.username req.clientId with
  | none => (st, jsonResponse 500 (errorJson "server_error" none))
  | some token =>
    ({ st with tokens := st.tokens.insert token ⟨authCode.username, env.now⟩ }, tokenResponse token)

def handleToken (crates : Crates) (env : Env) (st : OAuthState) (body : List UInt8)
    (authorization : Option String) : OAuthState × Response :=
  match parseTokenRequest body authorization with
  | .error r => (st, r)
  | .ok req =>
    match consumeCode crates env.now st req with
    | (st, .error r) => (st, r)
    | (st, .ok authCode) =>
      match checkClient env.clients req authCode with
      | .error r => (st, r)
      | .ok () => storeToken crates env st req authCode

/-! ## 4. Userinfo -/

def decodeJwtUsername (crates : Crates) (token : String) : Option String :=
  match Str.splitn token 3 '.' with
  | _ :: part :: _ =>
    ((Base64.decode Base64.urlSafeNoPad part).bind crates.fromSlice).bind fun claims =>
      ((claims.get "preferred_username").orElse fun _ => claims.get "sub").bind Json.asStr
  | _ => none

/-- The user a bearer token stands for. -/
def tokenUser (crates : Crates) (now : Nat) (st : OAuthState) (token : String) : Option String :=
  if Str.startsWith token "eyJ" then decodeJwtUsername crates token
  else
    match st.tokens.get token with
    | some info => if now - info.created < tokenTtl then some info.username else none
    | none => none

def handleUserinfo (crates : Crates) (now : Nat) (st : OAuthState) (authorization : Option String) :
    Response :=
  match Str.stripPrefix (authorization.getD "") "Bearer " with
  | none => jsonResponse 401 (errorJson "missing bearer token" none)
  | some token =>
    match tokenUser crates now st token with
    | none => jsonResponse 401 (errorJson "invalid_token" none)
    | some username =>
      jsonResponse 200
        (.obj
          [("sub", .str username),
            ("name", .str username),
            ("preferred_username", .str username),
            ("email", .str (st.userStore.profile username).1),
            ("groups", .ofStrings (st.userStore.profile username).2)])

/-! ## 5. Eviction -/

/-- The sweep's first half: `codes.retain(..)`. -/
def sweepCodes (now : Nat) (st : OAuthState) : OAuthState :=
  { st with codes := st.codes.retain fun _ v => now - v.created < secs 300 }

/-- The sweep's second half: `tokens.retain(..)`. -/
def sweepTokens (now : Nat) (st : OAuthState) : OAuthState :=
  { st with tokens := st.tokens.retain fun _ v => now - v.created < secs 86400 }

/-! ## 6. What authorizing can do

Either handler leaves the state alone, or it issues one code, and then only after the user has
authenticated and the redirect has matched. -/

/-- What a code is issued with. -/
structure Grant where
  username : String
  clientId : String
  redirectUri : String
  reqState : String
  codeChallenge : Option String
  codeChallengeMethod : Option String

def Grant.issue (crates : Crates) (env : Env) (st : OAuthState) (g : Grant) : OAuthState × Response :=
  issueAuthCode crates env st g.username g.clientId g.redirectUri g.reqState g.codeChallenge
    g.codeChallengeMethod

/-- The record that is stored for the code. -/
def Grant.authCode (now : Nat) (g : Grant) : AuthCode :=
  ⟨g.username, g.clientId, now, g.codeChallenge, g.codeChallengeMethod⟩

theorem Grant.issue_stored (g : Grant) (crates : Crates) (env : Env) (st : OAuthState) :
    (g.issue crates env st).1.codes.get env.rand = some (g.authCode env.now) :=
  Map.get_insert_self _ _ _

theorem Grant.issue_location (g : Grant) (crates : Crates) (env : Env) (st : OAuthState) :
    (g.issue crates env st).2.header "location" =
      some (crates.url.asStr (redirectUrl crates.url g.redirectUri env.rand g.reqState)) := rfl

/-- What has been checked when a code goes out. -/
structure Granted (env : Env) (st : OAuthState) (g : Grant) : Prop where
  authenticated : ∃ password entry, st.userStore.authenticate g.username password = some entry
  redirect_matches : ∃ secret uris, validateClient env.clients g.clientId = some (secret, uris) ∧
    uriMatches uris g.redirectUri = true

/-- The two outcomes of authorizing. -/
def AuthorizeOutcome (crates : Crates) (env : Env) (st : OAuthState) (out : OAuthState × Response) : Prop :=
  (out.1 = st ∧ out.2.status ≠ 302) ∨ ∃ g, Granted env st g ∧ out = g.issue crates env st

theorem authorizeOutcome_refused {crates : Crates} {env : Env} {st : OAuthState} {r : Response}
    (h : r.status ≠ 302) : AuthorizeOutcome crates env st (st, r) := Or.inl ⟨rfl, h⟩

theorem handleAuthorizeGet_outcome (crates : Crates) (env : Env) (st : OAuthState)
    (req : AuthorizeRequest) : AuthorizeOutcome crates env st (handleAuthorizeGet crates env st req) := by
  simp only [handleAuthorizeGet]
  split
  · exact authorizeOutcome_refused (by decide)
  rename_i clientId _
  split
  · exact authorizeOutcome_refused (by decide)
  rename_i redirectUri _
  split
  · exact authorizeOutcome_refused (by decide)
  rename_i secret uris hclient
  split
  · exact authorizeOutcome_refused (by decide)
  rename_i hmatch
  split
  · split
    · rename_i user pass _
      split
      · rename_i entry hauth
        refine Or.inr ⟨⟨user, clientId, redirectUri, _, _, _⟩, ⟨⟨pass, entry, hauth⟩, ?_⟩, rfl⟩
        exact ⟨secret, uris, hclient, by simpa using hmatch⟩
      · exact authorizeOutcome_refused (by decide)
    · exact authorizeOutcome_refused (by decide)
  · split
    · exact authorizeOutcome_refused (by decide)
    · exact authorizeOutcome_refused (by simp [htmlResponse])

theorem handleAuthorizePost_outcome (crates : Crates) (env : Env) (st : OAuthState) (body : List UInt8) :
    AuthorizeOutcome crates env st (handleAuthorizePost crates env st body) := by
  simp only [handleAuthorizePost]
  split
  · exact authorizeOutcome_refused (by decide)
  rename_i clientId _
  split
  · exact authorizeOutcome_refused (by decide)
  rename_i redirectUri _
  split
  · exact authorizeOutcome_refused (by simp [htmlResponse])
  rename_i hauth
  rw [not_or] at hauth
  obtain ⟨entry, hentry⟩ := Option.ne_none_iff_exists'.mp hauth.2
  split
  · exact authorizeOutcome_refused (by decide)
  rename_i secret uris hclient
  split
  · exact authorizeOutcome_refused (by decide)
  rename_i hmatch
  refine Or.inr ⟨⟨_, clientId, redirectUri, _, _, _⟩, ⟨⟨_, entry, hentry⟩, ?_⟩, rfl⟩
  exact ⟨secret, uris, hclient, by simpa using hmatch⟩

/-! ## 7. What a token looks like -/

theorem compactJwt_startsWith (headerTail payload signature : List UInt8) :
    Str.startsWith (compactJwt headerTail payload signature) "eyJ" = true := by
  have htyp : Utf8.encode "\x7b\"typ\"" = [0x7b, 0x22, 0x74, 0x79, 0x70, 0x22] := by decide
  obtain ⟨l, hl⟩ : ∃ l, Base64.encodeL Base64.urlSafeNoPad (Utf8.encode "\x7b\"typ\"" ++ headerTail)
      = 'e' :: 'y' :: 'J' :: l := by
    rw [htyp]
    exact ⟨_, rfl⟩
  simp [Str.startsWith, compactJwt, Base64.encode, hl]

/-- The three parts of a token in compact form. -/
theorem splitn_compactJwt (headerTail payload signature : List UInt8) :
    Str.splitn (compactJwt headerTail payload signature) 3 '.' =
      [Base64.encode Base64.urlSafeNoPad (Utf8.encode "\x7b\"typ\"" ++ headerTail),
        Base64.encode Base64.urlSafeNoPad payload,
        Base64.encode Base64.urlSafeNoPad signature] := by
  have hdot : ".".toList = ['.'] := by decide
  simp only [Str.splitn, compactJwt, String.toList_append, hdot, List.append_assoc,
    List.cons_append, List.nil_append]
  rw [Str.splitnL_append (Base64.dot_not_mem_encode _ _),
    Str.splitnL_append (Base64.dot_not_mem_encode _ _)]
  simp [Str.splitnL]

/-- Reading the user off a token in compact form reads the claims. -/
theorem decodeJwtUsername_compactJwt {crates : Crates} {headerTail payload signature : List UInt8}
    {claims : Json} (h : crates.fromSlice payload = some claims) :
    decodeJwtUsername crates (compactJwt headerTail payload signature) =
      ((claims.get "preferred_username").orElse fun _ => claims.get "sub").bind Json.asStr := by
  simp [decodeJwtUsername, splitn_compactJwt, h]

/-- A minted token is a random one, or a signed one that names its user. -/
theorem mintToken_spec {crates : Crates} (hjwt : LawfulJwt crates) {env : Env} {st : OAuthState}
    {username clientId token : String} (h : mintToken crates env st username clientId = some token) :
    (st.jwtKeys = none ∧ token = "sha256~" ++ env.rand) ∨
      (Str.startsWith token "eyJ" = true ∧ decodeJwtUsername crates token = some username) := by
  unfold mintToken at h
  cases hkeys : st.jwtKeys with
  | none =>
    rw [hkeys] at h
    exact Or.inl ⟨rfl, (Option.some.inj h).symm⟩
  | some keys =>
    rw [hkeys] at h
    obtain ⟨headerTail, payload, signature, claims, rfl, hread, hget⟩ := hjwt.compact h
    refine Or.inr ⟨compactJwt_startsWith _ _ _, ?_⟩
    rw [decodeJwtUsername_compactJwt hread, hget]
    rfl

/-- A random token is no signed one. -/
theorem not_startsWith_random (r : String) : Str.startsWith ("sha256~" ++ r) "eyJ" = false := by
  rw [Str.startsWith, String.toList_append]
  rfl

end Picoshift.OAuth
