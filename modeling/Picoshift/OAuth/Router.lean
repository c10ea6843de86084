/-
# The request router

`handle_request` of `oauth/mod.rs` picks a handler by method, path and mode.  In byoidc mode some of the
endpoints belong to an external provider, and the two ends of a login are divided differently:

* `/oauth/authorize` goes to the provider only for a GET that looks like a browser's.  A GET with an
  Authorization or X-CSRF-Token header, and every POST, is served here, and a code of this server's own
  goes out.
* `/oauth/token` goes to the provider ALWAYS, which has never heard of that code.

A request that reaches the codes and tokens of this server is a step of the machine in `Server.lean`,
so a run of the router is a run of that machine (`exec_router`).  What the provider answers, and what
the handlers answer that neither issue nor redeem a code, comes from outside (`Outside`).
-/
import Picoshift.OAuth.Server

namespace Picoshift.OAuth

/-! ## 1. Which handler -/

inductive Method where
  | get
  | post
  | other (name : String)
  deriving DecidableEq, Repr

/-- The value of a header: text, or bytes that `to_str` refuses. -/
inductive HeaderValue where
  | text (s : String)
  | raw (bytes : List UInt8)
  deriving DecidableEq, Repr

def HeaderValue.toStr : HeaderValue → Option String
  | text s => some s
  | raw _ => none

structure HttpRequest where
  method : Method
  path : String
  query : Option String
  authorization : Option HeaderValue
  csrfToken : Bool
  body : List UInt8
  deriving DecidableEq, Repr

/-- The Authorization header, if it is text. -/
def HttpRequest.authText (req : HttpRequest) : Option String := req.authorization.bind HeaderValue.toStr

/-- The handlers among which `handle_request` chooses, under their names. -/
inductive Handler where
  | discovery
  | jwks
  | byoidcJwks
  | authorizeGet
  | byoidcAuthorize
  | userinfo
  | byoidcUserinfo
  | authorizePost
  | token
  | byoidcToken
  | byoidcProxy
  | notFound
  deriving DecidableEq, Repr

def isCliAuthRequest (req : HttpRequest) : Bool := req.authorization.isSome || req.csrfToken

/-- The paths that the provider serves under its own names. -/
def isProviderPath (path : String) : Bool :=
  Str.contains path "/oauth2/" || Str.contains path "/v2.0/" || Str.startsWith path "/oidc/" ||
    Str.startsWith path "/admin"

/-- The choice that `handle_request` makes. -/
def handler (authMode : AuthMode) (req : HttpRequest) : Handler :=
  let isByoidc : Bool := authMode = .byoidc
  match req.method, req.path with
  | .get, "/.well-known/oauth-authorization-server" => .discovery
  | .get, "/.well-known/openid-configuration" => .discovery
  | .get, "/oauth/jwks" => if isByoidc then .byoidcJwks else .jwks
  | .get, "/oauth/authorize" =>
    if isByoidc && !isCliAuthRequest req then .byoidcAuthorize else .authorizeGet
  | .get, "/oauth/userinfo" => if isByoidc then .byoidcUserinfo else .userinfo
  | .post, "/oauth/authorize" => .authorizePost
  | .post, "/oauth/token" => if isByoidc then .byoidcToken else .token
  | _, path => if isByoidc && isProviderPath path then .byoidcProxy else .notFound

theorem handler_postToken (authMode : AuthMode) {req : HttpRequest} (hmethod : req.method = .post)
    (hpath : req.path = "/oauth/token") :
    handler authMode req = if authMode = .byoidc then .byoidcToken else .token := by
  rw [handler, hmethod, hpath]
  by_cases hmode : authMode = .byoidc <;> simp [hmode]

theorem postToken_of_handler {authMode : AuthMode} {req : HttpRequest}
    (h : handler authMode req = .token) : req.method = .post ∧ req.path = "/oauth/token" := by
  simp only [handler] at h
  split at h
  · cases h
  · cases h
  · split at h <;> cases h
  · split at h <;> cases h
  · split at h <;> cases h
  · cases h
  · exact ⟨‹_›, ‹_›⟩
  · split at h <;> cases h

/-! ## 2. The external provider -/

structure ByoidcConfig where
  issuerUrl : String
  clientId : String
  clientSecret : String
  deriving DecidableEq, Repr

structure ExternalOidcDiscovery where
  authorizationEndpoint : String
  tokenEndpoint : String
  userinfoEndpoint : String
  jwksUri : String
  deriving DecidableEq, Repr

/-- What a request finds outside: the configuration and the discovered endpoints of the provider, if
there is one; what a POST of a form to a URL brings (nothing, a text that is no JSON, or a JSON value);
and what the other handlers answer, which neither issue nor redeem a code. -/
structure Outside where
  byoidc : Option ByoidcConfig
  discovery : Option ExternalOidcDiscovery
  post : (url : String) → (form : List (String × String)) → Option (Option Json)
  other : Handler → HttpRequest → Response

/-- `handle_byoidc_token`.  Validating the provider's token only decides whether a User object is
written. -/
def handleByoidcToken (outside : Outside) (body : List UInt8) : Response :=
  match outside.byoidc with
  | none => jsonResponse 500 (errorJson "byoidc_not_configured" none)
  | some byoidc =>
  match outside.discovery with
  | none => jsonResponse 500 (errorJson "byoidc_jwks_not_loaded" none)
  | some disc =>
  if disc.tokenEndpoint = "" then jsonResponse 502 (errorJson "no_external_token_endpoint" none)
  else
  let params := parseFormBody body
  let code := (params.get "code").getD ""
  let redirectUri := (params.get "redirect_uri").getD ""
  match outside.post disc.tokenEndpoint
      [("grant_type", "authorization_code"), ("code", code), ("client_id", byoidc.clientId),
        ("client_secret", byoidc.clientSecret), ("redirect_uri", redirectUri)] with
  | none => jsonResponse 502 (errorJson "token_exchange_failed" none)
  | some none => jsonResponse 502 (errorJson "token_parse_failed" none)
  | some (some tokenResp) => jsonResponse 200 tokenResp

/-- What a request gets that does not reach the codes and tokens of this server. -/
def answerElsewhere (outside : Outside) (req : HttpRequest) : Handler → Response
  | .byoidcToken => handleByoidcToken outside req.body
  | .notFound => textResponse 404 "not found\n"
  | h => outside.other h req

/-! ## 3. The router as a machine

A request that reaches the codes and tokens is a step of the server; a token exchange has two more of
them.  Any other request leaves the server as it is. -/

inductive Event where
  | request (id : Nat) (req : HttpRequest)
  | tokenClient (id : Nat)
  | tokenInsert (id : Nat)
  | sweepCodes
  | sweepTokens
  | reloadUsers (store : UserStore)

structure Arrival where
  env : Env
  outside : Outside
  event : Event

/-- The step of the server that a request is. -/
def localAction (authMode : AuthMode) : Event → Option Action
  | .request id req =>
    match handler authMode req with
    | .authorizeGet => some (.authorizeGet ⟨req.query, req.authText, req.csrfToken⟩)
    | .authorizePost => some (.authorizePost req.body)
    | .token => some (.tokenLookup id req.body req.authText)
    | .userinfo => some (.userinfo req.authText)
    | _ => none
  | .tokenClient id => some (.tokenClient id)
  | .tokenInsert id => some (.tokenInsert id)
  | .sweepCodes => some .sweepCodes
  | .sweepTokens => some .sweepTokens
  | .reloadUsers store => some (.reloadUsers store)

def toInput (authMode : AuthMode) (a : Arrival) : Option Input :=
  (localAction authMode a.event).map fun action => ⟨a.env, action⟩

theorem env_of_toInput {authMode : AuthMode} {a : Arrival} {i : Input}
    (hinput : toInput authMode a = some i) : i.env = a.env := by
  obtain ⟨action, -, rfl⟩ := Option.map_eq_some_iff.mp hinput
  rfl

/-- `handle_request`, one step at a time. -/
def routerStep (crates : Crates) (s : Server) (a : Arrival) : Server × Option Response :=
  match toInput s.oauth.authMode a with
  | some i => step crates s i
  | none =>
    match a.event with
    | .request _ req => (s, some (answerElsewhere a.outside req (handler s.oauth.authMode req)))
    | _ => (s, none)

def router (crates : Crates) : Machine Server Arrival (Option Response) := ⟨routerStep crates⟩

/-- The steps of the server in a run of the router. -/
def inputs (authMode : AuthMode) (run : List Arrival) : List Input := run.filterMap (toInput authMode)

theorem Effect.authMode {crates : Crates} {s s' : Server} {i : Input} {out : Option Response}
    (h : Effect crates s i s' out) : s'.oauth.authMode = s.oauth.authMode := by
  cases h <;> rfl

theorem routerStep_of_toInput (crates : Crates) {s : Server} {a : Arrival} {i : Input}
    (h : toInput s.oauth.authMode a = some i) : routerStep crates s a = step crates s i := by
  rw [routerStep, h]

theorem routerStep_of_elsewhere (crates : Crates) {s : Server} {a : Arrival}
    (h : toInput s.oauth.authMode a = none) : (routerStep crates s a).1 = s := by
  simp only [routerStep, h]
  split <;> rfl

/-- A run of the router is a run of the server. -/
theorem exec_router (crates : Crates) {authMode : AuthMode} {s : Server}
    (hmode : s.oauth.authMode = authMode) (run : List Arrival) :
    (router crates).exec s run = (server crates).exec s (inputs authMode run) := by
  induction run generalizing s with
  | nil => rfl
  | cons a run ih =>
    cases hinput : toInput authMode a with
    | none =>
      have hstep := routerStep_of_elsewhere crates (hmode.symm ▸ hinput)
      rw [inputs, List.filterMap_cons_none hinput]
      show (router crates).exec (routerStep crates s a).1 run = _
      rw [hstep]
      exact ih hmode
    | some i =>
      have hstep := routerStep_of_toInput crates (hmode.symm ▸ hinput)
      rw [inputs, List.filterMap_cons_some hinput]
      show (router crates).exec (routerStep crates s a).1 run = _
      rw [hstep]
      exact ih ((step_effect crates s i).authMode.trans hmode)

theorem authMode_exec (crates : Crates) (userStore : UserStore) (authMode : AuthMode) (keys : JwtKeys)
    (run : List Input) :
    ((server crates).exec (.init userStore authMode keys) run).oauth.authMode = authMode := by
  refine (server crates).invariant (P := fun s => s.oauth.authMode = authMode) rfl ?_ run
  intro s i hs
  exact (step_effect crates s i).authMode.trans hs

theorem exec_router_init (crates : Crates) (userStore : UserStore) (authMode : AuthMode) (keys : JwtKeys)
    (run : List Arrival) : (router crates).exec (.init userStore authMode keys) run =
      (server crates).exec (.init userStore authMode keys) (inputs authMode run) :=
  exec_router crates rfl run

/-- Where every event is a step of the server, so are the answers. -/
theorem outputs_router (crates : Crates) {authMode : AuthMode} {s : Server}
    (hmode : s.oauth.authMode = authMode) {run : List Arrival}
    (h : ∀ a ∈ run, (toInput authMode a).isSome) :
    ((router crates).trace s run).filterMap Entry.output =
      ((server crates).trace s (inputs authMode run)).filterMap Entry.output := by
  induction run generalizing s with
  | nil => rfl
  | cons a run ih =>
    obtain ⟨i, hinput⟩ := Option.isSome_iff_exists.mp (h a List.mem_cons_self)
    have hstep := routerStep_of_toInput crates (hmode.symm ▸ hinput)
    have hrest := ih ((step_effect crates s i).authMode.trans hmode)
      fun b hb => h b (List.mem_cons_of_mem _ hb)
    rw [inputs, List.filterMap_cons_some hinput]
    simp only [Machine.trace, Machine.entry, List.filterMap_cons, router, server, hstep]
    rw [← inputs]
    simp only [router, server] at hrest
    rw [hrest]

end Picoshift.OAuth
