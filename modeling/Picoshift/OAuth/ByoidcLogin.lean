/-
# The way of a browser to the provider

In byoidc mode a login starts at `/oauth/authorize` of this server and has to end at the authorization endpoint
of the provider, which the browser may not be able to reach.  So the browser is sent to the host `entra` of the
cluster with the PATH of that endpoint (`handle_byoidc_authorize`); the proxy leads that host back to this server,
whatever its table says; and the router hands the request on to the issuer if it knows the path as one of the
provider's (`handle_byoidc_proxy`).

The two ends agree only by the path.  `follow_authorize` says what becomes of a browser that follows its redirects:

* a path that the router knows takes it to the issuer, with the parameters of its own request;
* `/oauth/authorize`, which is the endpoint of a simulator, takes it back to where it was, for ever;
* any other path is served here, mostly with a 404.

Parsing URLs is left to the crate (`LawfulHttp`); the path of the endpoint is the path that the crate has made of it,
without `..` and the like.  A browser reads URLs by the same standard.
-/
import Picoshift.OAuth.Byoidc
import Picoshift.Proxy.Forward

namespace Picoshift.OAuth

/-! ## 1. The redirect -/

def entraHost : String := "entra." ++ domain

/-- The address under which a browser finds the provider. -/
def entraBase : String := "https://entra." ++ domain

theorem entraBase_eq : entraBase = "https://" ++ entraHost := by decide

/-- The parameters that the provider gets. -/
def authorizePairs (clientId redirectUri reqState : String) : List (String × String) :=
  [("response_type", "code"),
    ("client_id", clientId),
    ("redirect_uri", redirectUri),
    ("scope", "openid email profile api://picoshift/.default"),
    ("state", reqState)]

/-- `handle_byoidc_authorize`; without an answer its `unwrap` has failed. -/
def handleByoidcAuthorize (url : UrlCrate) (byoidc : Option ByoidcConfig)
    (discovery : Option ExternalOidcDiscovery) (query : Option String) : Option Response :=
  match byoidc with
  | none => some (textResponse 500 "BYOIDC not configured\n")
  | some byoidc =>
  match discovery with
  | none => some (textResponse 500 "BYOIDC JWKS not loaded\n")
  | some disc =>
  if disc.authorizationEndpoint = "" then
    some (textResponse 502 "external authorization_endpoint not discovered\n")
  else
  let params := parseQuery query
  let redirectUri := (params.get "redirect_uri").getD ""
  let reqState := (params.get "state").getD ""
  match url.parse disc.authorizationEndpoint with
  | none => some (textResponse 502 "invalid external authorization_endpoint\n")
  | some extUrl =>
    (url.parse (entraBase ++ url.path extUrl)).map fun authUrl =>
      let authUrl := url.appendPairs authUrl (authorizePairs byoidc.clientId redirectUri reqState)
      ⟨302, [("location", url.asStr authUrl)], .text ""⟩

/-! ## 2. The relay -/

/-- A request that is sent to the provider. -/
structure Relayed where
  method : Method
  url : String
  body : List UInt8
  contentType : Option String
  authorization : Option String
  deriving DecidableEq, Repr

/-- What comes back, with a body that may break off. -/
structure ProviderReply where
  status : Nat
  headers : List (String × HeaderValue)
  body : Option (List UInt8)

/-- An answer as it leaves the server. -/
structure Reply where
  status : Nat
  headers : List (String × HeaderValue)
  body : List UInt8
  deriving DecidableEq, Repr

/-- The bytes of an answer of this server. -/
def Response.bytes (r : Response) : List UInt8 :=
  match r.body with
  | .text s => Utf8.encode s
  | .json j => Utf8.encode (String.ofList j.text)

def Response.reply (r : Response) : Reply :=
  ⟨r.status, r.headers.map fun h => (h.1, .text h.2), r.bytes⟩

/-- The scheme, the host and the port of the issuer; `port()` does not name the default of the scheme. -/
def issuerBase (url : UrlCrate) (issuer : url.Url) : String :=
  url.scheme issuer ++ "://" ++ (url.hostStr issuer).getD "localhost" ++
    ((url.port issuer).map fun p => ":" ++ toString p).getD ""

def targetUrl (url : UrlCrate) (issuer : url.Url) (path : String) (query : Option String) : String :=
  issuerBase url issuer ++ path ++ match query with
    | none => ""
    | some q => "?" ++ q

/-- The request that `handle_byoidc_proxy` sends: a POST stays one, and every other method becomes a GET. -/
def relayed (url : UrlCrate) (issuer : url.Url) (req : HttpRequest) (contentType : Option HeaderValue) : Relayed :=
  match req.method with
  | .post =>
    ⟨.post, targetUrl url issuer req.path req.query, req.body, contentType.bind HeaderValue.toStr,
      req.authText⟩
  | _ => ⟨.get, targetUrl url issuer req.path req.query, [], none, req.authText⟩

/-- The headers of the provider that are kept: the first of each of four, and every cookie. -/
def keptHeaders (headers : List (String × HeaderValue)) : List (String × HeaderValue) :=
  (["location", "content-type", "www-authenticate", "cache-control"].filterMap fun name =>
    (headers.lookup name).map fun value => (name, value)) ++
  headers.filter fun h => h.1 = "set-cookie"

/-- `handle_byoidc_proxy`. -/
def handleByoidcProxy (url : UrlCrate) (byoidc : Option ByoidcConfig) (send : Relayed → Option ProviderReply)
    (req : HttpRequest) (contentType : Option HeaderValue) : Reply :=
  match byoidc with
  | none => (textResponse 502 "BYOIDC not configured\n").reply
  | some byoidc =>
  match url.parse byoidc.issuerUrl with
  | none => (textResponse 502 "invalid issuer URL\n").reply
  | some issuer =>
  match send (relayed url issuer req contentType) with
  | none => (textResponse 502 "proxy request failed\n").reply
  | some resp => ⟨resp.status, keptHeaders resp.headers, resp.body.getD []⟩

/-! ## 3. A browser -/

/-- The part of the server that a login meets. -/
structure ByoidcServer where
  byoidc : Option ByoidcConfig
  discovery : Option ExternalOidcDiscovery
  send : Relayed → Option ProviderReply

/-- The request for a page: a browser that follows a link sends no credentials of its own. -/
def navigation (path : String) (query : Option String) : HttpRequest := ⟨.get, path, query, none, false, []⟩

/-- The address of the OAuth server, as the proxy reaches it. -/
def oauthAddr : Proxy.SocketAddr := ⟨.v4 [127, 0, 0, 1], 9443⟩

/-- The request that a redirect makes of this server, if the proxy leads the URL to it. -/
def hop (url : UrlCrate) (known : Proxy.Known) (location : String) : Option HttpRequest :=
  match url.parse location with
  | none => none
  | some u =>
    match Proxy.destination known ((url.hostStr u).getD "") with
    | .ok (addr, true) => if addr = oauthAddr then some (navigation (url.path u) (url.query u)) else none
    | _ => none

/-- Where a browser ends up. -/
inductive Landing where
  /-- At the relay to the provider, with what it answers. -/
  | provider (reply : Reply)
  /-- At another handler of this server. -/
  | served (h : Handler)
  /-- At another server. -/
  | elsewhere (location : String)
  /-- Without an answer. -/
  | dropped
  /-- It has followed all the redirects it was ready to follow. -/
  | redirecting
  deriving DecidableEq, Repr

/-- What becomes of a request whose redirects are followed, `n` requests in all. -/
def follow (url : UrlCrate) (known : Proxy.Known) (server : ByoidcServer) : Nat → HttpRequest → Landing
  | 0, _ => .redirecting
  | n + 1, req =>
    match handler .byoidc req with
    | .byoidcProxy => .provider (handleByoidcProxy url server.byoidc server.send req none)
    | .byoidcAuthorize =>
      match handleByoidcAuthorize url server.byoidc server.discovery req.query with
      | none => .dropped
      | some r =>
        match r.header "location" with
        | none => .served .byoidcAuthorize
        | some location =>
          match hop url known location with
          | some next => follow url known server n next
          | none => .elsewhere location
    | h => .served h

/-! ## 4. Where the redirect leads -/

/-- The proxy leads the host `entra` to the OAuth server, whatever routes there are. -/
theorem destination_entra (known : Proxy.Known) : Proxy.destination known entraHost = .ok (oauthAddr, true) := by
  rw [Proxy.destination, if_pos (by decide)]
  rfl

section Url

variable {url : UrlCrate} {extUrl : url.Url}

/-- **The redirect is the request for the path of the endpoint**, with the parameters in its query.  In particular
the `unwrap` does not fail. -/
theorem hop_authorize (hurl : LawfulHttp url entraHost) (hhttp : url.IsHttp extUrl) (known : Proxy.Known)
    {pairs : List (String × String)} (hpairs : pairs ≠ []) :
    ∃ u, url.parse (entraBase ++ url.path extUrl) = some u ∧
      hop url known (url.asStr (url.appendPairs u pairs)) =
        some (navigation (url.path extUrl) (some (Url.pairsText pairs))) := by
  obtain ⟨u, hu, w, hw, hhost, hpath, hquery⟩ := hurl.reread hhttp hpairs
  refine ⟨u, by rw [entraBase_eq]; exact hu, ?_⟩
  simp only [hop, hw, hhost, Option.getD_some, destination_entra, if_true, hpath, hquery]

end Url

/-! ## 5. Following the redirects -/

section Follow

variable {url : UrlCrate} {server : ByoidcServer} {byoidc : ByoidcConfig} {disc : ExternalOidcDiscovery}
  {extUrl : url.Url}

/-- The parameters of a login, written out. -/
def loginQuery (byoidc : ByoidcConfig) (query : Option String) : String :=
  Url.pairsText (authorizePairs byoidc.clientId
    (((parseQuery query).get "redirect_uri").getD "") (((parseQuery query).get "state").getD ""))

/-- The provider reads what the browser asked for. -/
theorem parse_loginQuery (byoidc : ByoidcConfig) (query : Option String) :
    Form.parse (Utf8.encode (loginQuery byoidc query)) = authorizePairs byoidc.clientId
      (((parseQuery query).get "redirect_uri").getD "") (((parseQuery query).get "state").getD "") := by
  rw [loginQuery, Url.pairsText, Url.encode_asciiText fun b hb => (Form.mem_serialize hb).2.1,
    Form.parse_serialize]

theorem get_authorizePairs (clientId redirectUri reqState : String) :
    (Map.ofPairs (authorizePairs clientId redirectUri reqState)).get "redirect_uri" = some redirectUri ∧
      (Map.ofPairs (authorizePairs clientId redirectUri reqState)).get "state" = some reqState := by
  have hnodup : ((authorizePairs clientId redirectUri reqState).map Prod.fst).Nodup := by
    show ["response_type", "client_id", "redirect_uri", "scope", "state"].Nodup
    decide
  exact ⟨Map.get_ofPairs_of_mem hnodup (by simp [authorizePairs]),
    Map.get_ofPairs_of_mem hnodup (by simp [authorizePairs])⟩

/-- Asking again with the parameters that came out of the first request brings them out again. -/
theorem loginQuery_idem (byoidc : ByoidcConfig) (query : Option String) :
    loginQuery byoidc (some (loginQuery byoidc query)) = loginQuery byoidc query := by
  have hparams : parseQuery (some (loginQuery byoidc query)) =
      Map.ofPairs (authorizePairs byoidc.clientId (((parseQuery query).get "redirect_uri").getD "")
        (((parseQuery query).get "state").getD "")) := by
    rw [parseQuery, Option.map_some, Option.getD_some, parse_loginQuery]
  obtain ⟨hredirect, hstate⟩ := get_authorizePairs byoidc.clientId
    (((parseQuery query).get "redirect_uri").getD "") (((parseQuery query).get "state").getD "")
  rw [← hparams] at hredirect hstate
  rw [loginQuery, hredirect, hstate, Option.getD_some, Option.getD_some, ← loginQuery]

/-- One redirect. -/
theorem follow_step (hurl : LawfulHttp url entraHost) (hbyoidc : server.byoidc = some byoidc)
    (hdisc : server.discovery = some disc) (hempty : disc.authorizationEndpoint ≠ "")
    (hext : url.parse disc.authorizationEndpoint = some extUrl) (hhttp : url.IsHttp extUrl) {req : HttpRequest}
    (hreq : handler .byoidc req = .byoidcAuthorize) (known : Proxy.Known) (n : Nat) :
    follow url known server (n + 1) req =
      follow url known server n (navigation (url.path extUrl) (some (loginQuery byoidc req.query))) := by
  have hpairs : authorizePairs byoidc.clientId (((parseQuery req.query).get "redirect_uri").getD "")
      (((parseQuery req.query).get "state").getD "") ≠ [] := List.cons_ne_nil _ _
  obtain ⟨u, hu, hhop⟩ := hop_authorize hurl hhttp known hpairs
  have hanswer : handleByoidcAuthorize url server.byoidc server.discovery req.query =
      some ⟨302, [("location", url.asStr (url.appendPairs u (authorizePairs byoidc.clientId
        (((parseQuery req.query).get "redirect_uri").getD "")
        (((parseQuery req.query).get "state").getD ""))))], .text ""⟩ := by
    rw [hbyoidc, hdisc]
    simp only [handleByoidcAuthorize, if_neg hempty, hext, hu, Option.map_some]
  rw [follow, hreq]
  simp only [hanswer, Response.header, List.lookup_cons_self, hhop]
  rw [← loginQuery]

/-- The login page of a simulator leads to itself. -/
theorem follow_loop (hurl : LawfulHttp url entraHost) (hbyoidc : server.byoidc = some byoidc)
    (hdisc : server.discovery = some disc) (hempty : disc.authorizationEndpoint ≠ "")
    (hext : url.parse disc.authorizationEndpoint = some extUrl) (hhttp : url.IsHttp extUrl)
    (hpath : url.path extUrl = "/oauth/authorize") (known : Proxy.Known) (query : Option String) (n : Nat) :
    follow url known server n (navigation (url.path extUrl) (some (loginQuery byoidc query))) =
      .redirecting := by
  induction n with
  | zero => rfl
  | succ n ih =>
    have hreq : handler .byoidc (navigation (url.path extUrl) (some (loginQuery byoidc query))) =
        .byoidcAuthorize := by
      rw [hpath]
      rfl
    rw [follow_step hurl hbyoidc hdisc hempty hext hhttp hreq]
    show follow url known server n (navigation _ (some (loginQuery byoidc (some (loginQuery byoidc query))))) = _
    rw [loginQuery_idem, ih]

end Follow

/-- What the router makes of the page that a browser is sent to. -/
theorem handler_navigation (path : String) (query : Option String) :
    (isProviderPath path = true → handler .byoidc (navigation path query) = .byoidcProxy) ∧
      (isProviderPath path = false → path ≠ "/oauth/authorize" →
        handler .byoidc (navigation path query) ≠ .byoidcProxy ∧
          handler .byoidc (navigation path query) ≠ .byoidcAuthorize) := by
  have hfixed : ∀ p ∈ ["/.well-known/oauth-authorization-server", "/.well-known/openid-configuration",
      "/oauth/jwks", "/oauth/authorize", "/oauth/userinfo"], isProviderPath p = false := by decide
  dsimp only [handler, navigation]
  split
  case h_4 => exact ⟨fun h => absurd h (by decide), fun _ hne => absurd rfl hne⟩
  case h_8 => exact ⟨fun h => by simp [h], fun h _ => by simp [h]⟩
  all_goals simp_all

/-- **Where a login ends.**  A browser that asks for `/oauth/authorize` and follows its redirects reaches the
provider if the path of its endpoint is one that the router hands on, and then the provider is asked for that
path, at the issuer, with the browser's own redirect URI and state.  If the path is `/oauth/authorize`, no
number of redirects is enough.  Any other path is served by the handler of this server. -/
theorem follow_authorize {url : UrlCrate} (hurl : LawfulHttp url entraHost) {server : ByoidcServer}
    {byoidc : ByoidcConfig} {disc : ExternalOidcDiscovery} {extUrl issuer : url.Url}
    (hbyoidc : server.byoidc = some byoidc) (hdisc : server.discovery = some disc)
    (hempty : disc.authorizationEndpoint ≠ "") (hext : url.parse disc.authorizationEndpoint = some extUrl)
    (hhttp : url.IsHttp extUrl) (hissuer : url.parse byoidc.issuerUrl = some issuer) {req : HttpRequest}
    (hreq : handler .byoidc req = .byoidcAuthorize) (known : Proxy.Known) (n : Nat) :
    ∃ query, Form.parse (Utf8.encode query) = authorizePairs byoidc.clientId
        (((parseQuery req.query).get "redirect_uri").getD "") (((parseQuery req.query).get "state").getD "") ∧
      follow url known server (n + 2) req =
        if isProviderPath (url.path extUrl) then
          .provider (match server.send
              ⟨.get, issuerBase url issuer ++ url.path extUrl ++ "?" ++ query, [], none, none⟩ with
            | some resp => ⟨resp.status, keptHeaders resp.headers, resp.body.getD []⟩
            | none => (textResponse 502 "proxy request failed\n").reply)
        else if url.path extUrl = "/oauth/authorize" then .redirecting
        else .served (handler .byoidc (navigation (url.path extUrl) none)) := by
  refine ⟨loginQuery byoidc req.query, parse_loginQuery byoidc req.query, ?_⟩
  rw [follow_step hurl hbyoidc hdisc hempty hext hhttp hreq]
  by_cases hprovider : isProviderPath (url.path extUrl) = true
  · have hhandler := (handler_navigation (url.path extUrl) (some (loginQuery byoidc req.query))).1 hprovider
    have hrelayed : relayed url issuer (navigation (url.path extUrl) (some (loginQuery byoidc req.query))) none =
        ⟨.get, issuerBase url issuer ++ url.path extUrl ++ "?" ++ loginQuery byoidc req.query, [], none, none⟩ := by
      simp only [relayed, navigation, targetUrl, HttpRequest.authText, Option.bind_none, String.append_assoc]
    rw [follow, hhandler, if_pos hprovider, hbyoidc]
    simp only [handleByoidcProxy, hissuer, hrelayed]
    split <;> simp_all
  · rw [if_neg hprovider]
    by_cases hpath : url.path extUrl = "/oauth/authorize"
    · rw [if_pos hpath]
      exact follow_loop hurl hbyoidc hdisc hempty hext hhttp hpath known req.query (n + 1)
    · obtain ⟨hproxy, hauthorize⟩ := (handler_navigation (url.path extUrl)
        (some (loginQuery byoidc req.query))).2 (Bool.eq_false_iff.mpr hprovider) hpath
      rw [if_neg hpath, follow]
      split
      · exact absurd ‹_› hproxy
      · exact absurd ‹_› hauthorize
      · rfl

/-- A server whose provider names an endpoint with this path and answers with the URL that it is asked for. -/
def echoProvider (path : String) : ByoidcServer where
  byoidc := some ⟨"http://entra-mock:8080/t/v2.0", "console", "s3cret"⟩
  discovery := some ⟨entraBase ++ path, "", "", ""⟩
  send r := some ⟨200, [], some (Utf8.encode r.url)⟩

def sampleLogin : HttpRequest :=
  navigation "/oauth/authorize" (some "client_id=x&state=s&redirect_uri=https%3A%2F%2Fconsole%2F")

theorem lawfulHttp_entraHost : LawfulHttp partsCrate entraHost :=
  lawfulHttp_partsCrate (by decide +kernel) (by decide +kernel)

/-- An endpoint under `oauth2`, and that of a simulator. -/
theorem follow_authorize_echo :
    (∃ query, Form.parse (Utf8.encode query) = authorizePairs "console" "https://console/" "s" ∧
      follow partsCrate Proxy.noRoutes (echoProvider "/t/oauth2/v2.0/authorize") 2 sampleLogin =
        .provider ⟨200, [], Utf8.encode ("http://entra-mock:8080/t/oauth2/v2.0/authorize?" ++ query)⟩) ∧
    follow partsCrate Proxy.noRoutes (echoProvider "/oauth/authorize") 22 sampleLogin = .redirecting := by
  have hlogin : handler .byoidc sampleLogin = .byoidcAuthorize := by decide
  have hredirect : ((parseQuery sampleLogin.query).get "redirect_uri").getD "" = "https://console/" := by
    decide +kernel
  have hstate : ((parseQuery sampleLogin.query).get "state").getD "" = "s" := by decide +kernel
  obtain ⟨issuer, hissuer, hbase⟩ : ∃ issuer, partsCrate.parse "http://entra-mock:8080/t/v2.0" = some issuer ∧
      issuerBase partsCrate issuer = "http://entra-mock:8080" := Option.map_eq_some_iff.mp (by decide +kernel)
  have hendpoint : ∀ path ∈ ["/t/oauth2/v2.0/authorize", "/oauth/authorize"],
      (partsCrate.parse (entraBase ++ path)).map (fun u => (partsCrate.path u, partsCrate.scheme u)) =
        some (path, "https") := by decide +kernel
  obtain ⟨ext, hext, hextParts⟩ := Option.map_eq_some_iff.mp (hendpoint "/t/oauth2/v2.0/authorize" (by simp))
  obtain ⟨self, hself, hselfParts⟩ := Option.map_eq_some_iff.mp (hendpoint "/oauth/authorize" (by simp))
  obtain ⟨hpath, hscheme⟩ := Prod.mk.inj hextParts
  obtain ⟨hselfPath, hselfScheme⟩ := Prod.mk.inj hselfParts
  have hbyoidc : ∀ path, (echoProvider path).byoidc = some ⟨"http://entra-mock:8080/t/v2.0", "console", "s3cret"⟩ :=
    fun _ => rfl
  constructor
  · obtain ⟨query, hquery, hfollow⟩ := follow_authorize lawfulHttp_entraHost
      (hbyoidc "/t/oauth2/v2.0/authorize") rfl (by decide) hext (Or.inr hscheme) hissuer hlogin Proxy.noRoutes 0
    rw [hredirect, hstate] at hquery
    rw [hpath, hbase, if_pos (by decide)] at hfollow
    exact ⟨query, hquery, hfollow⟩
  · obtain ⟨query, -, hfollow⟩ := follow_authorize lawfulHttp_entraHost (hbyoidc "/oauth/authorize") rfl
      (by decide) hself (Or.inr hselfScheme) hissuer hlogin Proxy.noRoutes 20
    rw [hfollow, hselfPath, if_neg (by decide), if_pos rfl]

end Picoshift.OAuth
