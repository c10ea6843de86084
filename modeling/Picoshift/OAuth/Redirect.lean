/-
# Where a code is sent

A code is as good as a login, so it must go to a place that the client registered: the scheme,
host and port of one of its redirect URIs.  The handlers accept a requested URI by a test on
TEXT (some registered URI is a beginning of it) and then send the code to the PARSED URL, or to
`http://localhost/error` when it does not parse.

Text that begins like a registered URI need not be a URL of the same origin.  If the registered
text does not close its authority (`http://localhost`), whatever is appended carries it on
(`http://localhost.evil.example/`).  If it does (`https://console.example/`), nothing appended
can change the origin.  The URLs are those of the `url` crate, of which only `LawfulUrl` is known.

`redirect_origin_registered_iff`: all codes go to registered origins exactly if every registered
URI is of the second kind, or cannot be carried on to a URL at all and the fallback is registered.
-/
import Picoshift.OAuth.Handlers

namespace Picoshift.OAuth

/-! ## 1. The Location and its origin -/

/-- Whenever the answer carries a code for the client, its Location has the origin of a redirect
URI that the client registered. -/
def LocationRegistered (url : UrlCrate) (clients : String → Option Json) (clientId rand : String)
    (out : OAuthState × Response) : Prop :=
  ∀ authCode, out.2.status = 302 → out.1.codes.get rand = some authCode →
    authCode.clientId = clientId → ∃ location secret uris uri origin,
      out.2.header "location" = some location ∧
      validateClient clients clientId = some (secret, uris) ∧ uri ∈ uris ∧
      url.originOf location = some origin ∧ url.originOf uri = some origin

/-- The origin of the fallback. -/
def fallbackOrigin : Origin := ⟨"http", some "localhost", none⟩

theorem originOf_fallback {url : UrlCrate} (hurl : LawfulUrl url) : url.origin url.errorUrl = fallbackOrigin := by
  have hhead : Url.head "http://localhost/error".toList = .authority "http".toList "localhost".toList := by
    decide +kernel
  have hplain : Url.plain (Url.afterAt "localhost".toList) := by
    rw [Url.afterAt_eq_self (by decide)]
    exact Url.plain_of_all (by decide) (by decide)
  have horigin := hurl.host hhead (by decide +kernel) hplain
  rw [UrlCrate.originOf, url.parse_errorUrl, Option.map_some, Option.some.injEq,
    Url.afterAt_eq_self (by decide)] at horigin
  exact horigin

/-- The redirect has the origin of the requested URI, or of the fallback. -/
theorem originOf_redirectUrl {url : UrlCrate} (hurl : LawfulUrl url) (redirectUri code reqState : String) :
    url.originOf (url.asStr (redirectUrl url redirectUri code reqState)) =
      some ((url.originOf redirectUri).getD fallbackOrigin) := by
  have hkeeps : url.origin (redirectUrl url redirectUri code reqState) =
      url.origin ((url.parse redirectUri).getD url.errorUrl) := by
    unfold redirectUrl
    dsimp only
    split
    · rw [hurl.origin_appendPair]
    · rw [hurl.origin_appendPair, hurl.origin_appendPair]
  rw [hurl.originOf_asStr, hkeeps, UrlCrate.originOf]
  cases url.parse redirectUri with
  | none => rw [Option.getD_none, originOf_fallback hurl]; rfl
  | some u => rfl

section Issue

variable {crates : Crates}

/-- A code that has been issued goes to a registered origin exactly if its client registered the
origin of the redirect. -/
theorem locationRegistered_issue_iff (hurl : LawfulUrl crates.url) (env : Env) (st : OAuthState) {g : Grant}
    {secret : String} {uris : List String}
    (hclient : validateClient env.clients g.clientId = some (secret, uris)) :
    LocationRegistered crates.url env.clients g.clientId env.rand (g.issue crates env st) ↔
      ∃ uri ∈ uris, crates.url.originOf uri =
        some ((crates.url.originOf g.redirectUri).getD fallbackOrigin) := by
  constructor
  · intro h
    obtain ⟨location, secret', uris', uri, origin, hloc, hcl, hmem, ho, ho'⟩ :=
      h _ rfl (g.issue_stored crates env st) rfl
    rw [Grant.issue_location, Option.some.injEq] at hloc
    subst hloc
    rw [hclient, Option.some.injEq, Prod.mk.injEq] at hcl
    obtain ⟨rfl, rfl⟩ := hcl
    rw [originOf_redirectUrl hurl] at ho
    exact ⟨uri, hmem, ho'.trans ho.symm⟩
  · rintro ⟨uri, hmem, ho⟩ _ - - -
    exact ⟨_, secret, uris, uri, _, g.issue_location crates env st, hclient, hmem, originOf_redirectUrl hurl _ _ _, ho⟩

/-- Either outcome of authorizing is at home, if codes for the client are. -/
theorem locationRegistered_of_outcome {url : UrlCrate} (env : Env) {st : OAuthState}
    {out : OAuthState × Response} {clientId : String} (hout : AuthorizeOutcome crates env st out)
    (h : ∀ (g : Grant) secret uris, g.clientId = clientId →
      validateClient env.clients clientId = some (secret, uris) →
      uriMatches uris g.redirectUri = true →
      LocationRegistered url env.clients clientId env.rand (g.issue crates env st)) :
    LocationRegistered url env.clients clientId env.rand out := by
  rcases hout with ⟨-, hne⟩ | ⟨g, hg, rfl⟩
  · exact fun _ h302 => absurd h302 hne
  · intro authCode h302 hget hid
    obtain ⟨secret, uris, hclient, hmatch⟩ := hg.redirect_matches
    have hgid : g.clientId = clientId := by
      rw [Grant.issue_stored, Option.some.injEq] at hget
      rw [← hid, ← hget]
      rfl
    exact h g secret uris hgid (hgid ▸ hclient) hmatch authCode h302 hget hid

end Issue

/-! ## 2. Requests -/

/-- A user to log in. -/
def someUser : UserStore := ⟨[⟨"u", "p", none, none⟩]⟩

/-- The form of a login that asks for a redirect. -/
def loginBody (clientId redirectUri : String) : List UInt8 :=
  Form.serialize [("client_id", clientId), ("redirect_uri", redirectUri), ("username", "u"),
    ("password", "p")]

/-- Any text that begins with a registered URI is accepted. -/
theorem handleAuthorizePost_loginBody {crates : Crates} {env : Env} {clientId redirectUri secret : String}
    {uris : List String} (hclient : validateClient env.clients clientId = some (secret, uris))
    (hmatch : uriMatches uris redirectUri = true) (authMode : AuthMode) (keys : JwtKeys) :
    handleAuthorizePost crates env (.new someUser authMode keys) (loginBody clientId redirectUri) =
      (Grant.mk "u" clientId redirectUri "" none none).issue crates env (.new someUser authMode keys) := by
  have hauth : (OAuthState.new someUser authMode keys).userStore.authenticate "u" "p" =
      some ⟨"u", "p", none, none⟩ := by simp [OAuthState.new, someUser, UserStore.authenticate]
  rw [handleAuthorizePost, parseFormBody, loginBody, Form.parse_serialize]
  simp [Map.ofPairs, hclient, hmatch, hauth]
  rfl

/-! ## 3. The condition -/

/-- What a registered URI must be like, among the URIs of its client. -/
inductive SafeUri (url : UrlCrate) (uris : List String) (uri : String) : Prop where
  /-- It is a URL whose authority is closed, or that has none and will have none. -/
  | closed (hsettled : Url.settled uri.toList = true) (horigin : (url.originOf uri).isSome = true)
  /-- It cannot be carried on to a URL, and the place where codes go instead is registered. -/
  | nowhere (hno : Url.dead uri.toList = true ∨ (Url.settled uri.toList = true ∧ url.originOf uri = none))
      (hfallback : ∃ other ∈ uris, url.originOf other = some fallbackOrigin)
  /-- It is a `file` URL.  There the crate's rules about drive letters decide what a continuation leads to, and
  every one of them has to be registered. -/
  | file (hfile : Url.isFile uri.toList = true) (hall : ∀ rest, ∃ other ∈ uris,
      url.originOf other = some ((url.originOf (uri ++ rest)).getD fallbackOrigin))

theorem uriMatches_iff {uris : List String} {redirectUri : String} :
    uriMatches uris redirectUri = true ↔ ∃ uri ∈ uris, ∃ rest, redirectUri = uri ++ rest := by
  simp [uriMatches, Str.startsWith_iff]

section Condition

variable {url : UrlCrate} {uris : List String}

/-- A safe registration keeps every redirect at home. -/
theorem exists_uri_of_safe (hurl : LawfulUrl url) (hsafe : ∀ uri ∈ uris, SafeUri url uris uri)
    {redirectUri : String} (hmatch : uriMatches uris redirectUri = true) :
    ∃ uri ∈ uris, url.originOf uri = some ((url.originOf redirectUri).getD fallbackOrigin) := by
  obtain ⟨uri, hmem, rest, rfl⟩ := uriMatches_iff.mp hmatch
  cases hsafe uri hmem with
  | closed hsettled hsome =>
    obtain ⟨origin, horigin⟩ := Option.isSome_iff_exists.mp hsome
    exact ⟨uri, hmem, by rw [hurl.originOf_append hsettled, horigin, Option.getD_some]⟩
  | nowhere hno hfallback =>
    have hnone : url.originOf (uri ++ rest) = none := by
      rcases hno with hdead | ⟨hsettled, hnone⟩
      · exact hurl.originOf_append_of_dead hdead rest
      · rw [hurl.originOf_append hsettled, hnone]
    rw [hnone, Option.getD_none]
    exact hfallback
  | file _ hall => exact hall rest

/-- If every redirect stays at home, the registration is safe. -/
theorem safe_of_exists_uri (hurl : LawfulUrl url)
    (h : ∀ redirectUri, uriMatches uris redirectUri = true → ∃ uri ∈ uris,
      url.originOf uri = some ((url.originOf redirectUri).getD fallbackOrigin))
    {uri : String} (hmem : uri ∈ uris) : SafeUri url uris uri := by
  have happend : ∀ rest, uriMatches uris (uri ++ rest) = true := fun rest =>
    uriMatches_iff.mpr ⟨uri, hmem, rest, rfl⟩
  cases hfile : Url.isFile uri.toList with
  | true => exact .file hfile fun rest => h _ (happend rest)
  | false =>
  -- the text itself is accepted
  have hself : ∃ other ∈ uris, url.originOf other = some ((url.originOf uri).getD fallbackOrigin) := by
    have := h _ (happend "")
    rwa [String.append_empty] at this
  cases hsettled : Url.settled uri.toList with
  | true =>
    cases horigin : url.originOf uri with
    | some origin => exact .closed hsettled (by rw [horigin]; rfl)
    | none =>
      rw [horigin, Option.getD_none] at hself
      exact .nowhere (Or.inr ⟨hsettled, horigin⟩) hself
  | false =>
    cases hdead : Url.dead uri.toList with
    | true =>
      have hnone := hurl.originOf_append_of_dead hdead ""
      rw [String.append_empty] at hnone
      rw [hnone, Option.getD_none] at hself
      exact .nowhere (Or.inl hdead) hself
    | false =>
      -- carry the text on to a host that nobody registered
      obtain ⟨host, hplain, hnew⟩ := Url.exists_plain_not_mem
        (uris.filterMap fun r => (url.originOf r).bind Origin.host)
      obtain ⟨rest, origin, horigin, hhost⟩ := hurl.exists_originOf_of_open hsettled hdead hfile hplain
      obtain ⟨other, hother, hoo⟩ := h _ (happend rest)
      rw [horigin, Option.getD_some] at hoo
      refine absurd (List.mem_filterMap.mpr ⟨other, hother, ?_⟩) hnew
      rw [hoo, Option.bind_some, hhost]

end Condition

/-- Every code for a client goes to an origin it registered, whatever the request, exactly if all
its registered URIs are safe. -/
theorem redirect_origin_registered_iff {crates : Crates} (hurl : LawfulUrl crates.url)
    (clients : String → Option Json) (clientId : String) :
    (∀ now unixSecs rand st,
        (∀ req, LocationRegistered crates.url clients clientId rand
          (handleAuthorizeGet crates ⟨now, unixSecs, rand, clients⟩ st req)) ∧
        ∀ body, LocationRegistered crates.url clients clientId rand
          (handleAuthorizePost crates ⟨now, unixSecs, rand, clients⟩ st body)) ↔
      ∀ secret uris, validateClient clients clientId = some (secret, uris) →
        ∀ uri ∈ uris, SafeUri crates.url uris uri := by
  constructor
  · intro h secret uris hclient uri hmem
    refine safe_of_exists_uri hurl (fun redirectUri hmatch => ?_) hmem
    have hpost := (h 0 0 "" (.new someUser .legacy ⟨"", ""⟩)).2 (loginBody clientId redirectUri)
    rw [handleAuthorizePost_loginBody hclient hmatch] at hpost
    exact (locationRegistered_issue_iff hurl ⟨0, 0, "", clients⟩ _
      (g := ⟨"u", clientId, redirectUri, "", none, none⟩) hclient).mp hpost
  · intro h now unixSecs rand st
    have hissue : ∀ (g : Grant) secret uris, g.clientId = clientId →
        validateClient clients clientId = some (secret, uris) →
        uriMatches uris g.redirectUri = true → LocationRegistered crates.url clients clientId rand
          (g.issue crates ⟨now, unixSecs, rand, clients⟩ st) := by
      rintro g secret uris rfl hclient hmatch
      exact (locationRegistered_issue_iff hurl ⟨now, unixSecs, rand, clients⟩ st hclient).mpr
        (exists_uri_of_safe hurl (h secret uris hclient) hmatch)
    exact ⟨fun req => locationRegistered_of_outcome ⟨now, unixSecs, rand, clients⟩
        (handleAuthorizeGet_outcome crates _ st req) hissue,
      fun body => locationRegistered_of_outcome ⟨now, unixSecs, rand, clients⟩
        (handleAuthorizePost_outcome crates _ st body) hissue⟩

/-- A client with a web page and a native app: the page's URI closes its authority, the app's has none. -/
def closedClients (id : String) : Option Json :=
  if id = "web" then
    some (.obj [("redirectURIs", .ofStrings ["https://console.example/", "com.example.app:/callback"])])
  else none

/-- Its codes stay at home, whatever is asked for. -/
theorem redirect_origin_registered_iff_closedClients :
    LawfulUrl unsignedCrates.url ∧ ∀ now unixSecs rand st body, LocationRegistered unsignedCrates.url closedClients
      "web" rand (handleAuthorizePost unsignedCrates ⟨now, unixSecs, rand, closedClients⟩ st body) := by
  have hsafe : ∀ secret uris, validateClient closedClients "web" = some (secret, uris) →
      ∀ uri ∈ uris, SafeUri unsignedCrates.url uris uri := by
    intro secret uris hclient
    obtain ⟨-, rfl⟩ : "" = secret ∧ ["https://console.example/", "com.example.app:/callback"] = uris := by
      rw [show validateClient closedClients "web" =
        some ("", ["https://console.example/", "com.example.app:/callback"]) by decide +kernel,
        Option.some.injEq, Prod.mk.injEq] at hclient
      exact hclient
    have hall : ∀ uri ∈ ["https://console.example/", "com.example.app:/callback"],
        Url.settled uri.toList = true ∧ (partsCrate.originOf uri).isSome = true := by decide +kernel
    exact fun uri hmem => .closed (hall uri hmem).1 (hall uri hmem).2
  have hlawful : LawfulUrl unsignedCrates.url := lawfulUrl_partsCrate
  exact ⟨hlawful, fun now unixSecs rand st =>
    ((redirect_origin_registered_iff hlawful closedClients "web").mpr hsafe now unixSecs rand st).2⟩

/-- A client that registered a URI without closing its authority, as command-line clients do. -/
def openClients (id : String) : Option Json :=
  if id = "cli" then some (.obj [("redirectURIs", .ofStrings ["http://localhost"])]) else none

/-- Its codes can be sent to a host of the caller's choice. -/
theorem redirect_escapes :
    ¬ LocationRegistered unsignedCrates.url openClients "cli" "code1"
      (handleAuthorizePost unsignedCrates ⟨0, 0, "code1", openClients⟩ (.new someUser .legacy ⟨"", ""⟩)
        (loginBody "cli" "http://localhost.evil.example/")) := by
  have hclient : validateClient openClients "cli" = some ("", ["http://localhost"]) := by
    decide +kernel
  rw [handleAuthorizePost_loginBody hclient (by decide +kernel)]
  intro h
  obtain ⟨uri, hmem, ho⟩ := (locationRegistered_issue_iff lawfulUrl_partsCrate ⟨0, 0, "code1", openClients⟩ _
    (g := ⟨"u", "cli", "http://localhost.evil.example/", "", none, none⟩) hclient).mp h
  rw [List.mem_singleton] at hmem
  subst hmem
  have hdiffer : partsCrate.originOf "http://localhost" ≠
      some ((partsCrate.originOf "http://localhost.evil.example/").getD fallbackOrigin) := by decide +kernel
  exact hdiffer ho

end Picoshift.OAuth
