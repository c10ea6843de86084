/-
# What the server says about itself

Two documents tell a client where to go and which keys to trust: `discovery_json` of `oauth/helpers.rs` and the
key set of `handle_jwks`.  Both are texts that have to agree with code elsewhere.  The endpoints of the document
are those of the router, in each mode under the methods a client uses (`discovery_served`); and whoever reads the
key set by the rules of `refresh`, which is the reader this repository has, finds the signing key under its name
and nothing else (`publishedFor_jwksJson`).
-/
import Picoshift.OAuth.ExternalJwks

namespace Picoshift.OAuth

/-! ## 1. The discovery document -/

/-- The address that the document gives for the server. -/
def discoveryBase : AuthMode → String
  | .byoidc => "https://localhost:9443"
  | _ => "https://" ++ oauthHost ++ "." ++ domain

/-- `discovery_json`. -/
def discoveryJson (authMode : AuthMode) : Json :=
  let base := discoveryBase authMode
  match authMode with
  | .byoidc =>
    .obj
      [("issuer", .str base),
        ("jwks_uri", .str (base ++ "/oauth/jwks")),
        ("response_types_supported", .ofStrings ["code"]),
        ("grant_types_supported", .ofStrings ["authorization_code"]),
        ("id_token_signing_alg_values_supported", .ofStrings ["RS256"]),
        ("subject_types_supported", .ofStrings ["public"])]
  | .legacy => .obj (doc base)
  | .oidc =>
    .obj (doc base ++
      [("userinfo_endpoint", .str (base ++ "/oauth/userinfo")),
        ("jwks_uri", .str (base ++ "/oauth/jwks")),
        ("id_token_signing_alg_values_supported", .ofStrings ["RS256"]),
        ("subject_types_supported", .ofStrings ["public"]),
        ("token_endpoint_auth_methods_supported",
          .ofStrings ["client_secret_post", "client_secret_basic"])])
where
  /-- The members that the legacy and the oidc mode share. -/
  doc (base : String) : List (String × Json) :=
    [("issuer", .str base),
      ("authorization_endpoint", .str (base ++ "/oauth/authorize")),
      ("token_endpoint", .str (base ++ "/oauth/token")),
      ("scopes_supported",
        .ofStrings ["user:check-access", "user:full", "user:info", "user:list-projects"]),
      ("response_types_supported", .ofStrings ["code", "token"]),
      ("grant_types_supported", .ofStrings ["authorization_code", "implicit"]),
      ("code_challenge_methods_supported", .ofStrings ["plain", "S256"])]

/-- The members that name an endpoint, with the method it is asked by. -/
def endpointMembers : List (String × Method) :=
  [("authorization_endpoint", .get), ("authorization_endpoint", .post), ("token_endpoint", .post),
    ("userinfo_endpoint", .get), ("jwks_uri", .get)]

/-- **Every endpoint of the document is served**: its URL is a path behind the address of the document, and the
router has a handler of this server or of its provider for it, whatever else stands in the request. -/
theorem discovery_served (authMode : AuthMode) {name : String} {method : Method}
    (hname : (name, method) ∈ endpointMembers) {url : String}
    (hurl : (discoveryJson authMode).get name = some (.str url)) :
    ∃ path, url = discoveryBase authMode ++ path ∧ ∀ query authorization csrfToken body,
      handler authMode ⟨method, path, query, authorization, csrfToken, body⟩ ≠ .notFound := by
  simp only [endpointMembers, List.mem_cons, Prod.mk.injEq, List.not_mem_nil, or_false] at hname
  -- the byoidc document names the key set only, and the legacy one neither that nor userinfo
  rcases hname with ⟨rfl, rfl⟩ | ⟨rfl, rfl⟩ | ⟨rfl, rfl⟩ | ⟨rfl, rfl⟩ | ⟨rfl, rfl⟩ <;> cases authMode <;> cases hurl
  all_goals
    refine ⟨_, rfl, fun query authorization csrfToken body => ?_⟩
    simp only [handler]
    try split
    all_goals exact Handler.noConfusion

/-! ## 2. The key set -/

/-- The signing key of the oidc mode with its published components, `n_b64` and `e_b64`. -/
structure PublishedKeys where
  keys : JwtKeys
  nB64 : String
  eB64 : String

/-- The entry of a key set for a key. -/
def jwkJson (published : PublishedKeys) : Json :=
  .obj
    [("kty", .str "RSA"),
      ("use", .str "sig"),
      ("kid", .str published.keys.kid),
      ("alg", .str "RS256"),
      ("n", .str published.nB64),
      ("e", .str published.eB64)]

/-- The key set that `handle_jwks` answers with. -/
def jwksJson (published : Option PublishedKeys) : Json :=
  .obj [("keys", .arr (published.map jwkJson).toList)]

/-- `handle_jwks`. -/
def handleJwks (published : Option PublishedKeys) : Response := jsonResponse 200 (jwksJson published)

/-- **A reader of the key set finds the signing key**, under its name and under no other. -/
theorem publishedFor_jwksJson (crates : Crates) (published : PublishedKeys) (kid : String) :
    publishedFor crates (jwksKeys (jwksJson (some published))) kid =
      if published.keys.kid = kid then crates.fromRsaComponents published.nB64 published.eB64 else none := by
  have hkeys : jwksKeys (jwksJson (some published)) = [jwkJson published] := rfl
  have hentry : entryKey crates (jwkJson published) =
      crates.fromRsaComponents published.nB64 published.eB64 := if_pos rfl
  have hkid : strMember (jwkJson published) "kid" = published.keys.kid := rfl
  rw [hkeys, publishedFor, List.reverse_singleton, List.findSome?_singleton, hkid, hentry]

/-- Without a signing key it finds none. -/
theorem publishedFor_jwksJson_none (crates : Crates) (kid : String) :
    publishedFor crates (jwksKeys (jwksJson none)) kid = none := rfl

end Picoshift.OAuth
