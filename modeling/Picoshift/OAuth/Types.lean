/-
# The state of the OAuth server

`oauth/types.rs` and `oauth/k8s.rs`: the users, the issued codes and tokens, and the lookup of
an OAuthClient through the Kubernetes API.

Three things a handler uses come from outside and are inputs here.

* `Env`: the two clocks, the random text drawn by `generate_random_string`, and what the API
  server answers for an OAuthClient.  Each request sees its own.
* `Crates`: the functions of the crates the server links, for tokens, digests, JSON and URLs.  What
  is assumed of the signer is `LawfulJwt`, of the URLs `LawfulUrl`, and only where a result needs it.
* The User and Identity objects that `ensure_user_and_identity` writes are read by no handler,
  and are left out.
-/
import Picoshift.Lib.Base64
import Picoshift.Lib.JsonText
import Picoshift.Lib.Map
import Picoshift.Lib.UrlParts

namespace Picoshift.OAuth

/-! ## 1. Constants -/

def domain : String := "apps.ocp-sim.test"

def oauthHost : String := "oauth-openshift"

/-- Instants and durations are in nanoseconds. -/
def secs (n : Nat) : Nat := n * 1000000000

def codeTtl : Nat := secs 300

/-- `TOKEN_TTL.as_secs()`. -/
def tokenTtlSecs : Nat := 86400

def tokenTtl : Nat := secs tokenTtlSecs

/-! ## 2. Users -/

structure UserEntry where
  username : String
  password : String
  email : Option String
  groups : Option (List String)
  deriving DecidableEq, Repr

structure UserStore where
  users : List UserEntry
  deriving DecidableEq, Repr

namespace UserStore

/-- The store `load` falls back to. -/
def default : UserStore :=
  ⟨[{ username := "admin"
      password := "admin"
      email := some "admin@ocp-sim.test"
      groups := some ["system:cluster-admins", "system:authenticated"] }]⟩

def authenticate (s : UserStore) (username password : String) : Option UserEntry :=
  s.users.find? fun u => u.username == username && u.password == password

def get (s : UserStore) (username : String) : Option UserEntry :=
  s.users.find? fun u => u.username == username

/-- The e-mail address and groups a token or an answer carries for a user, with the defaults for
what the store does not say. -/
def profile (s : UserStore) (username : String) : String × List String :=
  match s.get username with
  | some entry =>
    (entry.email.getD (username ++ "@ocp-sim.test"), entry.groups.getD ["system:authenticated"])
  | none => (username ++ "@ocp-sim.test", ["system:authenticated"])

end UserStore

/-! ## 3. Codes, tokens and the server's state -/

inductive AuthMode where
  | legacy
  | oidc
  | byoidc
  deriving DecidableEq, Repr

/-- The signing key of the oidc mode; `encodingKey` is its PEM text. -/
structure JwtKeys where
  encodingKey : String
  kid : String
  deriving DecidableEq, Repr

structure AuthCode where
  username : String
  clientId : String
  created : Nat
  codeChallenge : Option String
  codeChallengeMethod : Option String
  deriving DecidableEq, Repr

structure TokenInfo where
  username : String
  created : Nat
  deriving DecidableEq, Repr

structure OAuthState where
  codes : Map String AuthCode
  tokens : Map String TokenInfo
  userStore : UserStore
  authMode : AuthMode
  jwtKeys : Option JwtKeys

/-- `OAuthState::new`; `keys` is the pair that `JwtKeys::generate` comes up with. -/
def OAuthState.new (userStore : UserStore) (authMode : AuthMode) (keys : JwtKeys) : OAuthState where
  codes := Map.empty
  tokens := Map.empty
  userStore := userStore
  authMode := authMode
  jwtKeys := if authMode = .oidc then some keys else none

/-! ## 4. The world outside -/

/-- What one request is given by its surroundings. -/
structure Env where
  /-- `Instant::now()`. -/
  now : Nat
  /-- The seconds of `SystemTime::now()` since the epoch. -/
  unixSecs : Nat
  /-- What `generate_random_string` returns. -/
  rand : String
  /-- The API server's answer to a get of an OAuthClient: its data, or an error. -/
  clients : String → Option Json

/-- The functions of linked crates.  A decoding key is a value of `jsonwebtoken`; the server only stores it. -/
structure Crates where
  /-- `jsonwebtoken::encode` with an RS256 header naming `kid`. -/
  jwtEncode : (kid : String) → (claims : Json) → (encodingKey : String) → Option String
  /-- `ring::digest::digest(&SHA256, ..)`. -/
  sha256 : List UInt8 → List UInt8
  /-- `serde_json::from_slice`, at `Value`. -/
  fromSlice : List UInt8 → Option Json
  /-- `url::Url`. -/
  url : UrlCrate
  DecodingKey : Type
  /-- `DecodingKey::from_rsa_components`. -/
  fromRsaComponents : (n e : String) → Option DecodingKey
  /-- `jsonwebtoken::decode` at a time, with `Validation::new(RS256)` and no audience. -/
  jwtDecode : DecodingKey → (unixSecs : Nat) → (token : String) → Option Json

/-- A signed token in compact form: three base64url parts joined by dots, the first of a header
that begins with its `typ` member, the second of the claims. -/
def compactJwt (headerTail payload signature : List UInt8) : String :=
  Base64.encode Base64.urlSafeNoPad (Utf8.encode "\x7b\"typ\"" ++ headerTail) ++ "." ++
    Base64.encode Base64.urlSafeNoPad payload ++ "." ++
    Base64.encode Base64.urlSafeNoPad signature

/-- What `jsonwebtoken` promises: a token is in compact form, and reading its payload gives back
the members of the claims. -/
structure LawfulJwt (crates : Crates) : Prop where
  compact : ∀ {kid claims key token}, crates.jwtEncode kid claims key = some token →
    ∃ headerTail payload signature claims', token = compactJwt headerTail payload signature ∧
      crates.fromSlice payload = some claims' ∧ ∀ name, claims'.get name = claims.get name

/-- Crates that do what the linked ones do but for the cryptography: the signer writes the claims
out and appends the key in place of a signature, and a key with a modulus vouches for every token.
They are enough to run the server on concrete requests. -/
def unsignedCrates : Crates where
  jwtEncode kid claims key :=
    if claims.plain then
      some (compactJwt (Utf8.encode (":\"JWT\",\"alg\":\"RS256\",\"kid\":\"" ++ kid ++ "\"\x7d"))
        (Utf8.encode (String.ofList claims.text)) (Utf8.encode key))
    else none
  sha256 bs := bs
  fromSlice := Json.fromSlice
  url := partsCrate
  DecodingKey := List UInt8 × List UInt8
  fromRsaComponents n e := do
    let n ← Base64.decode Base64.urlSafeNoPad n
    let e ← Base64.decode Base64.urlSafeNoPad e
    return (n, e)
  jwtDecode key _ token :=
    match key.1, Str.splitn token 3 '.' with
    | _ :: _, [_, payload, _] => (Base64.decode Base64.urlSafeNoPad payload).bind Json.fromSlice
    | _, _ => none

theorem lawfulJwt_unsignedCrates : LawfulJwt unsignedCrates where
  compact := by
    intro kid claims key token h
    simp only [unsignedCrates] at h
    split at h
    · rename_i hplain
      rw [Option.some.injEq] at h
      exact ⟨_, _, _, claims, h.symm, Json.fromSlice_text hplain, fun _ => rfl⟩
    · exact absurd h (by simp)

/-! ## 5. OAuthClients -/

/-- `validate_client`: the secret and the redirect URIs of a client that exists. -/
def validateClient (clients : String → Option Json) (clientId : String) :
    Option (String × List String) :=
  (clients clientId).map fun data =>
    (((data.get "secret").bind Json.asStr).getD "",
      (((data.get "redirectURIs").bind Json.asArray).map fun arr => arr.filterMap Json.asStr).getD [])

/-- One client, `console`, with a secret and a redirect URI: enough to run the handlers on
concrete requests. -/
def sampleClients (id : String) : Option Json :=
  if id = "console" then
    some (.obj
      [("secret", .str "s3cret"),
        ("redirectURIs", .ofStrings ["https://console.apps.ocp-sim.test/"])])
  else none

end Picoshift.OAuth
