/-
# The keys and endpoints of an external provider

`oauth/byoidc.rs`: the cache asks the provider for its discovery document and then for its key set.  What a
refresh writes is not written together (`Refreshed`):

* nothing, when the first request fails or brings no JSON;
* the endpoints alone, when the document names no key set, or the second request fails or brings no JSON;
* the endpoints and the keys, otherwise.

The status of an answer is not looked at, and a member that is missing is an empty text.  So any JSON that
comes back, an error document too, takes the place of the endpoints that were loaded, and any JSON that
comes back for the key set takes the place of the keys.  An RSA entry counts as soon as its members decode,
and without them they decode to nothing: a key that no token can be checked with takes the place of one that
works.

`refresh_unchanged_iff` says when a refresh that fails leaves the cache alone.  In the retry loop of `new`
the keys are never lost, since there are none before the last attempt (`keys_retry`), but the endpoints are:
those of the last document count (`discovery_retry`).  What is JSON, what a key is and which tokens it
vouches for is left to the crates.
-/
import Mathlib.Data.List.DropRight
import Picoshift.OAuth.Router

namespace Picoshift.OAuth

/-! ## 1. The cache -/

/-- What comes back for a GET: no answer at all, or a status and a body, which may break off. -/
inductive Answer where
  | sendError
  | response (status : Nat) (body : Option (List UInt8))

/-- `resp.json()`. -/
def Answer.json (crates : Crates) : Answer → Option Json
  | .sendError => none
  | .response _ body => body.bind crates.fromSlice

/-- The two requests of a refresh, each answered by its URL. -/
structure Attempt where
  discovery : String → Answer
  jwks : String → Answer

/-- `v.get(name).and_then(|v| v.as_str()).unwrap_or_default()`. -/
def strMember (v : Json) (name : String) : String := ((v.get name).bind Json.asStr).getD ""

/-- `ExternalOidcDiscovery::default()`. -/
def ExternalOidcDiscovery.default : ExternalOidcDiscovery := ⟨"", "", "", ""⟩

/-- The endpoints that a document names. -/
def ExternalOidcDiscovery.ofDoc (doc : Json) : ExternalOidcDiscovery where
  authorizationEndpoint := strMember doc "authorization_endpoint"
  tokenEndpoint := strMember doc "token_endpoint"
  userinfoEndpoint := strMember doc "userinfo_endpoint"
  jwksUri := strMember doc "jwks_uri"

/-- The keys by name; of the crate's map only the lookups and whether it is empty are used. -/
structure ExternalJwksCache (crates : Crates) where
  keys : List (String × crates.DecodingKey)
  discovery : ExternalOidcDiscovery

/-- `new_keys.insert(kid, dk)`. -/
def insertKey {K : Type} (keys : List (String × K)) (kid : String) (dk : K) : List (String × K) :=
  keys.filter (fun k => k.1 != kid) ++ [(kid, dk)]

section Source

variable (crates : Crates)

/-- One turn of the loop over a key set. -/
def addKey (newKeys : List (String × crates.DecodingKey)) (key : Json) : List (String × crates.DecodingKey) :=
  if strMember key "kty" ≠ "RSA" then newKeys
  else
    match crates.fromRsaComponents (strMember key "n") (strMember key "e") with
    | some dk => insertKey newKeys (strMember key "kid") dk
    | none => newKeys

/-- The members of a key set. -/
def jwksKeys (jwks : Json) : List Json := ((jwks.get "keys").bind Json.asArray).getD []

/-- `ExternalJwksCache::rewrite_to_internal`: the path and the query of the external URL, at the issuer. -/
def rewriteToInternal (url : UrlCrate) (externalUrl issuerUrl : String) : String :=
  match url.parse externalUrl with
  | none => externalUrl
  | some ext =>
    match url.parse issuerUrl with
    | none => externalUrl
    | some iss => url.asStr (url.setQuery (url.setPath iss (url.path ext)) (url.query ext))

/-- `issuer_url.trim_end_matches('/')`. -/
def issuerTrimmed (issuerUrl : String) : String := String.ofList (issuerUrl.toList.rdropWhile (· == '/'))

/-- The document that the first request brings. -/
def Attempt.discoveryDoc (x : Attempt) (issuerUrl : String) : Option Json :=
  (x.discovery (issuerTrimmed issuerUrl ++ "/.well-known/openid-configuration")).json crates

/-- The key set that the second request brings. -/
def Attempt.jwksDoc (x : Attempt) (issuerUrl jwksUri : String) : Option Json :=
  (x.jwks (rewriteToInternal crates.url jwksUri (issuerTrimmed issuerUrl))).json crates

end Source

namespace ExternalJwksCache

variable {crates : Crates}

/-- `ExternalJwksCache::refresh`. -/
def refresh (cache : ExternalJwksCache crates) (issuerUrl : String) (x : Attempt) : ExternalJwksCache crates :=
  match x.discoveryDoc crates issuerUrl with
  | none => cache
  | some doc =>
    let disc := ExternalOidcDiscovery.ofDoc doc
    -- the endpoints are written before anything else is known
    let cache := { cache with discovery := disc }
    if disc.jwksUri = "" then cache
    else
      match x.jwksDoc crates issuerUrl disc.jwksUri with
      | none => cache
      | some jwks => { cache with keys := (jwksKeys jwks).foldl (addKey crates) [] }

/-- The loop of `new`: the attempts that are left. -/
def retry (issuerUrl : String) : List Attempt → ExternalJwksCache crates → ExternalJwksCache crates
  | [], cache => cache
  | x :: attempts, cache =>
    if (cache.refresh issuerUrl x).keys.isEmpty then retry issuerUrl attempts (cache.refresh issuerUrl x)
    else cache.refresh issuerUrl x

def empty : ExternalJwksCache crates := ⟨[], ExternalOidcDiscovery.default⟩

/-- `ExternalJwksCache::new`, with what each of the five attempts meets. -/
def new (issuerUrl : String) (attempt : Nat → Attempt) : ExternalJwksCache crates :=
  retry issuerUrl ((List.range' 1 5).map attempt) empty

end ExternalJwksCache

/-! ## 2. Which keys a key set gives

The loop keeps the last entry under a name that gives a key.  Whether the key is of any use is not asked. -/

section KeySet

variable (crates : Crates)

/-- The key that an entry of a key set gives. -/
def entryKey (key : Json) : Option crates.DecodingKey :=
  if strMember key "kty" = "RSA" then crates.fromRsaComponents (strMember key "n") (strMember key "e")
  else none

/-- The key that a key set has under a name. -/
def publishedFor (keys : List Json) (kid : String) : Option crates.DecodingKey :=
  keys.reverse.findSome? fun key => if strMember key "kid" = kid then entryKey crates key else none

theorem addKey_eq (newKeys : List (String × crates.DecodingKey)) (key : Json) :
    addKey crates newKeys key =
      match entryKey crates key with
      | some dk => insertKey newKeys (strMember key "kid") dk
      | none => newKeys := by
  unfold addKey entryKey
  by_cases hkty : strMember key "kty" = "RSA"
  · cases crates.fromRsaComponents (strMember key "n") (strMember key "e") <;>
      simp only [hkty, ne_eq, not_true_eq_false, if_false, if_true]
  · simp only [hkty, ne_eq, not_false_eq_true, if_true, if_false]

/-- An entry that gives no key changes nothing, and one that does leaves a key. -/
theorem addKey_eq_nil_iff {newKeys : List (String × crates.DecodingKey)} {key : Json} :
    addKey crates newKeys key = [] ↔ newKeys = [] ∧ (entryKey crates key).isSome = false := by
  rw [addKey_eq]
  cases entryKey crates key with
  | none => simp
  | some dk => simp [insertKey]

/-- The keys that a key set gives: none, if and only if no entry gives one. -/
theorem foldl_addKey_eq_nil_iff {newKeys : List (String × crates.DecodingKey)} {keys : List Json} :
    keys.foldl (addKey crates) newKeys = [] ↔
      newKeys = [] ∧ (keys.any fun key => (entryKey crates key).isSome) = false := by
  induction keys generalizing newKeys with
  | nil => simp
  | cons key keys ih =>
    rw [List.foldl_cons, ih, addKey_eq_nil_iff, List.any_cons, Bool.or_eq_false_iff, and_assoc]

end KeySet

/-- Taking a key out under its name leaves the other names alone. -/
theorem lookup_filter_kid {K : Type} (keys : List (String × K)) (kid kid' : String) :
    (keys.filter fun k => k.1 != kid).lookup kid' = if kid' = kid then none else keys.lookup kid' := by
  induction keys with
  | nil => simp
  | cons k keys ih =>
    obtain ⟨name, key⟩ := k
    by_cases hname : name = kid
    · rw [List.filter_cons_of_neg (by simp [hname]), ih]
      by_cases h : kid' = kid
      · rw [if_pos h, if_pos h]
      · have hne : (kid' == name) = false := by simpa [hname] using h
        rw [if_neg h, if_neg h, List.lookup_cons, hne]
    · rw [List.filter_cons_of_pos (by simpa using hname), List.lookup_cons, List.lookup_cons, ih]
      by_cases h : kid' = name
      · have hkid : ¬ kid' = kid := fun hkid => hname (h.symm.trans hkid)
        rw [if_neg hkid, if_neg hkid]
      · have hne : (kid' == name) = false := by simpa using h
        rw [hne]

theorem lookup_insertKey {K : Type} (keys : List (String × K)) (kid : String) (dk : K) (kid' : String) :
    (insertKey keys kid dk).lookup kid' = if kid' = kid then some dk else keys.lookup kid' := by
  rw [insertKey, List.lookup_append, lookup_filter_kid]
  by_cases h : kid' = kid
  · rw [if_pos h, if_pos h, h, List.lookup_cons_self, Option.none_or]
  · have hne : (kid' == kid) = false := by simpa using h
    rw [if_neg h, if_neg h, List.lookup_cons, hne]
    exact Option.or_none

/-- The loop over a key set, under one name. -/
theorem lookup_foldl_addKey (crates : Crates) (keys : List Json) (kid : String)
    (newKeys : List (String × crates.DecodingKey)) :
    (keys.foldl (addKey crates) newKeys).lookup kid = (publishedFor crates keys kid).or (newKeys.lookup kid) := by
  induction keys generalizing newKeys with
  | nil => rfl
  | cons key keys ih =>
    have hpublished : publishedFor crates (key :: keys) kid =
        (publishedFor crates keys kid).or (if strMember key "kid" = kid then entryKey crates key else none) := by
      rw [publishedFor, List.reverse_cons, List.findSome?_append, publishedFor]
      simp only [List.findSome?_cons, List.findSome?_nil]
      cases (if strMember key "kid" = kid then entryKey crates key else none) <;> rfl
    rw [List.foldl_cons, ih, hpublished, Option.or_assoc, addKey_eq]
    congr 1
    cases entryKey crates key with
    | none => simp
    | some dk =>
      rw [lookup_insertKey]
      by_cases h : kid = strMember key "kid"
      · simp [h]
      · simp [h, Ne.symm h]

/-! ## 3. A refresh that fails -/

/-- A key of use: an RSA key that some token passes with. -/
def Usable (crates : Crates) (key : Json) : Prop :=
  ∃ dk, entryKey crates key = some dk ∧ ∃ unixSecs token, (crates.jwtDecode dk unixSecs token).isSome = true

section Attempts

variable (crates : Crates) (x : Attempt) (issuerUrl : String)

/-- The refresh obtains a document that names a key set, and a key set with a usable key. -/
def Attempt.Obtains : Prop :=
  ∃ doc, x.discoveryDoc crates issuerUrl = some doc ∧ (ExternalOidcDiscovery.ofDoc doc).jwksUri ≠ "" ∧
    ∃ jwks, x.jwksDoc crates issuerUrl (ExternalOidcDiscovery.ofDoc doc).jwksUri = some jwks ∧
      ∃ key ∈ jwksKeys jwks, Usable crates key

/-- What the code takes for that: an entry that gives a key, of use or not. -/
def Attempt.loads : Bool :=
  match x.discoveryDoc crates issuerUrl with
  | none => false
  | some doc =>
    (ExternalOidcDiscovery.ofDoc doc).jwksUri ≠ "" &&
      ((x.jwksDoc crates issuerUrl (ExternalOidcDiscovery.ofDoc doc).jwksUri).map fun jwks =>
        (jwksKeys jwks).any fun key => (entryKey crates key).isSome).getD false

end Attempts

/-- What it finds in the document that comes. -/
theorem Attempt.loads_of_discoveryDoc {crates : Crates} {x : Attempt} {issuerUrl : String} {doc : Json}
    (hdoc : x.discoveryDoc crates issuerUrl = some doc) :
    x.loads crates issuerUrl =
      ((ExternalOidcDiscovery.ofDoc doc).jwksUri ≠ "" &&
        ((x.jwksDoc crates issuerUrl (ExternalOidcDiscovery.ofDoc doc).jwksUri).map fun jwks =>
          (jwksKeys jwks).any fun key => (entryKey crates key).isSome).getD false) := by
  simp only [Attempt.loads, hdoc]

theorem Attempt.Obtains.loads {crates : Crates} {x : Attempt} {issuerUrl : String}
    (h : x.Obtains crates issuerUrl) : x.loads crates issuerUrl = true := by
  obtain ⟨doc, hdoc, huri, jwks, hjwks, key, hmem, dk, hdk, -⟩ := h
  have hany : ((jwksKeys jwks).any fun key => (entryKey crates key).isSome) = true :=
    List.any_eq_true.mpr ⟨key, hmem, by rw [hdk]; rfl⟩
  rw [loads_of_discoveryDoc hdoc, hjwks, Option.map_some, Option.getD_some, hany, Bool.and_true, decide_eq_true_eq]
  exact huri

namespace ExternalJwksCache

variable {crates : Crates} {cache : ExternalJwksCache crates} {issuerUrl : String} {x : Attempt}

/-- What a refresh writes, and whether it found a key. -/
inductive Refreshed (cache : ExternalJwksCache crates) (issuerUrl : String) (x : Attempt) :
    ExternalJwksCache crates → Bool → Prop where
  | nothing (hdoc : x.discoveryDoc crates issuerUrl = none) : Refreshed cache issuerUrl x cache false
  | endpoints {doc : Json} (hdoc : x.discoveryDoc crates issuerUrl = some doc)
      (hjwks : (ExternalOidcDiscovery.ofDoc doc).jwksUri = "" ∨
        x.jwksDoc crates issuerUrl (ExternalOidcDiscovery.ofDoc doc).jwksUri = none) :
      Refreshed cache issuerUrl x ⟨cache.keys, ExternalOidcDiscovery.ofDoc doc⟩ false
  | both {doc jwks : Json} (hdoc : x.discoveryDoc crates issuerUrl = some doc)
      (huri : (ExternalOidcDiscovery.ofDoc doc).jwksUri ≠ "")
      (hjwks : x.jwksDoc crates issuerUrl (ExternalOidcDiscovery.ofDoc doc).jwksUri = some jwks) :
      Refreshed cache issuerUrl x
        ⟨(jwksKeys jwks).foldl (addKey crates) [], ExternalOidcDiscovery.ofDoc doc⟩
        ((jwksKeys jwks).any fun key => (entryKey crates key).isSome)

theorem refreshed (cache : ExternalJwksCache crates) (issuerUrl : String) (x : Attempt) :
    Refreshed cache issuerUrl x (cache.refresh issuerUrl x) (x.loads crates issuerUrl) := by
  unfold refresh Attempt.loads
  cases hdoc : x.discoveryDoc crates issuerUrl with
  | none => exact .nothing hdoc
  | some doc =>
    have hendpoints : _ → Refreshed cache issuerUrl x ⟨cache.keys, ExternalOidcDiscovery.ofDoc doc⟩ false :=
      .endpoints hdoc
    by_cases huri : (ExternalOidcDiscovery.ofDoc doc).jwksUri = ""
    · simpa [huri] using hendpoints (Or.inl huri)
    · cases hjwks : x.jwksDoc crates issuerUrl (ExternalOidcDiscovery.ofDoc doc).jwksUri with
      | none => simpa [huri, hjwks] using hendpoints (Or.inr hjwks)
      | some jwks =>
        have hboth : Refreshed cache issuerUrl x _ _ := .both hdoc huri hjwks
        simpa [huri, hjwks] using hboth

/-- The keys of a refresh that both documents come to. -/
theorem keys_refresh_of_docs {doc jwks : Json} (hdoc : x.discoveryDoc crates issuerUrl = some doc)
    (huri : (ExternalOidcDiscovery.ofDoc doc).jwksUri ≠ "")
    (hjwks : x.jwksDoc crates issuerUrl (ExternalOidcDiscovery.ofDoc doc).jwksUri = some jwks) :
    (cache.refresh issuerUrl x).keys = (jwksKeys jwks).foldl (addKey crates) [] := by
  simp only [refresh, hdoc, if_neg huri, hjwks]

/-- The same endpoints, and the same key under every name. -/
structure Same (cache cache' : ExternalJwksCache crates) : Prop where
  discovery : cache.discovery = cache'.discovery
  keys : ∀ kid, cache.keys.lookup kid = cache'.keys.lookup kid

/-- The refresh brings nothing that differs from what is loaded: a document, if one comes, names the
endpoints that are there, and a key set, if it is asked for and comes, lists the keys that are there. -/
def Keeps (cache : ExternalJwksCache crates) (issuerUrl : String) (x : Attempt) : Prop :=
  ∀ doc, x.discoveryDoc crates issuerUrl = some doc →
    ExternalOidcDiscovery.ofDoc doc = cache.discovery ∧
      ((ExternalOidcDiscovery.ofDoc doc).jwksUri ≠ "" → ∀ jwks,
        x.jwksDoc crates issuerUrl (ExternalOidcDiscovery.ofDoc doc).jwksUri = some jwks →
          ∀ kid, publishedFor crates (jwksKeys jwks) kid = cache.keys.lookup kid)

/-- What a refresh leaves as it was, whether it fails or not. -/
theorem same_refresh_iff : Same (cache.refresh issuerUrl x) cache ↔ Keeps cache issuerUrl x := by
  have hwritten := refreshed cache issuerUrl x
  generalize cache.refresh issuerUrl x = after at hwritten ⊢
  generalize x.loads crates issuerUrl = found at hwritten
  cases hwritten with
  | nothing hdoc =>
    refine ⟨fun _ doc hdoc' => ?_, fun _ => ⟨rfl, fun _ => rfl⟩⟩
    rw [hdoc] at hdoc'
    cases hdoc'
  | @endpoints doc hdoc hjwks =>
    -- no key set came, so the keys are not in question
    constructor
    · rintro ⟨hdisc, -⟩ doc' hdoc'
      obtain rfl : doc = doc' := Option.some.inj (hdoc.symm.trans hdoc')
      refine ⟨hdisc, fun huri jwks hjwks' => ?_⟩
      rcases hjwks with hempty | hnone
      · exact absurd hempty huri
      · rw [hnone] at hjwks'
        cases hjwks'
    · exact fun h => ⟨(h doc hdoc).1, fun _ => rfl⟩
  | @both doc jwks hdoc huri hjwks =>
    have hlookup : ∀ kid, ((jwksKeys jwks).foldl (addKey crates) []).lookup kid =
        publishedFor crates (jwksKeys jwks) kid := by
      intro kid
      rw [lookup_foldl_addKey, List.lookup_nil, Option.or_none]
    constructor
    · rintro ⟨hdisc, hkeys⟩ doc' hdoc'
      obtain rfl : doc = doc' := Option.some.inj (hdoc.symm.trans hdoc')
      refine ⟨hdisc, fun _ jwks' hjwks' kid => ?_⟩
      obtain rfl : jwks = jwks' := Option.some.inj (hjwks.symm.trans hjwks')
      rw [← hlookup]
      exact hkeys kid
    · intro h
      refine ⟨(h doc hdoc).1, fun kid => ?_⟩
      rw [← (h doc hdoc).2 huri jwks hjwks kid]
      exact hlookup kid

/-- **When a refresh changes nothing unless it succeeds.** -/
theorem refresh_unchanged_iff (cache : ExternalJwksCache crates) (issuerUrl : String) (x : Attempt) :
    (¬ x.Obtains crates issuerUrl → Same (cache.refresh issuerUrl x) cache) ↔
      x.Obtains crates issuerUrl ∨ Keeps cache issuerUrl x := by
  rw [same_refresh_iff, or_iff_not_imp_left]

/-! ## 4. The retry loop -/

/-- The endpoints of any document that comes are taken. -/
theorem discovery_refresh (cache : ExternalJwksCache crates) (issuerUrl : String) (x : Attempt) :
    (cache.refresh issuerUrl x).discovery =
      ((x.discoveryDoc crates issuerUrl).map ExternalOidcDiscovery.ofDoc).getD cache.discovery := by
  have hwritten := refreshed cache issuerUrl x
  generalize cache.refresh issuerUrl x = after at hwritten ⊢
  generalize x.loads crates issuerUrl = found at hwritten
  cases hwritten with
  | nothing hdoc => simp only [hdoc, Option.map_none, Option.getD_none]
  | endpoints hdoc => simp only [hdoc, Option.map_some, Option.getD_some]
  | both hdoc => simp only [hdoc, Option.map_some, Option.getD_some]

/-- Without keys, a refresh leaves some exactly if it finds one. -/
theorem keys_refresh (hempty : cache.keys = []) :
    (cache.refresh issuerUrl x).keys = [] ↔ x.loads crates issuerUrl = false := by
  have hwritten := refreshed cache issuerUrl x
  generalize cache.refresh issuerUrl x = after at hwritten ⊢
  generalize x.loads crates issuerUrl = found at hwritten ⊢
  cases hwritten with
  | nothing => simp only [hempty]
  | endpoints => simp only [hempty]
  | both => rw [foldl_addKey_eq_nil_iff, and_iff_right rfl]

/-- The attempts that the loop makes: up to the first one that finds a key. -/
def made (crates : Crates) (issuerUrl : String) : List Attempt → List Attempt
  | [] => []
  | x :: attempts => x :: if x.loads crates issuerUrl then [] else made crates issuerUrl attempts

/-- One turn of the loop: it ends when an attempt finds a key. -/
theorem retry_cons (attempts : List Attempt) (hempty : cache.keys = []) :
    retry issuerUrl (x :: attempts) cache =
      if x.loads crates issuerUrl then cache.refresh issuerUrl x
      else retry issuerUrl attempts (cache.refresh issuerUrl x) := by
  have hkeys : (cache.refresh issuerUrl x).keys = [] ↔ x.loads crates issuerUrl = false := keys_refresh hempty
  rw [retry]
  cases hloads : x.loads crates issuerUrl with
  | false => rw [if_pos (List.isEmpty_iff.mpr (hkeys.mpr hloads)), if_neg Bool.false_ne_true]
  | true =>
    have hsome : ¬ (cache.refresh issuerUrl x).keys.isEmpty = true := by
      rw [List.isEmpty_iff, hkeys, hloads]
      decide
    rw [if_neg hsome, if_pos rfl]

/-- The loop ends with keys if and only if one of the attempts finds one. -/
theorem keys_retry (attempts : List Attempt) (hempty : cache.keys = []) :
    (retry issuerUrl attempts cache).keys ≠ [] ↔ ∃ x ∈ attempts, x.loads crates issuerUrl = true := by
  induction attempts generalizing cache with
  | nil => simp [retry, hempty]
  | cons x attempts ih =>
    have hkeys : (cache.refresh issuerUrl x).keys = [] ↔ x.loads crates issuerUrl = false := keys_refresh hempty
    rw [retry_cons attempts hempty, List.exists_mem_cons_iff]
    cases hloads : x.loads crates issuerUrl with
    | false => simpa using ih (hkeys.mpr hloads)
    | true => simp [hkeys, hloads]

/-- **The last document counts**, whether the attempt that brought it found a key or not. -/
theorem discovery_retry (attempts : List Attempt) (hempty : cache.keys = []) :
    (retry issuerUrl attempts cache).discovery =
      (made crates issuerUrl attempts).foldl
        (fun disc x => ((x.discoveryDoc crates issuerUrl).map ExternalOidcDiscovery.ofDoc).getD disc)
        cache.discovery := by
  induction attempts generalizing cache with
  | nil => rfl
  | cons x attempts ih =>
    have hkeys : (cache.refresh issuerUrl x).keys = [] ↔ x.loads crates issuerUrl = false := keys_refresh hempty
    rw [retry_cons attempts hempty, made, List.foldl_cons, ← discovery_refresh]
    cases hloads : x.loads crates issuerUrl with
    | false => simpa using ih (hkeys.mpr hloads)
    | true => simp

/-- A document without a token endpoint, such as an error document, stops every token exchange. -/
theorem handleByoidcToken_refresh {outside : Outside} {byoidc : ByoidcConfig} {doc : Json}
    (hbyoidc : outside.byoidc = some byoidc)
    (houtside : outside.discovery = some (cache.refresh issuerUrl x).discovery)
    (hdoc : x.discoveryDoc crates issuerUrl = some doc) (htoken : strMember doc "token_endpoint" = "")
    (body : List UInt8) :
    handleByoidcToken outside body =
      jsonResponse 502 (errorJson "no_external_token_endpoint" none) := by
  have hendpoint : (cache.refresh issuerUrl x).discovery.tokenEndpoint = "" := by
    rw [discovery_refresh, hdoc, Option.map_some, Option.getD_some]
    exact htoken
  simp only [handleByoidcToken, hbyoidc, houtside, if_pos hendpoint]

/-! ## 5. A provider that has a bad day -/

def entraIssuer : String := "http://entra"

instance : DecidableEq unsignedCrates.DecodingKey := inferInstanceAs (DecidableEq (List UInt8 × List UInt8))

def loaded : ExternalJwksCache unsignedCrates where
  keys := [("k1", ([0xa0, 0x01], [0x01, 0x00, 0x01]))]
  discovery := ⟨"http://entra/auth", "http://entra/token", "", "http://entra/keys"⟩

/-- The document that `loaded` was loaded from. -/
def goodJson : Json :=
  .obj
    [("authorization_endpoint", .str "http://entra/auth"),
      ("token_endpoint", .str "http://entra/token"),
      ("jwks_uri", .str "http://entra/keys")]

def errorDocument : Json := .obj [("error", .str "server_error")]

/-- A key set whose one entry has neither a modulus nor an exponent. -/
def hollowKeySet : Json := .obj [("keys", .arr [.obj [("kty", .str "RSA"), ("kid", .str "k1")]])]

/-- An answer with a document in it. -/
def withJson (status : Nat) (j : Json) : Answer := .response status (some (Utf8.encode (String.ofList j.text)))

theorem json_withJson (status : Nat) {j : Json} (h : j.plain = true) :
    (withJson status j).json unsignedCrates = some j := Json.fromSlice_text h

/-- A gateway in front of the provider answers for it. -/
def overloaded : Attempt := ⟨fun _ => withJson 503 errorDocument, fun _ => .sendError⟩

/-- Only the key set is unavailable, with an answer and without one. -/
def noKeySet : Attempt := ⟨fun _ => withJson 200 goodJson, fun _ => withJson 503 errorDocument⟩

def noKeyServer : Attempt := ⟨fun _ => withJson 200 goodJson, fun _ => .sendError⟩

/-- The key set has a key of no use. -/
def hollowKey : Attempt := ⟨fun _ => withJson 200 goodJson, fun _ => withJson 200 hollowKeySet⟩

theorem ofDoc_goodJson : ExternalOidcDiscovery.ofDoc goodJson = loaded.discovery := by decide

theorem ofDoc_errorDocument : ExternalOidcDiscovery.ofDoc errorDocument = ExternalOidcDiscovery.default := by decide

section Documents

variable (issuerUrl jwksUri : String)

theorem discoveryDoc_overloaded : overloaded.discoveryDoc unsignedCrates issuerUrl = some errorDocument :=
  json_withJson 503 (by decide)

theorem discoveryDoc_noKeySet : noKeySet.discoveryDoc unsignedCrates issuerUrl = some goodJson :=
  json_withJson 200 (by decide)

theorem jwksDoc_noKeySet : noKeySet.jwksDoc unsignedCrates issuerUrl jwksUri = some errorDocument :=
  json_withJson 503 (by decide)

theorem discoveryDoc_noKeyServer : noKeyServer.discoveryDoc unsignedCrates issuerUrl = some goodJson :=
  json_withJson 200 (by decide)

theorem discoveryDoc_hollowKey : hollowKey.discoveryDoc unsignedCrates issuerUrl = some goodJson :=
  json_withJson 200 (by decide)

theorem jwksDoc_hollowKey : hollowKey.jwksDoc unsignedCrates issuerUrl jwksUri = some hollowKeySet :=
  json_withJson 200 (by decide)

end Documents

/-- An attempt that finds no key obtains none. -/
theorem not_obtains_of_loads {x : Attempt} (h : x.loads crates issuerUrl = false) : ¬ x.Obtains crates issuerUrl :=
  fun hobtains => absurd hobtains.loads (by rw [h]; exact Bool.false_ne_true)

/-- What the entry of `hollowKeySet` gives. -/
def hollow : unsignedCrates.DecodingKey := (([], []) : List UInt8 × List UInt8)

/-- A key without a modulus vouches for nothing, so the key set that has only this one has no key of use. -/
theorem not_obtains_hollowKey : ¬ hollowKey.Obtains unsignedCrates entraIssuer := by
  have hentries : (jwksKeys hollowKeySet).map (entryKey unsignedCrates) = [some hollow] := by decide
  rintro ⟨doc, -, -, jwks, hjwks, key, hmem, dk, hdk, unixSecs, token, htoken⟩
  rw [jwksDoc_hollowKey, Option.some.injEq] at hjwks
  subst hjwks
  have hentry := List.mem_map_of_mem (f := entryKey unsignedCrates) hmem
  rw [hentries, List.mem_singleton, hdk, Option.some.injEq] at hentry
  rw [hentry] at htoken
  exact absurd htoken (by simp [unsignedCrates, hollow])

/-- Five documents come, and the last is an error document. -/
theorem discovery_new_overloaded :
    ((new entraIssuer fun n => if n = 1 then noKeyServer else overloaded) :
      ExternalJwksCache unsignedCrates).discovery = ExternalOidcDiscovery.default := by
  have hserver : noKeyServer.loads unsignedCrates entraIssuer = false := by
    rw [Attempt.loads_of_discoveryDoc (discoveryDoc_noKeyServer _), ofDoc_goodJson]
    rfl
  have hoverloaded : overloaded.loads unsignedCrates entraIssuer = false := by
    rw [Attempt.loads_of_discoveryDoc (discoveryDoc_overloaded _), ofDoc_errorDocument]
    rfl
  have hmade : made unsignedCrates entraIssuer [noKeyServer, overloaded, overloaded, overloaded, overloaded] =
      [noKeyServer, overloaded, overloaded, overloaded, overloaded] := by
    simp only [made, hserver, hoverloaded, Bool.false_eq_true, if_false]
  have hattempts : (List.range' 1 5).map (fun n => if n = 1 then noKeyServer else overloaded) =
      [noKeyServer, overloaded, overloaded, overloaded, overloaded] := rfl
  rw [new, hattempts, discovery_retry _ rfl, hmade]
  simp only [List.foldl_cons, List.foldl_nil, discoveryDoc_overloaded, Option.map_some, Option.getD_some,
    ofDoc_errorDocument]

/-- **What is lost**: the endpoints by an error document, the keys by an error document in the place of the
key set, a key by one of no use, and in the retry loop the endpoints of the first attempt by the second. -/
theorem refresh_loses_loaded :
    (¬ overloaded.Obtains unsignedCrates entraIssuer ∧
      (loaded.refresh entraIssuer overloaded).discovery = ExternalOidcDiscovery.default ∧
      loaded.discovery ≠ ExternalOidcDiscovery.default) ∧
    (¬ noKeySet.Obtains unsignedCrates entraIssuer ∧
      (loaded.refresh entraIssuer noKeySet).keys = [] ∧ loaded.keys ≠ []) ∧
    (¬ hollowKey.Obtains unsignedCrates entraIssuer ∧
      (loaded.refresh entraIssuer hollowKey).keys.lookup "k1" ≠ loaded.keys.lookup "k1") ∧
    ((empty : ExternalJwksCache unsignedCrates).refresh entraIssuer noKeyServer).discovery = loaded.discovery ∧
      ((new entraIssuer fun n => if n = 1 then noKeyServer else overloaded) :
        ExternalJwksCache unsignedCrates).discovery = ExternalOidcDiscovery.default := by
  have huri : (ExternalOidcDiscovery.ofDoc goodJson).jwksUri ≠ "" := by decide
  refine ⟨⟨not_obtains_of_loads ?_, ?_, by decide⟩, ⟨not_obtains_of_loads ?_, ?_, by decide⟩,
    ⟨not_obtains_hollowKey, ?_⟩, ?_, discovery_new_overloaded⟩
  · rw [Attempt.loads_of_discoveryDoc (discoveryDoc_overloaded _), ofDoc_errorDocument]
    rfl
  · rw [discovery_refresh, discoveryDoc_overloaded, Option.map_some, Option.getD_some, ofDoc_errorDocument]
  · rw [Attempt.loads_of_discoveryDoc (discoveryDoc_noKeySet _), ofDoc_goodJson, jwksDoc_noKeySet]
    decide
  · rw [keys_refresh_of_docs (discoveryDoc_noKeySet _) huri (jwksDoc_noKeySet _ _)]
    rfl
  · rw [keys_refresh_of_docs (discoveryDoc_hollowKey _) huri (jwksDoc_hollowKey _ _)]
    decide
  · rw [discovery_refresh, discoveryDoc_noKeyServer, Option.map_some, Option.getD_some, ofDoc_goodJson]

end ExternalJwksCache

end Picoshift.OAuth
