/-
# Tokens of an external provider

`oauth/byoidc.rs`: in byoidc mode this server issues no tokens of its own.  A bearer token is whatever the
provider signed, and `validate_token` decides on it: what stands before its first dot is a header that names a
key of the loaded key set, and `jsonwebtoken::decode` checks the token with that key.

Which keys are loaded is the result of a loop in a loop.  `new` tries up to five times, and the keys are those
of the first attempt that brought one (`lookup_new`); within a key set, the last entry under a name that gives a
key counts (`lookup_foldl_addKey`).

`byoidc_userinfo_names_iff` says whom the userinfo endpoint names, from the documents that the provider
answered with when this server started.  What a key is and which tokens pass with it is left to the crate.
-/
import Picoshift.OAuth.ExternalJwks
import Picoshift.OAuth.Userinfo

namespace Picoshift.OAuth

/-! ## 1. `validate_token` -/

/-- The header of a token: what stands before the first dot, as base64url of JSON. -/
def tokenHeader (crates : Crates) (token : String) : Option Json :=
  let headerPart := String.ofList ((Str.splitL '.' token.toList).headD [])
  (Base64.decode Base64.urlSafeNoPad headerPart).bind crates.fromSlice

/-- `ExternalJwksCache::validate_token`. -/
def validateToken (crates : Crates) (keys : List (String × crates.DecodingKey)) (unixSecs : Nat)
    (token : String) : Option Json :=
  match tokenHeader crates token with
  | none => none
  | some header =>
  match keys.lookup (strMember header "kid") with
  | none => none
  | some dk => crates.jwtDecode dk unixSecs token

/-- A token that one of the keys vouches for: its header names the key, and it passes with that key. -/
inductive Vouched (crates : Crates) (keys : String → Option crates.DecodingKey) (unixSecs : Nat) (token : String)
    (claims : Json) : Prop where
  | intro {header : Json} {dk : crates.DecodingKey} (hheader : tokenHeader crates token = some header)
      (hkey : keys (strMember header "kid") = some dk)
      (hdecode : crates.jwtDecode dk unixSecs token = some claims)

/-- **What `validate_token` accepts** is what a key vouches for. -/
theorem validateToken_iff {crates : Crates} {keys : List (String × crates.DecodingKey)} {unixSecs : Nat}
    {token : String} {claims : Json} :
    validateToken crates keys unixSecs token = some claims ↔
      Vouched crates (fun kid => keys.lookup kid) unixSecs token claims := by
  constructor
  · intro h
    unfold validateToken at h
    split at h
    · cases h
    rename_i header hheader
    split at h
    · cases h
    rename_i dk hdk
    exact ⟨hheader, hdk, h⟩
  · rintro ⟨hheader, hkey, hdecode⟩
    simp only [validateToken, hheader, hkey, hdecode]

/-! ## 2. Which keys there are -/

section Loaded

variable (crates : Crates)

/-- The entries of the key set that an attempt brings. -/
def Attempt.keySet (x : Attempt) (issuerUrl : String) : List Json :=
  match x.discoveryDoc crates issuerUrl with
  | none => []
  | some doc =>
    ((x.jwksDoc crates issuerUrl (ExternalOidcDiscovery.ofDoc doc).jwksUri).map jwksKeys).getD []

/-- The key that the attempts load under a name. -/
def loadedKey (issuerUrl : String) (attempts : List Attempt) (kid : String) : Option crates.DecodingKey :=
  (attempts.find? fun x => x.loads crates issuerUrl).bind fun x => publishedFor crates (x.keySet crates issuerUrl) kid

end Loaded

namespace ExternalJwksCache

variable {crates : Crates} {cache : ExternalJwksCache crates} {issuerUrl : String} {x : Attempt}

/-- The keys of an attempt that finds some. -/
theorem keys_refresh_of_loads (hloads : x.loads crates issuerUrl = true) :
    (cache.refresh issuerUrl x).keys = (x.keySet crates issuerUrl).foldl (addKey crates) [] := by
  have hwritten := refreshed cache issuerUrl x
  rw [hloads] at hwritten
  generalize cache.refresh issuerUrl x = after at hwritten ⊢
  generalize hfound : true = found at hwritten
  cases hwritten with
  | nothing => cases hfound
  | endpoints => cases hfound
  | both hdoc huri hjwks => simp only [Attempt.keySet, hdoc, hjwks, Option.map_some, Option.getD_some]

/-- The keys that the retry loop ends with. -/
theorem lookup_retry (attempts : List Attempt) (hempty : cache.keys = []) (kid : String) :
    (retry issuerUrl attempts cache).keys.lookup kid = loadedKey crates issuerUrl attempts kid := by
  induction attempts generalizing cache with
  | nil => simp [retry, hempty, loadedKey]
  | cons x attempts ih =>
    have hkeys : (cache.refresh issuerUrl x).keys = [] ↔ x.loads crates issuerUrl = false := keys_refresh hempty
    rw [retry_cons attempts hempty]
    cases hloads : x.loads crates issuerUrl with
    | false =>
      rw [if_neg Bool.false_ne_true, ih (hkeys.mpr hloads), loadedKey, loadedKey,
        List.find?_cons_of_neg (by simpa using hloads)]
    | true =>
      rw [if_pos rfl, keys_refresh_of_loads hloads, lookup_foldl_addKey, loadedKey,
        List.find?_cons_of_pos (by exact hloads), Option.bind_some]
      exact Option.or_none

/-- The keys that this server starts with. -/
theorem lookup_new (issuerUrl : String) (attempt : Nat → Attempt) (kid : String) :
    (new issuerUrl attempt : ExternalJwksCache crates).keys.lookup kid = loadedKey crates issuerUrl ((List.range' 1 5).map attempt) kid :=
  lookup_retry _ rfl kid

end ExternalJwksCache

/-! ## 3. Userinfo -/

/-- The name that claims give their user. -/
def byoidcUsername (claims : Json) : String :=
  ((((claims.get "preferred_username").orElse fun _ => claims.get "email").orElse
    fun _ => claims.get "sub").bind Json.asStr).getD "unknown"

/-- The groups that claims give their user. -/
def byoidcGroups (claims : Json) : List String :=
  (((claims.get "groups").bind Json.asArray).map fun arr => arr.filterMap Json.asStr).getD
    ["system:authenticated"]

/-- `handle_byoidc_userinfo`. -/
def handleByoidcUserinfo (crates : Crates) (externalJwks : Option (ExternalJwksCache crates)) (unixSecs : Nat)
    (authorization : Option String) : Response :=
  match externalJwks with
  | none => jsonResponse 500 (errorJson "byoidc_not_configured" none)
  | some cache =>
  match Str.stripPrefix (authorization.getD "") "Bearer " with
  | none => jsonResponse 401 (errorJson "missing bearer token" none)
  | some token =>
  match validateToken crates cache.keys unixSecs token with
  | none => jsonResponse 401 (errorJson "invalid_token" none)
  | some claims =>
    jsonResponse 200
      (.obj
        [("sub", .str (byoidcUsername claims)),
          ("name", .str (byoidcUsername claims)),
          ("preferred_username", .str (byoidcUsername claims)),
          ("email", .str (strMember claims "email")),
          ("groups", .ofStrings (byoidcGroups claims))])

theorem stripPrefix_eq_some {s p t : String} : Str.stripPrefix s p = some t ↔ s = p ++ t := by
  constructor
  · intro h
    have hstarts : Str.startsWith s p = true := by
      by_contra hno
      simp [Str.stripPrefix, hno] at h
    obtain ⟨t', rfl⟩ := Str.startsWith_iff.mp hstarts
    rw [Str.stripPrefix_append] at h
    rw [Option.some.inj h]
  · rintro rfl
    exact Str.stripPrefix_append p t

/-- **Whom the userinfo endpoint names**, and with which documents of the provider: one who bears a token
that a key vouches for, which the provider published when this server started. -/
theorem byoidc_userinfo_names_iff (crates : Crates) (issuerUrl : String) (attempt : Nat → Attempt)
    (unixSecs : Nat) (authorization : Option String) (username : String) :
    Names (handleByoidcUserinfo crates (some (ExternalJwksCache.new issuerUrl attempt)) unixSecs authorization)
        username ↔
      ∃ token claims, authorization = some ("Bearer " ++ token) ∧
        Vouched crates (loadedKey crates issuerUrl ((List.range' 1 5).map attempt)) unixSecs token claims ∧
        byoidcUsername claims = username := by
  have hkeys : (fun kid => (ExternalJwksCache.new issuerUrl attempt : ExternalJwksCache crates).keys.lookup kid) =
      loadedKey crates issuerUrl ((List.range' 1 5).map attempt) :=
    funext (ExternalJwksCache.lookup_new issuerUrl attempt)
  rw [← hkeys]
  simp only [← validateToken_iff]
  constructor
  · intro hnames
    unfold handleByoidcUserinfo at hnames
    simp only at hnames
    split at hnames
    · exact absurd hnames.1 (by decide)
    rename_i token htoken
    split at hnames
    · exact absurd hnames.1 (by decide)
    rename_i claims hclaims
    refine ⟨token, claims, ?_, hclaims, Option.some.inj hnames.2⟩
    have hvalue := stripPrefix_eq_some.mp htoken
    cases authorization with
    | none => exact absurd (congrArg String.toList hvalue) (by simp)
    | some auth => rw [← hvalue, Option.getD_some]
  · rintro ⟨token, claims, rfl, hclaims, rfl⟩
    simp only [handleByoidcUserinfo, Option.getD_some, Str.stripPrefix_append, hclaims]
    exact ⟨rfl, rfl⟩

end Picoshift.OAuth
