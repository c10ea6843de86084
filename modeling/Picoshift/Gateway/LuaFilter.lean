/-
# The Lua filter of the gateway

Behind ext_authz, which asks the authentication proxy about a request and puts its answer into headers, the
gateway runs a script on the request (`LUA_FILTER_SCRIPT`).  It passes the access token on in a header of its
own, and takes the cookies of the authentication proxy out of the `cookie` header.

The headers of a request are a MULTIMAP.  `get` joins all values of a name with commas, `replace` and `remove`
treat all of them alike, and `add` leaves those that are there.

* The cookies are right: what is forwarded is, in order, every cookie that is not the proxy's
  (`cookies_right`).
* The token is ADDED.  What the client sent under the same name stays in front of it, so the upstream sees the
  established token alone exactly when the client sent nothing there (`token_alone_iff`).
-/
import Picoshift.Lib.LuaPattern

namespace Picoshift.Gateway

/-! ## 1. Headers -/

/-- The headers of a request, in order; the names are in lower case. -/
structure Headers where
  list : List (String × List UInt8)
  deriving DecidableEq, Repr

namespace Headers

def values (h : Headers) (name : String) : List (List UInt8) :=
  (h.list.filter (·.1 == name)).map (·.2)

/-- `headers():get(name)`. -/
def get (h : Headers) (name : String) : Option (List UInt8) :=
  if (h.values name).isEmpty then none else some (List.intercalate (Utf8.encode ",") (h.values name))

/-- `headers():add(name, value)`. -/
def add (h : Headers) (name : String) (value : List UInt8) : Headers := ⟨h.list ++ [(name, value)]⟩

/-- `headers():remove(name)`. -/
def remove (h : Headers) (name : String) : Headers := ⟨h.list.filter (·.1 != name)⟩

/-- `headers():replace(name, value)`. -/
def replace (h : Headers) (name : String) (value : List UInt8) : Headers := (h.remove name).add name value

variable (h : Headers) (name other : String) (value : List UInt8)

theorem values_add_self : (h.add name value).values name = h.values name ++ [value] := by
  simp [values, add]

theorem values_remove_self : (h.remove name).values name = [] := by
  simp [values, remove, List.filter_filter]

theorem values_replace_self : (h.replace name value).values name = [value] := by
  rw [replace, values_add_self, values_remove_self, List.nil_append]

section Other

variable {name other} (hne : other ≠ name)
include hne

theorem values_add_of_ne : (h.add name value).values other = h.values other := by
  simp [values, add, hne.symm]

theorem values_remove_of_ne : (h.remove name).values other = h.values other := by
  have hboth : ∀ x : String × List UInt8, (x.1 == other && x.1 != name) = (x.1 == other) := by
    intro x
    by_cases hx : x.1 = other
    · simp [hx, hne]
    · simp [hx]
  simp only [values, remove, List.filter_filter, hboth]

theorem values_replace_of_ne : (h.replace name value).values other = h.values other := by
  rw [replace, values_add_of_ne _ _ hne, values_remove_of_ne _ hne]

end Other

theorem remove_replace : (h.replace name value).remove name = h.remove name := by
  simp [replace, remove, add, List.filter_filter]

variable {h name}

theorem get_eq_none : h.get name = none ↔ h.values name = [] := by
  rw [get]
  split <;> simp_all

theorem get_of_singleton {value : List UInt8} (hvalue : h.values name = [value]) : h.get name = some value := by
  rw [get, hvalue]
  simp

/-- What `get` answers depends on the values. -/
theorem get_congr {h' : Headers} (hvalues : h.values name = h'.values name) : h.get name = h'.get name := by
  rw [get, get, hvalues]

end Headers

/-! ## 2. The script -/

/-- The name under which the token is forwarded. -/
def forwardedTokenHeader : String := "x-forwarded-access-token"

/-- The first part of `envoy_on_request`: the access token. -/
def forwardToken (accessToken authUser : Option (List UInt8)) (h : Headers) : Headers :=
  match accessToken with
  | some accessToken =>
    (h.add forwardedTokenHeader accessToken).replace "authorization" (Utf8.encode "Bearer " ++ accessToken)
  | none =>
  match authUser with
  | none => h
  | some _ =>
  match h.get "authorization" with
  | none => h
  | some authHeader =>
  match Lua.strMatch "^Bearer%s+(.+)" authHeader with
  | none => h
  | some token => h.add forwardedTokenHeader token

/-- `cookie_name`, as `generate_lds_yaml` fills it in. -/
def cookieName : String := "_oauth2_proxy"

/-- One round of the loop: the cookie that is inserted into `filtered_cookies`. -/
def filterCookie (cookie : List UInt8) : Option (List UInt8) :=
  match Lua.strMatch "^%s*(.-)%s*$" cookie with
  | none => none
  | some trimmed =>
  if trimmed = [] then none
  else
  match Lua.strMatch "^([^=]+)" trimmed with
  | none => none
  | some name => if (Lua.strMatch ("^" ++ cookieName) name).isSome then none else some trimmed

/-- `filtered_cookies` after the loop. -/
def filteredCookies (cookieHeader : List UInt8) : List (List UInt8) :=
  (Lua.gmatch "([^;]+)" cookieHeader).filterMap filterCookie

/-- The second part of `envoy_on_request`: the cookies. -/
def filterCookies (h : Headers) : Headers :=
  match h.get "cookie" with
  | none => h
  | some cookieHeader =>
    let filtered := filteredCookies cookieHeader
    if filtered.length > 0 then h.replace "cookie" (List.intercalate (Utf8.encode "; ") filtered)
    else h.remove "cookie"

/-- `envoy_on_request`. -/
def envoyOnRequest (h : Headers) : Headers :=
  let accessToken := h.get "x-auth-request-access-token"
  let authUser := h.get "x-auth-request-user"
  let h := forwardToken accessToken authUser h
  if accessToken.isSome || authUser.isSome then filterCookies h else h

/-! ## 3. The patterns -/

theorem parse_cookies :
    Lua.parse "([^;]+)" = some ⟨false, [.enter, .rep (.not 59) .plus, .leave]⟩ := by decide +kernel

theorem parse_trim : Lua.parse "^%s*(.-)%s*$" =
    some ⟨true, [.rep .space .star, .enter, .rep .any .lazy, .leave, .rep .space .star, .eos]⟩ := by
  decide +kernel

theorem parse_name : Lua.parse "^([^=]+)" = some ⟨true, [.enter, .rep (.not 61) .plus, .leave]⟩ := by
  decide +kernel

theorem parse_cookieName : Lua.parse ("^" ++ cookieName) =
    some ⟨true, (Utf8.encode cookieName).map (fun b => .one (.byte b)) ++ []⟩ := by decide +kernel

/-! ## 4. The cookies -/

/-- A text without the white space at its ends. -/
def trim (s : List UInt8) : List UInt8 :=
  (s.dropWhile Lua.Class.space.accepts).rdropWhile Lua.Class.space.accepts

/-- The name of a cookie: the text before the first `=`. -/
def nameOf (cookie : List UInt8) : List UInt8 := cookie.takeWhile (· != 61)

/-- A cookie that is to be forwarded: it has a name, and not one of the authentication proxy's. -/
def Forwarded (cookie : List UInt8) : Prop :=
  cookie ≠ [] ∧ nameOf cookie ≠ [] ∧ ¬ Utf8.encode cookieName <+: nameOf cookie

instance (cookie : List UInt8) : Decidable (Forwarded cookie) := inferInstanceAs (Decidable (_ ∧ _ ∧ _))

/-- The cookies of a header that are to be forwarded, in order. -/
def forwardedCookies (cookieHeader : List UInt8) : List (List UInt8) :=
  ((Str.splitL 59 cookieHeader).map trim).filter fun cookie => Forwarded cookie

theorem strMatch_trim (s : List UInt8) : Lua.strMatch "^%s*(.-)%s*$" s = some (trim s) := by
  rw [Lua.strMatch, parse_trim, Option.bind_some, if_pos rfl, Lua.matchAt_between]
  rfl

theorem strMatch_name (s : List UInt8) :
    Lua.strMatch "^([^=]+)" s = if nameOf s = [] then none else some (nameOf s) := by
  have hname : s.takeWhile (Lua.Class.not 61).accepts = nameOf s := rfl
  rw [Lua.strMatch, parse_name, Option.bind_some, if_pos rfl, Lua.matchAt_run, hname]
  by_cases h : nameOf s = []
  · rw [if_pos h, h]
    rfl
  · rw [if_neg h, if_neg (by simpa using h)]
    rfl

theorem strMatch_cookieName (s : List UInt8) :
    (Lua.strMatch ("^" ++ cookieName) s).isSome ↔ Utf8.encode cookieName <+: s := by
  rw [Lua.strMatch, parse_cookieName, Option.bind_some, if_pos rfl, Lua.matchAt, Lua.run_bytes,
    ← List.isPrefixOf_iff_prefix]
  cases (Utf8.encode cookieName).isPrefixOf s <;> simp [Lua.run]

/-- The loop keeps what is to be forwarded. -/
theorem filterCookie_eq (cookie : List UInt8) :
    filterCookie cookie = if Forwarded (trim cookie) then some (trim cookie) else none := by
  rw [filterCookie, strMatch_trim]
  dsimp only
  by_cases hnil : trim cookie = []
  · rw [if_pos hnil, if_neg fun h => h.1 hnil]
  · rw [if_neg hnil, strMatch_name]
    by_cases hname : nameOf (trim cookie) = []
    · rw [if_pos hname, if_neg fun h => h.2.1 hname]
    · rw [if_neg hname]
      dsimp only
      simp only [strMatch_cookieName]
      by_cases hproxy : Utf8.encode cookieName <+: nameOf (trim cookie)
      · rw [if_pos hproxy, if_neg fun h => h.2.2 hproxy]
      · rw [if_neg hproxy, if_pos ⟨hnil, hname, hproxy⟩]

/-- **What the loop collects.** -/
theorem filteredCookies_eq (cookieHeader : List UInt8) :
    filteredCookies cookieHeader = forwardedCookies cookieHeader := by
  rw [filteredCookies, Lua.gmatch_run parse_cookies, forwardedCookies]
  induction Str.splitL 59 cookieHeader with
  | nil => rfl
  | cons a as ih =>
    rw [List.map_cons, List.filter_cons, List.filter_cons]
    by_cases ha : a = []
    · -- an empty piece is no run, and is not forwarded either
      have hnot : ¬ Forwarded (trim a) := by
        rw [ha]
        exact fun h => h.1 rfl
      rw [if_neg (by simp [ha]), if_neg (by simpa using hnot), ih]
    · rw [if_pos (by simpa using ha), List.filterMap_cons, filterCookie_eq, ih]
      by_cases hforward : Forwarded (trim a)
      · rw [if_pos hforward, if_pos (by simpa using hforward)]
      · rw [if_neg hforward, if_neg (by simpa using hforward)]

theorem trim_trim (s : List UInt8) : trim (trim s) = trim s := by
  have hhead : (trim s).dropWhile Lua.Class.space.accepts = trim s := by
    cases htrim : trim s with
    | nil => rfl
    | cons x t =>
      -- trimming at the end leaves the first byte, which is no white space
      obtain ⟨rest, hrest⟩ : trim s <+: s.dropWhile Lua.Class.space.accepts := List.rdropWhile_prefix _ _
      have hfirst := List.head?_dropWhile_not Lua.Class.space.accepts s
      rw [← hrest, htrim] at hfirst
      exact List.dropWhile_cons_of_neg (by simpa using hfirst)
  rw [trim, hhead]
  exact List.rdropWhile_idempotent _ _

/-- A blank in front is trimmed away. -/
theorem trim_blank (s : List UInt8) : trim (Utf8.encode " " ++ s) = trim s := by
  have hblank : Utf8.encode " " ++ s = 32 :: s := by
    have hencode : Utf8.encode " " = [32] := by decide +kernel
    rw [hencode]
    rfl
  rw [trim, hblank, List.dropWhile_cons_of_pos (by decide), trim]

/-- What is forwarded is trimmed, has no semicolon, and would be forwarded again. -/
theorem of_mem_forwardedCookies {cookieHeader cookie : List UInt8} (h : cookie ∈ forwardedCookies cookieHeader) :
    trim cookie = cookie ∧ 59 ∉ cookie ∧ Forwarded cookie := by
  obtain ⟨hmem, hforward⟩ := List.mem_filter.mp h
  obtain ⟨piece, hpiece, rfl⟩ := List.mem_map.mp hmem
  refine ⟨trim_trim piece, fun hsep => ?_, of_decide_eq_true hforward⟩
  have hsub : trim piece <:+: piece :=
    (List.rdropWhile_prefix _ _).isInfix.trans (List.dropWhile_suffix _).isInfix
  exact Str.not_mem_of_mem_splitL hpiece (hsub.subset hsep)

/-- The filter finds in its own output what it put there. -/
theorem forwardedCookies_intercalate (cookieHeader : List UInt8) :
    forwardedCookies (List.intercalate (Utf8.encode "; ") (forwardedCookies cookieHeader)) =
      forwardedCookies cookieHeader := by
  have hall : ∀ cookie ∈ forwardedCookies cookieHeader, trim cookie = cookie ∧ 59 ∉ cookie ∧ Forwarded cookie :=
    fun cookie hmem => of_mem_forwardedCookies hmem
  generalize forwardedCookies cookieHeader = cookies at hall ⊢
  have hsep : Utf8.encode "; " = 59 :: Utf8.encode " " := by decide +kernel
  have hkeep : cookies.filter (fun cookie => Forwarded cookie) = cookies :=
    List.filter_eq_self.mpr fun cookie hmem => decide_eq_true (hall cookie hmem).2.2
  have htrim : cookies.map trim = cookies :=
    (List.map_congr_left fun cookie hmem => (hall cookie hmem).1).trans (List.map_id _)
  cases cookies with
  | nil => decide +kernel
  | cons cookie cookies =>
    have hpieces : Str.splitL 59 (List.intercalate (Utf8.encode "; ") (cookie :: cookies)) =
        cookie :: cookies.map (Utf8.encode " " ++ ·) := by
      rw [hsep]
      exact Str.splitL_intercalate_cons (by decide +kernel) fun c hc => (hall c hc).2.1
    have hblanks : (cookie :: cookies.map (Utf8.encode " " ++ ·)).map trim = (cookie :: cookies).map trim := by
      rw [List.map_cons, List.map_map, List.map_cons]
      exact congrArg _ (List.map_congr_left fun c _ => trim_blank c)
    rw [forwardedCookies, hpieces, hblanks, htrim, hkeep]

/-- What the filter makes of the headers. -/
theorem filterCookies_eq {h : Headers} {cookieHeader : List UInt8} (hget : h.get "cookie" = some cookieHeader) :
    filterCookies h = if forwardedCookies cookieHeader = [] then h.remove "cookie"
      else h.replace "cookie" (List.intercalate (Utf8.encode "; ") (forwardedCookies cookieHeader)) := by
  rw [filterCookies, hget]
  dsimp only
  rw [filteredCookies_eq]
  cases forwardedCookies cookieHeader <;> rfl

theorem filterCookies_of_none {h : Headers} (hget : h.get "cookie" = none) : filterCookies h = h := by
  rw [filterCookies, hget]

/-- **The filter changes nothing that it has filtered.** -/
theorem filterCookies_idem (h : Headers) : filterCookies (filterCookies h) = filterCookies h := by
  cases hget : h.get "cookie" with
  | none => rw [filterCookies_of_none hget, filterCookies_of_none hget]
  | some cookieHeader =>
    rw [filterCookies_eq hget]
    split
    · exact filterCookies_of_none (Headers.get_eq_none.mpr (Headers.values_remove_self h "cookie"))
    · rename_i hne
      rw [filterCookies_eq (Headers.get_of_singleton (Headers.values_replace_self h "cookie" _)),
        forwardedCookies_intercalate, if_neg hne, Headers.replace, Headers.remove_replace, Headers.replace]

/-- ext_authz has authenticated the request: it says who the user is, or has a token. -/
def Authenticated (h : Headers) : Prop :=
  (h.get "x-auth-request-access-token").isSome ∨ (h.get "x-auth-request-user").isSome

/-- The token is forwarded under its own name and as authorization, and nothing else is changed. -/
theorem values_forwardToken_of_ne (accessToken authUser : Option (List UInt8)) (h : Headers) {name : String}
    (hforwarded : name ≠ forwardedTokenHeader) (hauthorization : name ≠ "authorization") :
    (forwardToken accessToken authUser h).values name = h.values name := by
  unfold forwardToken
  split
  · rw [Headers.values_replace_of_ne _ _ hauthorization, Headers.values_add_of_ne _ _ hforwarded]
  split
  · rfl
  split
  · rfl
  split
  · rfl
  · rw [Headers.values_add_of_ne _ _ hforwarded]

theorem envoyOnRequest_of_authenticated {h : Headers} (hauth : Authenticated h) : envoyOnRequest h =
    filterCookies (forwardToken (h.get "x-auth-request-access-token") (h.get "x-auth-request-user") h) :=
  if_pos (by simpa [Authenticated] using hauth)

/-- **The cookies that are forwarded.**  On an authenticated request the `cookie` header has afterwards, joined by
`; `, exactly the cookies that are to be forwarded, as they were and in their order; it is gone when there
are none; and filtering again changes nothing. -/
theorem cookies_right {h : Headers} (hauth : Authenticated h) {cookieHeader : List UInt8}
    (hget : h.get "cookie" = some cookieHeader) :
    (envoyOnRequest h).values "cookie" = (if forwardedCookies cookieHeader = [] then []
      else [List.intercalate (Utf8.encode "; ") (forwardedCookies cookieHeader)]) ∧
    filterCookies (envoyOnRequest h) = envoyOnRequest h := by
  rw [envoyOnRequest_of_authenticated hauth]
  refine ⟨?_, filterCookies_idem _⟩
  have hcookie : (forwardToken (h.get "x-auth-request-access-token") (h.get "x-auth-request-user") h).values
      "cookie" = h.values "cookie" := values_forwardToken_of_ne _ _ h (by decide) (by decide)
  rw [filterCookies_eq ((Headers.get_congr hcookie).trans hget)]
  split
  · exact Headers.values_remove_self _ _
  · exact Headers.values_replace_self _ _ _

/-- An authenticated request with a cookie of the proxy between two others. -/
def cookieRequest : Headers := ⟨[("x-auth-request-user", Utf8.encode "alice"),
  ("cookie", Utf8.encode " a=1;;_oauth2_proxy_0=x; =y;b ;a=1")]⟩

theorem cookies_right_request :
    (envoyOnRequest cookieRequest).values "cookie" = [Utf8.encode "a=1; b; a=1"] ∧
      filterCookies (envoyOnRequest cookieRequest) = envoyOnRequest cookieRequest := by
  have hauth : Authenticated cookieRequest := Or.inr (by decide +kernel)
  have hget : cookieRequest.get "cookie" = some (Utf8.encode " a=1;;_oauth2_proxy_0=x; =y;b ;a=1") := by
    decide +kernel
  have hright := cookies_right hauth hget
  have hcookies : forwardedCookies (Utf8.encode " a=1;;_oauth2_proxy_0=x; =y;b ;a=1") =
      [Utf8.encode "a=1", Utf8.encode "b", Utf8.encode "a=1"] := by decide +kernel
  rw [hcookies] at hright
  exact ⟨hright.1.trans (by decide +kernel), hright.2⟩

/-! ## 5. The token -/

/-- The token that is established for a request: the access token, or for a known user the bearer token of the
`authorization` header. -/
def establishedToken (h : Headers) : Option (List UInt8) :=
  (h.get "x-auth-request-access-token").or ((h.get "x-auth-request-user").bind fun _ =>
    (h.get "authorization").bind (Lua.strMatch "^Bearer%s+(.+)"))

theorem values_filterCookies_of_ne (h : Headers) {name : String} (hname : name ≠ "cookie") :
    (filterCookies h).values name = h.values name := by
  cases hget : h.get "cookie" with
  | none => rw [filterCookies_of_none hget]
  | some cookieHeader =>
    rw [filterCookies_eq hget]
    split
    · exact Headers.values_remove_of_ne _ hname
    · exact Headers.values_replace_of_ne _ _ hname

/-- The established token is added. -/
theorem values_forwardToken (h : Headers) :
    (forwardToken (h.get "x-auth-request-access-token") (h.get "x-auth-request-user") h).values
      forwardedTokenHeader = h.values forwardedTokenHeader ++ (establishedToken h).toList := by
  have hne : forwardedTokenHeader ≠ "authorization" := by decide
  unfold forwardToken establishedToken
  cases h.get "x-auth-request-access-token" with
  | some accessToken =>
    exact (Headers.values_replace_of_ne _ _ hne).trans (Headers.values_add_self h _ accessToken)
  | none =>
    cases h.get "x-auth-request-user" with
    | none => exact (List.append_nil _).symm
    | some authUser =>
      cases h.get "authorization" with
      | none => exact (List.append_nil _).symm
      | some authHeader =>
        dsimp only [Option.or, Option.bind_some]
        cases Lua.strMatch "^Bearer%s+(.+)" authHeader with
        | none => exact (List.append_nil _).symm
        | some token => exact Headers.values_add_self h _ token

/-- **What the upstream sees**: what the client sent under the name, and the established token behind it. -/
theorem values_envoyOnRequest (h : Headers) : (envoyOnRequest h).values forwardedTokenHeader =
    h.values forwardedTokenHeader ++ (establishedToken h).toList := by
  rw [← values_forwardToken, envoyOnRequest]
  split
  · exact values_filterCookies_of_ne _ (by decide)
  · rfl

/-- The two requests lead to the same values, which are the established token alone if there is one. -/
def TokenAlone (a b : Headers) : Prop :=
  (envoyOnRequest a).values forwardedTokenHeader = (envoyOnRequest b).values forwardedTokenHeader ∧
    ∀ token, establishedToken a = some token → (envoyOnRequest a).values forwardedTokenHeader = [token]

/-- Requests that differ under the name only have the same token. -/
theorem establishedToken_congr {a b : Headers}
    (hsame : a.remove forwardedTokenHeader = b.remove forwardedTokenHeader) :
    establishedToken a = establishedToken b := by
  have hget : ∀ name, name ≠ forwardedTokenHeader → a.get name = b.get name := by
    intro name hne
    refine Headers.get_congr ?_
    rw [← Headers.values_remove_of_ne a hne, hsame, Headers.values_remove_of_ne b hne]
  rw [establishedToken, establishedToken, hget _ (by decide), hget "x-auth-request-user" (by decide),
    hget "authorization" (by decide)]

/-- **When the client has no say in the token.**  Two requests that differ in nothing but what the client sent
under the name lead to the same values, and to the established token alone, exactly when the client sent the
same in both, and nothing if a token is established. -/
theorem token_alone_iff {a b : Headers}
    (hsame : a.remove forwardedTokenHeader = b.remove forwardedTokenHeader) :
    TokenAlone a b ↔ a.values forwardedTokenHeader = b.values forwardedTokenHeader ∧
      ((establishedToken a).isSome → a.values forwardedTokenHeader = []) := by
  rw [TokenAlone, values_envoyOnRequest, values_envoyOnRequest, ← establishedToken_congr hsame,
    List.append_cancel_right_eq]
  refine and_congr_right fun _ => ?_
  cases establishedToken a with
  | none => simp
  | some token => simp

/-- A request that is not authenticated, with a token of the client's own in front of another header or behind it. -/
def anonymousRequest (front : Bool) : Headers :=
  let own := (forwardedTokenHeader, Utf8.encode "mine")
  let accept := ("accept", Utf8.encode "*/*")
  ⟨if front then [own, accept] else [accept, own]⟩

theorem token_alone_iff_anonymous : anonymousRequest true ≠ anonymousRequest false ∧
    TokenAlone (anonymousRequest true) (anonymousRequest false) :=
  ⟨by decide +kernel, (token_alone_iff (by decide +kernel)).mpr ⟨by decide +kernel, by decide +kernel⟩⟩

/-- An authenticated request with an access token. -/
def tokenRequest (sent : List (String × List UInt8)) : Headers :=
  ⟨("x-auth-request-access-token", Utf8.encode "real") :: sent⟩

/-- A client that sends a token of its own: the upstream sees it in front of the real one. -/
theorem token_alone_not :
    (envoyOnRequest (tokenRequest [(forwardedTokenHeader, Utf8.encode "forged")])).values forwardedTokenHeader =
        [Utf8.encode "forged", Utf8.encode "real"] ∧
      ¬ TokenAlone (tokenRequest []) (tokenRequest [(forwardedTokenHeader, Utf8.encode "forged")]) := by
  have hforged : (envoyOnRequest (tokenRequest [(forwardedTokenHeader, Utf8.encode "forged")])).values
      forwardedTokenHeader = [Utf8.encode "forged", Utf8.encode "real"] := by decide +kernel
  refine ⟨hforged, fun h => ?_⟩
  rw [TokenAlone, hforged] at h
  exact absurd h.1 (by decide +kernel)

end Picoshift.Gateway
