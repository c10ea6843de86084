/-
# Two ways to log in

A caller may send credentials in a Basic header, or load the login page and have the browser
post them.  Both should come to the same: a code for the same user and client, with the same
challenge, sent to the same place.

The page carries the request through HTML and back, and what it carries is carried faithfully
(`submitFields_loginFormHtml`): every hidden field is posted with the value the request had.
But it carries only FOUR of the parameters.  The two of PKCE are not among them, so a code
that was asked for with a challenge is issued without one.  The other difference is the empty
user name, which the form refuses and the header does not.

`logins_agree_iff` is the exact condition.
-/
import Picoshift.Lib.Html
import Picoshift.OAuth.Handlers

namespace Picoshift.OAuth

/-! ## 1. Escaping -/

/-- What `html_escape` makes of one character. -/
def escapeChar (c : Char) : List Char :=
  if c = '&' then ['&', 'a', 'm', 'p', ';']
  else if c = '<' then ['&', 'l', 't', ';']
  else if c = '>' then ['&', 'g', 't', ';']
  else if c = '"' then ['&', 'q', 'u', 'o', 't', ';']
  else [c]

/-- The four replacements in a row work character by character: none of them produces a
character that a later one replaces. -/
theorem toList_htmlEscape (s : String) : (htmlEscape s).toList = s.toList.flatMap escapeChar := by
  have hchar : ∀ c : Char,
      ((((if c = '&' then "&amp;".toList else [c]).flatMap
        fun x => if x = '<' then "&lt;".toList else [x]).flatMap
        fun x => if x = '>' then "&gt;".toList else [x]).flatMap
        fun x => if x = '"' then "&quot;".toList else [x]) = escapeChar c := by
    intro c
    unfold escapeChar
    by_cases h1 : c = '&'
    · subst h1; decide
    by_cases h2 : c = '<'
    · subst h2; decide
    by_cases h3 : c = '>'
    · subst h3; decide
    by_cases h4 : c = '"'
    · subst h4; decide
    simp only [if_neg h1, if_neg h2, if_neg h3, if_neg h4, List.flatMap_cons, List.flatMap_nil,
      List.append_nil]
  simp only [htmlEscape, replaceChar, String.toList_ofList, List.flatMap_assoc]
  exact List.flatMap_congr fun c _ => by rw [← hchar c]; simp only [List.flatMap_assoc]

/-- The references that escaping writes. -/
def references : List String := ["&amp;", "&lt;", "&gt;", "&quot;"]

/-- A character is replaced by a reference, or it is none of the four and stays. -/
theorem escapeChar_cases (c : Char) :
    (∃ body, '&' ∉ body ∧ escapeChar c = '&' :: body ∧ ∃ r ∈ references, r.toList = '&' :: body) ∨
      (escapeChar c = [c] ∧ c ≠ '&' ∧ c ≠ '<' ∧ c ≠ '>' ∧ c ≠ '"') := by
  unfold escapeChar
  split_ifs with h1 h2 h3 h4
  · exact Or.inl ⟨_, by decide, rfl, "&amp;", by decide, by decide⟩
  · exact Or.inl ⟨_, by decide, rfl, "&lt;", by decide, by decide⟩
  · exact Or.inl ⟨_, by decide, rfl, "&gt;", by decide, by decide⟩
  · exact Or.inl ⟨_, by decide, rfl, "&quot;", by decide, by decide⟩
  · exact Or.inr ⟨rfl, h1, h2, h3, h4⟩

/-- None of the characters that mean something in a tag is left. -/
theorem not_mem_htmlEscape {x : Char} (hx : x = '<' ∨ x = '>' ∨ x = '"') (s : String) :
    x ∉ (htmlEscape s).toList := by
  have hrefs : references.all (fun r => r.toList.all fun c => c != '<' && c != '>' && c != '"') =
      true := by decide
  rw [toList_htmlEscape, List.mem_flatMap]
  rintro ⟨c, -, hc⟩
  rcases escapeChar_cases c with ⟨body, -, heq, r, hr, hchars⟩ | ⟨heq, -, hlt, hgt, hquote⟩
  · rw [heq, ← hchars] at hc
    have hplain := List.all_eq_true.mp (List.all_eq_true.mp hrefs r hr) x hc
    rcases hx with rfl | rfl | rfl <;> exact absurd hplain (by decide)
  · rw [heq, List.mem_singleton] at hc
    subst hc
    rcases hx with h | h | h
    · exact hlt h
    · exact hgt h
    · exact hquote h

/-- An escaped text can stand between double quotes. -/
theorem quote_not_mem_htmlEscape (s : String) : '"' ∉ (htmlEscape s).toList :=
  not_mem_htmlEscape (Or.inr (Or.inr rfl)) s

theorem decodeRefs_escapeChar (c : Char) (rest : List Char) :
    Html.decodeRefs (escapeChar c ++ rest) = c :: Html.decodeRefs rest := by
  unfold escapeChar
  split_ifs with h1 h2 h3 h4
  · subst h1; rfl
  · subst h2; rfl
  · subst h3; rfl
  · subst h4; rfl
  · rw [List.singleton_append, Html.decodeRefs_cons h1]

/-- Decoding undoes escaping. -/
theorem decodeRefs_htmlEscape (s : String) : Html.decodeRefs (htmlEscape s).toList = s.toList := by
  rw [toList_htmlEscape]
  induction s.toList with
  | nil => rfl
  | cons c l ih => rw [List.flatMap_cons, decodeRefs_escapeChar, ih]

/-! ## 2. The page and back -/

/-- What the user types into the visible fields. -/
def typed (username password : String) : List (String × String) :=
  [("username", username), ("password", password)]

/-- The names of the hidden fields. -/
def hiddenNames : List String := ["client_id", "redirect_uri", "state", "response_type"]

/-- The tag of a hidden field. -/
def hiddenTag (name : String) : Html.Tag := ⟨"input".toList, [("type", "hidden"), ("name", name)]⟩

theorem scan_hiddenOpen : ∀ name ∈ hiddenNames,
    Html.scan .text ("    <input type=\"hidden\" name=\"" ++ name ++ "\" value=\"").toList =
      ([], .quoted (hiddenTag name) "value".toList '"' []) := by
  decide +kernel

theorem scan_hiddenClose (tag : Html.Tag) (name value : List Char) :
    Html.scan (.quoted tag name '"' value) "\">\n".toList = ([tag.push name value], .text) := by
  rw [Str.toList_eq_of_eq_ofList (s := "\">\n") rfl]
  rfl

/-- A hidden field is one input tag, with the value it was given. -/
theorem scan_hiddenInput {name : String} (hname : name ∈ hiddenNames) (value : String) :
    Html.scan .text (hiddenInput name value).toList =
      ([(hiddenTag name).push "value".toList (htmlEscape value).toList], .text) := by
  have hvalue := Html.scan_quoted (hiddenTag name) "value".toList (quote_not_mem_htmlEscape value) []
  rw [List.nil_append] at hvalue
  have hall := Html.scan_append (Html.scan_append (scan_hiddenOpen name hname) hvalue)
    (scan_hiddenClose (hiddenTag name) "value".toList (htmlEscape value).toList)
  rw [← String.toList_append, ← String.toList_append] at hall
  exact hall

/-- The hidden field with this name and value, as a browser reads it. -/
def hiddenField (name value : String) : Html.Tag :=
  ⟨"input".toList, [("type", "hidden"), ("name", name), ("value", value)]⟩

theorem push_hiddenTag (name value : String) :
    (hiddenTag name).push "value".toList (htmlEscape value).toList = hiddenField name value := by
  rw [Html.Tag.push, decodeRefs_htmlEscape, String.ofList_toList, String.ofList_toList]
  rfl

/-- It is posted with that value, decoded. -/
theorem submitted_hidden (fields : List (String × String)) (name value : String) :
    Html.submitted fields ((hiddenTag name).push "value".toList (htmlEscape value).toList) =
      some (name, value) := by
  have hinput : (hiddenField name value).name = "input".toList := rfl
  rw [push_hiddenTag, Html.submitted, if_pos hinput]
  rfl

/-- A piece of the page that leaves the reader in the text and submits `posted`. -/
def Posts (fields : List (String × String)) (piece : String) (posted : List (String × String)) :
    Prop :=
  (Html.scan .text piece.toList).1.filterMap (Html.submitted fields) = posted ∧
    (Html.scan .text piece.toList).2 = .text

theorem Posts.append {fields : List (String × String)} {a b : String}
    {p q : List (String × String)} (ha : Posts fields a p) (hb : Posts fields b q) :
    Posts fields (a ++ b) (p ++ q) := by
  have hsa : Html.scan .text a.toList = ((Html.scan .text a.toList).1, .text) := Prod.ext rfl ha.2
  have hsb : Html.scan .text b.toList = ((Html.scan .text b.toList).1, .text) := Prod.ext rfl hb.2
  have hscan := Html.scan_append hsa hsb
  rw [Posts, String.toList_append, hscan, List.filterMap_append, ha.1, hb.1]
  exact ⟨rfl, rfl⟩

theorem posts_hiddenInput (fields : List (String × String)) (name : String)
    (hname : name ∈ hiddenNames) (value : String) :
    Posts fields (hiddenInput name value) [(name, value)] := by
  simp only [Posts, scan_hiddenInput hname, List.filterMap_cons, submitted_hidden,
    List.filterMap_nil, and_self]

/-- A fixed piece of the page submits what its input tags submit. -/
theorem posts_of_inputs {piece : String} (fields : List (String × String)) (ts : List Html.Tag)
    (htags : (Html.scan .text piece.toList).1.filter (fun t => t.name = "input".toList) = ts)
    (hmode : (Html.scan .text piece.toList).2 = .text) :
    Posts fields piece (ts.filterMap (Html.submitted fields)) := by
  refine ⟨?_, hmode⟩
  rw [Html.filterMap_submitted, htags]

section Pieces

set_option maxRecDepth 100000

theorem posts_pageTop (fields : List (String × String)) : Posts fields pageTop [] := by
  refine posts_of_inputs fields [] ?_ ?_ <;>
    rw [Str.toList_eq_of_eq_ofList (s := pageTop) rfl] <;> decide +kernel

theorem posts_errorBlock (fields : List (String × String)) (error : Bool) :
    Posts fields (errorBlock error) [] := by
  cases error with
  | false => exact ⟨rfl, rfl⟩
  | true =>
    refine posts_of_inputs fields [] ?_ ?_ <;>
      rw [Str.toList_eq_of_eq_ofList (s := errorBlock true) rfl] <;> decide +kernel

theorem posts_formTop (fields : List (String × String)) : Posts fields formTop [] := by
  refine posts_of_inputs fields [] ?_ ?_ <;>
    rw [Str.toList_eq_of_eq_ofList (s := formTop) rfl] <;> decide +kernel

/-- The visible fields submit what was typed. -/
theorem posts_pageBottom (username password : String) :
    Posts (typed username password) pageBottom (typed username password) := by
  refine posts_of_inputs _
    [⟨"input".toList, [("type", "text"), ("id", "username"), ("name", "username"),
        ("autocomplete", "username"), ("autofocus", "")]⟩,
      ⟨"input".toList, [("type", "password"), ("id", "password"), ("name", "password"),
        ("autocomplete", "current-password")]⟩] ?_ ?_ <;>
    rw [Str.toList_eq_of_eq_ofList (s := pageBottom) rfl] <;> decide +kernel

end Pieces

/-- The page submits the request's four parameters and the credentials. -/
theorem submitFields_loginFormHtml (clientId redirectUri state responseType : String)
    (error : Bool) (username password : String) :
    Html.submitFields (loginFormHtml clientId redirectUri state responseType error)
        (typed username password) =
      [("client_id", clientId), ("redirect_uri", redirectUri), ("state", state),
        ("response_type", responseType), ("username", username), ("password", password)] := by
  have h := (((((((posts_pageTop (typed username password)).append
    (posts_errorBlock _ error)).append (posts_formTop _)).append
    (posts_hiddenInput _ "client_id" (by decide) clientId)).append
    (posts_hiddenInput _ "redirect_uri" (by decide) redirectUri)).append
    (posts_hiddenInput _ "state" (by decide) state)).append
    (posts_hiddenInput _ "response_type" (by decide) responseType)).append (posts_pageBottom username password)
  exact h.1

/-! ## 3. The two logins -/

/-- GET with a Basic header. -/
def basicLogin (crates : Crates) (env : Env) (st : OAuthState) (query : Option String)
    (username password : String) : OAuthState × Response :=
  handleAuthorizeGet crates env st ⟨query, some (basicHeader username password), false⟩

/-- The page of an answer, if it is one. -/
def Response.page (r : Response) : Option String :=
  match r.header "content-type", r.body with
  | some "text/html; charset=utf-8", .text page => some page
  | _, _ => none

/-- GET without credentials, and the browser posts the form of the page that comes back. -/
def formLogin (crates : Crates) (env env' : Env) (st : OAuthState) (query : Option String)
    (username password : String) : OAuthState × Response :=
  let shown := handleAuthorizeGet crates env st ⟨query, none, false⟩
  match shown.2.page with
  | some page =>
    handleAuthorizePost crates env' shown.1
      (Form.serialize (Html.submitFields page (typed username password)))
  | none => shown

/-- A request that names a client and one of its redirect URIs, with good credentials. -/
structure Eligible (clients : String → Option Json) (st : OAuthState) (query : Option String)
    (username password clientId redirectUri : String) : Prop where
  clientId_eq : (parseQuery query).get "client_id" = some clientId
  redirectUri_eq : (parseQuery query).get "redirect_uri" = some redirectUri
  redirect_matches : ∃ secret uris, validateClient clients clientId = some (secret, uris) ∧
    uriMatches uris redirectUri = true
  authenticates : (st.userStore.authenticate username password).isSome = true

/-- What the Basic login issues. -/
def basicGrant (query : Option String) (username clientId redirectUri : String) : Grant where
  username := username
  clientId := clientId
  redirectUri := redirectUri
  reqState := ((parseQuery query).get "state").getD ""
  codeChallenge := (parseQuery query).get "code_challenge"
  codeChallengeMethod := (parseQuery query).get "code_challenge_method"

/-- What the form login issues: the page has no field for the challenge. -/
def formGrant (query : Option String) (username clientId redirectUri : String) : Grant :=
  { basicGrant query username clientId redirectUri with
    codeChallenge := none
    codeChallengeMethod := none }

theorem stripPrefix_basicHeader (username password : String) :
    ((some (basicHeader username password)).bind fun auth => Str.stripPrefix auth "Basic ") =
      some (Base64.encode Base64.standard (Utf8.encode (username ++ ":" ++ password))) := by
  rw [Option.bind_some, basicHeader, Str.stripPrefix_append]

section Outcomes

variable {crates : Crates} {env env' : Env} {st : OAuthState} {query : Option String}
  {username password clientId redirectUri : String}

theorem basicLogin_of_eligible (hcolon : ':' ∉ username.toList)
    (h : Eligible env.clients st query username password clientId redirectUri) :
    basicLogin crates env st query username password =
      (basicGrant query username clientId redirectUri).issue crates env st := by
  obtain ⟨secret, uris, hclient, hmatch⟩ := h.redirect_matches
  obtain ⟨entry, hentry⟩ := Option.isSome_iff_exists.mp h.authenticates
  simp only [basicLogin, handleAuthorizeGet, h.clientId_eq, h.redirectUri_eq, hclient, hmatch,
    stripPrefix_basicHeader, decodeBasic_encode hcolon, hentry, Bool.true_eq_false, if_false]
  rfl

/-- A login by Basic header issues a code only for an eligible request. -/
theorem eligible_of_basicLogin (hcolon : ':' ∉ username.toList)
    (h : (basicLogin crates env st query username password).2.status = 302) :
    ∃ clientId redirectUri,
      Eligible env.clients st query username password clientId redirectUri := by
  simp only [basicLogin, handleAuthorizeGet, stripPrefix_basicHeader,
    decodeBasic_encode hcolon] at h
  split at h
  · exact absurd h (by simp [textResponse])
  rename_i clientId hc
  split at h
  · exact absurd h (by simp [textResponse])
  rename_i redirectUri hr
  split at h
  · exact absurd h (by simp [textResponse])
  rename_i secret uris hclient
  split at h
  · exact absurd h (by simp [textResponse])
  rename_i hmatch
  split at h
  · rename_i entry hentry
    exact ⟨clientId, redirectUri, hc, hr, ⟨secret, uris, hclient, by simpa using hmatch⟩,
      by rw [hentry]; rfl⟩
  · exact absurd h (by simp [unauthorized])

/-- The parameters that the browser posts. -/
theorem parseFormBody_submitFields (clientId redirectUri state responseType : String)
    (error : Bool) (username password : String) :
    parseFormBody (Form.serialize (Html.submitFields
        (loginFormHtml clientId redirectUri state responseType error) (typed username password))) =
      Map.ofPairs [("client_id", clientId), ("redirect_uri", redirectUri), ("state", state),
        ("response_type", responseType), ("username", username), ("password", password)] := by
  rw [parseFormBody, Form.parse_serialize, submitFields_loginFormHtml]

/-- What the form posts, and to what end. -/
theorem handleAuthorizePost_submitFields (clientId redirectUri state responseType : String)
    (error : Bool) :
    handleAuthorizePost crates env st (Form.serialize (Html.submitFields
        (loginFormHtml clientId redirectUri state responseType error)
        (typed username password))) =
      if username = "" ∨ st.userStore.authenticate username password = none then
        (st, htmlResponse 200 (loginFormHtml clientId redirectUri state responseType true))
      else
      match validateClient env.clients clientId with
      | none => (st, textResponse 400 "unknown client_id\n")
      | some (_, redirectUris) =>
        if uriMatches redirectUris redirectUri = false then
          (st, textResponse 400 "redirect_uri mismatch\n")
        else issueAuthCode crates env st username clientId redirectUri state none none := by
  rw [handleAuthorizePost, parseFormBody_submitFields]
  rfl

/-- A request that names a client and one of its redirect URIs is shown the login page. -/
theorem formLogin_of_matches (crates : Crates) (env' : Env) (st : OAuthState) (username password : String)
    (hc : (parseQuery query).get "client_id" = some clientId)
    (hr : (parseQuery query).get "redirect_uri" = some redirectUri) {secret : String}
    {uris : List String} (hclient : validateClient env.clients clientId = some (secret, uris))
    (hmatch : uriMatches uris redirectUri = true) :
    ∃ responseType error, formLogin crates env env' st query username password =
      handleAuthorizePost crates env' st (Form.serialize (Html.submitFields
        (loginFormHtml clientId redirectUri (((parseQuery query).get "state").getD "")
          responseType error) (typed username password))) := by
  refine ⟨((parseQuery query).get "response_type").getD "", ((parseQuery query).get "error").isSome,
    ?_⟩
  simp only [formLogin, handleAuthorizeGet, hc, hr, hclient, hmatch, Option.bind_none,
    Bool.true_eq_false, if_false]
  rfl

theorem formLogin_of_eligible (henv : env'.clients = env.clients) (hname : username ≠ "")
    (h : Eligible env.clients st query username password clientId redirectUri) :
    formLogin crates env env' st query username password =
      (formGrant query username clientId redirectUri).issue crates env' st := by
  obtain ⟨secret, uris, hclient, hmatch⟩ := h.redirect_matches
  obtain ⟨entry, hentry⟩ := Option.isSome_iff_exists.mp h.authenticates
  obtain ⟨responseType, error, hform⟩ := formLogin_of_matches crates env' st username password
    h.clientId_eq h.redirectUri_eq hclient hmatch
  rw [hform, handleAuthorizePost_submitFields, if_neg (by simp [hname, hentry]), henv, hclient]
  simp only [hmatch, Bool.true_eq_false, if_false]
  rfl

/-- A login by form issues a code only for an eligible request with a user name. -/
theorem eligible_of_formLogin
    (h : (formLogin crates env env' st query username password).2.status = 302) :
    username ≠ "" ∧ ∃ clientId redirectUri,
      Eligible env.clients st query username password clientId redirectUri := by
  cases hc : (parseQuery query).get "client_id" with
  | none => exact absurd h (by simp [formLogin, handleAuthorizeGet, hc, textResponse, Response.page,
      Response.header])
  | some clientId =>
  cases hr : (parseQuery query).get "redirect_uri" with
  | none => exact absurd h (by simp [formLogin, handleAuthorizeGet, hc, hr, textResponse,
      Response.page, Response.header])
  | some redirectUri =>
  rcases hclient : validateClient env.clients clientId with _ | ⟨secret, uris⟩
  · exact absurd h (by simp [formLogin, handleAuthorizeGet, hc, hr, hclient, textResponse,
      Response.page, Response.header])
  cases hmatch : uriMatches uris redirectUri with
  | false => exact absurd h (by simp [formLogin, handleAuthorizeGet, hc, hr, hclient, hmatch,
      textResponse, Response.page, Response.header])
  | true =>
    -- the page is shown, and what is left are the checks of the POST
    obtain ⟨responseType, error, hform⟩ := formLogin_of_matches crates env' st username password hc hr
      hclient hmatch
    rw [hform, handleAuthorizePost_submitFields] at h
    split at h
    · exact absurd h (by simp [htmlResponse])
    · rename_i hauth
      rw [not_or] at hauth
      exact ⟨hauth.1, clientId, redirectUri, hc, hr, ⟨secret, uris, hclient, hmatch⟩,
        Option.isSome_iff_ne_none.mpr hauth.2⟩

end Outcomes

/-! ## 4. Agreement -/

/-- The two answers carry codes whose records agree on everything but their age, and are the same
redirect but for the code. -/
def SameIssue (crates : Crates) (code₁ code₂ : String) (out₁ out₂ : OAuthState × Response) : Prop :=
  ∃ authCode₁ authCode₂ redirectUri reqState,
    out₁.1.codes.get code₁ = some authCode₁ ∧ out₂.1.codes.get code₂ = some authCode₂ ∧
    authCode₁.username = authCode₂.username ∧ authCode₁.clientId = authCode₂.clientId ∧
    authCode₁.codeChallenge = authCode₂.codeChallenge ∧
    authCode₁.codeChallengeMethod = authCode₂.codeChallengeMethod ∧
    out₁.2.header "location" = some (crates.url.asStr (redirectUrl crates.url redirectUri code₁ reqState)) ∧
    out₂.2.header "location" = some (crates.url.asStr (redirectUrl crates.url redirectUri code₂ reqState))

/-- Both issue a code or neither does, and if they do it is the same but for its value. -/
def LoginsAgree (crates : Crates) (code₁ code₂ : String) (out₁ out₂ : OAuthState × Response) : Prop :=
  (out₁.2.status = 302 ↔ out₂.2.status = 302) ∧
    (out₁.2.status = 302 → SameIssue crates code₁ code₂ out₁ out₂)

/-- Two issued codes agree exactly if their grants do, when they go to the same place. -/
theorem sameIssue_issue_iff (crates : Crates) (env env' : Env) (st st' : OAuthState) (g g' : Grant)
    (hname : g.username = g'.username) (hid : g.clientId = g'.clientId)
    (huri : g.redirectUri = g'.redirectUri) (hstate : g.reqState = g'.reqState) :
    SameIssue crates env.rand env'.rand (g.issue crates env st) (g'.issue crates env' st') ↔
      g.codeChallenge = g'.codeChallenge ∧ g.codeChallengeMethod = g'.codeChallengeMethod := by
  constructor
  · rintro ⟨ac, ac', -, -, h, h', -, -, hch, hm, -, -⟩
    rw [Grant.issue_stored, Option.some.injEq] at h h'
    subst h h'
    exact ⟨hch, hm⟩
  · rintro ⟨hch, hm⟩
    refine ⟨_, _, g.redirectUri, g.reqState, g.issue_stored crates env st, g'.issue_stored crates env' st',
      hname, hid, hch, hm, g.issue_location crates env st, ?_⟩
    rw [huri, hstate, g'.issue_location crates env' st']

/-- For an eligible request the logins agree exactly if the form has nothing to lose. -/
theorem loginsAgree_iff_of_eligible (crates : Crates) (env env₁ env₂ : Env) {st : OAuthState} {query : Option String}
    {username password clientId redirectUri : String} (h₁ : env₁.clients = env.clients)
    (h₂ : env₂.clients = env.clients) (hcolon : ':' ∉ username.toList)
    (h : Eligible env.clients st query username password clientId redirectUri) :
    LoginsAgree crates env.rand env₂.rand (basicLogin crates env st query username password)
        (formLogin crates env₁ env₂ st query username password) ↔
      username ≠ "" ∧ (parseQuery query).get "code_challenge" = none ∧
        (parseQuery query).get "code_challenge_method" = none := by
  have hbasic : basicLogin crates env st query username password = _ := basicLogin_of_eligible hcolon h
  have hissues : (basicLogin crates env st query username password).2.status = 302 := by rw [hbasic]; rfl
  by_cases hname : username = ""
  · refine ⟨fun hagree => ?_, fun hno => absurd hname hno.1⟩
    exact absurd hname (eligible_of_formLogin (hagree.1.mp hissues)).1
  · rw [← h₁] at h
    have hform : formLogin crates env₁ env₂ st query username password = _ :=
      formLogin_of_eligible (h₂.trans h₁.symm) hname h
    have hsame := sameIssue_issue_iff crates env env₂ st st
      (basicGrant query username clientId redirectUri)
      (formGrant query username clientId redirectUri) rfl rfl rfl rfl
    rw [LoginsAgree, hbasic, hform]
    constructor
    · rintro ⟨-, hagree⟩
      exact ⟨hname, hsame.mp (hagree rfl)⟩
    · rintro ⟨-, hch⟩
      exact ⟨Iff.rfl, fun _ => hsame.mpr hch⟩

/-- Logging in by header and by form come to the same exactly when nothing would be issued, or
the user has a name and the request carries neither parameter of PKCE. -/
theorem logins_agree_iff (crates : Crates) (clients : String → Option Json) (st : OAuthState)
    (query : Option String) (username password : String) (hcolon : ':' ∉ username.toList)
    (now₁ now₂ now₃ secs₁ secs₂ secs₃ : Nat) (rand₁ rand₂ rand₃ : String) :
    LoginsAgree crates rand₁ rand₃ (basicLogin crates ⟨now₁, secs₁, rand₁, clients⟩ st query username password)
        (formLogin crates ⟨now₂, secs₂, rand₂, clients⟩ ⟨now₃, secs₃, rand₃, clients⟩ st query username
          password) ↔
      (¬ ∃ clientId redirectUri,
          Eligible clients st query username password clientId redirectUri) ∨
        (username ≠ "" ∧ (parseQuery query).get "code_challenge" = none ∧
          (parseQuery query).get "code_challenge_method" = none) := by
  by_cases hel : ∃ clientId redirectUri,
      Eligible clients st query username password clientId redirectUri
  · obtain ⟨clientId, redirectUri, h⟩ := hel
    refine (loginsAgree_iff_of_eligible crates ⟨now₁, secs₁, rand₁, clients⟩ ⟨now₂, secs₂, rand₂, clients⟩
      ⟨now₃, secs₃, rand₃, clients⟩ rfl rfl hcolon h).trans ⟨Or.inr, ?_⟩
    rintro (hno | hok)
    · exact absurd ⟨clientId, redirectUri, h⟩ hno
    · exact hok
  · -- neither login issues anything
    have hbasic : ¬ (basicLogin crates ⟨now₁, secs₁, rand₁, clients⟩ st query username
        password).2.status = 302 := fun h => hel (eligible_of_basicLogin hcolon h)
    have hform : ¬ (formLogin crates ⟨now₂, secs₂, rand₂, clients⟩ ⟨now₃, secs₃, rand₃, clients⟩ st query
        username password).2.status = 302 := fun h => hel (eligible_of_formLogin h).2
    exact iff_of_true ⟨iff_of_false hbasic hform, fun h => absurd h hbasic⟩ (Or.inl hel)

/-- A request without PKCE. -/
theorem logins_agree_iff_sample :
    ':' ∉ "admin".toList ∧
    (LoginsAgree unsignedCrates "code1" "code2"
        (basicLogin unsignedCrates ⟨1, 1, "code1", sampleClients⟩ (.new .default .legacy ⟨"", ""⟩)
          (some "client_id=console&redirect_uri=https://console.apps.ocp-sim.test/callback")
          "admin" "admin")
        (formLogin unsignedCrates ⟨2, 2, "", sampleClients⟩ ⟨3, 3, "code2", sampleClients⟩
          (.new .default .legacy ⟨"", ""⟩)
          (some "client_id=console&redirect_uri=https://console.apps.ocp-sim.test/callback")
          "admin" "admin")) :=
  ⟨by decide,
    (logins_agree_iff unsignedCrates sampleClients (.new .default .legacy ⟨"", ""⟩)
      (some "client_id=console&redirect_uri=https://console.apps.ocp-sim.test/callback")
      "admin" "admin" (by decide) 1 2 3 1 2 3 "code1" "" "code2").mpr
      (Or.inr (by decide +kernel))⟩

/-- The same request with a challenge. -/
def pkceQuery : Option String :=
  some "client_id=console&redirect_uri=https://console.apps.ocp-sim.test/callback&code_challenge=abc"

theorem eligible_pkceQuery :
    Eligible sampleClients (.new .default .legacy ⟨"", ""⟩) pkceQuery "admin" "admin" "console"
      "https://console.apps.ocp-sim.test/callback" where
  clientId_eq := by decide +kernel
  redirectUri_eq := by decide +kernel
  redirect_matches := ⟨"s3cret", ["https://console.apps.ocp-sim.test/"], by decide +kernel,
    by decide +kernel⟩
  authenticates := by decide +kernel

/-- The form login issues its code without the challenge. -/
theorem logins_disagree_pkceQuery :
    ¬ LoginsAgree unsignedCrates "code1" "code2"
        (basicLogin unsignedCrates ⟨1, 1, "code1", sampleClients⟩ (.new .default .legacy ⟨"", ""⟩) pkceQuery
          "admin" "admin")
        (formLogin unsignedCrates ⟨2, 2, "", sampleClients⟩ ⟨3, 3, "code2", sampleClients⟩
          (.new .default .legacy ⟨"", ""⟩) pkceQuery "admin" "admin") := by
  intro hagree
  have h := (loginsAgree_iff_of_eligible unsignedCrates ⟨1, 1, "code1", sampleClients⟩ ⟨2, 2, "", sampleClients⟩
    ⟨3, 3, "code2", sampleClients⟩ rfl rfl (by decide) eligible_pkceQuery).mp hagree
  have hsome : (parseQuery pkceQuery).get "code_challenge" = some "abc" := by decide +kernel
  rw [hsome] at h
  exact absurd h.2.1 (by simp)

end Picoshift.OAuth
