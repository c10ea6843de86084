/-
# One code, one token

Whatever the interleaving of authorize requests, token exchanges and sweeps, a code that was
issued buys at most one token, for the user it was issued to, by the client it was issued to,
against a verifier or a secret (`exchange_sound`).

The code is taken out of the map in the FIRST of an exchange's three steps, before anything
has been checked.  So between its issue and its 200 a code is in exactly one place: the map, or
one exchange under way, or nowhere.  `Unique` says so, and says that a code in one of these
places has not been answered yet.  It needs fresh randomness, or an old code could come back.

`Checked` carries along what an exchange has already shown.  `Owned` is about the end of the
chain: a token that was handed out is never stored for anybody else.
-/
import Picoshift.OAuth.Server

namespace Picoshift.OAuth

/-! ## 1. What happened to a code -/

/-- The random value a step drew, if it drew one. -/
def drawn (e : Entry Server Input (Option Response)) : Option String :=
  match e.input.action, e.output with
  | .authorizeGet _, some r => if r.status = 302 then some e.input.env.rand else none
  | .authorizePost _, some r => if r.status = 302 then some e.input.env.rand else none
  | .tokenInsert _, some _ => if e.before.oauth.jwtKeys = none then some e.input.env.rand else none
  | _, _ => none

/-- The code for which a step answered 200 to a token request, if it did. -/
def answeredCode (e : Entry Server Input (Option Response)) : Option String :=
  match e.input.action, e.output with
  | .tokenInsert id, some r =>
    if r.status = 200 then (e.before.exchanges.get id).map fun x => x.req.code else none
  | _, _ => none

/-- `generate_random_string` never repeats a value. -/
def Fresh (h : History) : Prop := (h.filterMap drawn).Nodup

/-- The codes answered with 200, in order. -/
def answeredCodes (h : History) : List String := h.filterMap answeredCode

theorem fresh_append {h : History} {e : Entry Server Input (Option Response)}
    (hok : Fresh (h ++ [e])) :
    Fresh h ∧ ∀ r, drawn e = some r → r ∉ h.filterMap drawn := by
  unfold Fresh at hok
  rw [List.filterMap_append, List.nodup_append] at hok
  refine ⟨hok.1, fun r hr hmem => hok.2.2 r hmem r ?_ rfl⟩
  simp [hr]

/-- What a step drew is not drawn again. -/
theorem Fresh.not_drawn {h₁ h₂ : History} {e : Entry Server Input (Option Response)} {r : String}
    (hfresh : Fresh (h₁ ++ e :: h₂)) (hdrawn : drawn e = some r) : ∀ e' ∈ h₂, drawn e' ≠ some r := by
  intro e' he' heq
  unfold Fresh at hfresh
  rw [List.filterMap_append, List.filterMap_cons_some hdrawn, List.nodup_append] at hfresh
  exact (List.nodup_cons.mp hfresh.2.1).1 (List.mem_filterMap.mpr ⟨e', he', heq⟩)

theorem mem_drawn_append {h : History} {e : Entry Server Input (Option Response)} {r : String}
    (hr : r ∈ h.filterMap drawn) : r ∈ (h ++ [e]).filterMap drawn := by
  rw [List.filterMap_append]
  exact List.mem_append_left _ hr

theorem mem_drawn_last {h : History} {e : Entry Server Input (Option Response)} {r : String}
    (hr : drawn e = some r) : r ∈ (h ++ [e]).filterMap drawn := by
  rw [List.filterMap_append]
  exact List.mem_append_right _ (by simp [hr])

theorem answeredCode_of_plain {e : Entry Server Input (Option Response)}
    (h : Plain e.input e.output) : answeredCode e = none := by
  unfold answeredCode
  split
  · rename_i id r ha hout
    rw [if_neg ((h r hout).2 ⟨id, ha⟩)]
  · rfl

theorem answeredCode_of_output_none {e : Entry Server Input (Option Response)}
    (h : e.output = none) : answeredCode e = none := by
  unfold answeredCode
  split
  · rename_i hout
    rw [h] at hout
    exact absurd hout (by simp)
  · rfl

theorem answeredCodes_append {h : History} {e : Entry Server Input (Option Response)}
    (he : answeredCode e = none) : answeredCodes (h ++ [e]) = answeredCodes h := by
  simp [answeredCodes, he]

/-! ## 2. A code is in one place -/

/-- Where codes are: in the map, in an exchange under way, or answered, and never in two of
these. -/
structure Unique (h : History) (s : Server) : Prop where
  stored_drawn : ∀ code authCode, s.oauth.codes.get code = some authCode → code ∈ h.filterMap drawn
  pending_drawn : ∀ id x, s.exchanges.get id = some x → x.req.code ∈ h.filterMap drawn
  answered_drawn : ∀ code ∈ answeredCodes h, code ∈ h.filterMap drawn
  stored_pending : ∀ code authCode id x, s.oauth.codes.get code = some authCode →
    s.exchanges.get id = some x → x.req.code ≠ code
  stored_answered : ∀ code authCode, s.oauth.codes.get code = some authCode →
    code ∉ answeredCodes h
  pending_unique : ∀ id x id' x', s.exchanges.get id = some x → s.exchanges.get id' = some x' →
    x.req.code = x'.req.code → id = id'
  pending_answered : ∀ id x, s.exchanges.get id = some x → x.req.code ∉ answeredCodes h
  answered_nodup : (answeredCodes h).Nodup

theorem unique_init (userStore : UserStore) (authMode : AuthMode) (keys : JwtKeys) :
    Unique [] (Server.init userStore authMode keys) where
  stored_drawn _ _ h := absurd h (by simp [Server.init, OAuthState.new])
  pending_drawn _ _ h := absurd h (by simp [Server.init])
  answered_drawn _ h := absurd h (by simp [answeredCodes])
  stored_pending _ _ _ _ h := absurd h (by simp [Server.init, OAuthState.new])
  stored_answered _ _ h := absurd h (by simp [Server.init, OAuthState.new])
  pending_unique _ _ _ _ h := absurd h (by simp [Server.init])
  pending_answered _ _ h := absurd h (by simp [Server.init])
  answered_nodup := by simp [answeredCodes]

/-- A step that answers no token request, and after which fewer codes are stored and the same
exchanges, or fewer, are under way. -/
theorem Unique.shrink {h : History} {s : Server} {e : Entry Server Input (Option Response)}
    (hu : Unique h s) (s' : Server) (hans : answeredCode e = none)
    (hcodes : ∀ code authCode, s'.oauth.codes.get code = some authCode →
      s.oauth.codes.get code = some authCode)
    (hpend : ∀ id x, s'.exchanges.get id = some x →
      ∃ y, s.exchanges.get id = some y ∧ y.req = x.req) : Unique (h ++ [e]) s' := by
  have hsame := answeredCodes_append (h := h) hans
  refine ⟨?_, ?_, ?_, ?_, ?_, ?_, ?_, ?_⟩
  · exact fun code authCode hget => mem_drawn_append (hu.stored_drawn code authCode (hcodes _ _ hget))
  · intro id x hx
    obtain ⟨y, hy, hreq⟩ := hpend id x hx
    exact mem_drawn_append (hreq ▸ hu.pending_drawn id y hy)
  · intro code hcode
    rw [hsame] at hcode
    exact mem_drawn_append (hu.answered_drawn code hcode)
  · intro code authCode id x hget hx
    obtain ⟨y, hy, hreq⟩ := hpend id x hx
    exact hreq ▸ hu.stored_pending code authCode id y (hcodes _ _ hget) hy
  · intro code authCode hget
    rw [hsame]
    exact hu.stored_answered code authCode (hcodes _ _ hget)
  · intro id x id' x' hx hx' heq
    obtain ⟨y, hy, hreq⟩ := hpend id x hx
    obtain ⟨y', hy', hreq'⟩ := hpend id' x' hx'
    exact hu.pending_unique id y id' y' hy hy' (by rw [hreq, hreq', heq])
  · intro id x hx
    obtain ⟨y, hy, hreq⟩ := hpend id x hx
    rw [hsame]
    exact hreq ▸ hu.pending_answered id y hy
  · rw [hsame]
    exact hu.answered_nodup

theorem drawn_of_authorize {e : Entry Server Input (Option Response)} {r : Response}
    (hact : (∃ req, e.input.action = .authorizeGet req) ∨ ∃ body, e.input.action = .authorizePost body)
    (hout : e.output = some r) (hr : r.status = 302) : drawn e = some e.input.env.rand := by
  rcases hact with ⟨_, ha⟩ | ⟨_, ha⟩ <;> simp [drawn, ha, hout, hr]

theorem answeredCode_of_authorize {e : Entry Server Input (Option Response)}
    (hact : (∃ req, e.input.action = .authorizeGet req) ∨ ∃ body, e.input.action = .authorizePost body) :
    answeredCode e = none := by
  rcases hact with ⟨_, ha⟩ | ⟨_, ha⟩ <;> simp [answeredCode, ha]

/-- A code that has not been drawn is nowhere, so issuing it keeps codes in one place. -/
theorem Unique.issue {h : History} {s : Server} {e : Entry Server Input (Option Response)}
    {code : String} {authCode : AuthCode} (hu : Unique h s) (hdrawn : drawn e = some code)
    (hfresh : code ∉ h.filterMap drawn) (hans : answeredCode e = none) :
    Unique (h ++ [e]) { s with oauth.codes := s.oauth.codes.insert code authCode } := by
  have hold := hu.shrink s hans (fun _ _ hget => hget) (fun _ x hx => ⟨x, hx, rfl⟩)
  have hsame := answeredCodes_append (h := h) hans
  refine ⟨?_, hold.pending_drawn, hold.answered_drawn, ?_, ?_, hold.pending_unique,
    hold.pending_answered, hold.answered_nodup⟩
  · intro c ac hget
    rcases Map.get_insert_eq_some.mp hget with ⟨rfl, -⟩ | ⟨-, hget⟩
    · exact mem_drawn_last hdrawn
    · exact hold.stored_drawn c ac hget
  · intro c ac id x hget hx
    rcases Map.get_insert_eq_some.mp hget with ⟨rfl, -⟩ | ⟨-, hget⟩
    · intro heq
      exact hfresh (heq ▸ hu.pending_drawn id x hx)
    · exact hold.stored_pending c ac id x hget hx
  · intro c ac hget
    rcases Map.get_insert_eq_some.mp hget with ⟨rfl, -⟩ | ⟨-, hget⟩
    · rw [hsame]
      exact fun hmem => hfresh (hu.answered_drawn _ hmem)
    · exact hold.stored_answered c ac hget

/-- Taking a code out of the map moves it to the exchange. -/
theorem Unique.consume {h : History} {s : Server} {e : Entry Server Input (Option Response)}
    {id : Nat} {req : TokenRequest} {authCode : AuthCode} (hu : Unique h s)
    (hans : answeredCode e = none) (hfound : s.oauth.codes.get req.code = some authCode) :
    Unique (h ++ [e])
      { s with oauth.codes := s.oauth.codes.erase req.code
               exchanges := s.exchanges.insert id ⟨false, req, authCode⟩ } := by
  have hold := hu.shrink { s with oauth.codes := s.oauth.codes.erase req.code } hans
    (fun _ _ hget => (Map.get_erase_eq_some.mp hget).2) (fun _ x hx => ⟨x, hx, rfl⟩)
  have hsame := answeredCodes_append (h := h) hans
  refine ⟨hold.stored_drawn, ?_, hold.answered_drawn, ?_, hold.stored_answered, ?_, ?_,
    hold.answered_nodup⟩
  · intro id' x hx
    rcases Map.get_insert_eq_some.mp hx with ⟨-, rfl⟩ | ⟨-, hx⟩
    · exact mem_drawn_append (hu.stored_drawn _ _ hfound)
    · exact hold.pending_drawn id' x hx
  · intro c ac id' x hget hx
    rcases Map.get_insert_eq_some.mp hx with ⟨-, rfl⟩ | ⟨-, hx⟩
    · exact fun heq => (Map.get_erase_eq_some.mp hget).1 heq.symm
    · exact hold.stored_pending c ac id' x hget hx
  · intro id₁ x₁ id₂ x₂ h₁ h₂ heq
    rcases Map.get_insert_eq_some.mp h₁ with ⟨rfl, rfl⟩ | ⟨-, hold₁⟩
    · rcases Map.get_insert_eq_some.mp h₂ with ⟨rfl, -⟩ | ⟨-, hold₂⟩
      · rfl
      · exact absurd heq.symm (hu.stored_pending _ _ _ _ hfound hold₂)
    · rcases Map.get_insert_eq_some.mp h₂ with ⟨rfl, rfl⟩ | ⟨-, hold₂⟩
      · exact absurd heq (hu.stored_pending _ _ _ _ hfound hold₁)
      · exact hold.pending_unique id₁ x₁ id₂ x₂ hold₁ hold₂ heq
  · intro id' x hx
    rcases Map.get_insert_eq_some.mp hx with ⟨-, rfl⟩ | ⟨-, hx⟩
    · rw [hsame]
      exact hu.stored_answered _ _ hfound
    · exact hold.pending_answered id' x hx

/-- Answering an exchange ends it, and its code has not been answered before. -/
theorem Unique.answer {h : History} {s s' : Server} {e : Entry Server Input (Option Response)}
    {id : Nat} {x : Exchange} (hu : Unique h s) (hans : answeredCode e = some x.req.code)
    (hx : s.exchanges.get id = some x) (hcodes : s'.oauth.codes = s.oauth.codes)
    (hpend : s'.exchanges = s.exchanges.erase id) : Unique (h ++ [e]) s' := by
  have hnew : answeredCodes (h ++ [e]) = answeredCodes h ++ [x.req.code] := by
    simp [answeredCodes, hans]
  have hmem : ∀ code, code ∈ answeredCodes (h ++ [e]) →
      code ∈ answeredCodes h ∨ code = x.req.code := by
    intro code hcode
    rw [hnew] at hcode
    simpa using hcode
  refine ⟨?_, ?_, ?_, ?_, ?_, ?_, ?_, ?_⟩
  · intro c ac hget
    exact mem_drawn_append (hu.stored_drawn c ac (hcodes ▸ hget))
  · intro id' y hy
    rw [hpend] at hy
    exact mem_drawn_append (hu.pending_drawn id' y (Map.get_erase_eq_some.mp hy).2)
  · intro code hcode
    rcases hmem code hcode with hcode | rfl
    · exact mem_drawn_append (hu.answered_drawn code hcode)
    · exact mem_drawn_append (hu.pending_drawn id x hx)
  · intro c ac id' y hget hy
    rw [hpend] at hy
    exact hu.stored_pending c ac id' y (hcodes ▸ hget) (Map.get_erase_eq_some.mp hy).2
  · intro c ac hget hcode
    rcases hmem c hcode with hcode | rfl
    · exact hu.stored_answered c ac (hcodes ▸ hget) hcode
    · exact hu.stored_pending _ _ _ _ (hcodes ▸ hget) hx rfl
  · intro id₁ x₁ id₂ x₂ h₁ h₂ heq
    rw [hpend] at h₁ h₂
    exact hu.pending_unique id₁ x₁ id₂ x₂ (Map.get_erase_eq_some.mp h₁).2
      (Map.get_erase_eq_some.mp h₂).2 heq
  · intro id' y hy hcode
    rw [hpend] at hy
    obtain ⟨hne, hy⟩ := Map.get_erase_eq_some.mp hy
    rcases hmem _ hcode with hcode | heq
    · exact hu.pending_answered id' y hy hcode
    · exact hne (hu.pending_unique id' y id x hy hx heq)
  · rw [hnew, List.nodup_append]
    refine ⟨hu.answered_nodup, by simp, ?_⟩
    intro a ha b hb heq
    rw [List.mem_singleton] at hb
    subst hb
    exact hu.pending_answered id x hx (heq ▸ ha)

theorem unique_step {crates : Crates} {h : History} {e : Entry Server Input (Option Response)}
    (heff : Effect crates e.before e.input e.after e.output) (hok : Fresh (h ++ [e]))
    (hu : Unique h e.before) : Unique (h ++ [e]) e.after := by
  have hfresh := (fresh_append hok).2
  obtain ⟨s, i, out, s'⟩ := e
  simp only at heff hu hfresh ⊢
  cases heff with
  | idle plain =>
    exact hu.shrink _ (answeredCode_of_plain plain) (fun _ _ hget => hget)
      (fun _ x hx => ⟨x, hx, rfl⟩)
  | issued granted status action =>
    exact hu.issue (drawn_of_authorize action rfl status)
      (hfresh _ (drawn_of_authorize action rfl status)) (answeredCode_of_authorize action)
  | spoiled _ plain =>
    exact hu.shrink _ (answeredCode_of_plain plain) (fun _ _ hget => (Map.get_erase_eq_some.mp hget).2)
      (fun _ x hx => ⟨x, hx, rfl⟩)
  | consumed _ found _ _ => exact hu.consume (answeredCode_of_output_none rfl) found
  | dropped plain =>
    exact hu.shrink _ (answeredCode_of_plain plain) (fun _ _ hget => hget)
      (fun _ x hx => ⟨x, (Map.get_erase_eq_some.mp hx).2, rfl⟩)
  | cleared action pending secret =>
    refine hu.shrink _ (answeredCode_of_output_none rfl) (fun _ _ hget => hget) fun id' x hx => ?_
    rcases Map.get_insert_eq_some.mp hx with ⟨rfl, rfl⟩ | ⟨-, hx⟩
    · exact ⟨_, pending, rfl⟩
    · exact ⟨x, hx, rfl⟩
  | answered action pending mint =>
    refine hu.answer ?_ pending rfl rfl
    simp [answeredCode, action, pending, tokenResponse, jsonResponse]
  | sweptCodes _ =>
    exact hu.shrink _ (answeredCode_of_output_none rfl)
      (fun _ _ hget => (Map.get_retain_eq_some.mp hget).1) (fun _ x hx => ⟨x, hx, rfl⟩)
  | sweptTokens _ =>
    exact hu.shrink _ (answeredCode_of_output_none rfl) (fun _ _ hget => hget)
      (fun _ x hx => ⟨x, hx, rfl⟩)
  | reloaded =>
    exact hu.shrink _ (answeredCode_of_output_none rfl) (fun _ _ hget => hget)
      (fun _ x hx => ⟨x, hx, rfl⟩)

theorem unique {crates : Crates} {userStore : UserStore} {authMode : AuthMode} {keys : JwtKeys}
    {run : List Input} (hok : Fresh ((server crates).trace (.init userStore authMode keys) run)) :
    Unique ((server crates).trace (.init userStore authMode keys) run)
      ((server crates).exec (.init userStore authMode keys) run) :=
  (server crates).run_induction (fun _ _ hok => (fresh_append hok).1)
    (unique_init userStore authMode keys)
    (fun _ s i hu hok =>
      unique_step (e := (server crates).entry s i) (step_effect crates s i) hok hu)
    run hok

/-! ## 3. What an exchange has shown -/

/-- The client step of exchange `id` found the secret in order. -/
def SecretChecked (h : History) (id : Nat) (req : TokenRequest) (authCode : AuthCode) : Prop :=
  ∃ e ∈ h, e.input.action = .tokenClient id ∧
    e.before.exchanges.get id = some ⟨false, req, authCode⟩ ∧ SecretOk e.input.env.clients req

/-- What an exchange under way has shown so far. -/
def Checked (crates : Crates) (h : History) (s : Server) : Prop :=
  ∀ id x, s.exchanges.get id = some x →
    x.req.clientId = x.authCode.clientId ∧ VerifierOk crates x.req x.authCode ∧
      (x.checked = true → x.authCode.codeChallenge = none → SecretChecked h id x.req x.authCode)

theorem SecretChecked.append {h : History} {id : Nat} {req : TokenRequest} {authCode : AuthCode}
    (hc : SecretChecked h id req authCode) (e : Entry Server Input (Option Response)) :
    SecretChecked (h ++ [e]) id req authCode := by
  obtain ⟨e', he', hrest⟩ := hc
  exact ⟨e', List.mem_append_left _ he', hrest⟩

theorem Checked.shrink {crates : Crates} {h : History} {s s' : Server} (hc : Checked crates h s)
    (e : Entry Server Input (Option Response))
    (hpend : ∀ id x, s'.exchanges.get id = some x → s.exchanges.get id = some x) :
    Checked crates (h ++ [e]) s' := by
  intro id x hx
  obtain ⟨hid, hv, hs⟩ := hc id x (hpend id x hx)
  exact ⟨hid, hv, fun hchk hch => (hs hchk hch).append e⟩

theorem checked_step {crates : Crates} {h : History} {e : Entry Server Input (Option Response)}
    (heff : Effect crates e.before e.input e.after e.output) (hc : Checked crates h e.before) :
    Checked crates (h ++ [e]) e.after := by
  obtain ⟨s, i, out, s'⟩ := e
  simp only at heff hc ⊢
  cases heff with
  | consumed _ found clientId verifier =>
    intro id' x hx
    rcases Map.get_insert_eq_some.mp hx with ⟨rfl, rfl⟩ | ⟨-, hx⟩
    · exact ⟨clientId, verifier, fun hchk => absurd hchk (by simp)⟩
    · exact hc.shrink _ (fun _ _ h => h) id' x hx
  | dropped _ => exact hc.shrink _ fun _ _ hx => (Map.get_erase_eq_some.mp hx).2
  | cleared action pending secret =>
    intro id' x hx
    rcases Map.get_insert_eq_some.mp hx with ⟨rfl, rfl⟩ | ⟨-, hx⟩
    · obtain ⟨hid, hv, -⟩ := hc _ _ pending
      exact ⟨hid, hv, fun _ hch =>
        ⟨_, List.mem_append_right _ List.mem_cons_self, action, pending, secret hch⟩⟩
    · exact hc.shrink _ (fun _ _ h => h) id' x hx
  | answered _ _ _ => exact hc.shrink _ fun _ _ hx => (Map.get_erase_eq_some.mp hx).2
  | _ => exact hc.shrink _ fun _ _ hx => hx

theorem checked (crates : Crates) (userStore : UserStore) (authMode : AuthMode) (keys : JwtKeys)
    (run : List Input) :
    Checked crates ((server crates).trace (.init userStore authMode keys) run)
      ((server crates).exec (.init userStore authMode keys) run) :=
  (server crates).history_induction (fun _ _ h => absurd h (by simp [Server.init]))
    (fun _ s i hc => checked_step (e := (server crates).entry s i) (step_effect crates s i) hc) run

/-! ## 4. Whose a token is -/

/-- A token that was handed out says whose it is, or was drawn at random; and the map agrees
with every time it was handed out. -/
structure Owned (crates : Crates) (h : History) (s : Server) : Prop where
  minted : ∀ token username time, Returned h token username time →
    (∃ r ∈ h.filterMap drawn, token = "sha256~" ++ r) ∨
      (Str.startsWith token "eyJ" = true ∧ decodeJwtUsername crates token = some username)
  owner : ∀ token username time info, Returned h token username time →
    s.oauth.tokens.get token = some info → info.username = username

theorem Owned.shrink {crates : Crates} {h : History} {s s' : Server}
    {e : Entry Server Input (Option Response)} (ho : Owned crates h s)
    (htokens : ∀ token info, s'.oauth.tokens.get token = some info →
      s.oauth.tokens.get token = some info)
    (hnew : ∀ id req authCode token, ¬ Answers e id req authCode token) : Owned crates (h ++ [e]) s' := by
  have hold : ∀ token username time, Returned (h ++ [e]) token username time →
      Returned h token username time := by
    intro token username time hr
    rcases returned_append_singleton hr with hr | ⟨_, _, _, hans, -⟩
    · exact hr
    · exact absurd hans (hnew _ _ _ _)
  refine ⟨?_, ?_⟩
  · intro token username time hr
    rcases ho.minted token username time (hold _ _ _ hr) with ⟨r, hmem, rfl⟩ | hname
    · exact Or.inl ⟨r, mem_drawn_append hmem, rfl⟩
    · exact Or.inr hname
  · exact fun token username time info hr hget =>
      ho.owner token username time info (hold _ _ _ hr) (htokens _ _ hget)

/-- Minting a token that was handed out before is minting it for the same user. -/
theorem owner_of_mint {crates : Crates} (hjwt : LawfulJwt crates) {h : History} {s : Server}
    {e : Entry Server Input (Option Response)} {req : TokenRequest} {authCode : AuthCode}
    {token username : String} {time : Nat} (ho : Owned crates h s)
    (hmint : mintToken crates e.input.env e.before.oauth authCode.username req.clientId = some token)
    (hfresh : e.before.oauth.jwtKeys = none → e.input.env.rand ∉ h.filterMap drawn)
    (hr : Returned h token username time) : authCode.username = username := by
  rcases mintToken_spec hjwt hmint with ⟨hkeys, rfl⟩ | ⟨heyJ, hname⟩
  · rcases ho.minted _ _ _ hr with ⟨r, hmem, heq⟩ | ⟨heyJ, -⟩
    · obtain rfl : e.input.env.rand = r := String.append_right_inj _ |>.mp heq
      exact absurd hmem (hfresh hkeys)
    · rw [not_startsWith_random] at heyJ
      exact absurd heyJ (by simp)
  · rcases ho.minted _ _ _ hr with ⟨r, -, rfl⟩ | ⟨-, hname'⟩
    · rw [not_startsWith_random] at heyJ
      exact absurd heyJ (by simp)
    · exact Option.some.inj (hname.symm.trans hname')

/-- An exchange that is answered hands out the token it stored, for its own code. -/
theorem Answers.unique {e : Entry Server Input (Option Response)} {id id' : Nat}
    {req req' : TokenRequest} {authCode authCode' : AuthCode} {token token' : String}
    (h : Answers e id req authCode token) (h' : Answers e id' req' authCode' token') :
    id = id' ∧ req = req' ∧ authCode = authCode' ∧ token = token' := by
  have hid := h.action.symm.trans h'.action
  rw [Action.tokenInsert.injEq] at hid
  subst hid
  have hx := h.pending.symm.trans h'.pending
  rw [Option.some.injEq, Exchange.mk.injEq] at hx
  exact ⟨rfl, hx.2.1, hx.2.2,
    tokenResponse_injective (Option.some.inj (h.output.symm.trans h'.output))⟩

/-- What an answer with a token says about its step. -/
theorem Answers.effect {crates : Crates} {e : Entry Server Input (Option Response)} {id : Nat}
    {req : TokenRequest} {authCode : AuthCode} {token : String}
    (heff : Effect crates e.before e.input e.after e.output) (hans : Answers e id req authCode token) :
    mintToken crates e.input.env e.before.oauth authCode.username req.clientId = some token ∧
      e.after.oauth.tokens =
        e.before.oauth.tokens.insert token ⟨authCode.username, e.input.env.now⟩ := by
  obtain ⟨s, i, out, s'⟩ := e
  simp only at heff ⊢
  cases heff with
  | idle plain => exact absurd hans (not_answers_of_plain plain _ _ _ _)
  | issued _ _ action => exact absurd hans (not_answers_of_authorize action _ _ _ _)
  | spoiled _ plain => exact absurd hans (not_answers_of_plain plain _ _ _ _)
  | dropped plain => exact absurd hans (not_answers_of_plain plain _ _ _ _)
  | answered action pending mint =>
    obtain ⟨-, rfl, rfl, rfl⟩ := Answers.unique ⟨action, pending, rfl⟩ hans
    exact ⟨mint, rfl⟩
  | _ => exact absurd hans (not_answers_of_output_none rfl _ _ _ _)

theorem Answers.stored {crates : Crates} {e : Entry Server Input (Option Response)} {id : Nat}
    {req : TokenRequest} {authCode : AuthCode} {token : String}
    (heff : Effect crates e.before e.input e.after e.output) (hans : Answers e id req authCode token) :
    e.after.oauth.tokens.get token = some ⟨authCode.username, e.input.env.now⟩ := by
  rw [(hans.effect heff).2, Map.get_insert_self]

theorem owned_step {crates : Crates} (hjwt : LawfulJwt crates) {h : History}
    {e : Entry Server Input (Option Response)}
    (heff : Effect crates e.before e.input e.after e.output) (hok : Fresh (h ++ [e]))
    (ho : Owned crates h e.before) : Owned crates (h ++ [e]) e.after := by
  have hfresh := (fresh_append hok).2
  obtain ⟨s, i, out, s'⟩ := e
  simp only at heff ho hfresh ⊢
  cases heff with
  | idle plain => exact ho.shrink (fun _ _ h => h) (not_answers_of_plain plain)
  | issued _ _ action => exact ho.shrink (fun _ _ h => h) (not_answers_of_authorize action)
  | spoiled _ plain => exact ho.shrink (fun _ _ h => h) (not_answers_of_plain plain)
  | consumed _ _ _ _ => exact ho.shrink (fun _ _ h => h) (not_answers_of_output_none rfl)
  | dropped plain => exact ho.shrink (fun _ _ h => h) (not_answers_of_plain plain)
  | cleared _ _ _ => exact ho.shrink (fun _ _ h => h) (not_answers_of_output_none rfl)
  | answered action pending mint =>
    rename_i id req authCode token
    have hdrawn : s.oauth.jwtKeys = none → drawn
        ⟨s, i, some (tokenResponse token), { s with
          oauth.tokens := s.oauth.tokens.insert token ⟨authCode.username, i.env.now⟩
          exchanges := s.exchanges.erase id }⟩ = some i.env.rand := by
      intro hkeys
      simp [drawn, action, hkeys]
    have hlast : ∀ {id' req' authCode' token'}, Answers
        ⟨s, i, some (tokenResponse token), { s with
          oauth.tokens := s.oauth.tokens.insert token ⟨authCode.username, i.env.now⟩
          exchanges := s.exchanges.erase id }⟩ id' req' authCode' token' →
        authCode = authCode' ∧ token = token' := fun hans =>
      (Answers.unique ⟨action, pending, rfl⟩ hans).2.2
    refine ⟨?_, ?_⟩
    · intro t username time hr
      rcases returned_append_singleton hr with hr | ⟨id', req', authCode', hans, -, rfl, -⟩
      · rcases ho.minted t username time hr with ⟨r, hmem, rfl⟩ | hname
        · exact Or.inl ⟨r, mem_drawn_append hmem, rfl⟩
        · exact Or.inr hname
      · obtain ⟨rfl, rfl⟩ := hlast hans
        rcases mintToken_spec hjwt mint with ⟨hkeys, heq⟩ | hname
        · exact Or.inl ⟨i.env.rand, mem_drawn_last (hdrawn hkeys), heq⟩
        · exact Or.inr hname
    · intro t username time info hr hget
      rcases Map.get_insert_eq_some.mp hget with ⟨rfl, rfl⟩ | ⟨hne, hget⟩
      · rcases returned_append_singleton hr with hr | ⟨id', req', authCode', hans, -, rfl, -⟩
        · exact owner_of_mint hjwt (e := ⟨s, i, none, s⟩) ho mint
            (fun hkeys => hfresh _ (hdrawn hkeys)) hr
        · rw [(hlast hans).1]
      · rcases returned_append_singleton hr with hr | ⟨id', req', authCode', hans, -⟩
        · exact ho.owner t username time info hr hget
        · exact absurd (hlast hans).2.symm hne
  | sweptCodes _ => exact ho.shrink (fun _ _ h => h) (not_answers_of_output_none rfl)
  | sweptTokens _ =>
    exact ho.shrink (fun _ _ h => (Map.get_retain_eq_some.mp h).1) (not_answers_of_output_none rfl)
  | reloaded => exact ho.shrink (fun _ _ h => h) (not_answers_of_output_none rfl)

theorem owned {crates : Crates} (hjwt : LawfulJwt crates) {userStore : UserStore}
    {authMode : AuthMode} {keys : JwtKeys} {run : List Input}
    (hok : Fresh ((server crates).trace (.init userStore authMode keys) run)) :
    Owned crates ((server crates).trace (.init userStore authMode keys) run)
      ((server crates).exec (.init userStore authMode keys) run) := by
  have hinit : Owned crates [] (Server.init userStore authMode keys) :=
    ⟨fun _ _ _ hr => absurd hr returned_nil, fun _ _ _ _ hr => absurd hr returned_nil⟩
  exact (server crates).run_induction (fun _ _ hok => (fresh_append hok).1) hinit
    (fun _ s i ho hok =>
      owned_step hjwt (e := (server crates).entry s i) (step_effect crates s i) hok ho)
    run hok

/-! ## 5. The whole exchange -/

/-- What justified an exchange: a verifier for the challenge the code records or, if it records
none, the client's secret at the time the server asked for it. -/
def Justified (crates : Crates) (h : History) (id : Nat) (req : TokenRequest)
    (authCode : AuthCode) : Prop :=
  (∃ challenge verifier, authCode.codeChallenge = some challenge ∧
      req.codeVerifier = some verifier ∧
      verifyPkce crates verifier challenge (authCode.codeChallengeMethod.getD "S256") = true) ∨
    (authCode.codeChallenge = none ∧ SecretChecked h id req authCode)

/-- In every run with fresh random values a code is answered with 200 at most once; and such an
answer follows the issue of its code to a user who had authenticated, comes from the client the
code was issued to, was justified, and stores its token for that user and never for another. -/
theorem exchange_sound {crates : Crates} (hjwt : LawfulJwt crates) (userStore : UserStore)
    (authMode : AuthMode) (keys : JwtKeys) (run : List Input)
    (hfresh : Fresh ((server crates).trace (.init userStore authMode keys) run)) :
    (∀ code,
      (answeredCodes ((server crates).trace (.init userStore authMode keys) run)).count code ≤ 1) ∧
    ∀ h₁ e h₂ id req authCode token,
      (server crates).trace (.init userStore authMode keys) run = h₁ ++ e :: h₂ →
      Answers e id req authCode token →
      Issued h₁ req.code authCode ∧
      e.after.oauth.tokens.get token = some ⟨authCode.username, e.input.env.now⟩ ∧
      (∀ info, ((server crates).exec (.init userStore authMode keys) run).oauth.tokens.get token =
        some info → info.username = authCode.username) ∧
      req.clientId = authCode.clientId ∧
      Justified crates h₁ id req authCode := by
  refine ⟨fun code => List.nodup_iff_count_le_one.mp (unique hfresh).answered_nodup code, ?_⟩
  intro h₁ e h₂ id req authCode token htrace hans
  obtain ⟨is₁, i, is₂, -, rfl, rfl⟩ := (server crates).trace_eq_append_cons htrace
  have hissued := (traced crates userStore authMode keys is₁).exchanges _ _ hans.pending
  obtain ⟨hid, hv, hsecret⟩ := checked crates userStore authMode keys is₁ _ _ hans.pending
  refine ⟨hissued, ?_, ?_, hid, ?_⟩
  · exact hans.stored (step_effect crates _ i)
  · intro info hget
    exact (owned hjwt hfresh).owner token authCode.username _ info
      ⟨_, _, h₂, id, req, authCode, htrace, hans, hissued, rfl, rfl⟩ hget
  · cases hch : authCode.codeChallenge with
    | none => exact Or.inr ⟨hch, hsecret rfl hch⟩
    | some challenge =>
      obtain ⟨verifier, hver, hok⟩ := hv challenge hch
      exact Or.inl ⟨challenge, verifier, hch, hver, hok⟩

/-- The run in which `admin` logs in and exchanges the code. -/
theorem exchange_sound_sampleRun :
    Fresh ((server unsignedCrates).trace (.init .default .legacy ⟨"", ""⟩) sampleRun) ∧
    (∀ code, (answeredCodes
      ((server unsignedCrates).trace (.init .default .legacy ⟨"", ""⟩) sampleRun)).count code ≤ 1) :=
  have hfresh : Fresh ((server unsignedCrates).trace (.init .default .legacy ⟨"", ""⟩) sampleRun) := by
    unfold Fresh
    decide +kernel
  ⟨hfresh, (exchange_sound lawfulJwt_unsignedCrates .default .legacy ⟨"", ""⟩ sampleRun hfresh).1⟩

/-- In that run the code is indeed answered. -/
example :
    answeredCodes ((server unsignedCrates).trace (.init .default .legacy ⟨"", ""⟩) sampleRun) =
      ["code1"] := by
  decide +kernel

end Picoshift.OAuth
