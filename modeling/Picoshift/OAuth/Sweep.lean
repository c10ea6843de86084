/-
# Evictions that nobody should notice

Every five minutes a sweep drops the codes and tokens whose lifetime is over.  The handlers check
ages themselves, so a sweep should only save memory: whatever sweeps are put into a run, the requests
get the answers they would get without them.

The two tests for a TOKEN's age are each other's opposite: `handle_userinfo` accepts an age below
`TOKEN_TTL`, and the sweep keeps exactly those.  The two tests for a CODE's age are not: `handle_token`
refuses an age ABOVE `CODE_TTL`, while the sweep keeps ages BELOW it.  A code that is exactly as old as
its lifetime is good, unless a sweep comes first.

The proof runs both servers side by side.  The swept one has the maps of the other one but for entries
a sweep has found too old (`Lags`, over `Map.Thins`), and every step keeps that.
-/
import Picoshift.OAuth.Userinfo

namespace Picoshift.OAuth

/-! ## 1. The two runs -/

def Action.isSweep : Action → Bool
  | .sweepCodes => true
  | .sweepTokens => true
  | _ => false

/-- The same requests without the sweeps. -/
def unswept (run : List Input) : List Input := run.filter fun i => !i.action.isSweep

/-- A step hands out the same token, or none, and userinfo gives the same answer. -/
structure SameAnswer (i : Input) (out out' : Option Response) : Prop where
  token : ∀ token, out = some (tokenResponse token) ↔ out' = some (tokenResponse token)
  userinfo : ∀ authorization, i.action = .userinfo authorization → out = out'

theorem SameAnswer.refl (i : Input) (out : Option Response) : SameAnswer i out out :=
  ⟨fun _ => Iff.rfl, fun _ _ => rfl⟩

/-- Two refusals of a token request are alike. -/
theorem SameAnswer.refusals {i : Input} {r r' : Response} (hr : Refusal r) (hr' : Refusal r')
    (hinput : ∀ authorization, i.action ≠ .userinfo authorization) :
    SameAnswer i (some r) (some r') := by
  have hno : ∀ {r : Response}, Refusal r → ∀ token, some r ≠ some (tokenResponse token) := by
    intro r hr token heq
    cases heq
    exact not_refusal_tokenResponse token hr
  refine ⟨fun token => ?_, fun authorization h => absurd h (hinput authorization)⟩
  exact ⟨fun h => absurd h (hno hr token), fun h => absurd h (hno hr' token)⟩

/-! ## 2. What the sweeps have left -/

/-- A sweep has found the code's lifetime over. -/
def CodeSwept (past : List Input) (authCode : AuthCode) : Prop :=
  ∃ i ∈ past, i.action = .sweepCodes ∧ codeTtl ≤ i.env.now - authCode.created

/-- A sweep has found the token's lifetime over. -/
def TokenSwept (past : List Input) (info : TokenInfo) : Prop :=
  ∃ i ∈ past, i.action = .sweepTokens ∧ tokenTtl ≤ i.env.now - info.created

/-- `s` is `u` but for what the sweeps of the past have dropped. -/
structure Lags (past : List Input) (s u : Server) : Prop where
  codes : Map.Thins (CodeSwept past) s.oauth.codes u.oauth.codes
  tokens : Map.Thins (TokenSwept past) s.oauth.tokens u.oauth.tokens
  userStore : s.oauth.userStore = u.oauth.userStore
  authMode : s.oauth.authMode = u.oauth.authMode
  jwtKeys : s.oauth.jwtKeys = u.oauth.jwtKeys
  exchanges : s.exchanges = u.exchanges

theorem lags_refl (s : Server) : Lags [] s s :=
  ⟨.refl _ _, .refl _ _, rfl, rfl, rfl, rfl⟩

theorem Lags.append {past : List Input} {s u : Server} (h : Lags past s u) (i : Input) :
    Lags (past ++ [i]) s u where
  codes := h.codes.mono fun _ ⟨j, hj, hsweep⟩ => ⟨j, List.mem_append_left _ hj, hsweep⟩
  tokens := h.tokens.mono fun _ ⟨j, hj, hsweep⟩ => ⟨j, List.mem_append_left _ hj, hsweep⟩
  userStore := h.userStore
  authMode := h.authMode
  jwtKeys := h.jwtKeys
  exchanges := h.exchanges

/-- A sweep of the swept server alone. -/
theorem lags_sweep {crates : Crates} {past : List Input} {s u : Server} (h : Lags past s u) {i : Input}
    (hsweep : i.action.isSweep = true) : Lags (past ++ [i]) (step crates s i).1 u := by
  have h' := h.append i
  have hlast : i ∈ past ++ [i] := List.mem_append_right _ List.mem_cons_self
  obtain ⟨env, action⟩ := i
  cases action with
  | sweepCodes =>
    refine ⟨h'.codes.retain_left fun _ authCode _ hold => ?_, h'.tokens, h'.userStore, h'.authMode,
      h'.jwtKeys, h'.exchanges⟩
    exact ⟨_, hlast, rfl, not_lt.mp (of_decide_eq_false hold)⟩
  | sweepTokens =>
    refine ⟨h'.codes, h'.tokens.retain_left fun _ info _ hold => ?_, h'.userStore, h'.authMode,
      h'.jwtKeys, h'.exchanges⟩
    exact ⟨_, hlast, rfl, not_lt.mp (of_decide_eq_false hold)⟩
  | _ => cases hsweep

/-! ## 3. What the requests see -/

/-- Authorizing looks at the users only, and does the same to both servers. -/
def Agree (crates : Crates) (env : Env) (st st' : OAuthState) (out out' : OAuthState × Response) : Prop :=
  (∃ r, out = (st, r) ∧ out' = (st', r)) ∨ ∃ g : Grant, out = g.issue crates env st ∧ out' = g.issue crates env st'

theorem handleAuthorizeGet_agree (crates : Crates) (env : Env) {st st' : OAuthState} (h : st.userStore = st'.userStore)
    (req : AuthorizeRequest) :
    Agree crates env st st' (handleAuthorizeGet crates env st req) (handleAuthorizeGet crates env st' req) := by
  simp only [handleAuthorizeGet, h]
  split
  · exact Or.inl ⟨_, rfl, rfl⟩
  split
  · exact Or.inl ⟨_, rfl, rfl⟩
  split
  · exact Or.inl ⟨_, rfl, rfl⟩
  split
  · exact Or.inl ⟨_, rfl, rfl⟩
  split
  · split
    · split
      · exact Or.inr ⟨⟨_, _, _, _, _, _⟩, rfl, rfl⟩
      · exact Or.inl ⟨_, rfl, rfl⟩
    · exact Or.inl ⟨_, rfl, rfl⟩
  · split
    · exact Or.inl ⟨_, rfl, rfl⟩
    · exact Or.inl ⟨_, rfl, rfl⟩

theorem handleAuthorizePost_agree (crates : Crates) (env : Env) {st st' : OAuthState} (h : st.userStore = st'.userStore)
    (body : List UInt8) :
    Agree crates env st st' (handleAuthorizePost crates env st body) (handleAuthorizePost crates env st' body) := by
  simp only [handleAuthorizePost, h]
  split
  · exact Or.inl ⟨_, rfl, rfl⟩
  split
  · exact Or.inl ⟨_, rfl, rfl⟩
  split
  · exact Or.inl ⟨_, rfl, rfl⟩
  split
  · exact Or.inl ⟨_, rfl, rfl⟩
  split
  · exact Or.inl ⟨_, rfl, rfl⟩
  · exact Or.inr ⟨⟨_, _, _, _, _, _⟩, rfl, rfl⟩

/-- No token request presents a code at the last instant of its lifetime when the codes have been swept
at that instant. -/
def Timely (past : List Input) (u : Server) (i : Input) : Prop :=
  ∀ id body authorization req authCode, i.action = .tokenLookup id body authorization →
    parseTokenRequest body authorization = .ok req → u.oauth.codes.get req.code = some authCode →
    i.env.now - authCode.created = codeTtl →
    ∀ j ∈ past, j.action = .sweepCodes → j.env.now ≠ i.env.now

/-- A code that is gone from the swept server is refused by the other one too. -/
theorem checkCode_of_swept (crates : Crates) {past : List Input} {now : Nat}
    (hclock : ∀ j ∈ past, j.env.now ≤ now) {authCode : AuthCode} (hswept : CodeSwept past authCode)
    (htimely : now - authCode.created = codeTtl →
      ∀ j ∈ past, j.action = .sweepCodes → j.env.now ≠ now) (req : TokenRequest) :
    checkCode crates now req authCode =
      .error (jsonResponse 400 (errorJson "invalid_grant" (some "code expired"))) := by
  obtain ⟨j, hj, hsweep, hage⟩ := hswept
  have hle := hclock j hj
  have hpos : 0 < codeTtl := by decide
  -- the sweep came earlier, for otherwise the code would be as old as its lifetime now
  have hne : now - authCode.created ≠ codeTtl := by
    intro heq
    refine htimely heq j hj hsweep ?_
    omega
  rw [checkCode, if_pos (by omega)]

/-- The user of a token that is gone from the swept server is nobody for the other one too. -/
theorem tokenUser_of_lags {crates : Crates} {past : List Input} {s u : Server} (h : Lags past s u) {now : Nat}
    (hclock : ∀ j ∈ past, j.env.now ≤ now) (token : String) :
    tokenUser crates now s.oauth token = tokenUser crates now u.oauth token := by
  rw [tokenUser, tokenUser]
  split
  · rfl
  · rcases h.tokens token with hsame | ⟨hnone, info, hinfo, j, hj, -, hage⟩
    · rw [hsame]
    · have hle := hclock j hj
      have hold : ¬ now - info.created < tokenTtl := by omega
      simp only [hnone, hinfo, if_neg hold]

theorem handleUserinfo_of_lags {crates : Crates} {past : List Input} {s u : Server} (h : Lags past s u) {now : Nat}
    (hclock : ∀ j ∈ past, j.env.now ≤ now) (authorization : Option String) :
    handleUserinfo crates now s.oauth authorization = handleUserinfo crates now u.oauth authorization := by
  rw [handleUserinfo, handleUserinfo]
  split
  · rfl
  · rw [tokenUser_of_lags h hclock, h.userStore]

/-! ## 4. One step of both -/

/-- The servers are again alike, and so are their answers. -/
def Alike (past : List Input) (i : Input) (out out' : Server × Option Response) : Prop :=
  Lags (past ++ [i]) out.1 out'.1 ∧ SameAnswer i out.2 out'.2

section

variable {crates : Crates} {past : List Input} {s u : Server} {i : Input}

theorem alike_authorize (h : Lags past s u) {out out' : OAuthState × Response}
    (hagree : Agree crates i.env s.oauth u.oauth out out') :
    Alike past i ({ s with oauth := out.1 }, some out.2) ({ u with oauth := out'.1 }, some out'.2) := by
  have h' := h.append i
  rcases hagree with ⟨r, rfl, rfl⟩ | ⟨g, rfl, rfl⟩
  · exact ⟨h', .refl i _⟩
  · refine ⟨?_, .refl i _⟩
    exact ⟨h'.codes.insert _ _, h'.tokens, h'.userStore, h'.authMode, h'.jwtKeys, h'.exchanges⟩

theorem alike_lookup (h : Lags past s u) (hclock : ∀ j ∈ past, j.env.now ≤ i.env.now)
    (htimely : Timely past u i) {id : Nat} {body : List UInt8} {authorization : Option String}
    (haction : i.action = .tokenLookup id body authorization) :
    Alike past i (step crates s i) (step crates u i) := by
  have h' := h.append i
  have huserinfo : ∀ authorization, i.action ≠ .userinfo authorization := by
    intro _ hno
    rw [haction] at hno
    cases hno
  simp only [step, haction, h.exchanges]
  split
  · exact ⟨h', .refl i _⟩
  split
  · exact ⟨h', .refl i _⟩
  rename_i req hreq
  rcases h.codes req.code with hsame | ⟨hnone, authCode, hfound, hswept⟩
  · -- both servers have the code, or neither
    rw [consumeCode, consumeCode, hsame]
    cases hcode : u.oauth.codes.get req.code with
    | none => exact ⟨⟨h'.codes, h'.tokens, h'.userStore, h'.authMode, h'.jwtKeys, rfl⟩, .refl i _⟩
    | some authCode =>
      cases hcheck : checkCode crates i.env.now req authCode with
      | error r =>
        simp only [hcheck, Except.map]
        refine ⟨?_, .refl i _⟩
        exact ⟨h'.codes.erase _, h'.tokens, h'.userStore, h'.authMode, h'.jwtKeys, rfl⟩
      | ok _ =>
        simp only [hcheck, Except.map]
        refine ⟨?_, .refl i _⟩
        exact ⟨h'.codes.erase _, h'.tokens, h'.userStore, h'.authMode, h'.jwtKeys, rfl⟩
  · have hrefused := checkCode_of_swept crates hclock hswept
      (htimely _ _ _ _ _ haction hreq hfound) req
    rw [consumeCode, consumeCode, hnone, hfound]
    simp only [hrefused, Except.map]
    refine ⟨?_, SameAnswer.refusals (Or.inl rfl) (Or.inl rfl) huserinfo⟩
    exact ⟨h'.codes.erase_right hnone, h'.tokens, h'.userStore, h'.authMode, h'.jwtKeys, rfl⟩

theorem alike_insert (h : Lags past s u) {id : Nat} (haction : i.action = .tokenInsert id) :
    Alike past i (step crates s i) (step crates u i) := by
  have h' := h.append i
  simp only [step, haction, h.exchanges]
  split
  · rename_i req authCode _
    have hmint : mintToken crates i.env s.oauth authCode.username req.clientId =
        mintToken crates i.env u.oauth authCode.username req.clientId := by
      rw [mintToken, mintToken, h.jwtKeys, h.userStore]
    simp only [storeToken, hmint]
    split
    · refine ⟨?_, .refl i _⟩
      exact ⟨h'.codes, h'.tokens, h'.userStore, h'.authMode, h'.jwtKeys, rfl⟩
    · refine ⟨?_, .refl i _⟩
      exact ⟨h'.codes, h'.tokens.insert _ _, h'.userStore, h'.authMode, h'.jwtKeys, rfl⟩
  · exact ⟨h', .refl i _⟩

theorem alike_step (h : Lags past s u) (hsweep : i.action.isSweep = false)
    (hclock : ∀ j ∈ past, j.env.now ≤ i.env.now) (htimely : Timely past u i) :
    Alike past i (step crates s i) (step crates u i) := by
  have h' := h.append i
  cases haction : i.action with
  | authorizeGet req =>
    simp only [step, haction]
    exact alike_authorize h (handleAuthorizeGet_agree crates i.env h.userStore req)
  | authorizePost body =>
    simp only [step, haction]
    exact alike_authorize h (handleAuthorizePost_agree crates i.env h.userStore body)
  | tokenLookup id body authorization => exact alike_lookup h hclock htimely haction
  | tokenClient id =>
    simp only [step, haction, h.exchanges]
    split
    · split
      · exact ⟨⟨h'.codes, h'.tokens, h'.userStore, h'.authMode, h'.jwtKeys, rfl⟩, .refl i _⟩
      · exact ⟨⟨h'.codes, h'.tokens, h'.userStore, h'.authMode, h'.jwtKeys, rfl⟩, .refl i _⟩
    · exact ⟨h', .refl i _⟩
  | tokenInsert id => exact alike_insert h haction
  | userinfo authorization =>
    simp only [step, haction]
    rw [handleUserinfo_of_lags h hclock]
    exact ⟨h', .refl i _⟩
  | sweepCodes =>
    rw [haction] at hsweep
    cases hsweep
  | sweepTokens =>
    rw [haction] at hsweep
    cases hsweep
  | reloadUsers store =>
    simp only [step, haction]
    exact ⟨⟨h'.codes, h'.tokens, rfl, h'.authMode, h'.jwtKeys, h'.exchanges⟩, .refl i _⟩

end

/-! ## 5. Whole runs -/

theorem unswept_append_singleton (run : List Input) (i : Input) :
    unswept (run ++ [i]) = if i.action.isSweep then unswept run else unswept run ++ [i] := by
  rw [unswept, List.filter_append, unswept]
  cases hsweep : i.action.isSweep <;> simp [hsweep]

/-- Before every step of a run the swept server lags behind the other one. -/
theorem lags_exec (crates : Crates) (s₀ : Server) (run : List Input)
    (hclock : (run.map fun i => i.env.now).Pairwise (· ≤ ·))
    (htimely : ∀ past i rest, run = past ++ i :: rest →
      Timely past ((server crates).exec s₀ (unswept past)) i) :
    Lags run ((server crates).exec s₀ run) ((server crates).exec s₀ (unswept run)) := by
  induction run using List.reverseRecOn with
  | nil => exact lags_refl s₀
  | append_singleton past i ih =>
    rw [List.map_append, List.pairwise_append] at hclock
    have hlast : ∀ j ∈ past, j.env.now ≤ i.env.now := fun j hj =>
      hclock.2.2 _ (List.mem_map_of_mem hj) _ (List.mem_singleton.mpr rfl)
    have hpast := ih hclock.1 fun past' j rest heq =>
      htimely past' j (rest ++ [i]) (by rw [heq, List.append_assoc, List.cons_append])
    rw [unswept_append_singleton, Machine.exec_append_singleton]
    cases hsweep : i.action.isSweep with
    | true => exact lags_sweep hpast hsweep
    | false =>
      rw [if_neg Bool.false_ne_true, Machine.exec_append_singleton]
      exact (alike_step hpast hsweep hlast (htimely past i [] rfl)).1

/-- **Sweeps change no answer, in every run in which no code is presented at the last instant of its
lifetime after a sweep at that instant.** -/
theorem sweeps_unseen (crates : Crates) (userStore : UserStore) (authMode : AuthMode) (keys : JwtKeys)
    (run : List Input) (hclock : (run.map fun i => i.env.now).Pairwise (· ≤ ·))
    (htimely : ∀ past i rest, run = past ++ i :: rest →
      Timely past ((server crates).exec (.init userStore authMode keys) (unswept past)) i) :
    ∀ past i rest, run = past ++ i :: rest → i.action.isSweep = false →
      SameAnswer i
        ((server crates).entry ((server crates).exec (.init userStore authMode keys) past) i).output
        ((server crates).entry
          ((server crates).exec (.init userStore authMode keys) (unswept past)) i).output := by
  intro past i rest hrun hsweep
  have hnow := hclock
  rw [hrun, List.map_append, List.pairwise_append] at hnow
  have hlags := lags_exec crates (.init userStore authMode keys) past hnow.1 fun past' j rest' heq =>
    htimely past' j (rest' ++ i :: rest) (by rw [hrun, heq, List.append_assoc, List.cons_append])
  have hlast : ∀ j ∈ past, j.env.now ≤ i.env.now := fun j hj =>
    hnow.2.2 _ (List.mem_map_of_mem hj) _ (List.mem_map_of_mem List.mem_cons_self)
  exact (alike_step hlags hsweep hlast (htimely past i rest hrun)).2

/-- A login, a sweep, and the exchange in the last instant of the code's lifetime. -/
def sweptRun (sweepAt : Nat) : List Input :=
  ⟨sampleEnv (secs 1) "code1", .authorizeGet sampleAuthorize⟩ ::
    ⟨sampleEnv sweepAt "", .sweepCodes⟩ :: tokenSteps (sampleEnv (secs 301) "token1") 0 sampleTokenBody none

/-- The answer to that exchange when the sweep comes a second earlier. -/
theorem sweeps_unseen_sweptRun :
    SameAnswer ⟨sampleEnv (secs 301) "token1", .tokenInsert 0⟩
      ((server unsignedCrates).entry
        ((server unsignedCrates).exec (.init .default .legacy ⟨"", ""⟩) ((sweptRun (secs 300)).take 4))
        ⟨sampleEnv (secs 301) "token1", .tokenInsert 0⟩).output
      ((server unsignedCrates).entry
        ((server unsignedCrates).exec (.init .default .legacy ⟨"", ""⟩)
          (unswept ((sweptRun (secs 300)).take 4)))
        ⟨sampleEnv (secs 301) "token1", .tokenInsert 0⟩).output := by
  refine sweeps_unseen unsignedCrates .default .legacy ⟨"", ""⟩ (sweptRun (secs 300)) (by decide) ?_
    ((sweptRun (secs 300)).take 4) _ [] rfl rfl
  intro past i rest hrun id body authorization req authCode haction _ _ _ j hj hsweep
  have hsweeps : ∀ j ∈ sweptRun (secs 300), j.action = .sweepCodes → j.env.now = secs 300 := by
    simp [sweptRun, tokenSteps, sampleEnv]
  have hlookups : ∀ i ∈ sweptRun (secs 300), ∀ id body authorization,
      i.action = .tokenLookup id body authorization → i.env.now = secs 301 := by
    simp [sweptRun, tokenSteps, sampleEnv]
  have hj' : j ∈ sweptRun (secs 300) := hrun ▸ List.mem_append_left _ hj
  have hi' : i ∈ sweptRun (secs 300) := hrun ▸ List.mem_append_right _ List.mem_cons_self
  rw [hsweeps j hj' hsweep, hlookups i hi' _ _ _ haction]
  decide

/-- A sweep at the same instant takes the code from an exchange that succeeds without it. -/
theorem sweep_seen :
    (((server unsignedCrates).trace (.init .default .legacy ⟨"", ""⟩) (sweptRun (secs 301))).map
        fun e => e.output.map Response.status) = [some 302, none, some 400, none, none] ∧
      (((server unsignedCrates).trace (.init .default .legacy ⟨"", ""⟩)
        (unswept (sweptRun (secs 301)))).map fun e => e.output.map Response.status) =
          [some 302, none, none, some 200] := by
  decide +kernel

end Picoshift.OAuth
