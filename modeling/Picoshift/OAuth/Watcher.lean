/-
# The users, from the Secret

`watch_htpasswd_secret` (`oauth/watcher.rs`) follows the Secret `htpass-secret` and replaces the user store by
what it finds under the key `htpasswd`.  A version without the key, and the Secret's being deleted, change
nothing: `applied_objects` does not even show a deletion.

The system is the Secret with the watch on it (`Lib/Watch.lean`) beside the server of `Server.lean`.  Anybody may
write the Secret at any time, the watch delivers when it likes and starts anew when it likes, and requests come
in between.

* `store_follows_secret`: the store is always that of a first part of the Secret's versions, the part never
  gets shorter, and it is everything once nothing is left to deliver.
* `holders_were_listed`: a code or a token is only ever held for somebody who was listed in one of these stores.
* `removal_locks_nobody_out`: taking the Secret or its key away has no effect on who can log in.
-/
import Picoshift.Lib.Watch
import Picoshift.OAuth.Htpasswd
import Picoshift.OAuth.Server

namespace Picoshift.OAuth

/-! ## 1. What the loop reads -/

/-- A Secret, as far as it is read. -/
structure Secret where
  name : Option String
  data : Option (Map String (List UInt8))
  stringData : Option (Map String String)

def htpasswdSecret : String := "htpass-secret"

def htpasswdKey : String := "htpasswd"

/-- `data` is read first, and its bytes need not be UTF-8. -/
def Secret.htpasswdData (secret : Secret) : Option String :=
  ((secret.data.bind (·.get htpasswdKey)).map Utf8.lossy).or (secret.stringData.bind (·.get htpasswdKey))

/-- The body of the loop of `watch_htpasswd_secret`: the store that a version brings, if any. -/
def reload (secret : Secret) : Option UserStore :=
  if secret.name.getD "" ≠ htpasswdSecret then none
  else secret.htpasswdData.map UserStore.fromHtpasswd

/-- The Secret with a text, as the API server keeps it. -/
def Secret.ofText (text : String) : Secret :=
  ⟨some htpasswdSecret, some (Map.empty.insert htpasswdKey (Utf8.encode text)), none⟩

theorem reload_ofText (text : String) : reload (.ofText text) = some (UserStore.fromHtpasswd text) := by
  have hdata : (Secret.ofText text).htpasswdData = some text := by
    rw [Secret.htpasswdData, Secret.ofText, Option.bind_some, Map.get_insert_self, Option.map_some, Utf8.lossy_encode]
    rfl
  rw [reload, if_neg (by simp [Secret.ofText]), hdata]
  rfl

/-! ## 2. The system -/

structure Simulator where
  watch : Watch Secret
  server : Server

/-- The simulator starts: the watch begins with a list, and until it has delivered something the users are those
of the users file, or the default ones. -/
def Simulator.start (users : UserStore) (authMode : AuthMode) (keys : JwtKeys) (secret : Option Secret) : Simulator :=
  ⟨.start secret, .init users authMode keys⟩

inductive SimulatorEvent where
  /-- Somebody writes the Secret, or deletes it. -/
  | write (version : Option Secret)
  | deliver (env : Env)
  | relist
  /-- A step of a request or of the sweep. -/
  | request (i : Input) (own : ∀ store, i.action ≠ .reloadUsers store)

def simulatorStep (crates : Crates) (sim : Simulator) : SimulatorEvent → Simulator × Option Response
  | .write version => ({ sim with watch := sim.watch.write version }, none)
  | .deliver env =>
    match sim.watch.delivery.join.bind reload with
    | some store => (⟨sim.watch.pass, (step crates sim.server ⟨env, .reloadUsers store⟩).1⟩, none)
    | none => ({ sim with watch := sim.watch.pass }, none)
  | .relist => ({ sim with watch := sim.watch.relist }, none)
  | .request i _ => ({ sim with server := (step crates sim.server i).1 }, (step crates sim.server i).2)

def simulator (crates : Crates) : Machine Simulator SimulatorEvent (Option Response) := ⟨simulatorStep crates⟩

def Simulator.users (sim : Simulator) : UserStore := sim.server.oauth.userStore

theorem userStore_consumeCode (crates : Crates) (now : Nat) (st : OAuthState) (req : TokenRequest) :
    (consumeCode crates now st req).1.userStore = st.userStore := by
  rw [consumeCode]
  split <;> rfl

theorem userStore_storeToken (crates : Crates) (env : Env) (st : OAuthState) (req : TokenRequest)
    (authCode : AuthCode) : (storeToken crates env st req authCode).1.userStore = st.userStore := by
  rw [storeToken]
  split <;> rfl

theorem AuthorizeOutcome.userStore {crates : Crates} {env : Env} {st : OAuthState} {out : OAuthState × Response}
    (h : AuthorizeOutcome crates env st out) : out.1.userStore = st.userStore := by
  rcases h with ⟨hsame, -⟩ | ⟨g, -, rfl⟩
  · rw [hsame]
  · rfl

/-- A request leaves the users alone. -/
theorem userStore_step (crates : Crates) (s : Server) {i : Input} (own : ∀ store, i.action ≠ .reloadUsers store) :
    (step crates s i).1.oauth.userStore = s.oauth.userStore := by
  cases hact : i.action with
  | authorizeGet req =>
    simp only [step, hact]
    exact (handleAuthorizeGet_outcome _ _ _ _).userStore
  | authorizePost body =>
    simp only [step, hact]
    exact (handleAuthorizePost_outcome _ _ _ _).userStore
  | tokenLookup id body authorization =>
    simp only [step, hact]
    split
    · rfl
    · split
      · rfl
      · rename_i req _
        have hconsume := userStore_consumeCode crates i.env.now s.oauth req
        split <;> (rename_i heq; rw [heq] at hconsume; exact hconsume)
  | tokenClient id =>
    simp only [step, hact]
    split
    · split <;> rfl
    · rfl
  | tokenInsert id =>
    simp only [step, hact]
    split
    · exact userStore_storeToken _ _ _ _ _
    · rfl
  | userinfo authorization => simp only [step, hact]
  | sweepCodes => simp only [step, hact, sweepCodes]
  | sweepTokens => simp only [step, hact, sweepTokens]
  | reloadUsers store => exact absurd hact (own store)

/-- A delivery, in terms of the versions. -/
theorem simulatorStep_deliver (crates : Crates) (sim : Simulator) (env : Env) :
    (sim.watch.delivery = none ∧ (simulatorStep crates sim (.deliver env)).1 = { sim with watch := sim.watch.pass }) ∨
    ∃ version, sim.watch.delivery = some version ∧
      (simulatorStep crates sim (.deliver env)).1.watch = sim.watch.pass ∧
      (simulatorStep crates sim (.deliver env)).1.users = loadNext reload sim.users version := by
  cases hdelivery : sim.watch.delivery with
  | none => exact Or.inl ⟨rfl, by simp [simulatorStep, hdelivery]⟩
  | some version =>
    refine Or.inr ⟨version, rfl, ?_⟩
    cases hload : version.bind reload with
    | none => simp [simulatorStep, hdelivery, hload, loadNext, Simulator.users]
    | some store => simp [simulatorStep, hdelivery, hload, loadNext, Simulator.users, step]

/-! ## 3. The store -/

/-- The users of the simulator are those of the first `k` versions. -/
def Shows (users : UserStore) (sim : Simulator) (k : Nat) : Prop := Behind reload users sim.watch sim.users k

/-- No step goes back. -/
theorem Shows.step {users : UserStore} {sim : Simulator} {k : Nat} (h : Shows users sim k) (crates : Crates)
    (e : SimulatorEvent) : ∃ k' ≥ k, Shows users (simulatorStep crates sim e).1 k' := by
  cases e with
  | write version => exact ⟨k, le_rfl, Behind.write h version⟩
  | relist => exact ⟨k, le_rfl, Behind.relist h⟩
  | request i own =>
    refine ⟨k, le_rfl, ?_⟩
    show Behind reload users sim.watch (OAuth.step crates sim.server i).1.oauth.userStore k
    rw [userStore_step crates sim.server own]
    exact h
  | deliver env =>
    rcases simulatorStep_deliver crates sim env with ⟨hnone, heq⟩ | ⟨version, hversion, hwatch, husers⟩
    · have hpass : sim.watch.pass = sim.watch := by rw [Watch.pass, hnone]; rfl
      rw [heq, hpass]
      exact ⟨k, le_rfl, h⟩
    · obtain ⟨k', hle, hbehind⟩ := Behind.deliver h hversion
      refine ⟨k', hle, ?_⟩
      rw [Shows, hwatch, husers]
      exact hbehind

theorem shows_start (users : UserStore) (authMode : AuthMode) (keys : JwtKeys) (secret : Option Secret) :
    Shows users (.start users authMode keys secret) 0 := behind_start users secret

theorem exists_shows (crates : Crates) (users : UserStore) (authMode : AuthMode) (keys : JwtKeys)
    (secret : Option Secret) (run : List SimulatorEvent) :
    ∃ k, Shows users ((simulator crates).exec (.start users authMode keys secret) run) k := by
  refine (simulator crates).invariant (P := fun sim => ∃ k, Shows users sim k)
    ⟨0, shows_start users authMode keys secret⟩ ?_ run
  rintro sim e ⟨k, hshows⟩
  exact (hshows.step crates e).imp fun _ h => h.2

/-- **The store follows the Secret.**  In every run it is the store of a first part of the Secret's versions; the
part grows from none of them, never gets shorter, and when there is nothing to deliver and the Secret has the key
it is all of them. -/
theorem store_follows_secret (crates : Crates) (users : UserStore) (authMode : AuthMode) (keys : JwtKeys)
    (secret : Option Secret) (run : List SimulatorEvent) :
    ∃ seen : Nat → Nat, seen 0 = 0 ∧ Monotone seen ∧ ∀ n,
      let sim := (simulator crates).exec (.start users authMode keys secret) (run.take n)
      seen n ≤ sim.watch.versions.length ∧ sim.users = lastLoaded reload users (sim.watch.versions.take (seen n)) ∧
      ∀ object store, sim.watch.Idle → sim.watch.current = some object → reload object = some store →
        seen n = sim.watch.versions.length ∧ sim.users = store := by
  obtain ⟨seen, hzero, hmono, hall⟩ := (simulator crates).exists_monotone (P := fun _ => Shows users) run
    (fun _ sim k e _ h => h.step crates e) (shows_start users authMode keys secret)
  refine ⟨seen, hzero, hmono, fun n => ⟨(hall n).seen_le, (hall n).copy_eq, ?_⟩⟩
  intro object store hidle hcurrent hload
  have hseen := (hall n).caught_up hidle object hcurrent (by rw [hload]; rfl)
  refine ⟨hseen, ?_⟩
  have hcopy := (hall n).copy_eq
  rw [hseen, List.take_length] at hcopy
  exact hcopy.trans (lastLoaded_of_current reload hcurrent hload users)

/-! ## 4. Who holds a code or a token -/

/-- What holds of everybody for whom the server holds a code, an exchange or a token. -/
structure Holders (Q : String → Prop) (s : Server) : Prop where
  codes : ∀ code authCode, s.oauth.codes.get code = some authCode → Q authCode.username
  exchanges : ∀ id x, s.exchanges.get id = some x → Q x.authCode.username
  tokens : ∀ token info, s.oauth.tokens.get token = some info → Q info.username

theorem Holders.mono {Q Q' : String → Prop} {s : Server} (h : Holders Q s) (hQ : ∀ user, Q user → Q' user) :
    Holders Q' s :=
  ⟨fun code authCode hget => hQ _ (h.codes code authCode hget), fun id x hget => hQ _ (h.exchanges id x hget),
    fun token info hget => hQ _ (h.tokens token info hget)⟩

/-- A step adds nobody whom the users do not list. -/
theorem Holders.effect {Q : String → Prop} {crates : Crates} {s s' : Server} {i : Input} {out : Option Response}
    (heff : Effect crates s i s' out) (hQ : ∀ user password, s.oauth.userStore.Accepts user password → Q user)
    (h : Holders Q s) : Holders Q s' := by
  cases heff with
  | idle _ => exact h
  | issued granted status action =>
    rename_i g _
    refine ⟨fun code authCode hget => ?_, h.exchanges, h.tokens⟩
    rcases Map.get_insert_eq_some.mp hget with ⟨-, rfl⟩ | ⟨-, hold⟩
    · obtain ⟨password, entry, hentry⟩ := granted.authenticated
      exact hQ g.username password (Option.isSome_iff_exists.mpr ⟨entry, hentry⟩)
    · exact h.codes code authCode hold
  | spoiled _ _ =>
    exact ⟨fun code authCode hget => h.codes code authCode (Map.get_erase_eq_some.mp hget).2, h.exchanges, h.tokens⟩
  | consumed free found clientId verifier =>
    refine ⟨fun code authCode hget => h.codes code authCode (Map.get_erase_eq_some.mp hget).2, fun id x hget => ?_,
      h.tokens⟩
    rcases Map.get_insert_eq_some.mp hget with ⟨-, rfl⟩ | ⟨-, hold⟩
    · exact h.codes _ _ found
    · exact h.exchanges id x hold
  | dropped _ =>
    exact ⟨h.codes, fun id x hget => h.exchanges id x (Map.get_erase_eq_some.mp hget).2, h.tokens⟩
  | cleared action pending secret =>
    rename_i id' req authCode
    refine ⟨h.codes, fun id x hget => ?_, h.tokens⟩
    rcases Map.get_insert_eq_some.mp hget with ⟨-, rfl⟩ | ⟨-, hold⟩
    · exact h.exchanges id' ⟨false, req, authCode⟩ pending
    · exact h.exchanges id x hold
  | answered action pending mint =>
    refine ⟨h.codes, fun id x hget => h.exchanges id x (Map.get_erase_eq_some.mp hget).2, fun token info hget => ?_⟩
    rcases Map.get_insert_eq_some.mp hget with ⟨-, rfl⟩ | ⟨-, hold⟩
    · exact h.exchanges _ _ pending
    · exact h.tokens token info hold
  | sweptCodes _ =>
    exact ⟨fun code authCode hget => h.codes code authCode (Map.get_retain_eq_some.mp hget).1, h.exchanges, h.tokens⟩
  | sweptTokens _ =>
    exact ⟨h.codes, h.exchanges, fun token info hget => h.tokens token info (Map.get_retain_eq_some.mp hget).1⟩
  | reloaded => exact ⟨h.codes, h.exchanges, h.tokens⟩

/-- Somebody who is, or was, listed with some password. -/
def Listed (users : UserStore) (versions : List (Option Secret)) (user : String) : Prop :=
  ∃ k ≤ versions.length, ∃ password, (lastLoaded reload users (versions.take k)).Accepts user password

theorem Listed.append {users : UserStore} {versions : List (Option Secret)} {user : String}
    (h : Listed users versions user) (version : Option Secret) : Listed users (versions ++ [version]) user := by
  obtain ⟨k, hle, haccepts⟩ := h
  refine ⟨k, hle.trans (by simp), ?_⟩
  rwa [List.take_append_of_le_length hle]

theorem Shows.listed {users : UserStore} {sim : Simulator} {k : Nat} (h : Shows users sim k) (user password : String)
    (haccepts : sim.server.oauth.userStore.Accepts user password) : Listed users sim.watch.versions user := by
  have hcopy : sim.server.oauth.userStore = _ := h.copy_eq
  exact ⟨k, h.seen_le, password, hcopy ▸ haccepts⟩

/-- **Codes and tokens are held only for users who are or were listed**: in the users of the start, or in the store
of some version of the Secret. -/
theorem holders_were_listed (crates : Crates) (users : UserStore) (authMode : AuthMode) (keys : JwtKeys)
    (secret : Option Secret) (run : List SimulatorEvent) :
    let sim := (simulator crates).exec (.start users authMode keys secret) run
    Holders (Listed users sim.watch.versions) sim.server := by
  have hinit : Holders (Listed users [secret]) (Server.init users authMode keys) :=
    ⟨fun _ _ hget => absurd hget (by simp [Server.init, OAuthState.new]),
      fun _ _ hget => absurd hget (by simp [Server.init]),
      fun _ _ hget => absurd hget (by simp [Server.init, OAuthState.new])⟩
  refine ((simulator crates).invariant
    (P := fun sim => (∃ k, Shows users sim k) ∧ Holders (Listed users sim.watch.versions) sim.server)
    ⟨⟨0, shows_start users authMode keys secret⟩, hinit⟩ ?_ run).2
  rintro sim e ⟨⟨k, hshows⟩, hholders⟩
  refine ⟨(hshows.step crates e).imp fun _ h => h.2, ?_⟩
  cases e with
  | write version => exact hholders.mono fun user hlisted => hlisted.append version
  | relist => exact hholders
  | request i own => exact hholders.effect (step_effect crates sim.server i) hshows.listed
  | deliver env =>
    show Holders (Listed users (simulatorStep crates sim (.deliver env)).1.watch.versions) _
    simp only [simulator, simulatorStep]
    split
    · exact hholders.effect (step_effect crates sim.server _) hshows.listed
    · exact hholders

/-! ## 5. A Secret that goes -/

/-- An event that is not a write leaves the versions alone. -/
theorem versions_simulatorStep (crates : Crates) (sim : Simulator) {e : SimulatorEvent}
    (own : ∀ version, e ≠ .write version) : (simulatorStep crates sim e).1.watch.versions = sim.watch.versions := by
  cases e with
  | write version => exact absurd rfl (own version)
  | relist => rfl
  | request i _ => rfl
  | deliver env =>
    simp only [simulatorStep]
    split <;> rfl

/-- The versions are those of before and some that cannot be loaded. -/
def Adds (versions : List (Option Secret)) (watch : Watch Secret) : Prop :=
  ∃ added, watch.versions = versions ++ added ∧ ∀ version ∈ added, version.bind reload = none

theorem Adds.step {versions : List (Option Secret)} {sim : Simulator} (h : Adds versions sim.watch) (crates : Crates)
    {e : SimulatorEvent} (hwrite : ∀ version, e = .write version → version.bind reload = none) :
    Adds versions (simulatorStep crates sim e).1.watch := by
  obtain ⟨added, heq, hadded⟩ := h
  by_cases hown : ∀ version, e ≠ .write version
  · exact ⟨added, (versions_simulatorStep crates sim hown).trans heq, hadded⟩
  · obtain ⟨version, rfl⟩ := not_forall_not.mp hown
    refine ⟨added ++ [version], ?_, fun v hv => ?_⟩
    · show sim.watch.versions ++ [version] = _
      rw [heq, List.append_assoc]
    · rcases List.mem_append.mp hv with hv | hv
      · exact hadded v hv
      · rw [List.mem_singleton.mp hv]
        exact hwrite version rfl

/-- From the place on that has everything of before, the store stays. -/
theorem Adds.users_eq {users : UserStore} {versions : List (Option Secret)} {sim : Simulator} {k : Nat}
    (h : Adds versions sim.watch) (hshows : Shows users sim k) (hle : versions.length ≤ k) :
    sim.users = lastLoaded reload users versions := by
  obtain ⟨added, heq, hadded⟩ := h
  have hcopy := hshows.copy_eq
  rw [heq, List.take_append, List.take_of_length_le hle] at hcopy
  rw [hcopy]
  exact lastLoaded_append_of_none reload users _ fun version hversion => hadded version (List.mem_of_mem_take hversion)

/-- A run of such writes, with any other events between them.  The induction is over the events; the place only
grows. -/
theorem Adds.exec {users : UserStore} {versions : List (Option Secret)} {sim : Simulator} {k : Nat}
    (h : Adds versions sim.watch) (crates : Crates) (hshows : Shows users sim k) (hle : versions.length ≤ k)
    (run : List SimulatorEvent) (hwrites : ∀ version, .write version ∈ run → version.bind reload = none) :
    ((simulator crates).exec sim run).users = lastLoaded reload users versions := by
  induction run generalizing sim k with
  | nil => exact h.users_eq hshows hle
  | cons e run ih =>
    obtain ⟨k', hle', hshows'⟩ := hshows.step crates e
    have hstep := h.step crates fun version he => hwrites version (he ▸ List.mem_cons_self)
    exact ih hstep hshows' (hle.trans hle') fun version hv => hwrites version (List.mem_cons_of_mem _ hv)

/-- **Taking the Secret or its key away locks nobody out.**  When the store has caught up with a Secret that has the
key, and from then on the Secret is only deleted or written without a text for the key, the users stay as they are,
whatever is delivered, listed and asked. -/
theorem removal_locks_nobody_out (crates : Crates) (users : UserStore) (authMode : AuthMode) (keys : JwtKeys)
    (secret : Option Secret) (before after : List SimulatorEvent) {object : Secret}
    (hidle : ((simulator crates).exec (.start users authMode keys secret) before).watch.Idle)
    (hcurrent : ((simulator crates).exec (.start users authMode keys secret) before).watch.current = some object)
    (hload : (reload object).isSome) (hwrites : ∀ version, .write version ∈ after → version.bind reload = none) :
    ((simulator crates).exec (.start users authMode keys secret) (before ++ after)).users =
      ((simulator crates).exec (.start users authMode keys secret) before).users := by
  obtain ⟨k, hshows⟩ := exists_shows crates users authMode keys secret before
  rw [Machine.exec_append]
  generalize (simulator crates).exec (.start users authMode keys secret) before = sim at hidle hcurrent hshows
  have hk := hshows.caught_up hidle object hcurrent hload
  have hnow : Adds sim.watch.versions sim.watch :=
    ⟨[], (List.append_nil _).symm, fun _ h => absurd h List.not_mem_nil⟩
  rw [hnow.users_eq hshows hk.ge]
  exact hnow.exec crates hshows hk.ge after hwrites

/-- The first delivery of a new process. -/
theorem exec_first_delivery (crates : Crates) (users : UserStore) (authMode : AuthMode) (keys : JwtKeys) (env : Env)
    {object : Secret} {store : UserStore} (hload : reload object = some store) :
    (simulator crates).exec (.start users authMode keys (some object)) [.deliver env] =
      ⟨⟨[some object], 1⟩, .init store authMode keys⟩ := by
  simp [Machine.exec, simulator, simulatorStep, Simulator.start, Watch.start, Watch.relist, Watch.delivery,
    Watch.pass, Watch.current, hload, step, Server.init, OAuthState.new]

/-- The users of a Secret that is deleted. -/
theorem removal_locks_nobody_out_deleted :
    ((simulator unsignedCrates).exec (.start .default .legacy ⟨"", ""⟩ (some (.ofText "alice:pass\n")))
      ([.deliver (sampleEnv 0 "r")] ++ [.write none, .deliver (sampleEnv 1 "s"), .relist])).users =
    .fromHtpasswd "alice:pass\n" := by
  have hfirst := exec_first_delivery unsignedCrates .default .legacy ⟨"", ""⟩ (sampleEnv 0 "r")
    (reload_ofText "alice:pass\n")
  have hcurrent : ((simulator unsignedCrates).exec (.start .default .legacy ⟨"", ""⟩ (some (.ofText "alice:pass\n")))
      [.deliver (sampleEnv 0 "r")]).watch.current = some (.ofText "alice:pass\n") := by
    rw [hfirst]
    rfl
  refine (removal_locks_nobody_out unsignedCrates .default .legacy ⟨"", ""⟩ _ [.deliver (sampleEnv 0 "r")]
    [.write none, .deliver (sampleEnv 1 "s"), .relist] ?_ hcurrent ?_ ?_).trans ?_
  · rw [hfirst]
    rfl
  · rw [reload_ofText]
    rfl
  · intro version hwrite
    obtain rfl : version = none := by simpa using hwrite
    rfl
  · rw [hfirst]
    rfl

end Picoshift.OAuth
