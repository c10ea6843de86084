/-
# Are the addresses distinct, and do they stay?

Two questions about the addresses that the load balancer controller hands out, both answered by
what it does not look at.

* **Distinct and usable.**  The counter knows nothing of the addresses that are held.  So a write is
  good exactly when the counter happens to stand at a number of a host that no other Service holds,
  and all states of a run are good exactly when all its writes are (`addresses_sound_iff`).  One
  process that draws no more than 254 times is safe (`sound_of_few_draws`); a second process starts
  at 1 again.
* **Stable.**  The patch does not look at the Service.  So an address stays, whatever happens to the
  Service, exactly when no event that is still to be handled shows the Service without an address
  (`address_stays_iff`).
-/
import Picoshift.LoadBalancer.Controller

namespace Picoshift.LoadBalancer

/-! ## 1. Addresses -/

theorem lbIp_inj {m n : UInt8} (h : lbIp m = lbIp n) : m = n := by
  have hlist := congrArg String.toList h
  simp only [lbIp, String.toList_append, Str.toList_toString] at hlist
  exact UInt8.toNat_inj.mp (Str.toDigits_inj (List.append_cancel_left hlist))

/-- A host address of 10.254.0.0/24. -/
def Usable (ip : String) : Prop := ∃ n : UInt8, n ≠ 0 ∧ n ≠ 255 ∧ ip = lbIp n

theorem usable_lbIp {n : UInt8} : Usable (lbIp n) ↔ n ≠ 0 ∧ n ≠ 255 := by
  constructor
  · rintro ⟨m, hm, hm', heq⟩
    obtain rfl := lbIp_inj heq
    exact ⟨hm, hm'⟩
  · rintro ⟨hn, hn'⟩
    exact ⟨n, hn, hn', rfl⟩

/-- An existing Service holds an address. -/
def Holds (services : Map Key Service) (key : Key) (ip : String) : Prop :=
  ∃ svc, services.get key = some svc ∧ ip ∈ svc.ingress.getD []

theorem holds_insert {services : Map Key Service} {key key' : Key} {svc : Service} {ip : String} :
    Holds (services.insert key svc) key' ip ↔
      (key' = key ∧ ip ∈ svc.ingress.getD []) ∨ (key' ≠ key ∧ Holds services key' ip) := by
  by_cases hkey : key' = key
  · subst hkey
    simp [Holds]
  · simp [Holds, hkey]

theorem Holds.of_erase {services : Map Key Service} {key key' : Key} {ip : String}
    (h : Holds (services.erase key) key' ip) : Holds services key' ip := by
  obtain ⟨svc, hget, hip⟩ := h
  exact ⟨svc, (Map.get_erase_eq_some.mp hget).2, hip⟩

theorem Service.mem_of_mem_update {svc : Service} {type : Option String} {cleared : Bool}
    {ip : String} (h : ip ∈ (svc.update type cleared).ingress.getD []) :
    ip ∈ svc.ingress.getD [] := by
  rw [Service.update] at h
  dsimp only at h
  split at h
  · cases h
  · exact h

/-- No two Services hold one address, and every address is usable. -/
structure Sound (s : World) : Prop where
  distinct : ∀ key key' ip, Holds s.services key ip → Holds s.services key' ip → key = key'
  usable : ∀ key ip, Holds s.services key ip → Usable ip

theorem sound_init : Sound World.init := by
  constructor
  · rintro key key' ip ⟨svc, hget, -⟩
    cases hget
  · rintro key ip ⟨svc, hget, -⟩
    cases hget

/-- The step writes an address into this Service. -/
def Assigns (s : World) (i : Input) (key : Key) : Prop :=
  i = .event key true ∧ s.Draws key ∧ (s.services.get key).isSome = true

/-- When the step writes an address, the counter stands at a host, and at one that no other Service
holds. -/
def Free (s : World) (i : Input) : Prop :=
  ∀ key, Assigns s i key → s.nextOctet ≠ 0 ∧ s.nextOctet ≠ 255 ∧
    ∀ other ≠ key, ¬ Holds s.services other (lbIp s.nextOctet)

/-! ## 2. One step -/

/-- Only an event gives a Service an address. -/
theorem holds_of_step {s : World} {i : Input} (hi : ∀ key patchOk, i ≠ .event key patchOk)
    {key : Key} {ip : String} (h : Holds (s.step i).services key ip) : Holds s.services key ip := by
  cases i with
  | create key' type =>
    rw [World.step] at h
    split at h
    · exact h
    · rcases holds_insert.mp h with ⟨-, hip⟩ | ⟨-, hold⟩
      · cases hip
      · exact hold
  | update key' type cleared =>
    rw [World.step] at h
    split at h
    · exact h
    · rename_i svc hsvc
      rcases holds_insert.mp h with ⟨rfl, hip⟩ | ⟨-, hold⟩
      · exact ⟨svc, hsvc, Service.mem_of_mem_update hip⟩
      · exact hold
  | delete key' =>
    rw [World.step] at h
    split at h
    · exact h
    · exact h.of_erase
  | event key' patchOk => exact absurd rfl (hi key' patchOk)
  | relist => exact h
  | restart => exact h

/-- **What a step does to the addresses.**  It writes one, or no Service gets one that it has not
had. -/
theorem step_holds (s : World) (i : Input) :
    (∃ key, Assigns s i key ∧ ∀ key' ip, Holds (s.step i).services key' ip ↔
      (key' = key ∧ ip = lbIp s.nextOctet) ∨ (key' ≠ key ∧ Holds s.services key' ip)) ∨
    ((∀ key, ¬ Assigns s i key) ∧
      ∀ key ip, Holds (s.step i).services key ip → Holds s.services key ip) := by
  by_cases hevent : ∃ key patchOk, i = .event key patchOk
  · obtain ⟨key, patchOk, rfl⟩ := hevent
    have heff := event_effect s key patchOk
    rw [World.step]
    generalize s.handle key patchOk = s' at heff ⊢
    cases heff with
    | skipped hno =>
      refine Or.inr ⟨?_, fun _ _ h => h⟩
      rintro key' ⟨heq, hdraws, -⟩
      cases heq
      exact hno hdraws
    | drawn hdraws hno =>
      refine Or.inr ⟨?_, fun _ _ h => h⟩
      rintro key' ⟨heq, -, hsome⟩
      cases heq
      rcases hno with hno | hno
      · cases hno
      · rw [hno] at hsome
        cases hsome
    | written hdraws hok hlive =>
      subst hok
      refine Or.inl ⟨key, ⟨rfl, hdraws, by rw [hlive]; rfl⟩, ?_⟩
      intro key' ip
      rw [holds_insert]
      simp
  · refine Or.inr ⟨fun key h => hevent ⟨key, _, h.1⟩, fun key ip h => holds_of_step ?_ h⟩
    intro key' patchOk heq
    exact hevent ⟨key', patchOk, heq⟩

/-- A step keeps the addresses distinct and usable exactly when what it writes is free. -/
theorem sound_step_iff (s : World) (i : Input) (h : Sound s) : Sound (s.step i) ↔ Free s i := by
  rcases step_holds s i with ⟨key, hassigns, hholds⟩ | ⟨hno, hholds⟩
  · have hnew : Holds (s.step i).services key (lbIp s.nextOctet) :=
      (hholds _ _).mpr (Or.inl ⟨rfl, rfl⟩)
    constructor
    · intro hsound key' hassigns'
      obtain rfl : key' = key := by
        have heq := hassigns'.1.symm.trans hassigns.1
        cases heq
        rfl
      obtain ⟨hzero, hlast⟩ := usable_lbIp.mp (hsound.usable _ _ hnew)
      refine ⟨hzero, hlast, ?_⟩
      intro other hother hheld
      exact hother (hsound.distinct _ _ _ ((hholds _ _).mpr (Or.inr ⟨hother, hheld⟩)) hnew)
    · intro hfree
      obtain ⟨hzero, hlast, hothers⟩ := hfree key hassigns
      constructor
      · intro key₁ key₂ ip h₁ h₂
        rcases (hholds _ _).mp h₁ with ⟨rfl, rfl⟩ | ⟨hne₁, hold₁⟩
        · rcases (hholds _ _).mp h₂ with ⟨rfl, -⟩ | ⟨hne₂, hold₂⟩
          · rfl
          · exact absurd hold₂ (hothers _ hne₂)
        · rcases (hholds _ _).mp h₂ with ⟨rfl, rfl⟩ | ⟨-, hold₂⟩
          · exact absurd hold₁ (hothers _ hne₁)
          · exact h.distinct _ _ _ hold₁ hold₂
      · intro key' ip h'
        rcases (hholds _ _).mp h' with ⟨-, rfl⟩ | ⟨-, hold⟩
        · exact usable_lbIp.mpr ⟨hzero, hlast⟩
        · exact h.usable _ _ hold
  · constructor
    · intro _ key hassigns
      exact absurd hassigns (hno key)
    · intro _
      exact ⟨fun _ _ _ h₁ h₂ => h.distinct _ _ _ (hholds _ _ h₁) (hholds _ _ h₂),
        fun _ _ h' => h.usable _ _ (hholds _ _ h')⟩

/-! ## 3. Whole runs -/

/-- **In every state of a run no two Services hold one address and every address is a host of
10.254.0.0/24, exactly when every address that the run writes is free when it is written.** -/
theorem addresses_sound_iff (run : List Input) :
    (∀ n, Sound (cluster.exec World.init (run.take n))) ↔
      ∀ e ∈ cluster.trace World.init run, Free e.before e.input :=
  cluster.forall_take_iff sound_step_iff sound_init run

/-- One process, and `draws` numbers drawn by it: the counter stands right behind them, and only
they are held. -/
structure Counted (draws : Nat) (s : World) : Prop where
  next : s.nextOctet = UInt8.ofNat (draws + 1)
  held : ∀ key ip, Holds s.services key ip → ∃ n, 1 ≤ n ∧ n ≤ draws ∧ ip = lbIp (UInt8.ofNat n)

/-- The step draws a number. -/
def drawsAt (s : World) : Input → Bool
  | .event key _ => s.Draws key
  | _ => false

/-- How many numbers a run drew. -/
def draws (h : List (Entry World Input Unit)) : Nat := h.countP fun e => drawsAt e.before e.input

theorem draws_append_singleton (h : List (Entry World Input Unit)) (s : World) (i : Input) :
    draws (h ++ [cluster.entry s i]) = draws h + (if drawsAt s i then 1 else 0) := by
  rw [draws, List.countP_append, List.countP_singleton]
  rfl

/-- A step of the process. -/
theorem Counted.step {n : Nat} {s : World} (h : Counted n s) {i : Input} (hi : i ≠ .restart) :
    Counted (n + if drawsAt s i then 1 else 0) (s.step i) := by
  have hnext : (s.step i).nextOctet = s.nextOctet + if drawsAt s i then 1 else 0 := by
    cases i with
    | create key type =>
      rw [World.step]
      split <;> simp [drawsAt]
    | update key type cleared =>
      rw [World.step]
      split <;> simp [drawsAt]
    | delete key =>
      rw [World.step]
      split <;> simp [drawsAt]
    | event key patchOk =>
      have heff := event_effect s key patchOk
      rw [World.step]
      generalize s.handle key patchOk = s' at heff ⊢
      cases heff with
      | skipped hno => simp [drawsAt, hno]
      | drawn hdraws hno => simp [drawsAt, hdraws]
      | written hdraws hok hlive => simp [drawsAt, hdraws]
    | relist => simp [World.step, drawsAt]
    | restart => exact absurd rfl hi
  refine ⟨?_, ?_⟩
  · rw [hnext, h.next]
    split
    · rw [UInt8.ofNat_add (n + 1)]
      rfl
    · exact UInt8.add_zero _
  · intro key ip hip
    rcases step_holds s i with ⟨key', ⟨rfl, hdraws, -⟩, hholds⟩ | ⟨-, hholds⟩
    · have hat : drawsAt s (.event key' true) = true := by simp [drawsAt, hdraws]
      rcases (hholds key ip).mp hip with ⟨-, rfl⟩ | ⟨-, hold⟩
      · exact ⟨n + 1, by omega, by rw [if_pos hat], by rw [h.next]⟩
      · obtain ⟨m, hpos, hle, heq⟩ := h.held key ip hold
        exact ⟨m, hpos, by omega, heq⟩
    · obtain ⟨m, hpos, hle, heq⟩ := h.held key ip (hholds key ip hip)
      exact ⟨m, hpos, by omega, heq⟩

theorem ofNat_inj_of_lt {m n : Nat} (hm : m < 256) (hn : n < 256)
    (h : UInt8.ofNat m = UInt8.ofNat n) : m = n := by
  have hnat := congrArg UInt8.toNat h
  rwa [UInt8.toNat_ofNat_of_lt' hm, UInt8.toNat_ofNat_of_lt' hn] at hnat

/-- What a process writes is free as long as it has not drawn 254 numbers. -/
theorem Counted.free {n : Nat} {s : World} (h : Counted n s) (hn : n < 254) (i : Input) :
    Free s i := by
  intro key _
  have hne : ∀ m < 256, m ≠ n + 1 → s.nextOctet ≠ UInt8.ofNat m := by
    intro m hm hmn heq
    rw [h.next] at heq
    exact hmn (ofNat_inj_of_lt (by omega) hm heq).symm
  refine ⟨hne 0 (by omega) (by omega), hne 255 (by omega) (by omega), ?_⟩
  intro other _ hheld
  obtain ⟨m, -, hle, heq⟩ := h.held _ _ hheld
  exact hne m (by omega) (by omega) (lbIp_inj heq)

/-- **One process that draws no more than 254 numbers is safe.** -/
theorem sound_of_few_draws (run : List Input) (hrestart : .restart ∉ run)
    (hdraws : draws (cluster.trace World.init run) ≤ 254) (n : Nat) :
    Sound (cluster.exec World.init (run.take n)) := by
  -- the counter follows the draws, and every write so far was free
  let P := fun (h : List (Entry World Input Unit)) (s : World) =>
    Counted (draws h) s ∧ ∀ e ∈ h, Free e.before e.input
  let Ok := fun h : List (Entry World Input Unit) =>
    (∀ e ∈ h, e.input ≠ .restart) ∧ draws h ≤ 254
  have hinit : P [] World.init := by
    refine ⟨⟨rfl, ?_⟩, fun _ he => absurd he List.not_mem_nil⟩
    rintro key ip ⟨svc, hget, -⟩
    cases hget
  have hstep : ∀ h s i, P h s → Ok (h ++ [cluster.entry s i]) →
      P (h ++ [cluster.entry s i]) (cluster.step s i).1 := by
    rintro h s i ⟨hcounted, hfree⟩ ⟨hno, hle⟩
    rw [draws_append_singleton] at hle
    have hi : i ≠ .restart := hno _ (List.mem_append_right _ List.mem_cons_self)
    refine ⟨?_, ?_⟩
    · rw [draws_append_singleton]
      exact hcounted.step hi
    · intro e he
      rcases List.mem_append.mp he with he | he
      · exact hfree e he
      · obtain rfl := List.mem_singleton.mp he
        intro key hassigns
        have hat : drawsAt s i = true := by
          have hevent : i = .event key true := hassigns.1
          have hdraw : s.Draws key := hassigns.2.1
          rw [hevent]
          simp [drawsAt, hdraw]
        rw [if_pos hat] at hle
        exact hcounted.free (by omega) i key hassigns
  have hshorter : ∀ h e, Ok (h ++ [e]) → Ok h := by
    rintro h e ⟨hno, hle⟩
    refine ⟨fun e' he' => hno e' (List.mem_append_left _ he'), ?_⟩
    rw [draws, List.countP_append] at hle
    exact le_trans (Nat.le_add_right _ _) hle
  have hok : Ok (cluster.trace World.init run) := by
    refine ⟨?_, hdraws⟩
    intro e he heq
    have hmem := List.mem_map_of_mem (f := Entry.input) he
    rw [cluster.map_input_trace, heq] at hmem
    exact hrestart hmem
  obtain ⟨-, hfree⟩ := cluster.run_induction hshorter hinit hstep run hok
  exact (cluster.forall_take_iff sound_step_iff sound_init run).mpr hfree n

/-! ## 4. The second process starts at 1 again -/

/-- Two Services, one created before and one after a restart. -/
def restartRun : List Input :=
  [.create ("a", "web") (some "LoadBalancer"), .event ("a", "web") true, .restart,
    .create ("b", "web") (some "LoadBalancer"), .event ("b", "web") true]

/-- Both hold 10.254.0.1. -/
theorem addresses_unsound_restartRun :
    ¬ ∀ n, Sound (cluster.exec World.init (restartRun.take n)) := by
  intro h
  have hfinal : Sound (cluster.exec World.init restartRun) := h 5
  have hheld : ∀ key ∈ [("a", "web"), ("b", "web")],
      Holds (cluster.exec World.init restartRun).services key "10.254.0.1" := by
    intro key hkey
    have hget : (cluster.exec World.init restartRun).services.get key =
        some ⟨some "LoadBalancer", some ["10.254.0.1"]⟩ := by
      revert key
      decide +kernel
    exact ⟨_, hget, List.mem_cons_self⟩
  have heq := hfinal.distinct _ _ _ (hheld ("a", "web") List.mem_cons_self)
    (hheld ("b", "web") (List.mem_cons_of_mem _ List.mem_cons_self))
  exact absurd heq (by decide)

/-! ## 5. Does an address stay? -/

/-- The Service is not deleted, and its address is not cleared with a change of its type. -/
def Undisturbed (key : Key) (run : List Input) : Prop :=
  ∀ i ∈ run, i ≠ .delete key ∧
    ∀ type, (⟨type, none⟩ : Service).isLb = false → i ≠ .update key type true

/-- An event that has not been handled yet shows the Service without an address. -/
def World.Stale (s : World) (key : Key) : Prop :=
  ∃ svc, some svc ∈ s.feed.pending key ∧ needsIp svc = true

theorem World.Draws.stale {s : World} {key : Key} (h : s.Draws key) : s.Stale key := by
  obtain ⟨svc, hhead, hneeds⟩ := h
  exact ⟨svc, List.mem_of_mem_head? hhead, hneeds⟩

theorem needsIp_of_ingress {svc : Service} (h : svc.ingress.getD [] ≠ []) :
    needsIp svc = false := by
  rw [needsIp]
  split
  · rfl
  · cases hingress : svc.ingress with
    | none =>
      rw [hingress] at h
      exact absurd rfl h
    | some list =>
      rw [hingress] at h
      simpa using h

/-- The Service has these addresses, and no stale event. -/
structure Settled (key : Key) (ingress : Option (List String)) (s : World) : Prop where
  live : ∃ svc, s.services.get key = some svc ∧ svc.ingress = ingress
  fresh : ¬ s.Stale key

/-- Adding an event of a Service that has an address makes nothing stale. -/
theorem not_stale_push {s : World} {key key' : Key} {state : Option Service}
    (h : ¬ s.Stale key) (hstate : key = key' → ∀ svc, state = some svc → needsIp svc = false)
    {services : Map Key Service} {nextOctet : UInt8} :
    ¬ World.Stale ⟨services, s.feed.push key' state, nextOctet⟩ key := by
  rintro ⟨svc, hmem, hneeds⟩
  rcases Feed.mem_pending_push.mp hmem with hold | ⟨hkey, heq⟩
  · exact h ⟨svc, hold, hneeds⟩
  · rw [hstate hkey svc heq.symm] at hneeds
    cases hneeds

/-- Nor does handling an event. -/
theorem not_stale_pop {s : World} {key : Key} (key' : Key) (h : ¬ s.Stale key)
    {services : Map Key Service} {nextOctet : UInt8} :
    ¬ World.Stale ⟨services, s.feed.pop key', nextOctet⟩ key := by
  rintro ⟨svc, hmem, hneeds⟩
  exact h ⟨svc, Feed.mem_pending_of_mem_pop hmem, hneeds⟩

/-- Nor does a new list of the Services. -/
theorem not_stale_relist {services : Map Key Service} {key : Key} {svc : Service}
    (hsvc : services.get key = some svc) (h : needsIp svc = false) {nextOctet : UInt8} :
    ¬ World.Stale ⟨services, Feed.relist services, nextOctet⟩ key := by
  rintro ⟨svc', hmem, hneeds⟩
  obtain ⟨svc'', heq, hget⟩ := Feed.mem_pending_relist.mp hmem
  rw [hsvc, ← heq, Option.some.injEq] at hget
  rw [← hget, h] at hneeds
  cases hneeds

section

variable {key : Key} {ingress : Option (List String)} {s : World}

/-- A change of another Service leaves the Service alone. -/
theorem Settled.put_ne (h : Settled key ingress s) {key' : Key} (hne : key ≠ key') (svc : Service)
    (nextOctet : UInt8) : Settled key ingress
      ⟨s.services.insert key' svc, s.feed.push key' (some svc), nextOctet⟩ := by
  obtain ⟨⟨live, hlive, hsame⟩, hfresh⟩ := h
  exact ⟨⟨live, (Map.get_insert_ne svc hne).trans hlive, hsame⟩,
    not_stale_push hfresh fun heq => absurd heq hne⟩

/-- So does handling an event. -/
theorem Settled.pop (h : Settled key ingress s) (key' : Key) (nextOctet : UInt8) :
    Settled key ingress ⟨s.services, s.feed.pop key', nextOctet⟩ :=
  ⟨h.live, not_stale_pop key' h.fresh⟩

theorem Settled.relist (hingress : ingress.getD [] ≠ []) (h : Settled key ingress s)
    (nextOctet : UInt8) : Settled key ingress ⟨s.services, Feed.relist s.services, nextOctet⟩ := by
  obtain ⟨⟨live, hlive, hsame⟩, -⟩ := h
  exact ⟨⟨live, hlive, hsame⟩, not_stale_relist hlive (needsIp_of_ingress (by rwa [hsame]))⟩

/-- A change of the Service itself that does not clear its addresses. -/
theorem Settled.update (hingress : ingress.getD [] ≠ []) (h : Settled key ingress s) {svc : Service}
    (hsvc : s.services.get key = some svc) {type : Option String} {cleared : Bool}
    (hi : Undisturbed key [.update key type cleared]) : Settled key ingress
      { s with
        services := s.services.insert key (svc.update type cleared)
        feed := s.feed.push key (some (svc.update type cleared)) } := by
  obtain ⟨⟨live, hlive, hsame⟩, hfresh⟩ := h
  obtain rfl : live = svc := Option.some.inj (hlive.symm.trans hsvc)
  have hkept : (live.update type cleared).ingress = ingress := by
    rw [Service.update, if_neg]
    · exact hsame
    · rintro ⟨rfl, hno⟩
      exact (hi _ List.mem_cons_self).2 type hno rfl
  refine ⟨⟨_, Map.get_insert_self _ _ _, hkept⟩, not_stale_push hfresh fun _ svc' heq => ?_⟩
  obtain rfl := Option.some.inj heq
  exact needsIp_of_ingress (by rwa [hkept])

theorem Settled.handle (h : Settled key ingress s) (key' : Key) (patchOk : Bool) :
    Settled key ingress (s.handle key' patchOk) := by
  have heff := event_effect s key' patchOk
  generalize s.handle key' patchOk = s' at heff
  cases heff with
  | skipped _ => exact h.pop key' _
  | drawn _ _ => exact h.pop key' _
  | written hdraws _ _ =>
    have hne : key ≠ key' := by
      rintro rfl
      exact h.fresh hdraws.stale
    exact (h.pop key' s.nextOctet).put_ne hne _ _

/-- **What a step keeps.** -/
theorem Settled.step (hingress : ingress.getD [] ≠ []) (h : Settled key ingress s) {i : Input}
    (hi : Undisturbed key [i]) : Settled key ingress (s.step i) := by
  cases i with
  | create key' type =>
    rw [World.step]
    cases hget : s.services.get key' with
    | some _ => exact h
    | none =>
      obtain ⟨live, hlive, -⟩ := h.live
      have hne : key ≠ key' := by
        rintro rfl
        cases hlive.symm.trans hget
      exact h.put_ne hne _ _
  | update key' type cleared =>
    rw [World.step]
    cases hget : s.services.get key' with
    | none => exact h
    | some svc =>
      by_cases hkey : key = key'
      · subst hkey
        exact h.update hingress hget hi
      · exact h.put_ne hkey _ _
  | delete key' =>
    have hne : key ≠ key' := by
      rintro rfl
      exact (hi _ List.mem_cons_self).1 rfl
    rw [World.step]
    cases hget : s.services.get key' with
    | none => exact h
    | some _ =>
      obtain ⟨live, hlive, hsame⟩ := h.live
      exact ⟨⟨live, (Map.get_erase_ne hne).trans hlive, hsame⟩,
        not_stale_push h.fresh fun heq => absurd heq hne⟩
  | event key' patchOk => exact h.handle key' patchOk
  | relist => exact h.relist hingress _
  | restart => exact h.relist hingress _

end

theorem Settled.exec {key : Key} {ingress : Option (List String)} (hingress : ingress.getD [] ≠ [])
    {run : List Input} (hrun : Undisturbed key run) {s : World} (h : Settled key ingress s) :
    Settled key ingress (cluster.exec s run) := by
  induction run generalizing s with
  | nil => exact h
  | cons i run ih =>
    obtain ⟨hi, hrest⟩ := List.forall_mem_cons.mp hrun
    exact ih hrest (h.step hingress (List.forall_mem_singleton.mpr hi))

/-! ## 6. A stale event does its work -/

/-- The loop gets to the first stale event of a Service, and nothing else has happened by then. -/
theorem World.Stale.drain {s : World} {key : Key} (h : s.Stale key) :
    ∃ n, ∃ feed : Feed Key Service,
      cluster.exec s (List.replicate n (.event key false)) = { s with feed } ∧
      (∀ other ≠ key, feed.pending other = s.feed.pending other) ∧
      World.Draws { s with feed } key := by
  obtain ⟨svc, hmem, hneeds⟩ := h
  -- by induction on the events of the Service
  induction hpending : s.feed.pending key generalizing s with
  | nil =>
    rw [hpending] at hmem
    cases hmem
  | cons state rest ih =>
    by_cases hdraws : s.Draws key
    · exact ⟨0, s.feed, rfl, fun _ _ => rfl, hdraws⟩
    · have hrest : (s.feed.pop key).pending key = rest := by
        rw [Feed.pending_pop_self, hpending]
        rfl
      have hmem' : some svc ∈ (s.feed.pop key).pending key := by
        rw [hpending] at hmem
        rw [hrest]
        rcases List.mem_cons.mp hmem with rfl | hmem
        · exact absurd ⟨svc, by rw [hpending]; rfl, hneeds⟩ hdraws
        · exact hmem
      have hstep : (cluster.step s (.event key false)).1 = { s with feed := s.feed.pop key } :=
        handle_of_not_draws hdraws false
      obtain ⟨n, feed, hexec, hothers, hfound⟩ :=
        ih (s := { s with feed := s.feed.pop key }) hmem' hrest
      refine ⟨n + 1, feed, ?_, ?_, hfound⟩
      · rw [List.replicate_succ, Machine.exec, hstep, hexec]
      · intro other hother
        rw [hothers other hother, Feed.pending_pop_ne _ hother]

theorem undisturbed_replicate {key key' : Key} {patchOk : Bool} (n : Nat) :
    Undisturbed key (List.replicate n (.event key' patchOk)) := by
  intro i hi
  rw [(List.mem_replicate.mp hi).2]
  exact ⟨Input.noConfusion, fun _ _ => Input.noConfusion⟩

/-- A run that gives a Service with a stale event the address at which the counter stands. -/
theorem World.Stale.overwrites {s : World} {key : Key} (h : s.Stale key) {live : Service}
    (hlive : s.services.get key = some live) : ∃ run, Undisturbed key run ∧
      (cluster.exec s run).services.get key =
        some { live with ingress := some [lbIp s.nextOctet] } := by
  obtain ⟨n, feed, hexec, -, hdraws⟩ := h.drain
  refine ⟨List.replicate n (.event key false) ++ List.replicate 1 (.event key true), ?_, ?_⟩
  · intro i hi
    exact (List.mem_append.mp hi).elim (undisturbed_replicate n i) (undisturbed_replicate 1 i)
  · rw [cluster.exec_append, hexec]
    change (World.handle { s with feed } key true).services.get key = _
    rw [services_handle_of_draws hdraws hlive]
    exact Map.get_insert_self _ _ _

/-- A Service is deleted and created again: it has a stale event, and other Services have not
noticed. -/
theorem stale_recreated (s : World) {key other : Key} (hne : key ≠ other) :
    ((s.step (.delete other)).step (.create other (some "LoadBalancer"))).Stale other ∧
    ((s.step (.delete other)).step (.create other (some "LoadBalancer"))).nextOctet =
      s.nextOctet ∧
    ((s.step (.delete other)).step (.create other (some "LoadBalancer"))).services.get key =
      s.services.get key ∧
    ((s.step (.delete other)).step (.create other (some "LoadBalancer"))).feed.pending key =
      s.feed.pending key := by
  obtain ⟨hgone, hnext, hget, hpending⟩ : (s.step (.delete other)).services.get other = none ∧
      (s.step (.delete other)).nextOctet = s.nextOctet ∧
      (s.step (.delete other)).services.get key = s.services.get key ∧
      (s.step (.delete other)).feed.pending key = s.feed.pending key := by
    rw [World.step]
    cases hother : s.services.get other with
    | none => exact ⟨hother, rfl, rfl, rfl⟩
    | some _ =>
      exact ⟨Map.get_erase_self _ _, rfl, Map.get_erase_ne hne, Feed.pending_push_ne _ _ hne⟩
  generalize s.step (.delete other) = s' at *
  rw [World.step, hgone]
  refine ⟨⟨⟨some "LoadBalancer", none⟩, ?_, rfl⟩, hnext, ?_, ?_⟩
  · exact Feed.mem_pending_push.mpr (Or.inr ⟨rfl, rfl⟩)
  · exact (Map.get_insert_ne _ hne).trans hget
  · exact (Feed.pending_push_ne _ _ hne).trans hpending

/-- Another Service can move the counter on by one. -/
theorem exists_shift (s : World) (key : Key) : ∃ run, Undisturbed key run ∧
    (cluster.exec s run).nextOctet = s.nextOctet + 1 ∧
    (cluster.exec s run).services.get key = s.services.get key ∧
    (cluster.exec s run).feed.pending key = s.feed.pending key := by
  obtain ⟨other, hother⟩ : ∃ other : Key, key ≠ other := by
    refine ⟨(key.1, key.2 ++ "x"), fun heq => ?_⟩
    have hlength := congrArg String.length (congrArg Prod.snd heq)
    simp at hlength
  obtain ⟨hstale, hnext, hget, hpending⟩ := stale_recreated s hother
  obtain ⟨n, feed, hexec, hothers, hdraws⟩ := hstale.drain
  refine ⟨[.delete other, .create other (some "LoadBalancer")] ++
    List.replicate n (.event other false) ++ List.replicate 1 (.event other false), ?_, ?_⟩
  · intro i hi
    rcases List.mem_append.mp hi with hi | hi
    · rcases List.mem_append.mp hi with hi | hi
      · rcases List.mem_pair.mp hi with rfl | rfl
        · exact ⟨fun heq => hother (Input.delete.inj heq).symm, fun _ _ => Input.noConfusion⟩
        · exact ⟨Input.noConfusion, fun _ _ => Input.noConfusion⟩
      · exact undisturbed_replicate n i hi
    · exact undisturbed_replicate 1 i hi
  · -- the last event draws a number, and its patch fails
    rw [cluster.exec_append, cluster.exec_append,
      show cluster.exec s [.delete other, .create other (some "LoadBalancer")] =
        (s.step (.delete other)).step (.create other (some "LoadBalancer")) from rfl, hexec]
    generalize (s.step (.delete other)).step (.create other (some "LoadBalancer")) = s₁ at *
    have hlast : cluster.exec { s₁ with feed } (List.replicate 1 (.event other false)) =
        { s₁ with feed := feed.pop other, nextOctet := s₁.nextOctet + 1 } :=
      handle_of_patch_failed hdraws
    rw [hlast]
    refine ⟨congrArg (· + 1) hnext, hget, ?_⟩
    rw [Feed.pending_pop_ne _ hother, hothers key hother, hpending]

/-- A stale event can change the address. -/
theorem World.Stale.changes {s : World} {key : Key} (h : s.Stale key) {live : Service}
    (hlive : s.services.get key = some live) : ∃ run, Undisturbed key run ∧
      ∀ live', (cluster.exec s run).services.get key = some live' →
        live'.ingress ≠ live.ingress := by
  by_cases hsame : live.ingress = some [lbIp s.nextOctet]
  · -- the counter stands at the address that the Service has: let it move on
    obtain ⟨run, hrun, hnext, hget, hpending⟩ := exists_shift s key
    have hstale : (cluster.exec s run).Stale key := by
      rw [World.Stale, hpending]
      exact h
    obtain ⟨run', hrun', hwritten⟩ := hstale.overwrites (hget.trans hlive)
    refine ⟨run ++ run', fun i hi => (List.mem_append.mp hi).elim (hrun i) (hrun' i), ?_⟩
    intro live' hlive' heq
    rw [cluster.exec_append, hwritten, Option.some.injEq] at hlive'
    rw [← hlive', hsame, hnext, Option.some.injEq, List.cons.injEq] at heq
    exact absurd (lbIp_inj heq.1) (by simp)
  · obtain ⟨run, hrun, hwritten⟩ := h.overwrites hlive
    refine ⟨run, hrun, ?_⟩
    intro live' hlive' heq
    rw [hwritten, Option.some.injEq] at hlive'
    rw [← hlive'] at heq
    exact hsame heq.symm

/-- **The address of a Service stays, whatever else happens, exactly when no event that is still to
be handled shows the Service without an address.** -/
theorem address_stays_iff (s : World) (key : Key) (live : Service)
    (hlive : s.services.get key = some live) (hheld : live.ingress.getD [] ≠ []) :
    (∀ run, Undisturbed key run → ∃ live', (cluster.exec s run).services.get key = some live' ∧
      live'.ingress = live.ingress) ↔
    ∀ svc, some svc ∈ s.feed.pending key → needsIp svc = false := by
  constructor
  · intro hstays svc hmem
    by_contra hneeds
    have hstale : s.Stale key := ⟨svc, hmem, by simpa using hneeds⟩
    obtain ⟨run, hrun, hchanged⟩ := hstale.changes hlive
    obtain ⟨live', hlive', hsame⟩ := hstays run hrun
    exact hchanged live' hlive' hsame
  · intro hfresh run hrun
    have hsettled : Settled key live.ingress s := by
      refine ⟨⟨live, hlive, rfl⟩, ?_⟩
      rintro ⟨svc, hmem, hneeds⟩
      rw [hfresh svc hmem] at hneeds
      cases hneeds
    exact (hsettled.exec hheld hrun).live

/-- A Service is created and labelled, and the first of the two events is handled. -/
def labelledRun : List Input :=
  [.create ("a", "web") (some "LoadBalancer"), .update ("a", "web") (some "LoadBalancer") false,
    .event ("a", "web") true]

theorem address_stays_iff_labelledRun :
    (∀ run, Undisturbed ("a", "web") run → ∃ live',
      (cluster.exec (cluster.exec World.init labelledRun) run).services.get ("a", "web") =
        some live' ∧ live'.ingress = some ["10.254.0.1"]) ↔
    ∀ svc, some svc ∈ (cluster.exec World.init labelledRun).feed.pending ("a", "web") →
      needsIp svc = false :=
  address_stays_iff _ _ ⟨some "LoadBalancer", some ["10.254.0.1"]⟩ (by decide +kernel) (by decide)

/-- The second event shows the Service as it was before the patch, and 10.254.0.1 becomes
10.254.0.2. -/
theorem address_moves_labelledRun :
    ¬ ∀ run, Undisturbed ("a", "web") run → ∃ live',
      (cluster.exec (cluster.exec World.init labelledRun) run).services.get ("a", "web") =
        some live' ∧ live'.ingress = some ["10.254.0.1"] := by
  intro hstays
  obtain ⟨live', hlive', hsame⟩ := hstays (List.replicate 1 (.event ("a", "web") true))
    (undisturbed_replicate 1)
  have hmoved : (cluster.exec (cluster.exec World.init labelledRun)
      (List.replicate 1 (.event ("a", "web") true))).services.get ("a", "web") =
        some ⟨some "LoadBalancer", some ["10.254.0.2"]⟩ := by decide +kernel
  rw [hmoved, Option.some.injEq] at hlive'
  rw [← hlive'] at hsame
  exact absurd hsame (by decide)

end Picoshift.LoadBalancer
