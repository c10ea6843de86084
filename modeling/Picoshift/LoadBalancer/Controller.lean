/-
# The load balancer controller

`loadbalancer::run` reads the watch of all Services.  For every event that shows a Service of type
`LoadBalancer` without an address it draws the next number of a process-wide 8-bit counter and
writes `10.254.0.n` into the status of the Service, by a merge patch that looks at nothing.

The controller never lists what it has assigned.  Whether a Service needs an address is decided on
the EVENT, which shows the Service as it was when it changed; the patch goes to the Service as it
is.  The counter starts at 1 with the process and wraps.

The model is a cluster with Services, the events that have not been handled yet and the counter.
Everything that can happen to an address is in `event_effect`.
-/
import Picoshift.Lib.Feed
import Picoshift.Lib.Machine
import Picoshift.Lib.Str

namespace Picoshift.LoadBalancer

/-! ## 1. The controller -/

/-- Namespace and name. -/
abbrev Key := String × String

/-- A Service: `spec.type` and the addresses of `status.loadBalancer.ingress`. -/
structure Service where
  type : Option String
  ingress : Option (List String)
  deriving DecidableEq, Repr

def Service.isLb (svc : Service) : Bool := (svc.type.map (· == "LoadBalancer")).getD false

/-- `needs_ip`. -/
def needsIp (svc : Service) : Bool :=
  if svc.isLb = false then false
  else
  match svc.ingress with
  | none => true
  | some list => list.isEmpty

/-- The address with this last octet. -/
def lbIp (n : UInt8) : String := "10.254.0." ++ toString n.toNat

/-- `next_lb_ip`: the address, and the counter after `fetch_add`. -/
def nextLbIp (nextOctet : UInt8) : String × UInt8 := (lbIp nextOctet, nextOctet + 1)

/-! ## 2. The cluster -/

/-- The Services, the events that the loop has not handled, and `NEXT_OCTET`. -/
structure World where
  services : Map Key Service
  feed : Feed Key Service
  nextOctet : UInt8

/-- No Service yet, and a process that has just been started. -/
def World.init : World := ⟨Map.empty, Feed.empty, 1⟩

/-- What can happen. -/
inductive Input where
  | create (key : Key) (type : Option String)
  /-- A change of the spec.  For a type other than `LoadBalancer` the API server may clear the
  status. -/
  | update (key : Key) (type : Option String) (cleared : Bool)
  | delete (key : Key)
  /-- The loop takes the next event of a Service; the patch, if there is one, may fail. -/
  | event (key : Key) (patchOk : Bool)
  /-- The watch is broken off and the Services are listed again. -/
  | relist
  /-- The simulator is started again. -/
  | restart

/-- The status patch: it replaces the addresses of a Service that exists. -/
def World.patchStatus (s : World) (key : Key) (patchOk : Bool) (ip : String) : World :=
  if patchOk = false then s
  else
  match s.services.get key with
  | none => s
  | some live =>
    let live := { live with ingress := some [ip] }
    { s with services := s.services.insert key live, feed := s.feed.push key (some live) }

/-- The body of the loop. -/
def World.handle (s : World) (key : Key) (patchOk : Bool) : World :=
  match s.feed.pending key with
  | [] => s
  | state :: _ =>
    let s := { s with feed := s.feed.pop key }
    match state with
    -- `applied_objects` drops deletions
    | none => s
    | some svc =>
      if needsIp svc = false then s
      else
        let (ip, nextOctet) := nextLbIp s.nextOctet
        { s with nextOctet }.patchStatus key patchOk ip

/-- A Service as a change of its spec leaves it. -/
def Service.update (svc : Service) (type : Option String) (cleared : Bool) : Service :=
  let updated := { svc with type }
  if cleared ∧ updated.isLb = false then { updated with ingress := none } else updated

def World.step (s : World) : Input → World
  | .create key type =>
    match s.services.get key with
    | some _ => s
    | none =>
      let svc := ⟨type, none⟩
      { s with services := s.services.insert key svc, feed := s.feed.push key (some svc) }
  | .update key type cleared =>
    match s.services.get key with
    | none => s
    | some svc =>
      let svc := svc.update type cleared
      { s with services := s.services.insert key svc, feed := s.feed.push key (some svc) }
  | .delete key =>
    match s.services.get key with
    | none => s
    | some _ => { s with services := s.services.erase key, feed := s.feed.push key none }
  | .event key patchOk => s.handle key patchOk
  | .relist => { s with feed := Feed.relist s.services }
  | .restart => { s with feed := Feed.relist s.services, nextOctet := 1 }

def cluster : Machine World Input Unit := ⟨fun s i => (s.step i, ())⟩

/-! ## 3. What an event can do -/

/-- The next event of the Service makes the loop draw an address. -/
def World.Draws (s : World) (key : Key) : Prop :=
  ∃ svc, (s.feed.pending key).head? = some (some svc) ∧ needsIp svc = true

instance (s : World) (key : Key) : Decidable (s.Draws key) :=
  match h : (s.feed.pending key).head? with
  | some (some svc) =>
    decidable_of_iff (needsIp svc = true) (by simp [World.Draws, h])
  | some none => isFalse (by simp [World.Draws, h])
  | none => isFalse (by simp [World.Draws, h])

/-- **What an event can do**: nothing but be handled, draw an address in vain, or write one. -/
inductive EventEffect (s : World) (key : Key) (patchOk : Bool) : World → Prop
  | skipped (hno : ¬ s.Draws key) : EventEffect s key patchOk { s with feed := s.feed.pop key }
  | drawn (hdraws : s.Draws key) (hno : patchOk = false ∨ s.services.get key = none) :
      EventEffect s key patchOk { s with feed := s.feed.pop key, nextOctet := s.nextOctet + 1 }
  | written (hdraws : s.Draws key) (hok : patchOk = true) {live : Service}
      (hlive : s.services.get key = some live) :
      EventEffect s key patchOk
        { services := s.services.insert key { live with ingress := some [lbIp s.nextOctet] }
          feed := (s.feed.pop key).push key (some { live with ingress := some [lbIp s.nextOctet] })
          nextOctet := s.nextOctet + 1 }

theorem event_effect (s : World) (key : Key) (patchOk : Bool) :
    EventEffect s key patchOk (s.handle key patchOk) := by
  rw [World.handle]
  cases hpending : s.feed.pending key with
  | nil =>
    have heff : EventEffect s key patchOk { s with feed := s.feed.pop key } :=
      .skipped (by simp [World.Draws, hpending])
    rw [Feed.pop_of_pending_nil hpending] at heff
    exact heff
  | cons state rest =>
    dsimp only
    cases state with
    | none => exact .skipped (by simp [World.Draws, hpending])
    | some svc =>
      dsimp only
      split
      · rename_i hneeds
        exact .skipped (by simp [World.Draws, hpending, hneeds])
      · rename_i hneeds
        have hdraws : s.Draws key := ⟨svc, by rw [hpending]; rfl, by simpa using hneeds⟩
        rw [World.patchStatus]
        cases patchOk with
        | false => exact .drawn hdraws (Or.inl rfl)
        | true =>
          dsimp only
          cases hlive : s.services.get key with
          | none => exact .drawn hdraws (Or.inr hlive)
          | some live => exact .written hdraws rfl hlive

theorem handle_of_not_draws {s : World} {key : Key} (hno : ¬ s.Draws key) (patchOk : Bool) :
    s.handle key patchOk = { s with feed := s.feed.pop key } := by
  have heff := event_effect s key patchOk
  generalize s.handle key patchOk = s' at heff
  cases heff with
  | skipped _ => rfl
  | drawn hdraws _ => exact absurd hdraws hno
  | written hdraws _ _ => exact absurd hdraws hno

/-- A patch that fails costs a number. -/
theorem handle_of_patch_failed {s : World} {key : Key} (hdraws : s.Draws key) :
    s.handle key false =
      { s with feed := s.feed.pop key, nextOctet := s.nextOctet + 1 } := by
  have heff := event_effect s key false
  generalize s.handle key false = s' at heff
  cases heff with
  | skipped hno => exact absurd hdraws hno
  | drawn _ _ => rfl
  | written _ hok _ => cases hok

/-- A patch that succeeds replaces the addresses. -/
theorem services_handle_of_draws {s : World} {key : Key} (hdraws : s.Draws key) {live : Service}
    (hlive : s.services.get key = some live) :
    (s.handle key true).services =
      s.services.insert key { live with ingress := some [lbIp s.nextOctet] } := by
  have heff := event_effect s key true
  generalize s.handle key true = s' at heff
  cases heff with
  | skipped hno => exact absurd hdraws hno
  | drawn _ hno =>
    rcases hno with hno | hno
    · cases hno
    · cases hlive.symm.trans hno
  | written _ _ hlive' =>
    obtain rfl := Option.some.inj (hlive.symm.trans hlive')
    rfl

end Picoshift.LoadBalancer
