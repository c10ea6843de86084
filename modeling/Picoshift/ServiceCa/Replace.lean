/-
# Replacing a Secret

When a Secret does not bear the fingerprint of the current CA, `reconcile_service` deletes it, signs a new certificate
and creates the Secret anew, in this order and with an exit after each.  Two things can go wrong.  The function does not
ask whether the Secret is one of its own: one without any fingerprint is "stale" as well.  And between the deletion and
the creation there is no Secret at all; a failure that falls there leaves it so.

The answers of the API server are finer here than in `Calls`: a request that is reported as failed may have been carried
out (`Request.lost`).  Without such requests this is `reconcileService` (`replaceService_eq`).

Secrets of others are spared, and Secrets that were there are there afterwards, exactly when there is nothing to replace,
or the deletion is not carried out, or the Secret is one of the controller's and everything is (`secret_spared_iff`).
-/
import Picoshift.ServiceCa.Reconcile

namespace Picoshift.ServiceCa

/-! ## 1. The call -/

/-- What comes of a request that changes something. -/
inductive Request where
  | done
  | failed
  /-- It was carried out, but reported as failed. -/
  | lost
  deriving DecidableEq, Repr

/-- It was carried out. -/
def Request.tookEffect (r : Request) : Bool := r != .failed

/-- What happens during one call: whether the Secret can be read, what comes of deleting and of creating it, and the key
pair that `rcgen` makes. -/
structure Answers where
  getOk : Bool
  delete : Request
  newKey : Option String
  create : Request
  deriving DecidableEq, Repr

/-- The second half of `reconcile_service`, with these answers. -/
def replaceSecret (ca : CaState) (svc : Service) (key : Key) (answers : Answers) (secrets : Map Key Secret) :
    Map Key Secret × Action :=
  match signCert ca (servingNames svc) answers.newKey with
  | none => (secrets, .requeue 30)
  | some (crt, keyPem) =>
    (if answers.create.tookEffect then secrets.insert key (servingSecret ca svc crt keyPem) else secrets,
      if answers.create = .done then .awaitChange else errorPolicy)

/-- `reconcile_service`, with these answers. -/
def replaceService (ca : CaState) (svc : Service) (answers : Answers) (secrets : Map Key Secret) :
    Map Key Secret × Action :=
  match svc.secretKey with
  | none => (secrets, .awaitChange)
  | some key =>
  if answers.getOk = false then (secrets, errorPolicy)
  else
  match secrets.get key with
  | none => replaceSecret ca svc key answers secrets
  | some existing =>
  if existing.annotations.get fingerprintAnnotationName = some (caBundleBase64 ca) then (secrets, .awaitChange)
  else
    let afterDelete := if answers.delete.tookEffect then secrets.erase key else secrets
    if answers.delete ≠ .done then (afterDelete, errorPolicy)
    else replaceSecret ca svc key answers afterDelete

/-- The answers as `Calls` has them. -/
def Answers.toCalls (a : Answers) : Calls := ⟨a.getOk, a.delete = .done, a.newKey, a.create = .done⟩

/-- Where no request is lost, this is the call as it was translated first. -/
theorem replaceService_eq {answers : Answers} (hdelete : answers.delete ≠ .lost)
    (hcreate : answers.create ≠ .lost) (ca : CaState) (svc : Service) (secrets : Map Key Secret) :
    replaceService ca svc answers secrets = reconcileService ca svc answers.toCalls secrets := by
  have hsecond : ∀ key (secrets : Map Key Secret), replaceSecret ca svc key answers secrets =
      createSecret ca svc key answers.toCalls secrets := by
    intro key secrets
    rw [replaceSecret, createSecret, Answers.toCalls]
    cases signCert ca (servingNames svc) answers.newKey with
    | none => rfl
    | some pair =>
      cases hreq : answers.create with
      | done => simp [Request.tookEffect]
      | failed => simp [Request.tookEffect]
      | lost => exact absurd hreq hcreate
  cases hkey : svc.secretKey with
  | none => simp only [replaceService, reconcileService, hkey]
  | some key =>
    cases hget : secrets.get key with
    | none =>
      simp only [replaceService, reconcileService, hkey, hget, hsecond]
      rfl
    | some existing =>
      simp only [replaceService, reconcileService, hkey, hget, hsecond]
      cases hreq : answers.delete with
      | done => simp [Request.tookEffect, Answers.toCalls, hreq]
      | failed => simp [Request.tookEffect, Answers.toCalls, hreq]
      | lost => exact absurd hreq hdelete

/-! ## 2. What is spared -/

/-- The Secret is one of the controller's: it bears some fingerprint. -/
def Secret.Ours (secret : Secret) : Prop := secret.annotations.get fingerprintAnnotationName ≠ none

/-- Secrets of others are as they were, and what was there is there. -/
structure Spared (before after : Map Key Secret) : Prop where
  others : ∀ k secret, before.get k = some secret → ¬ secret.Ours → after.get k = some secret
  present : ∀ k secret, before.get k = some secret → ∃ secret', after.get k = some secret'

theorem Spared.refl (secrets : Map Key Secret) : Spared secrets secrets :=
  ⟨fun _ _ h _ => h, fun _ secret h => ⟨secret, h⟩⟩

/-- A Secret may be written where there was none or one of the controller's. -/
theorem spared_insert {secrets : Map Key Secret} {key : Key} (secret : Secret)
    (h : ∀ old, secrets.get key = some old → old.Ours) : Spared secrets (secrets.insert key secret) := by
  constructor
  · intro k old hold hother
    have hne : k ≠ key := by
      rintro rfl
      exact hother (h old hold)
    rwa [Map.get_insert_ne _ hne]
  · intro k old hold
    by_cases hk : k = key
    · exact ⟨secret, by rw [hk, Map.get_insert_self]⟩
    · exact ⟨old, by rwa [Map.get_insert_ne _ hk]⟩

/-- What the second half does to the Secrets. -/
theorem replaceSecret_fst (ca : CaState) (svc : Service) (key : Key) (answers : Answers)
    (secrets : Map Key Secret) : (replaceSecret ca svc key answers secrets).1 =
      match answers.newKey with
      | some keyPem =>
        if answers.create.tookEffect then
          secrets.insert key (servingSecret ca svc ⟨ca, servingNames svc, keyPem⟩ keyPem)
        else secrets
      | none => secrets := by
  rw [replaceSecret, signCert]
  cases answers.newKey <;> rfl

theorem spared_replaceSecret {ca : CaState} {svc : Service} {key : Key} {answers : Answers}
    {secrets : Map Key Secret} (h : secrets.get key = none) :
    Spared secrets (replaceSecret ca svc key answers secrets).1 := by
  have hnone : ∀ old, secrets.get key = some old → old.Ours := by
    intro old hold
    rw [h] at hold
    cases hold
  rw [replaceSecret_fst]
  cases answers.newKey with
  | none => exact Spared.refl secrets
  | some keyPem =>
    simp only
    split
    · exact spared_insert _ hnone
    · exact Spared.refl secrets

/-! ## 3. When -/

/-- Nothing is lost when the Secret `existing` is replaced: the deletion is not carried out; or the Secret is one of the
controller's, the deletion succeeds, there is a key, and the creation is carried out. -/
def ReplacedWhole (answers : Answers) (existing : Secret) : Prop :=
  answers.delete = .failed ∨
    (existing.Ours ∧ answers.delete = .done ∧ answers.newKey.isSome ∧ answers.create ≠ .failed)

/-- A Secret is replaced at all when it is asked for, it can be read and it does not bear the fingerprint of this CA. -/
def Replaces (ca : CaState) (svc : Service) (answers : Answers) (secrets : Map Key Secret) (existing : Secret) : Prop :=
  ∃ key, svc.secretKey = some key ∧ answers.getOk = true ∧ secrets.get key = some existing ∧ ¬ existing.Marked ca

theorem not_spared_erase {secrets : Map Key Secret} {key : Key} {existing : Secret}
    (hget : secrets.get key = some existing) : ¬ Spared secrets (secrets.erase key) := by
  intro h
  obtain ⟨secret', hsecret'⟩ := h.present key existing hget
  rw [Map.get_erase_self] at hsecret'
  cases hsecret'

theorem get_fingerprint (fingerprint : String) :
    (Map.ofPairs [(fingerprintAnnotationName, fingerprint)]).get fingerprintAnnotationName = some fingerprint :=
  Map.get_insert_self _ _ _

/-- What becomes of a Secret that is deleted and created again. -/
theorem spared_replace_iff {ca : CaState} {svc : Service} {key : Key} {answers : Answers}
    {secrets : Map Key Secret} {existing : Secret} (hget : secrets.get key = some existing) :
    Spared secrets (replaceSecret ca svc key answers (secrets.erase key)).1 ↔
      existing.Ours ∧ answers.newKey.isSome ∧ answers.create ≠ .failed := by
  rw [replaceSecret_fst]
  cases answers.newKey with
  | none => exact iff_of_false (not_spared_erase hget) fun h => Bool.false_ne_true h.2.1
  | some keyPem =>
    cases hcreate : answers.create with
    | failed => exact iff_of_false (not_spared_erase hget) fun h => h.2.2 rfl
    | done | lost =>
      simp only [Request.tookEffect, Map.insert_erase]
      rw [if_pos (by decide)]
      constructor
      · intro h
        refine ⟨fun hother => ?_, rfl, Request.noConfusion⟩
        -- what is there now bears a fingerprint
        have hsame := h.others key existing hget fun hours => hours hother
        rw [Map.get_insert_self] at hsame
        rw [← Option.some.inj hsame, servingSecret, get_fingerprint] at hother
        cases hother
      · rintro ⟨hours, -, -⟩
        refine spared_insert _ fun old hold => ?_
        rwa [← Option.some.inj (hget.symm.trans hold)]

/-- Where nothing is replaced, everything is spared. -/
theorem spared_of_not_replaces {ca : CaState} {svc : Service} {answers : Answers} {secrets : Map Key Secret}
    (h : ∀ existing, ¬ Replaces ca svc answers secrets existing) :
    Spared secrets (replaceService ca svc answers secrets).1 := by
  unfold replaceService
  cases hkey : svc.secretKey with
  | none => exact Spared.refl secrets
  | some key =>
    simp only
    split
    · exact Spared.refl secrets
    · rename_i hgetOk
      cases hget : secrets.get key with
      | none => exact spared_replaceSecret hget
      | some existing =>
        have hmark : existing.Marked ca := by
          by_contra hmark
          exact h existing ⟨key, hkey, Bool.not_eq_false _ ▸ hgetOk, hget, hmark⟩
        simp only
        unfold Secret.Marked at hmark
        rw [if_pos hmark]
        exact Spared.refl secrets

/-- What is left of a Secret that is replaced depends on its deletion first. -/
theorem replaceService_fst {ca : CaState} {svc : Service} {answers : Answers} {secrets : Map Key Secret} {key : Key}
    {existing : Secret} (hkey : svc.secretKey = some key) (hgetOk : answers.getOk = true)
    (hget : secrets.get key = some existing) (hmark : ¬ existing.Marked ca) :
    (replaceService ca svc answers secrets).1 =
      match answers.delete with
      | .done => (replaceSecret ca svc key answers (secrets.erase key)).1
      | .failed => secrets
      | .lost => secrets.erase key := by
  unfold Secret.Marked at hmark
  simp only [replaceService, hkey, hgetOk, hget, if_neg hmark]
  cases answers.delete <;> rfl

/-- **Secrets of others are spared, and what was there is there, exactly when a Secret that is replaced is replaced
whole.** -/
theorem secret_spared_iff (ca : CaState) (svc : Service) (answers : Answers) (secrets : Map Key Secret) :
    Spared secrets (replaceService ca svc answers secrets).1 ↔
      ∀ existing, Replaces ca svc answers secrets existing → ReplacedWhole answers existing := by
  by_cases hreplaces : ∃ existing, Replaces ca svc answers secrets existing
  · obtain ⟨existing, key, hkey, hgetOk, hget, hmark⟩ := hreplaces
    have honly : (∀ old, Replaces ca svc answers secrets old → ReplacedWhole answers old) ↔
        ReplacedWhole answers existing := by
      refine ⟨fun h => h existing ⟨key, hkey, hgetOk, hget, hmark⟩, fun h old hold => ?_⟩
      obtain ⟨key', hkey', -, hget', -⟩ := hold
      cases hkey.symm.trans hkey'
      rwa [← Option.some.inj (hget.symm.trans hget')]
    rw [honly, replaceService_fst hkey hgetOk hget hmark, ReplacedWhole]
    cases hdelete : answers.delete with
    | done =>
      simp only [spared_replace_iff hget]
      simp
    | failed => exact iff_of_true (Spared.refl secrets) (Or.inl rfl)
    | lost => exact iff_of_false (not_spared_erase hget) (by simp)
  · have hno : ∀ existing, ¬ Replaces ca svc answers secrets existing := not_exists.mp hreplaces
    exact iff_of_true (spared_of_not_replaces hno) fun existing h => absurd h (hno existing)

/-- A CA, and a Service that asks for a serving certificate. -/
def newCa : CaState := ⟨"CA", "key"⟩

def siteService : Service := ⟨"shop", "web", "u1", Map.ofPairs [(servingCertAnnotationName, "web-tls")]⟩

def webTls : Key := ("shop", "web-tls")

theorem siteService_secretKey : siteService.secretKey = some webTls := by
  rw [Service.secretKey, siteService]
  exact congrArg (Option.map _) (Map.get_insert_self _ _ _)

/-- A Secret that somebody made by hand. -/
def handMade : Secret := ⟨Map.empty, [], "Opaque", .foreign [("password", "secret")]⟩

/-- A Secret that the controller made for another CA. -/
def outdated : Secret := ⟨Map.ofPairs [(fingerprintAnnotationName, "old")], [], "kubernetes.io/tls", .foreign []⟩

/-- A Secret made by hand is replaced although no request fails; and a Secret of the controller's is gone when the key
cannot be made, or the new Secret cannot be created. -/
theorem secret_spared_not :
    ¬ Spared (Map.empty.insert webTls handMade)
        (replaceService newCa siteService ⟨true, .done, some "k", .done⟩ (Map.empty.insert webTls handMade)).1 ∧
      ¬ Spared (Map.empty.insert webTls outdated)
        (replaceService newCa siteService ⟨true, .done, none, .done⟩ (Map.empty.insert webTls outdated)).1 ∧
      ¬ Spared (Map.empty.insert webTls outdated)
        (replaceService newCa siteService ⟨true, .done, some "k", .failed⟩ (Map.empty.insert webTls outdated)).1 := by
  have hget : ∀ secret : Secret, (Map.empty.insert webTls secret).get webTls = some secret :=
    fun secret => Map.get_insert_self _ _ _
  have hhand : ¬ handMade.Marked newCa := nofun
  have hold : ¬ outdated.Marked newCa := by
    rw [Secret.Marked, outdated, get_fingerprint]
    exact fun h => absurd (Option.some.inj h) (by decide +kernel)
  refine ⟨?_, ?_, ?_⟩
  · rw [replaceService_fst siteService_secretKey rfl (hget _) hhand, spared_replace_iff (hget _)]
    exact fun h => h.1 rfl
  · rw [replaceService_fst siteService_secretKey rfl (hget _) hold, spared_replace_iff (hget _)]
    exact fun h => Bool.false_ne_true h.2.1
  · rw [replaceService_fst siteService_secretKey rfl (hget _) hold, spared_replace_iff (hget _)]
    exact fun h => h.2.2 rfl

end Picoshift.ServiceCa
