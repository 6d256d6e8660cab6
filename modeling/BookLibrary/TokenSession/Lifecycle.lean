import BookLibrary.TokenSession.Rotation

/-!
# The life of a family

The terms a family is opened under never change, whoever writes it, and its status only
moves away from active. `Descent` ties every stored family, also one that has ended, to
the call that opened it.
-/

namespace TokenSession

open Documents Interleaving

variable {ι : Type} [DecidableEq ι] {sha256 : String → String} {ttl : Prop} {clock : Date}
  {cfg cfg' : Config ι Call Op Database Reply Event} {s s' : Database}
  {J : List (Entry ι Call Event)} {i : ι} {c : Call} {evs : List Event} {fl : Bool}
  {l : List Event}

/-- What a family is opened for, and until when. -/
structure FamilyTerms where
  familyId : String
  clientId : String
  subjectType : AuthSubjectType
  subjectId : String
  scopes : List String
  authVersion : Option ℕ
  issuedAt : Date
  expiresAt : Date
  deriving DecidableEq

def RefreshTokenFamily.terms (f : RefreshTokenFamily) : FamilyTerms :=
  ⟨f.familyId, f.clientId, f.subjectType, f.subjectId, f.scopes, f.authVersion, f.issuedAt,
    f.expiresAt⟩

@[simp] theorem terms_swap (now : Date) (next op : String) (f : RefreshTokenFamily) :
    (f.swap now next op).terms = f.terms := rfl

@[simp] theorem terms_revocationUpdate (status : RefreshTokenFamilyStatus) (reason : String)
    (date : Date) (f : RefreshTokenFamily) :
    (revocationUpdate status reason date f).terms = f.terms := rfl

/-- The lifetime lies between one second and 30 days. -/
def FamilyTerms.Bounded (t : FamilyTerms) : Prop :=
  1000 ≤ t.expiresAt - t.issuedAt ∧ t.expiresAt - t.issuedAt ≤ maximumRefreshLifetimeSeconds * 1000

/-- `maxAge` of `getRefreshCookieOptions`, for the date a session expires at. -/
def refreshCookieMaxAge (expiresAt now : Date) : ℤ := max 0 (expiresAt - now)

section Walk

/-- Families are opened under bounded terms. -/
def opensBounded (_ : Call) (_ : Bool) (_ : List Event) (β : Type) (op : Op β) : Prop :=
  match op with
  | .insertFamily f => f.terms.Bounded
  | _ => True

/-- The credentials of a new family tell its id and its expiry. -/
def OpenedAs : Call → Bool → List Event → Reply → Prop
  | .createFamily .., _, l, .ok (.credentials r) =>
    ∃ f, .opened f ∈ l ∧ r.familyId = f.familyId ∧ r.expiresAt = f.expiresAt
  | _, _, _, _ => True

/-- What is added to the lineage. -/
def enduring (sha256 : String → String) (call : Call) (fl : Bool) (l : List Event) (β : Type)
    (op : Op β) : Prop :=
  conduct sha256 call fl l β op ∧ opensBounded call fl l β op

theorem ttlSeconds_bounds (ttlSeconds : Rat) :
    1 ≤ min (max 1 ttlSeconds.floor) maximumRefreshLifetimeSeconds ∧
      min (max 1 ttlSeconds.floor) maximumRefreshLifetimeSeconds ≤ maximumRefreshLifetimeSeconds := by
  have hmax : (1 : ℤ) ≤ maximumRefreshLifetimeSeconds := by decide
  omega

theorem bounded_of_seconds {now seconds : ℤ} (hlow : 1 ≤ seconds)
    (hhigh : seconds ≤ maximumRefreshLifetimeSeconds) : 1000 ≤ now + seconds * 1000 - now ∧
      now + seconds * 1000 - now ≤ maximumRefreshLifetimeSeconds * 1000 := by
  omega

theorem createFamily_opens {input : CreateRefreshTokenFamilyInput} {now : Date} :
    Conforms (system sha256 ttl) (enduring sha256 (.createFamily input now))
      (fun _ l r => ∀ a, r = .ok a →
        ∃ f, .opened f ∈ l ∧ a.familyId = f.familyId ∧ a.expiresAt = f.expiresAt)
      false [] (createFamily sha256 input now).run := by
  refine Conforms.run_call ⟨trivial, trivial⟩ (fun _ _ => nofun) fun token _ => ?_
  refine Conforms.run_call ⟨trivial, trivial⟩ (fun _ _ => nofun) fun familyId _ => ?_
  refine Conforms.run_call ⟨⟨?_, rfl, ?_, token, ?_, rfl⟩, ?_⟩ (fun _ _ => nofun) fun _ _ => ?_
  · simp [Quiet, system, note, Event.issued]
  · simp [system, note]
  · simp [system, note]
  · obtain ⟨hlow, hhigh⟩ := ttlSeconds_bounds input.ttlSeconds
    exact bounded_of_seconds hlow hhigh
  · refine Conforms.run_pure fun a ha => ?_
    cases ha
    exact ⟨_, List.mem_cons_self, rfl, rfl⟩

/-- A method that opens no family opens none under unbounded terms. -/
theorem enduring_of_conduct (hc : ∀ input now, c ≠ .createFamily input now) {β : Type} {op : Op β}
    (hl : conduct sha256 c fl l β op) : enduring sha256 c fl l β op := by
  refine ⟨hl, ?_⟩
  cases op with
  | insertFamily f =>
    cases c with
    | createFamily input now => exact absurd rfl (hc input now)
    | _ => exact (hl : False).elim
  | _ => trivial

theorem body_endures (call : Call) : Conforms (system sha256 ttl) (enduring sha256 call)
    (fun fl l r => verdict sha256 call fl l r ∧ OpenedAs call fl l r) false []
    (body sha256 call) := by
  cases call with
  | createFamily input now =>
    refine Conforms.run_then createFamily_opens (fun fl l a h => ?_) fun _ _ _ _ => ⟨trivial, trivial⟩
    exact Conforms.run_pure ⟨trivial, h a rfl⟩
  | _ =>
    exact ((body_walks _).weaken fun hl => enduring_of_conduct (fun _ _ h => by cases h) hl).mono
      fun _ _ _ h => ⟨h, trivial⟩

end Walk

/-- Every stored family descends from the call that opened it. -/
structure Descent (s : Database) (J : List (Entry ι Call Event)) : Prop where
  opened : ∀ f ∈ s.families, ∃ i g, .opened g ∈ own i J ∧ g.terms = f.terms
  bounded : ∀ i g, .opened g ∈ own i J → g.terms.Bounded

namespace Descent

theorem empty (clock : Date) : Descent (Database.empty clock) ([] : List (Entry ι Call Event)) where
  opened _ hf := absurd hf List.not_mem_nil
  bounded _ _ hg := absurd hg List.not_mem_nil

/-- A stored family lives under the terms of the call that opened its id. -/
theorem terms_eq (h : Descent s J) (hc : Chronicle sha256 s J) {f g : RefreshTokenFamily} {i : ι}
    (hf : f ∈ s.families) (hg : .opened g ∈ own i J) (hid : g.familyId = f.familyId) :
    g.terms = f.terms := by
  obtain ⟨j, g', hg', hterms⟩ := h.opened f hf
  have hid' : g'.familyId = f.familyId := congrArg FamilyTerms.familyId hterms
  obtain rfl := hc.opened_eq hg hg' (hid.trans hid'.symm)
  exact hterms

theorem known (h : Descent s J) {f : RefreshTokenFamily} (hf : f ∈ s.families) :
    Known J f.familyId := by
  obtain ⟨j, g, hg, hterms⟩ := h.opened f hf
  exact ⟨g, ⟨j, _, hg, rfl⟩, congrArg FamilyTerms.familyId hterms⟩

theorem kept (h : ∀ f ∈ s.families, ∃ i g, .opened g ∈ own i J ∧ g.terms = f.terms) :
    ∀ f ∈ s.families, ∃ j g, .opened g ∈ own j (record i c evs ++ J) ∧ g.terms = f.terms := by
  intro f hf
  obtain ⟨j, g, hg, hterms⟩ := h f hf
  exact ⟨j, g, mem_own_record.mpr (.inr hg), hterms⟩

theorem change (h : Descent s J) {β : Type} {op : Op β} {r : Option β}
    (hl : enduring sha256 c fl (own i J) β op) (ha : (system sha256 ttl).Applies op s r s') :
    Descent s' (record i c (note β op r) ++ J) := by
  constructor
  · have hch : Change sha256 c (own i J) s (note β op r) s' := change_of_applies hl.1 ha
    generalize note β op r = evs at hch
    have hold : ∀ f ∈ s.families, ∃ j g, .opened g ∈ own j (record i c evs ++ J) ∧
        g.terms = f.terms := kept h.opened
    intro f hf
    cases hch with
    | openFamily may =>
      rcases List.mem_cons.mp hf with rfl | hf
      · exact ⟨i, f, mem_own_record.mpr (.inl ⟨rfl, List.mem_singleton_self _⟩), rfl⟩
      · exact hold f hf
    | swap may update =>
      rcases update.mem hf with hf | rfl
      · exact hold f hf
      · obtain ⟨f₀, hf₀, -, rfl, -⟩ := update.source
        exact hold f₀ hf₀
    | revoke inactive may =>
      rcases mem_updateMany.mp hf with ⟨hf, -⟩ | ⟨f₀, hf₀, -, rfl⟩
      · exact hold f hf
      · exact hold f₀ hf₀
    | look | draw | insertMarker | takeOver | commit => exact hold f hf
  · intro j g hg
    rcases mem_own_record.mp hg with ⟨-, hnew⟩ | hold
    · cases op with
      | insertFamily f =>
        cases r with
        | none => cases hnew
        | some u =>
          cases List.mem_singleton.mp hnew
          exact hl.2
      | insertMarker m =>
        simp only [note] at hnew
        split at hnew
        · cases List.mem_singleton.mp hnew
        · cases hnew
      | commitMarker => cases r <;> simp [note] at hnew
      | _ => simp [note] at hnew
    · exact h.bounded j g hold

end Descent

/-- The lineage and the descent of the families. -/
def lifecycle (ι : Type) [DecidableEq ι] (ttl : Prop) (hsha : Function.Injective sha256) :
    Contract ι (system sha256 ttl) where
  inv s J := Lineage sha256 ttl s J ∧ Descent s J
  legal := enduring sha256
  post call fl l r := verdict sha256 call fl l r ∧ OpenedAs call fl l r
  inv_call h _ hl ha := ⟨h.1.change hsha (indexed_of_applies h.1.indexed ha)
    (change_of_applies hl.1 ha), h.2.change hl ha⟩
  inv_env h he := ⟨h.1.elapse hsha he,
    ⟨fun f hf => h.2.opened f (he.families.1.subset hf), h.2.bounded⟩⟩
  conforms := body_endures

theorem lifecycle_of_reachable (ttl : Prop) (hsha : Function.Injective sha256)
    (h : (system sha256 ttl).Reachable (Database.empty clock) cfg) :
    WellFormed (lifecycle ι ttl hsha) cfg :=
  (WellFormed.init (k := lifecycle ι ttl hsha) ⟨Lineage.empty clock, Descent.empty clock⟩).runs h

/-- A family is active as long as it has a hash, and lives for a bounded time. -/
structure WellKept (f : RefreshTokenFamily) : Prop where
  hash : f.currentTokenHash.isSome ↔ f.status = .active
  lifetime : f.terms.Bounded

/-- The later document of a family is under the same terms, and no more active. -/
structure Succeeds (f f' : RefreshTokenFamily) : Prop where
  terms : f'.terms = f.terms
  ended : f.status ≠ .active → f'.status ≠ .active ∧ f'.currentTokenHash = none

/-- The cookie lives no longer than the family: it expires with it, or at once. -/
structure CookieWithin (f : RefreshTokenFamily) (expiresAt : Date) : Prop where
  expiry : expiresAt ≤ f.expiresAt
  cookie : ∀ now, 0 < refreshCookieMaxAge expiresAt now →
    now + refreshCookieMaxAge expiresAt now ≤ f.expiresAt

theorem add_maxAge_le {expiresAt now : ℤ} (h : 0 < max 0 (expiresAt - now)) :
    now + max 0 (expiresAt - now) ≤ expiresAt := by
  omega

theorem CookieWithin.of_eq {f : RefreshTokenFamily} {expiresAt : Date}
    (h : expiresAt = f.expiresAt) : CookieWithin f expiresAt where
  expiry := le_of_eq h
  cookie _ hpos := le_of_le_of_eq (add_maxAge_le hpos) h

/-- The methods that return credentials. -/
def Call.grants : Call → Bool
  | .createFamily .. | .rotate .. => true
  | _ => false

/-- Who returns credentials has opened the family, or holds a swap of it. -/
theorem credentials_issued {hsha : Function.Injective sha256}
    (w : WellFormed (lifecycle ι ttl hsha) cfg) {th : Thread Call Op Reply}
    {r : RefreshTokenRotationResult} (hret : cfg.Returns i th (.ok (.credentials r)))
    (hgrants : th.call.grants = true) :
    ∃ g, Issued cfg.journal g ∧ r.familyId = g.familyId ∧ r.expiresAt = g.expiresAt := by
  obtain ⟨hverdict, hopened⟩ := w.post_of_returns hret
  cases hcall : th.call with
  | createFamily input now =>
    rw [hcall] at hopened
    obtain ⟨f, hf, hid, hexp⟩ := hopened
    exact ⟨f, ⟨i, _, hf, rfl⟩, hid, hexp⟩
  | rotate token now =>
    rw [hcall] at hverdict
    obtain ⟨r', heq, ⟨f, m, m', -, -, -, hf, -, -, -, -, -, hr⟩, -⟩ := hverdict
    cases heq
    exact ⟨f, ⟨i, _, hf, rfl⟩, by rw [hr]; rfl, by rw [hr]; rfl⟩
  | _ =>
    rw [hcall] at hgrants
    cases hgrants

/-- In every run a family has a hash as long as it is active, never changes its terms or
comes back, and what is returned of its lifetime does not outlive it. -/
theorem family_lifecycle (hsha : Function.Injective sha256)
    (hreach : (system sha256 ttl).Reachable (Database.empty clock) cfg) :
    (∀ f ∈ cfg.store.families, WellKept f) ∧
    (∀ cfg', (system sha256 ttl).Runs anyCall cfg cfg' → ∀ f ∈ cfg.store.families,
      ∀ f' ∈ cfg'.store.families, f'.familyId = f.familyId → Succeeds f f') ∧
    ∀ (i : ι) th r, cfg.Returns i th (.ok (.credentials r)) → th.call.grants = true →
      ∀ f ∈ cfg.store.families, f.familyId = r.familyId → CookieWithin f r.expiresAt := by
  have w := lifecycle_of_reachable ttl hsha hreach
  obtain ⟨hlineage, hdescent⟩ := w.inv
  refine ⟨fun f hf => ⟨⟨fun hsome => ?_, fun hactive => ?_⟩, ?_⟩, ?_, ?_⟩
  · by_contra hne
    rw [hlineage.ledger.inactive f hf hne] at hsome
    cases hsome
  · obtain ⟨j, ev, hev, hissued⟩ := hlineage.ledger.active f hf hactive
    obtain ⟨-, token, -, hhash⟩ := hlineage.chronicle.issuer j ev hev f hissued
    rw [hhash]
    rfl
  · obtain ⟨j, g, hg, hterms⟩ := hdescent.opened f hf
    exact hterms ▸ hdescent.bounded j g hg
  · intro cfg' hrun f hf f' hf' hid
    obtain ⟨hlineage', hdescent'⟩ := (w.runs hrun).inv
    obtain ⟨j, g, hg, hterms⟩ := hdescent.opened f hf
    have hg' : .opened g ∈ own j cfg'.journal := by
      obtain ⟨call, hentry⟩ := mem_own.mp hg
      exact mem_own.mpr ⟨call, hrun.journal hentry⟩
    have hgid : g.familyId = f'.familyId :=
      (congrArg FamilyTerms.familyId hterms : g.familyId = f.familyId).trans hid.symm
    have hterms' := hdescent'.terms_eq hlineage'.chronicle hf' hg' hgid
    refine ⟨hterms'.symm.trans hterms, fun hended => ?_⟩
    -- the family is closed where it has ended, and closed families stay closed
    have hclosed : Closed cfg.store cfg.journal f.familyId := by
      refine ⟨hdescent.known hf, fun f₀ hf₀ hid₀ => ?_⟩
      obtain rfl := hlineage.indexed.familyId.eq hf hf₀ rfl (congrArg some hid₀)
      exact hended
    have hstays : Closed cfg'.store cfg'.journal f.familyId := by
      refine WellFormed.runs_induct (P := fun s J => Closed s J f.familyId)
        (fun hinv hp _ hl _ ha => ?_) (fun _ hp he => ?_) w hrun hclosed
      · exact hp.change hinv.1.chronicle (change_of_applies hl.1 ha)
      · exact hp.shrink he.families.1.subset
    have hne := hstays.2 f' hf' hid
    exact ⟨hne, hlineage'.ledger.inactive f' hf' hne⟩
  · intro i th r hret hgrants f hf hid
    obtain ⟨g, hissued, hgid, hgexp⟩ := credentials_issued w hret hgrants
    obtain ⟨j, g₀, hg₀, hid₀, hexp₀⟩ := hlineage.chronicle.kin g hissued
    have hterms := hdescent.terms_eq hlineage.chronicle hf hg₀ (by rw [hid₀, ← hgid, hid])
    have hexp : g₀.expiresAt = f.expiresAt := congrArg FamilyTerms.expiresAt hterms
    exact CookieWithin.of_eq (hgexp.trans (hexp₀.symm.trans hexp))

/-- A family that is opened and rotated. -/
theorem family_lifecycle_run : ∃ cfg : Run, (system id True).Reachable (Database.empty 0) cfg ∧
    HasRotated cfg "t0" 1 ⟨"f0", "web", .member, "m1", ["profile"], 0, "t1", 3600000⟩ ∧
    ∃ f ∈ cfg.store.families, f.familyId = "f0" ∧ WellKept f ∧ CookieWithin f 3600000 := by
  have hrun : after True atRest (signsIn 0 "t0" "f0" ++ rotates 1 "t0" 1000 "o1" "t1")
      (fun cfg => (cfg.result 1, cfg.store.families.map (·.familyId))) =
      some (some (.rotate "t0" 1000, .ok (.credentials
        ⟨"f0", "web", .member, "m1", ["profile"], 0, "t1", 3600000⟩)), ["f0"]) := rfl
  obtain ⟨cfg, hreach, hview⟩ := runs_of_after hrun
  obtain ⟨hres, hids⟩ := Prod.mk.inj hview
  obtain ⟨f, hf, hid⟩ := List.map_eq_singleton_iff.mp hids
  have hmem : f ∈ cfg.store.families := by
    rw [hf]
    exact List.mem_singleton_self f
  obtain ⟨th, hret, hcall⟩ := Config.returns_of_result hres
  obtain ⟨hkept, -, hcookie⟩ := family_lifecycle Function.injective_id hreach
  refine ⟨cfg, hreach, hasRotated_of_result hres, f, hmem, hid, hkept f hmem, ?_⟩
  exact hcookie 1 th _ hret (by rw [hcall]; rfl) f hmem hid

end TokenSession
