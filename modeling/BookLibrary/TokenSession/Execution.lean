import BookLibrary.Interleaving.Schedule
import BookLibrary.TokenSession.Service

/-!
# Executing the token session service

Each atomic call as a function, given the random text or the date it is to draw.
-/

namespace TokenSession

open Documents Interleaving

/-- What a random draw or a clock reading yields. -/
structure Draw where
  text : String
  date : Date

def updateMarker (p : RefreshTokenReplayMarker → Bool)
    (f : RefreshTokenReplayMarker → RefreshTokenReplayMarker) (s : Database) :
    Option RefreshTokenReplayMarker × Database :=
  match updateFirst p f s.markers with
  | some (m, markers) => (some m, { s with markers := markers })
  | none => (none, s)

def updateFamily (p : RefreshTokenFamily → Bool) (f : RefreshTokenFamily → RefreshTokenFamily)
    (s : Database) : Option RefreshTokenFamily × Database :=
  match updateFirst p f s.families with
  | some (m, families) => (some m, { s with families := families })
  | none => (none, s)

/-- `effect` as a function. -/
def perform : (β : Type) → Op β → Database → Draw → Option (β × Database)
  | _, .randomToken, s, x =>
    if x.text ≠ "" ∧ x.text ∉ s.drawn then some (x.text, { s with drawn := x.text :: s.drawn })
    else none
  | _, .randomUUID, s, x =>
    if x.text ≠ "" ∧ x.text ∉ s.drawn then some (x.text, { s with drawn := x.text :: s.drawn })
    else none
  | _, .currentDate, s, x => some (x.date, s)
  | _, .insertFamily f, s, _ => some ((), s.insertFamily f)
  | _, .insertMarker m, s, _ =>
    if ¬ (s.insertMarker m).Indexed then some (.duplicateKey, s)
    else if m.validateReplayMarkerState then some (.inserted, s.insertMarker m)
    else none
  | _, .findMarker hash, s, _ => some (s.markers.find? fun m => decide (m.tokenHash = hash), s)
  | _, .findCurrentFamily hash now, s, _ =>
    some (s.families.find? (RefreshTokenFamily.isCurrent hash now), s)
  | _, .findFamily id, s, _ => some (s.families.find? fun f => decide (f.familyId = id), s)
  | _, .findFamilyByHash hash, s, _ =>
    some (s.families.find? fun f => decide (f.currentTokenHash = some hash), s)
  | _, .findExpiredPending now, s, _ =>
    some (((s.markers.filter fun m => decide (m.status = .pending) && m.leaseExpired now).insertionSort
      (·.leaseKey ≤ ·.leaseKey)).take reconciliationBatchSize, s)
  | _, .takeOverMarker hash id now operationId lease, s, _ =>
    some (updateMarker (fun m => m.isPending hash id && m.leaseExpired now)
      (RefreshTokenReplayMarker.takeOver operationId lease) s)
  | _, .swapFamily id hash now next operationId, s, _ =>
    some (updateFamily (fun f => decide (f.familyId = id) && f.isCurrent hash now)
      (RefreshTokenFamily.swap now next operationId) s)
  | _, .commitMarker hash id date, s, _ =>
    some (updateMarker (RefreshTokenReplayMarker.isPending hash id)
      (RefreshTokenReplayMarker.commit date) s)
  | _, .revokeFamilies filter status reason date, s, _ =>
    some (s.families.countP filter.selects, { s with
      families := updateMany filter.selects (revocationUpdate status reason date) s.families })

theorem updateMarker_updateOne {p : RefreshTokenReplayMarker → Bool}
    {f : RefreshTokenReplayMarker → RefreshTokenReplayMarker} {s s' : Database}
    {r : Option RefreshTokenReplayMarker} (h : updateMarker p f s = (r, s')) :
    ∃ markers, UpdateOne p f s.markers r markers ∧ s' = { s with markers := markers } := by
  simp only [updateMarker] at h
  split at h
  · next hu =>
    cases h
    exact ⟨_, updateFirst_some hu, rfl⟩
  · next hu =>
    cases h
    exact ⟨_, updateFirst_none hu, rfl⟩

theorem updateFamily_updateOne {p : RefreshTokenFamily → Bool}
    {f : RefreshTokenFamily → RefreshTokenFamily} {s s' : Database}
    {r : Option RefreshTokenFamily} (h : updateFamily p f s = (r, s')) :
    ∃ families, UpdateOne p f s.families r families ∧ s' = { s with families := families } := by
  simp only [updateFamily] at h
  split at h
  · next hu =>
    cases h
    exact ⟨_, updateFirst_some hu, rfl⟩
  · next hu =>
    cases h
    exact ⟨_, updateFirst_none hu, rfl⟩

theorem perform_effect {β : Type} {op : Op β} {s s' : Database} {x : Draw} {b : β}
    (h : perform β op s x = some (b, s')) : effect β op s b s' := by
  cases op with
  | randomToken | randomUUID =>
    simp only [perform] at h
    split at h
    · next hx =>
      cases h
      exact ⟨hx.1, hx.2, rfl⟩
    · cases h
  | insertMarker m =>
    simp only [perform] at h
    split at h
    · next hdup =>
      cases h
      exact ⟨hdup, rfl⟩
    · split at h
      · next hvalid =>
        cases h
        exact ⟨hvalid, rfl⟩
      · cases h
  | currentDate | insertFamily | revokeFamilies =>
    cases h
    trivial
  | findMarker | findCurrentFamily | findFamily | findFamilyByHash =>
    cases h
    exact ⟨findOne_find?, rfl⟩
  | findExpiredPending =>
    cases h
    exact ⟨findSorted_insertionSort, rfl⟩
  | takeOverMarker | commitMarker => exact updateMarker_updateOne (Option.some.inj h)
  | swapFamily => exact updateFamily_updateOne (Option.some.inj h)

def mayThrow : (β : Type) → Op β → Bool
  | _, .randomToken => false
  | _, .randomUUID => false
  | _, .currentDate => false
  | _, _ => true

variable {ι : Type} {gate : Gate ι Call Op Database Event}

/-- The driver of the service under a gate that `admits` checks. -/
def driver (sha256 : String → String) (ttl : Prop)
    (admits : ι → (β : Type) → Op β → Bool → Database → List (Entry ι Call Event) → Bool)
    (admitted : ∀ {i β op a s J}, admits i β op a s J = true → gate i β op a s J) :
    Driver (system sha256 ttl) gate Draw where
  run β op s x := (perform β op s x).bind fun r => if r.2.Indexed then some r else none
  run_exec {β op s x b s'} h := by
    obtain ⟨⟨b', s''⟩, hp, hr⟩ := Option.bind_eq_some_iff.mp h
    split at hr
    · next hi =>
      cases hr
      exact ⟨perform_effect hp, hi⟩
    · cases hr
  fails := mayThrow
  fallible {β op} h := by
    cases op with
    | randomToken | randomUUID | currentDate => cases h
    | _ => trivial
  admits := admits
  admitted := admitted

/-- The driver that admits every call. -/
def anyDriver (sha256 : String → String) (ttl : Prop) :
    Driver (system sha256 ttl) (anyCall : Gate ι Call Op Database Event) Draw :=
  driver sha256 ttl (fun _ _ _ _ _ _ => true) fun _ => anyCall_pass

section Schedules

abbrev Schedule := List (Move ℕ Call Draw)

/-- Caller `i` issues its next call. -/
def go (i : ℕ) : Move ℕ Call Draw := .reply i ⟨"", 0⟩

/-- Caller `i` draws `x`. -/
def draws (i : ℕ) (x : String) : Move ℕ Call Draw := .reply i ⟨x, 0⟩

/-- Caller `i` reads the clock. -/
def reads (i : ℕ) (date : Date) : Move ℕ Call Draw := .reply i ⟨"", date⟩

/-- Caller `i` signs in and is given the family `id` with the token `token`. -/
def signsIn (i : ℕ) (token id : String) : Schedule :=
  [.start i (.createFamily ⟨"web", .member, "m1", ["profile"], 0, 3600⟩ 0), draws i token,
    draws i id, go i]

abbrev Run := Config ℕ Call Op Database Reply Event

/-- What `view` shows after a schedule, with tokens that are their own hashes. -/
def after {α : Type*} (ttl : Prop) (cfg : Run) (ms : Schedule) (view : Run → α) : Option α :=
  ((anyDriver id ttl).play cfg ms).map view

theorem runs_of_after {α : Type*} {ttl : Prop} {cfg : Run} {ms : Schedule} {view : Run → α} {a : α}
    (h : after ttl cfg ms view = some a) :
    ∃ cfg', (system id ttl).Runs anyCall cfg cfg' ∧ view cfg' = a := by
  obtain ⟨cfg', hplay, hview⟩ := Option.map_eq_some_iff.mp h
  exact ⟨cfg', Driver.play_runs hplay, hview⟩

/-- Nobody has started, and the database is empty. -/
def atRest : Run := Config.init (Database.empty 0)

end Schedules

end TokenSession
