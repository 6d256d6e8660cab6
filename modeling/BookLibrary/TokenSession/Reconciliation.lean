import BookLibrary.TokenSession.Lease

/-!
# Reconciliation against rotations

A reconciliation pass decides on a marker from what it read and then commits the
marker and revokes the family. The revocation follows even if the commit did not
match: the rotation whose marker it was may have returned meanwhile.
-/

namespace TokenSession

open Documents Interleaving

variable {ι : Type} [DecidableEq ι] {sha256 : String → String} {clock : Date}
  {cfg : Config ι Call Op Database Reply Event} {s s' : Database}
  {J : List (Entry ι Call Event)}

/-- When caller `p` is about to revoke a family on account of a marker it has just
finalized, no rotation of the marker's token has returned a credential, or ever will. -/
def SparesReturned (sha256 : String → String) (cfg : Config ι Call Op Database Reply Event)
    (p : ι) : Prop :=
  ∀ th filter status reason date operationId token,
    cfg.Issues p th (.revokeFamilies filter status reason date) →
    Finalizing (sha256 token) operationId (own p cfg.journal) →
    ∀ cfg', (system sha256 False).Runs anyCall cfg cfg' → ∀ i r, ¬ HasRotated cfg' token i r

/-- Every commit of caller `p` is applied and finds its marker still pending. -/
def commitsPending (p : ι) : Gate ι Call Op Database Event := fun i _ op applied s _ =>
  match op with
  | .commitMarker hash operationId _ => i = p → applied = true ∧
      ∃ m ∈ s.markers, m.isPending hash operationId = true
  | _ => True

/-- The event tells of a commit that did not match or was not applied. -/
def Event.Failed : Event → Prop
  | .committed _ _ none => True
  | .uncommitted .. => True
  | _ => False

/-- Caller `p` has committed every marker it tried to. -/
def Effective (p : ι) (J : List (Entry ι Call Event)) : Prop :=
  ∀ ev ∈ own p J, ¬ ev.Failed

omit [DecidableEq ι] in
theorem commitsPending_note {p : ι} {β : Type} {op : Op β} {r : Option β} {ttl : Prop}
    (hg : commitsPending p p β op r.isSome s J) (h : (system sha256 ttl).Applies op s r s')
    {ev : Event} (hev : ev ∈ note β op r) : ¬ ev.Failed := by
  cases op with
  | commitMarker hash op date =>
    obtain ⟨happ, m, hm, hp⟩ := hg rfl
    obtain ⟨b, rfl⟩ := Option.isSome_iff_exists.mp happ
    cases List.mem_singleton.mp hev
    cases b with
    | none =>
      obtain ⟨⟨markers, hu, -⟩, -⟩ := h
      rw [hu.1 m hm] at hp
      cases hp
    | some m' => exact id
  | insertMarker m =>
    simp only [note] at hev
    split at hev
    · cases List.mem_singleton.mp hev
      exact id
    · cases hev
  | currentDate => cases hev
  | _ =>
    obtain ⟨x, -, rfl⟩ := List.mem_map.mp hev
    exact id

theorem effective_of_runs (hsha : Function.Injective sha256) {p : ι} {ttl : Prop}
    (h : (system sha256 ttl).Runs (commitsPending p) (Config.init (Database.empty clock)) cfg) :
    Effective p cfg.journal := by
  have w : WellFormed (lineage ι ttl hsha) (Config.init (Database.empty clock)) :=
    WellFormed.init (Lineage.empty clock)
  refine WellFormed.runs_induct (P := fun _ J => Effective p J) (fun _ hp _ _ hg ha => ?_)
    (fun _ hp _ => hp) w h fun ev hev => absurd hev List.not_mem_nil
  intro ev hev
  rcases mem_own_record.mp hev with ⟨rfl, hnew⟩ | hold
  · exact commitsPending_note hg ha hnew
  · exact hp ev hold

/-- `commitsPending p` as a check. -/
def checksCommits (p i : ℕ) (β : Type) (op : Op β) (applied : Bool) (s : Database)
    (_ : List (Entry ℕ Call Event)) : Bool :=
  match op with
  | .commitMarker hash operationId _ =>
    decide (i = p → applied = true ∧ ∃ m ∈ s.markers, m.isPending hash operationId = true)
  | _ => true

theorem commitsPending_of_checks {p i : ℕ} {β : Type} {op : Op β} {a : Bool}
    {J : List (Entry ℕ Call Event)} (h : checksCommits p i β op a s J = true) :
    commitsPending p i β op a s J := by
  cases op with
  | commitMarker hash op date =>
    intro hi
    simp only [checksCommits, decide_eq_true_eq] at h
    exact h hi
  | _ => trivial

/-- Caller 1 prepares a rotation of "t0" under a lease until 30000. -/
def prepares : Schedule :=
  signsIn 0 "t0" "f0" ++ [.start 1 (.rotate "t0" 0), go 1, go 1, draws 1 "o1", go 1]

end TokenSession
