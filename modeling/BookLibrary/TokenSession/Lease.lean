import BookLibrary.TokenSession.Replay

/-!
# Live leases

A rotation that meets a pending marker under a live lease denies. It reads the
family before it looks at the lease, though, and gives up on a family that has
moved on: a family that the owner of the lease swapped meanwhile is revoked.
-/

namespace TokenSession

open Documents Interleaving

variable {ι : Type} [DecidableEq ι] {sha256 : String → String} {ttl : Prop} {clock : Date}
  {cfg : Config ι Call Op Database Reply Event} {s s' : Database}
  {J : List (Entry ι Call Event)}

/-- The event tells of a change to a family. -/
def Event.Modifies : Event → Prop
  | .opened _ => True
  | .swapped .. => True
  | .revoked _ n => n ≠ 0
  | _ => False

/-- If caller `i` is rotating and has found a pending marker under a live lease, it
has changed no family, and it ends with the denial unless a call of its own threw. -/
def RespectsLease (cfg : Config ι Call Op Database Reply Event) (i : ι) : Prop :=
  ∀ th token now hash m, cfg.threads i = some th → th.call = .rotate token now →
    .found hash (some m) ∈ own i cfg.journal → m.leased now →
    (∀ ev ∈ own i cfg.journal, ¬ ev.Modifies) ∧
    ∀ reply, cfg.Returns i th reply → (∀ a, reply ≠ .ok a) ∧
      (th.faulted = false → reply = .error .denied)

/-- The family is gone, or not active, or it still waits for the rotation that `m`
was prepared for. -/
def Waiting (now : Date) (m : RefreshTokenReplayMarker) (families : List RefreshTokenFamily) :
    Prop :=
  ∀ f ∈ families, f.familyId = m.familyId → f.status = .active →
    f.isCurrent m.tokenHash now = true ∧ f.lastRotationOperationId ≠ some m.rotationOperationId

/-- A rotation that has found a live lease reads a family that is `Waiting`. -/
def readsWaiting : Gate ι Call Op Database Event := fun i _ op _ s J =>
  match op with
  | .findFamily id => ∀ token now hash m, ⟨i, .rotate token now, .found hash (some m)⟩ ∈ J →
      m.leased now → id = m.familyId → Waiting now m s.families
  | _ => True

/-- What `readsWaiting` keeps: nobody under a live lease has read a family it would
give up on, or changed one. -/
def Patient (J : List (Entry ι Call Event)) : Prop :=
  ∀ i token now hash m, ⟨i, .rotate token now, .found hash (some m)⟩ ∈ J → m.leased now →
    (∀ r, .read m.familyId r ∈ own i J → (∀ f, r = some f → f.status ≠ .active) ∨
      rotatedBy m.rotationOperationId r = false ∧ stillCurrent m.tokenHash now r = true) ∧
    ∀ ev ∈ own i J, ¬ ev.Modifies

theorem Waiting.read {now : Date} {m : RefreshTokenReplayMarker} {r : Option RefreshTokenFamily}
    (h : Waiting now m s.families)
    (hr : FindOne (fun f => decide (f.familyId = m.familyId)) s.families r) :
    (∀ f, r = some f → f.status ≠ .active) ∨
      rotatedBy m.rotationOperationId r = false ∧ stillCurrent m.tokenHash now r = true := by
  cases r with
  | none => exact .inl fun f hf => by cases hf
  | some f =>
    by_cases hact : f.status = .active
    · obtain ⟨hcur, hop⟩ := h f hr.mem (of_decide_eq_true hr.select) hact
      exact .inr ⟨by simpa [rotatedBy] using hop, hcur⟩
    · exact .inl fun g hg => by cases hg; exact hact

/-- A revocation that a live lease lets through finds no family to change. -/
theorem Closed.selects {id : String} (h : Closed s J id) :
    s.families.countP (RevocationFilter.familyId id).selects = 0 := by
  rw [List.countP_eq_zero]
  intro f hf hsel
  simp only [RevocationFilter.selects, Bool.and_eq_true, decide_eq_true_eq] at hsel
  exact h.2 f hf hsel.2 hsel.1

theorem Event.Asks.not_modifies {ev : Event} (h : ev.Asks) : ¬ ev.Modifies := by
  cases ev with
  | opened | swapped | revoked => exact h.elim
  | _ => exact id

theorem Event.Saw.not_modifies {ev : Event} {l : List Event} (h : ev.Saw l s) : ¬ ev.Modifies := by
  cases ev with
  | opened | swapped | revoked => exact h.elim
  | _ => exact id

theorem List.eq_of_mem_of_length_le_one {α : Type*} {a : α} {l : List α} (h : a ∈ l)
    (hl : l.length ≤ 1) : l = [a] := by
  cases l with
  | nil => cases h
  | cons b l =>
    cases l with
    | nil => rw [List.mem_singleton.mp h]
    | cons => simp at hl

theorem Patient.change (h : Patient J) (hl : Lineage sha256 ttl s J) {i : ι} {c : Call}
    {evs : List Event} (hcall : ∀ e ∈ J, e.caller = i → e.call = c)
    (hgate : ∀ id r, .read id r ∈ evs → ∀ token now hash m,
      ⟨i, .rotate token now, .found hash (some m)⟩ ∈ J → m.leased now → id = m.familyId →
      Waiting now m s.families)
    (hch : Change sha256 c (own i J) s evs s') : Patient (record i c evs ++ J) := by
  intro j token now hash m hfound hlease
  rcases List.mem_append.mp hfound with hnew | hold
  · -- the caller has just found the marker, and had only asked before
    obtain ⟨rfl, rfl, hev⟩ := mem_record.mp hnew
    cases hch with
    | look single saw =>
      obtain rfl := List.eq_of_mem_of_length_le_one hev single
      have hasks : ∀ ev ∈ own j (record j (.rotate token now) [.found hash (some m)] ++ J),
          ev.Asks := by
        intro ev hmem
        rcases mem_own_record.mp hmem with ⟨-, he⟩ | he
        · cases List.mem_singleton.mp he
          trivial
        · exact (saw _ hev).1 ev he
      exact ⟨fun r hr => (hasks _ hr).elim, fun ev hmem => (hasks ev hmem).not_modifies⟩
    | _ => cases List.mem_singleton.mp hev
  · obtain ⟨hread, hstill⟩ := h j token now hash m hold hlease
    constructor
    · intro r hr
      rcases mem_own_record.mp hr with ⟨rfl, hnew⟩ | hr
      · have hwait := hgate _ r hnew token now hash m hold hlease rfl
        cases hch with
        | look _ saw => exact hwait.read (saw _ hnew).2
        | _ => cases List.mem_singleton.mp hnew
      · exact hread r hr
    · intro ev hev
      rcases mem_own_record.mp hev with ⟨rfl, hnew⟩ | hev
      · obtain rfl : .rotate token now = c := hcall _ hold rfl
        have hmem : .found hash (some m) ∈ own i J := mem_own.mpr ⟨_, hold⟩
        cases hch with
        | look _ saw => exact (saw _ hnew).not_modifies
        | openFamily may => exact may.elim
        | swap may update => exact absurd hlease (may.2.2.2.1 hash m hmem)
        | revoke inactive may =>
          cases List.mem_singleton.mp hnew
          obtain ⟨id, rfl, -, hbad⟩ := may
          obtain ⟨rfl, r, hr, hgive⟩ := hbad hash m hmem hlease
          rcases hread r hr with hgone | ⟨hop, hcur⟩
          · have hclosed := hl.closures.read i _ r hr hgone
            exact fun hne => hne hclosed.selects
          · rw [hop, hcur] at hgive
            simp at hgive
        | draw | insertMarker | takeOver | commit =>
          cases List.mem_singleton.mp hnew
          exact id
      · exact hstill ev hev

omit [DecidableEq ι] in
theorem readsWaiting_read {i : ι} {β : Type} {op : Op β} {a : Bool} {r₀ : Option β}
    (hg : readsWaiting i β op a s J) {id : String} {r : Option RefreshTokenFamily}
    (hr : .read id r ∈ note β op r₀) : ∀ token now hash m,
      ⟨i, .rotate token now, .found hash (some m)⟩ ∈ J → m.leased now → id = m.familyId →
      Waiting now m s.families := by
  cases op with
  | findFamily id' =>
    obtain ⟨r', -, heq⟩ := List.mem_map.mp hr
    cases heq
    exact hg
  | commitMarker => cases r₀ <;> simp [note] at hr
  | _ => simp [note] at hr

theorem patient_of_runs (hsha : Function.Injective sha256)
    (h : (system sha256 ttl).Runs readsWaiting (Config.init (Database.empty clock)) cfg) :
    Patient cfg.journal := by
  have w : WellFormed (lineage ι ttl hsha) (Config.init (Database.empty clock)) :=
    WellFormed.init (Lineage.empty clock)
  refine WellFormed.runs_induct (P := fun _ J => Patient J) (fun hinv hp hcall hl hg ha => ?_)
    (fun _ hp _ => hp) w h ?_
  · exact hp.change hinv hcall (fun id r hr => readsWaiting_read hg hr) (change_of_legal hl ha)
  · intro i token now hash m hm
    exact absurd hm List.not_mem_nil

/-- In a run whose rotations read a waiting family under a live lease, live leases
are respected. -/
theorem lease_respected (hsha : Function.Injective sha256)
    (h : (system sha256 ttl).Runs readsWaiting (Config.init (Database.empty clock)) cfg) (i : ι) :
    RespectsLease cfg i := by
  intro th token now hash m hth hcall hfound hlease
  have w := wellFormed_of_reachable ttl hsha h.open
  obtain ⟨call, hentry⟩ := mem_own.mp hfound
  obtain rfl : call = .rotate token now := (w.call_eq hth _ hentry rfl).trans hcall
  refine ⟨(patient_of_runs hsha h i token now hash m hentry hlease).2, fun reply hret => ?_⟩
  have hpost := w.post_of_returns hret
  rw [hcall] at hpost
  cases reply with
  | ok a =>
    obtain ⟨r, -, -, hfree⟩ := hpost
    exact absurd hlease (hfree hash m hfound)
  | error e =>
    refine ⟨nofun, fun hfl => ?_⟩
    obtain ⟨rfl, -⟩ := hpost hfl
    rfl

instance {now : Date} {m : RefreshTokenReplayMarker} : Decidable (m.leased now) :=
  decidable_of_iff (m.status = .pending ∧ m.leaseExpiresAt.any (now < ·) = true)
    (by simp [RefreshTokenReplayMarker.leased, Option.any_eq_true])

instance {now : Date} {m : RefreshTokenReplayMarker} {families : List RefreshTokenFamily} :
    Decidable (Waiting now m families) := by
  unfold Waiting
  infer_instance

/-- `readsWaiting` as a check of the journal. -/
def checksWaiting (i : ℕ) (β : Type) (op : Op β) (_applied : Bool) (s : Database)
    (J : List (Entry ℕ Call Event)) : Bool :=
  match op with
  | .findFamily id => J.all fun e =>
    match e.call, e.event with
    | .rotate _ now, .found _ (some m) =>
      decide (e.caller = i → m.leased now → id = m.familyId → Waiting now m s.families)
    | _, _ => true
  | _ => true

theorem readsWaiting_of_checks {i : ℕ} {β : Type} {op : Op β} {a : Bool}
    {J : List (Entry ℕ Call Event)} (h : checksWaiting i β op a s J = true) :
    readsWaiting i β op a s J := by
  cases op with
  | findFamily id =>
    intro token now hash m hm
    have hentry := List.all_eq_true.mp h _ hm
    exact of_decide_eq_true hentry rfl
  | _ => trivial

/-- Caller 1 prepares a rotation, then caller 2 finds its marker. -/
def meets : Schedule :=
  signsIn 0 "t0" "f0" ++
    [.start 1 (.rotate "t0" 1000), go 1, go 1, draws 1 "o1", go 1,
      .start 2 (.rotate "t0" 1500), go 2]

theorem lease_respected_run : ∃ cfg : Run,
    (system id True).Runs readsWaiting atRest cfg ∧
    (∃ m, .found "t0" (some m) ∈ own 2 cfg.journal ∧ m.leased 1500) ∧ RespectsLease cfg 2 := by
  have hrun : (((driver id True checksWaiting readsWaiting_of_checks).play atRest
      (meets ++ [go 2])).map fun cfg => own 2 cfg.journal) =
      some [.read "f0" (some ⟨"f0", "web", .member, "m1", ["profile"], some 0, .active, some "t0",
        none, 0, 0, 3600000, none, none⟩),
        .found "t0" (some ⟨"t0", "f0", .pending, "o1", some 31000, none, 3600000⟩)] := rfl
  obtain ⟨cfg, hplay, hown⟩ := Option.map_eq_some_iff.mp hrun
  have hruns := Driver.play_runs hplay
  refine ⟨cfg, hruns, ⟨⟨"t0", "f0", .pending, "o1", some 31000, none, 3600000⟩, ?_, by decide⟩,
    lease_respected Function.injective_id hruns 2⟩
  rw [hown]
  exact List.mem_cons_of_mem _ List.mem_cons_self

/-- Caller 2 finds the live lease of caller 1, which then swaps the family, commits
and returns; caller 2 reads the family now, and revokes it. -/
theorem lease_not_respected : ∃ cfg : Run,
    (system id True).Reachable (Database.empty 0) cfg ∧
    HasRotated cfg "t0" 1 ⟨"f0", "web", .member, "m1", ["profile"], 0, "t1", 3600000⟩ ∧
    ¬ RespectsLease cfg 2 ∧ Ended cfg.store "f0" := by
  have hrun : after True atRest (meets ++ [draws 1 "t1", go 1, reads 1 1600, go 1] ++
      [go 2, reads 2 1700, go 2, reads 2 1700, go 2])
      (fun cfg => (cfg.result 1, cfg.threads 2, own 2 cfg.journal, cfg.store.families)) =
      some (some (.rotate "t0" 1000, .ok (.credentials
          ⟨"f0", "web", .member, "m1", ["profile"], 0, "t1", 3600000⟩)),
        some ⟨.rotate "t0" 1500, some (.done (.error .denied)), false⟩,
        [.revoked (.familyId "f0") 1, .committed "t0" "o1" none,
          .read "f0" (some ⟨"f0", "web", .member, "m1", ["profile"], some 0, .active, some "t1",
            some "o1", 0, 1000, 3600000, none, none⟩),
          .found "t0" (some ⟨"t0", "f0", .pending, "o1", some 31000, none, 3600000⟩)],
        [⟨"f0", "web", .member, "m1", ["profile"], some 0, .revoked, none, some "o1", 0, 1000,
          3600000, some 1700, some "refresh-rotation-orphaned"⟩]) := rfl
  obtain ⟨cfg, hreach, hview⟩ := runs_of_after hrun
  obtain ⟨hres, hview⟩ := Prod.mk.inj hview
  obtain ⟨hth, hview⟩ := Prod.mk.inj hview
  obtain ⟨hown, hfamilies⟩ := Prod.mk.inj hview
  refine ⟨cfg, hreach, hasRotated_of_result hres, fun hrespects => ?_, ?_⟩
  · obtain ⟨hkept, -⟩ := hrespects _ "t0" 1500 "t0"
      ⟨"t0", "f0", .pending, "o1", some 31000, none, 3600000⟩ hth rfl (by rw [hown]; simp)
      (by decide)
    exact hkept (.revoked (.familyId "f0") 1) (by rw [hown]; simp) Nat.one_ne_zero
  · rw [Ended, hfamilies]
    simp

end TokenSession
