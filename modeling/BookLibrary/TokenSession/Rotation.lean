import BookLibrary.TokenSession.Execution
import BookLibrary.TokenSession.Markers

/-!
# A refresh token has one successor

However many callers present one token, whoever crashes and whatever throws, one
of them at most is given a successor: the one that swapped the family's hash.
-/

namespace TokenSession

open Documents Interleaving

variable {ι : Type} [DecidableEq ι] {sha256 : String → String} {ttl : Prop} {clock : Date}
  {cfg : Config ι Call Op Database Reply Event}

/-- A rotation of `token` by caller `i` has returned the credential `r`. -/
def HasRotated (cfg : Config ι Call Op Database Reply Event) (token : String) (i : ι)
    (r : RefreshTokenRotationResult) : Prop :=
  ∃ th now, cfg.Returns i th (.ok (.credentials r)) ∧ th.call = .rotate token now

omit [DecidableEq ι] in
theorem hasRotated_of_result {token : String} {now : Date} {i : ι}
    {r : RefreshTokenRotationResult}
    (h : cfg.result i = some (.rotate token now, .ok (.credentials r))) :
    HasRotated cfg token i r := by
  obtain ⟨th, ht, hc⟩ := Config.returns_of_result h
  exact ⟨th, now, ht, hc⟩

theorem rotated_of_hasRotated {hsha : Function.Injective sha256}
    (w : WellFormed (lineage ι ttl hsha) cfg) {token : String} {i : ι}
    {r : RefreshTokenRotationResult} (h : HasRotated cfg token i r) :
    Rotated sha256 token (own i cfg.journal) r := by
  obtain ⟨th, now, hret, hcall⟩ := h
  have hpost := w.post_of_returns hret
  rw [hcall] at hpost
  obtain ⟨r', hr', hrot, -⟩ := hpost
  cases hr'
  exact hrot

/-- The compare-and-swap of a hash succeeds once. -/
theorem Lineage.swapped_eq {s : Database} {J : List (Entry ι Call Event)}
    (h : Lineage sha256 ttl s J) {hash : String} {f g : RefreshTokenFamily} {i j : ι}
    (hf : .swapped hash f ∈ own i J) (hg : .swapped hash g ∈ own j J) : i = j ∧ f = g := by
  obtain rfl := h.ledger.single i j hash f g hf hg
  have heq := h.chronicle.once i _ hf _ hg f g rfl rfl
  cases heq
  exact ⟨rfl, rfl⟩

theorem rotate_single {hsha : Function.Injective sha256}
    (w : WellFormed (lineage ι ttl hsha) cfg) {token : String} {i j : ι}
    {r r' : RefreshTokenRotationResult} (hi : HasRotated cfg token i r)
    (hj : HasRotated cfg token j r') : i = j := by
  obtain ⟨f, _, _, -, -, -, hf, -⟩ := rotated_of_hasRotated w hi
  obtain ⟨g, _, _, -, -, -, hg, -⟩ := rotated_of_hasRotated w hj
  exact (w.inv.swapped_eq hf hg).1

/-- At most one rotation of a token returns a credential. It is the one whose
operation id the only compare-and-swap of the token's hash recorded, and it has
committed the marker of that operation. -/
theorem rotate_single_successor (hsha : Function.Injective sha256)
    (h : (system sha256 ttl).Reachable (Database.empty clock) cfg) (token : String) :
    (∀ i j r r', HasRotated cfg token i r → HasRotated cfg token j r' → i = j) ∧
    ∀ i r, HasRotated cfg token i r → ∃ f m m',
      .prepared m ∈ own i cfg.journal ∧ m.tokenHash = sha256 token ∧
      .swapped (sha256 token) f ∈ own i cfg.journal ∧
      f.currentTokenHash = some (sha256 r.refreshToken) ∧ r = rotationResult f r.refreshToken ∧
      (∀ j g, .swapped (sha256 token) g ∈ own j cfg.journal → j = i ∧
        g.lastRotationOperationId = some m.rotationOperationId) ∧
      .committed (sha256 token) m.rotationOperationId (some m') ∈ own i cfg.journal ∧
      m'.CommittedBy (sha256 token) m.rotationOperationId := by
  have w := wellFormed_of_reachable ttl hsha h
  refine ⟨fun i j r r' hi hj => rotate_single w hi hj, fun i r hi => ?_⟩
  obtain ⟨f, m, m', hm, hh, -, hf, hop, hcur, -, hcom, hby, hr⟩ := rotated_of_hasRotated w hi
  refine ⟨f, m, m', hm, hh, hf, hcur, hr, fun j g hg => ?_, hcom, hby⟩
  obtain ⟨rfl, rfl⟩ := w.inv.swapped_eq hg hf
  exact ⟨rfl, hop⟩

/-- Caller `i` presents `token` at `now` and rotates it undisturbed. -/
def rotates (i : ℕ) (token : String) (now : Date) (op next : String) : Schedule :=
  [.start i (.rotate token now), go i, go i, draws i op, go i, draws i next, go i, reads i now, go i]

theorem rotate_single_successor_run : ∃ cfg : Run,
    HasRotated cfg "t0" 1 ⟨"f0", "web", .member, "m1", ["profile"], 0, "t1", 3600000⟩ ∧
    ∀ i r, HasRotated cfg "t0" i r → i = 1 := by
  have hrun : after True atRest (signsIn 0 "t0" "f0" ++ rotates 1 "t0" 1000 "o1" "t1")
      (·.result 1) = some (some (.rotate "t0" 1000, .ok (.credentials
        ⟨"f0", "web", .member, "m1", ["profile"], 0, "t1", 3600000⟩))) := rfl
  obtain ⟨cfg, hreach, hres⟩ := runs_of_after hrun
  have hone := hasRotated_of_result hres
  have hsingle := rotate_single_successor Function.injective_id hreach "t0"
  exact ⟨cfg, hone, fun i r hi => hsingle.1 i 1 r _ hi hone⟩

end TokenSession
