import BookLibrary.TokenSession.Replay

/-!
# Sign-out

`AuthService.logout` revokes by the presented token. It ends the token's family if the
family is not active or still holds the token; a token the family was rotated away from
revokes nothing.
-/

namespace TokenSession

open Documents Interleaving

variable {ι : Type} [DecidableEq ι] {sha256 : String → String} {ttl : Prop} {clock : Date}
  {cfg cfg' : Config ι Call Op Database Reply Event} {s s' : Database}
  {J : List (Entry ι Call Event)} {i j : ι} {hash familyId : String}

/-- `AuthService.logout`, up to the security event it records. -/
def logout (refreshToken : Option String) : Call := .revokeRefreshToken refreshToken "sign-out"

/-- The family holds the hash, or a replay marker of the hash names it. -/
def KnownBy (s : Database) (hash familyId : String) : Prop :=
  (∃ f ∈ s.families, f.familyId = familyId ∧ f.currentTokenHash = some hash) ∨
    ∃ m ∈ s.markers, m.tokenHash = hash ∧ m.familyId = familyId

/-- The hash was handed out for the family. -/
def IssuedFor (J : List (Entry ι Call Event)) (hash familyId : String) : Prop :=
  ∃ g, Issued J g ∧ g.currentTokenHash = some hash ∧ g.familyId = familyId

/-- When a token is revoked, the family it was issued for still holds it, or is not active. -/
def revokesHolder : Gate ι Call Op Database Event := fun _ _ op _ s J =>
  match op with
  | .revokeFamilies (.currentTokenHash hash) _ _ _ => ∀ f ∈ s.families, f.status = .active →
      IssuedFor J hash f.familyId → f.currentTokenHash = some hash
  | _ => True

theorem IssuedFor.record {c : Call} {evs : List Event} (h : IssuedFor J hash familyId) :
    IssuedFor (record i c evs ++ J) hash familyId := by
  obtain ⟨g, hg, hgh⟩ := h
  exact ⟨g, hg.record, hgh⟩

theorem KnownBy.issuedFor (hl : Lineage sha256 ttl s J) (h : KnownBy s hash familyId) :
    IssuedFor J hash familyId := by
  rcases h with ⟨f, hf, hid, hh⟩ | ⟨m, hm, hh, hid⟩
  · have hactive : f.status = .active := by
      by_contra hne
      rw [hl.ledger.inactive f hf hne] at hh
      cases hh
    exact ⟨f, hl.ledger.active f hf hactive, hh, hid⟩
  · obtain ⟨g, hg, hgh, hgid, -⟩ := hl.markers.covered m hm
    exact ⟨g, hg, hgh.trans (congrArg some hh), hgid.trans hid⟩

/-- Nobody is issued the empty token. -/
theorem IssuedFor.nonempty (hl : Lineage sha256 ttl s J) (hsha : Function.Injective sha256)
    {token : String} (h : IssuedFor J (sha256 token) familyId) : token ≠ "" := by
  obtain ⟨g, ⟨k, ev, hev, hg⟩, hgh, -⟩ := h
  obtain ⟨-, token', ht, hh⟩ := hl.chronicle.issuer k ev hev g hg
  have htoken : token' = token := hsha (Option.some.inj (hh.symm.trans hgh))
  exact htoken ▸ (hl.chronicle.known k token' ht).1

section Walk

/-- A sign-out that ends without an error has revoked by its token. -/
def HasRevoked (sha256 : String → String) : Call → Bool → List Event → Reply → Prop
  | .revokeRefreshToken (some token) _, _, l, .ok _ =>
    token ≠ "" → ∃ n, .revoked (.currentTokenHash (sha256 token)) n ∈ l
  | _, _, _, _ => True

theorem revokeRefreshToken_revokes {token : String} (hne : token ≠ "") (reason : String) :
    Conforms (system sha256 ttl) (fun _ _ _ _ => True)
      (fun _ l r => ∀ u, r = .ok u → ∃ n, .revoked (.currentTokenHash (sha256 token)) n ∈ l)
      false [] (revokeRefreshToken sha256 (some token) reason).run := by
  simp only [revokeRefreshToken, if_neg hne]
  refine Conforms.run_call trivial (fun _ _ => by rintro _ ⟨⟩) fun date _ => ?_
  refine Conforms.run_call trivial (fun _ _ => by rintro _ ⟨⟩) fun n _ => ?_
  exact Conforms.run_pure fun u _ => ⟨n, List.mem_cons_self⟩

theorem body_revokes (call : Call) : Conforms (system sha256 ttl) (fun _ _ _ _ => True)
    (HasRevoked sha256 call) false [] (body sha256 call) := by
  cases call with
  | revokeRefreshToken token reason =>
    cases token with
    | none => exact (Conforms.vacuous _).mono fun _ _ _ _ => trivial
    | some token =>
      by_cases hne : token = ""
      · exact (Conforms.vacuous _).mono fun _ _ r _ => by
          cases r with
          | ok a => exact fun h => absurd hne h
          | error e => trivial
      · refine Conforms.run_then (revokeRefreshToken_revokes hne reason) (fun fl l u h => ?_)
          fun _ _ _ _ => trivial
        exact Conforms.run_pure fun _ => h u rfl
  | _ => exact (Conforms.vacuous _).mono fun _ _ _ _ => trivial

/-- What is known of sign-outs alone. -/
def signOuts (ι : Type) [DecidableEq ι] (sha256 : String → String) (ttl : Prop) :
    Contract ι (system sha256 ttl) where
  inv _ _ := True
  legal _ _ _ _ _ := True
  post := HasRevoked sha256
  inv_call _ _ _ _ := trivial
  inv_env _ _ := trivial
  conforms := body_revokes

end Walk

/-- A revocation by a token of the family, issued under the gate, ends the family. -/
theorem Closed.of_revoke (hissued : IssuedFor J hash familyId)
    {c : Call} {status : RefreshTokenFamilyStatus} {reason : String} {date : Date} {n : ℕ}
    (inactive : status ≠ .active)
    (hholds : ∀ f ∈ s.families, f.status = .active → IssuedFor J hash f.familyId →
      f.currentTokenHash = some hash) :
    Closed { s with
        families := updateMany (RevocationFilter.currentTokenHash hash).selects
          (revocationUpdate status reason date) s.families }
      (record i c [.revoked (.currentTokenHash hash) n] ++ J) familyId := by
  obtain ⟨g, hg, hgh, hgid⟩ := hissued
  refine ⟨⟨g, hg.record, hgid⟩, fun f hf hid hactive => ?_⟩
  rcases mem_updateMany.mp hf with ⟨hold, hkept⟩ | ⟨f₀, -, -, rfl⟩
  · -- an active family of the token would have been selected
    have hcurrent := hholds f hold hactive (hid ▸ ⟨g, hg, hgh, hgid⟩)
    simp [RevocationFilter.selects, hactive, hcurrent] at hkept
  · exact inactive hactive

/-- A family is closed once its token has been revoked by caller `j`. -/
structure SignedOut (hash familyId : String) (j : ι) (s : Database) (J : List (Entry ι Call Event)) :
    Prop where
  issued : IssuedFor J hash familyId
  closed : (∃ n, .revoked (.currentTokenHash hash) n ∈ own j J) → Closed s J familyId

theorem SignedOut.change {hsha : Function.Injective sha256} {c : Call} {fl : Bool} {β : Type}
    {op : Op β} {r : Option β} (h : SignedOut hash familyId j s J) (hl : Lineage sha256 ttl s J)
    (hlegal : (lineage ι ttl hsha).legal c fl (own i J) β op)
    (hgate : revokesHolder i β op r.isSome s J) (ha : (system sha256 ttl).Applies op s r s') :
    SignedOut hash familyId j s' (record i c (note β op r) ++ J) := by
  refine ⟨h.issued.record, fun hrevoked => ?_⟩
  obtain ⟨n, hn⟩ := hrevoked
  rcases mem_own_record.mp hn with ⟨-, hnew⟩ | hold
  · -- the call is the revocation itself
    cases op with
    | revokeFamilies filter status reason date =>
      cases r with
      | none => cases hnew
      | some m =>
        obtain ⟨⟨rfl, rfl⟩, -⟩ := ha
        cases List.mem_singleton.mp hnew
        exact Closed.of_revoke h.issued hlegal.1 hgate
    | insertMarker m =>
      simp only [note] at hnew
      split at hnew
      · cases List.mem_singleton.mp hnew
      · cases hnew
    | commitMarker => cases r <;> simp [note] at hnew
    | _ => simp [note] at hnew
  · exact (h.closed ⟨n, hold⟩).change hl.chronicle (change_of_legal hlegal ha)

/-- In a run whose revocations by token meet the family that holds it, a sign-out with a
token its family is known by leaves the family ended, whatever runs beside it. -/
theorem signOut_ends (hsha : Function.Injective sha256)
    (hreach : (system sha256 ttl).Reachable (Database.empty clock) cfg) {token : String}
    (hknown : KnownBy cfg.store (sha256 token) familyId) (hfree : cfg.threads j = none)
    (hrun : (system sha256 ttl).Runs revokesHolder cfg cfg') {th : Thread Call Op Reply}
    {a : Answer} (hret : cfg'.Returns j th (.ok a)) (hcall : th.call = logout (some token)) :
    Ended cfg'.store familyId := by
  have w := wellFormed_of_reachable ttl hsha hreach
  have hissued := hknown.issuedFor w.inv
  have hnil := w.own_eq_nil hfree
  have hsigned : SignedOut (sha256 token) familyId j cfg'.store cfg'.journal := by
    refine WellFormed.runs_induct (fun hinv hp _ hl hg ha => ?_) (fun _ hp he => ?_) w hrun ?_
    · exact hp.change hinv hl hg ha
    · exact ⟨hp.issued, fun hn => (hp.closed hn).shrink he.families.1.subset⟩
    · exact ⟨hissued, fun hn => by simp [hnil] at hn⟩
  have wout : WellFormed (signOuts ι sha256 ttl) cfg' :=
    ((WellFormed.init trivial).runs hreach).runs hrun
  have hpost : HasRevoked sha256 th.call th.faulted (own j cfg'.journal) (.ok a) :=
    wout.post_of_returns hret
  rw [hcall] at hpost
  obtain ⟨-, hinactive⟩ := hsigned.closed (hpost (hissued.nonempty w.inv hsha))
  intro f hf hid
  have hne := hinactive f hf hid
  exact ⟨hne, (w.runs hrun).inv.ledger.inactive f hf hne⟩

/-- `revokesHolder` for a store with no active family but those that hold the hash. -/
def checksHolder (_ : ℕ) (β : Type) (op : Op β) (_applied : Bool) (s : Database)
    (_ : List (Entry ℕ Call Event)) : Bool :=
  match op with
  | .revokeFamilies (.currentTokenHash hash) _ _ _ => s.families.all fun f =>
      !decide (f.status = .active) || decide (f.currentTokenHash = some hash)
  | _ => true

theorem revokesHolder_of_checks {i : ℕ} {β : Type} {op : Op β} {a : Bool}
    {J : List (Entry ℕ Call Event)} (h : checksHolder i β op a s J = true) :
    revokesHolder i β op a s J := by
  cases op with
  | revokeFamilies filter status reason date =>
    cases filter with
    | currentTokenHash hash =>
      intro f hf hactive _
      simpa [hactive] using List.all_eq_true.mp h f hf
    | _ => trivial
  | _ => trivial

/-- A rotation prepares its marker, the sign-out of the same token runs, and the rotation
goes on to its swap. -/
def signsOutFirst : Schedule :=
  [.start 1 (.rotate "t0" 1000), go 1, go 1, draws 1 "o1", go 1, .start 2 (logout (some "t0")),
    reads 2 1100, go 2, draws 1 "t1", go 1, reads 1 1200, go 1, reads 1 1200, go 1]

/-- The rotation swaps first. -/
def swapsFirst : Schedule :=
  [.start 1 (.rotate "t0" 1000), go 1, go 1, draws 1 "o1", go 1, .start 2 (logout (some "t0")),
    reads 2 1100, draws 1 "t1", go 1, go 2, reads 1 1200, go 1]

theorem signOut_ends_run : ∃ cfg cfg' : Run,
    KnownBy cfg.store "t0" "f0" ∧ (system id True).Runs revokesHolder cfg cfg' ∧
    cfg'.result 1 = some (.rotate "t0" 1000, .error .denied) ∧
    cfg'.result 2 = some (logout (some "t0"), .ok .nothing) ∧ Ended cfg'.store "f0" := by
  have hrun : after True atRest (signsIn 0 "t0" "f0") (fun cfg => (cfg.threads 2,
      cfg.store.families.map fun f => (f.familyId, f.currentTokenHash),
      ((driver id True checksHolder revokesHolder_of_checks).play cfg signsOutFirst).map
        fun cfg' => (cfg'.result 1, cfg'.result 2))) =
      some (none, [("f0", some "t0")], some (some (.rotate "t0" 1000, .error .denied),
        some (logout (some "t0"), .ok .nothing))) := rfl
  obtain ⟨cfg, hreach, hview⟩ := runs_of_after hrun
  obtain ⟨hfree, hview⟩ := Prod.mk.inj hview
  obtain ⟨hfamilies, hplay⟩ := Prod.mk.inj hview
  obtain ⟨cfg', hplay, hresults⟩ := Option.map_eq_some_iff.mp hplay
  obtain ⟨hrotated, hsigned⟩ := Prod.mk.inj hresults
  obtain ⟨f, hf, heq⟩ := List.map_eq_singleton_iff.mp hfamilies
  have hknown : KnownBy cfg.store "t0" "f0" :=
    .inl ⟨f, by rw [hf]; exact List.mem_singleton_self f, congrArg Prod.fst heq,
      congrArg Prod.snd heq⟩
  obtain ⟨th, hret, hcall⟩ := Config.returns_of_result hsigned
  have hruns := Driver.play_runs hplay
  exact ⟨cfg, cfg', hknown, hruns, hrotated, hsigned,
    signOut_ends Function.injective_id hreach hknown hfree hruns hret hcall⟩

/-- The sign-out runs between the swap and the end of the rotation: both succeed, and the
family is active under the token the rotation returned. -/
theorem signOut_not_ends : ∃ cfg cfg' : Run,
    (system id True).Reachable (Database.empty 0) cfg ∧ KnownBy cfg.store "t0" "f0" ∧
    cfg.threads 2 = none ∧ (system id True).Runs anyCall cfg cfg' ∧
    HasRotated cfg' "t0" 1 ⟨"f0", "web", .member, "m1", ["profile"], 0, "t1", 3600000⟩ ∧
    cfg'.result 2 = some (logout (some "t0"), .ok .nothing) ∧ ¬ Ended cfg'.store "f0" := by
  have hrun : after True atRest (signsIn 0 "t0" "f0") (fun cfg => (cfg.threads 2,
      cfg.store.families.map fun f => (f.familyId, f.currentTokenHash),
      after True cfg swapsFirst fun cfg' => (cfg'.result 1, cfg'.result 2,
        cfg'.store.families.map fun f => (f.familyId, f.status, f.currentTokenHash)))) =
      some (none, [("f0", some "t0")], some (some (.rotate "t0" 1000, .ok (.credentials
          ⟨"f0", "web", .member, "m1", ["profile"], 0, "t1", 3600000⟩)),
        some (logout (some "t0"), .ok .nothing), [("f0", .active, some "t1")])) := rfl
  obtain ⟨cfg, hreach, hview⟩ := runs_of_after hrun
  obtain ⟨hfree, hview⟩ := Prod.mk.inj hview
  obtain ⟨hfamilies, hafter⟩ := Prod.mk.inj hview
  obtain ⟨cfg', hrun', hview'⟩ := runs_of_after hafter
  obtain ⟨hrotated, hview'⟩ := Prod.mk.inj hview'
  obtain ⟨hsigned, hleft⟩ := Prod.mk.inj hview'
  obtain ⟨f, hf, heq⟩ := List.map_eq_singleton_iff.mp hfamilies
  obtain ⟨f', hf', heq'⟩ := List.map_eq_singleton_iff.mp hleft
  refine ⟨cfg, cfg', hreach, .inl ⟨f, by rw [hf]; exact List.mem_singleton_self f,
    congrArg Prod.fst heq, congrArg Prod.snd heq⟩, hfree, hrun', hasRotated_of_result hrotated,
    hsigned, fun hended => ?_⟩
  simp only [Prod.mk.injEq] at heq'
  obtain ⟨hid, hactive, -⟩ := heq'
  exact (hended f' (by rw [hf']; exact List.mem_singleton_self f') hid).1 hactive

end TokenSession
