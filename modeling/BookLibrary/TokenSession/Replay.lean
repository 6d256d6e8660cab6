import BookLibrary.TokenSession.Rotation

/-!
# Replay of any generation is detected

Every hash a family was rotated away from keeps a marker until the family expires.
The marker leads back to the family, and a rotation that finds it committed closes
the family.
-/

namespace TokenSession

open Documents Interleaving

variable {ι : Type} [DecidableEq ι] {sha256 : String → String} {ttl : Prop} {clock : Date}
  {cfg cfg' : Config ι Call Op Database Reply Event} {s s' : Database}
  {J : List (Entry ι Call Event)} {i j : ι} {hash : String} {f : RefreshTokenFamily}

namespace Lineage

/-- A marker of a replaced hash is a marker of the family that was rotated. -/
theorem marker_of_swapped (h : Lineage sha256 ttl s J) (hsha : Function.Injective sha256)
    (hf : .swapped hash f ∈ own i J) {m : RefreshTokenReplayMarker} (hm : Covers J m)
    (hh : m.tokenHash = hash) : m.familyId = f.familyId ∧ m.expiresAt = f.expiresAt := by
  obtain ⟨g, hg, hgh, hgid, hgexp⟩ := hm
  obtain ⟨g', hg', hgh', hgid'⟩ := h.ledger.chain i hash f hf
  obtain rfl := h.chronicle.issued_eq hsha hg hg' (by rw [hgh, hgh', hh])
  have hissued : Issued J f := ⟨i, _, hf, rfl⟩
  have hexp := h.chronicle.expiresAt_eq hg hissued hgid'
  exact ⟨hgid.symm.trans hgid', hgexp.symm.trans hexp⟩

/-- A replaced hash has a marker until the family expires. -/
theorem replay_marker (h : Lineage sha256 ttl s J) (hsha : Function.Injective sha256)
    (hf : .swapped hash f ∈ own i J) (hr : s.Retains ttl f.expiresAt) :
    ∃ m ∈ s.markers, m.tokenHash = hash ∧ m.familyId = f.familyId := by
  obtain ⟨m, hm, hh⟩ := h.markers.rotated i hash f hf
  obtain ⟨hcov, hstay⟩ := h.markers.prepared i m hm
  obtain ⟨-, hexp⟩ := h.marker_of_swapped hsha hf hcov hh
  obtain ⟨m', hm', hh'⟩ := hstay (hexp ▸ hr)
  have hid := h.marker_of_swapped hsha hf (h.markers.covered m' hm') (hh'.trans hh)
  exact ⟨m', hm', hh'.trans hh, hid.1⟩

/-- What a look at the marker of a replaced hash shows. -/
theorem find_replayed (h : Lineage sha256 ttl s J) (hsha : Function.Injective sha256)
    (hf : .swapped hash f ∈ own i J) (hr : s.Retains ttl f.expiresAt)
    {r : Option RefreshTokenReplayMarker}
    (hfind : FindOne (fun m => decide (m.tokenHash = hash)) s.markers r) :
    ∃ m, r = some m ∧ m.familyId = f.familyId ∧
      ∀ op m', .committed hash op (some m') ∈ own i J → m.status = .committed := by
  obtain ⟨m, hm, hh, hid⟩ := h.replay_marker hsha hf hr
  cases r with
  | none => exact absurd hh (of_decide_eq_false (hfind m hm))
  | some m₁ =>
    have hh₁ : m₁.tokenHash = hash := of_decide_eq_true hfind.select
    obtain rfl := h.indexed.tokenHash.eq hm hfind.mem (congrArg some hh) (congrArg some hh₁)
    refine ⟨m, rfl, hid, fun op m' hm' => ?_⟩
    obtain ⟨hh', hcov, hstay⟩ := h.markers.committed i hash op m' hm'
    obtain ⟨-, hexp⟩ := h.marker_of_swapped hsha hf hcov hh'
    obtain ⟨m₂, hm₂, hh₂, hc₂⟩ := hstay (hexp ▸ hr)
    obtain rfl := h.indexed.tokenHash.eq hm hm₂ (congrArg some hh) (congrArg some hh₂)
    exact hc₂

/-- A token whose hash was replaced was drawn, and so was its family's id. -/
theorem nonempty_of_swapped (h : Lineage sha256 ttl s J) (hsha : Function.Injective sha256)
    {token : String} (hf : .swapped (sha256 token) f ∈ own i J) : token ≠ "" ∧ f.familyId ≠ "" := by
  obtain ⟨g, ⟨j, ev, hev, hg⟩, hgh, -⟩ := h.ledger.chain i _ f hf
  obtain ⟨-, token', ht', hc'⟩ := h.chronicle.issuer j ev hev g hg
  have htoken : token' = token := hsha (Option.some.inj (hc'.symm.trans hgh))
  obtain ⟨k, o, ho, hid, -⟩ := h.chronicle.kin f ⟨i, _, hf, rfl⟩
  have hdrew := h.chronicle.opener k o ho
  exact ⟨htoken ▸ (h.chronicle.known j token' ht').1, hid ▸ (h.chronicle.known k _ hdrew).1⟩

end Lineage

/-- What caller `j` has seen of a hash that caller `i` replaced, and had committed
the marker of if `sealed`. -/
structure SeenReplaced (ttl sealed : Prop) (hash : String) (f : RefreshTokenFamily) (i j : ι)
    (s : Database) (J : List (Entry ι Call Event)) : Prop where
  swapped : .swapped hash f ∈ own i J
  committed : sealed → ∃ op m, .committed hash op (some m) ∈ own i J
  found : ∀ r, .found hash r ∈ own j J → s.Retains ttl f.expiresAt → ∃ m, r = some m ∧
    m.familyId = f.familyId ∧ (sealed → m.status = .committed)
  gone : ∀ g, .resolved hash (some g) ∉ own j J

namespace SeenReplaced

variable {sealed : Prop}

theorem change (h : SeenReplaced ttl sealed hash f i j s J) (hl : Lineage sha256 ttl s J)
    (hsha : Function.Injective sha256) {k : ι} {c : Call} {evs : List Event}
    (hch : Change sha256 c (own k J) s evs s') :
    SeenReplaced ttl sealed hash f i j s' (record k c evs ++ J) := by
  have keep : ∀ {k' ev}, ev ∈ own k' J → ev ∈ own k' (record k c evs ++ J) :=
    fun hev => mem_own_record.mpr (.inr hev)
  have retains : s'.Retains ttl f.expiresAt → s.Retains ttl f.expiresAt :=
    fun hr ht => hch.clock ▸ hr ht
  constructor
  · exact keep h.swapped
  · intro hs
    obtain ⟨op, m, hm⟩ := h.committed hs
    exact ⟨op, m, keep hm⟩
  · intro r hr hret
    rcases mem_own_record.mp hr with ⟨-, hnew⟩ | hold
    · cases hch with
      | look _ saw =>
        obtain ⟨m, rfl, hid, hc⟩ := hl.find_replayed hsha h.swapped hret (saw _ hnew).2
        refine ⟨m, rfl, hid, fun hs => ?_⟩
        obtain ⟨op, m', hm'⟩ := h.committed hs
        exact hc op m' hm'
      | _ => cases List.mem_singleton.mp hnew
    · exact h.found r hold (retains hret)
  · intro g hg
    rcases mem_own_record.mp hg with ⟨-, hnew⟩ | hold
    · cases hch with
      | look _ saw =>
        have hfind : FindOne (fun f => decide (f.currentTokenHash = some hash)) s.families (some g) :=
          saw _ hnew
        exact hl.ledger.spent i hash f h.swapped g hfind.mem (of_decide_eq_true hfind.select)
      | _ => cases List.mem_singleton.mp hnew
    · exact h.gone g hold

theorem elapse (h : SeenReplaced ttl sealed hash f i j s J) (he : s.Elapse ttl s') :
    SeenReplaced ttl sealed hash f i j s' J where
  swapped := h.swapped
  committed := h.committed
  found r hr hret := h.found r hr (he.retains hret)
  gone := h.gone

/-- A caller that starts after the hash was replaced. -/
theorem runs (hsha : Function.Injective sha256) (w : WellFormed (lineage ι ttl hsha) cfg)
    (hf : .swapped hash f ∈ own i cfg.journal) (free : cfg.threads j = none)
    (hs : sealed → ∃ op m, .committed hash op (some m) ∈ own i cfg.journal)
    (h : (system sha256 ttl).Runs anyCall cfg cfg') :
    SeenReplaced ttl sealed hash f i j cfg'.store cfg'.journal := by
  have hnil := w.own_eq_nil free
  refine WellFormed.runs_induct (fun hinv hp _ hl _ ha => ?_) (fun _ hp he => ?_) w h ?_
  · exact hp.change hinv hsha (change_of_legal hl ha)
  · exact hp.elapse he
  · exact ⟨hf, hs, fun r hr => by simp [hnil] at hr, fun g => by simp [hnil]⟩

end SeenReplaced

/-- The family is not active and holds no hash. -/
def Ended (s : Database) (id : String) : Prop :=
  ∀ f ∈ s.families, f.familyId = id → f.status ≠ .active ∧ f.currentTokenHash = none

/-- Every replaced hash has a replay marker of its family, `resolveFamilyId` leads
from it to the family, and whoever presents it after a rotation of it has returned
is denied and ends the family: all this until the family expires. -/
theorem replay_detected (hsha : Function.Injective sha256)
    (h : (system sha256 ttl).Reachable (Database.empty clock) cfg) (token : String) :
    (∀ i f, .swapped (sha256 token) f ∈ own i cfg.journal →
      cfg.store.Retains ttl f.expiresAt →
      ∃ m ∈ cfg.store.markers, m.tokenHash = sha256 token ∧ m.familyId = f.familyId) ∧
    (∀ i f, .swapped (sha256 token) f ∈ own i cfg.journal →
      ∀ cfg' j th reply, cfg.threads j = none → (system sha256 ttl).Runs anyCall cfg cfg' →
      cfg'.Returns j th reply → th.call = .resolveFamilyId (some token) → th.faulted = false →
      cfg'.store.Retains ttl f.expiresAt → reply = .ok (.family (some f.familyId))) ∧
    ∀ i r, HasRotated cfg token i r →
      ∀ cfg' j th now reply, cfg.threads j = none → (system sha256 ttl).Runs anyCall cfg cfg' →
      cfg'.Returns j th reply → th.call = .rotate token now → th.faulted = false →
      cfg'.store.Retains ttl r.expiresAt →
      reply = .error .denied ∧ Ended cfg'.store r.familyId := by
  have w := wellFormed_of_reachable ttl hsha h
  refine ⟨fun i f hf hr => w.inv.replay_marker hsha hf hr, ?_, ?_⟩
  · intro i f hf cfg' j th reply free hrun hret hcall hfl hexp
    have w' := w.runs hrun
    obtain ⟨hne, hidne⟩ := w.inv.nonempty_of_swapped hsha hf
    have hseen : SeenReplaced ttl False (sha256 token) f i j cfg'.store cfg'.journal :=
      SeenReplaced.runs hsha w hf free nofun hrun
    have hpost := w'.post_of_returns hret
    rw [hcall, hfl] at hpost
    obtain ⟨id, rfl, hres⟩ := hpost rfl
    rcases hres token rfl hne with ⟨g, hg, -⟩ | ⟨-, m, hm, rfl⟩
    · exact absurd hg (hseen.gone g)
    · obtain ⟨m', rfl, hid, -⟩ := hseen.found m hm hexp
      rw [Option.map_some, hid]
  · intro i r hrot cfg' j th now reply free hrun hret hcall hfl hexp
    have w' := w.runs hrun
    obtain ⟨f, m, m', -, -, -, hf, -, -, -, hcom, -, hr⟩ := rotated_of_hasRotated w hrot
    have hidr : r.familyId = f.familyId := by rw [hr]; rfl
    have hexpr : r.expiresAt = f.expiresAt := by rw [hr]; rfl
    obtain ⟨hne, -⟩ := w.inv.nonempty_of_swapped hsha hf
    have hseen : SeenReplaced ttl True (sha256 token) f i j cfg'.store cfg'.journal :=
      SeenReplaced.runs hsha w hf free (fun _ => ⟨_, _, hcom⟩) hrun
    have hpost := w'.post_of_returns hret
    rw [hcall, hfl] at hpost
    cases reply with
    | ok a =>
      -- two rotations of one token would have returned
      obtain ⟨r', rfl, -⟩ := hpost
      obtain ⟨th₀, now₀, hret₀, hcall₀⟩ := hrot
      obtain rfl := rotate_single w' ⟨th₀, now₀, hrun.returns hret₀, hcall₀⟩ ⟨th, now, hret, hcall⟩
      rw [hret₀.1] at free
      cases free
    | error e =>
      obtain ⟨rfl, hasked, hrevoked⟩ := hpost rfl
      refine ⟨rfl, fun g hg hgid => ?_⟩
      obtain ⟨m₁, hm₁⟩ := hasked hne
      obtain ⟨m₂, rfl, hid, hc⟩ := hseen.found m₁ hm₁ (hexpr ▸ hexp)
      obtain ⟨n, hn⟩ := hrevoked _ m₂ hm₁ (hc trivial)
      obtain ⟨call, hentry⟩ := mem_own.mp hn
      have hcalleq : call = .rotate token now := (w'.call_eq hret.1 _ hentry rfl).trans hcall
      subst hcalleq
      have hclosed := w'.inv.closures.revoked j token now _ n hentry
      have hinactive := hclosed.2 g hg (hgid.trans (hidr.trans hid.symm))
      exact ⟨hinactive, w'.inv.ledger.inactive g hg hinactive⟩

/-- Caller `i` presents a token that has been rotated. -/
def replays (i : ℕ) (token : String) (now : Date) : Schedule :=
  [.start i (.rotate token now), go i, reads i now, go i]

theorem replay_detected_run : ∃ cfg cfg' : Run,
    HasRotated cfg "t0" 1 ⟨"f0", "web", .member, "m1", ["profile"], 0, "t1", 3600000⟩ ∧
    (system id True).Runs anyCall cfg cfg' ∧
    cfg'.result 2 = some (.rotate "t0" 2000, .error .denied) ∧ Ended cfg'.store "f0" := by
  have hrun : after True atRest (signsIn 0 "t0" "f0" ++ rotates 1 "t0" 1000 "o1" "t1")
      (fun cfg => (cfg.result 1, cfg.threads 2,
        after True cfg (replays 2 "t0" 2000) fun cfg' => (cfg'.threads 2, cfg'.store.clock))) =
      some (some (.rotate "t0" 1000, .ok (.credentials
        ⟨"f0", "web", .member, "m1", ["profile"], 0, "t1", 3600000⟩)), none,
        some (some ⟨.rotate "t0" 2000, some (.done (.error .denied)), false⟩, 0)) := rfl
  obtain ⟨cfg, hreach, hview⟩ := runs_of_after hrun
  obtain ⟨hres, hview⟩ := Prod.mk.inj hview
  obtain ⟨hfree, hafter⟩ := Prod.mk.inj hview
  obtain ⟨cfg', hrun', hview'⟩ := runs_of_after hafter
  obtain ⟨hth, hclock⟩ := Prod.mk.inj hview'
  have hone := hasRotated_of_result hres
  have hret : cfg'.Returns 2 ⟨.rotate "t0" 2000, some (.done (.error .denied)), false⟩
      (.error .denied) := ⟨hth, rfl⟩
  have hfar : cfg'.store.Retains True 3600000 := fun _ => by rw [hclock]; decide
  have hended := (replay_detected Function.injective_id hreach "t0").2.2 1 _ hone cfg' 2 _ 2000 _
    hfree hrun' hret rfl rfl hfar
  exact ⟨cfg, cfg', hone, hrun', by simp only [Config.result, hth], hended.2⟩

end TokenSession
