import BookLibrary.TokenSession.Lineage

/-!
# Replay markers over a whole run

A marker, once prepared, stays until it expires; a committed marker stays
committed. With the lineage of the hashes this makes the contract of the service.
-/

namespace TokenSession

open Documents Interleaving

variable {ι : Type} [DecidableEq ι] {sha256 : String → String} {ttl : Prop} {s s' : Database}
  {J : List (Entry ι Call Event)} {i : ι} {c : Call} {evs : List Event}

/-- Every marker is still there, and committed if it was. -/
def MarkersKept (s s' : Database) : Prop :=
  ∀ m ∈ s.markers, ∃ m' ∈ s'.markers, m'.tokenHash = m.tokenHash ∧
    (m.status = .committed → m'.status = .committed)

theorem markersKept_of_subset (h : s.markers ⊆ s'.markers) : MarkersKept s s' :=
  fun m hm => ⟨m, h hm, rfl, id⟩

theorem RefreshTokenReplayMarker.isPending_iff {m : RefreshTokenReplayMarker} {hash op : String} :
    m.isPending hash op = true ↔
      m.tokenHash = hash ∧ m.status = .pending ∧ m.rotationOperationId = op := by
  simp [RefreshTokenReplayMarker.isPending, and_assoc]

theorem Change.markersKept {l : List Event} (h : Change sha256 c l s evs s') : MarkersKept s s' := by
  cases h with
  | insertMarker => exact markersKept_of_subset (List.subset_cons_self _ _)
  | takeOver update =>
    intro m hm
    rcases update.kept hm with hm | ⟨hp, rfl⟩
    · exact ⟨m, hm, rfl, id⟩
    · obtain ⟨-, -, -, -, hmem⟩ := update.source
      exact ⟨_, hmem, rfl, id⟩
  | commit update =>
    intro m hm
    rcases update.kept hm with hm | ⟨hp, rfl⟩
    · exact ⟨m, hm, rfl, id⟩
    · obtain ⟨-, -, -, -, hmem⟩ := update.source
      exact ⟨_, hmem, rfl, fun _ => rfl⟩
  | look | draw | openFamily | swap | revoke => exact markersKept_of_subset (List.Subset.refl _)

/-- The stored markers and the journal. -/
structure Markers (ttl : Prop) (s : Database) (J : List (Entry ι Call Event)) : Prop where
  covered : ∀ m ∈ s.markers, Covers J m
  prepared : ∀ i m, .prepared m ∈ own i J → Covers J m ∧
    (s.Retains ttl m.expiresAt → ∃ m' ∈ s.markers, m'.tokenHash = m.tokenHash)
  rotated : ∀ i hash f, .swapped hash f ∈ own i J → ∃ m, .prepared m ∈ own i J ∧ m.tokenHash = hash
  committed : ∀ i hash op m, .committed hash op (some m) ∈ own i J → m.tokenHash = hash ∧
    Covers J m ∧ (s.Retains ttl m.expiresAt →
      ∃ m' ∈ s.markers, m'.tokenHash = hash ∧ m'.status = .committed)
  final : ¬ ttl → ∀ i j hash op op' m m', .committed hash op (some m) ∈ own i J →
    .committed hash op' (some m') ∈ own j J → i = j

namespace Markers

theorem nil (hs : s.markers = []) : Markers ttl s ([] : List (Entry ι Call Event)) := by
  constructor <;> simp [hs]

/-- A step that keeps the markers, and whose own events are accounted for. -/
theorem step (h : Markers ttl s J) (hk : MarkersKept s s') (hclock : s'.clock = s.clock)
    (hcov : ∀ m ∈ s'.markers, Covers (record i c evs ++ J) m)
    (hprep : ∀ m, .prepared m ∈ evs → m ∈ s'.markers)
    (hrot : ∀ hash f, .swapped hash f ∈ evs → ∃ m, .prepared m ∈ own i J ∧ m.tokenHash = hash)
    (hcom : ∀ hash op m, .committed hash op (some m) ∈ evs → m ∈ s'.markers ∧
      m.tokenHash = hash ∧ m.status = .committed ∧ ∃ m₀ ∈ s.markers, m₀.tokenHash = hash ∧
        m₀.status = .pending) (hs : s.Indexed) :
    Markers ttl s' (record i c evs ++ J) := by
  have retains : ∀ {date}, s'.Retains ttl date → s.Retains ttl date :=
    fun hr ht => hclock ▸ hr ht
  -- a marker that was committed before is not the pending one of this step
  have settled : ∀ {j hash op op' m m'}, ¬ ttl → .committed hash op (some m) ∈ own j J →
      .committed hash op' (some m') ∈ evs → False := by
    intro j hash op op' m m' ht hm hm'
    obtain ⟨-, -, hstay⟩ := h.committed j hash op m hm
    obtain ⟨m₁, hm₁, hh₁, hc₁⟩ := hstay fun h => absurd h ht
    obtain ⟨-, -, -, m₀, hm₀, hh₀, hp₀⟩ := hcom hash op' m' hm'
    have heq := hs.tokenHash.eq hm₁ hm₀ (congrArg some hh₁) (congrArg some hh₀)
    rw [heq, hp₀] at hc₁
    cases hc₁
  constructor
  · exact hcov
  · intro j m hm
    rcases mem_own_record.mp hm with ⟨rfl, hnew⟩ | hold
    · exact ⟨hcov m (hprep m hnew), fun _ => ⟨m, hprep m hnew, rfl⟩⟩
    · obtain ⟨hc, hstay⟩ := h.prepared j m hold
      refine ⟨hc.record, fun hr => ?_⟩
      obtain ⟨m₁, hm₁, hh₁⟩ := hstay (retains hr)
      obtain ⟨m₂, hm₂, hh₂, -⟩ := hk m₁ hm₁
      exact ⟨m₂, hm₂, hh₂.trans hh₁⟩
  · intro j hash f hf
    rcases mem_own_record.mp hf with ⟨rfl, hnew⟩ | hold
    · obtain ⟨m, hm, hh⟩ := hrot hash f hnew
      exact ⟨m, mem_own_record.mpr (.inr hm), hh⟩
    · obtain ⟨m, hm, hh⟩ := h.rotated j hash f hold
      exact ⟨m, mem_own_record.mpr (.inr hm), hh⟩
  · intro j hash op m hm
    rcases mem_own_record.mp hm with ⟨rfl, hnew⟩ | hold
    · obtain ⟨hmem, hh, hc, -⟩ := hcom hash op m hnew
      exact ⟨hh, hcov m hmem, fun _ => ⟨m, hmem, hh, hc⟩⟩
    · obtain ⟨hh, hc, hstay⟩ := h.committed j hash op m hold
      refine ⟨hh, hc.record, fun hr => ?_⟩
      obtain ⟨m₁, hm₁, hh₁, hc₁⟩ := hstay (retains hr)
      obtain ⟨m₂, hm₂, hh₂, hc₂⟩ := hk m₁ hm₁
      exact ⟨m₂, hm₂, hh₂.trans hh₁, hc₂ hc₁⟩
  · intro ht j k hash op op' m m' hm hm'
    rcases mem_own_record.mp hm with ⟨rfl, hnew⟩ | hold
    · rcases mem_own_record.mp hm' with ⟨rfl, -⟩ | hold'
      · rfl
      · exact (settled ht hold' hnew).elim
    · rcases mem_own_record.mp hm' with ⟨rfl, hnew'⟩ | hold'
      · exact (settled ht hold hnew').elim
      · exact h.final ht j k hash op op' m m' hold hold'

theorem change (h : Markers ttl s J) (hs : s.Indexed)
    (hseen : ∀ hash f, .current hash (some f) ∈ own i J →
      Issued J f ∧ f.currentTokenHash = some hash)
    (hch : Change sha256 c (own i J) s evs s') : Markers ttl s' (record i c evs ++ J) := by
  have hk := hch.markersKept
  have hclock := hch.clock
  cases hch with
  | look _ saw =>
    refine h.step hk hclock (fun m hm => (h.covered m hm).record) (fun m hm => (saw _ hm).elim)
      (fun hash f hf => (saw _ hf).elim) (fun hash op m hm => ?_) hs
    cases saw _ hm
  | insertMarker may =>
    refine h.step hk hclock (fun m' hm' => ?_) (fun m' hm' => ?_) (by simp) (by simp) hs
    · cases c with
      | rotate token now =>
        rcases List.mem_cons.mp hm' with rfl | hm'
        · obtain ⟨hh, f, hf, hid, hexp⟩ := may
          obtain ⟨hi, hcur⟩ := hseen _ f hf
          exact ⟨f, hi.record, hcur, hid, hexp⟩
        · exact (h.covered m' hm').record
      | _ => exact may.elim
    · cases List.mem_singleton.mp hm'
      exact List.mem_cons_self
  | takeOver update =>
    obtain ⟨m₀, hm₀, -, rfl, hmem⟩ := update.source
    refine h.step hk hclock (fun m' hm' => ?_) (fun m' hm' => ?_) (by simp) (by simp) hs
    · rcases update.mem hm' with hm' | rfl
      · exact (h.covered m' hm').record
      · exact (h.covered m₀ hm₀).record
    · cases List.mem_singleton.mp hm'
      exact hmem
  | commit update =>
    obtain ⟨m₀, hm₀, hp, rfl, hmem⟩ := update.source
    obtain ⟨hh, hpend, -⟩ := RefreshTokenReplayMarker.isPending_iff.mp hp
    refine h.step hk hclock (fun m' hm' => ?_) (by simp) (by simp) (fun hash op m hm => ?_) hs
    · rcases update.mem hm' with hm' | rfl
      · exact (h.covered m' hm').record
      · exact (h.covered m₀ hm₀).record
    · cases List.mem_singleton.mp hm
      exact ⟨hmem, hh, rfl, m₀, hm₀, hh, hpend⟩
  | swap may update =>
    refine h.step hk hclock (fun m hm => (h.covered m hm).record) (by simp) (fun hash f hf => ?_)
      (by simp) hs
    cases List.mem_singleton.mp hf
    cases c with
    | rotate token now =>
      obtain ⟨-, -, -, -, ⟨m, hm, hh, -⟩, -⟩ := may
      exact ⟨m, hm, hh⟩
    | _ => exact may.elim
  | draw | openFamily | revoke =>
    exact h.step hk hclock (fun m hm => (h.covered m hm).record) (by simp) (by simp) (by simp) hs

theorem elapse (h : Markers ttl s J) (hc : Chronicle sha256 s J)
    (hsha : Function.Injective sha256) (he : s.Elapse ttl s') : Markers ttl s' J := by
  -- a stored marker expires with every other marker of its hash
  have stays : ∀ {m m'}, Covers J m → m' ∈ s.markers → m'.tokenHash = m.tokenHash →
      s'.Retains ttl m.expiresAt → m' ∈ s'.markers := by
    intro m m' hm hm' hh hr
    obtain ⟨-, hexp⟩ := Covers.agree hc hsha (h.covered m' hm') hm hh
    exact he.marker hm' (hexp ▸ hr)
  constructor
  · exact fun m hm => h.covered m (he.markers.1.subset hm)
  · intro i m hm
    obtain ⟨hcov, hstay⟩ := h.prepared i m hm
    refine ⟨hcov, fun hr => ?_⟩
    obtain ⟨m', hm', hh⟩ := hstay (he.retains hr)
    exact ⟨m', stays hcov hm' hh hr, hh⟩
  · exact h.rotated
  · intro i hash op m hm
    obtain ⟨hh, hcov, hstay⟩ := h.committed i hash op m hm
    refine ⟨hh, hcov, fun hr => ?_⟩
    obtain ⟨m', hm', hh', hc'⟩ := hstay (he.retains hr)
    exact ⟨m', stays hcov hm' (hh'.trans hh.symm) hr, hh', hc'⟩
  · exact h.final

end Markers

/-- What callers have seen is accounted for. -/
structure Sightings (J : List (Entry ι Call Event)) : Prop where
  found : ∀ i hash m, .found hash (some m) ∈ own i J → Covers J m
  batch : ∀ i ms, .batch ms ∈ own i J → ∀ m ∈ ms, Covers J m
  current : ∀ i hash f, .current hash (some f) ∈ own i J →
    Issued J f ∧ f.currentTokenHash = some hash

namespace Sightings

theorem nil : Sightings ([] : List (Entry ι Call Event)) := by
  constructor <;> simp

theorem known (h : Sightings J) {id : String} (hn : Names (own i J) id) : Known J id := by
  obtain ⟨ev, hev, hid⟩ := hn
  cases ev with
  | found hash m =>
    cases m with
    | none => exact hid.elim
    | some m => exact hid ▸ (h.found i hash m hev).known
  | current hash f =>
    cases f with
    | none => exact hid.elim
    | some f => exact ⟨f, (h.current i hash f hev).1, hid⟩
  | batch ms =>
    obtain ⟨m, hm, rfl⟩ := hid
    exact (h.batch i ms hev m hm).known
  | _ => exact hid.elim

theorem change (h : Sightings J) (hm : Markers ttl s J) (hl : Ledger s J)
    (hch : Change sha256 c (own i J) s evs s') : Sightings (record i c evs ++ J) := by
  have saw : ∀ {ev}, ev ∈ evs → (∃ hash m, ev = .found hash (some m)) ∨ (∃ ms, ev = .batch ms) ∨
      (∃ hash f, ev = .current hash (some f)) → ev.Saw (own i J) s := by
    intro ev hev hkind
    cases hch with
    | look _ saw => exact saw ev hev
    | _ =>
      cases List.mem_singleton.mp hev
      rcases hkind with ⟨_, _, h⟩ | ⟨_, h⟩ | ⟨_, _, h⟩ <;> cases h
  constructor
  · intro j hash m hev
    rcases mem_own_record.mp hev with ⟨-, hnew⟩ | hold
    · have hf := saw hnew (.inl ⟨_, _, rfl⟩)
      exact (hm.covered m hf.2.mem).record
    · exact (h.found j hash m hold).record
  · intro j ms hev m hmem
    rcases mem_own_record.mp hev with ⟨-, hnew⟩ | hold
    · have hf := saw hnew (.inr (.inl ⟨_, rfl⟩))
      exact (hm.covered m (hf m hmem)).record
    · exact (h.batch j ms hold m hmem).record
  · intro j hash f hev
    rcases mem_own_record.mp hev with ⟨-, hnew⟩ | hold
    · obtain ⟨hf, hcur, hact⟩ := saw hnew (.inr (.inr ⟨_, _, rfl⟩)) f rfl
      exact ⟨(hl.active f hf hact).record, hcur⟩
    · obtain ⟨hi, hcur⟩ := h.current j hash f hold
      exact ⟨hi.record, hcur⟩

end Sightings

/-- Families that a caller has seen gone or inactive, or that a rotation has revoked. -/
structure Closures (s : Database) (J : List (Entry ι Call Event)) : Prop where
  read : ∀ i id r, .read id r ∈ own i J → (∀ f, r = some f → f.status ≠ .active) → Closed s J id
  revoked : ∀ i token now id n, ⟨i, .rotate token now, .revoked (.familyId id) n⟩ ∈ J → Closed s J id

namespace Closures

theorem nil : Closures s ([] : List (Entry ι Call Event)) := by
  constructor <;> simp

theorem shrink (h : Closures s J) (hs : s'.families ⊆ s.families) : Closures s' J where
  read i id r hr hf := (h.read i id r hr hf).shrink hs
  revoked i token now id n hm := (h.revoked i token now id n hm).shrink hs

theorem change (h : Closures s J) (hc : Chronicle sha256 s J) (hg : Sightings J) (hs : s.Indexed)
    (hch : Change sha256 c (own i J) s evs s') : Closures s' (record i c evs ++ J) := by
  have keep : ∀ {id}, Closed s J id → Closed s' (record i c evs ++ J) id := fun h => h.change hc hch
  constructor
  · intro j id r hr hf
    rcases mem_own_record.mp hr with ⟨-, hnew⟩ | hold
    · cases hch with
      | look _ saw =>
        obtain ⟨hn, hfind⟩ := saw _ hnew
        refine ⟨(hg.known hn).record, fun f hmem hid => ?_⟩
        cases r with
        | none => exact absurd hid (of_decide_eq_false (hfind f hmem))
        | some f' =>
          have hid' : f'.familyId = id := of_decide_eq_true hfind.select
          have heq := hs.familyId.eq hmem hfind.mem (congrArg some hid) (congrArg some hid')
          exact heq ▸ hf f' rfl
      | _ => cases List.mem_singleton.mp hnew
    · exact keep (h.read j id r hold hf)
  · intro j token now id n hm
    rcases List.mem_append.mp hm with hnew | hold
    · obtain ⟨rfl, rfl, hev⟩ := mem_record.mp hnew
      cases hch with
      | look _ saw => exact (saw _ hev).elim
      | revoke inactive may =>
        cases List.mem_singleton.mp hev
        obtain ⟨id', hid', hn, -⟩ := may
        cases hid'
        refine ⟨(hg.known hn).record, fun f hf hid => ?_⟩
        rcases mem_updateMany.mp hf with ⟨-, hsel⟩ | ⟨f₀, -, -, rfl⟩
        · intro ha
          simp [RevocationFilter.selects, ha, hid] at hsel
        · exact inactive
      | _ => cases List.mem_singleton.mp hev
    · exact keep (h.revoked j token now id n hold)

end Closures

/-- The invariant of the token session service. -/
structure Lineage (sha256 : String → String) (ttl : Prop) (s : Database)
    (J : List (Entry ι Call Event)) : Prop where
  indexed : s.Indexed
  chronicle : Chronicle sha256 s J
  ledger : Ledger s J
  markers : Markers ttl s J
  sightings : Sightings J
  closures : Closures s J

namespace Lineage

theorem empty (clock : Date) :
    Lineage sha256 ttl (Database.empty clock) ([] : List (Entry ι Call Event)) where
  indexed := by constructor <;> exact List.nodup_nil
  chronicle := .nil
  ledger := .nil rfl
  markers := .nil rfl
  sightings := .nil
  closures := .nil

theorem change (h : Lineage sha256 ttl s J) (hsha : Function.Injective sha256) (hs : s'.Indexed)
    (hch : Change sha256 c (own i J) s evs s') : Lineage sha256 ttl s' (record i c evs ++ J) where
  indexed := hs
  chronicle := h.chronicle.change h.ledger hch
  ledger := h.ledger.change h.chronicle hsha h.indexed hch
  markers := h.markers.change h.indexed (h.sightings.current i) hch
  sightings := h.sightings.change h.markers h.ledger hch
  closures := h.closures.change h.chronicle h.sightings h.indexed hch

theorem elapse (h : Lineage sha256 ttl s J) (hsha : Function.Injective sha256)
    (he : s.Elapse ttl s') : Lineage sha256 ttl s' J where
  indexed := he.indexed h.indexed
  chronicle := h.chronicle.redraw he.drawn
  ledger := h.ledger.shrink he.families.1.subset
  markers := h.markers.elapse h.chronicle hsha he
  sightings := h.sightings
  closures := h.closures.shrink he.families.1.subset

end Lineage

/-- What the service keeps in every run. -/
def lineage (ι : Type) [DecidableEq ι] (ttl : Prop) (hsha : Function.Injective sha256) :
    Contract ι (system sha256 ttl) where
  inv := Lineage sha256 ttl
  legal := conduct sha256
  post := verdict sha256
  inv_call h _ hl ha := h.change hsha (indexed_of_applies h.indexed ha) (change_of_applies hl ha)
  inv_env h he := h.elapse hsha he
  conforms := body_walks

theorem change_of_legal {hsha : Function.Injective sha256} {faulted : Bool} {l : List Event}
    {β : Type} {op : Op β} {r : Option β} (hl : (lineage ι ttl hsha).legal c faulted l β op)
    (h : (system sha256 ttl).Applies op s r s') : Change sha256 c l s (note β op r) s' := by
  have hl' : conduct sha256 c faulted l β op := hl
  exact change_of_applies hl' h

theorem wellFormed_of_reachable (ttl : Prop) (hsha : Function.Injective sha256) {clock : Date}
    {cfg : Config ι Call Op Database Reply Event}
    (h : (system sha256 ttl).Reachable (Database.empty clock) cfg) :
    WellFormed (lineage ι ttl hsha) cfg :=
  (WellFormed.init (Lineage.empty clock)).runs h

end TokenSession
