import BookLibrary.TokenSession.Conduct

/-!
# What one call can do

The effect of a call that its method may issue, together with the event it leaves.
Invariants are derived from `Change` and never unfold `effect`.
-/

namespace TokenSession

open Documents Interleaving

/-- The event tells what a call has seen in the database, which it left alone. -/
def Event.Saw (l : List Event) (s : Database) : Event → Prop
  | .found hash m => (∀ ev ∈ l, ev.Asks) ∧
      FindOne (fun m => decide (m.tokenHash = hash)) s.markers m
  | .current hash f => ∀ g, f = some g →
      g ∈ s.families ∧ g.currentTokenHash = some hash ∧ g.status = .active
  | .read id f => Names l id ∧ FindOne (fun f => decide (f.familyId = id)) s.families f
  | .resolved hash f => FindOne (fun f => decide (f.currentTokenHash = some hash)) s.families f
  | .batch ms => ∀ m ∈ ms, m ∈ s.markers
  | .committed _ _ m => m = none
  | .uncommitted _ _ => True
  | _ => False

/-- What a call of method `call` can do to the database after the events `l`. -/
inductive Change (sha256 : String → String) (call : Call) (l : List Event) (s : Database) :
    List Event → Database → Prop
  | look {evs} (single : evs.length ≤ 1) (saw : ∀ ev ∈ evs, ev.Saw l s) :
      Change sha256 call l s evs s
  | draw {x} (nonempty : x ≠ "") (fresh : x ∉ s.drawn) :
      Change sha256 call l s [.drew x] { s with drawn := x :: s.drawn }
  | openFamily {f} (may : MayOpen sha256 call l f) :
      Change sha256 call l s [.opened f] (s.insertFamily f)
  | insertMarker {m} (may : MayInsert sha256 call l m) :
      Change sha256 call l s [.prepared m] (s.insertMarker m)
  | takeOver {hash id now op lease m markers}
      (update : UpdateOne (fun m => m.isPending hash id && m.leaseExpired now)
        (RefreshTokenReplayMarker.takeOver op lease) s.markers (some m) markers) :
      Change sha256 call l s [.prepared m] { s with markers := markers }
  | swap {id hash now next op f families} (may : MaySwap sha256 call l id hash next op)
      (update : UpdateOne (fun f => decide (f.familyId = id) && f.isCurrent hash now)
        (RefreshTokenFamily.swap now next op) s.families (some f) families) :
      Change sha256 call l s [.swapped hash f] { s with families := families }
  | commit {hash op date m markers}
      (update : UpdateOne (RefreshTokenReplayMarker.isPending hash op)
        (RefreshTokenReplayMarker.commit date) s.markers (some m) markers) :
      Change sha256 call l s [.committed hash op (some m)] { s with markers := markers }
  | revoke {filter status reason date} (inactive : status ≠ .active)
      (may : MayRevoke call l filter) :
      Change sha256 call l s [.revoked filter (s.families.countP filter.selects)]
        { s with
          families := updateMany filter.selects (revocationUpdate status reason date) s.families }

variable {sha256 : String → String} {ttl : Prop} {s s' : Database} {β : Type} {op : Op β}
  {r : Option β} {c : Call} {faulted : Bool} {l : List Event}

theorem RefreshTokenFamily.isCurrent_iff {f : RefreshTokenFamily} {hash : String} {now : Date} :
    f.isCurrent hash now = true ↔
      f.currentTokenHash = some hash ∧ f.status = .active ∧ now < f.expiresAt := by
  simp [RefreshTokenFamily.isCurrent, and_assoc]

/-- A call that threw unapplied. -/
theorem change_none (h : (system sha256 ttl).Applies op s none s') :
    Change sha256 c l s (note β op none) s' := by
  rw [h.2]
  refine .look (by cases op <;> simp [note]) fun ev hev => ?_
  cases op <;> simp [note] at hev
  subst hev
  trivial

theorem change_some {b : β} (hl : conduct sha256 c faulted l β op)
    (h : effect β op s b s') : Change sha256 c l s (note β op (some b)) s' := by
  cases op with
  | randomToken =>
    obtain ⟨hne, hf, rfl⟩ := h
    exact .draw hne hf
  | randomUUID =>
    obtain ⟨hne, hf, rfl⟩ := h
    exact .draw hne hf
  | currentDate =>
    cases h
    exact .look (Nat.zero_le 1) fun ev hev => absurd hev List.not_mem_nil
  | insertFamily f =>
    cases h
    exact .openFamily hl
  | insertMarker m =>
    cases b with
    | inserted =>
      obtain ⟨-, rfl⟩ := h
      exact .insertMarker hl
    | duplicateKey =>
      obtain ⟨-, rfl⟩ := h
      exact .look (Nat.zero_le 1) fun ev hev => absurd hev List.not_mem_nil
  | findMarker hash =>
    obtain ⟨hfind, rfl⟩ := h
    exact .look le_rfl fun ev hev => by cases List.mem_singleton.mp hev; exact ⟨hl, hfind⟩
  | findCurrentFamily hash now =>
    obtain ⟨hfind, rfl⟩ := h
    refine .look le_rfl fun ev hev => ?_
    cases List.mem_singleton.mp hev
    rintro g rfl
    obtain ⟨hcur, hact, -⟩ := RefreshTokenFamily.isCurrent_iff.mp hfind.select
    exact ⟨hfind.mem, hcur, hact⟩
  | findFamily id =>
    obtain ⟨hfind, rfl⟩ := h
    exact .look le_rfl fun ev hev => by cases List.mem_singleton.mp hev; exact ⟨hl, hfind⟩
  | findFamilyByHash hash =>
    obtain ⟨hfind, rfl⟩ := h
    exact .look le_rfl fun ev hev => by cases List.mem_singleton.mp hev; exact hfind
  | findExpiredPending now =>
    obtain ⟨hfind, rfl⟩ := h
    refine .look le_rfl fun ev hev => ?_
    cases List.mem_singleton.mp hev
    exact fun m hm => (hfind.mem hm).1
  | takeOverMarker hash id now op lease =>
    obtain ⟨ms, hu, rfl⟩ := h
    cases b with
    | none =>
      obtain ⟨-, rfl⟩ := hu
      exact .look (Nat.zero_le 1) fun ev hev => absurd hev List.not_mem_nil
    | some m => exact .takeOver hu
  | swapFamily id hash now next op =>
    obtain ⟨fs, hu, rfl⟩ := h
    cases b with
    | none =>
      obtain ⟨-, rfl⟩ := hu
      exact .look (Nat.zero_le 1) fun ev hev => absurd hev List.not_mem_nil
    | some f => exact .swap hl hu
  | commitMarker hash op date =>
    obtain ⟨ms, hu, rfl⟩ := h
    cases b with
    | none =>
      obtain ⟨-, rfl⟩ := hu
      exact .look le_rfl fun ev hev => by cases List.mem_singleton.mp hev; rfl
    | some m => exact .commit hu
  | revokeFamilies filter status reason date =>
    obtain ⟨rfl, rfl⟩ := h
    exact .revoke hl.1 hl.2

theorem change_of_applies (hl : conduct sha256 c faulted l β op)
    (h : (system sha256 ttl).Applies op s r s') : Change sha256 c l s (note β op r) s' := by
  cases r with
  | none => exact change_none h
  | some b => exact change_some hl h.1

theorem indexed_of_applies (hs : s.Indexed) (h : (system sha256 ttl).Applies op s r s') :
    s'.Indexed := by
  cases r with
  | none => exact h.2 ▸ hs
  | some b => exact h.2

namespace Change

variable {evs : List Event}

theorem clock (h : Change sha256 c l s evs s') : s'.clock = s.clock := by
  cases h <;> rfl

theorem drawn (h : Change sha256 c l s evs s') : s.drawn ⊆ s'.drawn := by
  cases h with
  | draw => exact List.subset_cons_self _ _
  | _ => exact List.Subset.refl _

end Change

theorem Event.Saw.issued {ev : Event} (h : ev.Saw l s) : ev.issued = none := by
  cases ev with
  | opened | swapped => exact h.elim
  | _ => rfl

end TokenSession
