import BookLibrary.TokenSession.Effects

/-!
# The lineage of refresh tokens

Every current hash a family ever had was handed out once, by one caller, under a
token that caller drew. `Chronicle` is about the journal, `Ledger` ties the stored
families to it, `Closed` is what revocation leaves behind.
-/

namespace TokenSession

open Documents Interleaving

variable {ι : Type} [DecidableEq ι] {sha256 : String → String} {s s' : Database}
  {J : List (Entry ι Call Event)} {i : ι} {c : Call} {evs : List Event}

/-- The family was given its current hash. -/
def Issued (J : List (Entry ι Call Event)) (g : RefreshTokenFamily) : Prop :=
  ∃ i, ∃ ev ∈ own i J, ev.issued = some g

theorem Issued.record {g : RefreshTokenFamily} (h : Issued J g) : Issued (record i c evs ++ J) g := by
  obtain ⟨j, ev, hev, hg⟩ := h
  exact ⟨j, ev, mem_own_record.mpr (.inr hev), hg⟩

theorem Issued.new {ev : Event} {g : RefreshTokenFamily} (hg : ev.issued = some g) :
    Issued (Interleaving.record i c [ev] ++ J) g :=
  ⟨i, ev, mem_own_record.mpr (.inl ⟨rfl, List.mem_singleton_self _⟩), hg⟩

/-- Who drew what, and who handed out which hash. -/
structure Chronicle (sha256 : String → String) (s : Database) (J : List (Entry ι Call Event)) :
    Prop where
  known : ∀ i x, .drew x ∈ own i J → x ≠ "" ∧ x ∈ s.drawn
  sole : ∀ i j x, .drew x ∈ own i J → .drew x ∈ own j J → i = j
  issuer : ∀ i, ∀ ev ∈ own i J, ∀ g, ev.issued = some g →
    g.status = .active ∧ ∃ token, .drew token ∈ own i J ∧ g.currentTokenHash = some (sha256 token)
  once : ∀ i, ∀ ev ∈ own i J, ∀ ev' ∈ own i J, ∀ g g',
    ev.issued = some g → ev'.issued = some g' → ev = ev'
  opener : ∀ i g, .opened g ∈ own i J → .drew g.familyId ∈ own i J
  kin : ∀ g, Issued J g → ∃ i g₀, .opened g₀ ∈ own i J ∧ g₀.familyId = g.familyId ∧
    g₀.expiresAt = g.expiresAt

namespace Chronicle

theorem nil : Chronicle sha256 s ([] : List (Entry ι Call Event)) where
  known := by simp
  sole := by simp
  issuer := by simp
  once := by simp
  opener := by simp
  kin := by simp [Issued]

/-- One hash is handed out once. -/
theorem issued_unique (h : Chronicle sha256 s J) (hsha : Function.Injective sha256)
    {g g' : RefreshTokenFamily} {i j : ι} {ev ev' : Event} (hev : ev ∈ own i J)
    (hev' : ev' ∈ own j J) (hg : ev.issued = some g) (hg' : ev'.issued = some g')
    (heq : g.currentTokenHash = g'.currentTokenHash) : i = j ∧ ev = ev' := by
  obtain ⟨-, token, ht, hc⟩ := h.issuer i ev hev g hg
  obtain ⟨-, token', ht', hc'⟩ := h.issuer j ev' hev' g' hg'
  have htoken : token = token' := hsha (Option.some.inj (by rw [← hc, ← hc', heq]))
  obtain rfl := h.sole i j token ht (htoken ▸ ht')
  exact ⟨rfl, h.once i ev hev ev' hev' g g' hg hg'⟩

theorem issued_eq (h : Chronicle sha256 s J) (hsha : Function.Injective sha256)
    {g g' : RefreshTokenFamily} (hg : Issued J g) (hg' : Issued J g')
    (heq : g.currentTokenHash = g'.currentTokenHash) : g = g' := by
  obtain ⟨i, ev, hev, hi⟩ := hg
  obtain ⟨j, ev', hev', hj⟩ := hg'
  obtain ⟨-, rfl⟩ := h.issued_unique hsha hev hev' hi hj heq
  exact Option.some.inj (hi.symm.trans hj)

theorem opened_eq (h : Chronicle sha256 s J) {g g' : RefreshTokenFamily} {i j : ι}
    (hg : .opened g ∈ own i J) (hg' : .opened g' ∈ own j J) (heq : g.familyId = g'.familyId) :
    g = g' := by
  obtain rfl := h.sole i j _ (h.opener i g hg) (heq ▸ h.opener j g' hg')
  have := h.once i _ hg _ hg' g g' rfl rfl
  cases this
  rfl

/-- A family keeps its expiry over all its generations. -/
theorem expiresAt_eq (h : Chronicle sha256 s J) {g g' : RefreshTokenFamily} (hg : Issued J g)
    (hg' : Issued J g') (heq : g.familyId = g'.familyId) : g.expiresAt = g'.expiresAt := by
  obtain ⟨i, o, ho, hid, hexp⟩ := h.kin g hg
  obtain ⟨j, o', ho', hid', hexp'⟩ := h.kin g' hg'
  obtain rfl := h.opened_eq ho ho' (by rw [hid, hid', heq])
  rw [← hexp, ← hexp']

/-- A call that draws nothing and hands out nothing. -/
theorem frame (h : Chronicle sha256 s J) (hs : s.drawn ⊆ s'.drawn)
    (hd : ∀ ev ∈ evs, ∀ x, ev ≠ .drew x) (hi : ∀ ev ∈ evs, ev.issued = none) :
    Chronicle sha256 s' (record i c evs ++ J) := by
  have drew : ∀ {j x}, .drew x ∈ own j (record i c evs ++ J) → .drew x ∈ own j J := by
    intro j x hx
    rcases mem_own_record.mp hx with ⟨-, hx⟩ | hx
    · exact absurd rfl (hd _ hx x)
    · exact hx
  have issued : ∀ {j ev g}, ev ∈ own j (record i c evs ++ J) → ev.issued = some g →
      ev ∈ own j J := by
    intro j ev g hev hg
    rcases mem_own_record.mp hev with ⟨-, hev⟩ | hev
    · rw [hi ev hev] at hg
      cases hg
    · exact hev
  have keep : ∀ {j ev}, ev ∈ own j J → ev ∈ own j (record i c evs ++ J) :=
    fun hev => mem_own_record.mpr (.inr hev)
  constructor
  · exact fun j x hx => ⟨(h.known j x (drew hx)).1, hs (h.known j x (drew hx)).2⟩
  · exact fun j k x hx hx' => h.sole j k x (drew hx) (drew hx')
  · intro j ev hev g hg
    obtain ⟨ha, token, ht, hc⟩ := h.issuer j ev (issued hev hg) g hg
    exact ⟨ha, token, keep ht, hc⟩
  · exact fun j ev hev ev' hev' g g' hg hg' =>
      h.once j ev (issued hev hg) ev' (issued hev' hg') g g' hg hg'
  · exact fun j g hg => keep (h.opener j g (issued hg rfl))
  · rintro g ⟨j, ev, hev, hg⟩
    obtain ⟨k, g₀, hg₀, hid⟩ := h.kin g ⟨j, ev, issued hev hg, hg⟩
    exact ⟨k, g₀, keep hg₀, hid⟩

theorem redraw (h : Chronicle sha256 s J) (hs : s'.drawn = s.drawn) : Chronicle sha256 s' J where
  known i x hx := hs ▸ h.known i x hx
  sole := h.sole
  issuer := h.issuer
  once := h.once
  opener := h.opener
  kin := h.kin

theorem draw (h : Chronicle sha256 s J) {x : String} (hne : x ≠ "") (hf : x ∉ s.drawn) :
    Chronicle sha256 { s with drawn := x :: s.drawn } (record i c [.drew x] ++ J) := by
  have drew : ∀ {j y}, .drew y ∈ own j (record i c [.drew x] ++ J) ↔
      (i = j ∧ y = x) ∨ .drew y ∈ own j J := by
    intro j y
    rw [mem_own_record]
    simp
  have issued : ∀ {j ev g}, ev ∈ own j (record i c [.drew x] ++ J) → ev.issued = some g →
      ev ∈ own j J := by
    intro j ev g hev hg
    rcases mem_own_record.mp hev with ⟨-, hev⟩ | hev
    · cases List.mem_singleton.mp hev
      cases hg
    · exact hev
  constructor
  · intro j y hy
    rcases drew.mp hy with ⟨-, rfl⟩ | hold
    · exact ⟨hne, List.mem_cons_self⟩
    · exact ⟨(h.known j y hold).1, List.mem_cons_of_mem _ (h.known j y hold).2⟩
  · intro j k y hy hy'
    rcases drew.mp hy with ⟨rfl, rfl⟩ | hold
    · rcases drew.mp hy' with ⟨rfl, -⟩ | hold'
      · rfl
      · exact absurd (h.known k y hold').2 hf
    · rcases drew.mp hy' with ⟨rfl, rfl⟩ | hold'
      · exact absurd (h.known j y hold).2 hf
      · exact h.sole j k y hold hold'
  · intro j ev hev g hg
    obtain ⟨ha, token, ht, hc⟩ := h.issuer j ev (issued hev hg) g hg
    exact ⟨ha, token, drew.mpr (.inr ht), hc⟩
  · exact fun j ev hev ev' hev' g g' hg hg' =>
      h.once j ev (issued hev hg) ev' (issued hev' hg') g g' hg hg'
  · exact fun j g hg => drew.mpr (.inr (h.opener j g (issued hg rfl)))
  · rintro g ⟨j, ev, hev, hg⟩
    obtain ⟨k, g₀, hg₀, hid⟩ := h.kin g ⟨j, ev, issued hev hg, hg⟩
    exact ⟨k, g₀, mem_own_record.mpr (.inr hg₀), hid⟩

/-- A caller that has handed out nothing hands out a hash under a token it drew. -/
theorem issue (h : Chronicle sha256 s J) {ev : Event} {g : RefreshTokenFamily} {token : String}
    (hg : ev.issued = some g) (hq : Quiet (own i J)) (ha : g.status = .active)
    (ht : .drew token ∈ own i J) (hc : g.currentTokenHash = some (sha256 token))
    (ho : ∀ g', ev = .opened g' → .drew g'.familyId ∈ own i J)
    (hk : (∃ g', ev = .opened g') ∨ ∃ g₀, Issued J g₀ ∧ g₀.familyId = g.familyId ∧
      g₀.expiresAt = g.expiresAt) (hs : s'.drawn = s.drawn) :
    Chronicle sha256 s' (record i c [ev] ++ J) := by
  have drew : ∀ {j x}, .drew x ∈ own j (record i c [ev] ++ J) → .drew x ∈ own j J := by
    intro j x hx
    rcases mem_own_record.mp hx with ⟨-, hx⟩ | hx
    · cases List.mem_singleton.mp hx
      cases hg
    · exact hx
  have keep : ∀ {j e}, e ∈ own j J → e ∈ own j (record i c [ev] ++ J) :=
    fun he => mem_own_record.mpr (.inr he)
  have cases' : ∀ {j e}, e ∈ own j (record i c [ev] ++ J) → i = j ∧ e = ev ∨ e ∈ own j J := by
    intro j e he
    rcases mem_own_record.mp he with ⟨hj, he⟩ | he
    · exact .inl ⟨hj, List.mem_singleton.mp he⟩
    · exact .inr he
  have quiet : ∀ {e g'}, e ∈ own i J → e.issued ≠ some g' := by
    intro e g' he hg'
    rw [hq e he] at hg'
    cases hg'
  constructor
  · exact fun j x hx => hs ▸ h.known j x (drew hx)
  · exact fun j k x hx hx' => h.sole j k x (drew hx) (drew hx')
  · intro j e he g' hg'
    rcases cases' he with ⟨rfl, rfl⟩ | he
    · cases hg.symm.trans hg'
      exact ⟨ha, token, keep ht, hc⟩
    · obtain ⟨ha', token', ht', hc'⟩ := h.issuer j e he g' hg'
      exact ⟨ha', token', keep ht', hc'⟩
  · intro j e he e' he' g₁ g₂ hg₁ hg₂
    rcases cases' he with ⟨rfl, rfl⟩ | hold
    · rcases cases' he' with ⟨-, rfl⟩ | hold'
      · rfl
      · exact absurd hg₂ (quiet hold')
    · rcases cases' he' with ⟨rfl, rfl⟩ | hold'
      · exact absurd hg₁ (quiet hold)
      · exact h.once j e hold e' hold' g₁ g₂ hg₁ hg₂
  · intro j g' hg'
    rcases cases' hg' with ⟨rfl, he⟩ | hg'
    · exact keep (ho g' he.symm)
    · exact keep (h.opener j g' hg')
  · rintro g' ⟨j, e, he, hg'⟩
    rcases cases' he with ⟨rfl, rfl⟩ | he
    · cases hg.symm.trans hg'
      rcases hk with ⟨g₁, rfl⟩ | ⟨g₀, hg₀, hid, hexp⟩
      · cases hg
        exact ⟨i, g, mem_own_record.mpr (.inl ⟨rfl, List.mem_singleton_self _⟩), rfl, rfl⟩
      · obtain ⟨k, o, hok, hoid, hoexp⟩ := h.kin g₀ hg₀
        exact ⟨k, o, keep hok, hoid.trans hid, hoexp.trans hexp⟩
    · obtain ⟨k, o, hok, hoid⟩ := h.kin g' ⟨j, e, he, hg'⟩
      exact ⟨k, o, keep hok, hoid⟩

end Chronicle

/-- The family id belongs to a family that was opened. -/
def Known (J : List (Entry ι Call Event)) (id : String) : Prop :=
  ∃ g, Issued J g ∧ g.familyId = id

/-- The marker is for a hash its family was given. -/
def Covers (J : List (Entry ι Call Event)) (m : RefreshTokenReplayMarker) : Prop :=
  ∃ g, Issued J g ∧ g.currentTokenHash = some m.tokenHash ∧ g.familyId = m.familyId ∧
    g.expiresAt = m.expiresAt

theorem Known.record {id : String} (h : Known J id) : Known (record i c evs ++ J) id := by
  obtain ⟨g, hg, hid⟩ := h
  exact ⟨g, hg.record, hid⟩

theorem Covers.record {m : RefreshTokenReplayMarker} (h : Covers J m) :
    Covers (record i c evs ++ J) m := by
  obtain ⟨g, hg, hm⟩ := h
  exact ⟨g, hg.record, hm⟩

theorem Covers.known {m : RefreshTokenReplayMarker} (h : Covers J m) : Known J m.familyId := by
  obtain ⟨g, hg, -, hid, -⟩ := h
  exact ⟨g, hg, hid⟩

/-- Two markers of one hash are for one family. -/
theorem Covers.agree {m m' : RefreshTokenReplayMarker} (hc : Chronicle sha256 s J)
    (hsha : Function.Injective sha256) (h : Covers J m) (h' : Covers J m')
    (heq : m.tokenHash = m'.tokenHash) : m.familyId = m'.familyId ∧ m.expiresAt = m'.expiresAt := by
  obtain ⟨g, hg, hh, hid, hexp⟩ := h
  obtain ⟨g', hg', hh', hid', hexp'⟩ := h'
  obtain rfl := hc.issued_eq hsha hg hg' (by rw [hh, hh', heq])
  exact ⟨hid.symm.trans hid', hexp.symm.trans hexp'⟩

/-- A token drawn by a caller that has handed out nothing is not in use. -/
theorem Chronicle.unissued (h : Chronicle sha256 s J) (hsha : Function.Injective sha256)
    (hq : Quiet (own i J)) {token : String} (ht : .drew token ∈ own i J) {g : RefreshTokenFamily}
    (hg : Issued J g) : g.currentTokenHash ≠ some (sha256 token) := by
  obtain ⟨j, ev, hev, hgi⟩ := hg
  obtain ⟨-, token', ht', hc⟩ := h.issuer j ev hev g hgi
  intro heq
  have htoken : token' = token := hsha (Option.some.inj (hc.symm.trans heq))
  obtain rfl := h.sole i j token ht (htoken ▸ ht')
  rw [hq ev hev] at hgi
  cases hgi

/-- A family id drawn by a caller that has handed out nothing is not in use. -/
theorem Chronicle.unknown (h : Chronicle sha256 s J) (hq : Quiet (own i J)) {id : String}
    (hd : .drew id ∈ own i J) : ¬ Known J id := by
  rintro ⟨g, hg, rfl⟩
  obtain ⟨j, g₀, hg₀, hid, -⟩ := h.kin g hg
  obtain rfl := h.sole i j _ hd (hid ▸ h.opener j g₀ hg₀)
  have := hq _ hg₀
  cases this

/-- The stored families and the journal. -/
structure Ledger (s : Database) (J : List (Entry ι Call Event)) : Prop where
  active : ∀ f ∈ s.families, f.status = .active → Issued J f
  inactive : ∀ f ∈ s.families, f.status ≠ .active → f.currentTokenHash = none
  spent : ∀ i hash f, .swapped hash f ∈ own i J → ∀ f' ∈ s.families, f'.currentTokenHash ≠ some hash
  chain : ∀ i hash f, .swapped hash f ∈ own i J →
    ∃ g, Issued J g ∧ g.currentTokenHash = some hash ∧ g.familyId = f.familyId
  single : ∀ i j hash f f', .swapped hash f ∈ own i J → .swapped hash f' ∈ own j J → i = j

namespace Ledger

theorem nil (hs : s.families = []) : Ledger s ([] : List (Entry ι Call Event)) := by
  constructor <;> simp [hs]

theorem shrink (h : Ledger s J) (hs : s'.families ⊆ s.families) : Ledger s' J where
  active f hf := h.active f (hs hf)
  inactive f hf := h.inactive f (hs hf)
  spent i hash f hf f' hf' := h.spent i hash f hf f' (hs hf')
  chain := h.chain
  single := h.single

/-- A call that swaps nothing and leaves the families alone. -/
theorem frame (h : Ledger s J) (hs : s'.families = s.families)
    (he : ∀ ev ∈ evs, ∀ hash f, ev ≠ .swapped hash f) : Ledger s' (record i c evs ++ J) := by
  have swapped : ∀ {j hash f}, .swapped hash f ∈ own j (record i c evs ++ J) →
      .swapped hash f ∈ own j J := by
    intro j hash f hf
    rcases mem_own_record.mp hf with ⟨-, hf⟩ | hf
    · exact absurd rfl (he _ hf hash f)
    · exact hf
  constructor
  · exact fun f hf ha => (h.active f (hs ▸ hf) ha).record
  · exact fun f hf => h.inactive f (hs ▸ hf)
  · exact fun j hash f hf f' hf' => h.spent j hash f (swapped hf) f' (hs ▸ hf')
  · intro j hash f hf
    obtain ⟨g, hg, hc⟩ := h.chain j hash f (swapped hf)
    exact ⟨g, hg.record, hc⟩
  · exact fun j k hash f f' hf hf' => h.single j k hash f f' (swapped hf) (swapped hf')

theorem openFamily (h : Ledger s J) (hc : Chronicle sha256 s J) (hsha : Function.Injective sha256)
    {f : RefreshTokenFamily} (may : MayOpen sha256 c (own i J) f) :
    Ledger (s.insertFamily f) (record i c [.opened f] ++ J) := by
  cases c with
  | createFamily input now =>
    obtain ⟨hq, ha, -, token, ht, hcur⟩ := may
    have swapped : ∀ {j hash f'}, .swapped hash f' ∈ own j
        (record i (.createFamily input now) [.opened f] ++ J) →
        .swapped hash f' ∈ own j J := by
      intro j hash f' hf'
      rcases mem_own_record.mp hf' with ⟨-, hf'⟩ | hf'
      · cases List.mem_singleton.mp hf'
      · exact hf'
    constructor
    · intro f' hf' ha'
      rcases List.mem_cons.mp hf' with rfl | hf'
      · exact Issued.new rfl
      · exact (h.active f' hf' ha').record
    · intro f' hf' hn
      rcases List.mem_cons.mp hf' with rfl | hf'
      · exact absurd ha hn
      · exact h.inactive f' hf' hn
    · intro j hash f' hsw f'' hf''
      rcases List.mem_cons.mp hf'' with rfl | hf''
      · obtain ⟨g, hg, hgc, -⟩ := h.chain j hash f' (swapped hsw)
        intro heq
        exact hc.unissued hsha hq ht hg (hgc.trans (heq.symm.trans hcur))
      · exact h.spent j hash f' (swapped hsw) f'' hf''
    · intro j hash f' hsw
      obtain ⟨g, hg, hgc⟩ := h.chain j hash f' (swapped hsw)
      exact ⟨g, hg.record, hgc⟩
    · exact fun j k hash f₁ f₂ h₁ h₂ => h.single j k hash f₁ f₂ (swapped h₁) (swapped h₂)
  | _ => exact may.elim

theorem swap (h : Ledger s J) (hc : Chronicle sha256 s J) (hsha : Function.Injective sha256)
    (hs : s.Indexed) {id hash next op : String} {now : Date} {f : RefreshTokenFamily}
    {families : List RefreshTokenFamily} (may : MaySwap sha256 c (own i J) id hash next op)
    (update : UpdateOne (fun f => decide (f.familyId = id) && f.isCurrent hash now)
      (RefreshTokenFamily.swap now next op) s.families (some f) families) :
    Ledger { s with families := families } (record i c [.swapped hash f] ++ J) := by
  cases c with
  | rotate token date =>
    obtain ⟨-, hq, -, -, -, token', ht, rfl⟩ := may
    obtain ⟨f₀, hf₀, hp, rfl, -⟩ := update.source
    rw [Bool.and_eq_true, RefreshTokenFamily.isCurrent_iff] at hp
    obtain ⟨-, hcur, hact, -⟩ := hp
    have hi₀ := h.active f₀ hf₀ hact
    have hnew : ∀ {g}, Issued J g → g.currentTokenHash ≠ some (sha256 token') :=
      fun hg => hc.unissued hsha hq ht hg
    have swapped : ∀ {j k f'}, .swapped k f' ∈ own j
        (record i (.rotate token date) [.swapped hash (f₀.swap now (sha256 token') op)] ++ J) →
        (i = j ∧ k = hash ∧ f' = f₀.swap now (sha256 token') op) ∨ .swapped k f' ∈ own j J := by
      intro j k f' hf'
      rcases mem_own_record.mp hf' with ⟨hj, hf'⟩ | hf'
      · cases List.mem_singleton.mp hf'
        exact .inl ⟨hj, rfl, rfl⟩
      · exact .inr hf'
    constructor
    · intro f' hf' ha'
      rcases update.mem hf' with hf' | rfl
      · exact (h.active f' hf' ha').record
      · exact Issued.new rfl
    · intro f' hf' hn
      rcases update.mem hf' with hf' | rfl
      · exact h.inactive f' hf' hn
      · exact absurd hact hn
    · intro j k f' hsw f'' hf''
      rcases swapped hsw with ⟨-, rfl, -⟩ | hold
      · refine update.vacates hs.currentTokenHash (fun d hd => ?_) (fun heq => ?_) f'' hf''
        · rw [Bool.and_eq_true, RefreshTokenFamily.isCurrent_iff] at hd
          exact hd.2.1
        · exact hnew hi₀ (hcur.trans heq.symm)
      · rcases update.mem hf'' with hf'' | rfl
        · exact h.spent j k f' hold f'' hf''
        · obtain ⟨g, hg, hgc, -⟩ := h.chain j k f' hold
          exact fun heq => hnew hg (hgc.trans heq.symm)
    · intro j k f' hsw
      rcases swapped hsw with ⟨-, rfl, rfl⟩ | hold
      · exact ⟨f₀, hi₀.record, hcur, rfl⟩
      · obtain ⟨g, hg, hgc⟩ := h.chain j k f' hold
        exact ⟨g, hg.record, hgc⟩
    · intro j k hash' f₁ f₂ h₁ h₂
      rcases swapped h₁ with ⟨rfl, rfl, -⟩ | hold₁
      · rcases swapped h₂ with ⟨rfl, -, -⟩ | hold₂
        · rfl
        · exact absurd hcur (h.spent k _ f₂ hold₂ f₀ hf₀)
      · rcases swapped h₂ with ⟨rfl, rfl, -⟩ | hold₂
        · exact absurd hcur (h.spent j _ f₁ hold₁ f₀ hf₀)
        · exact h.single j k hash' f₁ f₂ hold₁ hold₂
  | _ => exact may.elim

theorem revoke (h : Ledger s J) {filter : RevocationFilter} {status : RefreshTokenFamilyStatus}
    {reason : String} {date : Date} (inactive : status ≠ .active) {n : ℕ} :
    Ledger { s with
        families := updateMany filter.selects (revocationUpdate status reason date) s.families }
      (record i c [.revoked filter n] ++ J) := by
  refine Ledger.frame (s := { s with
    families := updateMany filter.selects (revocationUpdate status reason date) s.families })
    ?_ rfl (by simp)
  constructor
  · intro f hf ha
    rcases mem_updateMany.mp hf with ⟨hf, -⟩ | ⟨f₀, -, -, rfl⟩
    · exact h.active f hf ha
    · exact absurd ha inactive
  · intro f hf hn
    rcases mem_updateMany.mp hf with ⟨hf, -⟩ | ⟨f₀, -, -, rfl⟩
    · exact h.inactive f hf hn
    · rfl
  · intro j hash f hsw f' hf'
    rcases mem_updateMany.mp hf' with ⟨hf', -⟩ | ⟨f₀, -, -, rfl⟩
    · exact h.spent j hash f hsw f' hf'
    · exact nofun
  · exact h.chain
  · exact h.single

theorem change (h : Ledger s J) (hc : Chronicle sha256 s J) (hsha : Function.Injective sha256)
    (hs : s.Indexed) (hch : Change sha256 c (own i J) s evs s') :
    Ledger s' (record i c evs ++ J) := by
  cases hch with
  | look _ saw =>
    refine h.frame rfl fun ev hev hash f heq => ?_
    subst heq
    exact (saw _ hev).elim
  | openFamily may => exact h.openFamily hc hsha may
  | swap may update => exact h.swap hc hsha hs may update
  | revoke inactive may => exact h.revoke inactive
  | draw | insertMarker | takeOver | commit => exact h.frame rfl (by simp)

end Ledger

theorem Chronicle.change (h : Chronicle sha256 s J) (hl : Ledger s J)
    (hch : Change sha256 c (own i J) s evs s') : Chronicle sha256 s' (record i c evs ++ J) := by
  cases hch with
  | look _ saw =>
    refine h.frame (List.Subset.refl _) (fun ev hev x heq => ?_) fun ev hev => (saw ev hev).issued
    subst heq
    exact (saw _ hev).elim
  | draw nonempty fresh => exact h.draw nonempty fresh
  | openFamily may =>
    cases c with
    | createFamily input now =>
      obtain ⟨hq, ha, hid, token, ht, hcur⟩ := may
      refine h.issue rfl hq ha ht hcur (fun g' hg' => ?_) (.inl ⟨_, rfl⟩) rfl
      cases hg'
      exact hid
    | _ => exact may.elim
  | swap may update =>
    cases c with
    | rotate token date =>
      obtain ⟨-, hq, -, -, -, token', ht, rfl⟩ := may
      obtain ⟨f₀, hf₀, hp, rfl, -⟩ := update.source
      rw [Bool.and_eq_true, RefreshTokenFamily.isCurrent_iff] at hp
      have hi₀ := hl.active f₀ hf₀ hp.2.2.1
      refine h.issue rfl hq hp.2.2.1 ht rfl (fun g' hg' => ?_) (.inr ⟨f₀, hi₀, rfl, rfl⟩) rfl
      cases hg'
    | _ => exact may.elim
  | insertMarker | takeOver | commit | revoke =>
    exact h.frame (List.Subset.refl _) (by simp) (by simp [Event.issued])

/-- The family is known and not active; it stays so. -/
def Closed (s : Database) (J : List (Entry ι Call Event)) (id : String) : Prop :=
  Known J id ∧ ∀ f ∈ s.families, f.familyId = id → f.status ≠ .active

theorem Closed.shrink {id : String} (h : Closed s J id) (hs : s'.families ⊆ s.families) :
    Closed s' J id :=
  ⟨h.1, fun f hf => h.2 f (hs hf)⟩

theorem Closed.change {id : String} (h : Closed s J id) (hc : Chronicle sha256 s J)
    (hch : Change sha256 c (own i J) s evs s') : Closed s' (record i c evs ++ J) id := by
  refine ⟨h.1.record, fun f hf hid => ?_⟩
  cases hch with
  | openFamily may =>
    cases c with
    | createFamily input now =>
      rcases List.mem_cons.mp hf with rfl | hf
      · exact absurd (hid ▸ h.1) (hc.unknown may.1 may.2.2.1)
      · exact h.2 f hf hid
    | _ => exact may.elim
  | swap may update =>
    rcases update.mem hf with hf | rfl
    · exact h.2 f hf hid
    · obtain ⟨f₀, hf₀, -, rfl, -⟩ := update.source
      exact h.2 f₀ hf₀ hid
  | revoke inactive may =>
    rcases mem_updateMany.mp hf with ⟨hf, -⟩ | ⟨f₀, -, -, rfl⟩
    · exact h.2 f hf hid
    · exact inactive
  | look | draw | insertMarker | takeOver | commit => exact h.2 f hf hid

end TokenSession
