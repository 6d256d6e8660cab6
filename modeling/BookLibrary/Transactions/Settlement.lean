import BookLibrary.Transactions.Growth

/-!
# What has been committed

A caller knows of a transaction that it has committed only from the answer to its commit.
What it wrote in it is in the store from then on, grown.
-/

namespace Sessions

open Interleaving

variable {Q : Type → Type} {W S D K E : Type} {X : Type → Type} {ι Call β : Type}

/-- A committed transaction is over, and the documents written in it are in the store. -/
structure Settled (sc : Schema Q W S D K) (le : D → D → Prop) (s : Store S D)
    (J : List (Entry ι Call (Event E W D))) : Prop where
  ended : ∀ e ∈ J, ∀ n, e.event = .committed n → s.transactions n = none
  there : ∀ e ∈ J, ∀ e' ∈ J, ∀ n w r, e.event = .committed n → e'.event = .wrote (some n) w r →
    ∀ d ∈ r.docs, ∃ d', sc.find (sc.key d) s.committed = some d' ∧ le d d'

variable {sc : Schema Q W S D K} {le : D → D → Prop} {sighted : E → List D}
  {seen : (β : Type) → Q β → β → List E} {s s' : Store S D}
  {J : List (Entry ι Call (Event E W D))} {i : ι} {call : Call}

theorem Settled.init {s : S} :
    Settled sc le (Store.init s) ([] : List (Entry ι Call (Event E W D))) :=
  ⟨nofun, nofun⟩

/-- Events that neither commit nor write, and a store that has grown. -/
theorem Settled.extend (ho : Ordered sc seen le sighted) (h : Settled sc le s J)
    (hgrows : Grows sc le s.committed s'.committed)
    (hover : ∀ n, s.transactions n = none → (∀ e ∈ J, e.event ≠ .committed n) ∨
      s'.transactions n = none)
    {evs : List (Event E W D)}
    (hevs : ∀ ev ∈ evs, (∀ n, ev ≠ .committed n) ∧ ∀ n w r, ev = .wrote (some n) w r →
      ∀ e ∈ J, e.event ≠ .committed n) :
    Settled sc le s' (record i call evs ++ J) := by
  have old : ∀ e ∈ record i call evs ++ J, ∀ n, e.event = .committed n → e ∈ J := by
    intro e he n hn
    rcases List.mem_append.mp he with hnew | hold
    · exact absurd hn ((hevs _ (mem_record.mp hnew).2.2).1 n)
    · exact hold
  refine ⟨fun e he n hn => ?_, fun e he e' he' n w r hn hw d hd => ?_⟩
  · have hJ := old e he n hn
    exact (hover n (h.ended e hJ n hn)).resolve_left fun hnone => hnone e hJ hn
  · have hJ := old e he n hn
    rcases List.mem_append.mp he' with hnew | hold
    · exact absurd hn ((hevs _ (mem_record.mp hnew).2.2).2 n w r hw e hJ)
    · obtain ⟨d₁, hd₁, hle₁⟩ := h.there e hJ e' hold n w r hn hw d hd
      obtain ⟨d₂, hd₂, hle₂⟩ := hgrows _ _ hd₁
      exact ⟨d₂, hd₂, ho.trans hle₁ hle₂⟩

variable [DecidableEq K]

/-- A commit puts what was written in the transaction into the store. -/
theorem Grown.written (hlaw : sc.Lawful) (ho : Ordered sc seen le sighted)
    (hgrown : Grown sc le sighted s J) {n : ℕ} {t : Transaction S D}
    (present : s.transactions n = some t) (unconflicted : sc.Unconflicted t s.committed)
    {e : Entry ι Call (Event E W D)} (he : e ∈ J) {w : W} {r : WriteResult D}
    (hw : e.event = .wrote (some n) w r) {d : D} (hd : d ∈ r.docs) :
    ∃ d', sc.find (sc.key d) (sc.putAll t.buffer s.committed) = some d' ∧ le d d' := by
  -- the commit takes over what the view of the transaction shows
  have hview : sc.view s (some n) = some (sc.putAll t.buffer t.snapshot) := by
    rw [Schema.view, present]
    rfl
  have hshows : e.event.Shows sighted (some n) d := by
    rw [hw]
    exact ⟨rfl, hd⟩
  obtain ⟨d₁, hd₁, hle₁⟩ := hgrown.shown e he (some n) d _ hshows hview
  obtain ⟨d₂, hd₂, hle₂⟩ :=
    Grows.merge hlaw ho (hgrown.committed n t present) unconflicted _ _ hd₁
  exact ⟨d₂, hd₂, ho.trans hle₁ hle₂⟩

theorem Settled.commit (hlaw : sc.Lawful) (ho : Ordered sc seen le sighted)
    (hgrown : Grown sc le sighted s J) (h : Settled sc le s J) {n : ℕ} {t : Transaction S D}
    (present : s.transactions n = some t) (unconflicted : sc.Unconflicted t s.committed)
    (hgrows : Grows sc le s.committed (sc.putAll t.buffer s.committed)) :
    Settled sc le
      { s with
        committed := sc.putAll t.buffer s.committed
        transactions := Function.update s.transactions n none }
      (record i call [.committed n] ++ J) := by
  have hold : ∀ e ∈ record i call [Event.committed (E := E) (W := W) (D := D) n] ++ J,
      ∀ m, e.event = .committed m → m = n ∨ m ≠ n ∧ e ∈ J := by
    intro e he m hm
    by_cases hmn : m = n
    · exact .inl hmn
    · refine .inr ⟨hmn, (List.mem_append.mp he).resolve_left fun hnew => ?_⟩
      rw [List.mem_singleton.mp (mem_record.mp hnew).2.2] at hm
      cases hm
      exact hmn rfl
  refine ⟨fun e he m hm => ?_, fun e he e' he' m w r hm hw d hd => ?_⟩
  · rcases hold e he m hm with rfl | ⟨hmn, hJ⟩
    · exact Function.update_self _ _ _
    · exact (Function.update_of_ne hmn _ _).trans (h.ended e hJ m hm)
  · have hJ' : e' ∈ J := by
      refine (List.mem_append.mp he').resolve_left fun hnew => ?_
      rw [List.mem_singleton.mp (mem_record.mp hnew).2.2] at hw
      cases hw
    rcases hold e he m hm with rfl | ⟨-, hJ⟩
    · exact hgrown.written hlaw ho present unconflicted hJ' hw hd
    · obtain ⟨d₁, hd₁, hle₁⟩ := h.there e hJ e' hJ' m w r hm hw d hd
      obtain ⟨d₂, hd₂, hle₂⟩ := hgrows _ _ hd₁
      exact ⟨d₂, hd₂, ho.trans hle₁ hle₂⟩

variable [DecidableEq ι]

theorem Settled.step (hlaw : sc.Lawful) (ho : Ordered sc seen le sighted)
    (hledger : Ledger sc s J) (hgrown : Grown sc le sighted s J) (h : Settled sc le s J)
    {op : Op Q W D X β} {r : Option β} {evs : List (Event E W D)}
    (heff : Effect sc seen s op r evs s')
    (hgrow : ∀ w, r.isSome = true → op.writes = some (none, w) →
      Grows sc le s.committed (sc.putAll (sc.write w s.committed).docs s.committed)) :
    Settled sc le s' (record i call evs ++ J) := by
  have hgrows : Grows sc le s.committed s'.committed :=
    Viewed.committed_step hlaw ho.refl hgrown.view heff hgrow
  cases heff with
  | lost | drew => exact h.extend ho hgrows (fun n hn => .inr hn) nofun
  | found =>
    refine h.extend ho hgrows (fun n hn => .inr hn) fun ev hev => ?_
    obtain ⟨x, -, rfl⟩ := List.mem_map.mp hev
    exact ⟨nofun, nofun⟩
  | wrote w =>
    refine h.extend ho hgrows (fun n hn => .inr hn) fun ev hev => ?_
    obtain rfl := List.mem_singleton.mp hev
    exact ⟨nofun, nofun⟩
  | @wroteIn n t w present =>
    -- a transaction that is there has not been committed
    have hopen : ∀ e ∈ J, e.event ≠ .committed n := by
      intro e he hn
      rw [h.ended e he n hn] at present
      cases present
    refine h.extend ho hgrows (fun m hm => ?_) fun ev hev => ?_
    · by_cases hmn : m = n
      · exact .inl (hmn ▸ hopen)
      · exact .inr ((Function.update_of_ne hmn _ _).trans hm)
    · obtain rfl := List.mem_singleton.mp hev
      refine ⟨nofun, fun m w' r' heq => ?_⟩
      cases heq
      exact hopen
  | began =>
    refine h.extend ho hgrows (fun m hm => ?_) fun ev hev => ?_
    · by_cases hmn : m = s.started
      · refine .inl fun e he hn => lt_irrefl s.started (hledger.session_lt e he s.started ?_)
        rw [hn, hmn]
        rfl
      · exact .inr ((Function.update_of_ne hmn _ _).trans hm)
    · obtain rfl := List.mem_singleton.mp hev
      exact ⟨nofun, nofun⟩
  | committed present unconflicted => exact h.commit hlaw ho hgrown present unconflicted hgrows
  | aborted n =>
    refine h.extend ho hgrows (fun m hm => ?_) nofun
    by_cases hmn : m = n
    · exact .inr (hmn ▸ Function.update_self _ _ _)
    · exact .inr ((Function.update_of_ne hmn _ _).trans hm)

end Sessions
