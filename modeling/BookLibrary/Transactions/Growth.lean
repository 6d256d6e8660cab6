import Mathlib.Order.Nat
import BookLibrary.Interleaving.Contract
import BookLibrary.Transactions.Handlers

/-!
# What commits keep

A transaction is merged into the store document by document. Where every write makes
documents grow in some order, a transaction's view has grown from its snapshot and so has
the store, and what anybody has seen of a document is below what it is now.
-/

namespace Sessions

open Interleaving

variable {Q : Type → Type} {W S D K E : Type} {X : Type → Type} {ι Call ρ β : Type}

namespace Schema

variable [DecidableEq K] (sc : Schema Q W S D K)

/-- Documents are found by their keys, and no write breaks an index. -/
structure Lawful : Prop where
  find_put : ∀ k d s, sc.find k (sc.put d s) = if sc.key d = k then some d else sc.find k s
  indexed_write : ∀ w s, sc.indexed s = true → sc.indexed (sc.putAll (sc.write w s).docs s) = true
  keys_write : ∀ w s, sc.indexed s = true → ((sc.write w s).docs.map sc.key).Nodup

variable {sc} (h : sc.Lawful)

include h

theorem Lawful.find_putAll_of_notMem {docs : List D} {k : K} (hk : k ∉ docs.map sc.key) (s : S) :
    sc.find k (sc.putAll docs s) = sc.find k s := by
  induction docs with
  | nil => rfl
  | cons d docs ih =>
    rw [List.map_cons, List.mem_cons, not_or] at hk
    rw [putAll_cons, h.find_put, if_neg (Ne.symm hk.1)]
    exact ih hk.2

/-- Of the documents of a buffer nothing else is to be seen. -/
theorem Lawful.find_putAll_congr {docs : List D} {k : K} (hk : k ∈ docs.map sc.key) (s s' : S) :
    sc.find k (sc.putAll docs s) = sc.find k (sc.putAll docs s') := by
  induction docs with
  | nil => cases hk
  | cons d docs ih =>
    rw [putAll_cons, putAll_cons, h.find_put, h.find_put]
    by_cases hd : sc.key d = k
    · rw [if_pos hd, if_pos hd]
    · rw [if_neg hd, if_neg hd]
      rw [List.map_cons, List.mem_cons] at hk
      exact ih (hk.resolve_left (Ne.symm hd))

theorem Lawful.find_putAll_of_mem {docs : List D} (hnodup : (docs.map sc.key).Nodup) {d : D}
    (hd : d ∈ docs) (s : S) : sc.find (sc.key d) (sc.putAll docs s) = some d := by
  induction docs with
  | nil => cases hd
  | cons x docs ih =>
    rw [List.map_cons, List.nodup_cons] at hnodup
    rw [putAll_cons, h.find_put]
    rcases List.mem_cons.mp hd with rfl | hd
    · rw [if_pos rfl]
    · have hne : sc.key x ≠ sc.key d := fun heq => hnodup.1 (heq ▸ List.mem_map_of_mem hd)
      rw [if_neg hne]
      exact ih hnodup.2 hd

/-- A document is one of the buffer, or was there. -/
theorem Lawful.find_putAll_cases {docs : List D} {k : K} {d : D} {s : S}
    (hd : sc.find k (sc.putAll docs s) = some d) : d ∈ docs ∨ sc.find k s = some d := by
  induction docs with
  | nil => exact .inr hd
  | cons x docs ih =>
    rw [putAll_cons, h.find_put] at hd
    by_cases hx : sc.key x = k
    · rw [if_pos hx] at hd
      exact .inl (Option.some.inj hd ▸ List.mem_cons_self)
    · rw [if_neg hx] at hd
      exact (ih hd).imp_left (List.mem_cons_of_mem x)

/-- A commit takes each document either from the view or leaves it as it is in the store. -/
theorem Lawful.commit_find {t : Transaction S D} {s : S} (hfree : sc.Unconflicted t s) (k : K) :
    (sc.find k (sc.putAll t.buffer s) = sc.find k (sc.putAll t.buffer t.snapshot) ∧
      sc.find k s = sc.find k t.snapshot) ∨
    (sc.find k (sc.putAll t.buffer s) = sc.find k s ∧
      sc.find k (sc.putAll t.buffer t.snapshot) = sc.find k t.snapshot) := by
  by_cases hk : k ∈ t.buffer.map sc.key
  · obtain ⟨d, hd, rfl⟩ := List.mem_map.mp hk
    exact .inl ⟨h.find_putAll_congr hk _ _, hfree d hd⟩
  · exact .inr ⟨h.find_putAll_of_notMem hk _, h.find_putAll_of_notMem hk _⟩

end Schema

/-- The transaction that an event is of. -/
def Event.session : Event E W D → Option ℕ
  | .saw session _ => session
  | .wrote session _ _ => session
  | .began n => some n
  | .committed n => some n

/-- What a caller has done since it last began the transaction `n`. -/
def since (n : ℕ) (l : List (Event E W D)) : List (Event E W D) :=
  l.takeWhile fun ev => match ev with
    | .began m => decide (m ≠ n)
    | _ => true

theorem since_subset (n : ℕ) (l : List (Event E W D)) : since n l ⊆ l :=
  fun _ h => (List.takeWhile_sublist _).subset h

@[simp] theorem since_saw (n : ℕ) (session : Option ℕ) (e : E) (l : List (Event E W D)) :
    since n (.saw session e :: l) = .saw session e :: since n l := rfl

@[simp] theorem since_wrote (n : ℕ) (session : Option ℕ) (w : W) (r : WriteResult D)
    (l : List (Event E W D)) : since n (.wrote session w r :: l) = .wrote session w r :: since n l :=
  rfl

@[simp] theorem since_committed (n m : ℕ) (l : List (Event E W D)) :
    since n (.committed m :: l) = .committed m :: since n l := rfl

@[simp] theorem since_began_self (n : ℕ) (l : List (Event E W D)) : since n (.began n :: l) = [] := by
  simp [since]

theorem since_began_of_ne {n m : ℕ} (h : m ≠ n) (l : List (Event E W D)) :
    since n (.began m :: l) = .began m :: since n l := by
  simp [since, h]

/-- A call keeps to transactions that its caller has begun. -/
def Disciplined (l : List (Event E W D)) : (β : Type) → Op Q W D X β → Prop
  | _, .find session _ => ∀ n ∈ session, .began n ∈ l
  | _, .change (.write session _) => ∀ n ∈ session, .began n ∈ l
  | _, .change (.commitTransaction n) => .began n ∈ l
  | _, _ => True

variable (sc : Schema Q W S D K) (seen : (β : Type) → Q β → β → List E)

/-- What a call does to the store, and the events that it leaves. -/
inductive Effect (s : Store S D) : {β : Type} → Op Q W D X β → Option β → List (Event E W D) →
    Store S D → Prop where
  | lost {β : Type} {op : Op Q W D X β} : Effect s op none [] s
  | found {β : Type} {session : Option ℕ} {q : Q β} {b : β} {v : S}
      (view : sc.view s session = some v) (answers : sc.answers β q v b) :
      Effect s (.find session q) (some b) ((seen β q b).map (.saw session)) s
  | drew {β : Type} {x : X β} {b : β} : Effect s (.draw x) (some b) [] s
  | wrote (w : W) : Effect s (.change (.write none w)) (some (sc.write w s.committed))
      [.wrote none w (sc.write w s.committed)]
      { s with committed := sc.putAll (sc.write w s.committed).docs s.committed }
  | wroteIn {n : ℕ} {t : Transaction S D} (w : W) (present : s.transactions n = some t) :
      Effect s (.change (.write (some n) w))
        (some (sc.write w (sc.putAll t.buffer t.snapshot)))
        [.wrote (some n) w (sc.write w (sc.putAll t.buffer t.snapshot))]
        { s with
          transactions := Function.update s.transactions n (some { t with
            buffer := (sc.write w (sc.putAll t.buffer t.snapshot)).docs ++ t.buffer }) }
  | began : Effect s (.change .startTransaction) (some s.started) [.began s.started]
      { s with
        transactions := Function.update s.transactions s.started (some ⟨s.committed, []⟩)
        started := s.started + 1 }
  | committed {n : ℕ} {t : Transaction S D} (present : s.transactions n = some t)
      (unconflicted : sc.Unconflicted t s.committed)
      (indexed : sc.indexed (sc.putAll t.buffer s.committed) = true) :
      Effect s (.change (.commitTransaction n)) (some ()) [.committed n]
        { s with
          committed := sc.putAll t.buffer s.committed
          transactions := Function.update s.transactions n none }
  | aborted (n : ℕ) : Effect s (.change (.abortTransaction n)) (some ()) []
      { s with transactions := Function.update s.transactions n none }

variable {sc seen} {drawFails : (β : Type) → X β → Prop} {body : Call → Prog (Op Q W D X) ρ}

theorem effect_of_applies {op : Op Q W D X β} {r : Option β} {s s' : Store S D}
    (h : (system sc drawFails seen body).Applies op s r s') :
    Effect sc seen s op r (op.note seen β r) s' := by
  cases r with
  | none =>
    obtain ⟨-, rfl⟩ := h
    have hnote : op.note seen β none = [] := by
      cases op with
      | find | draw => rfl
      | change c => cases c <;> rfl
    rw [hnote]
    exact .lost
  | some b =>
    cases op with
    | find session q =>
      obtain ⟨⟨v, hv, ha⟩, rfl⟩ := h
      exact .found hv ha
    | draw x =>
      obtain rfl := h
      exact .drew
    | change c =>
      cases c with
      | write session w =>
        cases session with
        | none =>
          obtain ⟨rfl, rfl⟩ := h
          exact .wrote w
        | some n =>
          obtain ⟨t, ht, rfl, rfl⟩ := h
          exact .wroteIn w ht
      | startTransaction =>
        obtain ⟨rfl, rfl⟩ := h
        exact .began
      | commitTransaction n =>
        obtain ⟨t, ht, hfree, hindexed, rfl⟩ := h
        exact .committed ht hfree hindexed
      | abortTransaction n =>
        obtain rfl := h
        exact .aborted n

theorem update_cases {α : Type} {f : ℕ → Option α} {n m : ℕ} {v : Option α} {a : α}
    (h : Function.update f n v m = some a) : m = n ∧ v = some a ∨ m ≠ n ∧ f m = some a := by
  by_cases hm : m = n
  · subst hm
    rw [Function.update_self] at h
    exact .inl ⟨rfl, h⟩
  · rw [Function.update_of_ne hm] at h
    exact .inr ⟨hm, h⟩

section Ledger

variable [DecidableEq ι] (sc)

/-- What the journal tells of the transactions: each is of one caller, who has done all that
is recorded of it since it began it. -/
structure Ledger (s : Store S D) (J : List (Entry ι Call (Event E W D))) : Prop where
  present_lt : ∀ n t, s.transactions n = some t → n < s.started
  session_lt : ∀ e ∈ J, ∀ n, e.event.session = some n → n < s.started
  indexed : sc.indexed s.committed = true
  views : ∀ n t, s.transactions n = some t → sc.indexed (sc.putAll t.buffer t.snapshot) = true
  one : ∀ e ∈ J, ∀ e' ∈ J, ∀ n, e.event.session = some n → e'.event.session = some n →
    e.caller = e'.caller
  recent : ∀ i n, ∀ ev ∈ own i J, ev.session = some n → ev ≠ .began n → ev ∈ since n (own i J)

theorem Ledger.init {s : S} (h : sc.indexed s = true) :
    Ledger sc (Store.init s) ([] : List (Entry ι Call (Event E W D))) where
  present_lt := nofun
  session_lt := nofun
  indexed := h
  views := nofun
  one := nofun
  recent := nofun

variable {sc} {s s' : Store S D} {J : List (Entry ι Call (Event E W D))} {i : ι} {call : Call}

/-- The view of a call, on which its index holds. -/
theorem Ledger.view_indexed (h : Ledger sc s J) {session : Option ℕ} {v : S}
    (hv : sc.view s session = some v) : sc.indexed v = true := by
  cases session with
  | none =>
    cases hv
    exact h.indexed
  | some n =>
    obtain ⟨t, ht, rfl⟩ := Option.map_eq_some_iff.mp hv
    exact h.views n t ht

/-- Events of a transaction that the caller has begun, or of none. -/
theorem Ledger.extend (h : Ledger sc s J) {evs : List (Event E W D)}
    (hpresent : ∀ n t, s'.transactions n = some t → n < s'.started)
    (hstarted : s.started ≤ s'.started) (hindexed : sc.indexed s'.committed = true)
    (hviews : ∀ n t, s'.transactions n = some t →
      sc.indexed (sc.putAll t.buffer t.snapshot) = true)
    (hevs : ∀ ev ∈ evs, (∀ n, ev ≠ .began n) ∧ ∀ n, ev.session = some n → .began n ∈ own i J) :
    Ledger sc s' (record i call evs ++ J) := by
  have old : ∀ n, Event.began n ∈ own i J → ∃ e ∈ J, e.caller = i ∧ e.event.session = some n := by
    intro n hn
    obtain ⟨call', he⟩ := mem_own.mp hn
    exact ⟨_, he, rfl, rfl⟩
  refine ⟨hpresent, ?_, hindexed, hviews, ?_, ?_⟩
  · intro e he n hn
    rcases List.mem_append.mp he with hnew | hold
    · obtain ⟨e', he', -, hn'⟩ := old n ((hevs _ (mem_record.mp hnew).2.2).2 n hn)
      exact lt_of_lt_of_le (h.session_lt e' he' n hn') hstarted
    · exact lt_of_lt_of_le (h.session_lt e hold n hn) hstarted
  · have hone : ∀ e ∈ record i call evs ++ J, ∀ n, e.event.session = some n →
        e ∈ J ∨ e.caller = i ∧ ∃ e' ∈ J, e'.caller = i ∧ e'.event.session = some n := by
      intro e he n hn
      rcases List.mem_append.mp he with hnew | hold
      · exact .inr ⟨(mem_record.mp hnew).1,
          old n ((hevs _ (mem_record.mp hnew).2.2).2 n hn)⟩
      · exact .inl hold
    intro e he e' he' n hn hn'
    rcases hone e he n hn with hJ | ⟨hi, x, hx, hxi, hxn⟩
    · rcases hone e' he' n hn' with hJ' | ⟨hi', x, hx, hxi, hxn⟩
      · exact h.one e hJ e' hJ' n hn hn'
      · rw [hi', ← hxi]
        exact h.one e hJ x hx n hn hxn
    · rcases hone e' he' n hn' with hJ' | ⟨hi', -⟩
      · rw [hi, ← hxi]
        exact h.one x hx e' hJ' n hxn hn'
      · rw [hi, hi']
  · intro j n ev hev hn hne
    by_cases hj : i = j
    · subst hj
      rw [own_record_self] at hev ⊢
      have hsince : since n (evs ++ own i J) = evs ++ since n (own i J) := by
        refine List.takeWhile_append_of_pos fun ev hev => ?_
        have hbegan := (hevs ev hev).1
        cases ev with
        | began m => exact absurd rfl (hbegan m)
        | _ => rfl
      rw [hsince]
      rcases List.mem_append.mp hev with hnew | hold
      · exact List.mem_append_left _ hnew
      · exact List.mem_append_right _ (h.recent i n ev hold hn hne)
    · rw [own_record_of_ne hj] at hev ⊢
      exact h.recent j n ev hev hn hne

theorem Ledger.step [DecidableEq K] (hlaw : sc.Lawful) (h : Ledger sc s J) {op : Op Q W D X β} {r : Option β}
    (hop : Disciplined (own i J) β op)
    (heff : Effect sc seen s op r (op.note seen β r) s') :
    Ledger sc s' (record i call (op.note seen β r) ++ J) := by
  generalize op.note seen β r = evs at heff
  cases heff with
  | lost => exact h.extend h.present_lt le_rfl h.indexed h.views nofun
  | drew => exact h.extend h.present_lt le_rfl h.indexed h.views nofun
  | found hview hanswers =>
    refine h.extend h.present_lt le_rfl h.indexed h.views fun ev hev => ?_
    obtain ⟨e, -, rfl⟩ := List.mem_map.mp hev
    exact ⟨nofun, fun n hn => hop n hn⟩
  | wrote w =>
    refine h.extend h.present_lt le_rfl (hlaw.indexed_write w _ h.indexed) h.views fun ev hev => ?_
    obtain rfl := List.mem_singleton.mp hev
    exact ⟨nofun, nofun⟩
  | @wroteIn n t w present =>
    refine h.extend (fun m t' ht' => ?_) le_rfl h.indexed (fun m t' ht' => ?_) fun ev hev => ?_
    · rcases update_cases ht' with ⟨rfl, -⟩ | ⟨-, hold⟩
      · exact h.present_lt m t present
      · exact h.present_lt m t' hold
    · rcases update_cases ht' with ⟨rfl, heq⟩ | ⟨-, hold⟩
      · cases heq
        rw [sc.putAll_append]
        exact hlaw.indexed_write w _ (h.views m t present)
      · exact h.views m t' hold
    · obtain rfl := List.mem_singleton.mp hev
      refine ⟨nofun, fun m hm => ?_⟩
      cases hm
      exact hop n rfl
  | began =>
    -- nothing is recorded of the new transaction yet
    have hfresh : ∀ e ∈ J, e.event.session ≠ some s.started :=
      fun e he hn => lt_irrefl _ (h.session_lt e he _ hn)
    refine ⟨fun m t' ht' => ?_, ?_, h.indexed, fun m t' ht' => ?_, ?_, ?_⟩
    · rcases update_cases ht' with ⟨rfl, -⟩ | ⟨-, hold⟩
      · exact Nat.lt_succ_self _
      · exact (h.present_lt m t' hold).trans (Nat.lt_succ_self _)
    · intro e he n hn
      rcases List.mem_append.mp he with hnew | hold
      · rw [List.mem_singleton.mp (mem_record.mp hnew).2.2] at hn
        cases hn
        exact Nat.lt_succ_self _
      · exact (h.session_lt e hold n hn).trans (Nat.lt_succ_self _)
    · rcases update_cases ht' with ⟨rfl, heq⟩ | ⟨-, hold⟩
      · cases heq
        exact h.indexed
      · exact h.views m t' hold
    · intro e he e' he' n hn hn'
      rcases List.mem_append.mp he with hnew | hold
      · rcases List.mem_append.mp he' with hnew' | hold'
        · rw [(mem_record.mp hnew).1, (mem_record.mp hnew').1]
        · rw [List.mem_singleton.mp (mem_record.mp hnew).2.2] at hn
          cases hn
          exact absurd hn' (hfresh e' hold')
      · rcases List.mem_append.mp he' with hnew' | hold'
        · rw [List.mem_singleton.mp (mem_record.mp hnew').2.2] at hn'
          cases hn'
          exact absurd hn (hfresh e hold)
        · exact h.one e hold e' hold' n hn hn'
    · intro j n ev hev hn hne
      by_cases hj : i = j
      · subst hj
        rw [own_record_self] at hev ⊢
        rcases List.mem_cons.mp hev with rfl | hold
        · cases hn
          exact absurd rfl hne
        · have hm : s.started ≠ n := by
            rintro rfl
            obtain ⟨call', he⟩ := mem_own.mp hold
            exact hfresh _ he hn
          show ev ∈ since n (.began s.started :: own i J)
          rw [since_began_of_ne hm]
          exact List.mem_cons_of_mem _ (h.recent i n ev hold hn hne)
      · rw [own_record_of_ne hj] at hev ⊢
        exact h.recent j n ev hev hn hne
  | @committed n t present unconflicted indexed =>
    refine h.extend (fun m t' ht' => ?_) le_rfl indexed (fun m t' ht' => ?_) fun ev hev => ?_
    · rcases update_cases ht' with ⟨-, hnone⟩ | ⟨-, hold⟩
      · cases hnone
      · exact h.present_lt m t' hold
    · rcases update_cases ht' with ⟨-, hnone⟩ | ⟨-, hold⟩
      · cases hnone
      · exact h.views m t' hold
    · obtain rfl := List.mem_singleton.mp hev
      refine ⟨nofun, fun m hm => ?_⟩
      cases hm
      exact hop
  | aborted n =>
    refine h.extend (fun m t' ht' => ?_) le_rfl h.indexed (fun m t' ht' => ?_) nofun
    · rcases update_cases ht' with ⟨-, hnone⟩ | ⟨-, hold⟩
      · cases hnone
      · exact h.present_lt m t' hold
    · rcases update_cases ht' with ⟨-, hnone⟩ | ⟨-, hold⟩
      · cases hnone
      · exact h.views m t' hold

end Ledger

/-- The write that a call issues, with its transaction. -/
def Op.writes {β : Type} (op : Op Q W D X β) : Option (Option ℕ × W) :=
  match β, op with
  | _, .change (.write session w) => some (session, w)
  | _, _ => none

/-- The transaction that a call commits. -/
def Op.commits {β : Type} (op : Op Q W D X β) : Option ℕ :=
  match β, op with
  | _, .change (.commitTransaction n) => some n
  | _, _ => none

section Everywhere

variable (sc)

/-- A property of the store and of every transaction's view of it. -/
structure Everywhere (P : S → Prop) (s : Store S D) : Prop where
  committed : P s.committed
  views : ∀ n t, s.transactions n = some t → P (sc.putAll t.buffer t.snapshot)

variable {sc} {P : S → Prop} {s s' : Store S D}

theorem Everywhere.view (h : Everywhere sc P s) {session : Option ℕ} {v : S}
    (hv : sc.view s session = some v) : P v := by
  cases session with
  | none =>
    cases hv
    exact h.committed
  | some n =>
    obtain ⟨t, ht, rfl⟩ := Option.map_eq_some_iff.mp hv
    exact h.views n t ht

theorem Everywhere.imp {P' : S → Prop} (h : Everywhere sc P s) (himp : ∀ v, P v → P' v) :
    Everywhere sc P' s :=
  ⟨himp _ h.committed, fun n t ht => himp _ (h.views n t ht)⟩

theorem Everywhere.step (h : Everywhere sc P s) {op : Op Q W D X β} {r : Option β}
    {evs : List (Event E W D)} (heff : Effect sc seen s op r evs s')
    (hwrite : ∀ session w v, r.isSome = true → op.writes = some (session, w) →
      sc.view s session = some v → P v → P (sc.putAll (sc.write w v).docs v))
    (hcommit : ∀ n t, r.isSome = true → op.commits = some n → s.transactions n = some t →
      sc.Unconflicted t s.committed → sc.indexed (sc.putAll t.buffer s.committed) = true →
      P (sc.putAll t.buffer s.committed)) :
    Everywhere sc P s' := by
  cases heff with
  | lost => exact h
  | drew => exact h
  | found => exact h
  | wrote w => exact ⟨hwrite none w _ rfl rfl rfl h.committed, h.views⟩
  | @wroteIn n t w present =>
    refine ⟨h.committed, fun m t' ht' => ?_⟩
    rcases update_cases ht' with ⟨rfl, heq⟩ | ⟨-, hold⟩
    · cases heq
      rw [sc.putAll_append]
      exact hwrite (some m) w _ rfl rfl (by rw [Schema.view, present]; rfl) (h.views m t present)
    · exact h.views m t' hold
  | began =>
    refine ⟨h.committed, fun m t' ht' => ?_⟩
    rcases update_cases ht' with ⟨-, heq⟩ | ⟨-, hold⟩
    · cases heq
      exact h.committed
    · exact h.views m t' hold
  | @committed n t present unconflicted indexed =>
    refine ⟨hcommit n t rfl rfl present unconflicted indexed, fun m t' ht' => ?_⟩
    rcases update_cases ht' with ⟨-, hnone⟩ | ⟨-, hold⟩
    · cases hnone
    · exact h.views m t' hold
  | aborted n =>
    refine ⟨h.committed, fun m t' ht' => ?_⟩
    rcases update_cases ht' with ⟨-, hnone⟩ | ⟨-, hold⟩
    · cases hnone
    · exact h.views m t' hold

end Everywhere

section Viewed

variable (sc)

/-- Every transaction's view is related to its snapshot. -/
def Viewed (R : ℕ → S → S → Prop) (s : Store S D) : Prop :=
  ∀ n t, s.transactions n = some t → R n t.snapshot (sc.putAll t.buffer t.snapshot)

variable {sc} {R R' : ℕ → S → S → Prop} {s s' : Store S D}

theorem Viewed.step (h : Viewed sc R s) {op : Op Q W D X β} {r : Option β} {evs : List (Event E W D)}
    (heff : Effect sc seen s op r evs s') (hrefl : ∀ n, R' n s.committed s.committed)
    (hmono : ∀ n t, s.transactions n = some t → R n t.snapshot (sc.putAll t.buffer t.snapshot) →
      R' n t.snapshot (sc.putAll t.buffer t.snapshot))
    (hwrite : ∀ n w t, r.isSome = true → op.writes = some (some n, w) → s.transactions n = some t →
      R n t.snapshot (sc.putAll t.buffer t.snapshot) →
      R' n t.snapshot (sc.putAll (sc.write w (sc.putAll t.buffer t.snapshot)).docs
        (sc.putAll t.buffer t.snapshot))) : Viewed sc R' s' := by
  have old : ∀ n t, s.transactions n = some t →
      R' n t.snapshot (sc.putAll t.buffer t.snapshot) := fun n t ht => hmono n t ht (h n t ht)
  have closing : ∀ n m t, Function.update s.transactions n none m = some t →
      R' m t.snapshot (sc.putAll t.buffer t.snapshot) := by
    intro n m t ht
    rcases update_cases ht with ⟨-, hnone⟩ | ⟨-, hold⟩
    · cases hnone
    · exact old m t hold
  cases heff with
  | lost | drew | found | wrote => exact old
  | @wroteIn n t w present =>
    intro m t' ht'
    rcases update_cases ht' with ⟨rfl, heq⟩ | ⟨-, hold⟩
    · cases heq
      rw [sc.putAll_append]
      exact hwrite m w t rfl rfl present (h m t present)
    · exact old m t' hold
  | began =>
    intro m t' ht'
    rcases update_cases ht' with ⟨rfl, heq⟩ | ⟨-, hold⟩
    · cases heq
      exact hrefl _
    · exact old m t' hold
  | committed => exact closing _
  | aborted n => exact closing n

end Viewed

/-- What follows the beginning of a transaction is what has been done since. -/
theorem since_append_began {n : ℕ} {evs : List (Event E W D)} (h : ∀ ev ∈ evs, ev ≠ .began n)
    (l : List (Event E W D)) : since n (evs ++ .began n :: l) = evs := by
  have htail : since n (.began n :: l) = ([] : List (Event E W D)) := since_began_self n l
  have hsplit : since n (evs ++ .began n :: l) = evs ++ since n (.began n :: l) := by
    refine List.takeWhile_append_of_pos fun ev hev => ?_
    have hne := h ev hev
    cases ev with
    | began m => exact decide_eq_true fun hm => hne (congrArg _ hm)
    | _ => rfl
  rw [hsplit, htail, List.append_nil]

section Growth

variable (sc) (le : D → D → Prop) (sighted : E → List D)

/-- Every document of the one is there in the other, grown. -/
def Grows (v v' : S) : Prop :=
  ∀ k d, sc.find k v = some d → ∃ d', sc.find k v' = some d' ∧ le d d'

/-- The documents that an event shows, as its transaction sees them. -/
def Event.Shows : Event E W D → Option ℕ → D → Prop
  | .saw session e, session', d => session = session' ∧ d ∈ sighted e
  | .wrote session _ r, session', d => session = session' ∧ d ∈ r.docs
  | _, _, _ => False

/-- Documents have grown since the snapshots were taken, and since they were shown. -/
structure Grown (s : Store S D) (J : List (Entry ι Call (Event E W D))) : Prop where
  view : ∀ n t, s.transactions n = some t → Grows sc le t.snapshot (sc.putAll t.buffer t.snapshot)
  committed : ∀ n t, s.transactions n = some t → Grows sc le t.snapshot s.committed
  shown : ∀ e ∈ J, ∀ session d v, e.event.Shows sighted session d → sc.view s session = some v →
    ∃ d', sc.find (sc.key d) v = some d' ∧ le d d'

variable (seen) in
/-- The order in which documents grow, and the sightings of them. -/
structure Ordered : Prop where
  refl : ∀ d, le d d
  trans : ∀ {d d' d''}, le d d' → le d' d'' → le d d''
  sighted : ∀ {β : Type} {q : Q β} {v : S} {b : β}, sc.indexed v = true → sc.answers β q v b →
    ∀ e ∈ seen β q b, ∀ d ∈ sighted e, sc.find (sc.key d) v = some d

variable {sc le sighted} {s s' : Store S D} {J : List (Entry ι Call (Event E W D))}

theorem Grows.trans {v v' v'' : S} (ho : Ordered sc seen le sighted)
    (h : Grows sc le v v') (h' : Grows sc le v' v'') : Grows sc le v v'' := by
  intro k d hd
  obtain ⟨d₁, hd₁, hle₁⟩ := h k d hd
  obtain ⟨d₂, hd₂, hle₂⟩ := h' k d₁ hd₁
  exact ⟨d₂, hd₂, ho.trans hle₁ hle₂⟩

theorem Grown.init (s : S) :
    Grown sc le sighted (Store.init s) ([] : List (Entry ι Call (Event E W D))) :=
  ⟨nofun, nofun, nofun⟩

variable [DecidableEq K]

/-- What a commit leaves has grown from the store. -/
theorem Grows.commit (hlaw : sc.Lawful) (hrefl : ∀ d, le d d) {t : Transaction S D} {c : S}
    (hview : Grows sc le t.snapshot (sc.putAll t.buffer t.snapshot)) (hfree : sc.Unconflicted t c) :
    Grows sc le c (sc.putAll t.buffer c) := by
  intro k d hd
  rcases hlaw.commit_find hfree k with ⟨hnew, hold⟩ | ⟨hnew, -⟩
  · rw [hnew]
    exact hview k d (hold ▸ hd)
  · rw [hnew]
    exact ⟨d, hd, hrefl d⟩

/-- What a commit leaves has grown from the transaction's view. -/
theorem Grows.merge (hlaw : sc.Lawful) (ho : Ordered sc seen le sighted)
    {t : Transaction S D} {c : S} (hcommitted : Grows sc le t.snapshot c)
    (hfree : sc.Unconflicted t c) :
    Grows sc le (sc.putAll t.buffer t.snapshot) (sc.putAll t.buffer c) := by
  intro k d hd
  rcases hlaw.commit_find hfree k with ⟨hnew, -⟩ | ⟨hnew, hold⟩
  · rw [hnew]
    exact ⟨d, hd, ho.refl d⟩
  · rw [hnew]
    exact hcommitted k d (hold ▸ hd)

/-- A write makes documents grow if each that it leaves is above the one before. -/
theorem Grows.write (hlaw : sc.Lawful) (hrefl : ∀ d, le d d) {w : W} {v : S}
    (h : ∀ d ∈ (sc.write w v).docs, ∀ x, sc.find (sc.key d) v = some x → le x d)
    (hindexed : sc.indexed v = true) : Grows sc le v (sc.putAll (sc.write w v).docs v) := by
  intro k x hx
  by_cases hk : k ∈ (sc.write w v).docs.map sc.key
  · obtain ⟨d, hd, rfl⟩ := List.mem_map.mp hk
    exact ⟨d, hlaw.find_putAll_of_mem (hlaw.keys_write w v hindexed) hd v, h d hd x hx⟩
  · exact ⟨x, (hlaw.find_putAll_of_notMem hk v).trans hx, hrefl x⟩

/-- A step makes the store grow, if writes outside of the transactions do and views have. -/
theorem Viewed.committed_step (hlaw : sc.Lawful) (hrefl : ∀ d, le d d)
    (h : Viewed sc (fun _ => Grows sc le) s) {op : Op Q W D X β} {r : Option β}
    {evs : List (Event E W D)} (heff : Effect sc seen s op r evs s')
    (hgrow : ∀ w, r.isSome = true → op.writes = some (none, w) →
      Grows sc le s.committed (sc.putAll (sc.write w s.committed).docs s.committed)) :
    Grows sc le s.committed s'.committed := by
  have hsame : Grows sc le s.committed s.committed := fun k d hd => ⟨d, hd, hrefl d⟩
  cases heff with
  | wrote w => exact hgrow w rfl rfl
  | committed present unconflicted indexed =>
    exact Grows.commit hlaw hrefl (h _ _ present) unconflicted
  | _ => exact hsame

variable [DecidableEq ι] {i : ι} {call : Call}

/-- What is known of an event to whoever shares its view of the store. -/
def Lasting (sc : Schema Q W S D K) (P : Event E W D → S → Prop) (s : Store S D)
    (J : List (Entry ι Call (Event E W D))) : Prop :=
  ∀ e ∈ J, ∀ v, sc.view s e.event.session = some v → P e.event v

/-- It stays known while documents grow. -/
theorem Lasting.step (hlaw : sc.Lawful) (hrefl : ∀ d, le d d) (hledger : Ledger sc s J)
    (hviewed : Viewed sc (fun _ => Grows sc le) s) {P : Event E W D → S → Prop}
    (h : Lasting sc P s J) {op : Op Q W D X β} {r : Option β} {evs : List (Event E W D)}
    (heff : Effect sc seen s op r evs s')
    (hgrow : ∀ session w v, r.isSome = true → op.writes = some (session, w) →
      sc.view s session = some v → Grows sc le v (sc.putAll (sc.write w v).docs v))
    (hmono : ∀ ev v v', Grows sc le v v' → P ev v → P ev v')
    (hsaw : ∀ session {β : Type} (q : Q β) b v, sc.view s session = some v → sc.answers β q v b →
      ∀ e ∈ seen β q b, P (.saw session e) v)
    (hwrote : ∀ session w v, r.isSome = true → op.writes = some (session, w) →
      sc.view s session = some v →
      P (.wrote session w (sc.write w v)) (sc.putAll (sc.write w v).docs v))
    (hbegan : P (.began s.started) s.committed) :
    Lasting sc P s' (record i call evs ++ J) := by
  have hstep : Grows sc le s.committed s'.committed :=
    hviewed.committed_step hlaw hrefl heff fun w hr hw => hgrow none w _ hr hw rfl
  have old : (∀ n t, s'.transactions n = some t → s.transactions n = some t) →
      ∀ e ∈ J, ∀ v, sc.view s' e.event.session = some v → P e.event v := by
    intro hsame e he v hv
    cases hsession : e.event.session with
    | none =>
      rw [hsession] at hv
      cases hv
      exact hmono _ _ _ hstep (h e he _ (by rw [hsession]; rfl))
    | some n =>
      rw [hsession] at hv
      obtain ⟨t, ht, rfl⟩ := Option.map_eq_some_iff.mp hv
      exact h e he _ (by rw [hsession, Schema.view, hsame n t ht]; rfl)
  have closing : ∀ n m t, Function.update s.transactions n none m = some t →
      s.transactions m = some t := by
    intro n m t ht
    rcases update_cases ht with ⟨-, hnone⟩ | ⟨-, hold⟩
    · cases hnone
    · exact hold
  intro e he v hv
  rcases List.mem_append.mp he with hnew | hold
  · have hev := (mem_record.mp hnew).2.2
    cases heff with
    | found hview hanswers =>
      obtain ⟨x, hx, heq⟩ := List.mem_map.mp hev
      rw [← heq] at hv ⊢
      cases hview.symm.trans hv
      exact hsaw _ _ _ _ hview hanswers x hx
    | wrote w =>
      rw [List.mem_singleton.mp hev] at hv ⊢
      cases hv
      exact hwrote none w _ rfl rfl rfl
    | @wroteIn n t w present =>
      rw [List.mem_singleton.mp hev] at hv ⊢
      obtain ⟨t', ht', rfl⟩ := Option.map_eq_some_iff.mp hv
      rcases update_cases ht' with ⟨-, heq⟩ | ⟨hne, -⟩
      · cases heq
        rw [sc.putAll_append]
        exact hwrote (some n) w _ rfl rfl (by rw [Schema.view, present]; rfl)
      · exact absurd rfl hne
    | began =>
      rw [List.mem_singleton.mp hev] at hv ⊢
      obtain ⟨t', ht', rfl⟩ := Option.map_eq_some_iff.mp hv
      rcases update_cases ht' with ⟨-, heq⟩ | ⟨hne, -⟩
      · cases heq
        exact hbegan
      · exact absurd rfl hne
    | @committed n =>
      rw [List.mem_singleton.mp hev] at hv
      obtain ⟨t', ht', rfl⟩ := Option.map_eq_some_iff.mp hv
      rcases update_cases ht' with ⟨-, hnone⟩ | ⟨hne, -⟩
      · cases hnone
      · exact absurd rfl hne
    | _ => cases hev
  · cases heff with
    | lost | drew | found => exact h e hold v hv
    | wrote => exact old (fun _ _ h => h) e hold v hv
    | @wroteIn n t w present =>
      cases hsession : e.event.session with
      | none =>
        rw [hsession] at hv
        cases hv
        exact hmono _ _ _ hstep (h e hold _ (by rw [hsession]; rfl))
      | some m =>
        rw [hsession] at hv
        obtain ⟨t', ht', rfl⟩ := Option.map_eq_some_iff.mp hv
        rcases update_cases ht' with ⟨rfl, heq⟩ | ⟨-, hsame⟩
        · cases heq
          rw [sc.putAll_append]
          have hview : sc.view s (some m) = some (sc.putAll t.buffer t.snapshot) := by
            rw [Schema.view, present]
            rfl
          exact hmono _ _ _ (hgrow (some m) w _ rfl rfl hview)
            (h e hold _ (by rw [hsession]; exact hview))
        · exact h e hold _ (by rw [hsession, Schema.view, hsame]; rfl)
    | began =>
      cases hsession : e.event.session with
      | none =>
        rw [hsession] at hv
        cases hv
        exact h e hold _ (by rw [hsession]; rfl)
      | some m =>
        rw [hsession] at hv
        obtain ⟨t', ht', rfl⟩ := Option.map_eq_some_iff.mp hv
        rcases update_cases ht' with ⟨rfl, -⟩ | ⟨-, hsame⟩
        · exact absurd (hledger.session_lt e hold _ hsession) (lt_irrefl _)
        · exact h e hold _ (by rw [hsession, Schema.view, hsame]; rfl)
    | committed => exact old (closing _) e hold v hv
    | aborted n => exact old (closing n) e hold v hv

theorem Event.Shows.session_eq {ev : Event E W D} {session : Option ℕ} {d : D}
    (h : ev.Shows sighted session d) : ev.session = session := by
  cases ev with
  | saw | wrote => exact h.1
  | _ => cases h

theorem Grown.step (hlaw : sc.Lawful) (ho : Ordered sc seen le sighted)
    (hledger : Ledger sc s J) (h : Grown sc le sighted s J) {op : Op Q W D X β} {r : Option β}
    {evs : List (Event E W D)} (heff : Effect sc seen s op r evs s')
    (hgrow : ∀ session w v, r.isSome = true → op.writes = some (session, w) →
      sc.view s session = some v → Grows sc le v (sc.putAll (sc.write w v).docs v)) :
    Grown sc le sighted s' (record i call evs ++ J) where
  view := by
    refine Viewed.step (R := fun _ => Grows sc le) h.view heff (fun _ k d hd => ⟨d, hd, ho.refl d⟩)
      (fun _ _ _ hR => hR) ?_
    intro n w t hr hw ht hR
    exact hR.trans ho (hgrow (some n) w _ hr hw (by rw [Schema.view, ht]; rfl))
  committed := by
    have hstep : Grows sc le s.committed s'.committed :=
      Viewed.committed_step hlaw ho.refl h.view heff fun w hr hw => hgrow none w _ hr hw rfl
    intro m t' ht'
    cases heff with
    | lost | drew | found => exact h.committed m t' ht'
    | wrote w => exact (h.committed m t' ht').trans ho hstep
    | @wroteIn n t w present =>
      rcases update_cases ht' with ⟨rfl, heq⟩ | ⟨-, hold⟩
      · cases heq
        exact h.committed m t present
      · exact h.committed m t' hold
    | began =>
      rcases update_cases ht' with ⟨rfl, heq⟩ | ⟨-, hold⟩
      · cases heq
        exact fun k d hd => ⟨d, hd, ho.refl d⟩
      · exact h.committed m t' hold
    | committed =>
      rcases update_cases ht' with ⟨-, hnone⟩ | ⟨-, hold⟩
      · cases hnone
      · exact (h.committed m t' hold).trans ho hstep
    | aborted n =>
      rcases update_cases ht' with ⟨-, hnone⟩ | ⟨-, hold⟩
      · cases hnone
      · exact h.committed m t' hold
  shown := by
    have hshown : Lasting sc (fun ev v => ∀ d, ev.Shows sighted ev.session d →
        ∃ d', sc.find (sc.key d) v = some d' ∧ le d d') s J :=
      fun e he v hv d hd => h.shown e he _ d v hd hv
    have hlasting : Lasting sc (fun ev v => ∀ d, ev.Shows sighted ev.session d →
        ∃ d', sc.find (sc.key d) v = some d' ∧ le d d') s' (record i call evs ++ J) := by
      refine hshown.step hlaw ho.refl hledger h.view heff hgrow ?_ ?_ ?_ ?_
      · intro ev v v' hgrows hP d hd
        obtain ⟨d₁, hd₁, hle₁⟩ := hP d hd
        obtain ⟨d₂, hd₂, hle₂⟩ := hgrows _ _ hd₁
        exact ⟨d₂, hd₂, ho.trans hle₁ hle₂⟩
      · intro session _ q b v hv hanswers e he d hd
        exact ⟨d, ho.sighted (hledger.view_indexed hv) hanswers e he d hd.2, ho.refl d⟩
      · intro session w v _ _ hv d hd
        exact ⟨d, hlaw.find_putAll_of_mem (hlaw.keys_write w v (hledger.view_indexed hv)) hd.2 v,
          ho.refl d⟩
      · intro d hd
        cases hd
    intro e he session d v hd hv
    obtain rfl := hd.session_eq
    exact hlasting e he v hv d hd

/-- Every document of the kind `Φ` has another beside it that `Ψ` relates it to. -/
def Supported (sc : Schema Q W S D K) (Φ : D → Prop) (Ψ : D → D → Prop) (v : S) : Prop :=
  ∀ k d, sc.find k v = some d → Φ d → ∃ k' d', sc.find k' v = some d' ∧ Ψ d d'

/-- A commit keeps together what belongs together. -/
theorem Supported.commit {Φ : D → Prop} {Ψ : D → D → Prop} (hlaw : sc.Lawful)
    (ho : Ordered sc seen le sighted) (hΨ : ∀ {d d' d''}, le d' d'' → Ψ d d' → Ψ d d'')
    {t : Transaction S D} {c : S} (hview : Grows sc le t.snapshot (sc.putAll t.buffer t.snapshot))
    (hcommitted : Grows sc le t.snapshot c) (hfree : sc.Unconflicted t c)
    (h : Supported sc Φ Ψ c) (h' : Supported sc Φ Ψ (sc.putAll t.buffer t.snapshot)) :
    Supported sc Φ Ψ (sc.putAll t.buffer c) := by
  intro k d hd hΦ
  rcases hlaw.commit_find hfree k with ⟨hnew, -⟩ | ⟨hnew, -⟩
  · obtain ⟨k', d', hd', hrel⟩ := h' k d (hnew ▸ hd) hΦ
    obtain ⟨d'', hd'', hle⟩ := Grows.merge hlaw ho hcommitted hfree k' d' hd'
    exact ⟨k', d'', hd'', hΨ hle hrel⟩
  · obtain ⟨k', d', hd', hrel⟩ := h k d (hnew ▸ hd) hΦ
    obtain ⟨d'', hd'', hle⟩ := Grows.commit hlaw ho.refl hview hfree k' d' hd'
    exact ⟨k', d'', hd'', hΨ hle hrel⟩

/-- A write keeps together what belongs together, if it leaves nothing that does not. -/
theorem Supported.write {Φ : D → Prop} {Ψ : D → D → Prop} (hlaw : sc.Lawful)
    (hΨ : ∀ {d d' d''}, le d' d'' → Ψ d d' → Ψ d d'') {w : W} {v : S}
    (hgrows : Grows sc le v (sc.putAll (sc.write w v).docs v)) (h : Supported sc Φ Ψ v)
    (hnew : ∀ d ∈ (sc.write w v).docs, Φ d → ∃ k' d', sc.find k' v = some d' ∧ Ψ d d') :
    Supported sc Φ Ψ (sc.putAll (sc.write w v).docs v) := by
  intro k d hd hΦ
  have hbeside : ∃ k' d', sc.find k' v = some d' ∧ Ψ d d' := by
    rcases hlaw.find_putAll_cases hd with hmem | hold
    · exact hnew d hmem hΦ
    · exact h k d hold hΦ
  obtain ⟨k', d', hd', hrel⟩ := hbeside
  obtain ⟨d'', hd'', hle⟩ := hgrows k' d' hd'
  exact ⟨k', d'', hd'', hΨ hle hrel⟩

end Growth

end Sessions
