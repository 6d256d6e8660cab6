import BookLibrary.Operations.Warrants

/-!
# Walking through the saga

Every write of the saga is made on what its request has seen. A program that begins no
transaction and records no event is steady: what is done within a transaction is steady
but for the terminal event, which has the terminal status written after it.
-/

namespace Operations

open AuthIdentifiers Documents Interleaving

/-- The write records an event. -/
def Write.isRecord : Write → Bool
  | .recordEvent _ => true
  | _ => false

/-- The event tells of a transaction that begins, or of an event that is recorded. -/
def Marked : Event → Prop
  | .began _ => True
  | .wrote _ (.recordEvent _) _ => True
  | _ => False

abbrev Steady (l m : List Event) : Prop := Extends Marked l m

/-- What has been done in the transaction after `l` leaves it fit for its commit. -/
def Settling (n : ℕ) (l m : List Event) : Prop :=
  ∃ evs, m = evs ++ l ∧ (∀ ev ∈ evs, ev ≠ .began n) ∧ Settled n evs

theorem Settling.of_steady {n : ℕ} {l m : List Event} (h : Steady l m) : Settling n l m := by
  obtain ⟨evs, rfl, hevs⟩ := h
  refine ⟨evs, rfl, fun ev hev heq => hevs ev hev ?_, fun e r hmem => absurd trivial (hevs _ hmem)⟩
  rw [heq]
  trivial

theorem Settling.after {n : ℕ} {l l' m : List Event} (h : Steady l l') (h' : Settling n l' m) :
    Settling n l m := by
  obtain ⟨evs, rfl, hevs⟩ := h
  obtain ⟨evs', rfl, hbegan, hsettled⟩ := h'
  refine ⟨evs' ++ evs, (List.append_assoc _ _ _).symm, fun ev hev => ?_, fun e r hmem => ?_⟩
  · rcases List.mem_append.mp hev with hnew | hold
    · exact hbegan ev hnew
    · rintro rfl
      exact hevs _ hold trivial
  · rcases List.mem_append.mp hmem with hnew | hold
    · obtain ⟨u, r', hu, hr', hwrote⟩ := hsettled e r hnew
      exact ⟨u, r', hu, hr', List.mem_append_left _ hwrote⟩
    · exact absurd trivial (hevs _ hold)

theorem Settling.settled {n : ℕ} {l m : List Event} (h : Settling n (.began n :: l) m) :
    Settled n (Sessions.since n m) := by
  obtain ⟨evs, rfl, hbegan, hsettled⟩ := h
  rw [Sessions.since_append_began hbegan]
  exact hsettled

theorem Settling.finish {n : ℕ} {l m : List Event} {u : OperationUpdate} {e : SecurityActivityEvent}
    {r r' : Sessions.WriteResult Document} (hu : u.finishes = e.eventId) (hr' : r' ≠ .duplicateKey)
    (h : Steady (.wrote (some n) (.updateOperation u) r' :: .wrote (some n) (.recordEvent e) r :: l) m) :
    Settling n l m := by
  obtain ⟨evs, rfl, hevs⟩ := h
  refine ⟨evs ++ [.wrote (some n) (.updateOperation u) r', .wrote (some n) (.recordEvent e) r],
    by simp, fun ev hev => ?_, fun e' r₁ hmem => ?_⟩
  · rintro rfl
    rcases List.mem_append.mp hev with hnew | hold
    · exact hevs _ hnew trivial
    · simp at hold
  · rcases List.mem_append.mp hmem with hnew | hold
    · exact absurd trivial (hevs _ hnew)
    · have he : e' = e ∧ r₁ = r := by simpa using hold
      rw [he.1]
      exact ⟨u, r', hu, hr', by simp⟩

section Rules

variable {Call ρ α β γ : Type} (body : Call → Prog Op ρ) (env : Environment)
  (inputs : OperationInput → Prop)

/-- The program makes its writes on what it has seen, and ends as `Q` says. -/
abbrev Walk (Q : List Event → Except Failure α → Prop) (fl : Bool) (l : List Event)
    (x : Handler α) : Prop :=
  Conforms (service body) (fun _ m _ op => Legal env inputs m op) (fun _ m r => Q m r) fl l x.run

/-- Whoever is returned a value has seen what `R` says. -/
def Returns (R : α → List Event → Prop) (m : List Event) (r : Except Failure α) : Prop :=
  ∀ a, r = .ok a → R a m

/-- A walk through a steady program. -/
abbrev Paces (Q : List Event → Except Failure α → Prop) (fl : Bool) (l : List Event)
    (x : Handler α) : Prop :=
  Walk body env inputs (fun m r => Steady l m ∧ Q m r) fl l x

abbrev Steps (fl : Bool) (l : List Event) (x : Handler α) : Prop :=
  Walk body env inputs (fun m _ => Steady l m) fl l x

variable {body env inputs} {fl : Bool} {l : List Event}

theorem Walk.next {R : List Event → Except Failure β → Prop}
    {Q : List Event → Except Failure α → Prop} {x : Handler β} {f : β → Handler α}
    (hx : Walk body env inputs R fl l x)
    (hok : ∀ fl m b, l <:+ m → R m (.ok b) → Walk body env inputs Q fl m (f b))
    (herr : ∀ m e, l <:+ m → R m (.error e) → Q m (.error e)) :
    Walk body env inputs Q fl l (x >>= f) :=
  Conforms.run_next hx hok fun _ => herr

theorem Walk.trivial {R : List Event → Except Failure α → Prop} {x : Handler α}
    (hx : Walk body env inputs R fl l x) : Walk body env inputs (fun _ _ => True) fl l x :=
  hx.mono fun _ _ _ _ => True.intro

theorem Paces.next {R : List Event → Except Failure β → Prop}
    {Q : List Event → Except Failure α → Prop} {x : Handler β} {f : β → Handler α}
    (hx : Paces body env inputs R fl l x)
    (hok : ∀ fl m b, Steady l m → R m (.ok b) → Paces body env inputs Q fl m (f b))
    (herr : ∀ m e, Steady l m → R m (.error e) → Q m (.error e)) :
    Paces body env inputs Q fl l (x >>= f) := by
  refine Conforms.run_then hx (fun fl m b h => ?_) fun fl m e h => ⟨h.1, herr m e h.1 h.2⟩
  exact (hok fl m b h.1 h.2).mono fun _ _ _ h' => ⟨h.1.trans h'.1, h'.2⟩

theorem Paces.steps {R : List Event → Except Failure α → Prop} {x : Handler α}
    (hx : Paces body env inputs R fl l x) : Steps body env inputs fl l x :=
  hx.mono fun _ _ _ h => h.1

theorem Steps.paces {Q : List Event → Except Failure α → Prop} {x : Handler α}
    (hx : Steps body env inputs fl l x) (h : ∀ m r, Steady l m → Q m r) :
    Paces body env inputs Q fl l x :=
  hx.mono fun _ _ _ hm => ⟨hm, h _ _ hm⟩

theorem Steps.next {x : Handler β} {f : β → Handler α} (hx : Steps body env inputs fl l x)
    (hf : ∀ fl m b, Steady l m → Steps body env inputs fl m (f b)) :
    Steps body env inputs fl l (x >>= f) := by
  refine Conforms.run_then hx (fun fl m b h => ?_) fun _ _ _ h => h
  exact (hf fl m b h).mono fun _ _ _ h' => h.trans h'

theorem Returns.ok {R : α → List Event → Prop} {a : α} {m : List Event} (h : R a m) :
    Returns R m (.ok a) := by
  intro a' ha
  cases ha
  exact h

theorem Returns.error {R : α → List Event → Prop} {e : Failure} {m : List Event} :
    Returns R m (.error e) := by
  intro a ha
  cases ha

/-- What a program has to see only when it returns. -/
theorem Paces.then {R : β → List Event → Prop} {x : Handler β} {f : β → Handler α}
    (hx : Paces body env inputs (Returns R) fl l x)
    (hf : ∀ fl m b, Steady l m → R b m → Steps body env inputs fl m (f b)) :
    Steps body env inputs fl l (x >>= f) := by
  refine Conforms.run_then hx (fun fl m b h => ?_) fun _ _ _ h => h.1
  exact (hf fl m b h.1 (h.2 b rfl)).mono fun _ _ _ h' => h.1.trans h'

/-- A steady program, and then one that settles what it records. -/
theorem Paces.settle {n : ℕ} {R : β → List Event → Prop} {x : Handler β} {f : β → Handler α}
    (hx : Paces body env inputs (Returns R) fl l x)
    (hf : ∀ fl m b, Steady l m → R b m →
      Walk body env inputs (Returns fun _ m' => Settling n m m') fl m (f b)) :
    Walk body env inputs (Returns fun _ m' => Settling n l m') fl l (x >>= f) := by
  refine Conforms.run_then hx (fun fl m b h => ?_) fun _ _ _ _ => .error
  exact (hf fl m b h.1 (h.2 b rfl)).mono fun _ _ _ h' a ha => (h' a ha).after h.1

theorem Steps.settle {n : ℕ} {x : Handler β} {f : β → Handler α}
    (hx : Steps body env inputs fl l x)
    (hf : ∀ fl m b, Steady l m →
      Walk body env inputs (Returns fun _ m' => Settling n m m') fl m (f b)) :
    Walk body env inputs (Returns fun _ m' => Settling n l m') fl l (x >>= f) :=
  Paces.settle (R := fun _ _ => True) (hx.paces fun _ _ _ _ _ => True.intro)
    fun fl m b hm _ => hf fl m b hm

theorem Steps.settles {n : ℕ} {x : Handler α} (hx : Steps body env inputs fl l x) :
    Walk body env inputs (Returns fun _ m' => Settling n l m') fl l x :=
  hx.mono fun _ _ _ h _ _ => .of_steady h

theorem Steps.finish {session : Option ℕ} {u : OperationUpdate} {e : SecurityActivityEvent}
    {r r' : Sessions.WriteResult Document} {x : Handler α} (hu : u.finishes = e.eventId)
    (hr' : r' ≠ .duplicateKey) (hx : Steps body env inputs fl
      (.wrote session (.updateOperation u) r' :: .wrote session (.recordEvent e) r :: l) x) :
    Walk body env inputs (Returns fun _ m => ∀ n ∈ session, Settling n l m) fl
      (.wrote session (.updateOperation u) r' :: .wrote session (.recordEvent e) r :: l) x := by
  refine hx.mono fun _ m _ hm _ _ n hn => ?_
  cases hn
  exact .finish hu hr' hm

theorem Steps.pure {a : α} : Steps body env inputs fl l (pure a : Handler α) :=
  Conforms.run_pure (.refl l)

theorem Steps.throw {e : Failure} : Steps body env inputs fl l (throw e : Handler α) :=
  Conforms.run_throw (.refl l)

theorem Steps.ite {c : Prop} [Decidable c] {x y : Handler α}
    (hx : c → Steps body env inputs fl l x) (hy : ¬ c → Steps body env inputs fl l y) :
    Steps body env inputs fl l (if c then x else y) := Conforms.run_ite hx hy

theorem Paces.pure {Q : List Event → Except Failure α → Prop} {a : α} (h : Q l (.ok a)) :
    Paces body env inputs Q fl l (pure a : Handler α) := Conforms.run_pure ⟨.refl l, h⟩

theorem Paces.throw {Q : List Event → Except Failure α → Prop} {e : Failure} (h : Q l (.error e)) :
    Paces body env inputs Q fl l (throw e : Handler α) := Conforms.run_throw ⟨.refl l, h⟩

theorem Paces.ite {Q : List Event → Except Failure α → Prop} {c : Prop} [Decidable c]
    {x y : Handler α} (hx : c → Paces body env inputs Q fl l x)
    (hy : ¬ c → Paces body env inputs Q fl l y) :
    Paces body env inputs Q fl l (if c then x else y) := Conforms.run_ite hx hy

theorem Steps.handle {x : Handler α} {f : Failure → Handler α} (hx : Steps body env inputs fl l x)
    (hf : ∀ fl m e, Steady l m → Steps body env inputs fl m (f e)) :
    Steps body env inputs fl l (tryCatch x f) := by
  refine Conforms.run_handle hx (fun _ _ _ h => h) fun fl m e h => ?_
  exact (hf fl m e h).mono fun _ _ _ h' => h.trans h'

theorem Steps.forM {xs : List β} {f : β → Handler Unit}
    (h : ∀ x ∈ xs, ∀ fl m, Steady l m → Steps body env inputs fl m (f x)) :
    Steps body env inputs fl l (xs.forM f) := by
  induction xs generalizing fl l with
  | nil => exact .pure
  | cons x xs ih =>
    refine Steps.next (h x List.mem_cons_self fl l (.refl l)) fun fl m _ hm => ?_
    exact ih fun y hy fl m' hm' => h y (List.mem_cons_of_mem _ hy) fl m' (hm.trans hm')

theorem Steps.mapM {xs : List β} {f : β → Handler γ}
    (h : ∀ x ∈ xs, ∀ fl m, Steady l m → Steps body env inputs fl m (f x)) :
    Steps body env inputs fl l (xs.mapM f) := by
  induction xs generalizing fl l with
  | nil => exact .pure
  | cons x xs ih =>
    rw [List.mapM_cons]
    refine Steps.next (h x List.mem_cons_self fl l (.refl l)) fun fl m _ hm => ?_
    refine Steps.next (ih fun y hy fl m' hm' => ?_) fun _ _ _ _ => .pure
    exact h y (List.mem_cons_of_mem _ hy) fl m' (hm.trans hm')

theorem Walk.forM {xs : List β} {f : β → Handler Unit}
    (h : ∀ x ∈ xs, ∀ fl m, l <:+ m → Walk body env inputs (fun _ _ => True) fl m (f x)) :
    Walk body env inputs (fun _ _ => True) fl l (xs.forM f) := by
  induction xs generalizing fl l with
  | nil => exact Conforms.run_pure True.intro
  | cons x xs ih =>
    refine Walk.next (h x List.mem_cons_self fl l (List.suffix_refl l)) (fun fl m _ hm _ => ?_)
      fun _ _ _ _ => True.intro
    exact ih fun y hy fl m' hm' => h y (List.mem_cons_of_mem _ hy) fl m' (hm.trans hm')

end Rules

/-- The write of an event has been applied, though error 11000 may have come of it. -/
def Tried {α : Type} (e : SecurityActivityEvent) (session : Option ℕ) (l m : List Event) :
    Except Failure α → Prop
  | .ok _ => ∃ r, m = .wrote session (.recordEvent e) r :: l
  | .error error => error.isDuplicateKey = true → ∃ r, m = .wrote session (.recordEvent e) r :: l

section Calls

variable {Call ρ α β : Type} {body : Call → Prog Op ρ} {env : Environment}
  {inputs : OperationInput → Prop} {fl : Bool} {l : List Event} {session : Option ℕ}

/-- Outside of all transactions there is none to keep to. -/
theorem outside : ∀ n ∈ (none : Option ℕ), .began n ∈ l := nofun

/-- A call that neither writes nor commits has to keep to its transactions only. -/
theorem legal_of_read {op : Op β} (hd : Sessions.Disciplined l β op) (hw : op.writes = none)
    (hc : op.commits = none) : Legal env inputs l op where
  disciplined := hd
  warranted session w h := by
    rw [hw] at h
    cases h
  settled n h := by
    rw [hc] at h
    cases h

theorem legal_draw {x : Accounts.Draw β} : Legal env inputs l (.draw x : Op β) :=
  legal_of_read True.intro rfl rfl

theorem legal_find {q : Query β} (hs : ∀ n ∈ session, .began n ∈ l) :
    Legal env inputs l (.find session q : Op β) := legal_of_read hs rfl rfl

theorem legal_write {w : Write} (hs : ∀ n ∈ session, .began n ∈ l)
    (hw : Warranted env inputs l session w) :
    Legal env inputs l (.change (.write session w) : Op _) where
  disciplined := hs
  warranted session' w' h := by
    cases h
    exact hw
  settled n h := by cases h

theorem perform_paces {op : Op β} {Q : List Event → Except Failure β → Prop}
    (hlegal : Legal env inputs l op) (hsteady : ∀ r, ∀ ev ∈ op.note seen β r, ¬ Marked ev)
    (hok : ∀ b, (service body).Answers op b → Q (op.note seen β (some b) ++ l) (.ok b))
    (herr : ∀ m e, Q m (.error e)) : Paces body env inputs Q fl l (perform op) := by
  refine Sessions.perform_conforms hlegal (fun _ _ => legal_draw) (fun b hb => ?_) fun _ r e => ?_
  · exact ⟨.append (hsteady (some b)) l, hok b hb⟩
  · exact ⟨.append (hsteady r) l, herr _ _⟩

/-- A draw leaves nothing to be remembered. -/
theorem Walk.draw {x : Accounts.Draw β} {f : β → Handler α} {Q : List Event → Except Failure α → Prop}
    (hf : ∀ fl b, Walk body env inputs Q fl l (f b)) (herr : ∀ e, Q l (.error e)) :
    Walk body env inputs Q fl l (draw x >>= f) := by
  refine Conforms.run_then (R := fun _ m _ => m = l)
    (Sessions.perform_conforms legal_draw (fun _ _ => legal_draw) (fun _ _ => rfl)
      fun _ _ _ => rfl) (fun fl m b hm => ?_) fun fl m e hm => ?_
  · rw [hm]
    exact hf fl b
  · rw [hm]
    exact herr e

theorem Steps.draw {x : Accounts.Draw β} {f : β → Handler α}
    (hf : ∀ fl b, Steps body env inputs fl l (f b)) :
    Steps body env inputs fl l (draw x >>= f) := Walk.draw hf fun _ => .refl l

theorem Paces.draw {x : Accounts.Draw β} {f : β → Handler α}
    {Q : List Event → Except Failure α → Prop} (hf : ∀ fl b, Paces body env inputs Q fl l (f b))
    (herr : ∀ e, Q l (.error e)) : Paces body env inputs Q fl l (draw x >>= f) :=
  Walk.draw hf fun e => ⟨.refl l, herr e⟩

theorem find_paces {q : Query β} {Q : List Event → Except Failure β → Prop}
    (hs : ∀ n ∈ session, .began n ∈ l)
    (hok : ∀ b v, schema.answers β q v b → Q ((seen β q b).map (.saw session) ++ l) (.ok b))
    (herr : ∀ m e, Q m (.error e)) : Paces body env inputs Q fl l (find session q) := by
  have hsteady : ∀ r, ∀ ev ∈ (.find session q : Op β).note seen β r, ¬ Marked ev := by
    intro r ev hev
    cases r with
    | none => cases hev
    | some b =>
      obtain ⟨e, -, rfl⟩ := List.mem_map.mp hev
      exact id
  refine perform_paces (legal_find hs) hsteady (fun b hb => ?_) herr
  obtain ⟨s, s', ⟨v, -, ha⟩, -⟩ := hb
  exact hok b v ha

theorem find_steps {q : Query β} (hs : ∀ n ∈ session, .began n ∈ l) :
    Steps body env inputs fl l (find session q) :=
  (find_paces (Q := fun _ _ => True) hs (fun _ _ _ => True.intro) fun _ _ => True.intro).steps

/-- What a call to write answers. -/
theorem written_of_answers {w : Write} {r : Sessions.WriteResult Document}
    (h : (service body).Answers (.change (.write session w) : Op _) r) :
    ∃ v, r = schema.write w v := by
  obtain ⟨s, s', hexec⟩ := h
  cases session with
  | none => exact ⟨_, hexec.1⟩
  | some n =>
    obtain ⟨t, -, hr, -⟩ := hexec
    exact ⟨_, hr⟩

theorem write_paces {w : Write} {Q : List Event → Except Failure (List Document) → Prop}
    (hs : ∀ n ∈ session, .began n ∈ l) (hw : Warranted env inputs l session w)
    (hrecord : w.isRecord = false)
    (hok : ∀ v, schema.write w v ≠ .duplicateKey →
      Q (.wrote session w (schema.write w v) :: l) (.ok (schema.write w v).docs))
    (herr : ∀ m e, Q m (.error e)) : Paces body env inputs Q fl l (write session w) := by
  have hsteady : ∀ r, ∀ ev ∈ (.change (.write session w) : Op _).note seen _ r, ¬ Marked ev := by
    intro r ev hev
    cases r with
    | none => cases hev
    | some r =>
      rw [List.mem_singleton.mp hev]
      cases w with
      | recordEvent e => cases hrecord
      | _ => exact id
  refine Paces.next (R := Returns fun b m => ∃ v, b = schema.write w v ∧
    m = .wrote session w b :: l) (perform_paces (legal_write hs hw) hsteady (fun b hb => ?_)
      (fun _ _ => .error)) (fun fl m b hm h => ?_) fun m e _ _ => herr m e
  · obtain ⟨v, hv⟩ := written_of_answers hb
    exact .ok ⟨v, hv, rfl⟩
  · obtain ⟨v, rfl, rfl⟩ := h b rfl
    have hv := hok v
    generalize schema.write w v = r at hv
    cases r with
    | written docs => exact Conforms.run_pure ⟨.refl _, hv nofun⟩
    | unmatched => exact Conforms.run_pure ⟨.refl _, hv nofun⟩
    | duplicateKey =>
      exact Paces.draw (fun _ _ => .throw (herr _ _)) fun _ => herr _ _

theorem write_steps {w : Write} (hs : ∀ n ∈ session, .began n ∈ l)
    (hw : Warranted env inputs l session w) (hrecord : w.isRecord = false) :
    Steps body env inputs fl l (write session w) :=
  (write_paces (Q := fun _ _ => True) hs hw hrecord (fun _ _ => True.intro)
    fun _ _ => True.intro).steps

theorem updateOperation_steps {u : OperationUpdate} (hs : ∀ n ∈ session, .began n ∈ l)
    (hw : Warranted env inputs l session (.updateOperation u)) :
    Steps body env inputs fl l (updateOperation session u) :=
  Steps.next (write_steps hs hw rfl) fun _ _ _ _ => .pure

theorem updateIdentifier_steps {u : IdentifierUpdate} (hs : ∀ n ∈ session, .began n ∈ l) :
    Steps body env inputs fl l (updateIdentifier session u) :=
  Steps.next (write_steps hs .updateIdentifier rfl) fun _ _ _ _ => .pure

/-- The event of an update, which leaves an operation updated if it matched one. -/
theorem updateOperation_paces {u : OperationUpdate} (hs : ∀ n ∈ session, .began n ∈ l)
    (hw : Warranted env inputs l session (.updateOperation u)) :
    Paces body env inputs (Returns fun matched m => ∃ r',
      m = .wrote session (.updateOperation u) r' :: l ∧ r' ≠ .duplicateKey ∧
      (matched = true → ∃ d, u.selects d = true ∧ r' = .written [.operation (u.apply d)])) fl l
      (updateOperation session u) := by
  refine Paces.next (R := Returns fun docs m => ∃ v,
    docs = (schema.write (.updateOperation u) v).docs ∧
    m = .wrote session (.updateOperation u) (schema.write (.updateOperation u) v) :: l ∧
    schema.write (.updateOperation u) v ≠ .duplicateKey)
    (write_paces hs hw rfl (fun v hv => .ok ⟨v, rfl, rfl, hv⟩) fun _ _ => .error)
    (fun fl m docs hm h => ?_) fun _ _ _ _ => .error
  · obtain ⟨v, rfl, rfl, hv⟩ := h docs rfl
    refine Paces.pure (.ok ⟨_, rfl, hv, fun htrue => ?_⟩)
    have hne : (schema.write (.updateOperation u) v).docs ≠ [] := by
      intro hnil
      rw [hnil] at htrue
      cases htrue
    obtain ⟨d, -, hupdated⟩ := updated_of_docs hne
    exact ⟨d, hupdated⟩

/-- The event has been written, or was there already. -/
theorem recordIdempotent_walk {e : SecurityActivityEvent} (hs : ∀ n ∈ session, .began n ∈ l)
    (hw : Warranted env inputs l session (.recordEvent e)) :
    Walk body env inputs (Returns fun _ m => ∃ r, m = .wrote session (.recordEvent e) r :: l) fl l
      (SecurityActivityService.recordIdempotent session e) := by
  -- error 11000 tells that the write was tried as well
  have hcall : Walk body env inputs (Tried e session l) fl l (write session (.recordEvent e)) := by
    refine Conforms.run_then (R := fun _ m r => Returns (fun r m =>
      m = .wrote session (.recordEvent e) r :: l) m r ∧ ∀ error, r = .error error →
        error.isDuplicateKey = false) (Sessions.perform_conforms (legal_write hs hw)
      (fun _ _ => legal_draw) (fun r _ => ⟨.ok rfl, nofun⟩) fun _ _ error => ⟨.error, ?_⟩)
      (fun fl m r h => ?_) fun fl m error h => ?_
    · intro error' heq
      cases heq
      rfl
    · have hm := h.1 r rfl
      cases r with
      | written docs => exact Conforms.run_pure ⟨_, hm⟩
      | unmatched => exact Conforms.run_pure ⟨_, hm⟩
      | duplicateKey => exact Walk.draw (fun _ _ => Conforms.run_throw fun _ => ⟨_, hm⟩) fun _ _ => ⟨_, hm⟩
    · intro hdup
      rw [h.2 error rfl] at hdup
      cases hdup
  refine Conforms.run_handle (R := fun _ m r => Tried e session l m r)
    (Conforms.run_then hcall (fun _ _ _ h => Conforms.run_pure h) fun _ _ _ h => h)
    (fun fl m a h => .ok h) fun fl m error h => ?_
  exact Conforms.run_ite (fun hdup => Conforms.run_pure (.ok (h hdup))) fun _ =>
    Conforms.run_throw .error

/-- A transaction whose callback settles what it records. -/
theorem withTransaction_walk {callback : ℕ → Handler α}
    (hcallback : ∀ fl l' n, l <:+ l' → Walk body env inputs
      (Returns fun _ m => Settling n (.began n :: l') m) fl (.began n :: l') (callback n)) :
    Walk body env inputs (fun _ _ => True) fl l (withTransaction callback) := by
  refine Walk.draw (fun fl retries => ?_) fun _ => True.intro
  refine Conforms.mono (fun _ _ _ _ => True.intro) (Sessions.withTransaction_conforms
    (R := fun _ _ _ => True) (fun _ _ => legal_of_read True.intro rfl rfl)
    (fun _ _ _ => legal_of_read True.intro rfl rfl) (fun _ _ => legal_draw)
    (fun _ _ _ _ => True.intro) (fun fl l' n hl => ?_) (List.suffix_refl l))
  refine ((hcallback fl l' n hl).frame (List.suffix_refl _)).mono fun fl m r h => ?_
  refine ⟨(hl.trans (List.suffix_cons _ _)).trans h.2, fun a ha => ⟨⟨?_, ?_, ?_⟩, True.intro⟩⟩
  · exact h.2.subset List.mem_cons_self
  · intro session w hw
    cases hw
  · intro n' hn
    cases hn
    exact (h.1 a ha).settled

end Calls

/-- The calls by which an aggregate is changed in its transaction, or outside of all. -/
def Modest (session : Option ℕ) : (β : Type) → Op β → Prop
  | _, .find session' _ => session' = none ∨ session' = session
  | _, .change (.write session' w) => session' = session ∧ w.isAggregate = true
  | _, .change _ => False
  | _, .draw _ => True

/-- An adapter changes its aggregate, and does so in the transaction that it is given. -/
structure AggregateAdapter.Modest (aggregate : AggregateAdapter) : Prop where
  apply : ∀ assignment session,
    (aggregate.apply assignment session).run.Confined (Operations.Modest session)
  compensate : ∀ assignment session,
    (aggregate.compensate assignment session).run.Confined (Operations.Modest session)
  isApplied : ∀ isApplied ∈ aggregate.isApplied, ∀ assignment session,
    (isApplied assignment session).run.Confined (Operations.Modest session)

section Modest

variable {Call ρ α : Type} {body : Call → Prog Op ρ} {env : Environment}
  {inputs : OperationInput → Prop} {fl : Bool} {l : List Event} {session : Option ℕ}

theorem modest_steps {x : Handler α} (hx : x.run.Confined (Modest session))
    (hs : ∀ n ∈ session, .began n ∈ l) : Steps body env inputs fl l x := by
  refine Conforms.extends_of_confined hx (fun {fl m β op} hm hop => ?_) fun {β op r} hop ev hev => ?_
  · have hs' : ∀ n ∈ session, .began n ∈ m := fun n hn => hm.subset (hs n hn)
    cases op with
    | find session' q =>
      rcases hop with rfl | rfl
      · exact legal_find nofun
      · exact legal_find hs'
    | draw x => exact legal_draw
    | change c =>
      cases c with
      | write session' w =>
        obtain ⟨rfl, hw⟩ := hop
        exact legal_write hs' (.aggregate hw)
      | _ => cases hop
  · cases op with
    | find session' q =>
      cases r with
      | none => cases hev
      | some b =>
        obtain ⟨e, -, rfl⟩ := List.mem_map.mp hev
        exact id
    | draw x => cases hev
    | change c =>
      cases c with
      | write session' w =>
        cases r with
        | none => cases hev
        | some b =>
          rw [List.mem_singleton.mp hev]
          cases w with
          | recordEvent e => cases hop.2
          | _ => exact id
      | _ => cases hop

end Modest

end Operations
