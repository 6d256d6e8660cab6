import BookLibrary.Interleaving.Schedule
import BookLibrary.Transactions.Handlers

/-!
# Executing handlers

Each call as a function, given what the queries answer and what is drawn.
-/

namespace Sessions

open Interleaving

variable {Q : Type → Type} {W S D K E : Type} {X : Type → Type} {Choice ι Call ρ : Type}

/-- `Schema.change` as a function. -/
def Schema.perform [DecidableEq D] (sc : Schema Q W S D K) :
    (β : Type) → Change W D β → Store S D → Option (β × Store S D)
  | _, .write none w, s =>
    let r := sc.write w s.committed
    some (r, { s with committed := sc.putAll r.docs s.committed })
  | _, .write (some n) w, s =>
    (s.transactions n).map fun t =>
      let r := sc.write w (sc.putAll t.buffer t.snapshot)
      (r, { s with
        transactions := Function.update s.transactions n
          (some { t with buffer := r.docs ++ t.buffer }) })
  | _, .startTransaction, s =>
    some (s.started, { s with
      transactions := Function.update s.transactions s.started (some ⟨s.committed, []⟩)
      started := s.started + 1 })
  | _, .commitTransaction n, s =>
    (s.transactions n).bind fun t =>
      if (t.buffer.all fun d => decide
          (sc.find (sc.key d) s.committed = sc.find (sc.key d) t.snapshot)) &&
          sc.indexed (sc.putAll t.buffer s.committed) then
        some ((), { s with
          committed := sc.putAll t.buffer s.committed
          transactions := Function.update s.transactions n none })
      else none
  | _, .abortTransaction n, s =>
    some ((), { s with transactions := Function.update s.transactions n none })

theorem Schema.perform_change [DecidableEq D] {sc : Schema Q W S D K} {β : Type} {c : Change W D β}
    {s s' : Store S D} {b : β} (h : sc.perform β c s = some (b, s')) : sc.change β c s b s' := by
  cases c with
  | write session w =>
    cases session with
    | none =>
      cases h
      exact ⟨rfl, rfl⟩
    | some n =>
      obtain ⟨t, ht, heq⟩ := Option.map_eq_some_iff.mp h
      cases heq
      exact ⟨t, ht, rfl, rfl⟩
  | startTransaction =>
    cases h
    exact ⟨rfl, rfl⟩
  | commitTransaction n =>
    obtain ⟨t, ht, hcommit⟩ := Option.bind_eq_some_iff.mp h
    split at hcommit
    · next hcheck =>
      cases hcommit
      rw [Bool.and_eq_true, List.all_eq_true] at hcheck
      exact ⟨t, ht, fun d hd => of_decide_eq_true (hcheck.1 d hd), hcheck.2, rfl⟩
    · cases hcommit
  | abortTransaction n =>
    cases h
    exact rfl

/-- How queries answer and draws come out, and which draws may fail. -/
structure Player (sc : Schema Q W S D K) (X : Type → Type) (drawFails : (β : Type) → X β → Prop)
    (Choice : Type) where
  answer : (β : Type) → Q β → S → β
  answer_answers : ∀ {β} (q : Q β) s, sc.answers β q s (answer β q s)
  drawn : (β : Type) → X β → Choice → β
  drawsFail : (β : Type) → X β → Bool
  drawsFail_fails : ∀ {β} {x : X β}, drawsFail β x = true → drawFails β x

namespace Player

variable {sc : Schema Q W S D K} {drawFails : (β : Type) → X β → Prop}
  (p : Player sc X drawFails Choice)

/-- `Op.exec` as a function. -/
def execute [DecidableEq D] (β : Type) (op : Op Q W D X β) (s : Store S D) (x : Choice) :
    Option (β × Store S D) :=
  match op with
  | .find session q => (sc.view s session).map fun v => (p.answer β q v, s)
  | .change c => sc.perform β c s
  | .draw op => some (p.drawn β op x, s)

theorem execute_exec [DecidableEq D] {β : Type} {op : Op Q W D X β} {s s' : Store S D} {x : Choice}
    {b : β} (h : p.execute β op s x = some (b, s')) : Op.exec sc β op s b s' := by
  cases op with
  | find session q =>
    obtain ⟨v, hv, heq⟩ := Option.map_eq_some_iff.mp h
    cases heq
    exact ⟨⟨v, hv, p.answer_answers q v⟩, rfl⟩
  | change c => exact Schema.perform_change h
  | draw op =>
    cases h
    exact rfl

/-- `Op.fallible` as a function. -/
def fails (β : Type) (op : Op Q W D X β) : Bool :=
  match β, op with
  | _, .find .. => true
  | _, .change (.write ..) => true
  | _, .change (.commitTransaction _) => true
  | _, .change _ => false
  | β, .draw x => p.drawsFail β x

theorem fails_fallible {β : Type} {op : Op Q W D X β} (h : p.fails β op = true) :
    Op.fallible drawFails β op := by
  cases op with
  | find session q => trivial
  | change c =>
    cases c with
    | write | commitTransaction => trivial
    | _ => cases h
  | draw x => exact p.drawsFail_fails h

variable {seen : (β : Type) → Q β → β → List E}

/-- The driver of requests under a gate that `admits` checks. -/
def driver [DecidableEq D] (body : Call → Prog (Op Q W D X) ρ)
    {gate : Gate ι Call (Op Q W D X) (Store S D) (Event E W D)}
    (admits : ι → (β : Type) → Op Q W D X β → Bool → Store S D →
      List (Entry ι Call (Event E W D)) → Bool)
    (admitted : ∀ {i β op a s J}, admits i β op a s J = true → gate i β op a s J) :
    Driver (system sc drawFails seen body) gate Choice where
  run := p.execute
  run_exec := p.execute_exec
  fails := p.fails
  fallible := p.fails_fallible
  admits := admits
  admitted := admitted

end Player

end Sessions
