import BookLibrary.Transactions.Machine

/-!
# Schedules of transactions

A run given as a list of moves, and evaluated.
-/

namespace Transactions

open Interleaving

variable {ι Call : Type} {Op : Type → Type} {S D K ε ρ Choice : Type}

/-- One move of a schedule, named as the step it makes; `x` picks among the possible
answers of a call. -/
inductive Move (ι Call Choice : Type) where
  | start (i : ι) (call : Call)
  | reply (i : ι) (x : Choice)
  | raise (i : ι) (x : Choice)
  | lose (i : ι)
  | begin (i : ι)
  | act (i : ι) (x : Choice)
  | rerun (i : ι)
  | commit (i : ι)
  | abort (i : ι)
  | crash (i : ι)

/-- How to execute the calls of a service, and how to check a regime. -/
structure Driver (ι : Type) (sv : Service Call Op S D K ε ρ) (s₀ : S) (R : Regime ι Call Op D)
    (Choice : Type) where
  run : (β : Type) → Op β → S → Choice → Option (β × List D)
  run_exec : ∀ {β op s x b docs}, run β op s x = some (b, docs) → sv.exec β op s b docs
  may : ι → Call → List (Commit ι Call D) → (β : Type) → Op β → Bool
  may_sound : ∀ {i call h β op}, may i call h β op = true → R.may i call h β op
  beside : Config ι Call Op D ε ρ → ι → Call → Bool
  beside_sound : ∀ {c i call}, beside c i call = true → Service.Admits R c i call

namespace Driver

variable [DecidableEq ι] [DecidableEq Call] [DecidableEq D] [DecidableEq K]
  {sv : Service Call Op S D K ε ρ} {s₀ : S} {R : Regime ι Call Op D}
  (d : Driver ι sv s₀ R Choice)

instance : DecidableEq (Commit ι Call D) := fun c c' =>
  decidable_of_iff (c.caller = c'.caller ∧ c.call = c'.call ∧ c.docs = c'.docs) (by
    cases c
    cases c'
    simp)

/-- The commits since `base`, if `h` has grown from it. -/
def since (h base : List (Commit ι Call D)) : Option (List (Commit ι Call D)) :=
  let recent := h.take (h.length - base.length)
  if h = recent ++ base then some recent else none

theorem since_eq {h base recent : List (Commit ι Call D)} (hs : since h base = some recent) :
    h = recent ++ base := by
  simp only [since] at hs
  split at hs
  · next heq =>
    cases hs
    exact heq
  · cases hs

def unconflicted (sv : Service Call Op S D K ε ρ) (docs : List D)
    (recent : List (Commit ι Call D)) : Bool :=
  recent.all fun c => c.docs.all fun d => docs.all fun d' => !decide (sv.key d = sv.key d')

omit [DecidableEq ι] [DecidableEq Call] [DecidableEq D] in
theorem unconflicted_sound {docs : List D} {recent : List (Commit ι Call D)}
    (h : unconflicted sv docs recent = true) : sv.Unconflicted docs recent := by
  intro c hc d hd d' hd' hkey
  have hall := List.all_eq_true.mp (List.all_eq_true.mp (List.all_eq_true.mp h c hc) d hd) d' hd'
  simp [hkey] at hall

def move (c : Config ι Call Op D ε ρ) : Move ι Call Choice → Option (Config ι Call Op D ε ρ)
  | .start i call =>
    match c.threads i with
    | none => some (c.move i call (.script (sv.body call)))
    | some _ => none
  | .reply i x =>
    match c.threads i with
    | some ⟨call, .script (@Script.call _ _ _ β op next)⟩ =>
      if d.may i call c.history β op && d.beside c i call then
        (d.run β op (sv.after s₀ c.history) x).map fun r =>
          c.commit i call r.2 (.script (next (some r.1)))
      else none
    | _ => none
  | .raise i x =>
    match c.threads i with
    | some ⟨call, .script (@Script.call _ _ _ β op next)⟩ =>
      if d.may i call c.history β op && d.beside c i call then
        (d.run β op (sv.after s₀ c.history) x).map fun r =>
          c.commit i call r.2 (.script (next none))
      else none
    | _ => none
  | .lose i =>
    match c.threads i with
    | some ⟨call, .script (.call _ next)⟩ => some (c.move i call (.script (next none)))
    | _ => none
  | .begin i =>
    match c.threads i with
    | some ⟨call, .script (.transact work next)⟩ =>
      some (c.move i call (.within c.history [] work.run work next))
    | _ => none
  | .act i x =>
    match c.threads i with
    | some ⟨call, .within base buffer (@Prog.call _ _ γ op k) work next⟩ =>
      (d.run γ op (sv.putAll buffer (sv.after s₀ base)) x).map fun r =>
        c.move i call (.within base (r.2 ++ buffer) (k (some r.1)) work next)
    | _ => none
  | .rerun i =>
    match c.threads i with
    | some ⟨call, .within _ _ _ work next⟩ =>
      some (c.move i call (.within c.history [] work.run work next))
    | _ => none
  | .commit i =>
    match c.threads i with
    | some ⟨call, .within base buffer (.done (.ok b)) _ next⟩ =>
      match since c.history base with
      | some recent =>
        if d.beside c i call && unconflicted sv buffer recent then
          some (c.commit i call buffer (.script (next (some (.ok b)))))
        else none
      | none => none
    | _ => none
  | .abort i =>
    match c.threads i with
    | some ⟨call, .within _ _ (.done (.error e)) _ next⟩ =>
      some (c.move i call (.script (next (some (.error e)))))
    | _ => none
  | .crash i =>
    match c.threads i with
    | some ⟨call, .script (.call _ _)⟩ => some (c.move i call .crashed)
    | some ⟨call, .script (.transact _ _)⟩ => some (c.move i call .crashed)
    | some ⟨call, .within ..⟩ => some (c.move i call .crashed)
    | _ => none

def play (c : Config ι Call Op D ε ρ) : List (Move ι Call Choice) →
    Option (Config ι Call Op D ε ρ)
  | [] => some c
  | m :: ms => (d.move c m).bind (play · ms)

variable {d}

theorem move_step {c c' : Config ι Call Op D ε ρ} {m : Move ι Call Choice}
    (h : d.move c m = some c') : sv.Step s₀ R c c' := by
  cases m with
  | start i call =>
    simp only [move] at h
    split at h
    · next free =>
      cases h
      exact .start call free
    · cases h
  | reply i x =>
    simp only [move] at h
    split at h
    · next running =>
      split at h
      · next ok =>
        rw [Bool.and_eq_true] at ok
        obtain ⟨⟨b, docs⟩, hrun, rfl⟩ := Option.map_eq_some_iff.mp h
        exact .reply running (d.may_sound ok.1) (d.beside_sound ok.2) (d.run_exec hrun)
      · cases h
    · cases h
  | raise i x =>
    simp only [move] at h
    split at h
    · next running =>
      split at h
      · next ok =>
        rw [Bool.and_eq_true] at ok
        obtain ⟨⟨b, docs⟩, hrun, rfl⟩ := Option.map_eq_some_iff.mp h
        exact .raise running (d.may_sound ok.1) (d.beside_sound ok.2) (d.run_exec hrun)
      · cases h
    · cases h
  | lose i =>
    simp only [move] at h
    split at h
    · next running =>
      cases h
      exact .lose running
    · cases h
  | begin i =>
    simp only [move] at h
    split at h
    · next running =>
      cases h
      exact .begin running
    · cases h
  | act i x =>
    simp only [move] at h
    split at h
    · next running =>
      obtain ⟨⟨b, docs⟩, hrun, rfl⟩ := Option.map_eq_some_iff.mp h
      exact .act running ⟨docs, d.run_exec hrun, rfl⟩
    · cases h
  | rerun i =>
    simp only [move] at h
    split at h
    · next running =>
      cases h
      exact .rerun running
    · cases h
  | commit i =>
    simp only [move] at h
    split at h
    · next running =>
      split at h
      · next hsince =>
        split at h
        · next ok =>
          rw [Bool.and_eq_true] at ok
          cases h
          exact .commit running (d.beside_sound ok.1) (since_eq hsince) (unconflicted_sound ok.2)
        · cases h
      · cases h
    · cases h
  | abort i =>
    simp only [move] at h
    split at h
    · next running =>
      cases h
      exact .abort running
    · cases h
  | crash i =>
    simp only [move] at h
    split at h
    · next running =>
      cases h
      exact .crash running trivial
    · next running =>
      cases h
      exact .crash running trivial
    · next running =>
      cases h
      exact .crash running trivial
    · cases h

/-- A schedule that plays to its end is a run. -/
theorem play_runs {c c' : Config ι Call Op D ε ρ} {ms : List (Move ι Call Choice)}
    (h : d.play c ms = some c') : sv.Runs s₀ R c c' := by
  induction ms generalizing c with
  | nil =>
    cases h
    exact .refl
  | cons m ms ih =>
    obtain ⟨c₁, h₁, h₂⟩ := Option.bind_eq_some_iff.mp h
    exact .head (move_step h₁) (ih h₂)

end Driver

end Transactions
