import BookLibrary.Interleaving.Machine

/-!
# Schedules

A run given as a list of moves, and evaluated. A driver says how to execute an
atomic call; `Driver.play_runs` turns an evaluated schedule into a run.
-/

namespace Interleaving

variable {ι Call : Type} {Op : Type → Type} {S ρ Ev Choice : Type}

/-- One move of a schedule. `lose` throws without applying the pending call,
`raise` throws after applying it; `x` picks among the possible answers. -/
inductive Move (ι Call Choice : Type) where
  | start (i : ι) (call : Call)
  | reply (i : ι) (x : Choice)
  | lose (i : ι)
  | raise (i : ι) (x : Choice)
  | crash (i : ι)

/-- How to execute the calls of a system, and how to check a gate. -/
structure Driver (sys : System Call Op S ρ Ev) (gate : Gate ι Call Op S Ev) (Choice : Type) where
  run : (β : Type) → Op β → S → Choice → Option (β × S)
  run_exec : ∀ {β op s x b s'}, run β op s x = some (b, s') → sys.exec β op s b s'
  fails : (β : Type) → Op β → Bool
  fallible : ∀ {β op}, fails β op = true → sys.fallible β op
  admits : ι → (β : Type) → Op β → Bool → S → List (Entry ι Call Ev) → Bool
  admitted : ∀ {i β op a s J}, admits i β op a s J = true → gate i β op a s J

namespace Driver

variable [DecidableEq ι] {sys : System Call Op S ρ Ev} {gate : Gate ι Call Op S Ev}
  (d : Driver sys gate Choice)

def move (c : Config ι Call Op S ρ Ev) : Move ι Call Choice → Option (Config ι Call Op S ρ Ev)
  | .start i call =>
    match c.threads i with
    | none => some (c.advance i ⟨call, some (sys.body call), false⟩ c.store [])
    | some _ => none
  | .reply i x =>
    match c.threads i with
    | some ⟨call, some (@Prog.call _ _ β op next), faulted⟩ =>
      if d.admits i β op true c.store c.journal then
        (d.run β op c.store x).map fun (b, s') =>
          c.advance i ⟨call, some (next (some b)), faulted⟩ s' (sys.note β op (some b))
      else none
    | _ => none
  | .lose i =>
    match c.threads i with
    | some ⟨call, some (@Prog.call _ _ β op next), _⟩ =>
      if d.fails β op && d.admits i β op false c.store c.journal then
        some (c.advance i ⟨call, some (next none), true⟩ c.store (sys.note β op none))
      else none
    | _ => none
  | .raise i x =>
    match c.threads i with
    | some ⟨call, some (@Prog.call _ _ β op next), _⟩ =>
      if d.fails β op && d.admits i β op true c.store c.journal then
        (d.run β op c.store x).map fun (b, s') =>
          c.advance i ⟨call, some (next none), true⟩ s' (sys.note β op (some b))
      else none
    | _ => none
  | .crash i =>
    match c.threads i with
    | some ⟨call, some (.call _ _), faulted⟩ => some (c.advance i ⟨call, none, faulted⟩ c.store [])
    | _ => none

def play (c : Config ι Call Op S ρ Ev) : List (Move ι Call Choice) →
    Option (Config ι Call Op S ρ Ev)
  | [] => some c
  | m :: ms => (d.move c m).bind (play · ms)

variable {d}

theorem move_step {c c' : Config ι Call Op S ρ Ev} {m : Move ι Call Choice}
    (h : d.move c m = some c') : sys.Step gate c c' := by
  cases m with
  | start i call =>
    simp only [move] at h
    split at h
    · next free =>
      cases h
      exact .start call free
    · cases h
  | reply i x =>
    simp only [move] at h
    split at h
    · next running =>
      split at h
      · next ok =>
        obtain ⟨⟨b, s'⟩, hrun, rfl⟩ := Option.map_eq_some_iff.mp h
        exact .reply running rfl (d.admitted ok) (d.run_exec hrun)
      · cases h
    · cases h
  | lose i =>
    simp only [move] at h
    split at h
    · next running =>
      split at h
      · next ok =>
        rw [Bool.and_eq_true] at ok
        cases h
        exact .raise none running rfl (d.admitted ok.2) (d.fallible ok.1) ⟨d.fallible ok.1, rfl⟩
      · cases h
    · cases h
  | raise i x =>
    simp only [move] at h
    split at h
    · next running =>
      split at h
      · next ok =>
        rw [Bool.and_eq_true] at ok
        obtain ⟨⟨b, s'⟩, hrun, rfl⟩ := Option.map_eq_some_iff.mp h
        exact .raise (some b) running rfl (d.admitted ok.2) (d.fallible ok.1) (d.run_exec hrun)
      · cases h
    · cases h
  | crash i =>
    simp only [move] at h
    split at h
    · next running =>
      cases h
      exact .crash running rfl
    · cases h

/-- A schedule that plays to its end is a run. -/
theorem play_runs {c c' : Config ι Call Op S ρ Ev} {ms : List (Move ι Call Choice)}
    (h : d.play c ms = some c') : sys.Runs gate c c' := by
  induction ms generalizing c with
  | nil =>
    cases h
    exact .refl
  | cons m ms ih =>
    obtain ⟨c₁, h₁, h₂⟩ := Option.bind_eq_some_iff.mp h
    exact .head (move_step h₁) (ih h₂)

/-- A move keeps every caller's request, or starts it. -/
theorem move_started {c c' : Config ι Call Op S ρ Ev} {m : Move ι Call Choice}
    (h : d.move c m = some c') {i : ι} {th : Thread Call Op ρ} (ht : c'.threads i = some th) :
    (∃ th₀, c.threads i = some th₀ ∧ th₀.call = th.call) ∨ m = .start i th.call := by
  have moved : ∀ {j : ι} {th' th₀ : Thread Call Op ρ} {s evs},
      c.threads j = some th₀ → (c.advance j th' s evs).threads i = some th → th'.call = th₀.call →
      ∃ th₀, c.threads i = some th₀ ∧ th₀.call = th.call := by
    intro j th' th₀ s evs hj hi hcall
    by_cases hji : i = j
    · subst hji
      have heq : th' = th := by simpa [Config.advance] using hi
      exact ⟨th₀, hj, by rw [← heq, hcall]⟩
    · exact ⟨th, by simpa [Config.advance, Function.update_of_ne hji] using hi, rfl⟩
  cases m with
  | start j call =>
    simp only [move] at h
    split at h
    · next free =>
      cases h
      by_cases hji : i = j
      · subst hji
        right
        have heq : (⟨call, some (sys.body call), false⟩ : Thread Call Op ρ) = th := by
          simpa [Config.advance] using ht
        rw [← heq]
      · exact .inl ⟨th, by simpa [Config.advance, Function.update_of_ne hji] using ht, rfl⟩
    · cases h
  | reply j x | raise j x =>
    simp only [move] at h
    split at h
    · next running =>
      split at h
      · obtain ⟨⟨b, s'⟩, -, rfl⟩ := Option.map_eq_some_iff.mp h
        exact .inl (moved running ht rfl)
      · cases h
    · cases h
  | lose j =>
    simp only [move] at h
    split at h
    · next running =>
      split at h
      · cases h
        exact .inl (moved running ht rfl)
      · cases h
    · cases h
  | crash j =>
    simp only [move] at h
    split at h
    · next running =>
      cases h
      exact .inl (moved running ht rfl)
    · cases h

/-- The requests of a played schedule are those it starts. -/
theorem play_started {s : S} {c : Config ι Call Op S ρ Ev} {ms : List (Move ι Call Choice)}
    (h : d.play (Config.init s) ms = some c) {i : ι} {th : Thread Call Op ρ}
    (ht : c.threads i = some th) : .start i th.call ∈ ms := by
  have general : ∀ {ms : List (Move ι Call Choice)} {c₀ : Config ι Call Op S ρ Ev},
      d.play c₀ ms = some c →
      (∃ th₀, c₀.threads i = some th₀ ∧ th₀.call = th.call) ∨ .start i th.call ∈ ms := by
    intro ms
    induction ms with
    | nil =>
      rintro c₀ ⟨⟩
      exact .inl ⟨th, ht, rfl⟩
    | cons m ms ih =>
      intro c₀ hplay
      obtain ⟨c₁, hmove, hrest⟩ := Option.bind_eq_some_iff.mp hplay
      rcases ih hrest with ⟨th₁, h₁, hcall⟩ | hlater
      · rcases move_started hmove h₁ with ⟨th₀, h₀, hcall₀⟩ | hstart
        · exact .inl ⟨th₀, h₀, hcall₀.trans hcall⟩
        · exact .inr (by rw [hstart, hcall]; exact List.mem_cons_self)
      · exact .inr (List.mem_cons_of_mem _ hlater)
  rcases general h with ⟨th₀, h₀, -⟩ | hstart
  · cases h₀
  · exact hstart

end Driver

end Interleaving
