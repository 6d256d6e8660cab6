import Mathlib.Logic.Function.Basic
import BookLibrary.Interleaving.Program

/-!
# Interleaved execution

Any number of callers run their programs against one shared store. A step lets
one caller issue its next atomic call; the call answers, throws without being
applied, or throws although it was applied. A caller may crash between any two of
its calls. The journal keeps what every applied call left to remember it by: it
is history, read by no program.
-/

namespace Interleaving

/-- A service: the program of each request, the effect of each atomic call on the
store, which calls may throw, what the environment does by itself, and what a
call leaves in the journal (`none` when it threw and was not applied). -/
structure System (Call : Type) (Op : Type → Type) (S ρ Ev : Type) where
  body : Call → Prog Op ρ
  exec : (β : Type) → Op β → S → β → S → Prop
  fallible : (β : Type) → Op β → Prop
  env : S → S → Prop
  note : (β : Type) → Op β → Option β → List Ev

/-- One event of the journal, with the caller and the request it was serving. -/
structure Entry (ι Call Ev : Type) where
  caller : ι
  call : Call
  event : Ev

/-- One request being served; `code` is `none` after a crash. -/
structure Thread (Call : Type) (Op : Type → Type) (ρ : Type) where
  call : Call
  code : Option (Prog Op ρ)
  faulted : Bool

structure Config (ι Call : Type) (Op : Type → Type) (S ρ Ev : Type) where
  store : S
  journal : List (Entry ι Call Ev)
  threads : ι → Option (Thread Call Op ρ)

/-- A condition on steps: which caller may issue which call in which state, and
whether the call may fail to be applied there. -/
abbrev Gate (ι Call : Type) (Op : Type → Type) (S Ev : Type) :=
  ι → (β : Type) → Op β → (applied : Bool) → S → List (Entry ι Call Ev) → Prop

variable {ι Call : Type} {Op : Type → Type} {S ρ Ev : Type}

/-- The gate that every call passes. -/
def anyCall : Gate ι Call Op S Ev := fun _ _ _ _ _ _ => True

theorem anyCall_pass {β : Type} {i : ι} {op : Op β} {a : Bool} {s : S}
    {J : List (Entry ι Call Ev)} : anyCall i β op a s J := trivial

def record (i : ι) (call : Call) (evs : List Ev) : List (Entry ι Call Ev) :=
  evs.map (⟨i, call, ·⟩)

@[simp] theorem mem_record {i : ι} {call : Call} {evs : List Ev} {e : Entry ι Call Ev} :
    e ∈ record i call evs ↔ e.caller = i ∧ e.call = call ∧ e.event ∈ evs := by
  obtain ⟨j, call', ev⟩ := e
  simp only [record, List.mem_map, Entry.mk.injEq]
  constructor
  · rintro ⟨x, hx, rfl, rfl, rfl⟩
    exact ⟨rfl, rfl, hx⟩
  · rintro ⟨rfl, rfl, hx⟩
    exact ⟨ev, hx, rfl, rfl, rfl⟩

/-- The events of one caller, latest first. -/
def own [DecidableEq ι] (i : ι) (J : List (Entry ι Call Ev)) : List Ev :=
  (J.filter (fun e => decide (e.caller = i))).map (·.event)

section Own

variable [DecidableEq ι]

@[simp] theorem own_nil (i : ι) : own i ([] : List (Entry ι Call Ev)) = [] := rfl

@[simp] theorem mem_own {i : ι} {J : List (Entry ι Call Ev)} {ev : Ev} :
    ev ∈ own i J ↔ ∃ call, ⟨i, call, ev⟩ ∈ J := by
  simp only [own, List.mem_map, List.mem_filter, decide_eq_true_eq]
  constructor
  · rintro ⟨⟨j, call, ev⟩, ⟨hm, rfl⟩, rfl⟩
    exact ⟨call, hm⟩
  · rintro ⟨call, hm⟩
    exact ⟨_, ⟨hm, rfl⟩, rfl⟩

@[simp] theorem own_record_self (i : ι) (call : Call) (evs : List Ev)
    (J : List (Entry ι Call Ev)) : own i (record i call evs ++ J) = evs ++ own i J := by
  simp [own, record, List.filter_map, Function.comp_def]

theorem own_record_of_ne {i j : ι} (h : j ≠ i) (call : Call) (evs : List Ev)
    (J : List (Entry ι Call Ev)) : own i (record j call evs ++ J) = own i J := by
  simp [own, record, List.filter_map, Function.comp_def, h]

theorem mem_own_record {i j : ι} {call : Call} {evs : List Ev} {J : List (Entry ι Call Ev)}
    {ev : Ev} : ev ∈ own j (record i call evs ++ J) ↔ i = j ∧ ev ∈ evs ∨ ev ∈ own j J := by
  by_cases h : i = j
  · subst h
    simp
  · rw [own_record_of_ne h]
    simp [h]

end Own

namespace Config

def init (s : S) : Config ι Call Op S ρ Ev := ⟨s, [], fun _ => none⟩

/-- Caller `i` moves on to `th`, leaving the store `s` and the events `evs`. -/
def advance [DecidableEq ι] (c : Config ι Call Op S ρ Ev) (i : ι) (th : Thread Call Op ρ) (s : S)
    (evs : List Ev) : Config ι Call Op S ρ Ev where
  store := s
  journal := record i th.call evs ++ c.journal
  threads := Function.update c.threads i (some th)

/-- Caller `i` is about to issue `op`. -/
def Issues {β : Type} (c : Config ι Call Op S ρ Ev) (i : ι) (th : Thread Call Op ρ)
    (op : Op β) : Prop :=
  c.threads i = some th ∧ ∃ next, th.code = some (.call op next)

/-- Caller `i` has finished the request `th.call` with `a`. -/
def Returns (c : Config ι Call Op S ρ Ev) (i : ι) (th : Thread Call Op ρ) (a : ρ) : Prop :=
  c.threads i = some th ∧ th.code = some (.done a)

/-- The request of caller `i` and what it ended with, if it has ended. -/
def result (c : Config ι Call Op S ρ Ev) (i : ι) : Option (Call × ρ) :=
  match c.threads i with
  | some ⟨call, some (.done a), _⟩ => some (call, a)
  | _ => none

end Config

/-- The call that caller `i` is about to issue. -/
def Config.issuing (c : Config ι Call Op S ρ Ev) (i : ι) : Option (Sigma Op) :=
  match c.threads i with
  | some ⟨_, some (.call op _), _⟩ => some ⟨_, op⟩
  | _ => none

theorem Config.issues_of_issuing {β : Type} {c : Config ι Call Op S ρ Ev} {i : ι} {op : Op β}
    (h : c.issuing i = some ⟨β, op⟩) : ∃ th, c.Issues i th op := by
  simp only [Config.issuing] at h
  split at h
  · next ht =>
    cases h
    exact ⟨_, ht, _, rfl⟩
  · cases h

theorem Config.returns_of_result {c : Config ι Call Op S ρ Ev} {i : ι} {call : Call} {a : ρ}
    (h : c.result i = some (call, a)) : ∃ th, c.Returns i th a ∧ th.call = call := by
  simp only [Config.result] at h
  split at h
  · next ht =>
    cases h
    exact ⟨_, ⟨ht, rfl⟩, rfl⟩
  · cases h

namespace System

variable [DecidableEq ι] (sys : System Call Op S ρ Ev)

/-- What an atomic call does to the store: `none` when it throws unapplied. -/
def Applies {β : Type} (op : Op β) (s : S) : Option β → S → Prop
  | some b, s' => sys.exec β op s b s'
  | none, s' => sys.fallible β op ∧ s' = s

/-- One step of the interleaving, all of whose atomic calls pass the gate. -/
inductive Step (gate : Gate ι Call Op S Ev) :
    Config ι Call Op S ρ Ev → Config ι Call Op S ρ Ev → Prop
  | start {c i} (call : Call) (free : c.threads i = none) :
      Step gate c (c.advance i ⟨call, some (sys.body call), false⟩ c.store [])
  | reply {c i th} {β : Type} {op : Op β} {next b s'} (running : c.threads i = some th)
      (code : th.code = some (.call op next)) (pass : gate i β op true c.store c.journal)
      (effect : sys.exec β op c.store b s') :
      Step gate c (c.advance i { th with code := some (next (some b)) } s'
        (sys.note β op (some b)))
  | raise {c i th} {β : Type} {op : Op β} {next s'} (r : Option β)
      (running : c.threads i = some th) (code : th.code = some (.call op next))
      (pass : gate i β op r.isSome c.store c.journal) (fails : sys.fallible β op)
      (effect : sys.Applies op c.store r s') :
      Step gate c (c.advance i { th with code := some (next none), faulted := true } s'
        (sys.note β op r))
  | crash {c i th} {β : Type} {op : Op β} {next} (running : c.threads i = some th)
      (code : th.code = some (.call op next)) :
      Step gate c (c.advance i { th with code := none } c.store [])
  | env {c s'} (effect : sys.env c.store s') : Step gate c { c with store := s' }

def Runs (gate : Gate ι Call Op S Ev) :
    Config ι Call Op S ρ Ev → Config ι Call Op S ρ Ev → Prop :=
  Relation.ReflTransGen (sys.Step gate)

/-- A configuration some run from the store `s₀`, with nobody started, leads to. -/
def Reachable (s₀ : S) (c : Config ι Call Op S ρ Ev) : Prop :=
  sys.Runs anyCall (Config.init s₀) c

variable {sys}

theorem Step.open {gate : Gate ι Call Op S Ev} {c c' : Config ι Call Op S ρ Ev}
    (h : sys.Step gate c c') : sys.Step anyCall c c' := by
  cases h with
  | start call free => exact .start call free
  | reply running code _ effect => exact .reply running code trivial effect
  | raise r running code _ fails effect => exact .raise r running code trivial fails effect
  | crash running code => exact .crash running code
  | env effect => exact .env effect

theorem Runs.open {gate : Gate ι Call Op S Ev} {c c' : Config ι Call Op S ρ Ev}
    (h : sys.Runs gate c c') : sys.Runs anyCall c c' := by
  induction h with
  | refl => exact .refl
  | tail _ hs ih => exact ih.tail hs.open

/-- A caller that has returned stays as it is. -/
theorem Step.returns {gate : Gate ι Call Op S Ev} {c c' : Config ι Call Op S ρ Ev}
    (h : sys.Step gate c c') {i : ι} {th : Thread Call Op ρ} {a : ρ} (hi : c.Returns i th a) :
    c'.Returns i th a := by
  obtain ⟨ht, hc⟩ := hi
  have other : ∀ {j th' s' evs}, j ≠ i → (c.advance j th' s' evs).Returns i th a :=
    fun hj => ⟨by simpa [Config.advance, Function.update_of_ne (Ne.symm hj)] using ht, hc⟩
  have ne : ∀ {β : Type} {j th'} {op : Op β} {next}, c.threads j = some th' →
      th'.code = some (.call op next) → j ≠ i := by
    rintro β j th' op next hj hop rfl
    rw [ht] at hj
    cases hj
    rw [hc] at hop
    cases hop
  cases h with
  | start call free =>
    refine other ?_
    rintro rfl
    rw [ht] at free
    cases free
  | reply running code _ _ => exact other (ne running code)
  | raise _ running code _ _ _ => exact other (ne running code)
  | crash running code => exact other (ne running code)
  | env effect => exact ⟨ht, hc⟩

theorem Runs.returns {gate : Gate ι Call Op S Ev} {c c' : Config ι Call Op S ρ Ev}
    (h : sys.Runs gate c c') {i : ι} {th : Thread Call Op ρ} {a : ρ} (hi : c.Returns i th a) :
    c'.Returns i th a := by
  induction h with
  | refl => exact hi
  | tail _ hs ih => exact hs.returns ih

/-- A request whose program issues no call is answered as soon as it has started. -/
theorem Runs.answered {gate : Gate ι Call Op S Ev} {s : S} {c : Config ι Call Op S ρ Ev}
    (h : sys.Runs gate (Config.init s) c) {call : Call} {a : ρ} (hbody : sys.body call = .done a)
    {i : ι} {th : Thread Call Op ρ} (ht : c.threads i = some th) (hcall : th.call = call) :
    c.Returns i th a := by
  refine ⟨ht, ?_⟩
  induction h generalizing th with
  | refl => cases ht
  | tail _ hs ih =>
    have done : ∀ {j : ι} {th' : Thread Call Op ρ} {s' evs} {c' : Config ι Call Op S ρ Ev},
        (c'.advance j th' s' evs).threads i = some th → (c'.threads i = some th →
          th.code = some (.done a)) → (i = j → th' = th → th.code = some (.done a)) →
        th.code = some (.done a) := by
      intro j th' s' evs c' hi hold hnew
      by_cases hj : i = j
      · subst hj
        exact hnew rfl (by simpa [Config.advance] using hi)
      · exact hold (by simpa [Config.advance, Function.update_of_ne hj] using hi)
    -- no step moves a thread that has been answered
    have still : ∀ {β : Type} {j : ι} {th' : Thread Call Op ρ} {op : Op β} {next code faulted}
        {c' : Config ι Call Op S ρ Ev}, (∀ {th}, c'.threads i = some th → th.call = call →
          th.code = some (.done a)) → c'.threads j = some th' → th'.code = some (.call op next) →
        i = j → (⟨th'.call, code, faulted⟩ : Thread Call Op ρ) = th →
        th.code = some (.done a) := by
      rintro β j th' op next code faulted c' hall hrunning hcode rfl rfl
      rw [hall hrunning hcall] at hcode
      cases hcode
    cases hs with
    | start call' free =>
      refine done ht (fun hi => ih hi hcall) ?_
      rintro rfl rfl
      rw [← hcall] at hbody
      exact congrArg some hbody
    | reply running code _ _ =>
      exact done ht (fun hi => ih hi hcall) (still ih running code)
    | raise _ running code _ _ _ =>
      exact done ht (fun hi => ih hi hcall) (still ih running code)
    | crash running code =>
      exact done ht (fun hi => ih hi hcall) (still ih running code)
    | env _ => exact ih ht hcall

theorem Step.journal {gate : Gate ι Call Op S Ev} {c c' : Config ι Call Op S ρ Ev}
    (h : sys.Step gate c c') : c.journal ⊆ c'.journal := by
  cases h with
  | env => exact List.Subset.refl _
  | _ => exact List.subset_append_right _ _

/-- Nothing is ever struck from the journal. -/
theorem Runs.journal {gate : Gate ι Call Op S Ev} {c c' : Config ι Call Op S ρ Ev}
    (h : sys.Runs gate c c') : c.journal ⊆ c'.journal := by
  induction h with
  | refl => exact List.Subset.refl _
  | tail _ hs ih => exact List.Subset.trans ih hs.journal

end System

end Interleaving
