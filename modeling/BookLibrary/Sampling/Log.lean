import Mathlib.Algebra.BigOperators.Group.List.Basic
import Mathlib.Algebra.GroupWithZero.Nat
import Mathlib.Data.Int.Order.Basic

/-!
# Sampled reports

Occurrences of one kind, of which some are reported and the others counted: an occurrence is
reported unless the last report is less than `interval` ago, with the number of those that have
been suppressed since that one.
-/

namespace Sampling

/-- The last report, what has been suppressed since, and all reports, the latest first. -/
structure Log where
  last : Option ℤ
  suppressed : ℕ
  reports : List (ℤ × ℕ)
  deriving DecidableEq

namespace Log

def empty : Log := ⟨none, 0, []⟩

def report (now : ℤ) (log : Log) : Log := ⟨some now, 0, (now, log.suppressed) :: log.reports⟩

/-- One more occurrence. -/
def advance (interval : ℤ) (log : Log) (now : ℤ) : Log :=
  match log.last with
  | some last =>
    if now - last < interval then { log with suppressed := log.suppressed + 1 } else log.report now
  | none => log.report now

/-- The occurrences that the reports and the pending count stand for. -/
def total (log : Log) : ℕ := (log.reports.map fun r => 1 + r.2).sum + log.suppressed

/-- The reports are `interval` apart, and the last of them is remembered. -/
structure Apart (interval : ℤ) (log : Log) : Prop where
  last : log.reports.head?.map (·.1) = log.last
  apart : log.reports.Pairwise fun r r' => r'.1 + interval ≤ r.1

variable {interval : ℤ} {log : Log} {now : ℤ}

theorem advance_cases (interval : ℤ) (log : Log) (now : ℤ) : log.advance interval now = { log with suppressed := log.suppressed + 1 } ∨
    (∀ last, log.last = some last → last + interval ≤ now) ∧
      log.advance interval now = log.report now := by
  rw [advance]
  cases hlast : log.last with
  | none => exact .inr ⟨nofun, rfl⟩
  | some last =>
    by_cases h : now - last < interval
    · exact .inl (by simp only [h, if_true])
    · refine .inr ⟨fun last' heq => ?_, by simp only [h, if_false]⟩
      cases heq
      omega

theorem total_report : (log.report now).total = log.total + 1 := by
  simp only [total, report, List.map_cons, List.sum_cons]
  omega

@[simp] theorem total_advance : (log.advance interval now).total = log.total + 1 := by
  rcases advance_cases interval log now with h | ⟨-, h⟩
  · rw [h]
    simp only [total]
    omega
  · rw [h, total_report]

theorem total_foldl (interval : ℤ) (log : Log) (times : List ℤ) :
    (times.foldl (advance interval) log).total = log.total + times.length := by
  induction times generalizing log with
  | nil => rfl
  | cons now times ih =>
    rw [List.foldl_cons, ih, total_advance, List.length_cons]
    omega

theorem Apart.empty : Apart interval Log.empty := ⟨rfl, .nil⟩

theorem Apart.report (h : Apart interval log) (hpos : 0 ≤ interval)
    (hlast : ∀ last, log.last = some last → last + interval ≤ now) :
    Apart interval (log.report now) := by
  refine ⟨rfl, List.pairwise_cons.mpr ⟨fun r hr => ?_, h.apart⟩⟩
  obtain ⟨first, older, hreports⟩ := List.exists_cons_of_ne_nil (List.ne_nil_of_mem hr)
  have hfirst : first.1 + interval ≤ now := by
    apply hlast
    rw [← h.last, hreports]
    rfl
  have hpairs := h.apart
  rw [hreports] at hr hpairs
  rcases List.mem_cons.mp hr with rfl | holder
  · exact hfirst
  · -- an older report is before the last one
    have hbefore := (List.pairwise_cons.mp hpairs).1 r holder
    show r.1 + interval ≤ now
    omega

theorem Apart.advance (h : Apart interval log) (hpos : 0 ≤ interval) :
    Apart interval (log.advance interval now) := by
  rcases advance_cases interval log now with heq | ⟨hlast, heq⟩
  · rw [heq]
    exact ⟨h.last, h.apart⟩
  · rw [heq]
    exact h.report hpos hlast

theorem Apart.foldl (h : Apart interval log) (hpos : 0 ≤ interval) (times : List ℤ) :
    Apart interval (times.foldl (Log.advance interval) log) := by
  induction times generalizing log with
  | nil => exact h
  | cons now times ih => exact ih (h.advance hpos)

end Log

end Sampling
