import BookLibrary.BrowserOrigin.Guard
import BookLibrary.Sampling.Log

/-!
# The warnings of denied origins

Each dimension, a route with a reason, has its own log of sampled warnings, in which every denial
of it is either warned of or counted.
-/

namespace BrowserOrigin

open Documents Sampling

/-- What a sample is kept for. -/
structure Dimension where
  route : BrowserSessionRoute
  reason : OriginDenialReason
  deriving DecidableEq

/-- The guard over time, with the warnings that it has issued and their times, the latest first. -/
structure Watch where
  guard : AuthBrowserOriginGuard
  warnings : List (Date × Warning)

def Warning.dimension (w : Warning) : Dimension := ⟨w.route, w.reason⟩

/-- The dimension in which the guard denies the request, if it does. -/
def denialOf (parse : String → Option Url) (guard : AuthBrowserOriginGuard) (request : Request) :
    Option Dimension :=
  (guard.denialReason parse request.origin).map
    (⟨AuthBrowserOriginGuard.routeCategory request, ·⟩)

/-- One request, at its time. -/
def Watch.handle (parse : String → Option Url) (w : Watch) (request : Request × Date) : Watch :=
  let (_, guard, warning) := w.guard.canActivate parse request.1 request.2
  ⟨guard, warning.toList.map (request.2, ·) ++ w.warnings⟩

/-- The requests in their order, to a guard that is new. -/
def watch (parse : String → Option Url) (trusted : List String) (requests : List (Request × Date)) :
    Watch :=
  requests.foldl (Watch.handle parse) ⟨.new trusted, []⟩

/-- The times of the requests that are denied in the dimension. -/
def denials (parse : String → Option Url) (trusted : List String) (d : Dimension)
    (requests : List (Request × Date)) : List Date :=
  (requests.filter fun r => denialOf parse (.new trusted) r.1 = some d).map (·.2)

namespace Watch

def sample (w : Watch) (d : Dimension) : Option WarningSample :=
  getEntry (AuthBrowserOriginGuard.sampleKey d.route d.reason) w.guard.warningSamples

/-- How many denials of the dimension have been suppressed since its last warning. -/
def pending (w : Watch) (d : Dimension) : ℕ := (w.sample d).elim 0 (·.suppressedCount)

/-- The warnings of the dimension. -/
def emitted (w : Watch) (d : Dimension) : List (Date × Warning) :=
  w.warnings.filter fun x => x.2.dimension = d

/-- The dimension's part of the guard and of the warnings. -/
def log (w : Watch) (d : Dimension) : Log where
  last := (w.sample d).map (·.lastEmittedAt)
  suppressed := w.pending d
  reports := (w.emitted d).map fun x => (x.1, x.2.suppressedCount)

end Watch

variable {parse : String → Option Url} {w : Watch} {request : Request} {now : Date}
  {d d' : Dimension}

theorem route_text_injective : Function.Injective BrowserSessionRoute.text := by
  intro r r' h
  cases r <;> cases r' <;> first | rfl | exact absurd h (by decide)

theorem reason_text_injective : Function.Injective OriginDenialReason.text := by
  intro r r' h
  cases r <;> cases r' <;> first | rfl | exact absurd h (by decide)

theorem sampleKey_injective (h : AuthBrowserOriginGuard.sampleKey d.route d.reason =
    AuthBrowserOriginGuard.sampleKey d'.route d'.reason) : d = d' := by
  have hroute : ∀ route : BrowserSessionRoute, ':' ∉ route.text.toList := by
    intro route
    cases route <;> decide
  have hreason : ∀ reason : OriginDenialReason, ':' ∉ reason.text.toList := by
    intro reason
    cases reason <;> decide
  have hlist := congrArg String.toList h
  have hcolon : ":".toList = [':'] := rfl
  simp only [AuthBrowserOriginGuard.sampleKey, String.toList_append, hcolon, List.append_assoc,
    List.singleton_append] at hlist
  obtain ⟨hr, -, hs⟩ :=
    (List.append_cons_inj_of_notMem (hroute d.route) (hreason d.reason)).mp hlist
  obtain ⟨route, reason⟩ := d
  obtain ⟨route', reason'⟩ := d'
  obtain rfl := route_text_injective (String.toList_injective hr)
  obtain rfl := reason_text_injective (String.toList_injective hs)
  rfl

namespace Watch

/-- The guard with another sample of the dimension `d`, and the warnings of the request. -/
def put (w : Watch) (d : Dimension) (sample : WarningSample) (warnings : List (Date × Warning)) :
    Watch where
  guard := ⟨w.guard.trustedOrigins, setEntry
    (AuthBrowserOriginGuard.sampleKey d.route d.reason) sample w.guard.warningSamples⟩
  warnings := warnings ++ w.warnings

theorem sample_put {sample : WarningSample} {warnings : List (Date × Warning)} :
    (w.put d sample warnings).sample d' = if d = d' then some sample else w.sample d' := by
  rw [Watch.sample, put, getEntry_setEntry]
  by_cases heq : d = d'
  · rw [if_pos heq, if_pos (by rw [heq])]
  · rw [if_neg heq, if_neg fun hkey => heq (sampleKey_injective hkey)]
    rfl

theorem emitted_put {sample : WarningSample} {warnings : List (Date × Warning)} :
    (w.put d sample warnings).emitted d' =
      warnings.filter (fun x => x.2.dimension = d') ++ w.emitted d' := by
  rw [emitted, put, List.filter_append]
  rfl

/-- What is put for another dimension does not show in the log. -/
theorem log_put_of_ne {sample : WarningSample} {warnings : List (Date × Warning)} (hne : d ≠ d')
    (hwarnings : ∀ x ∈ warnings, x.2.dimension = d) :
    (w.put d sample warnings).log d' = w.log d' := by
  have hsample : (w.put d sample warnings).sample d' = w.sample d' := by
    rw [sample_put, if_neg hne]
  have hemitted : (w.put d sample warnings).emitted d' = w.emitted d' := by
    have hnone : warnings.filter (fun x => x.2.dimension = d') = [] := by
      rw [List.filter_eq_nil_iff]
      intro x hx hd'
      exact hne ((hwarnings x hx).symm.trans (of_decide_eq_true hd'))
    rw [emitted_put, hnone, List.nil_append]
  rw [log, log, pending, pending, hsample, hemitted]

/-- A denial either adds to the suppressed ones or issues a warning. -/
theorem handle_denied (now : Date) (hdenied : denialOf parse w.guard request = some d) :
    w.handle parse (request, now) = w.put d ⟨now, 0⟩
        [(now, ⟨"browser-session-origin-denied", d.route, d.reason, w.pending d⟩)] ∧
        (∀ sample, w.sample d = some sample → ¬ now - sample.lastEmittedAt < warningIntervalMs) ∨
      ∃ sample, w.sample d = some sample ∧ now - sample.lastEmittedAt < warningIntervalMs ∧
        w.handle parse (request, now) =
          w.put d { sample with suppressedCount := sample.suppressedCount + 1 } [] := by
  obtain ⟨reason, hreason, rfl⟩ := Option.map_eq_some_iff.mp hdenied
  rw [handle, AuthBrowserOriginGuard.canActivate, hreason]
  simp only [AuthBrowserOriginGuard.sampleWarning, pending]
  cases hsample : w.sample ⟨AuthBrowserOriginGuard.routeCategory request, reason⟩ with
  | none =>
    rw [Watch.sample] at hsample
    simp only [hsample]
    exact .inl ⟨rfl, (by rintro _ ⟨⟩)⟩
  | some sample =>
    rw [Watch.sample] at hsample
    simp only [hsample]
    by_cases hwithin : now - sample.lastEmittedAt < warningIntervalMs
    · simp only [hwithin, if_true]
      exact .inr ⟨sample, rfl, hwithin, rfl⟩
    · simp only [hwithin, if_false]
      refine .inl ⟨rfl, fun sample' heq => ?_⟩
      cases heq
      exact hwithin

theorem handle_passed (hpassed : denialOf parse w.guard request = none) :
    w.handle parse (request, now) = w := by
  have hreason : w.guard.denialReason parse request.origin = none :=
    Option.map_eq_none_iff.mp hpassed
  rw [handle, AuthBrowserOriginGuard.canActivate, hreason]
  rfl

/-- A request shows in the log of the dimension in which it is denied, and in no other. -/
theorem log_handle : (w.handle parse (request, now)).log d =
    if denialOf parse w.guard request = some d then (w.log d).advance warningIntervalMs now
    else w.log d := by
  cases hdenied : denialOf parse w.guard request with
  | none => rw [handle_passed hdenied, if_neg (by rintro ⟨⟩)]
  | some d' =>
    by_cases heq : d' = d
    · subst heq
      rw [if_pos rfl]
      rcases handle_denied now hdenied with ⟨h, hlate⟩ | ⟨sample, hsample, hwithin, h⟩
      · have hreport : (w.handle parse (request, now)).log d' = (w.log d').report now := by
          simp [h, log, Log.report, pending, sample_put, emitted_put, Warning.dimension]
        rw [hreport, Log.advance]
        cases hs : w.sample d' with
        | none => simp only [log, hs, Option.map_none]
        | some sample => simp only [log, hs, Option.map_some, hlate sample hs, if_false]
      · rw [h, Log.advance]
        simp [log, pending, sample_put, emitted_put, hsample, hwithin]
    · rw [if_neg fun h => heq (Option.some.inj h)]
      rcases handle_denied now hdenied with ⟨h, -⟩ | ⟨sample, -, -, h⟩
      · rw [h]
        exact log_put_of_ne heq (by simp [Warning.dimension])
      · rw [h]
        exact log_put_of_ne heq (by rintro _ ⟨⟩)

theorem handle_trustedOrigins (request : Request × Date) :
    (w.handle parse request).guard.trustedOrigins = w.guard.trustedOrigins := by
  obtain ⟨request, now⟩ := request
  cases hdenied : denialOf parse w.guard request with
  | none => rw [handle_passed hdenied]
  | some d =>
    rcases handle_denied now hdenied with ⟨h, -⟩ | ⟨sample, -, -, h⟩
    · rw [h]
      rfl
    · rw [h]
      rfl

end Watch

/-- Only the trusted origins count for a denial. -/
theorem denialOf_congr {guard guard' : AuthBrowserOriginGuard}
    (h : guard.trustedOrigins = guard'.trustedOrigins) :
    denialOf parse guard request = denialOf parse guard' request := by
  simp only [denialOf, AuthBrowserOriginGuard.denialReason, h]

/-- The log of a dimension is that of its own denials. -/
theorem log_watch (parse : String → Option Url) (d : Dimension) (trusted : List String) (requests : List (Request × Date)) :
    (watch parse trusted requests).log d =
      (denials parse trusted d requests).foldl (Log.advance warningIntervalMs) Log.empty := by
  have hrun : ∀ w : Watch, w.guard.trustedOrigins = trusted →
      (requests.foldl (Watch.handle parse) w).log d =
        (denials parse trusted d requests).foldl (Log.advance warningIntervalMs) (w.log d) := by
    induction requests with
    | nil => exact fun _ _ => rfl
    | cons r requests ih =>
      intro w hw
      obtain ⟨request, now⟩ := r
      have hdenial : denialOf parse w.guard request = denialOf parse (.new trusted) request :=
        denialOf_congr hw
      rw [List.foldl_cons, ih _ ((Watch.handle_trustedOrigins _).trans hw), Watch.log_handle,
        hdenial]
      by_cases hd : denialOf parse (.new trusted) request = some d
      · simp only [denials, List.filter_cons, hd, decide_true, if_true, List.map_cons,
          List.foldl_cons]
      · simp only [denials, List.filter_cons, hd, decide_false, if_false, Bool.false_eq_true]
  exact hrun ⟨.new trusted, []⟩ rfl

/-- What is warned of in a dimension does justice to its denials, whatever else is denied. -/
structure Accounts (parse : String → Option Url) (trusted : List String) (d : Dimension)
    (requests : List (Request × Date)) : Prop where
  apart : ((watch parse trusted requests).emitted d).Pairwise fun x x' =>
    x'.1 + 60000 ≤ x.1
  counted : (((watch parse trusted requests).emitted d).map fun x => 1 + x.2.suppressedCount).sum +
    (watch parse trusted requests).pending d = (denials parse trusted d requests).length
  own : ∀ requests', denials parse trusted d requests' = denials parse trusted d requests →
    (watch parse trusted requests').log d = (watch parse trusted requests).log d

theorem warnings_accounted (parse : String → Option Url) (trusted : List String) (d : Dimension)
    (requests : List (Request × Date)) : Accounts parse trusted d requests := by
  have hlog := log_watch parse d trusted requests
  refine ⟨?_, ?_, fun requests' h => by rw [log_watch, log_watch, h]⟩
  · have hapart := (Log.Apart.empty.foldl (by decide : 0 ≤ warningIntervalMs)
      (denials parse trusted d requests)).apart
    rw [← hlog, Watch.log, List.pairwise_map] at hapart
    exact hapart
  · have htotal := Log.total_foldl warningIntervalMs Log.empty (denials parse trusted d requests)
    rw [← hlog] at htotal
    simpa [Log.total, Log.empty, Watch.log, Function.comp_def] using htotal

/-- Three refreshes without the header within a minute and one after it: two warnings, the second
of which tells of two denials. -/
example : ((watch (fun _ => none) [] ([0, 20000, 59999, 60000].map fun now =>
    (⟨none, none, some "/refresh"⟩, now))).warnings.map fun x => (x.1, x.2.suppressedCount)) =
    [(60000, 2), (0, 0)] := by decide +kernel

end BrowserOrigin
