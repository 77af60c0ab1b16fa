import AgentRun.Retry
import Mathlib.Data.Nat.Find
import Mathlib.Tactic.IntervalCases

/-!
# Attempts under a time limit

The attempts of a call follow each other without a pause, each begun when the one before it has used
up its time. Attempts that are late only move the clock on (`retrying_late`), so that a call is told
by the first that is in time.
-/

namespace AgentRun

variable {α β σ : Type} {limit : Nat} {takes : Nat → Option Nat} {value : Nat → α}

/-- An attempt has no value when its time is up. -/
def Late (limit : Nat) (takes : Nat → Option Nat) (n : Nat) : Prop :=
  ∀ d, takes n = some d → limit < d

theorem not_late {n : Nat} : ¬ Late limit takes n ↔ ∃ d, takes n = some d ∧ d ≤ limit := by
  unfold Late
  constructor
  · intro h
    by_contra hnone
    refine h fun d hd => ?_
    by_contra hle
    exact hnone ⟨d, hd, by omega⟩
  · rintro ⟨d, hd, hle⟩ hlate
    have hlt : limit < d := hlate d hd
    omega

/-- Among some attempts there is a first that is in time, or all are late. -/
theorem first_inTime_or_late (limit : Nat) (takes : Nat → Option Nat) (last : Nat) :
    (∃ k ≤ last, (∀ i < k, Late limit takes i) ∧ ¬ Late limit takes k) ∨
      ∀ i ≤ last, Late limit takes i := by
  classical
  by_cases h : ∃ k, k ≤ last ∧ ¬ Late limit takes k
  · obtain ⟨hle, hfirst⟩ := Nat.find_spec h
    refine Or.inl ⟨Nat.find h, hle, fun i hi => ?_, hfirst⟩
    by_contra hi'
    exact Nat.find_min h hi ⟨by omega, hi'⟩
  · refine Or.inr fun i hi => ?_
    by_contra hi'
    exact h ⟨i, hi, hi'⟩

/-- When some attempts begin, of which all but the last are late. -/
def beginnings (limit attempts : Nat) : List Nat := (List.range attempts).map (· * limit)

theorem beginnings_succ (limit n : Nat) :
    beginnings limit (n + 1) = beginnings limit n ++ [n * limit] := by
  rw [beginnings, List.range_succ, List.map_append]
  rfl

/-! ## One attempt -/

theorem timedAttempt_late {n now : Nat} {begun : List Nat} (h : Late limit takes n) :
    (timedAttempt (some limit) takes value n).run (now, begun) =
      (some none, now + limit, now :: begun) := by
  show timedAttempt (some limit) takes value n (now, begun) = _
  unfold timedAttempt
  cases hd : takes n with
  | none => rfl
  | some d =>
    have hlt : limit < d := h d hd
    have hle : ¬ d ≤ limit := by omega
    simp only [if_neg hle]

theorem timedAttempt_inTime {n now d : Nat} {begun : List Nat} (hd : takes n = some d)
    (hle : d ≤ limit) : (timedAttempt (some limit) takes value n).run (now, begun) =
      (some (some (value n)), now + d, now :: begun) := by
  show timedAttempt (some limit) takes value n (now, begun) = _
  unfold timedAttempt
  simp only [hd, if_pos hle]

theorem timedAttempt_unlimited {n now : Nat} {begun : List Nat} :
    (timedAttempt none takes value n).run (now, begun) =
      match takes n with
      | some d => (some (some (value n)), now + d, now :: begun)
      | none => (none, now, now :: begun) := by
  show timedAttempt none takes value n (now, begun) = _
  unfold timedAttempt
  cases takes n with
  | none => rfl
  | some d => rfl

/-! ## One attempt after another -/

theorem run_bind_timed (x : OptionT (StateM σ) α) (f : α → OptionT (StateM σ) β) (s : σ) :
    (x >>= f).run s = match x.run s with
      | (some a, s) => (f a).run s
      | (none, s) => (none, s) := by
  rw [OptionT.run_bind]
  change (match x.run s with
    | (r, s) => (Option.elim r (pure none) fun a => (f a).run : StateM σ (Option β)) s) = _
  rcases x.run s with ⟨_ | a, s'⟩
  · rfl
  · rfl

theorem retrying_none (attempt : Nat → OptionT (StateM σ) (Option α)) (n : Nat) (s : σ) :
    (retrying attempt 0 n).run s = (some none, s) := rfl

theorem retrying_run (attempt : Nat → OptionT (StateM σ) (Option α)) (left n : Nat) (s : σ) :
    (retrying attempt (left + 1) n).run s = match (attempt n).run s with
      | (some (some value), s) => (some (some value), s)
      | (some none, s) => (retrying attempt left (n + 1)).run s
      | (none, s) => (none, s) := by
  rw [retrying, run_bind_timed]
  rcases (attempt n).run s with ⟨_ | _ | value, s'⟩
  · rfl
  · rfl
  · rfl

/-- Late attempts leave the call to those behind them, and each takes all its time. -/
theorem retrying_late {late left : Nat} (h : ∀ i < late, Late limit takes i) :
    (retrying (timedAttempt (some limit) takes value) (late + left) 0).run (0, []) =
      (retrying (timedAttempt (some limit) takes value) left late).run
        (late * limit, (beginnings limit late).reverse) := by
  induction late generalizing left with
  | zero => rw [Nat.zero_add, Nat.zero_mul, beginnings, List.range_zero, List.map_nil,
      List.reverse_nil]
  | succ late ih =>
    have hbefore : ∀ i < late, Late limit takes i := fun i hi => h i (by omega)
    have hlast : Late limit takes late := h late (by omega)
    have hsplit : late + 1 + left = late + (left + 1) := by omega
    rw [hsplit, ih hbefore, retrying_run, timedAttempt_late hlast, beginnings_succ,
      List.reverse_append, Nat.succ_mul]
    rfl

/-! ## A call -/

/-- What a call gives: the value of an attempt, or that all of them timed out. -/
def CallOutcome.result (s : Scope) (o : CallOutcome α) : Except CallTimeout α :=
  match o.value with
  | some value => .ok value
  | none => .error s.timeoutError

namespace Scope

variable {s : Scope}

theorem call_unlimited (h : s.timeoutMs = 0) : s.call takes value =
    ((takes 0).map fun d => ⟨some (value 0), d, [0]⟩, [0]) := by
  have hlimit : s.timeout? = none := if_pos h
  have hattempts : s.attempts = 0 + 1 := if_pos h
  rw [call, hlimit, hattempts, retrying_run, timedAttempt_unlimited]
  cases takes 0 with
  | none => rfl
  | some d =>
    simp only [Nat.zero_add]
    rfl

theorem call_inTime {k d : Nat} (hlimit : 0 < s.timeoutMs) (hk : k ≤ s.retryCount)
    (hlate : ∀ i < k, Late s.timeoutMs takes i) (hd : takes k = some d) (hle : d ≤ s.timeoutMs) :
    s.call takes value = (some ⟨some (value k), k * s.timeoutMs + d,
      beginnings s.timeoutMs (k + 1)⟩, beginnings s.timeoutMs (k + 1)) := by
  have hsome : s.timeout? = some s.timeoutMs := if_neg (Nat.ne_of_gt hlimit)
  have hattempts : s.attempts = k + (s.retryCount - k + 1) := by
    rw [attempts, if_neg (Nat.ne_of_gt hlimit)]
    omega
  rw [call, hsome, hattempts, retrying_late hlate, retrying_run, timedAttempt_inTime hd hle,
    beginnings_succ]
  simp

theorem call_late (hlimit : 0 < s.timeoutMs)
    (hlate : ∀ i ≤ s.retryCount, Late s.timeoutMs takes i) :
    s.call takes value = (some ⟨none, (s.retryCount + 1) * s.timeoutMs,
      beginnings s.timeoutMs (s.retryCount + 1)⟩, beginnings s.timeoutMs (s.retryCount + 1)) := by
  have hsome : s.timeout? = some s.timeoutMs := if_neg (Nat.ne_of_gt hlimit)
  have hattempts : s.attempts = s.retryCount + 1 + 0 := if_neg (Nat.ne_of_gt hlimit)
  have hall : ∀ i < s.retryCount + 1, Late s.timeoutMs takes i := fun i hi =>
    hlate i (by omega)
  rw [call, hsome, hattempts, retrying_late hall, retrying_none]
  simp only [Option.map_some, List.reverse_reverse]

/-- Without a time limit a call is its first attempt, however long it takes. With one, it has the
value of the first attempt that is ready when its time is up, or earlier; this attempt and the late
ones in front of it, each begun when the one before was given up, are all that is begun. If every
attempt is late the call fails, after all of them have used up their time. -/
theorem call_takes_first_inTime (s : Scope) (takes : Nat → Option Nat) (value : Nat → α) :
    (s.timeoutMs = 0 → s.call takes value =
      ((takes 0).map fun d => ⟨some (value 0), d, [0]⟩, [0])) ∧
    (0 < s.timeoutMs → ∃ outcome : CallOutcome α,
      s.call takes value = (some outcome, outcome.begun) ∧
      ((∃ k d, k ≤ s.retryCount ∧ (∀ i < k, Late s.timeoutMs takes i) ∧ takes k = some d ∧
          d ≤ s.timeoutMs ∧ outcome.result s = .ok (value k) ∧
          outcome.elapsed = k * s.timeoutMs + d ∧
          outcome.begun = beginnings s.timeoutMs (k + 1)) ∨
        (∀ i ≤ s.retryCount, Late s.timeoutMs takes i) ∧
          outcome.result s = .error ⟨s.retryCount + 1, s.timeoutMs⟩ ∧
          outcome.elapsed = (s.retryCount + 1) * s.timeoutMs ∧
          outcome.begun = beginnings s.timeoutMs (s.retryCount + 1))) := by
  refine ⟨call_unlimited, fun hlimit => ?_⟩
  rcases first_inTime_or_late s.timeoutMs takes s.retryCount with ⟨k, hk, hlate, hfirst⟩ | hlate
  · obtain ⟨d, hd, hle⟩ := not_late.mp hfirst
    exact ⟨_, call_inTime hlimit hk hlate hd hle,
      Or.inl ⟨k, d, hk, hlate, hd, hle, rfl, rfl, rfl⟩⟩
  · have hattempts : s.attempts = s.retryCount + 1 := if_neg (Nat.ne_of_gt hlimit)
    refine ⟨_, call_late hlimit hlate, Or.inr ⟨hlate, ?_, rfl, rfl⟩⟩
    show Except.error s.timeoutError = _
    rw [timeoutError, hattempts]

/-- The first attempt never ends and the second is late by a millisecond; the third is ready just
when its time is up. -/
theorem third_attempt_in_time :
    let s : Scope := ⟨0, 100, 2⟩
    let takes : Nat → Option Nat := fun n => [none, some 101, some 100].getD n none
    ∃ outcome, s.call takes id = (some outcome, [0, 100, 200]) ∧ outcome.result s = .ok 2 ∧
      outcome.elapsed = 300 := by
  intro s takes
  obtain ⟨outcome, hcall, h⟩ := (call_takes_first_inTime s takes id).2 (by decide)
  rcases h with ⟨k, d, hk, -, hd, hle, hresult, helapsed, hbegun⟩ | ⟨hlate, -⟩
  · have hmost : k ≤ 2 := hk
    interval_cases k
    · cases hd
    · obtain rfl := Option.some.inj hd
      exact absurd hle (by decide)
    · obtain rfl := Option.some.inj hd
      rw [hbegun] at hcall
      exact ⟨outcome, hcall, hresult, helapsed⟩
  · exact absurd (hlate 2 (Nat.le_refl 2) 100 rfl) (by decide)

end Scope

end AgentRun
