import AgentRun.Run.State
import AgentRun.Retry

/-!
# What a part of a run ensures

A part of a run, begun in a state, either gives a value or halts the run, and leaves a state in both
cases. `Ensures x s Q E` says that `Q` holds of the value and the state in the first case and `E` of
the halt and the state in the second. The rules below take a part apart along its `do` block: a
proof about a part rewrites with them until only the parts it calls are left, and cites what those
ensure.
-/

namespace AgentRun.Run

variable {α β : Type} {s : State} {Q : α → State → Prop} {E : Halt → State → Prop}

/-- The part `x`, begun in `s`, ends with a value and a state in `Q` or with a halt and a state
in `E`. -/
def Ensures (x : RunM α) (s : State) (Q : α → State → Prop) (E : Halt → State → Prop) : Prop :=
  match x.run s with
  | (.ok a, s') => Q a s'
  | (.error h, s') => E h s'

/-! ## The rules of `do` blocks -/

@[simp] theorem ensures_pure {a : α} : Ensures (pure a) s Q E ↔ Q a s := Iff.rfl

@[simp] theorem ensures_throw {h : Halt} : Ensures (throw h : RunM α) s Q E ↔ E h s := Iff.rfl

@[simp] theorem ensures_fail {e : EngineError} :
    Ensures (fail e : RunM α) s Q E ↔ E (.failed e) s := Iff.rfl

@[simp] theorem ensures_get {Q : State → State → Prop} : Ensures get s Q E ↔ Q s s := Iff.rfl

@[simp] theorem ensures_set {s' : State} {Q : PUnit → State → Prop} :
    Ensures (set s') s Q E ↔ Q ⟨⟩ s' := Iff.rfl

@[simp] theorem ensures_modify {f : State → State} {Q : PUnit → State → Prop} :
    Ensures (modify f) s Q E ↔ Q ⟨⟩ (f s) := Iff.rfl

theorem run_bind (x : RunM β) (f : β → RunM α) (s : State) :
    (x >>= f).run s = match x.run s with
      | (.ok b, s') => (f b).run s'
      | (.error h, s') => (.error h, s') := by
  simp only [bind, ExceptT.bind, ExceptT.mk, ExceptT.bindCont, StateT.bind, ExceptT.run]
  obtain ⟨_ | _, s'⟩ := x s <;> rfl

theorem run_tryCatch (x : RunM α) (f : Halt → RunM α) (s : State) :
    (tryCatch x f).run s = match x.run s with
      | (.ok a, s') => (.ok a, s')
      | (.error h, s') => (f h).run s' := by
  simp only [tryCatch, tryCatchThe, MonadExceptOf.tryCatch, ExceptT.tryCatch, ExceptT.mk, bind,
    StateT.bind, ExceptT.run]
  obtain ⟨_ | _, s'⟩ := x s <;> rfl

@[simp] theorem ensures_bind {x : RunM β} {f : β → RunM α} :
    Ensures (x >>= f) s Q E ↔ Ensures x s (fun b s' => Ensures (f b) s' Q E) E := by
  unfold Ensures
  rw [run_bind]
  obtain ⟨_ | _, s'⟩ := x.run s <;> rfl

@[simp] theorem ensures_map {x : RunM β} {f : β → α} :
    Ensures (f <$> x) s Q E ↔ Ensures x s (fun b s' => Q (f b) s') E := by
  rw [← bind_pure_comp]
  exact ensures_bind

@[simp] theorem ensures_tryCatch {x : RunM α} {f : Halt → RunM α} :
    Ensures (tryCatch x f) s Q E ↔ Ensures x s Q (fun h s' => Ensures (f h) s' Q E) := by
  unfold Ensures
  rw [run_tryCatch]
  obtain ⟨_ | _, s'⟩ := x.run s <;> rfl

theorem ensures_ite {c : Prop} [Decidable c] {x y : RunM α} :
    Ensures (if c then x else y) s Q E ↔ (c → Ensures x s Q E) ∧ (¬c → Ensures y s Q E) := by
  split <;> simp_all

/-! ## Consequence -/

/-- What a part ensures may be weakened. -/
theorem Ensures.mono {x : RunM α} {Q' : α → State → Prop} {E' : Halt → State → Prop}
    (h : Ensures x s Q E) (hQ : ∀ a s', Q a s' → Q' a s') (hE : ∀ h s', E h s' → E' h s') :
    Ensures x s Q' E' := by
  unfold Ensures at h ⊢
  revert h
  obtain ⟨halt | a, s'⟩ := x.run s
  · exact hE halt s'
  · exact hQ a s'

/-- What a part ensures of its value may be weakened. -/
theorem Ensures.imp {x : RunM α} {Q' : α → State → Prop} (h : Ensures x s Q E)
    (hQ : ∀ a s', Q a s' → Q' a s') : Ensures x s Q' E :=
  h.mono hQ fun _ _ he => he

/-- A part ensures all that it was found to ensure. -/
theorem Ensures.and {x : RunM α} {Q' : α → State → Prop} {E' : Halt → State → Prop}
    (h : Ensures x s Q E) (h' : Ensures x s Q' E') :
    Ensures x s (fun a s' => Q a s' ∧ Q' a s') (fun halt s' => E halt s' ∧ E' halt s') := by
  unfold Ensures at h h' ⊢
  revert h h'
  obtain ⟨halt | a, s'⟩ := x.run s
  · exact And.intro
  · exact And.intro

/-- A part ensures what is true of everything. -/
theorem Ensures.of_forall {x : RunM α} (hQ : ∀ a s', Q a s') (hE : ∀ h s', E h s') :
    Ensures x s Q E := by
  unfold Ensures
  obtain ⟨halt | a, s'⟩ := x.run s
  · exact hE halt s'
  · exact hQ a s'

/-- What a part ensures holds of how it comes out. -/
theorem Ensures.of_run {x : RunM α} (h : Ensures x s Q E) {r : Except Halt α} {s' : State}
    (hr : x.run s = (r, s')) : match r with
      | .ok a => Q a s'
      | .error h => E h s' := by
  unfold Ensures at h
  rw [hr] at h
  cases r <;> exact h

/-! ## Repetition -/

/-- What holds after a number of attempts, and is handed on by every attempt without a value, holds
in the end after all of them. -/
theorem ensures_retrying_counted {attempt : Nat → RunM (Option α)} {I : Nat → State → Prop}
    {Q : α → State → Prop} {most : Nat}
    (h : ∀ n s, n < most → I n s → Ensures (attempt n) s (fun r s' => match r with
      | some a => Q a s'
      | none => I (n + 1) s') E) :
    ∀ left n s, n + left = most → I n s →
      Ensures (retrying attempt left n) s (fun r s' => match r with
        | some a => Q a s'
        | none => I most s') E := by
  intro left
  induction left with
  | zero => exact fun n s hn hs => hn ▸ hs
  | succ left ih =>
    intro n s hn hs
    rw [retrying, ensures_bind]
    refine (h n s (by omega) hs).mono (fun r s' hr => ?_) (fun _ _ he => he)
    cases r with
    | some a => exact hr
    | none => exact ih (n + 1) s' (by omega) hr

/-- An invariant of attempts that every attempt without a value keeps holds of the call that makes
them. -/
theorem ensures_retrying {attempt : Nat → RunM (Option α)} {I : State → Prop}
    {Q : α → State → Prop}
    (h : ∀ n s, I s → Ensures (attempt n) s (fun r s' => match r with
      | some a => Q a s'
      | none => I s') E) :
    ∀ left n s, I s → Ensures (retrying attempt left n) s (fun r s' => match r with
      | some a => Q a s'
      | none => I s') E :=
  fun left n s => ensures_retrying_counted (I := fun _ s => I s) (fun n s _ => h n s) left n s rfl

end AgentRun.Run
