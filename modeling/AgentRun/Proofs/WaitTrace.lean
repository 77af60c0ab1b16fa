import AgentRun.Proofs.WaitCourse

/-!
# What a journal tells of the waits

A journal whose entries all fit tells of every place in it how the run came to stand as it does with
its client (`Traced`). The call that it works on is the last that was taken up, a wait is one for
that call, and a payload is one that was accepted during the wait. So what goes to the client goes
out during the wait for it, and what a call for the client is answered with came from there.
-/

namespace AgentRun.Run

/-- Whether an entry takes a call up or shows the result of one. -/
def Entry.isTurn : Entry → Bool
  | .dispatch _ => true
  | .event (.toolResult _ _) => true
  | _ => false

/-- A call was taken up and its result is not shown yet. What came of it so far is `since`. -/
structure TakenLast (j : List Entry) (call : Call) (since : List Entry) : Prop where
  taken : ∃ earlier, j = earlier ++ .dispatch call :: since
  unanswered : ∀ e ∈ since, e.isTurn = false

/-- A call for the client is in hand, and the wait for it began and is not over. -/
structure WaitsWith (env : Env) (j : List Entry) (call : Call) (since : List Entry) : Prop
    extends TakenLast j call since where
  asks : env.AsksClient call
  began : .waitBegan ⟨env.runId, call.id⟩ ∈ since
  unended : ∀ e ∈ since, ∀ key, e ≠ .waitEnded key

/-- An answer is put together: a model call was admitted, and all that came of it is what is heard
of an answer. -/
def Composing (j : List Entry) : Prop :=
  ∃ earlier time request since, j = earlier ++ .modelCall time request :: since ∧
    ∀ e ∈ since, e.isHeard = true ∨ e.isSubmission = true

/-- A payload was submitted for a wait and was accepted. -/
def Accepted (key : WaitKey) (payload : Json) (j : List Entry) : Prop :=
  ∃ ticket ack, .submission ticket key payload ack ∈ j ∧ ack.accepted = true

variable {env : Env} {j since before after : List Entry} {w : Wait} {call : Call} {e : Entry}
  {key : WaitKey} {payload : Json}

theorem TakenLast.snoc (h : TakenLast j call since) (he : e.isTurn = false) :
    TakenLast (j ++ [e]) call (since ++ [e]) where
  taken := by
    obtain ⟨earlier, rfl⟩ := h.taken
    exact ⟨earlier, by simp⟩
  unanswered := List.forall_mem_append.mpr ⟨h.unanswered, List.forall_mem_singleton.mpr he⟩

theorem WaitsWith.snoc (h : WaitsWith env j call since) (he : e.isTurn = false)
    (hended : ∀ key, e ≠ .waitEnded key) : WaitsWith env (j ++ [e]) call (since ++ [e]) where
  toTakenLast := h.toTakenLast.snoc he
  asks := h.asks
  began := List.mem_append_left _ h.began
  unended := List.forall_mem_append.mpr ⟨h.unended, List.forall_mem_singleton.mpr hended⟩

theorem Composing.snoc (h : Composing j) (he : e.isHeard = true ∨ e.isSubmission = true) :
    Composing (j ++ [e]) := by
  obtain ⟨earlier, time, request, since, rfl, hsince⟩ := h
  exact ⟨earlier, time, request, since ++ [e], by simp,
    List.forall_mem_append.mpr ⟨hsince, List.forall_mem_singleton.mpr he⟩⟩

theorem Accepted.snoc (h : Accepted key payload j) : Accepted key payload (j ++ [e]) := by
  obtain ⟨ticket, ack, hmem, haccepted⟩ := h
  exact ⟨ticket, ack, List.mem_append_left _ hmem, haccepted⟩

/-- Nothing of a wait was noted but what somebody submitted. -/
def Unawaited (j : List Entry) : Prop := ∀ e ∈ j, e.isOfWait = true → e.isSubmission = true

theorem Unawaited.snoc (h : Unawaited j) (he : e.isOfWait = true → e.isSubmission = true) :
    Unawaited (j ++ [e]) :=
  List.forall_mem_append.mpr ⟨h, List.forall_mem_singleton.mpr he⟩

theorem TakenLast.waitsWith (h : TakenLast j call since) (hasks : env.AsksClient call)
    (hnone : Unawaited since) : WaitsWith env (j ++ [.waitBegan ⟨env.runId, call.id⟩]) call
      (since ++ [.waitBegan ⟨env.runId, call.id⟩]) where
  toTakenLast := h.snoc rfl
  asks := hasks
  began := List.mem_append_right _ (List.mem_singleton_self _)
  unended := by
    rintro e he key rfl
    rcases List.mem_append.mp he with he | he
    · cases hnone _ he rfl
    · cases List.mem_singleton.mp he

/-- How a run came to stand so with its client. -/
def Traced (env : Env) (j : List Entry) : Wait → Prop
  | .idle => True
  | .answering => Composing j
  | .called call => ∃ since, TakenLast j call since ∧ Unawaited since
  | .waiting callId _ answer => ∃ call since, call.id = callId ∧ WaitsWith env j call since ∧
      ∀ payload, answer = some payload → Accepted ⟨env.runId, callId⟩ payload since
  | .owed callId payload => ∃ call since, call.id = callId ∧ TakenLast j call since ∧
      env.AsksClient call ∧ Accepted ⟨env.runId, callId⟩ payload since

namespace Traced

theorem snoc_idle (h : e.Fits env .idle) :
    Traced env (j ++ [e]) (Wait.idle.after env.runId e) := by
  cases e with
  | modelCall time request => exact ⟨j, time, request, [], rfl, List.forall_mem_nil _⟩
  | dispatch call => exact ⟨[], ⟨⟨j, rfl⟩, List.forall_mem_nil _⟩, List.forall_mem_nil _⟩
  | waitBegan key =>
    obtain ⟨call, hcalled, -⟩ := h
    cases hcalled
  | _ => trivial

theorem snoc_answering (ht : Composing j) (h : e.Fits env .answering) :
    Traced env (j ++ [e]) (Wait.answering.after env.runId e) := by
  cases e with
  | submission => exact ht.snoc (Or.inr rfl)
  | waitBegan key =>
    obtain ⟨call, hcalled, -⟩ := h
    cases hcalled
  | waitEnded key =>
    obtain ⟨-, shown, answer, hwaiting⟩ := h
    cases hwaiting
  | answer => trivial
  | _ => exact ht.snoc (Or.inl (h.resolve_right fun ⟨_, _, heq⟩ => nomatch heq))

theorem snoc_called (ht : Traced env j (.called call)) (h : e.Fits env (.called call)) :
    Traced env (j ++ [e]) ((Wait.called call).after env.runId e) := by
  obtain ⟨since, hlast, hnone⟩ := ht
  have stays (he : e.isTurn = false) (hwait : e.isOfWait = true → e.isSubmission = true) :
      Traced env (j ++ [e]) (.called call) := ⟨since ++ [e], hlast.snoc he, hnone.snoc hwait⟩
  cases e with
  | waitBegan key =>
    obtain ⟨taken, heq, hasks, rfl⟩ := h
    cases heq
    exact ⟨call, _, rfl, hlast.waitsWith hasks hnone, nofun⟩
  | waitEnded key =>
    obtain ⟨-, shown, answer, hwaiting⟩ := h
    cases hwaiting
  | event e =>
    cases e with
    | toolResult => trivial
    | _ => exact stays rfl nofun
  | submission => exact stays rfl fun _ => rfl
  | invocation => exact stays rfl nofun
  | _ => exact h.elim

theorem snoc_waiting {callId : String} {shown : Bool} {answer : Option Json}
    (ht : Traced env j (.waiting callId shown answer))
    (h : e.Fits env (.waiting callId shown answer)) :
    Traced env (j ++ [e]) ((Wait.waiting callId shown answer).after env.runId e) := by
  obtain ⟨call, since, hid, hwaits, hcame⟩ := ht
  have stays (he : e.isTurn = false) (hended : ∀ key, e ≠ .waitEnded key) (shown' : Bool) :
      Traced env (j ++ [e]) (.waiting callId shown' answer) :=
    ⟨call, since ++ [e], hid, hwaits.snoc he hended, fun payload hp => (hcame payload hp).snoc⟩
  cases e with
  | waitBegan key =>
    obtain ⟨call, hcalled, -⟩ := h
    cases hcalled
  | waitEnded key =>
    cases answer with
    | none => trivial
    | some payload =>
      exact ⟨call, _, hid, hwaits.toTakenLast.snoc rfl, hwaits.asks, (hcame payload rfl).snoc⟩
  | submission ticket key payload ack =>
    cases answer with
    | some first => exact stays rfl (fun _ => nofun) shown
    | none =>
      by_cases hfor : key = ⟨env.runId, callId⟩
      · subst hfor
        have haccepted : ack.accepted = true := (h rfl).mpr ⟨shown, rfl⟩
        refine ⟨call, since ++ [_], hid, hwaits.snoc rfl fun _ => nofun, fun payload' hp => ?_⟩
        obtain rfl : payload = payload' := by simpa using hp
        exact ⟨ticket, ack, List.mem_append_right _ (List.mem_singleton_self _), haccepted⟩
      · have hwait : (Wait.waiting callId shown none).after env.runId
            (.submission ticket key payload ack) = .waiting callId shown none :=
          congrArg (Wait.waiting callId shown) (if_neg hfor)
        rw [hwait]
        exact stays rfl (fun _ => nofun) shown
  | event e =>
    obtain ⟨-, echoed, args, heq, -⟩ := h
    cases heq
    rw [Wait.after_event]
    exact stays rfl (fun _ => nofun) true
  | _ =>
    obtain ⟨-, echoed, args, heq, -⟩ := h
    cases heq

theorem snoc_owed {callId : String} (ht : Traced env j (.owed callId payload))
    (h : e.Fits env (.owed callId payload)) :
    Traced env (j ++ [e]) ((Wait.owed callId payload).after env.runId e) := by
  cases e with
  | waitBegan key =>
    obtain ⟨call, hcalled, -⟩ := h
    cases hcalled
  | waitEnded key =>
    obtain ⟨-, shown, answer, hwaiting⟩ := h
    cases hwaiting
  | submission ticket key value ack =>
    obtain ⟨call, since, hid, hlast, hasks, hcame⟩ := ht
    exact ⟨call, _, hid, hlast.snoc rfl, hasks, hcame.snoc⟩
  | event e =>
    cases (show _ = _ from h)
    trivial
  | _ => cases (show _ = _ from h)

theorem snoc (ht : Traced env j w) (h : e.Fits env w) :
    Traced env (j ++ [e]) (w.after env.runId e) := by
  cases w with
  | idle => exact snoc_idle h
  | answering => exact snoc_answering ht h
  | called => exact snoc_called ht h
  | waiting => exact snoc_waiting ht h
  | owed => exact snoc_owed ht h

end Traced

theorem Fitting.start (h : Fitting env (before ++ after)) : Fitting env before :=
  fun i e j heq => h i e (j ++ after) (by simp [heq])

theorem Fitting.traced (h : Fitting env j) : Traced env j (waitOf env.runId j) := by
  induction j using List.reverseRecOn with
  | nil => trivial
  | append_singleton j e ih =>
    rw [waitOf_snoc]
    exact (ih h.start).snoc (h j e [] rfl)

/-! ## What follows for a journal -/

/-- A piece of a call goes to the client as the model gives an answer with it, or during the wait
for the call, which is open as long as no payload was accepted. -/
theorem Fitting.echoed {p : CallPiece} (h : Fitting env (before ++ .event (.toolCall p) :: after))
    (hfrontend : p.callType = some ToolKind.frontend.text) :
    Composing before ∨ ∃ call since, call.id = p.id ∧ WaitsWith env before call since ∧
      ((waitOf env.runId before).IsOpen p.id ∨
        ∃ payload, Accepted ⟨env.runId, p.id⟩ payload since) := by
  have ht : Traced env before (waitOf env.runId before) := h.start.traced
  have hfit : (Entry.event (.toolCall p)).FitsIn env (waitOf env.runId before) :=
    h before _ after rfl
  cases hw : waitOf env.runId before with
  | idle =>
    rw [hw] at hfit
    cases hfit
  | answering =>
    rw [hw] at ht
    exact Or.inl ht
  | called call =>
    rw [hw] at hfit
    exact absurd hfrontend hfit.2.1
  | waiting callId shown answer =>
    rw [hw] at hfit ht
    obtain ⟨-, echoed, args, heq, rfl⟩ := hfit
    obtain ⟨call, since, hcall, hwaits, hcame⟩ := ht
    cases heq
    refine Or.inr ⟨call, since, hcall, hwaits, ?_⟩
    cases answer with
    | none => exact Or.inl ⟨shown, rfl⟩
    | some payload => exact Or.inr ⟨payload, hcame payload rfl⟩
  | owed callId payload =>
    rw [hw] at hfit
    cases hfit

/-- A result is that of the call in hand. If this is one for the client, the budget denies it or a
payload was accepted for it. -/
theorem Fitting.answered {callId : String} {result : Json}
    (h : Fitting env (before ++ .event (.toolResult callId result) :: after)) :
    ∃ call since, call.id = callId ∧ TakenLast before call since ∧ (env.AsksClient call →
      IsDenial result ∧ Unawaited since ∨ Accepted ⟨env.runId, callId⟩ result since) := by
  have ht : Traced env before (waitOf env.runId before) := h.start.traced
  have hfit : (Entry.event (.toolResult callId result)).FitsIn env (waitOf env.runId before) :=
    h before _ after rfl
  cases hw : waitOf env.runId before with
  | idle =>
    rw [hw] at hfit
    cases hfit
  | answering =>
    rw [hw] at hfit
    rcases hfit with hheard | ⟨request, turn, heq⟩
    · cases hheard
    · cases heq
  | called call =>
    rw [hw] at hfit ht
    obtain ⟨rfl, hreason⟩ := hfit
    obtain ⟨since, hlast, hnone⟩ := ht
    refine ⟨call, since, rfl, hlast, fun hasks => Or.inl ⟨?_, hnone⟩⟩
    exact hreason.resolve_right fun hnot => hnot hasks
  | waiting callId' shown answer =>
    rw [hw] at hfit
    obtain ⟨-, echoed, args, heq, -⟩ := hfit
    cases heq
  | owed callId' payload =>
    rw [hw] at hfit ht
    obtain ⟨call, since, hcall, hlast, hasks, hcame⟩ := ht
    cases (show _ = _ from hfit)
    exact ⟨call, since, hcall, hlast, fun _ => Or.inr hcame⟩

/-- What a run does first in a part of a journal. -/
def firstOwn? (j : List Entry) : Option Entry := j.find? fun e => !e.isSubmission

/-- A call is taken up while nothing else is. -/
theorem Fitting.taken (h : Fitting env (before ++ .dispatch call :: after)) :
    waitOf env.runId (before ++ [.dispatch call]) = .called call := by
  have hfit : (Entry.dispatch call).FitsIn env (waitOf env.runId before) := h before _ after rfl
  rw [waitOf_snoc]
  cases hw : waitOf env.runId before with
  | idle => rfl
  | answering =>
    rw [hw] at hfit
    rcases hfit with hheard | ⟨request, turn, heq⟩
    · cases hheard
    · cases heq
  | called call' =>
    rw [hw] at hfit
    exact hfit.elim
  | waiting callId shown answer =>
    rw [hw] at hfit
    obtain ⟨-, echoed, args, heq, -⟩ := hfit
    cases heq
  | owed callId payload =>
    rw [hw] at hfit
    cases hfit

/-- After a call for the client was taken up, the run begins to wait for it or shows that the budget
denies it, before it does anything else. -/
theorem Fitting.asked (h : Fitting env (j ++ after)) (hw : waitOf env.runId j = .called call)
    (hasks : env.AsksClient call) :
    firstOwn? after = some (.waitBegan ⟨env.runId, call.id⟩) ∨
      (∃ result, IsDenial result ∧
        firstOwn? after = some (.event (.toolResult call.id result))) ∨
      firstOwn? after = none ∧ waitOf env.runId (j ++ after) = .called call := by
  induction after generalizing j with
  | nil => exact Or.inr (Or.inr ⟨rfl, by simpa using hw⟩)
  | cons e after ih =>
    have hfit : e.Fits env (waitOf env.runId j) := h j e after rfl
    rw [hw] at hfit
    cases e with
    | submission ticket key payload ack =>
      have hsplit : j ++ .submission ticket key payload ack :: after =
          (j ++ [.submission ticket key payload ack]) ++ after := by simp
      rw [hsplit] at h ⊢
      refine ih h ?_
      rw [waitOf_snoc, hw]
      rfl
    | waitBegan key =>
      obtain ⟨taken, heq, -, rfl⟩ := hfit
      cases heq
      exact Or.inl rfl
    | waitEnded key =>
      obtain ⟨-, shown, answer, hwaiting⟩ := hfit
      cases hwaiting
    | event e =>
      cases e with
      | toolResult callId result =>
        obtain ⟨rfl, hreason⟩ := hfit
        exact Or.inr (Or.inl ⟨result, hreason.resolve_right fun hnot => hnot hasks, rfl⟩)
      | toolCall p => exact absurd hasks hfit.2.2
      | _ => exact absurd hasks hfit
    | invocation i => exact absurd hasks hfit.2
    | _ => exact hfit.elim

end AgentRun.Run
