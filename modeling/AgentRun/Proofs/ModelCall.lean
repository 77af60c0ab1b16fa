import AgentRun.Proofs.Delivery

/-!
# What a model call does

A model call that is admitted leaves its entry, an entry for each attempt and the events of the
attempt that decides it. An attempt that is repeated gave no event, and nothing of it is left in the
answer; so a turn is what the chunks of one attempt make of an empty answer, and its events are the
events of these chunks (`AnswerTrail`). A call that breaks off leaves the same but for the turn.
-/

namespace AgentRun

/-- A reply that does not come to an end: the request is never taken, or the stream falls silent. -/
def Reply.NeverEnds (r : Reply) : Prop :=
  r.after = none ∨ ∃ stream, r.opening = .stream stream ∧ stream.ending = .silent

namespace Run

open Assembly (pushAll)

variable {env : Env} {t : List Entry} {l : Ledger} {a : Assembly} {s s' : State}

/-- The halts that a model can bring about. -/
inductive ModelFault : Halt → Prop
  | gateway (e : GatewayError) : ModelFault (.failed (.gateway e))
  /-- No attempt gave anything in time. -/
  | timedOut (e : CallTimeout) : ModelFault (.failed (.modelTimeout e))
  /-- It ran out of time with a part of its answer delivered. -/
  | stalled (timeoutMs : Nat) : ModelFault (.failed (.modelStalled timeoutMs))
  /-- Its client breaks down. -/
  | panicked (message : String) : ModelFault (.panicked message)
  /-- It never answers. -/
  | stuck : ModelFault .stuck

/-- The attempts of a request. -/
def Attempts (request : ModelRequest) (u : List Entry) : Prop :=
  ∀ e ∈ u, ∃ time, e = .attempt time request

theorem Attempts.nil {request : ModelRequest} : Attempts request [] :=
  fun _ h => absurd h List.not_mem_nil

theorem Attempts.snoc {request : ModelRequest} {u : List Entry} (h : Attempts request u)
    (time : Nat) : Attempts request (u ++ [.attempt time request]) := by
  intro e he
  rcases List.mem_append.mp he with he | he
  · exact h e he
  · exact ⟨time, List.mem_singleton.mp he⟩

theorem Attempts.requestsOf_eq {request : ModelRequest} {u : List Entry}
    (h : Attempts request u) : requestsOf u = List.replicate u.length request := by
  induction u with
  | nil => rfl
  | cons e u ih =>
    obtain ⟨time, rfl⟩ := h e List.mem_cons_self
    exact congrArg (request :: ·) (ih fun f hf => h f (List.mem_cons_of_mem _ hf))

theorem Attempts.callsOf_eq {request : ModelRequest} {u : List Entry} (h : Attempts request u) :
    callsOf u = [] :=
  List.filterMap_eq_nil_iff.mpr fun e he => by
    obtain ⟨time, rfl⟩ := h e he
    rfl

/-- The first attempts of a request, by their number, the very first of them at a given time. -/
structure Tried (time : Nat) (request : ModelRequest) (n : Nat) (tries : List Entry) : Prop where
  attempts : Attempts request tries
  count : tries.length = n
  first : ∀ e ∈ tries.head?, e = .attempt time request

theorem Tried.nil {time : Nat} {request : ModelRequest} : Tried time request 0 [] :=
  ⟨.nil, rfl, fun _ h => by cases h⟩

theorem Tried.snoc {time time' n : Nat} {request : ModelRequest} {tries : List Entry}
    (h : Tried time request n tries) (htime : n = 0 → time' = time) :
    Tried time request (n + 1) (tries ++ [.attempt time' request]) := by
  refine ⟨h.attempts.snoc time', by simp [h.count], fun e he => ?_⟩
  cases tries with
  | nil =>
    obtain rfl := htime h.count.symm
    exact (Option.some.inj he).symm
  | cons f tries => exact h.first e he

/-- The trail of a model call that began at a time: its first attempt comes at once, and there are
no more attempts than it may have. -/
structure Begun (time most : Nat) (request : ModelRequest) (u : List Entry) : Prop where
  first : ∃ rest, u = .modelCall time request :: .attempt time request :: rest
  calls : callsOf u = [(time, request)]
  requests : ∃ n, 0 < n ∧ n ≤ most ∧ requestsOf u = List.replicate n request

theorem Tried.begun {time n most : Nat} {request : ModelRequest} {tries rest : List Entry}
    (h : Tried time request n tries) (hpos : 0 < n) (hmost : n ≤ most) (hcalls : callsOf rest = [])
    (hrequests : requestsOf rest = []) :
    Begun time most request (.modelCall time request :: tries ++ rest) where
  first := by
    cases tries with
    | nil => exact absurd h.count (Nat.ne_of_lt hpos)
    | cons e tries =>
      obtain rfl := h.first e rfl
      exact ⟨tries ++ rest, rfl⟩
  calls := by
    rw [callsOf_append, hcalls, List.append_nil]
    exact congrArg ((time, request) :: ·) h.attempts.callsOf_eq
  requests := by
    refine ⟨n, hpos, hmost, ?_⟩
    rw [requestsOf_append, hrequests, List.append_nil]
    exact h.attempts.requestsOf_eq.trans (by rw [h.count])

/-- The trail of a model call that was answered with a turn. -/
inductive AnswerTrail (supply : Supply) (request : ModelRequest) : List Entry → Turn → Prop
  | answered {time minted : Nat} {tries : List Entry} (cs : List Chunk)
      (htries : Attempts request tries) :
      AnswerTrail supply request
        (.modelCall time request :: tries ++ (pushAll supply cs (.start minted)).1.map .event ++
          [.answer request (pushAll supply cs (.start minted)).2.turn])
        (pushAll supply cs (.start minted)).2.turn

/-- The trail of a model call that broke off. -/
inductive BrokenTrail (request : ModelRequest) : List Entry → Prop
  | broken {time : Nat} {tries : List Entry} {es : List Event} (htries : Attempts request tries)
      (hes : ∀ e ∈ es, e.isPiece = true) :
      BrokenTrail request (.modelCall time request :: tries ++ es.map .event)

theorem quiet_of_piece {e : Event} (h : e.isPiece = true) : (Entry.event e).isQuiet = true := by
  cases e with
  | toolResult => cases h
  | planUpdate => cases h
  | _ => rfl

theorem BrokenTrail.quiet {request : ModelRequest} {u : List Entry} (h : BrokenTrail request u) :
    ∀ e ∈ u, e.isQuiet = true := by
  cases h with
  | broken htries hes =>
    intro e he
    rcases List.mem_append.mp he with he | he
    · rcases List.mem_cons.mp he with rfl | he
      · rfl
      · obtain ⟨_, rfl⟩ := htries e he
        rfl
    · obtain ⟨f, hf, rfl⟩ := List.mem_map.mp he
      exact quiet_of_piece (hes f hf)

/-- The trail of an answer is that of a call that broke off, with the turn behind it. -/
theorem AnswerTrail.eq_append {supply : Supply} {request : ModelRequest} {u : List Entry}
    {turn : Turn} (h : AnswerTrail supply request u turn) :
    ∃ v, u = v ++ [.answer request turn] ∧ BrokenTrail request v ∧
      ∀ c ∈ turn.calls, ∃ e ∈ eventsOf v, e.pieceId? = some c.id := by
  cases h with
  | @answered time minted tries cs htries =>
    have grew : Assembly.Grew supply (.start minted) (pushAll supply cs (.start minted)).1
        (pushAll supply cs (.start minted)).2 := Assembly.pushAll_grew cs
    refine ⟨_, rfl, .broken htries grew.pieces, fun c hc => ?_⟩
    obtain ⟨e, he, hec⟩ := Assembly.turn_shown grew c hc
    refine ⟨e, ?_, hec⟩
    rw [eventsOf_append, eventsOf_map_event]
    exact List.mem_append_right _ he

theorem Event.not_finish_of_piece {e : Event} (h : e.isPiece = true) : e.isFinish = false := by
  cases e with
  | finish => cases h
  | _ => rfl

/-! ## The parts of a call -/

theorem admitModel_eq {sp sp' : Spending} (h : sp.admitModel = .ok sp') :
    sp.modelIsSpent = false ∧ sp' = { sp with modelCalls := sp.modelCalls + 1 } := by
  unfold Spending.admitModel at h
  split at h
  · cases h
  · rename_i hspent
    exact ⟨Bool.eq_false_iff.mpr hspent, (Except.ok.inj h).symm⟩

theorem modelIsSpent_of_denied {sp : Spending} {e : BudgetExceeded} (h : sp.admitModel = .error e) :
    sp.modelIsSpent = true := by
  unfold Spending.admitModel at h
  split at h
  · assumption
  · cases h

section Parts

variable {E : Halt → State → Prop} {request : ModelRequest} {n : Nat}

/-- A chunk is put to the answer, and its events go out. -/
theorem ensures_takeChunk {Q : Bool → State → Prop} {c : Chunk}
    (emitted : Ensures (emitAll env (s.assembly.push env.supply c).1)
      { s with assembly := (s.assembly.push env.supply c).2 }
      (fun _ s₁ => Q (!(s.assembly.push env.supply c).1.isEmpty) s₁) E) :
    Ensures (takeChunk env c) s Q E := by
  simp only [takeChunk, ensures_bind, ensures_get, ensures_set, ensures_pure]
  exact emitted

section Stream

variable {I : Bool → State → Prop} {Q : AttemptEnd → State → Prop}

/-- The rest of a stream comes to its end or runs out of time. What its waits leave alone and its
chunks hand on may depend on whether there was an event. It waits for what never comes only at a
silent end. -/
theorem ensures_readStream {deadline : Option Nat} {endsAfter : Nat} {ending : StreamEnd}
    {rest : List (Nat × Chunk)} {emitted : Bool} (start : I emitted s)
    (waits : ∀ takes heard s₁, (takes = none → ending = .silent) → I heard s₁ →
      Ensures (waitFor env takes deadline) s₁ (fun _ s₂ => I heard s₂) E)
    (taken : ∀ step ∈ rest, ∀ heard s₁, I heard s₁ →
      Ensures (takeChunk env step.2) s₁ (fun more s₂ => I (heard || more) s₂) E)
    (complete : ∀ heard s₁, I heard s₁ → Q .complete s₁)
    (late : ∀ heard s₁, I heard s₁ → Q (.timedOut heard) s₁)
    (failed : ∀ e heard s₁, I heard s₁ → E (.failed (.gateway e)) s₁)
    (panicked : ∀ message heard s₁, I heard s₁ → E (.panicked message) s₁) :
    Ensures (readStream env deadline endsAfter ending emitted rest) s Q E := by
  induction rest generalizing s emitted with
  | nil =>
    simp only [readStream, ensures_bind]
    refine (waits (some endsAfter) emitted s (fun h => by cases h) start).imp
      (fun inTime s₁ h₁ => ?_)
    cases inTime with
    | false => exact late _ s₁ h₁
    | true =>
      cases ending with
      | done => exact complete _ s₁ h₁
      | failed e => exact failed e _ s₁ h₁
      | panicked message => exact panicked message _ s₁ h₁
      | silent =>
        simp only [Bool.not_true, Bool.false_eq_true, if_false, ensures_bind, ensures_pure]
        exact (waits none emitted s₁ (fun _ => rfl) h₁).imp fun _ s₂ h₂ => late _ s₂ h₂
  | cons step rest ih =>
    obtain ⟨after, c⟩ := step
    simp only [readStream, ensures_bind]
    refine (waits (some after) emitted s (fun h => by cases h) start).imp (fun inTime s₁ h₁ => ?_)
    cases inTime with
    | false => exact late _ s₁ h₁
    | true =>
      simp only [Bool.not_true, Bool.false_eq_true, if_false, ensures_bind]
      exact (taken (after, c) List.mem_cons_self _ s₁ h₁).imp (fun more s₂ h₂ =>
        ih h₂ fun step hstep => taken step (List.mem_cons_of_mem _ hstep))

/-- An attempt comes to the end of its answer or runs out of time. What its waits leave alone and
the chunks of the answer hand on may depend on whether there was an event. It waits for what never
comes only if the reply does not come to an end. -/
theorem ensures_attemptAnswer {limit : Option Nat}
    (asked : I false { s.note (.attempt s.now request) with
      world := { s.world with requests := s.world.requests ++ [request] } })
    (waits : ∀ takes heard s₁,
      (takes = none → (env.model.reply s.world.requests request).NeverEnds) → I heard s₁ →
      Ensures (waitFor env takes (limit.map (s.now + ·))) s₁ (fun _ s₂ => I heard s₂) E)
    (taken : ∀ stream, (env.model.reply s.world.requests request).opening = .stream stream →
      ∀ step ∈ stream.chunks, ∀ heard s₁, I heard s₁ →
        Ensures (takeChunk env step.2) s₁ (fun more s₂ => I (heard || more) s₂) E)
    (complete : ∀ heard s₁, I heard s₁ → Q .complete s₁)
    (late : ∀ heard s₁, I heard s₁ → Q (.timedOut heard) s₁)
    (failed : ∀ e heard s₁, I heard s₁ → E (.failed (.gateway e)) s₁)
    (panicked : ∀ message heard s₁, I heard s₁ → E (.panicked message) s₁) :
    Ensures (attemptAnswer env request limit) s Q E := by
  simp only [attemptAnswer, ensures_bind, ensures_get, ensures_set]
  refine (waits _ _ _ Or.inl asked).imp (fun inTime s₁ h₁ => ?_)
  cases inTime with
  | false => exact late _ s₁ h₁
  | true =>
    simp only [Bool.not_true, Bool.false_eq_true, if_false]
    cases hopening : (env.model.reply s.world.requests request).opening with
    | refused e => exact failed e _ s₁ h₁
    | panicked message => exact panicked message _ s₁ h₁
    | stream stream =>
      exact ensures_readStream h₁
        (fun takes _ s₂ htakes => waits takes _ s₂ fun h => Or.inr ⟨stream, hopening, htakes h⟩)
        (taken stream hopening) complete late failed panicked

end Stream

/-- An attempt is answered, stalls, or was silent, and then it is the last one or not. -/
theorem ensures_answerInTime {scope : Scope} {Q : AttemptEnd → State → Prop}
    {R : Option Turn → State → Prop}
    (attempt : Ensures (attemptAnswer env request scope.timeout?) s Q E)
    (answered : ∀ s₁, Q .complete s₁ → R (some s₁.assembly.turn)
      (State.note (.answer request s₁.assembly.turn) { s₁ with assembly := s₁.assembly.next }))
    (stalled : ∀ s₁, Q (.timedOut true) s₁ → E (.failed (.modelStalled scope.timeoutMs)) s₁)
    (silent : n + 1 < scope.attempts → ∀ s₁, Q (.timedOut false) s₁ →
      R none { s₁ with assembly := s₁.assembly.next })
    (late : scope.attempts ≤ n + 1 → ∀ s₁, Q (.timedOut false) s₁ →
      E (.failed (.modelTimeout scope.timeoutError)) s₁) :
    Ensures (answerInTime env request scope n) s R E := by
  simp only [answerInTime, ensures_bind]
  refine attempt.imp (fun r s₁ h₁ => ?_)
  cases r with
  | complete =>
    simp only [takeTurn, ensures_bind, ensures_get, ensures_set, ensures_pure, ensures_modify]
    exact answered s₁ h₁
  | timedOut emitted =>
    cases emitted with
    | true => exact stalled s₁ h₁
    | false =>
      simp only [takeTurn, ensures_ite, ensures_fail, ensures_bind, ensures_get, ensures_set,
        ensures_pure]
      exact ⟨fun hleft => silent hleft s₁ h₁, fun hlast => late (Nat.le_of_not_lt hlast) s₁ h₁⟩

/-- A model call is denied, or it is noted and made in attempts, of which one should come to an
answer. -/
theorem ensures_callModel {ask : Ask} {R : Option Turn → State → Prop}
    (denied : ∀ e, s.spending.admitModel = .error e → R none s)
    (admitted : ∀ spending, s.spending.admitModel = .ok spending →
      Ensures (retrying (answerInTime env (requestFor env s.history ask) spending.budget.model)
          spending.budget.model.attempts 0)
        (State.note (.modelCall s.now (requestFor env s.history ask))
          { s with spending := spending })
        (fun answer s₁ => answer.isSome = true ∧ R answer s₁ ∨
          answer = none ∧ ∀ e, E (.failed (.internal e)) s₁) E) :
    Ensures (callModel env ask) s R E := by
  simp only [callModel, ensures_bind, ensures_get]
  cases hadmitted : s.spending.admitModel with
  | error e => exact denied e hadmitted
  | ok spending =>
    simp only [ensures_bind, ensures_set]
    refine (admitted spending hadmitted).imp (fun answer s₁ h₁ => ?_)
    rcases h₁ with ⟨hsome, h₁⟩ | ⟨rfl, h₁⟩
    · obtain ⟨turn, rfl⟩ := Option.isSome_iff_exists.mp hsome
      exact h₁
    · exact h₁ _

/-- What holds behind a model call that is denied and behind every answer. Between its attempts a
call may be in a state of its own. -/
theorem callModel_by_attempts {ask : Ask} {I R : State → Prop} (denied : R s)
    (asked : ∀ spending, s.spending.admitModel = .ok spending →
      I (State.note (.modelCall s.now (requestFor env s.history ask))
        { s with spending := spending }))
    (attempt : ∀ spending, s.spending.admitModel = .ok spending → ∀ n s₁, I s₁ →
      Ensures (answerInTime env (requestFor env s.history ask) spending.budget.model n) s₁
        (fun answer s₂ => if answer.isSome then R s₂ else I s₂) E)
    (unanswered : ∀ {e s₁}, I s₁ → E (.failed (.internal e)) s₁) :
    Ensures (callModel env ask) s (fun _ s' => R s') E := by
  refine ensures_callModel (fun _ _ => denied) (fun spending hadmitted => ?_)
  refine (ensures_retrying (I := I) (Q := fun _ s' => R s') (fun n s₁ h₁ => ?_) _ 0 _
    (asked spending hadmitted)).imp (fun answer s₁ h₁ => ?_)
  · refine (attempt spending hadmitted n s₁ h₁).imp (fun answer s₂ h₂ => ?_)
    cases answer <;> exact h₂
  · cases answer with
    | some turn => exact Or.inl ⟨rfl, h₁⟩
    | none => exact Or.inr ⟨rfl, fun _ => unanswered h₁⟩

end Parts

/-! ## Chunks -/

theorem takeChunk_spec (p : Stands env t l a s) (c : Chunk) :
    Ensures (takeChunk env c) s
      (fun more s' => more = !(a.push env.supply c).1.isEmpty ∧
        Stands env (t ++ (a.push env.supply c).1.map .event) l (a.push env.supply c).2 s')
      (fun halt s' => Gone halt s' ∧ ∃ done, done <+: (a.push env.supply c).1 ∧
        Stands env (t ++ done.map .event) l (a.push env.supply c).2 s') := by
  obtain rfl := p.assembly
  have grew : Assembly.Grew env.supply s.assembly (s.assembly.push env.supply c).1
      (s.assembly.push env.supply c).2 := Assembly.push_grew c
  refine ensures_takeChunk ((emitAll_spec (p.withAssembly grew.minted (grew.blocks p.ready.blocks))
    (fun e he => Event.not_finish_of_piece (grew.pieces e he))
    (grew.texts p.ready.blocks)).imp (fun _ s' p' => ⟨rfl, p'⟩))

/-! ## Attempts -/

theorem attemptAnswer_spec (p : Stands env t l a s) (request : ModelRequest) (limit : Option Nat) :
    Ensures (attemptAnswer env request limit) s
      (fun r s' => ∃ cs, Stands env
          (t ++ .attempt s.now request :: (pushAll env.supply cs a).1.map .event) l
          (pushAll env.supply cs a).2 s' ∧
        (r = .timedOut false → (pushAll env.supply cs a).1 = []))
      (fun halt s' => (ModelFault halt ∨ Gone halt s') ∧ ∃ cs done a',
        done <+: (pushAll env.supply cs a).1 ∧
          Stands env (t ++ .attempt s.now request :: done.map .event) l a' s') := by
  have asked : Stands env (t ++ [.attempt s.now request]) l a
      { s.note (.attempt s.now request) with
        world := { s.world with requests := s.world.requests ++ [request] } } :=
    (p.note rfl rfl).withWorld _
  -- What was taken so far are some chunks, and there was an event or they gave none.
  refine ensures_attemptAnswer
    (I := fun heard s' => ∃ cs, Stands env
        (t ++ .attempt s.now request :: (pushAll env.supply cs a).1.map .event) l
        (pushAll env.supply cs a).2 s' ∧
      (heard = false → (pushAll env.supply cs a).1 = []))
    ⟨[], by simpa [pushAll] using asked, fun _ => rfl⟩ (fun takes heard s₁ _ h₁ => ?_)
    (fun _ _ step _ heard s₁ h₁ => ?_) (fun heard s₁ h₁ => ?_) (fun heard s₁ h₁ => ?_)
    (fun e heard s₁ h₁ => ?_) (fun m heard s₁ h₁ => ?_)
  · obtain ⟨cs, p₁, hnone⟩ := h₁
    exact (waitFor_spec Calm.refl takes _).mono (fun _ s₂ c => ⟨cs, p₁.calm c, hnone⟩)
      (fun halt s₂ h₂ => ⟨Or.inl (h₂.1 ▸ .stuck), cs, _, _, List.prefix_rfl, p₁.calm h₂.2⟩)
  · obtain ⟨cs, p₁, hnone⟩ := h₁
    refine (takeChunk_spec p₁ step.2).mono (fun more s₂ h₂ => ?_) (fun halt s₂ h₂ => ?_)
    · obtain ⟨rfl, p₂⟩ := h₂
      refine ⟨cs ++ [step.2], ?_, fun hheard => ?_⟩
      · simpa [Assembly.pushAll_snoc] using p₂
      · simp only [Bool.or_eq_false_iff, Bool.not_eq_false', List.isEmpty_iff] at hheard
        simp [Assembly.pushAll_snoc, hnone hheard.1, hheard.2]
    · obtain ⟨hgone, done, hdone, p₂⟩ := h₂
      refine ⟨Or.inr hgone, cs ++ [step.2], (pushAll env.supply cs a).1 ++ done, _, ?_,
        by simpa using p₂⟩
      rw [Assembly.pushAll_snoc]
      exact (List.prefix_append_right_inj _).mpr hdone
  · obtain ⟨cs, p₁, -⟩ := h₁
    exact ⟨cs, p₁, fun h => by cases h⟩
  · obtain ⟨cs, p₁, hnone⟩ := h₁
    exact ⟨cs, p₁, fun h => hnone (by simpa using h)⟩
  · obtain ⟨cs, p₁, -⟩ := h₁
    exact ⟨Or.inl (.gateway e), cs, _, _, List.prefix_rfl, p₁⟩
  · obtain ⟨cs, p₁, -⟩ := h₁
    exact ⟨Or.inl (.panicked m), cs, _, _, List.prefix_rfl, p₁⟩

/-- What is left of an answer for the next one. -/
theorem Stands.next (p : Stands env t l a s) :
    Stands env t l (.start a.minted) { s with assembly := s.assembly.next } := by
  obtain rfl := p.assembly
  exact p.withAssembly (Nat.le_refl _) fun block h => by simp [Assembly.IsOpen, Assembly.start] at h

/-- An attempt at an answer, from nothing: either its turn is complete, or it gave no event, nothing
of it is left and there are attempts left. The last attempt gives a turn or halts. -/
theorem answerInTime_spec {k : Nat} (p : Stands env t l (.start k) s) (request : ModelRequest)
    (scope : Scope) (n : Nat) :
    Ensures (answerInTime env request scope n) s
      (fun answer s' => match answer with
        | some turn => ∃ cs k', turn = (pushAll env.supply cs (.start k)).2.turn ∧
            Stands env (t ++ .attempt s.now request ::
              (pushAll env.supply cs (.start k)).1.map .event ++ [.answer request turn]) l
              (.start k') s'
        | none => n + 1 < scope.attempts ∧
            ∃ k', Stands env (t ++ [.attempt s.now request]) l (.start k') s')
      (fun halt s' => (ModelFault halt ∨ Gone halt s') ∧ ∃ es : List Event, ∃ a',
        (∀ e ∈ es, e.isPiece = true) ∧
          Stands env (t ++ .attempt s.now request :: es.map .event) l a' s') := by
  have pieces (cs : List Chunk) : ∀ e ∈ (pushAll env.supply cs (.start k)).1, e.isPiece = true :=
    (Assembly.pushAll_grew cs).pieces
  refine ensures_answerInTime ((attemptAnswer_spec p request scope.timeout?).mono
      (fun _ _ h => h) (fun halt s₁ h => ?_)) (fun s₁ h => ?_) (fun s₁ h => ?_)
    (fun hleft s₁ h => ?_) (fun _ s₁ h => ?_)
  · obtain ⟨hf, cs, done, a', hdone, p₁⟩ := h
    exact ⟨hf, done, a', fun e he => pieces cs e (hdone.subset he), p₁⟩
  · obtain ⟨cs, p₁, -⟩ := h
    exact ⟨cs, _, congrArg Assembly.turn p₁.assembly, p₁.next.note rfl rfl⟩
  · obtain ⟨cs, p₁, -⟩ := h
    exact ⟨Or.inl (.stalled _), _, _, pieces cs, p₁⟩
  · obtain ⟨cs, p₁, hr⟩ := h
    exact ⟨hleft, _, by simpa [hr rfl] using p₁.next⟩
  · obtain ⟨cs, p₁, -⟩ := h
    exact ⟨Or.inl (.timedOut _), _, _, pieces cs, p₁⟩

/-- The attempts of a call that was admitted just now. They never come to nothing: the last of them
halts if it gives no turn. -/
theorem attempts_spec {k : Nat} {request : ModelRequest} {scope : Scope}
    (p : Stands env (t ++ [.modelCall s.now request]) l (.start k) s) (hmost : 0 < scope.attempts) :
    Ensures (retrying (answerInTime env request scope) scope.attempts 0) s
      (fun answer s' => ∃ turn, answer = some turn ∧ ∃ u k', AnswerTrail env.supply request u turn ∧
        Begun s.now scope.attempts request u ∧ Stands env (t ++ u) l (.start k') s')
      (fun halt s' => (ModelFault halt ∨ Gone halt s') ∧ ∃ u a', BrokenTrail request u ∧
        Begun s.now scope.attempts request u ∧ Stands env (t ++ u) l a' s') := by
  generalize htime : s.now = time at p
  -- An attempt that is repeated leaves its entry and an empty answer, and no event. It is not the
  -- last one.
  refine (ensures_retrying_counted
    (I := fun n s' => n < scope.attempts ∧ ∃ tries k', Tried time request n tries ∧
      (n = 0 → s'.now = time) ∧ Stands env (t ++ .modelCall time request :: tries) l (.start k') s')
    (Q := fun turn s' => ∃ u k', AnswerTrail env.supply request u turn ∧
      Begun time scope.attempts request u ∧ Stands env (t ++ u) l (.start k') s')
    (fun n s₁ hn h => ?_) _ 0 s (Nat.zero_add _) ⟨hmost, [], k, .nil, fun _ => htime, p⟩).imp
    (fun answer s₁ h => ?_)
  · obtain ⟨-, tries, k₁, htries, hnow, p₁⟩ := h
    have more := htries.snoc hnow
    refine (answerInTime_spec p₁ request scope n).mono (fun answer s₂ h => ?_) (fun halt s₂ h => ?_)
    · cases answer with
      | some turn =>
        obtain ⟨cs, k₂, rfl, p₂⟩ := h
        refine ⟨_, k₂, .answered cs more.attempts, ?_, by simpa using p₂⟩
        rw [List.append_assoc]
        refine more.begun (Nat.succ_pos n) hn ?_ ?_
        · rw [callsOf_append, callsOf_map_event]
          rfl
        · rw [requestsOf_append, requestsOf_map_event]
          rfl
      | none =>
        obtain ⟨hleft, k₂, p₂⟩ := h
        exact ⟨hleft, _, k₂, more, fun h => absurd h (Nat.succ_ne_zero n), by simpa using p₂⟩
    · obtain ⟨hf, es, a', hes, p₂⟩ := h
      exact ⟨hf, _, a', .broken more.attempts hes,
        more.begun (Nat.succ_pos n) hn callsOf_map_event requestsOf_map_event, by simpa using p₂⟩
  · cases answer with
    | some turn => exact ⟨turn, rfl, h⟩
    | none => exact absurd h.1 (Nat.lt_irrefl _)

/-! ## The call -/

theorem Scope.attempts_pos (scope : Scope) : 0 < scope.attempts := by
  unfold Scope.attempts
  split
  · exact Nat.one_pos
  · exact Nat.succ_pos _

/-- A model call that is denied changes nothing, and one that is admitted is answered or breaks
off. -/
theorem callModel_spec {k : Nat} (p : Stands env t l (.start k) s) (ask : Ask) :
    Ensures (callModel env ask) s
      (fun answer s' => match answer with
        | none => l.spending.modelIsSpent = true ∧ s' = s
        | some turn => ∃ spending u k', l.spending.admitModel = .ok spending ∧
            AnswerTrail env.supply (requestFor env l.history ask) u turn ∧
            Begun s.now spending.budget.model.attempts (requestFor env l.history ask) u ∧
            Stands env (t ++ u) { l with spending := spending } (.start k') s')
      (fun halt s' => (ModelFault halt ∨ Gone halt s') ∧ ∃ spending u a',
        l.spending.admitModel = .ok spending ∧ BrokenTrail (requestFor env l.history ask) u ∧
          Begun s.now spending.budget.model.attempts (requestFor env l.history ask) u ∧
          Stands env (t ++ u) { l with spending := spending } a' s') := by
  obtain rfl := p.ledger
  refine ensures_callModel (fun e hdenied => ⟨modelIsSpent_of_denied hdenied, rfl⟩)
    (fun spending hadmitted => ?_)
  have admitted : s.ledger.spending.admitModel = .ok spending := hadmitted
  have p₁ : Stands env t { s.ledger with spending := spending } (.start k)
      { s with spending := spending } := p.withLedger rfl rfl rfl rfl rfl
  have p₂ := p₁.note (e := .modelCall s.now (requestFor env s.history ask)) rfl rfl
  refine (attempts_spec p₂ (Scope.attempts_pos _)).mono (fun answer s₂ h => ?_)
    (fun halt s₂ h => ?_)
  · obtain ⟨turn, rfl, u, k₂, hu, hbegun, p₃⟩ := h
    exact Or.inl ⟨rfl, spending, u, k₂, admitted, hu, hbegun, p₃⟩
  · obtain ⟨hf, u, a', hu, hbegun, p₃⟩ := h
    exact ⟨hf, spending, u, a', admitted, hu, hbegun, p₃⟩

end Run

end AgentRun
