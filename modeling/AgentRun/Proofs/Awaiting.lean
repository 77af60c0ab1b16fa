import AgentRun.CommandLine.Session
import AgentRun.Proofs.Delivery
import AgentRun.Proofs.Registry

/-!
# What a wait for a payload comes to

A wait that is held comes to the payload that it was handed, to its deadline, or to a client that is
gone, and to nothing else (`awaitSubmission_came`). A client that answers every call at once is
given no chance to be late: before time goes by in a wait, it is given all events, the echo of the
call among them (`awaitSubmission_inTime`).
-/

namespace AgentRun

/-- A client that submits something at once for every call that the run of an id sends to it. -/
def Client.AnswersAtOnce (c : Client) (runId : String) : Prop :=
  ∀ taken piece, taken.getLast? = some (.toolCall piece) →
    piece.callType = some ToolKind.frontend.text →
    ∃ ticket payload, ⟨none, .submit ticket ⟨runId, piece.id⟩ payload⟩ ∈ c.react runId taken

theorem CommandLine.submitter_answersAtOnce (payload : Json) (runId : String) :
    (CommandLine.submitter payload).AnswersAtOnce runId := by
  intro taken piece hlast hfrontend
  refine ⟨taken.length, payload, ?_⟩
  simp [submitter, hlast, hfrontend]

namespace Run

/-- A wait that is held in a registry that is sound. -/
structure Holding (h : Handle) (s : State) : Prop where
  sound : s.world.rendezvous.Sound
  held : h ∈ s.world.rendezvous.held

variable {env : Env} {h : Handle} {deadline limit : Nat} {result : WaitResult} {s s' : State}

namespace Holding

theorem perform (hh : Holding h s) (act : ClientAct) : Holding h (perform act s) := by
  cases act with
  | leave => exact ⟨hh.sound, hh.held⟩
  | submit ticket key payload =>
    refine ⟨hh.sound.after_submit key payload, ?_⟩
    show h ∈ (s.world.rendezvous.submit key payload).2.held
    rw [(hh.sound.submit_held key payload).1]
    exact hh.held

theorem keepNext (hh : Holding h s) (hk : keepNext? limit s = some s') : Holding h s' := by
  have hperforms (due : List Appointment) {s : State} (hh : Holding h s) :
      Holding h (due.foldl (fun s a => Run.perform a.act s) s) := by
    induction due generalizing s with
    | nil => exact hh
    | cons a rest ih => exact ih (hh.perform a.act)
  unfold keepNext? at hk
  split at hk
  · split at hk
    · cases hk
      exact hperforms _ ⟨hh.sound, hh.held⟩
    · cases hk
  · cases hk

theorem calm (hh : Holding h s) (c : Calm env s s') : Holding h s' := by
  obtain ⟨acts, -, hrendezvous⟩ := c.acted
  have hall : Holding h (performAll acts s) := by
    clear hrendezvous c
    induction acts generalizing s with
    | nil => exact hh
    | cons act rest ih => exact ih (hh.perform act)
  refine ⟨?_, ?_⟩
  · rw [hrendezvous]
    exact hall.sound
  · rw [hrendezvous]
    exact hall.held

theorem standing_eq (hh : Holding h s) :
    standing? h s = match s.world.rendezvous.received? h with
      | some value => some (.payload value)
      | none => if s.channel.connected then none else some .gone := by
  unfold standing?
  rw [hh.sound.look_of_held hh.held]
  cases s.world.rendezvous.received? h <;> rfl

theorem standing_none (hh : Holding h s) : standing? h s = none ↔
    s.world.rendezvous.received? h = none ∧ s.channel.connected = true := by
  rw [hh.standing_eq]
  cases s.world.rendezvous.received? h <;> simp

end Holding

/-! ## The three ends of a wait -/

/-- What a wait came to is so. -/
def CameTo (h : Handle) (deadline : Nat) (s : State) : WaitResult → Prop
  | .payload value => s.world.rendezvous.received? h = some value
  | .timeout => s.world.rendezvous.received? h = none ∧ deadline ≤ s.now
  | .gone => s.channel.connected = false

theorem CameTo.congr (hc : CameTo h deadline s result)
    (hrendezvous : s'.world.rendezvous = s.world.rendezvous) (hchannel : s'.channel = s.channel)
    (hnow : s.now ≤ s'.now) : CameTo h deadline s' result := by
  cases result with
  | payload value =>
    show s'.world.rendezvous.received? h = some value
    rw [hrendezvous]
    exact hc
  | timeout =>
    refine ⟨?_, Nat.le_trans hc.2 hnow⟩
    rw [hrendezvous]
    exact hc.1
  | gone =>
    show s'.channel.connected = false
    rw [hchannel]
    exact hc

theorem standing_came (hh : Holding h s) (hs : standing? h s = some result) :
    CameTo h deadline s result := by
  rw [hh.standing_eq] at hs
  cases hreceived : s.world.rendezvous.received? h with
  | some value =>
    rw [hreceived] at hs
    cases hs
    exact hreceived
  | none =>
    rw [hreceived] at hs
    cases hconn : s.channel.connected with
    | true =>
      simp [hconn] at hs
    | false =>
      simp only [hconn, Bool.false_eq_true, if_false] at hs
      cases hs
      exact hconn

/-- The acts of a client do not count as steps of the run, and take no event. -/
theorem performs_unmoved (due : List Appointment) (s : State) :
    (due.foldl (fun s a => perform a.act s) s).stretch = s.stretch ∧
      (due.foldl (fun s a => perform a.act s) s).lastTaken = s.lastTaken := by
  induction due generalizing s with
  | nil => exact ⟨rfl, rfl⟩
  | cons a rest ih =>
    have hact : (perform a.act s).stretch = s.stretch ∧
        (perform a.act s).lastTaken = s.lastTaken := by
      cases a.act <;> exact ⟨rfl, rfl⟩
    obtain ⟨hstretch, htaken⟩ := ih (perform a.act s)
    exact ⟨hstretch.trans hact.1, htaken.trans hact.2⟩

theorem keepNext_unmoved (hk : keepNext? limit s = some s') :
    s'.stretch = s.stretch ∧ s'.lastTaken = s.lastTaken := by
  unfold keepNext? at hk
  split at hk
  · split at hk
    · cases hk
      exact performs_unmoved _ _
    · cases hk
  · cases hk

/-- Appointments are kept until there is something for the wait, or none is left. -/
theorem awaitAppointments_came (hh : Holding h s) (deadline n : Nat) :
    (match awaitAppointments h limit n s with
      | (some result, s') => CameTo h deadline s' result
      | (none, s') => s'.world.rendezvous.received? h = none ∧ s'.channel.connected = true) ∧
    (awaitAppointments h limit n s).2.stretch = s.stretch ∧
    (awaitAppointments h limit n s).2.lastTaken = s.lastTaken := by
  induction n generalizing s with
  | zero =>
    unfold awaitAppointments
    cases hs : standing? h s with
    | some result => exact ⟨standing_came hh hs, rfl, rfl⟩
    | none => exact ⟨hh.standing_none.mp hs, rfl, rfl⟩
  | succ n ih =>
    unfold awaitAppointments
    cases hs : standing? h s with
    | some result => exact ⟨standing_came hh hs, rfl, rfl⟩
    | none =>
      cases hk : keepNext? limit s with
      | none => exact ⟨hh.standing_none.mp hs, rfl, rfl⟩
      | some s' =>
        obtain ⟨hstretch, htaken⟩ := keepNext_unmoved hk
        obtain ⟨hcame, hstretch', htaken'⟩ := ih (hh.keepNext hk)
        exact ⟨hcame, hstretch'.trans hstretch, htaken'.trans htaken⟩

/-- A client is gone for good if it is asked to stay longer than it does. -/
theorem losePatience_gone (hstays : staysUntil env s deadline < deadline)
    (htaken : s'.lastTaken = s.lastTaken) :
    (losePatience env deadline s').channel.connected = false := by
  unfold staysUntil at hstays
  unfold losePatience
  cases hp : env.client.patience with
  | none => simp [hp] at hstays
  | some p =>
    have hlate : s'.lastTaken + p < deadline := by
      rw [htaken]
      simp only [hp] at hstays
      omega
    simp only [hlate, and_true]
    split
    · rfl
    · simpa using ‹¬s'.channel.connected = true›

theorem awaitClientUntil_came (env : Env) (deadline : Nat) (hh : Holding h s) :
    CameTo h deadline (awaitClientUntil env h deadline s).2 (awaitClientUntil env h deadline s).1 ∧
      (awaitClientUntil env h deadline s).2.stretch = 0 := by
  have hgiven : Holding h (giveWay env s) := hh.calm (Calm.refl.after_giveWay)
  dsimp only [awaitClientUntil]
  rcases hw : awaitAppointments h (staysUntil env (giveWay env s) deadline)
    (giveWay env s).agenda.length (giveWay env s) with ⟨_ | result, s'⟩
  · obtain ⟨hcame, hstretch, htaken⟩ := awaitAppointments_came hgiven deadline
      (giveWay env s).agenda.length
    rw [hw] at hcame hstretch htaken
    by_cases hstays : staysUntil env (giveWay env s) deadline < deadline
    · simp only [hstays, if_true]
      refine ⟨losePatience_gone hstays htaken, ?_⟩
      have hunmoved : (losePatience env deadline s').stretch = s'.stretch := by
        unfold losePatience
        split
        · rfl
        · split <;> rfl
      rw [hunmoved]
      exact hstretch
    · simp only [hstays, if_false]
      exact ⟨⟨hcame.1, Nat.le_max_right _ _⟩, hstretch⟩
  · obtain ⟨hcame, hstretch, -⟩ := awaitAppointments_came hgiven deadline
      (giveWay env s).agenda.length
    rw [hw] at hcame hstretch
    exact ⟨hcame, hstretch⟩

theorem giveWayIfDue_stretch (env : Env) (s : State) :
    (giveWayIfDue env s).stretch < stretchLimit := by
  unfold giveWayIfDue
  by_cases hs : s.stretch < stretchLimit
  · rw [if_pos hs]
    exact hs
  · simp only [hs, if_false, giveWay]
    decide

/-- A run that gave way just now does not give way in its next step. -/
theorem CameTo.takeStep (hc : CameTo h deadline s result) (hs : s.stretch < stretchLimit) :
    CameTo h deadline (takeStep env s) result := by
  unfold Run.takeStep giveWayIfDue
  rw [if_pos hs]
  exact hc.congr rfl rfl (Nat.le_refl _)

/-- What a wait comes to is so when it is over. -/
theorem awaitSubmission_came (env : Env) (deadline : Nat) (hh : Holding h s) :
    CameTo h deadline (awaitSubmission env h deadline s).2
      (awaitSubmission env h deadline s).1 := by
  have hgiven : Holding h (giveWayIfDue env s) := hh.calm (Calm.refl.after_giveWayIfDue)
  have hstretch := giveWayIfDue_stretch env s
  dsimp only [awaitSubmission]
  cases hs : standing? h (giveWayIfDue env s) with
  | some result => exact (standing_came hgiven hs).takeStep hstretch
  | none =>
    by_cases hd : deadline ≤ (giveWayIfDue env s).now
    · simp only [hd, if_true]
      have hcame : CameTo h deadline (giveWayIfDue env s) .timeout :=
        ⟨(hgiven.standing_none.mp hs).1, hd⟩
      exact hcame.takeStep hstretch
    · simp only [hd, if_false]
      obtain ⟨hcame, hzero⟩ := awaitClientUntil_came env deadline hgiven
      refine hcame.takeStep ?_
      rw [hzero]
      decide

/-! ## A client that answers at once -/

/-- A client that is there either has answered a wait or is to be given an event. -/
structure Asked (h : Handle) (e : Event) (s : State) : Prop extends Holding h s where
  asked : s.channel.connected = false ∨ (s.world.rendezvous.received? h).isSome = true ∨
    e ∈ s.channel.queue

namespace Asked

variable {e : Event} {piece : CallPiece}

theorem perform (ha : Asked h e s) (act : ClientAct) : Asked h e (perform act s) := by
  refine ⟨ha.toHolding.perform act, ?_⟩
  cases act with
  | leave => exact Or.inl rfl
  | submit ticket key payload =>
    refine ha.asked.imp id fun hasked => hasked.imp (fun hreceived => ?_) id
    show ((s.world.rendezvous.submit key payload).2.received? h).isSome = true
    rw [ha.sound.received_submit ha.held]
    split
    · rfl
    · exact hreceived

theorem undertake (ha : Asked h e s) (i : Intent) : Asked h e (undertake i s) := by
  unfold Run.undertake
  cases i.after with
  | none => exact ha.perform i.act
  | some d => exact ⟨⟨ha.sound, ha.held⟩, ha.asked⟩

theorem undertakeAll (ha : Asked h e s) (intents : List Intent) :
    Asked h e (undertakeAll intents s) := by
  unfold Run.undertakeAll
  induction intents generalizing s with
  | nil => exact ha
  | cons i rest ih => exact ih (ha.undertake i)

theorem keepDue (ha : Asked h e s) : Asked h e (keepDue s) := by
  have hperforms (due : List Appointment) {s : State} (ha : Asked h e s) :
      Asked h e (due.foldl (fun s a => Run.perform a.act s) s) := by
    induction due generalizing s with
    | nil => exact ha
    | cons a rest ih => exact ih (ha.perform a.act)
  exact hperforms _ ⟨⟨ha.sound, ha.held⟩, ha.asked⟩

end Asked

/-- Whoever submits for a wait at once has answered it. -/
theorem undertakeAll_answers {e : Event} {intents : List Intent} {ticket : Nat} {payload : Json}
    (hh : Holding h s) (hmem : ⟨none, .submit ticket h.key payload⟩ ∈ intents) :
    Asked h e (undertakeAll intents s) := by
  induction intents generalizing s with
  | nil => cases hmem
  | cons i rest ih =>
    rcases List.mem_cons.mp hmem with rfl | hmem
    · have hanswered : Asked h e (perform (.submit ticket h.key payload) s) := by
        refine ⟨hh.perform _, Or.inr (Or.inl ?_)⟩
        show ((s.world.rendezvous.submit h.key payload).2.received? h).isSome = true
        rw [hh.sound.received_submit hh.held]
        by_cases hslot : h ∈ s.world.rendezvous.slots
        · simp [hslot]
        · simpa [hslot] using (hh.sound.answered h hh.held).mp hslot
      exact hanswered.undertakeAll rest
    · refine ih (s := undertake i s) ?_ hmem
      unfold undertake
      cases i.after with
      | none => exact hh.perform i.act
      | some d => exact ⟨hh.sound, hh.held⟩

section Prompt

variable {piece : CallPiece} (hclient : env.client.AnswersAtOnce env.runId)
  (hpiece : piece.callType = some ToolKind.frontend.text) (hkey : h.key = ⟨env.runId, piece.id⟩)

include hclient hpiece hkey

theorem Asked.takeEvents (ha : Asked h (.toolCall piece) s) (n : Nat) :
    Asked h (.toolCall piece) (takeEvents env n s) := by
  induction n generalizing s with
  | zero => exact ha
  | succ n ih =>
    unfold Run.takeEvents Channel.take
    cases hq : s.channel.queue with
    | nil => exact ha
    | cons f rest =>
      refine ih ?_
      have hh : Holding h { s with
          channel := { s.channel with queue := rest, taken := s.channel.taken ++ [f] }
          lastTaken := s.now } := ⟨ha.sound, ha.held⟩
      by_cases hf : f = .toolCall piece
      · obtain ⟨ticket, payload, hmem⟩ :=
          hclient (s.channel.taken ++ [f]) piece (by simp [hf]) hpiece
        rw [← hkey] at hmem
        exact undertakeAll_answers hh hmem
      · refine Asked.undertakeAll ⟨hh, ha.asked.imp id fun hasked => hasked.imp id fun hmem => ?_⟩ _
        rw [hq] at hmem
        exact (List.mem_cons.mp hmem).resolve_left fun he => hf he.symm

/-- When a run gives way, such a client has answered or is gone. -/
theorem Asked.giveWay (ha : Asked h (.toolCall piece) s) : standing? h (giveWay env s) ≠ none := by
  have htaken : Asked h (.toolCall piece) (clientTurn env (Run.keepDue s)) :=
    ha.keepDue.takeEvents hclient hpiece hkey _
  have hdone : Asked h (.toolCall piece) (Run.keepDue (clientTurn env (Run.keepDue s))) :=
    htaken.keepDue
  have hqueue : (Run.keepDue (clientTurn env (Run.keepDue s))).channel.queue = [] := by
    have hperforms (due : List Appointment) (s : State) (hq : s.channel.queue = []) :
        (due.foldl (fun s a => Run.perform a.act s) s).channel.queue = [] := by
      induction due generalizing s with
      | nil => exact hq
      | cons a rest ih =>
        refine ih _ (List.length_eq_zero_iff.mp ?_)
        have := perform_queue_length a.act s
        rw [hq] at this
        exact Nat.le_zero.mp this
    exact hperforms _ _ clientTurn_queue
  have hh : Holding h (Run.giveWay env s) := ⟨hdone.sound, hdone.held⟩
  rw [Ne, hh.standing_none]
  rintro ⟨hnone, hconn⟩
  rcases hdone.asked with hgone | hreceived | hmem
  · have hconn : (Run.keepDue (clientTurn env (Run.keepDue s))).channel.connected = true := hconn
    rw [hgone] at hconn
    cases hconn
  · have hnone :
        (Run.keepDue (clientTurn env (Run.keepDue s))).world.rendezvous.received? h = none := hnone
    rw [hnone] at hreceived
    cases hreceived
  · rw [hqueue] at hmem
    cases hmem

/-- Such a client is in time, unless there is no time at all. -/
theorem awaitSubmission_inTime (ha : Asked h (.toolCall piece) s) (hd : s.now < deadline) :
    (awaitSubmission env h deadline s).1 ≠ .timeout := by
  -- What stands there is a payload, or that the client is gone.
  have hstands {s : State} {result : WaitResult} (hs : standing? h s = some result) :
      result ≠ .timeout := by
    rintro rfl
    unfold standing? at hs
    split at hs
    · cases hs
    · cases hs
    · split at hs <;> cases hs
  dsimp only [awaitSubmission]
  cases hs : standing? h (giveWayIfDue env s) with
  | some result => exact hstands hs
  | none =>
    unfold giveWayIfDue at hs ⊢
    by_cases hstretch : s.stretch < stretchLimit
    · simp only [hstretch, if_true, Nat.not_le.mpr hd, if_false]
      have hgiven := ha.giveWay hclient hpiece hkey
      cases hstanding : standing? h (giveWay env s) with
      | none => exact absurd hstanding hgiven
      | some result =>
        dsimp only [awaitClientUntil]
        unfold awaitAppointments
        rw [hstanding]
        exact hstands hstanding
    · simp only [hstretch, if_false] at hs
      exact absurd hs (ha.giveWay hclient hpiece hkey)

end Prompt

end Run

end AgentRun
