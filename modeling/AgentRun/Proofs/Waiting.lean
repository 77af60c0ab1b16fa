import AgentRun.Proofs.Journal
import AgentRun.Proofs.Parts

/-!
# What waiting leaves alone

While a run waits, only the client does anything: it takes events, submits and may leave, and time
goes by. `Calm env s₀ s` says what can have become of a state `s₀` until then. The run's own part of
the state is as it was, the waits and the journal are what the acts of the client made of them, no
event is lost as long as the client is there, and a client that keeps reading is there as long as it
was before.

Each lemma adds one function of the waiting to what has been calm so far, so the calm of a composite
is read off its definition.
-/

namespace AgentRun

/-- A client that never leaves, neither on its own accord nor out of impatience. -/
structure Client.KeepsReading (c : Client) : Prop where
  /-- It stays without an event for any time. -/
  patient : c.patience = none
  /-- It never undertakes to leave. -/
  stays : ∀ runId events, ∀ i ∈ c.react runId events, i.act ≠ .leave

theorem Client.reader_keepsReading : Client.reader.KeepsReading :=
  ⟨rfl, fun _ _ _ h => absurd h List.not_mem_nil⟩

namespace Channel

/-- The events that went into the channel and were not lost: those that the consumer took and those
that wait for it. -/
def sent (c : Channel) : List Event := c.taken ++ c.queue

theorem take_sent (c : Channel) : c.take.2.sent = c.sent := by
  unfold take
  split <;> simp_all [sent]

end Channel

namespace Run

/-- The parts of a state that only the run itself changes. -/
structure Ledger where
  /-- The conversation. -/
  history : List Message
  /-- The calls with their results. -/
  records : List ToolRecord
  plan : Plan
  /-- What is spent of the budget. -/
  spending : Spending

/-- The ledger of a state. -/
def State.ledger (s : State) : Ledger := ⟨s.history, s.records, s.plan, s.spending⟩

/-- What the model and the tools of a world were asked, and the workers that it has for this. -/
def World.work (w : World) : Workers × List ModelRequest × List Invocation :=
  (w.workers, w.requests, w.invocations)

/-- The client is there and has no appointment to leave. -/
def State.Attended (s : State) : Prop :=
  s.channel.connected = true ∧ ∀ a ∈ s.agenda, a.act ≠ .leave

/-- The acts of a client one after another. -/
def performAll (acts : List ClientAct) (s : State) : State :=
  acts.foldl (fun s act => perform act s) s

/-- An act makes the same of the waits and the journal wherever it finds them. -/
theorem perform_congr {s s' : State} (act : ClientAct) (hj : s'.journal = s.journal)
    (hr : s'.world.rendezvous = s.world.rendezvous) :
    (perform act s').journal = (perform act s).journal ∧
      (perform act s').world.rendezvous = (perform act s).world.rendezvous := by
  cases act with
  | submit ticket key payload => simp [perform, State.note, State.withRendezvous, hj, hr]
  | leave => exact ⟨hj, hr⟩

/-- Some acts of the client made of the waits and the journal of `s₀` what they are in `s`. -/
def ActedOn (s₀ s : State) : Prop :=
  ∃ acts, s.journal = (performAll acts s₀).journal ∧
    s.world.rendezvous = (performAll acts s₀).world.rendezvous

theorem performAll_congr {s s' : State} (acts : List ClientAct) (hj : s'.journal = s.journal)
    (hr : s'.world.rendezvous = s.world.rendezvous) :
    (performAll acts s').journal = (performAll acts s).journal ∧
      (performAll acts s').world.rendezvous = (performAll acts s).world.rendezvous := by
  induction acts generalizing s s' with
  | nil => exact ⟨hj, hr⟩
  | cons act rest ih =>
    obtain ⟨hj', hr'⟩ := perform_congr act hj hr
    exact ih hj' hr'

namespace ActedOn

variable {s₀ s s' : State}

theorem refl : ActedOn s s := ⟨[], rfl, rfl⟩

theorem trans (h : ActedOn s₀ s) (h' : ActedOn s s') : ActedOn s₀ s' := by
  obtain ⟨acts, hj, hr⟩ := h
  obtain ⟨more, hj', hr'⟩ := h'
  obtain ⟨hj'', hr''⟩ := performAll_congr more hj hr
  refine ⟨acts ++ more, ?_, ?_⟩
  · rw [performAll, List.foldl_append]
    exact hj'.trans hj''
  · rw [performAll, List.foldl_append]
    exact hr'.trans hr''

theorem of_perform (act : ClientAct) : ActedOn s (perform act s) := ⟨[act], rfl, rfl⟩

/-- Where the waits and the journal are as before, nothing was done to them. -/
theorem of_same (hj : s'.journal = s.journal) (hr : s'.world.rendezvous = s.world.rendezvous) :
    ActedOn s s' := ⟨[], hj, hr⟩

end ActedOn

/-- What waiting does to a state. -/
structure Calm (env : Env) (s₀ s : State) : Prop where
  ledger : s.ledger = s₀.ledger
  assembly : s.assembly = s₀.assembly
  trail : s.trail = s₀.trail
  acted : ActedOn s₀ s
  heard : ∀ e ∈ s.channel.sent, e ∈ s₀.channel.sent
  finished : s.channel.finished = s₀.channel.finished
  capacity : s.channel.capacity = s₀.channel.capacity
  sent : s.channel.connected = true →
    s₀.channel.connected = true ∧ s.channel.sent = s₀.channel.sent
  attended : env.client.KeepsReading → s₀.Attended → s.Attended
  /-- The clock is not turned back. -/
  later : s₀.now ≤ s.now
  work : s.world.work = s₀.world.work

namespace Calm

variable {env : Env} {s₀ s s' : State}

theorem refl : Calm env s s :=
  ⟨rfl, rfl, rfl, .refl, fun _ h => h, rfl, rfl, fun h => ⟨h, rfl⟩, fun _ h => h, Nat.le_refl _,
    rfl⟩

/-- Parts of the state that nobody but the waiting looks at do not matter. -/
theorem congr (c : Calm env s₀ s) (hledger : s'.ledger = s.ledger)
    (hassembly : s'.assembly = s.assembly) (hjournal : s'.journal = s.journal)
    (hrendezvous : s'.world.rendezvous = s.world.rendezvous)
    (hchannel : s'.channel = s.channel) (hagenda : s'.agenda = s.agenda)
    (hnow : s.now ≤ s'.now) (hwork : s'.world.work = s.world.work) : Calm env s₀ s' where
  ledger := hledger.trans c.ledger
  assembly := hassembly.trans c.assembly
  trail := by rw [← c.trail, State.trail, hjournal]; rfl
  acted := c.acted.trans (.of_same hjournal hrendezvous)
  heard := by rw [hchannel]; exact c.heard
  finished := by rw [hchannel, c.finished]
  capacity := by rw [hchannel, c.capacity]
  sent := by rw [hchannel]; exact c.sent
  attended := fun hr h => by
    have := c.attended hr h
    unfold State.Attended at this ⊢
    rwa [hchannel, hagenda]
  later := Nat.le_trans c.later hnow
  work := hwork.trans c.work

/-- A client that keeps reading does not leave, and any other may. -/
theorem after_leave (c : Calm env s₀ s) (hs : s'.ledger = s.ledger) (ha : s'.assembly = s.assembly)
    (hj : s'.journal = s.journal) (hr : s'.world.rendezvous = s.world.rendezvous)
    (hc : s'.channel = s.channel.leave) (hnow : s'.now = s.now)
    (hwork : s'.world.work = s.world.work)
    (hn : env.client.KeepsReading → s₀.Attended → False) : Calm env s₀ s' where
  ledger := hs.trans c.ledger
  assembly := ha.trans c.assembly
  trail := by rw [← c.trail, State.trail, hj]; rfl
  acted := c.acted.trans (.of_same hj hr)
  heard := fun e he => by
    rw [hc] at he
    exact c.heard e (List.mem_append_left _ (by simpa [Channel.sent, Channel.leave] using he))
  finished := by rw [hc, ← c.finished]; rfl
  capacity := by rw [hc, ← c.capacity]; rfl
  sent := fun h => by rw [hc] at h; exact absurd h Bool.false_ne_true
  attended := fun hr h => (hn hr h).elim
  later := hnow ▸ c.later
  work := hwork.trans c.work

/-! ## What the client does -/

theorem after_perform (c : Calm env s₀ s) {act : ClientAct}
    (hact : env.client.KeepsReading → s₀.Attended → act ≠ .leave) :
    Calm env s₀ (perform act s) := by
  cases act with
  | submit ticket key payload =>
    refine { c with trail := ?_, acted := c.acted.trans (.of_perform _), .. }
    simpa [perform, State.trail, State.note, Entry.isSubmission, State.withRendezvous] using c.trail
  | leave => exact c.after_leave rfl rfl rfl rfl rfl rfl rfl fun hr h => hact hr h rfl

theorem mem_schedule {a b : Appointment} {agenda : List Appointment} :
    b ∈ schedule a agenda ↔ b = a ∨ b ∈ agenda := by
  induction agenda with
  | nil => simp [schedule]
  | cons d rest ih =>
    unfold schedule
    split
    · simp
    · simp only [List.mem_cons, ih]
      tauto

theorem after_undertake (c : Calm env s₀ s) {i : Intent}
    (hi : env.client.KeepsReading → i.act ≠ .leave) : Calm env s₀ (undertake i s) := by
  unfold undertake
  split
  · exact c.after_perform fun hr _ => hi hr
  · refine { c with attended := fun hr h => ?_, .. }
    obtain ⟨hconn, hagenda⟩ := c.attended hr h
    refine ⟨hconn, fun a ha => ?_⟩
    rcases mem_schedule.mp ha with rfl | ha
    · exact hi hr
    · exact hagenda a ha

theorem after_undertakeAll (c : Calm env s₀ s) {intents : List Intent}
    (h : env.client.KeepsReading → ∀ i ∈ intents, i.act ≠ .leave) :
    Calm env s₀ (undertakeAll intents s) := by
  unfold undertakeAll
  induction intents generalizing s with
  | nil => exact c
  | cons i rest ih =>
    exact ih (c.after_undertake fun hr => h hr i (List.mem_cons_self ..))
      fun hr j hj => h hr j (List.mem_cons_of_mem _ hj)

theorem after_takeEvents (c : Calm env s₀ s) (n : Nat) : Calm env s₀ (takeEvents env n s) := by
  induction n generalizing s with
  | zero => exact c
  | succ n ih =>
    unfold takeEvents
    -- An event that is taken is still sent: it goes from the queue to what the client took.
    have htake := s.channel.take_sent
    split
    · exact c
    · rename_i e ch heq
      rw [heq] at htake
      refine ih (after_undertakeAll ?_ fun hr => hr.stays env.runId _)
      have hch : ch.connected = s.channel.connected ∧ ch.finished = s.channel.finished ∧
          ch.capacity = s.channel.capacity := by
        unfold Channel.take at heq
        split at heq <;> simp_all
        rw [← heq.2]
        exact ⟨rfl, rfl, rfl⟩
      obtain ⟨hconn, hfin, hcap⟩ := hch
      refine { c with
        heard := fun f hf => c.heard f (htake ▸ hf)
        finished := hfin.trans c.finished
        capacity := hcap.trans c.capacity
        sent := fun h => ?_
        attended := fun hr h => ⟨hconn.trans (c.attended hr h).1, (c.attended hr h).2⟩, .. }
      obtain ⟨h₀, hsent⟩ := c.sent (hconn ▸ h)
      exact ⟨h₀, htake.trans hsent⟩

theorem after_clientTurn (c : Calm env s₀ s) : Calm env s₀ (clientTurn env s) :=
  c.after_takeEvents _

/-! ## Appointments and time -/

theorem after_performs (c : Calm env s₀ s) {due : List Appointment}
    (h : env.client.KeepsReading → s₀.Attended → ∀ a ∈ due, a.act ≠ .leave) :
    Calm env s₀ (due.foldl (fun s a => perform a.act s) s) := by
  induction due generalizing s with
  | nil => exact c
  | cons a rest ih =>
    exact ih (c.after_perform fun hr hs => h hr hs a (List.mem_cons_self ..))
      fun hr hs b hb => h hr hs b (List.mem_cons_of_mem _ hb)

theorem after_keepDue (c : Calm env s₀ s) : Calm env s₀ (keepDue s) := by
  refine after_performs ?_ fun hr h a ha =>
    (c.attended hr h).2 a (List.takeWhile_subset _ ha)
  exact { c with
    attended := fun hr h => ⟨(c.attended hr h).1, fun a ha =>
      (c.attended hr h).2 a (List.dropWhile_subset _ ha)⟩, .. }

theorem after_reach (c : Calm env s₀ s) (time : Nat) : Calm env s₀ (s.reach time) :=
  c.congr rfl rfl rfl rfl rfl rfl (Nat.le_max_left _ _) rfl

theorem after_keepNext (c : Calm env s₀ s) {limit : Nat} (h : keepNext? limit s = some s') :
    Calm env s₀ s' := by
  unfold keepNext? at h
  split at h
  · split at h
    · cases h
      exact (c.after_reach _).after_keepDue
    · cases h
  · cases h

theorem after_keepAppointments (c : Calm env s₀ s) (limit n : Nat) :
    Calm env s₀ (keepAppointments limit n s) := by
  induction n generalizing s with
  | zero => exact c
  | succ n ih =>
    unfold keepAppointments
    split
    · rename_i heq
      exact ih (c.after_keepNext heq)
    · exact c

theorem after_losePatience (c : Calm env s₀ s) (limit : Nat) :
    Calm env s₀ (losePatience env limit s) := by
  unfold losePatience
  split
  · exact c
  · rename_i p hp
    split
    · exact c.after_leave rfl rfl rfl rfl rfl rfl rfl fun hr _ => by simp [hr.patient] at hp
    · exact c

theorem after_giveWay (c : Calm env s₀ s) : Calm env s₀ (giveWay env s) :=
  c.after_keepDue.after_clientTurn.after_keepDue.congr rfl rfl rfl rfl rfl rfl (Nat.le_refl _) rfl

theorem after_passTime (c : Calm env s₀ s) (time : Nat) : Calm env s₀ (passTime env time s) :=
  ((c.after_giveWay.after_keepAppointments _ _).after_losePatience _).after_reach _

theorem after_passAgenda (c : Calm env s₀ s) : Calm env s₀ (passAgenda env s) := by
  dsimp only [passAgenda]
  cases (giveWay env s).agenda.getLast? with
  | none => exact c.after_giveWay
  | some a => exact c.after_giveWay.after_passTime a.time

theorem after_giveWayIfDue (c : Calm env s₀ s) : Calm env s₀ (giveWayIfDue env s) := by
  unfold giveWayIfDue
  split
  · exact c
  · exact c.after_giveWay

theorem after_takeStep (c : Calm env s₀ s) : Calm env s₀ (takeStep env s) :=
  c.after_giveWayIfDue.congr rfl rfl rfl rfl rfl rfl (Nat.le_refl _) rfl

theorem after_pause (c : Calm env s₀ s) (time : Nat) : Calm env s₀ (pause env time s) := by
  unfold pause
  split
  · exact (c.after_passTime _).after_takeStep
  · exact c.after_takeStep

end Calm

section Waits

variable {env : Env} {s₀ s s' : State}

/-- A wait is calm. Without a deadline it comes back with what it was for, and only a wait for
nothing at all does not come back. -/
theorem waitFor_ends (c : Calm env s₀ s) (takes deadline : Option Nat) :
    Ensures (waitFor env takes deadline) s
      (fun inTime s' => Calm env s₀ s' ∧ (deadline = none → inTime = true))
      (fun halt s' => (halt = .stuck ∧ deadline = none ∧ takes = none) ∧ Calm env s₀ s') := by
  unfold waitFor
  simp only [ensures_bind, ensures_get]
  split
  · exact ⟨c, fun _ => rfl⟩
  · exact ⟨c.after_pause _, fun _ => rfl⟩
  · exact ⟨c.after_pause _, fun h => by cases h⟩
  · exact ⟨c.after_pause _, fun h => by cases h⟩
  · exact ⟨⟨rfl, rfl, rfl⟩, c.after_passAgenda⟩

theorem waitFor_spec (c : Calm env s₀ s) (takes deadline : Option Nat) :
    Ensures (waitFor env takes deadline) s (fun _ s' => Calm env s₀ s')
      (fun h s' => h = .stuck ∧ Calm env s₀ s') :=
  (waitFor_ends c takes deadline).mono (fun _ _ h => h.1) (fun _ _ h => ⟨h.1.1, h.2⟩)

/-! ## Waiting for a payload -/

namespace Calm

theorem after_awaitAppointments (c : Calm env s₀ s) (h : Handle) (limit n : Nat) :
    Calm env s₀ (awaitAppointments h limit n s).2 := by
  induction n generalizing s with
  | zero =>
    unfold awaitAppointments
    cases standing? h s <;> exact c
  | succ n ih =>
    unfold awaitAppointments
    cases standing? h s with
    | some result => exact c
    | none =>
      cases hk : keepNext? limit s with
      | none => exact c
      | some s' => exact ih (c.after_keepNext hk)

theorem after_awaitClientUntil (c : Calm env s₀ s) (h : Handle) (deadline : Nat) :
    Calm env s₀ (awaitClientUntil env h deadline s).2 := by
  dsimp only [awaitClientUntil]
  have hc := c.after_giveWay.after_awaitAppointments h (staysUntil env (giveWay env s) deadline)
    (giveWay env s).agenda.length
  split
  · rename_i result s' heq
    rw [heq] at hc
    exact hc
  · rename_i s' heq
    rw [heq] at hc
    split
    · exact hc.after_losePatience _
    · exact hc.after_reach _

/-- A wait for a payload is calm. -/
theorem after_awaitSubmission (c : Calm env s₀ s) (h : Handle) (deadline : Nat) :
    Calm env s₀ (awaitSubmission env h deadline s).2 := by
  have c₁ := c.after_giveWayIfDue
  dsimp only [awaitSubmission]
  cases standing? h (giveWayIfDue env s) with
  | some result => exact c₁.after_takeStep
  | none =>
    by_cases hd : deadline ≤ (giveWayIfDue env s).now
    · simp only [hd, if_true]
      exact c₁.after_takeStep
    · simp only [hd, if_false]
      exact (c₁.after_awaitClientUntil h deadline).after_takeStep

/-- A client that is gone does not come back. -/
theorem gone_stays (c : Calm env s s') (h : s.channel.connected = false) :
    s'.channel.connected = false := by
  cases hc : s'.channel.connected with
  | false => rfl
  | true => exact absurd (c.sent hc).1 (by simp [h])

end Calm

end Waits

end Run

end AgentRun
