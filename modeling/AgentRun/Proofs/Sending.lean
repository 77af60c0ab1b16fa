import AgentRun.Error
import AgentRun.Proofs.Delivery

/-!
# The sending end of a channel

The owner of the sending end makes calls, each with some events, and the consumer takes events and
may leave, in any order of their turns (`Sending.step`). A call whose event finds no room waits for
it. The log tells what was called, which events were emitted and delivered, what the calls returned
and when the consumer left.

`Sending.Moves` lists all that a turn can do. As long as both sides get their turns everything comes
to rest (`Sending.rounds_rest`), and as long as the consumer does nothing a call is no more than
`Channel.putAll` (`Sending.alone_putAll`).
-/

namespace AgentRun

/-- An event that has to wait finds no room as long as nothing changes. -/
theorem Channel.enqueue_of_full {c c' : Channel} {e : Event} (h : c.put e = (.full, c')) :
    c'.enqueue e = (.full, c') := by
  rw [put] at h
  split at h
  · cases h
  · rw [enqueue] at h
    split at h
    · cases h
    · split at h
      · cases h
      · rename_i hconnected hroom
        obtain ⟨-, rfl⟩ := Prod.mk.inj h
        rw [enqueue, if_neg hconnected, if_neg hroom]

/-- What the owner of the sending end asks for. -/
inductive SendCall where
  | emit (e : Event)
  | emitAll (es : List Event)
  | finish (reason : FinishReason)
  deriving DecidableEq, Repr

/-- The events of a call. -/
def SendCall.events : SendCall → List Event
  | .emit e => [e]
  | .emitAll es => es
  | .finish reason => [.finish reason]

/-- What happens at the sending end, and that the consumer leaves. -/
inductive SendEntry where
  | called (c : SendCall)
  /-- The next event of the call is emitted. -/
  | emitted (e : Event)
  /-- It went into the channel. -/
  | delivered (e : Event)
  | returned (result : Except EngineError Unit)
  | left

namespace SendEntry

/-- The events that an entry asks for. -/
@[simp]
def askedEvents : SendEntry → List Event
  | .called c => c.events
  | _ => []

/-- The event that is emitted with an entry. -/
@[simp]
def emittedEvents : SendEntry → List Event
  | .emitted e => [e]
  | _ => []

/-- The event that goes into the channel with an entry. -/
@[simp]
def deliveredEvents : SendEntry → List Event
  | .delivered e => [e]
  | _ => []

/-- What an entry makes of the call that did not return yet and those of its events that were
emitted. -/
@[simp]
def follow (pending : Option (SendCall × List Event)) : SendEntry → Option (SendCall × List Event)
  | .called c => some (c, [])
  | .emitted e => pending.map fun (c, es) => (c, es ++ [e])
  | .returned _ => none
  | .delivered _ | .left => pending

end SendEntry

/-- The events up to the first `finish` and with it. -/
def upToFinish : List Event → List Event
  | [] => []
  | e :: es => if e.isFinish then [e] else e :: upToFinish es

/-- A call that did not return yet. -/
structure CallInHand where
  /-- The event that was emitted and waits for room. -/
  waiting : Option Event
  /-- The events that are not emitted yet. -/
  rest : List Event
  deriving DecidableEq, Repr

/-- The sending end of a channel, with what happened so far. -/
structure Sending where
  channel : Channel
  hand : Option CallInHand
  log : List SendEntry

namespace Sending

/-- Whose turn it is, and what is done with it. -/
inductive Turn where
  /-- A call is made, if the one before it returned. -/
  | call (c : SendCall)
  /-- The call in hand goes on by one event, or returns. -/
  | goOn
  /-- The consumer takes an event. -/
  | take
  | leave
  deriving DecidableEq, Repr

/-- What comes of an event that was offered to the channel, with the log until then. Behind a
`finish` it is dropped. -/
def settle (log : List SendEntry) (e : Event) (rest : List Event) (dropped : Bool) :
    PutResult × Channel → Sending
  | (.done, c) => ⟨c, some ⟨none, rest⟩, if dropped then log else log ++ [.delivered e]⟩
  | (.full, c) => ⟨c, some ⟨some e, rest⟩, log⟩
  | (.gone, c) => ⟨c, none, log ++ [.returned (.error .consumerGone)]⟩

/-- The call in hand goes on. -/
def goOn (s : Sending) : Sending :=
  match s.hand with
  | none => s
  | some ⟨some e, rest⟩ => settle s.log e rest false (s.channel.enqueue e)
  | some ⟨none, e :: rest⟩ =>
    settle (s.log ++ [.emitted e]) e rest s.channel.finished (s.channel.put e)
  | some ⟨none, []⟩ => { s with hand := none, log := s.log ++ [.returned (.ok ())] }

/-- A turn is taken. -/
def step (s : Sending) : Turn → Sending
  | .call c =>
    match s.hand with
    | none => { s with hand := some ⟨none, c.events⟩, log := s.log ++ [.called c] }
    | some _ => s
  | .goOn => s.goOn
  | .take => { s with channel := s.channel.take.2 }
  | .leave =>
    if s.channel.connected then { s with channel := s.channel.leave, log := s.log ++ [.left] }
    else s

/-- A new channel with room for some events, after some turns. -/
def after (capacity : Nat) (turns : List Turn) : Sending :=
  turns.foldl step ⟨.new capacity, none, []⟩

/-- The call in hand goes on for a while, and the consumer does nothing. -/
def alone (s : Sending) (n : Nat) : Sending := (List.replicate n .goOn).foldl step s

/-! ## What the log tells -/

/-- The events that were asked for, call by call. -/
def asked (log : List SendEntry) : List Event := log.flatMap SendEntry.askedEvents

/-- The events that were emitted, one after another. -/
def emitted (log : List SendEntry) : List Event := log.flatMap SendEntry.emittedEvents

/-- The events that went into the channel. -/
def delivered (log : List SendEntry) : List Event := log.flatMap SendEntry.deliveredEvents

/-- The call that did not return yet, with those of its events that were emitted. -/
def openCall? (log : List SendEntry) : Option (SendCall × List Event) :=
  log.foldl SendEntry.follow none

/-- A `finish` was passed. -/
def FinishPassed (log : List SendEntry) : Prop := ∃ e ∈ emitted log, e.isFinish = true

/-- A call was made after a `finish` was passed. -/
def Late (log : List SendEntry) : Prop :=
  ∃ before c behind, log = before ++ .called c :: behind ∧ FinishPassed before

/-- No call is in hand and no event waits for the consumer. -/
def AtRest (s : Sending) : Prop := s.hand = none ∧ s.channel.queue = []

/-- A measure of what is still to be done: an event that is emitted has yet to find room, and one
that found room has yet to be taken. -/
def load (s : Sending) : Nat :=
  (match s.hand with
    | none => 0
    | some h => 3 * h.rest.length + (if h.waiting.isSome then 2 else 0) + 1) +
  s.channel.queue.length

/-- A turn of the call in hand and one of the consumer, between turns of theirs, and no new call. -/
def IsRound (turns : List Turn) : Prop :=
  .goOn ∈ turns ∧ .take ∈ turns ∧ ∀ c, .call c ∉ turns

/-- The event in hand that waits for room. -/
def waiting (s : Sending) : List Event :=
  match s.hand with
  | none => []
  | some h => h.waiting.toList

/-- The events in hand that are not emitted yet. -/
def rest (s : Sending) : List Event :=
  match s.hand with
  | none => []
  | some h => h.rest

variable {s s' : Sending} {t : Turn} {e : Event} {l m : List Event} {log new : List SendEntry}

/-! ## What a turn can do -/

/-- An event waits for room that is not there. -/
structure Blocked (s : Sending) : Prop where
  present : s.channel.connected = true
  full : s.channel.capacity ≤ s.channel.queue.length
  waits : ∃ e rest, s.hand = some ⟨some e, rest⟩

/-- A turn has nothing to do. -/
def Idle (s : Sending) : Turn → Prop
  | .call _ => s.hand ≠ none
  | .goOn => s.hand = none ∨ s.Blocked
  | .take => s.channel.queue = []
  | .leave => s.channel.connected = false

/-- What a turn can do, with all that it takes for it. -/
inductive Moves (s : Sending) : Turn → Sending → Prop
  | idle {t : Turn} (idle : s.Idle t) : Moves s t s
  | called (c : SendCall) (free : s.hand = none) :
      Moves s (.call c) ⟨s.channel, some ⟨none, c.events⟩, s.log ++ [.called c]⟩
  /-- An event is dropped behind a `finish`. -/
  | dropped {e : Event} {rest : List Event} (next : s.hand = some ⟨none, e :: rest⟩)
      (closed : s.channel.finished = true) :
      Moves s .goOn ⟨s.channel, some ⟨none, rest⟩, s.log ++ [.emitted e]⟩
  /-- An event goes into the channel at once. -/
  | passed {e : Event} {rest : List Event} (next : s.hand = some ⟨none, e :: rest⟩)
      (opened : s.channel.finished = false) (present : s.channel.connected = true)
      (room : s.channel.queue.length < s.channel.capacity) :
      Moves s .goOn ⟨s.channel.pass e, some ⟨none, rest⟩, s.log ++ [.emitted e, .delivered e]⟩
  /-- An event has to wait. -/
  | waits {e : Event} {rest : List Event} (next : s.hand = some ⟨none, e :: rest⟩)
      (opened : s.channel.finished = false) (present : s.channel.connected = true)
      (full : s.channel.capacity ≤ s.channel.queue.length) :
      Moves s .goOn ⟨s.channel.mark e, some ⟨some e, rest⟩, s.log ++ [.emitted e]⟩
  /-- There is nobody for an event. -/
  | refused {e : Event} {rest : List Event} (next : s.hand = some ⟨none, e :: rest⟩)
      (opened : s.channel.finished = false) (gone : s.channel.connected = false) :
      Moves s .goOn
        ⟨s.channel.mark e, none, s.log ++ [.emitted e, .returned (.error .consumerGone)]⟩
  /-- An event that waited goes into the channel. -/
  | admitted {e : Event} {rest : List Event} (next : s.hand = some ⟨some e, rest⟩)
      (present : s.channel.connected = true)
      (room : s.channel.queue.length < s.channel.capacity) :
      Moves s .goOn ⟨{ s.channel with queue := s.channel.queue ++ [e] }, some ⟨none, rest⟩,
        s.log ++ [.delivered e]⟩
  /-- There is nobody any more for an event that waited. -/
  | abandoned {e : Event} {rest : List Event} (next : s.hand = some ⟨some e, rest⟩)
      (gone : s.channel.connected = false) :
      Moves s .goOn ⟨s.channel, none, s.log ++ [.returned (.error .consumerGone)]⟩
  | returned (done : s.hand = some ⟨none, []⟩) :
      Moves s .goOn ⟨s.channel, none, s.log ++ [.returned (.ok ())]⟩
  | took {e : Event} {queue : List Event} (next : s.channel.queue = e :: queue) :
      Moves s .take
        ⟨{ s.channel with queue := queue, taken := s.channel.taken ++ [e] }, s.hand, s.log⟩
  | left (present : s.channel.connected = true) :
      Moves s .leave ⟨s.channel.leave, s.hand, s.log ++ [.left]⟩

theorem goOn_moves (s : Sending) : Moves s .goOn s.goOn := by
  obtain ⟨c, hand, log⟩ := s
  unfold goOn
  match hand with
  | none => exact .idle (Or.inl rfl)
  | some ⟨none, []⟩ => exact .returned rfl
  | some ⟨none, e :: rest⟩ =>
    cases hfinished : c.finished with
    | true =>
      simp only [Channel.put, hfinished, if_true, settle]
      exact .dropped rfl hfinished
    | false =>
      simp only [Channel.put_of_opened hfinished]
      cases hconnected : c.connected with
      | false =>
        simpa [settle] using Moves.refused (s := ⟨c, _, log⟩) rfl hfinished hconnected
      | true =>
        by_cases hroom : c.queue.length < c.capacity
        · simpa [settle, hroom] using Moves.passed (s := ⟨c, _, log⟩) rfl hfinished hconnected hroom
        · simpa [settle, hroom] using
            Moves.waits (s := ⟨c, _, log⟩) rfl hfinished hconnected (Nat.le_of_not_lt hroom)
  | some ⟨some e, rest⟩ =>
    cases hconnected : c.connected with
    | false =>
      simpa [settle, Channel.enqueue, hconnected] using
        Moves.abandoned (s := ⟨c, _, log⟩) rfl hconnected
    | true =>
      by_cases hroom : c.queue.length < c.capacity
      · simpa [settle, Channel.enqueue, hconnected, hroom] using
          Moves.admitted (s := ⟨c, _, log⟩) rfl hconnected hroom
      · have hblocked : Blocked ⟨c, some ⟨some e, rest⟩, log⟩ :=
          ⟨hconnected, Nat.le_of_not_lt hroom, e, rest, rfl⟩
        have hidle : Idle ⟨c, some ⟨some e, rest⟩, log⟩ .goOn := Or.inr hblocked
        simpa [settle, Channel.enqueue, hconnected, hroom] using Moves.idle hidle

theorem step_moves (s : Sending) (t : Turn) : Moves s t (s.step t) := by
  cases t with
  | call c =>
    unfold step
    cases hhand : s.hand with
    | none => exact .called c hhand
    | some h => exact .idle (by simp [Idle, hhand])
  | goOn => exact s.goOn_moves
  | take =>
    unfold step Channel.take
    cases hqueue : s.channel.queue with
    | nil => exact .idle hqueue
    | cons e queue => exact .took hqueue
  | leave =>
    unfold step
    cases hconnected : s.channel.connected with
    | false => exact .idle hconnected
    | true => exact .left hconnected

/-! ## Coming to rest -/

theorem load_eq_zero : s.load = 0 ↔ s.AtRest := by
  unfold load AtRest
  cases s.hand with
  | none => simp
  | some h => simp

theorem Moves.log_grows (h : Moves s t s') : s.log <+: s'.log := by
  cases h with
  | idle | took => exact List.prefix_rfl
  | _ => exact List.prefix_append _ _

theorem Moves.capacity (h : Moves s t s') : s'.channel.capacity = s.channel.capacity := by
  cases h <;> rfl

/-- A turn that is no call leaves no more to be done than there was, and less unless it is idle or
the consumer leaves without an event that waits. -/
theorem Moves.load (h : Moves s t s') (hcall : ∀ c, t ≠ .call c) :
    s'.load < s.load ∨ s'.load = s.load ∧ s'.hand = s.hand ∧
      s'.channel.queue = s.channel.queue ∧ (t = .leave ∨ s.Idle t) := by
  cases h with
  | idle idle => exact Or.inr ⟨rfl, rfl, rfl, Or.inr idle⟩
  | called c free => exact absurd rfl (hcall c)
  | dropped next closed | abandoned next gone | returned next | took next =>
    left
    simp [Sending.load, next]
  | passed next opened present room | waits next opened present full | admitted next present room =>
    left
    simp [Sending.load, Channel.pass, Channel.mark, next]
    omega
  | refused next opened gone =>
    left
    simp [Sending.load, Channel.mark, next]
  | left present =>
    cases hqueue : s.channel.queue with
    | nil => exact Or.inr ⟨by simp [Sending.load, Channel.leave, hqueue], rfl, rfl, Or.inl rfl⟩
    | cons e queue =>
      left
      simp [Sending.load, Channel.leave, hqueue]

/-- Turns that leave as much to be done as there was are idle, but for the consumer's leaving. -/
theorem load_turns (s : Sending) {turns : List Turn} (hcall : ∀ c, .call c ∉ turns) :
    (turns.foldl step s).load ≤ s.load ∧ ((turns.foldl step s).load = s.load →
      (.goOn ∈ turns → s.hand = none ∨ s.channel.capacity ≤ s.channel.queue.length) ∧
        (.take ∈ turns → s.channel.queue = [])) := by
  induction turns generalizing s with
  | nil => simp
  | cons t turns ih =>
    have ht : ∀ c, t ≠ .call c := fun c he => hcall c (he ▸ List.mem_cons_self)
    obtain ⟨hle, hidle⟩ := ih (s.step t) fun c hc => hcall c (List.mem_cons_of_mem _ hc)
    rw [List.foldl_cons]
    rcases (s.step_moves t).load ht with hlt | ⟨heq, hhand, hqueue, hturn⟩
    · exact ⟨by omega, fun he => by omega⟩
    · refine ⟨by omega, fun he => ?_⟩
      obtain ⟨hgoOn, htake⟩ := hidle (by omega)
      rw [hhand, hqueue, (s.step_moves t).capacity] at hgoOn
      rw [hqueue] at htake
      constructor
      · intro hin
        rcases List.mem_cons.mp hin with rfl | hin
        · have hidle : s.Idle .goOn := hturn.resolve_left nofun
          exact hidle.imp_right Blocked.full
        · exact hgoOn hin
      · intro hin
        rcases List.mem_cons.mp hin with rfl | hin
        · exact hturn.resolve_left nofun
        · exact htake hin

theorem capacity_turns (s : Sending) (turns : List Turn) :
    (turns.foldl step s).channel.capacity = s.channel.capacity := by
  induction turns generalizing s with
  | nil => rfl
  | cons t turns ih => exact (ih _).trans (s.step_moves t).capacity

/-- As many rounds as there is to be done bring everything to rest. -/
theorem rounds_rest {rounds : List (List Turn)} (hroom : 0 < s.channel.capacity)
    (hrounds : ∀ turns ∈ rounds, IsRound turns) (hload : s.load ≤ rounds.length) :
    (rounds.flatten.foldl step s).AtRest := by
  rw [← load_eq_zero]
  induction rounds generalizing s with
  | nil => exact Nat.le_zero.mp hload
  | cons turns rounds ih =>
    obtain ⟨hgoOn, htake, hcall⟩ := hrounds turns List.mem_cons_self
    obtain ⟨hle, hidle⟩ := s.load_turns hcall
    rw [List.flatten_cons, List.foldl_append]
    refine ih (by rwa [capacity_turns]) (fun r hr => hrounds r (List.mem_cons_of_mem _ hr)) ?_
    rw [List.length_cons] at hload
    by_cases heq : (turns.foldl step s).load = s.load
    · -- A round in which nothing is done finds nothing to do.
      obtain ⟨hblocked, hempty⟩ := hidle heq
      have hqueue := hempty htake
      have hhand : s.hand = none := (hblocked hgoOn).resolve_right (by simp [hqueue]; omega)
      have hrest : s.load = 0 := load_eq_zero.mpr ⟨hhand, hqueue⟩
      omega
    · omega

/-! ## Calls while the consumer does nothing -/

/-- How a call stands when this came of its events. -/
def CameTo (s : Sending) : PutResult → Prop
  | .done => s.hand = none ∧ s.log.getLast? = some (.returned (.ok ()))
  | .full => ∃ e rest, s.hand = some ⟨some e, rest⟩
  | .gone => s.hand = none ∧ s.log.getLast? = some (.returned (.error .consumerGone))

theorem alone_succ (s : Sending) (n : Nat) : s.alone (n + 1) = s.goOn.alone n := rfl

theorem alone_of_goOn (h : s.goOn = s) (n : Nat) : s.alone n = s := by
  induction n with
  | zero => rfl
  | succ n ih => rw [alone_succ, h, ih]

theorem alone_of_free (h : s.hand = none) (n : Nat) : s.alone n = s :=
  alone_of_goOn (by simp [goOn, h]) n

/-- Events are put into the channel one by one until one does not go through. -/
theorem alone_putAll {es : List Event} (h : s.hand = some ⟨none, es⟩) {n : Nat}
    (hn : es.length < n) : (s.alone n).channel = (s.channel.putAll es).2 ∧
      (s.alone n).CameTo (s.channel.putAll es).1 := by
  obtain ⟨n, rfl⟩ : ∃ m, n = m + 1 := ⟨n - 1, by omega⟩
  rw [alone_succ]
  induction es generalizing s n with
  | nil =>
    have hgoOn : s.goOn = ⟨s.channel, none, s.log ++ [.returned (.ok ())]⟩ := by simp [goOn, h]
    rw [hgoOn, alone_of_free rfl]
    exact ⟨rfl, rfl, List.getLast?_concat⟩
  | cons e es ih =>
    have hgoOn : s.goOn =
        settle (s.log ++ [.emitted e]) e es s.channel.finished (s.channel.put e) := by
      simp [goOn, h]
    rw [hgoOn, Channel.putAll]
    rcases hput : s.channel.put e with ⟨result, c⟩
    cases result with
    | done =>
      obtain ⟨n, rfl⟩ : ∃ m, n = m + 1 := ⟨n - 1, by rw [List.length_cons] at hn; omega⟩
      rw [alone_succ]
      exact ih rfl n (by rw [List.length_cons] at hn; omega)
    | full =>
      rw [settle, alone_of_goOn (by simp [goOn, settle, Channel.enqueue_of_full hput])]
      exact ⟨rfl, e, es, rfl⟩
    | gone =>
      rw [settle, alone_of_free rfl]
      exact ⟨rfl, rfl, List.getLast?_concat⟩

end Sending

end AgentRun
