import AgentRun.Proofs.Sending

/-!
# What is sent arrives

`Sending.Faithful` says what the consumer gets and what the calls return, in terms of the log alone,
and it holds after any turns.

Two invariants are behind it. `Sending.Tallies` ties the channel and the call in hand to the log,
and `Sending.Lawful` is about the log for itself: each entry is one that may stand behind those
before it.
-/

namespace AgentRun

namespace Sending

variable {s s' : Sending} {t : Turn} {e : Event} {l m : List Event} {log new : List SendEntry}

/-! ## The log -/

theorem upToFinish_of_none (h : ∀ e ∈ l, e.isFinish = false) (m : List Event) :
    upToFinish (l ++ m) = l ++ upToFinish m := by
  induction l with
  | nil => rfl
  | cons e l ih =>
    have he : e.isFinish = false := h e List.mem_cons_self
    rw [List.cons_append, upToFinish, he, ih fun f hf => h f (List.mem_cons_of_mem _ hf)]
    rfl

theorem upToFinish_of_some (h : ∃ e ∈ l, e.isFinish = true) (m : List Event) :
    upToFinish (l ++ m) = upToFinish l := by
  induction l with
  | nil => simp at h
  | cons e l ih =>
    rw [List.cons_append, upToFinish, upToFinish]
    split
    · rfl
    · rename_i he
      obtain ⟨f, hf, hfinish⟩ := h
      rcases List.mem_cons.mp hf with rfl | hf
      · exact absurd hfinish he
      · rw [ih ⟨f, hf, hfinish⟩]

theorem upToFinish_eq_self (h : ∀ e ∈ l, e.isFinish = false) : upToFinish l = l := by
  have hall := upToFinish_of_none h []
  rwa [List.append_nil, upToFinish, List.append_nil] at hall

/-- In front of any `finish` the last event is not cut off. -/
theorem upToFinish_snoc (h : ∀ e ∈ l, e.isFinish = false) (e : Event) :
    upToFinish (l ++ [e]) = l ++ [e] := by
  rw [upToFinish_of_none h, upToFinish]
  split <;> rfl

theorem upToFinish_grows (h : l <+: m) : upToFinish l <+: upToFinish m := by
  obtain ⟨more, rfl⟩ := h
  by_cases hfinish : ∃ e ∈ l, e.isFinish = true
  · exact ⟨[], by rw [List.append_nil, upToFinish_of_some hfinish]⟩
  · have hnone : ∀ e ∈ l, e.isFinish = false := by simpa using hfinish
    rw [upToFinish_of_none hnone, upToFinish_eq_self hnone]
    exact List.prefix_append _ _

/-- What the entries of a log come to only grows with the log. -/
theorem prefix_flatMap {f : SendEntry → List Event} (h : log <+: new) :
    log.flatMap f <+: new.flatMap f := by
  obtain ⟨more, rfl⟩ := h
  rw [List.flatMap_append]
  exact List.prefix_append _ _

@[simp]
theorem asked_append : asked (log ++ new) = asked log ++ asked new := List.flatMap_append

@[simp]
theorem asked_cons (x : SendEntry) : asked (x :: log) = x.askedEvents ++ asked log :=
  List.flatMap_cons

@[simp]
theorem asked_nil : asked [] = [] := rfl

@[simp]
theorem emitted_append : emitted (log ++ new) = emitted log ++ emitted new := List.flatMap_append

@[simp]
theorem emitted_cons (x : SendEntry) : emitted (x :: log) = x.emittedEvents ++ emitted log :=
  List.flatMap_cons

@[simp]
theorem emitted_nil : emitted [] = [] := rfl

@[simp]
theorem delivered_append : delivered (log ++ new) = delivered log ++ delivered new :=
  List.flatMap_append

@[simp]
theorem delivered_cons (x : SendEntry) :
    delivered (x :: log) = x.deliveredEvents ++ delivered log :=
  List.flatMap_cons

@[simp]
theorem delivered_nil : delivered [] = [] := rfl

theorem delivered_eq_nil : delivered log = [] ↔ ∀ e, .delivered e ∉ log := by
  rw [delivered, List.flatMap_eq_nil_iff]
  constructor
  · intro h e he
    cases h _ he
  · intro h x hx
    cases x with
    | delivered e => exact absurd hx (h e)
    | _ => rfl

@[simp]
theorem openCall?_snoc (x : SendEntry) : openCall? (log ++ [x]) = x.follow (openCall? log) := by
  rw [openCall?, List.foldl_append, List.foldl_cons, List.foldl_nil, openCall?]

theorem FinishPassed.append (h : FinishPassed log) : FinishPassed (log ++ new) := by
  obtain ⟨e, he, hfinish⟩ := h
  exact ⟨e, by rw [emitted_append]; exact List.mem_append_left _ he, hfinish⟩

theorem finishPassed_quiet (h : emitted new = []) :
    FinishPassed (log ++ new) ↔ FinishPassed log := by
  rw [FinishPassed, emitted_append, h, List.append_nil, FinishPassed]

theorem Late.finishPassed (h : Late log) : FinishPassed log := by
  obtain ⟨before, c, behind, rfl, hpassed⟩ := h
  exact hpassed.append

theorem Late.append (h : Late log) : Late (log ++ new) := by
  obtain ⟨before, c, behind, rfl, hpassed⟩ := h
  exact ⟨before, c, behind ++ new, by simp, hpassed⟩

theorem late_append (h : ∀ c, .called c ∉ new) : Late (log ++ new) ↔ Late log := by
  refine ⟨?_, Late.append⟩
  rintro ⟨before, c, behind, hlog, hpassed⟩
  rcases split_in_row hlog with ⟨u, rfl, -⟩ | ⟨u, -, rfl⟩
  · exact ⟨before, c, u, rfl, hpassed⟩
  · exact absurd (List.mem_append_right _ List.mem_cons_self) (h c)

/-! ## The channel and its log -/

/-- The call in hand is the one that the log leaves open. -/
def HandTold (log : List SendEntry) : Option CallInHand → Prop
  | none => openCall? log = none
  | some h => ∃ c es, openCall? log = some (c, es) ∧ c.events = es ++ h.rest

theorem handTold_quiet {x : SendEntry} (h : ∀ pending, x.follow pending = pending)
    {hand : Option CallInHand} : HandTold (log ++ [x]) hand ↔ HandTold log hand := by
  cases hand <;> simp only [HandTold, openCall?_snoc, h]

/-- What a channel has in common with the log of its sending end. -/
structure Tallies (s : Sending) : Prop where
  finished : s.channel.finished = true ↔ FinishPassed s.log
  connected : s.channel.connected = true ↔ .left ∉ s.log
  /-- No event is lost to a consumer that is there. -/
  sent : s.channel.connected = true → s.channel.sent = delivered s.log
  emptied : s.channel.connected = false → s.channel.queue = []
  taken : s.channel.taken <+: delivered s.log
  /-- Nor is one that was emitted held back, but for the one that waits. -/
  waits : s.channel.connected = true → upToFinish (emitted s.log) = delivered s.log ++ s.waiting
  asks : s.channel.connected = true → asked s.log = emitted s.log ++ s.rest
  ordered : delivered s.log <+: upToFinish (emitted s.log)
  wanted : delivered s.log <+: upToFinish (asked s.log)
  late : Late s.log → s.waiting = []
  hand : HandTold s.log s.hand

namespace Tallies

theorem start (capacity : Nat) : Tallies ⟨.new capacity, none, []⟩ where
  finished := by simp [Channel.new, FinishPassed, emitted]
  connected := by simp [Channel.new]
  sent _ := rfl
  emptied _ := rfl
  taken := List.prefix_rfl
  waits _ := rfl
  asks _ := rfl
  ordered := List.prefix_rfl
  wanted := List.prefix_rfl
  late _ := rfl
  hand := rfl

theorem notPassed (ht : Tallies s) (opened : s.channel.finished = false) :
    ∀ e ∈ emitted s.log, e.isFinish = false := by
  have hnone : ¬ FinishPassed s.log := fun hp => by
    rw [ht.finished.mpr hp] at opened
    cases opened
  simpa [FinishPassed] using hnone

theorem gone (ht : Tallies s) (hgone : s.channel.connected = false) : .left ∈ s.log := by
  by_contra hleft
  cases hgone.symm.trans (ht.connected.mpr hleft)

theorem finished_step (ht : Tallies s) (h : Moves s t s') :
    s'.channel.finished = true ↔ FinishPassed s'.log := by
  -- The first event of all that may be a `finish` decides.
  have decides {e : Event} (opened : s.channel.finished = false) (more : List SendEntry)
      (hmore : emitted more = []) :
      FinishPassed (s.log ++ .emitted e :: more) ↔ e.isFinish = true := by
    have hnone : ∀ f ∈ emitted s.log, ¬ f.isFinish = true := fun f hf => by
      simp [ht.notPassed opened f hf]
    simp only [FinishPassed, emitted_append, emitted_cons, SendEntry.emittedEvents, hmore,
      List.append_nil, List.mem_append, List.mem_singleton]
    constructor
    · rintro ⟨f, hf | rfl, hfinish⟩
      · exact absurd hfinish (hnone f hf)
      · exact hfinish
    · exact fun hfinish => ⟨e, Or.inr rfl, hfinish⟩
  cases h with
  | idle | took => exact ht.finished
  | called | returned | admitted | abandoned | left =>
    exact ht.finished.trans (finishPassed_quiet rfl).symm
  | dropped next closed => exact iff_of_true closed (ht.finished.mp closed).append
  | passed next opened => exact (decides opened [.delivered _] rfl).symm
  | waits next opened => exact (decides opened [] rfl).symm
  | refused next opened => exact (decides opened [.returned _] rfl).symm

theorem connected_step (ht : Tallies s) (h : Moves s t s') :
    s'.channel.connected = true ↔ .left ∉ s'.log := by
  have hc := ht.connected
  cases h with
  | idle | took => exact hc
  | left => simp [Channel.leave]
  | _ => simpa [Channel.pass, Channel.mark] using hc

theorem sent_step (ht : Tallies s) (h : Moves s t s') :
    s'.channel.connected = true → s'.channel.sent = delivered s'.log := by
  have hs := ht.sent
  cases h with
  | left => nofun
  | took next =>
    intro hc
    rw [← hs hc]
    simp [Channel.sent, next]
  | passed | admitted =>
    intro hc
    simp [← hs hc, Channel.sent, Channel.pass]
  | _ => simpa [Channel.sent, Channel.mark] using hs

theorem emptied_step (ht : Tallies s) (h : Moves s t s') :
    s'.channel.connected = false → s'.channel.queue = [] := by
  have he := ht.emptied
  cases h with
  | left => exact fun _ => rfl
  | took next => exact fun hc => by cases next.symm.trans (he hc)
  | passed next opened present | admitted next present =>
    exact fun hc => by cases hc.symm.trans present
  | _ => exact he

theorem waits_step (ht : Tallies s) (h : Moves s t s') : s'.channel.connected = true →
    upToFinish (emitted s'.log) = delivered s'.log ++ s'.waiting := by
  have hw := ht.waits
  cases h with
  | left => nofun
  | idle | took => exact hw
  | called c next | returned next | admitted next => simpa [waiting, next] using hw
  | dropped next closed =>
    simpa [waiting, next, upToFinish_of_some (ht.finished.mp closed)] using hw
  | passed next opened | waits next opened =>
    intro hc
    have hall := hw hc
    rw [upToFinish_eq_self (ht.notPassed opened)] at hall
    simpa [waiting, next, upToFinish_snoc (ht.notPassed opened)] using hall
  | refused next opened gone | abandoned next gone => exact fun hc => by cases hc.symm.trans gone

theorem asks_step (ht : Tallies s) (h : Moves s t s') :
    s'.channel.connected = true → asked s'.log = emitted s'.log ++ s'.rest := by
  have ha := ht.asks
  cases h with
  | left => nofun
  | idle | took => exact ha
  | refused next opened gone | abandoned next gone => exact fun hc => by cases hc.symm.trans gone
  | called c next =>
    intro hc
    simpa [rest, next] using ha hc
  | dropped next | passed next | waits next | admitted next | returned next =>
    simpa [rest, next, Channel.pass, Channel.mark] using ha

/-- Without a consumer nothing is delivered. -/
theorem delivered_step (h : Moves s t s') :
    s'.channel.connected = true ∨ delivered s'.log = delivered s.log := by
  cases h with
  | passed next opened present | admitted next present => exact Or.inl present
  | _ => simp

theorem taken_step (ht : Tallies s) (h : Moves s t s') : s'.channel.taken <+: delivered s'.log := by
  cases hc : s'.channel.connected with
  | true =>
    rw [← ht.sent_step h hc]
    exact List.prefix_append _ _
  | false =>
    have hsame : s'.channel.taken = s.channel.taken := by
      cases h with
      | took next => cases next.symm.trans (ht.emptied hc)
      | _ => rfl
    rw [hsame]
    exact ht.taken.trans (prefix_flatMap h.log_grows)

theorem late_step (ht : Tallies s) (h : Moves s t s') : Late s'.log → s'.waiting = [] := by
  have hl := ht.late
  cases h with
  | idle | took => exact hl
  | left => exact fun hlate => hl ((late_append (by simp)).mp hlate)
  | waits next opened =>
    intro hlate
    have hpassed := ht.finished.mpr ((late_append (by simp)).mp hlate).finishPassed
    cases hpassed.symm.trans opened
  | _ => exact fun _ => rfl

theorem hand_step (ht : Tallies s) (h : Moves s t s') : HandTold s'.log s'.hand := by
  have hh := ht.hand
  -- The next event of the call in hand is emitted.
  have emits {e : Event} {rest : List Event} (next : s.hand = some ⟨none, e :: rest⟩) :
      ∃ c es, openCall? (s.log ++ [.emitted e]) = some (c, es) ∧ c.events = es ++ rest := by
    rw [next] at hh
    obtain ⟨c, es, hopen, hevents⟩ := hh
    exact ⟨c, es ++ [e], by simp [hopen], by simp [hevents]⟩
  cases h with
  | idle | took => exact hh
  | called c => exact ⟨c, [], by simp, by simp⟩
  | dropped next | waits next => exact emits next
  | passed next =>
    rw [List.append_cons, HandTold, openCall?_snoc]
    exact emits next
  | refused =>
    rw [List.append_cons]
    exact openCall?_snoc _
  | admitted next =>
    rw [next] at hh
    exact (handTold_quiet fun _ => rfl).mpr hh
  | abandoned | returned => exact openCall?_snoc _
  | left => exact (handTold_quiet fun _ => rfl).mpr hh

/-- A turn keeps them together. What is delivered to a consumer that is there is in order because
none of it is lost, and to one that is gone nothing more is delivered. -/
theorem step (ht : Tallies s) (h : Moves s t s') : Tallies s' := by
  have hwaits := ht.waits_step h
  have hasks := ht.asks_step h
  have hordered : delivered s'.log <+: upToFinish (emitted s'.log) := by
    rcases delivered_step h with hc | hsame
    · exact ⟨s'.waiting, (hwaits hc).symm⟩
    · exact hsame ▸ ht.ordered.trans (upToFinish_grows (prefix_flatMap h.log_grows))
  have hwanted : delivered s'.log <+: upToFinish (asked s'.log) := by
    rcases delivered_step h with hc | hsame
    · exact hordered.trans (upToFinish_grows ⟨s'.rest, (hasks hc).symm⟩)
    · exact hsame ▸ ht.wanted.trans (upToFinish_grows (prefix_flatMap h.log_grows))
  exact ⟨ht.finished_step h, ht.connected_step h, ht.sent_step h, ht.emptied_step h,
    ht.taken_step h, hwaits, hasks, hordered, hwanted, ht.late_step h, ht.hand_step h⟩

end Tallies

/-! ## What may happen when -/

/-- What may happen behind a log. The events of a call are emitted in order, and it returns well
only once all of them are. An event is delivered only while the consumer is there, and a call fails
only when it is not, and neither happens once a call was made behind a `finish`. -/
def Allowed (log : List SendEntry) : SendEntry → Prop
  | .called _ => True
  | .emitted e => ∃ c es, openCall? log = some (c, es) ∧ es ++ [e] <+: c.events
  | .delivered _ => .left ∉ log ∧ ¬ Late log
  | .returned (.ok ()) => ∃ c, openCall? log = some (c, c.events)
  | .returned (.error e) => e = .consumerGone ∧ .left ∈ log ∧ ¬ Late log
  | .left => .left ∉ log

/-- A log in which all that happened was allowed then. -/
def Lawful (log : List SendEntry) : Prop :=
  ∀ before x behind, log = before ++ x :: behind → Allowed before x

namespace Lawful

theorem snoc (h : Lawful log) {x : SendEntry} (hx : Allowed log x) : Lawful (log ++ [x]) := by
  intro before y behind hlog
  rcases split_in_row hlog with ⟨u, hu, -⟩ | ⟨u, rfl, hnew⟩
  · exact h before y u hu
  · obtain ⟨rfl, rfl, -⟩ := split_singleton hnew
    rwa [List.append_nil]

theorem step (h : Lawful s.log) (ht : Tallies s) (hm : Moves s t s') : Lawful s'.log := by
  have hopen (opened : s.channel.finished = false) : ¬ Late s.log := fun hlate => by
    cases (ht.finished.mpr hlate.finishPassed).symm.trans opened
  have hhand := ht.hand
  have hwaits {e : Event} {rest : List Event} (next : s.hand = some ⟨some e, rest⟩) :
      ¬ Late s.log := fun hlate => by
    simpa [waiting, next] using ht.late hlate
  have hemits {e : Event} {rest : List Event} (next : s.hand = some ⟨none, e :: rest⟩) :
      Lawful (s.log ++ [.emitted e]) := by
    rw [next] at hhand
    obtain ⟨c, es, hcall, hevents⟩ := hhand
    exact h.snoc ⟨c, es, hcall, rest, by simp [hevents]⟩
  have hemitted {e : Event} : Late (s.log ++ [.emitted e]) ↔ Late s.log := late_append (by simp)
  cases hm with
  | idle | took => exact h
  | called => exact h.snoc trivial
  | dropped next | waits next => exact hemits next
  | passed next opened present =>
    rw [List.append_cons]
    refine (hemits next).snoc ⟨by simpa using ht.connected.mp present, ?_⟩
    rw [hemitted]
    exact hopen opened
  | refused next opened gone =>
    rw [List.append_cons]
    refine (hemits next).snoc ⟨rfl, List.mem_append_left _ (ht.gone gone), ?_⟩
    rw [hemitted]
    exact hopen opened
  | admitted next present => exact h.snoc ⟨ht.connected.mp present, hwaits next⟩
  | abandoned next gone => exact h.snoc ⟨rfl, ht.gone gone, hwaits next⟩
  | returned done =>
    rw [done] at hhand
    obtain ⟨c, es, hcall, hevents⟩ := hhand
    rw [List.append_nil] at hevents
    exact h.snoc ⟨c, by rw [hcall, hevents]⟩
  | left present => exact h.snoc (ht.connected.mp present)

/-- An entry further behind is allowed, too. -/
theorem behind (h : Lawful log) {before behind : List SendEntry} {x y : SendEntry}
    (hlog : log = before ++ x :: behind) (hy : y ∈ behind) :
    ∃ between, Allowed (before ++ x :: between) y := by
  obtain ⟨between, behind, rfl⟩ := List.append_of_mem hy
  exact ⟨between, h _ y behind (by simp [hlog])⟩

end Lawful

/-! ## What comes of an event -/

/-- What came of an event between two parts of the log: it was delivered, or its call failed, at
once or when the consumer left, or else it still waits. -/
def Outcome (s : Sending) (before : List SendEntry) (e : Event) (behind : List SendEntry) : Prop :=
  (∃ more, behind = .delivered e :: more) ∨
  (∃ more, behind = .returned (.error .consumerGone) :: more) ∨
  (∃ more, behind = .left :: .returned (.error .consumerGone) :: more) ∨
  s.waiting = [e] ∧ .left ∉ before ∧ (behind = [] ∨ behind = [.left])

/-- Something came of each event that was emitted before a `finish` was passed. -/
def Accounted (s : Sending) : Prop :=
  ∀ before e behind, s.log = before ++ .emitted e :: behind → ¬ FinishPassed before →
    s.Outcome before e behind

namespace Accounted

/-- At most the first of the new entries is an event that is emitted. If it and the one that waited
are accounted for, all are. -/
theorem of_append (h : Accounted s) (hlog : s'.log = s.log ++ new)
    (hquiet : emitted new.tail = [])
    (hwaits : ∀ before e behind, s.log = before ++ .emitted e :: behind → s.waiting = [e] →
      .left ∉ before → behind = [] ∨ behind = [.left] → s'.Outcome before e (behind ++ new))
    (hnew : ∀ e more, new = .emitted e :: more → ¬ FinishPassed s.log → s'.Outcome s.log e more) :
    Accounted s' := by
  intro before e behind hsplit hpassed
  rw [hlog] at hsplit
  rcases split_in_row hsplit with ⟨u, hu, rfl⟩ | ⟨u, rfl, rfl⟩
  · rcases h before e u hu hpassed with ⟨more, rfl⟩ | ⟨more, rfl⟩ | ⟨more, rfl⟩ | ⟨hw, hleft, hend⟩
    · exact Or.inl ⟨more ++ new, rfl⟩
    · exact Or.inr (Or.inl ⟨more ++ new, rfl⟩)
    · exact Or.inr (Or.inr (Or.inl ⟨more ++ new, rfl⟩))
    · exact hwaits before e u hu hw hleft hend
  · cases u with
    | nil =>
      rw [List.append_nil] at hpassed ⊢
      exact hnew e behind rfl hpassed
    | cons x u => simp at hquiet

theorem step (h : Accounted s) (ht : Tallies s) (hm : Moves s t s') : Accounted s' := by
  have nothing {new : List SendEntry} (hno : s.waiting = []) (before : List SendEntry) (e : Event)
      (behind : List SendEntry) (_ : s.log = before ++ .emitted e :: behind)
      (hw : s.waiting = [e]) (_ : .left ∉ before) (_ : behind = [] ∨ behind = [.left]) :
      s'.Outcome before e (behind ++ new) := by
    cases hno.symm.trans hw
  have still {before : List SendEntry} {e : Event} {behind : List SendEntry}
      (present : s.channel.connected = true) (hlog : s.log = before ++ .emitted e :: behind)
      (hend : behind = [] ∨ behind = [.left]) : behind = [] := by
    refine hend.resolve_right ?_
    rintro rfl
    exact ht.connected.mp present (by simp [hlog])
  cases hm with
  | idle | took => exact h
  | called c free =>
    exact h.of_append rfl rfl (nothing (by simp [waiting, free])) nofun
  | returned done => exact h.of_append rfl rfl (nothing (by simp [waiting, done])) nofun
  | dropped next closed =>
    refine h.of_append rfl rfl (nothing (by simp [waiting, next])) fun e more _ hpassed => ?_
    exact absurd (ht.finished.mp closed) hpassed
  | passed next =>
    refine h.of_append rfl rfl (nothing (by simp [waiting, next])) fun e more hnew _ => ?_
    obtain ⟨hx, rfl⟩ := List.cons.inj hnew
    cases hx
    exact Or.inl ⟨[], rfl⟩
  | waits next opened present =>
    refine h.of_append rfl rfl (nothing (by simp [waiting, next])) fun e more hnew _ => ?_
    obtain ⟨hx, rfl⟩ := List.cons.inj hnew
    cases hx
    exact Or.inr (Or.inr (Or.inr ⟨rfl, ht.connected.mp present, Or.inl rfl⟩))
  | refused next =>
    refine h.of_append rfl rfl (nothing (by simp [waiting, next])) fun e more hnew _ => ?_
    obtain ⟨-, rfl⟩ := List.cons.inj hnew
    exact Or.inr (Or.inl ⟨[], rfl⟩)
  | admitted next present =>
    refine h.of_append rfl rfl (fun before e behind hlog hw hleft hend => ?_) nofun
    obtain rfl := still present hlog hend
    rw [waiting, next] at hw
    obtain ⟨rfl, -⟩ := List.cons.inj hw
    exact Or.inl ⟨[], rfl⟩
  | abandoned next =>
    refine h.of_append rfl rfl (fun before e behind hlog hw hleft hend => ?_) nofun
    rcases hend with rfl | rfl
    · exact Or.inr (Or.inl ⟨[], rfl⟩)
    · exact Or.inr (Or.inr (Or.inl ⟨[], rfl⟩))
  | left present =>
    refine h.of_append rfl rfl (fun before e behind hlog hw hleft hend => ?_) nofun
    obtain rfl := still present hlog hend
    exact Or.inr (Or.inr (Or.inr ⟨hw, hleft, Or.inr rfl⟩))

end Accounted

/-- A sending end as it can come about. -/
structure Sound (s : Sending) : Prop where
  tallies : Tallies s
  lawful : Lawful s.log
  accounted : Accounted s

theorem Sound.start (capacity : Nat) : Sound ⟨.new capacity, none, []⟩ where
  tallies := .start capacity
  lawful before x behind h := by simp at h
  accounted before e behind h := by simp at h

theorem Sound.step (h : Sound s) (t : Turn) : Sound (s.step t) where
  tallies := h.tallies.step (s.step_moves t)
  lawful := h.lawful.step h.tallies (s.step_moves t)
  accounted := h.accounted.step h.tallies (s.step_moves t)

theorem Sound.after (capacity : Nat) (turns : List Turn) : Sound (after capacity turns) := by
  unfold Sending.after
  have hsound {s : Sending} (h : Sound s) : Sound (turns.foldl Sending.step s) := by
    induction turns generalizing s with
    | nil => exact h
    | cons t turns ih => exact ih (h.step t)
  exact hsound (.start capacity)

/-! ## What the consumer gets and the calls return -/

/-- The sending end does what the log asks for. -/
structure Faithful (s : Sending) : Prop where
  /-- The consumer gets a first part of what was emitted, cut off behind the first `finish`. -/
  received : s.channel.taken <+: upToFinish (emitted s.log)
  /-- It is also a first part of what was asked for. -/
  received_asked : s.channel.taken <+: upToFinish (asked s.log)
  /-- A consumer that never leaves gets all of it, with no call and no event left to wait for. -/
  received_all : .left ∉ s.log → s.AtRest →
    s.channel.taken = upToFinish (emitted s.log) ∧ emitted s.log = asked s.log
  /-- It comes to that as long as both sides go on. -/
  comes_to_rest : 0 < s.channel.capacity → ∀ rounds : List (List Turn),
    (∀ turns ∈ rounds, IsRound turns) → s.load ≤ rounds.length →
      (rounds.flatten.foldl step s).AtRest
  /-- The events of a call are emitted one after another. -/
  emitted_next : ∀ before e behind, s.log = before ++ .emitted e :: behind →
    ∃ c es, openCall? before = some (c, es) ∧ es ++ [e] <+: c.events
  /-- A call that returns well emitted them all. -/
  returned_ok : ∀ before behind, s.log = before ++ .returned (.ok ()) :: behind →
    ∃ c, openCall? before = some (c, c.events)
  /-- A call fails for the one reason that the consumer is gone. -/
  returned_error : ∀ before e behind, s.log = before ++ .returned (.error e) :: behind →
    e = .consumerGone ∧ .left ∈ before
  /-- A call that is made behind a `finish` delivers nothing and does not fail. -/
  late : ∀ before c behind, s.log = before ++ .called c :: behind → FinishPassed before →
    delivered behind = [] ∧ ∀ e, .returned (.error e) ∉ behind
  /-- Nothing is delivered behind the leaving of the consumer. -/
  left_last : ∀ before behind, s.log = before ++ .left :: behind → delivered behind = []
  /-- Something comes of each event that is emitted before a `finish` is passed. -/
  accounted : s.Accounted
  /-- Of one that is emitted to nobody it is that its call fails. -/
  deserted : ∀ before e behind, s.log = before ++ .emitted e :: behind → .left ∈ before →
    ¬ FinishPassed before → ∃ more, behind = .returned (.error .consumerGone) :: more
  /-- A call behind a `finish` returns without the consumer's help, and so does any when the
  consumer is gone. -/
  returns_alone : Late s.log ∨ .left ∈ s.log → ∀ n, s.load ≤ n → (s.alone n).hand = none
  /-- While the consumer does nothing, a call puts its events into the channel one by one until one
  does not go through. -/
  puts_all : s.hand = none → ∀ c n, c.events.length < n →
    ((s.step (.call c)).alone n).channel = (s.channel.putAll c.events).2 ∧
      ((s.step (.call c)).alone n).CameTo (s.channel.putAll c.events).1

namespace Sound

theorem received_all (h : Sound s) (hleft : .left ∉ s.log) (hrest : s.AtRest) :
    s.channel.taken = upToFinish (emitted s.log) ∧ emitted s.log = asked s.log := by
  have hconnected := h.tallies.connected.mpr hleft
  obtain ⟨hhand, hqueue⟩ := hrest
  have hsent := h.tallies.sent hconnected
  have hwaits := h.tallies.waits hconnected
  have hasks := h.tallies.asks hconnected
  constructor
  · simpa [Channel.sent, waiting, hhand, hqueue, hwaits] using hsent
  · simpa [rest, hhand] using hasks.symm

theorem late (h : Sound s) {before behind : List SendEntry} {c : SendCall}
    (hlog : s.log = before ++ .called c :: behind) (hpassed : FinishPassed before) :
    delivered behind = [] ∧ ∀ e, .returned (.error e) ∉ behind := by
  have hlate (between : List SendEntry) : Late (before ++ .called c :: between) :=
    ⟨before, c, between, rfl, hpassed⟩
  constructor
  · refine delivered_eq_nil.mpr fun e he => ?_
    obtain ⟨between, hallowed⟩ := h.lawful.behind hlog he
    exact hallowed.2 (hlate between)
  · intro e he
    obtain ⟨between, hallowed⟩ := h.lawful.behind hlog he
    exact hallowed.2.2 (hlate between)

theorem left_last (h : Sound s) {before behind : List SendEntry}
    (hlog : s.log = before ++ .left :: behind) : delivered behind = [] := by
  refine delivered_eq_nil.mpr fun e he => ?_
  obtain ⟨between, hallowed⟩ := h.lawful.behind hlog he
  exact hallowed.1 (by simp)

/-- With the consumer gone an event can neither be delivered nor wait. -/
theorem deserted (h : Sound s) {before behind : List SendEntry} {e : Event}
    (hlog : s.log = before ++ .emitted e :: behind) (hleft : .left ∈ before)
    (hpassed : ¬ FinishPassed before) :
    ∃ more, behind = .returned (.error .consumerGone) :: more := by
  have hallowed {x : SendEntry} {more : List SendEntry} (hbehind : behind = x :: more) :
      Allowed (before ++ [.emitted e]) x := h.lawful _ x more (by simp [hlog, hbehind])
  rcases h.accounted before e behind hlog hpassed with
    ⟨more, hdelivered⟩ | hfailed | ⟨more, hagain⟩ | ⟨-, hthere, -⟩
  · exact absurd (List.mem_append_left _ hleft) (hallowed hdelivered).1
  · exact hfailed
  · exact absurd (List.mem_append_left _ hleft) (hallowed hagain)
  · exact absurd hleft hthere

/-- The call in hand returns alone if none of its events waits for the consumer. -/
theorem returns_alone (hs : Sound s) (h : Late s.log ∨ .left ∈ s.log) {n : Nat}
    (hload : s.load ≤ n) : (s.alone n).hand = none := by
  induction n generalizing s with
  | zero => exact (load_eq_zero.mp (Nat.le_zero.mp hload)).1
  | succ n ih =>
    have hm := s.goOn_moves
    rcases hm.load nofun with hlt | ⟨-, -, -, hturn⟩
    · obtain ⟨new, hnew⟩ := hm.log_grows
      rw [alone_succ]
      refine ih (hs.step .goOn) ?_ (by omega)
      rw [← hnew]
      exact h.imp Late.append (List.mem_append_left _)
    · rcases hturn.resolve_left nofun with hfree | ⟨present, -, e, rest, hwaits⟩
      · rwa [alone_of_free hfree]
      · rcases h with hlate | hleft
        · simpa [waiting, hwaits] using hs.tallies.late hlate
        · exact absurd hleft (hs.tallies.connected.mp present)

end Sound

/-- Whatever turns are taken, the consumer gets the events in order, up to the first `finish` and
with it, as far as it stays to take them, and the calls tell their owner what became of them. -/
theorem sends_faithfully (capacity : Nat) (turns : List Turn) :
    (after capacity turns).Faithful := by
  have hs := Sound.after capacity turns
  generalize after capacity turns = s at hs
  exact {
    received := hs.tallies.taken.trans hs.tallies.ordered
    received_asked := hs.tallies.taken.trans hs.tallies.wanted
    received_all := hs.received_all
    comes_to_rest := fun hroom rounds => s.rounds_rest hroom
    emitted_next := fun before e behind hlog => hs.lawful before _ behind hlog
    returned_ok := fun before behind hlog => hs.lawful before _ behind hlog
    returned_error := fun before e behind hlog =>
      have hallowed := hs.lawful before _ behind hlog
      ⟨hallowed.1, hallowed.2.1⟩
    late := fun before c behind => hs.late
    left_last := fun before behind => hs.left_last
    accounted := hs.accounted
    deserted := fun before e behind => hs.deserted
    returns_alone := fun h n => hs.returns_alone h
    puts_all := fun hfree c n hn => by
      have hcalled : s.step (.call c) =
          ⟨s.channel, some ⟨none, c.events⟩, s.log ++ [.called c]⟩ := by simp [step, hfree]
      rw [hcalled]
      exact alone_putAll rfl hn
  }

/-- A `finish` to nobody fails, and what is emitted behind it is dropped without a word. -/
example : (after 8 [.leave, .call (.finish .stop), .goOn, .call (.emit (.stage "late")), .goOn,
    .goOn]).log =
    [.left, .called (.finish .stop), .emitted (.finish .stop), .returned (.error .consumerGone),
      .called (.emit (.stage "late")), .emitted (.stage "late"), .returned (.ok ())] := rfl

end Sending

end AgentRun
