import AgentRun.Proofs.Answering

/-!
# Tool calls and their budget

A limit on the tool calls of a run admits the first calls that take a place (`takesSlot`) and denies
every later one of them (`Denied`); a call that takes none is never denied. What a run made of its
limit is read off its trail: the entry behind a call is its denial just when the call is denied, and
tools are invoked and clients waited for only on behalf of calls that are not (`Fair`).

A run that keeps to its limit is at some place of its trail (`RationedAt`). Between two calls that
is `Rationing`. While a call that is not denied is worked on it is `Working`, which says how far the
call has come: once an entry stands behind it, its result may be anything.
-/

namespace AgentRun.Run

/-! ## The limit -/

/-- The calls that a limit admits, of those that are taken up one after another. -/
def admitted (limit : Scope) (calls : List Call) : List Call :=
  if limit.maxCalls = 0 then calls.filter takesSlot
  else (calls.filter takesSlot).take limit.maxCalls

/-- A call takes a place, but the calls before it took them all. -/
def Denied (limit : Scope) (earlier : List Call) (call : Call) : Prop :=
  takesSlot call = true ∧ limit.maxCalls ≠ 0 ∧ limit.maxCalls ≤ earlier.countP takesSlot

/-- The result of a call that is denied. -/
def denialResult (limit : Scope) : Json :=
  failureResult ("tool budget exhausted (" ++ toString limit.maxCalls ++ " calls)")

section Limit

variable {limit : Scope} {calls : List Call} {call : Call}

theorem length_admitted (limit : Scope) (calls : List Call) :
    (admitted limit calls).length = places limit calls := by
  unfold admitted places
  rw [List.countP_eq_length_filter]
  split
  · rfl
  · rw [List.length_take, Nat.min_comm]

/-- The count of the admitted calls tells whether the next call is denied. -/
theorem isSpent_admitted (hcall : takesSlot call = true) :
    limit.isSpent (admitted limit calls).length = true ↔ Denied limit calls call := by
  rw [Scope.isSpent, length_admitted, places, Bool.and_eq_true, bne_iff_ne, decide_eq_true_iff]
  constructor
  · rintro ⟨hm, hle⟩
    rw [if_neg hm] at hle
    exact ⟨hcall, hm, by omega⟩
  · rintro ⟨-, hm, hle⟩
    refine ⟨hm, ?_⟩
    rw [if_neg hm]
    omega

/-- A call that takes a place and is not denied is one more that is admitted. -/
theorem admitted_snoc (hcall : takesSlot call = true) (hd : ¬ Denied limit calls call) :
    admitted limit (calls ++ [call]) = admitted limit calls ++ [call] := by
  have hfilter : (calls ++ [call]).filter takesSlot = calls.filter takesSlot ++ [call] := by
    simp [hcall]
  unfold admitted
  rw [hfilter]
  by_cases hm : limit.maxCalls = 0
  · rw [if_pos hm, if_pos hm]
  · have hroom : (calls.filter takesSlot ++ [call]).length ≤ limit.maxCalls := by
      by_contra hle
      refine hd ⟨hcall, hm, ?_⟩
      rw [List.countP_eq_length_filter]
      simp only [List.length_append, List.length_singleton] at hle
      omega
    rw [if_neg hm, if_neg hm, List.take_of_length_le hroom]
    rw [List.length_append] at hroom
    rw [List.take_of_length_le (Nat.le_of_add_right_le hroom)]

theorem admitted_snoc_of_not (h : takesSlot call = false ∨ Denied limit calls call) :
    admitted limit (calls ++ [call]) = admitted limit calls := by
  unfold admitted
  rcases h with hcall | ⟨hcall, hm, hle⟩
  · simp [hcall]
  · rw [List.countP_eq_length_filter] at hle
    rw [if_neg hm, if_neg hm, List.filter_append, List.take_append_of_le_length hle]

/-- Calls of plan tools take no place. -/
example : (admitted ⟨2, 0, 0⟩ [⟨"a", "look", "", 0⟩, ⟨"b", "plan_add_tasks", "{}", 1⟩,
    ⟨"c", "look", " ", 2⟩, ⟨"d", "look", "", 3⟩]).map Call.id = ["a", "c"] := by decide

end Limit

/-! ## Results that are no denial -/

section Words

variable {limit : Scope} {words other : String}

theorem take_append {s t : String} {n : Nat} (h : n ≤ s.toList.length) :
    (s ++ t).toList.take n = s.toList.take n := by
  rw [String.toList_append, List.take_append_of_le_length h]

/-- Failures whose words begin in different ways are different. -/
theorem failure_ne (n : Nat) (h : words.toList.take n ≠ other.toList.take n) :
    failureResult words ≠ failureResult other := by
  intro heq
  have hwords : words = other := by simpa [failureResult] using heq
  exact h (by rw [hwords])

/-- The beginnings of two words are enough, whatever follows the first of them. -/
theorem failure_append_ne {start rest : String} (n : Nat)
    (hlength : n ≤ start.toList.length) (h : start.toList.take n ≠ other.toList.take n) :
    failureResult (start ++ rest) ≠ failureResult other :=
  failure_ne n (by rwa [take_append hlength])

/-- The failure of a tool is none that begins otherwise than all of them do. -/
theorem toolError_ne (e : ToolError)
    (h : other.toList.take 6 ∉ ["invali", "execut", "not in", "timeou"].map String.toList) :
    failureResult e.message ≠ failureResult other := by
  have begins {start : String} (hstart : start.toList.take 6 ∈
      ["invali", "execut", "not in", "timeou"].map String.toList) :
      start.toList.take 6 ≠ other.toList.take 6 := fun heq => h (heq ▸ hstart)
  cases e with
  | invalidArguments m => exact failure_append_ne 6 (by decide) (begins (by decide))
  | executionFailed m => exact failure_append_ne 6 (by decide) (begins (by decide))
  | notInvocable m => exact failure_append_ne 6 (by decide) (begins (by decide))
  | timeout ms => exact failure_append_ne 6 (by decide) (begins (by decide))

theorem denial_start (limit : Scope) :
    ("tool budget exhausted (" ++ toString limit.maxCalls ++ " calls)").toList.take 6
      = "tool b".toList := by
  rw [String.append_assoc, take_append (by decide)]
  rfl

theorem failure_ne_denial (h : words.toList.take 6 ≠ "tool b".toList) :
    failureResult words ≠ denialResult limit :=
  failure_ne 6 (by rwa [denial_start])

theorem failure_append_ne_denial {start rest : String} (hlength : 6 ≤ start.toList.length)
    (h : start.toList.take 6 ≠ "tool b".toList) :
    failureResult (start ++ rest) ≠ denialResult limit :=
  failure_append_ne 6 hlength (by rwa [denial_start])

theorem toolError_ne_denial (e : ToolError) : failureResult e.message ≠ denialResult limit :=
  toolError_ne e (by rw [denial_start]; decide)

theorem timeout_ne_denial (e : CallTimeout) :
    failureResult ("tool " ++ e.message) ≠ denialResult limit := by
  have hwords : "tool " ++ e.message = "tool timed out after " ++
      (toString e.attempts ++ (" attempt(s) of " ++ durationText e.timeoutMs)) := by
    have hstart : ("tool timed out after " : String) = "tool " ++ "timed out after " := by decide
    unfold CallTimeout.message
    simp only [hstart, String.append_assoc]
  rw [hwords]
  exact failure_append_ne_denial (by decide) (by decide)

theorem change_ne_failure (change : PlanChange) (words : String) :
    change.result ≠ failureResult words := by
  cases change <;> simp [PlanChange.result, failureResult]

end Words

/-! ## What stands behind a call -/

/-- An entry that is made when a tool is put to work: it is invoked, or its client is waited for. -/
def Entry.isWork : Entry → Bool
  | .invocation _ => true
  | .waitBegan _ => true
  | _ => false

/-- An entry is what the limit asks for behind the entries before it. -/
structure Fair (limit : Scope) (before : List Entry) (e : Entry) : Prop where
  /-- Behind a call there is its denial just when it is denied. -/
  answer : ∀ earlier call, before = earlier ++ [.dispatch call] →
    (e = .event (.toolResult call.id (denialResult limit)) ↔ Denied limit (dispatched earlier) call)
  /-- Work is done for the call that was taken up last, which is not denied. -/
  work : e.isWork = true → ∃ earlier call u, before = earlier ++ .dispatch call :: u ∧
    dispatched u = [] ∧ ¬ Denied limit (dispatched earlier) call

/-- A limit is kept to: its count is that of the calls that it admits, and the trail is fair. -/
structure Rationed (limit : Scope) (s : State) : Prop where
  counted : s.spending.toolCalls = (admitted limit (dispatched s.trail)).length
  fair : Throughout (Fair limit) s.trail

/-- A limit is kept to by a run that has come to a place on its trail. -/
structure RationedAt (limit : Scope) (place : List Entry → Prop) (s : State) : Prop
    extends Rationed limit s where
  budget : s.spending.budget.tool = limit
  here : place s.trail

/-- No call that is denied waits for its answer. -/
def Settled (limit : Scope) (t : List Entry) : Prop :=
  ∀ earlier call, t = earlier ++ [.dispatch call] → ¬ Denied limit (dispatched earlier) call

/-- A call is worked on that is not denied. If it is begun, some entry stands behind it. -/
def Taken (limit : Scope) (call : Call) (begun : Prop) (t : List Entry) : Prop :=
  ∃ earlier u, t = earlier ++ .dispatch call :: u ∧ dispatched u = [] ∧
    ¬ Denied limit (dispatched earlier) call ∧ (begun → u ≠ [])

/-- A limit is kept to between two calls. -/
abbrev Rationing (limit : Scope) : State → Prop := RationedAt limit (Settled limit)

/-- A limit is kept to while a call is worked on. -/
abbrev Working (limit : Scope) (call : Call) (begun : Prop) : State → Prop :=
  RationedAt limit (Taken limit call begun)

/-- An entry that may stand anywhere: it takes up no call and gives no result. -/
def Entry.isNeutral : Entry → Bool
  | .dispatch _ => false
  | .submission _ _ _ _ => false
  | .event (.toolResult _ _) => false
  | _ => true

section Trail

variable {limit : Scope} {call : Call} {begun : Prop} {s s' : State} {e : Entry}
  {env : Env}

theorem trail_note (he : e.isSubmission = false) : (s.note e).trail = s.trail ++ [e] := by
  simp [State.trail, State.note, he]

theorem dispatched_snoc {t : List Entry} (he : e.call? = none) :
    dispatched (t ++ [e]) = dispatched t := by
  simp [dispatched, he]

/-- The last entry takes a call up only if nothing stands behind the call that was taken up last. -/
theorem taken_last {earlier earlier' u : List Entry} {call' : Call}
    (h : earlier ++ .dispatch call :: u = earlier' ++ [.dispatch call'])
    (hu : dispatched u = []) : u = [] ∧ earlier' = earlier ∧ call' = call := by
  induction u using List.reverseRecOn with
  | nil =>
    obtain ⟨h₁, h₂⟩ := List.append_inj' h rfl
    cases h₂
    exact ⟨rfl, h₁.symm, rfl⟩
  | append_singleton u f _ =>
    have hlast : f = .dispatch call' := by
      rw [← List.cons_append, ← List.append_assoc] at h
      exact List.singleton_inj.mp (List.append_inj' h rfl).2
    simp [hlast, dispatched, Entry.call?] at hu

theorem neutral_parts (he : e.isNeutral = true) :
    e.isSubmission = false ∧ e.call? = none ∧
      ∀ callId result, e ≠ .event (.toolResult callId result) := by
  cases e with
  | dispatch => cases he
  | submission => cases he
  | event e =>
    cases e with
    | toolResult => cases he
    | _ => exact ⟨rfl, rfl, nofun⟩
  | _ => exact ⟨rfl, rfl, nofun⟩

theorem neutral_of_plain (he : e.isPlain = true) : e.isNeutral = true ∧ e.isWork = false := by
  cases e with
  | event e =>
    cases e with
    | toolResult => cases he
    | _ => exact ⟨rfl, rfl⟩
  | modelCall => exact ⟨rfl, rfl⟩
  | attempt => exact ⟨rfl, rfl⟩
  | answer => exact ⟨rfl, rfl⟩
  | _ => cases he

theorem Rationed.calm (h : Rationed limit s) (c : Calm env s s') : Rationed limit s' where
  counted := by
    have hspent : s'.spending = s.spending := congrArg Ledger.spending c.ledger
    rw [hspent, c.trail]
    exact h.counted
  fair := by
    rw [c.trail]
    exact h.fair

theorem Rationed.congr (h : Rationed limit s) (hj : s'.journal = s.journal)
    (hc : s'.spending.toolCalls = s.spending.toolCalls) : Rationed limit s' := by
  have htrail : s'.trail = s.trail := by rw [State.trail, State.trail, hj]
  refine ⟨?_, ?_⟩
  · rw [hc, htrail]
    exact h.counted
  · rw [htrail]
    exact h.fair

namespace RationedAt

variable {place : List Entry → Prop}

theorem calm (h : RationedAt limit place s) (c : Calm env s s') : RationedAt limit place s' := by
  have hspent : s'.spending = s.spending := congrArg Ledger.spending c.ledger
  refine ⟨h.toRationed.calm c, ?_, ?_⟩
  · rw [hspent]
    exact h.budget
  · rw [c.trail]
    exact h.here

theorem beside (h : RationedAt limit place s) (hb : s.Beside s') : RationedAt limit place s' := by
  have htrail : s'.trail = s.trail := by rw [State.trail, State.trail, hb.journal]
  refine ⟨h.toRationed.congr hb.journal hb.toolCalls, ?_, ?_⟩
  · rw [hb.budget]
    exact h.budget
  · rw [htrail]
    exact h.here

theorem frame : Frame env (RationedAt limit place) := ⟨calm, beside⟩

theorem withRendezvous (h : RationedAt limit place s) (r : Rendezvous) :
    RationedAt limit place (s.withRendezvous r) :=
  ⟨⟨h.counted, h.fair⟩, h.budget, h.here⟩

theorem weaken (h : Working limit call begun s) : Working limit call False s := by
  obtain ⟨earlier, u, htrail, hu, hd, -⟩ := h.here
  exact ⟨h.toRationed, h.budget, earlier, u, htrail, hu, hd, False.elim⟩

/-- Whatever stands behind the call, it is not denied. -/
theorem rationing (h : Working limit call begun s) : Rationing limit s := by
  obtain ⟨earlier, u, htrail, hu, hd, -⟩ := h.here
  refine ⟨h.toRationed, h.budget, fun earlier' call' heq => ?_⟩
  obtain ⟨-, rfl, rfl⟩ := taken_last (htrail.symm.trans heq) hu
  exact hd

/-- Another entry stands behind the call. It is no denial, or not the first one there. -/
theorem note (h : Working limit call begun s) (hs : e.isSubmission = false)
    (hcall : e.call? = none)
    (he : begun ∨ e ≠ .event (.toolResult call.id (denialResult limit))) :
    Working limit call True (s.note e) := by
  obtain ⟨earlier, u, htrail, hu, hd, hbegun⟩ := h.here
  have hnoted := trail_note (s := s) hs
  refine ⟨⟨?_, ?_⟩, h.budget, earlier, u ++ [e], ?_, ?_, hd, fun _ => by simp⟩
  · rw [hnoted, dispatched_snoc hcall]
    exact h.counted
  · rw [hnoted]
    refine h.fair.snoc ⟨fun earlier' call' heq => ?_, fun _ => ⟨earlier, call, u, htrail, hu, hd⟩⟩
    obtain ⟨hnil, rfl, rfl⟩ := taken_last (htrail.symm.trans heq) hu
    have hne : e ≠ .event (.toolResult call'.id (denialResult limit)) :=
      he.elim (fun hb => absurd hnil (hbegun hb)) id
    exact ⟨fun h => absurd h hne, fun h => absurd h hd⟩
  · rw [hnoted, htrail]
    simp
  · rw [dispatched_snoc hcall, hu]

theorem note_neutral (h : Working limit call begun s) (he : e.isNeutral = true) :
    Working limit call True (s.note e) := by
  obtain ⟨hs, hcall, hresult⟩ := neutral_parts he
  exact h.note hs hcall (Or.inr (hresult _ _))

end RationedAt

theorem Rationing.noting (env : Env) (limit : Scope) :
    Noting env (Rationing limit) (fun e => e.isPlain = true) where
  toFrame := RationedAt.frame
  note := fun {s e} h he => by
    obtain ⟨hneutral, hwork⟩ := neutral_of_plain he
    obtain ⟨hsubmission, hcall, hresult⟩ := neutral_parts hneutral
    have htrail := trail_note (s := s) hsubmission
    refine ⟨⟨?_, ?_⟩, h.budget, ?_⟩
    · rw [htrail, dispatched_snoc hcall]
      exact h.counted
    · rw [htrail]
      refine h.fair.snoc ⟨fun earlier call heq => ?_, fun hw => ?_⟩
      · exact ⟨fun he => absurd he (hresult _ _), fun hd => absurd hd (h.here _ _ heq)⟩
      · rw [hwork] at hw
        cases hw
    · intro earlier call heq
      rw [htrail] at heq
      have hlast : e = .dispatch call := List.singleton_inj.mp (List.append_inj' heq rfl).2
      rw [hlast] at hcall
      cases hcall

end Trail

/-! ## Answering a call -/

section Dispatch

variable {env : Env} {limit : Scope} {call : Call} {begun : Prop} {s : State}

/-- How a call may break off under a limit. -/
abbrev BrokeRationing (limit : Scope) : Halt → State → Prop :=
  Broke (Rationing limit) (Rationed limit) fun _ => True

theorem broke_of_working {h : Halt} (hs : Kept (Working limit call begun) s) :
    BrokeRationing limit h s :=
  ⟨hs.2, Or.inl hs.1.rationing, fun _ => trivial⟩

/-- The result of a call goes out. It is no denial, or there is something else behind the call. -/
theorem complete_rations {result : Json} {change : Option PlanChange} (args : Json)
    (h : Kept (Working limit call begun) s) (hresult : begun ∨ result ≠ denialResult limit) :
    Ensures (complete env call args result change) s (fun _ s' => Kept (Rationing limit) s')
      (BrokeRationing limit) := by
  have hnoting := Rationing.noting env limit
  refine (RationedAt.frame.complete_kept hnoting.toFrame args (fun hs => ?_)
    (fun hs => hnoting.note hs rfl) h).mono (fun _ _ h₁ => h₁) (fun halt s₁ h₁ => ?_)
  · refine (hs.note rfl rfl (hresult.imp id fun hne heq => hne ?_)).rationing
    cases heq
    rfl
  · rcases h₁.2 with hworking | hrationing
    · exact broke_of_working hworking
    · exact ⟨hrationing.2, Or.inl hrationing.1, fun _ => trivial⟩

theorem neutral_of_worksFor {tool : Tool} {e : Entry} (he : e.WorksFor env call tool) :
    e.isNeutral = true := by
  cases he <;> rfl

theorem RationedAt.works (tool : Tool) :
    Works env call tool (Working limit call False) (Working limit call True) where
  before := RationedAt.frame
  after := RationedAt.frame
  back := fun h => h.weaken
  putBefore := fun r h => h.withRendezvous r
  putAfter := fun r h => h.withRendezvous r
  use := fun h he => h.note_neutral (neutral_of_worksFor he)
  ended := fun h => h.note_neutral rfl

/-- Working a call off leaves something behind it, or comes to a failure that is no denial. -/
theorem workOff_rations (tool : Tool) (args : Json) (h : Kept (Working limit call False) s) :
    Ensures (workOff env tool call args) s
      (fun result s' => Kept (Working limit call True) s' ∨
        Kept (Working limit call False) s' ∧ result ≠ denialResult limit)
      (BrokeRationing limit) := by
  refine ((RationedAt.works tool).workOff_kept args h).mono (fun result s₁ h₁ => ?_)
    (fun _ _ h₁ => broke_of_working h₁)
  obtain ⟨hkept, hbegun | rfl | ⟨scope, rfl⟩⟩ := h₁
  · exact Or.inl hbegun
  · exact Or.inr ⟨hkept, failure_ne_denial (by decide)⟩
  · exact Or.inr ⟨hkept, timeout_ne_denial _⟩

/-- A call that takes a place is counted or denied. -/
theorem admitTool_run (h : s.spending.budget.tool = limit) :
    Ensures admitTool s
      (fun denied s' => match denied with
        | some e => limit.isSpent s.spending.toolCalls = true ∧ e = ⟨.tool, limit.maxCalls⟩ ∧ s' = s
        | none => limit.isSpent s.spending.toolCalls = false ∧ s' = { s with
            spending := { s.spending with toolCalls := s.spending.toolCalls + 1 } })
      (fun _ _ => False) := by
  subst h
  exact ensures_admitTool (fun hleft => ⟨hleft, rfl⟩) (fun hspent => ⟨hspent, rfl, rfl⟩)

/-- Where a call was taken up: it is not counted yet. -/
theorem taken_fair (h : Rationing limit s) (call : Call) :
    (s.note (.dispatch call)).trail = s.trail ++ [.dispatch call] ∧
      Throughout (Fair limit) (s.note (.dispatch call)).trail := by
  have htrail : (s.note (.dispatch call)).trail = s.trail ++ [.dispatch call] := trail_note rfl
  refine ⟨htrail, ?_⟩
  rw [htrail]
  refine h.fair.snoc ⟨fun earlier call' heq => ?_, nofun⟩
  exact ⟨nofun, fun hd => absurd hd (h.here _ _ heq)⟩

/-- A call that is not denied is worked on once it is counted for what it takes. -/
theorem taken_working {s' : State} (h : Rationing limit s)
    (hd : ¬ Denied limit (dispatched s.trail) call)
    (hj : s'.journal = (s.note (.dispatch call)).journal)
    (hb : s'.spending.budget = s.spending.budget)
    (hc : s'.spending.toolCalls = s.spending.toolCalls + if takesSlot call then 1 else 0) :
    Working limit call False s' := by
  obtain ⟨htrail, hfair⟩ := taken_fair h call
  have htrail' : s'.trail = s.trail ++ [.dispatch call] := by
    rw [← htrail, State.trail, State.trail, hj]
  have htaken : dispatched s'.trail = dispatched s.trail ++ [call] := by
    rw [htrail']
    simp [dispatched, Entry.call?]
  refine ⟨⟨?_, ?_⟩, ?_, s.trail, [], htrail', rfl, hd, False.elim⟩
  · rw [hc, htaken, h.counted]
    cases hcall : takesSlot call with
    | true => simp [admitted_snoc hcall hd]
    | false => simp [admitted_snoc_of_not (Or.inl hcall)]
  · rw [htrail', ← htrail]
    exact hfair
  · rw [hb]
    exact h.budget

/-- Where a call that is denied waits for its denial, nothing stands behind it. -/
theorem taken_denied (h : Rationing limit s) (hd : Denied limit (dispatched s.trail) call) :
    RationedAt limit (fun t => t = s.trail ++ [.dispatch call]) (s.note (.dispatch call)) := by
  obtain ⟨htrail, hfair⟩ := taken_fair h call
  refine ⟨⟨?_, hfair⟩, h.budget, htrail⟩
  have htaken : dispatched (s.trail ++ [.dispatch call]) = dispatched s.trail ++ [call] := by
    simp [dispatched, Entry.call?]
  rw [htrail, htaken, admitted_snoc_of_not (Or.inr hd)]
  exact h.counted

/-- The denial of a call settles it. -/
theorem denial_settles {t : List Entry} (hd : Denied limit (dispatched t) call)
    (h : RationedAt limit (fun t' => t' = t ++ [.dispatch call]) s) :
    Rationing limit (s.note (.event (.toolResult call.id (denialResult limit)))) ∧
      (s.note (.event (.toolResult call.id (denialResult limit)))).trail =
        t ++ [.dispatch call, .event (.toolResult call.id (denialResult limit))] := by
  have hnoted := trail_note (s := s) (e := .event (.toolResult call.id (denialResult limit))) rfl
  refine ⟨⟨⟨?_, ?_⟩, h.budget, fun earlier call' hlast => ?_⟩, ?_⟩
  · rw [hnoted, dispatched_snoc rfl]
    exact h.counted
  · rw [hnoted]
    refine h.fair.snoc ⟨fun earlier call' hlast => ?_, nofun⟩
    obtain ⟨-, rfl, rfl⟩ := taken_last (u := []) (h.here.symm.trans hlast) rfl
    exact ⟨fun _ => hd, fun _ => rfl⟩
  · rw [hnoted] at hlast
    have hlast := List.singleton_inj.mp (List.append_inj' hlast rfl).2
    cases hlast
  · rw [hnoted, h.here]
    simp

/-- A call that is denied gets its denial and nothing else happens. -/
theorem dispatch_denied (h : Kept (Rationing limit) s)
    (hd : Denied limit (dispatched s.trail) call) :
    Ensures (dispatch env call) s
      (fun _ s' => (Rationing limit s' ∧ s'.trail =
        s.trail ++ [.dispatch call, .event (.toolResult call.id (denialResult limit))]) ∧ s'.Steady)
      (BrokeRationing limit) := by
  have htakes : takesSlot call = true := hd.1
  refine ensures_dispatch (fun e hargs => ?_) (fun raw tool _ htool => ?_) (fun raw _ _ => ?_)
  · rw [takesSlot_of_malformed hargs] at htakes
    cases htakes
  · rw [takesSlot_of_planTool htool] at htakes
    cases htakes
  · refine (admitTool_run (s := s.note (.dispatch call)) h.1.budget).mono
      (fun denied s₁ h₁ => ?_) (fun _ _ h₁ => h₁.elim)
    have hspent : limit.isSpent s.spending.toolCalls = true := by
      rw [h.1.counted, isSpent_admitted hd.1]
      exact hd
    cases denied with
    | none =>
      have hleft : limit.isSpent s.spending.toolCalls = false := h₁.1
      rw [hspent] at hleft
      cases hleft
    | some denied =>
      obtain ⟨-, rfl, rfl⟩ := h₁
      have htaken := taken_denied h.1 hd
      have hfiled : Kept (RationedAt limit fun t => t = s.trail ++ [.dispatch call])
          ((s.note (.dispatch call)).filed call (resolve s.records raw) (denialResult limit)) :=
        ⟨htaken.beside ⟨rfl, rfl, rfl, rfl, rfl, rfl⟩, (h.2.note (.dispatch call)).congr rfl rfl⟩
      refine ensures_complete ?_ (fun _ _ h₁ => h₁) (fun hchange => by cases hchange)
      refine (RationedAt.frame.emit_kept (denial_settles hd) rfl hfiled).mono
        (fun _ s₁ h₁ => h₁) (fun halt s₁ h₁ => ?_)
      exact ⟨h₁.2.2, Or.inr ⟨h₁.1, h₁.2.1.toRationed⟩, fun _ => trivial⟩

theorem dispatch_rations (call : Call) (h : Kept (Rationing limit) s) :
    Ensures (dispatch env call) s (fun _ s' => Kept (Rationing limit) s')
      (BrokeRationing limit) := by
  by_cases hd : Denied limit (dispatched s.trail) call
  · exact (dispatch_denied h hd).imp fun _ s' h' => ⟨h'.1.1, h'.2⟩
  have hsteady : (s.note (.dispatch call)).Steady := h.2.note _
  -- A call that takes no place is answered at once.
  have free (hcall : takesSlot call = false) : Kept (Working limit call False)
      (s.note (.dispatch call)) :=
    ⟨taken_working h.1 hd rfl rfl (by simp [hcall, State.note]), hsteady⟩
  refine ensures_dispatch (fun e hargs => ?_) (fun raw tool _ htool => ?_)
    (fun raw hargs htool => ?_)
  · exact complete_rations _ (free (takesSlot_of_malformed hargs))
      (Or.inr (failure_append_ne_denial (by decide) (by decide)))
  · have hfree := free (takesSlot_of_planTool htool)
    refine ensures_changePlan (fun change plan _ => ?_)
      (fun e _ => complete_rations _ hfree (Or.inr (toolError_ne_denial e)))
    have hchanged : Kept (Working limit call False) { s.note (.dispatch call) with
        plan := plan
        assembly := { s.assembly with minted := s.assembly.minted + change.minted } } :=
      ⟨hfree.1.beside ⟨rfl, rfl, rfl, rfl, rfl, rfl⟩, hfree.2.congr rfl rfl⟩
    exact complete_rations _ hchanged (Or.inr (change_ne_failure change _))
  · have htakes : takesSlot call = true := takesSlot_of_ok hargs htool
    have hleft : limit.isSpent s.spending.toolCalls = false := by
      rw [h.1.counted, ← Bool.not_eq_true, isSpent_admitted htakes]
      exact hd
    refine (admitTool_run (s := s.note (.dispatch call)) h.1.budget).mono
      (fun denied s₁ h₁ => ?_) (fun _ _ h₁ => h₁.elim)
    cases denied with
    | some denied =>
      have hspent : limit.isSpent s.spending.toolCalls = true := h₁.1
      rw [hleft] at hspent
      cases hspent
    | none =>
      obtain ⟨-, rfl⟩ := h₁
      have hworking : Kept (Working limit call False) { s.note (.dispatch call) with
          spending := { s.spending with toolCalls := s.spending.toolCalls + 1 } } :=
        ⟨taken_working h.1 hd rfl rfl (by simp [htakes]), hsteady.congr rfl rfl⟩
      cases env.tools.get? call.name with
      | none =>
        exact complete_rations _ hworking
          (Or.inr (failure_append_ne_denial (by decide) (by decide)))
      | some tool =>
        refine (workOff_rations tool _ hworking).imp (fun result s₂ h₂ => ?_)
        rcases h₂ with h₂ | ⟨h₂, hresult⟩
        · exact complete_rations _ h₂ (Or.inl trivial)
        · exact complete_rations _ h₂ (Or.inr hresult)

theorem rationing_keeps (env : Env) (limit : Scope) :
    Keeps env (Rationing limit) (Rationing limit) (Rationing limit) (Rationed limit)
      (fun _ => True) :=
  .uniform (Rationing.noting env limit) (fun call h => dispatch_rations call h)
    fun h _ c => h.calm c

end Dispatch

/-! ## Whole runs -/

section Runs

variable {engine : Engine} {turn : UserTurn} {world : World}

theorem rationing_start (minted : Nat) : Rationing turn.agent.runSpec.budget.tool
    (startState engine turn world minted) where
  counted := by
    rw [length_admitted]
    simp [startState, Spending.start, State.trail, dispatched, places]
  fair := throughout_nil
  budget := rfl
  here := fun earlier call heq => by simp [startState, State.trail] at heq

/-- Whatever calls a run takes up, it counts those that its limit on tool calls admits, and each
call that the limit denies gets its denial and nothing else, unless the client is gone by then. -/
theorem tool_calls_rationed (engine : Engine) (turn : UserTurn) (world : World) (fuel : Nat) :
    let limit := turn.agent.runSpec.budget.tool
    let env := (engine.start turn world).1
    let final := (engine.run turn world fuel).final
    Kept (Rationing limit) (engine.start turn world).2 ∧
    (∀ s call, Kept (Rationing limit) s →
      Ensures (dispatch env call) s
        (fun _ s' => Kept (Rationing limit) s' ∧ (Denied limit (dispatched s.trail) call →
          s'.trail =
            s.trail ++ [.dispatch call, .event (.toolResult call.id (denialResult limit))]))
        (fun _ s' => Rationed limit s')) ∧
    Rationed limit final ∧
    ∀ earlier call, final.trail = earlier ++ [.dispatch call] →
      Denied limit (dispatched earlier) call → final.channel.connected = false := by
  intro limit env final
  have hstart : Rationing limit (startState engine turn world (world.minted + 1)) :=
    rationing_start _
  obtain ⟨hleft, -⟩ := run_left (rationing_keeps env limit) hstart fuel
  refine ⟨?_, fun s call h => ?_, ?_⟩
  · exact (Rationing.noting env limit).kept_calm ⟨hstart, startState_steady _⟩ start_calm
  · have hrationed : ∀ halt s', BrokeRationing limit halt s' → Rationed limit s' := by
      intro halt s' h'
      exact h'.kept.elim (fun hk => hk.toRationed) fun hg => hg.2
    by_cases hd : Denied limit (dispatched s.trail) call
    · exact (dispatch_denied h hd).mono (fun _ s' h' => ⟨⟨h'.1.1, h'.2⟩, fun _ => h'.1.2⟩) hrationed
    · exact (dispatch_rations call h).mono (fun _ s' h' => ⟨h', fun hd' => absurd hd' hd⟩) hrationed
  · rcases hleft.kept with h | ⟨hgone, h⟩
    · exact ⟨h.toRationed, fun earlier call heq hd => absurd hd (h.here earlier call heq)⟩
    · exact ⟨h, fun _ _ _ _ => hgone⟩

end Runs

end AgentRun.Run
