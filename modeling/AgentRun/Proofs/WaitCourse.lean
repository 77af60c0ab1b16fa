import Mathlib.Data.List.Induction
import Mathlib.Logic.Relation
import AgentRun.Proofs.Dispatch
import AgentRun.Proofs.Registry

/-!
# The course of the waits of a run

A run shares the registry of waits with other runs and with clients that submit whenever they like.
`Step` is what can happen there, one thing after another: the client acts, another run registers a
wait or gives one up, the run makes an entry, begins a wait or ends one. `waitOf` reads off a
journal where its run stands with its client: it takes a call up, asks the client if the call is one
for the client, and then owes the client's payload to the call. Which entries can be made depends on
that (`Entry.Fits`), so that no call goes to the client but during a wait for it. `Moment.Holds` is
what is true after any number of steps: the run has one handle while it waits and none otherwise,
and the slot of that handle is there until somebody submits.
-/

namespace AgentRun

/-- The handles of a run. -/
def Rendezvous.heldBy (r : Rendezvous) (runId : String) : List Handle :=
  r.held.filter fun h => h.key.runId == runId

namespace Run

/-- Where a run stands with its client. -/
inductive Wait where
  /-- No answer is put together and no call is worked on. -/
  | idle
  /-- An answer of the model is put together. -/
  | answering
  /-- A call was taken up, and the run does not wait for it. -/
  | called (call : Call)
  /-- It waits. Its call was shown or was not yet, and the payload that came first. -/
  | waiting (callId : String) (shown : Bool) (answer : Option Json)
  /-- It has a payload and has not shown the result yet. -/
  | owed (callId : String) (payload : Json)
  deriving DecidableEq, Repr

namespace Wait

/-- What an entry makes of it. -/
def after (runId : String) : Wait → Entry → Wait
  | _, .waitBegan key => .waiting key.callId false none
  | .waiting callId shown none, .submission _ key payload _ =>
    .waiting callId shown (if key = ⟨runId, callId⟩ then some payload else none)
  | .waiting callId _ answer, .event _ => .waiting callId true answer
  | .waiting callId _ (some payload), .waitEnded _ => .owed callId payload
  | .waiting _ _ none, .waitEnded _ => .idle
  | .owed _ _, .event (.toolResult _ _) => .idle
  | .called _, .event (.toolResult _ _) => .idle
  | .idle, .modelCall _ _ => .answering
  | .answering, .answer _ _ => .idle
  | .idle, .dispatch call => .called call
  | w, _ => w

/-- It waits for an answer to a call. -/
def IsOpen (callId : String) (w : Wait) : Prop := ∃ shown, w = .waiting callId shown none

/-- Whether it waits, answered or not. -/
def isWaiting : Wait → Bool
  | .waiting _ _ _ => true
  | _ => false

/-- Whether there is no call that would have to be shown. -/
def isShown : Wait → Bool
  | .waiting _ shown _ => shown
  | _ => true

end Wait

/-- Where the run of a journal stands with its client. -/
def waitOf (runId : String) (j : List Entry) : Wait := j.foldl (Wait.after runId) .idle

/-- The entry with which a call goes to the client. -/
def Entry.IsEcho (callId : String) (e : Entry) : Prop :=
  ∃ call args, e = .event (echo call args .frontend) ∧ call.id = callId

/-- Whether an entry that is not about a wait can be made where a run stands so with its client. A
call of the client type goes out as a piece of an answer, as the model gave it, or during the wait
for the call, once. A call for a tool of the client is only answered with a payload that came for
it, unless the budget denies it, and nothing else is done about it. -/
def Entry.FitsIn (env : Env) : Wait → Entry → Prop
  | .idle, .modelCall _ _ => True
  | .idle, .dispatch _ => True
  | .idle, .event e => (Entry.event e).isSaid = true
  | .answering, e => e.isHeard = true ∨ ∃ request turn, e = .answer request turn
  | .called call, .invocation i => i.context.callId = call.id ∧ ¬ env.AsksClient call
  | .called call, .event (.toolCall p) =>
    p.id = call.id ∧ p.callType ≠ some ToolKind.frontend.text ∧ ¬ env.AsksClient call
  | .called call, .event (.toolResult callId result) =>
    callId = call.id ∧ (IsDenial result ∨ ¬ env.AsksClient call)
  | .called call, .event _ => ¬ env.AsksClient call
  | .waiting callId shown _, e => shown = false ∧ e.IsEcho callId
  | .owed callId payload, e => e = .event (.toolResult callId payload)
  | _, _ => False

/-- Whether an entry can be made where a run stands so with its client. A wait begins for a call for
the client that was taken up, and a submission is accepted just if it is the first during the wait
for it. -/
def Entry.Fits (env : Env) (w : Wait) : Entry → Prop
  | .submission _ key _ ack => key.runId = env.runId → (ack.accepted = true ↔ w.IsOpen key.callId)
  | .waitBegan key =>
    ∃ call, w = .called call ∧ env.AsksClient call ∧ key = ⟨env.runId, call.id⟩
  | .waitEnded key => key.runId = env.runId ∧ ∃ shown answer, w = .waiting key.callId shown answer
  | e => e.FitsIn env w

/-- Whether the entry is about a wait. -/
def Entry.isOfWait : Entry → Bool
  | .submission _ _ _ _ => true
  | .waitBegan _ => true
  | .waitEnded _ => true
  | _ => false

/-- A state of a run, with the time at which its client was given the latest event. -/
structure Moment where
  state : State
  since : Nat

/-- The moment after an entry of the run. -/
def Moment.note (e : Entry) (m : Moment) : Moment :=
  ⟨m.state.note e, if e.event?.isSome then m.state.now else m.since⟩

/-- Something that happens in the course of a run. -/
inductive Step (env : Env) : Moment → Moment → Prop
  /-- The client, or the client of another run, does something. -/
  | acts (m : Moment) (act : ClientAct) : Step env m { m with state := perform act m.state }
  | othersRegister (m : Moment) {key : WaitKey} (other : key.runId ≠ env.runId) :
    Step env m
      { m with state := m.state.withRendezvous (m.state.world.rendezvous.register key).2 }
  | othersRelease (m : Moment) {h : Handle} (held : h ∈ m.state.world.rendezvous.held)
      (other : h.key.runId ≠ env.runId) :
    Step env m { m with state := m.state.withRendezvous (m.state.world.rendezvous.release h) }
  /-- Time goes by, the client may go, and what is no part of the waits may change. -/
  | goesOn (m : Moment) {s : State} (journal : s.journal = m.state.journal)
      (rendezvous : s.world.rendezvous = m.state.world.rendezvous) (later : m.state.now ≤ s.now)
      (connected : s.channel.connected = true → m.state.channel.connected = true) :
    Step env m { m with state := s }
  | notes (m : Moment) {e : Entry} (own : e.isOfWait = false)
      (fits : e.FitsIn env (waitOf env.runId m.state.journal)) : Step env m (m.note e)
  | begins (m : Moment) {h : Handle} {r : Rendezvous} {call : Call}
      (taken : waitOf env.runId m.state.journal = .called call) (asks : env.AsksClient call)
      (own : h.key = ⟨env.runId, call.id⟩)
      (registered : m.state.world.rendezvous.register h.key = (.ok h, r)) :
    Step env m { m with state := (m.state.withRendezvous r).note (.waitBegan h.key) }
  /-- A wait ends with a payload, without a client or after its time, and not before its call was
  shown to a client that is there. -/
  | ends (m : Moment) {h : Handle} (own : h.key.runId = env.runId)
      (held : h ∈ m.state.world.rendezvous.held)
      (told : (waitOf env.runId m.state.journal).isShown = true ∨
        m.state.channel.connected = false)
      (done : (m.state.world.rendezvous.received? h).isSome = true ∨
        m.state.channel.connected = false ∨ m.since + env.frontendTimeoutMs ≤ m.state.now) :
    Step env m { m with state :=
      (m.state.withRendezvous (m.state.world.rendezvous.release h)).note (.waitEnded h.key) }

/-- Something happens, and something more. -/
abbrev Reaches (env : Env) : Moment → Moment → Prop := Relation.ReflTransGen (Step env)

/-! ## The handle of a run -/

/-- How the registry looks to a run that stands so with its client. -/
def Tied (runId : String) (r : Rendezvous) : Wait → Prop
  | .waiting callId _ answer =>
    ∃ h, r.heldBy runId = [h] ∧ h.key = ⟨runId, callId⟩ ∧ r.received? h = answer
  | _ => r.heldBy runId = []

section Tied

variable {env : Env} {runId : String} {r r' : Rendezvous} {w : Wait} {h : Handle}

theorem mem_heldBy : h ∈ r.heldBy runId ↔ h ∈ r.held ∧ h.key.runId = runId := by
  simp [Rendezvous.heldBy]

/-- A run that does not wait holds no handle. -/
theorem tied_iff (hw : w.isWaiting = false) : Tied runId r w ↔ r.heldBy runId = [] := by
  cases w with
  | waiting => cases hw
  | _ => rfl

/-- Where the run holds the same handles, and those are as they were, it stands as it stood. -/
theorem Tied.congr (ht : Tied runId r w) (hheld : r'.heldBy runId = r.heldBy runId)
    (hreceived : ∀ h ∈ r.heldBy runId, r'.received? h = r.received? h) : Tied runId r' w := by
  cases w with
  | waiting callId shown answer =>
    obtain ⟨h, hone, hkey, hanswer⟩ := ht
    have hmem : h ∈ r.heldBy runId := by simp [hone]
    exact ⟨h, hheld.trans hone, hkey, (hreceived h hmem).trans hanswer⟩
  | _ => exact hheld.trans ht

/-- A handle of the run is the one of its wait. -/
theorem Tied.of_held (ht : Tied runId r w) (hh : h ∈ r.held) (hrun : h.key.runId = runId) :
    r.heldBy runId = [h] ∧ ∃ shown, w = .waiting h.key.callId shown (r.received? h) := by
  have hmem : h ∈ r.heldBy runId := mem_heldBy.mpr ⟨hh, hrun⟩
  cases hw : w.isWaiting with
  | false =>
    rw [(tied_iff hw).mp ht] at hmem
    cases hmem
  | true =>
    cases w with
    | waiting callId shown answer =>
      obtain ⟨h', hone, hkey, hanswer⟩ := ht
      rw [hone, List.mem_singleton] at hmem
      subst hmem
      exact ⟨hone, shown, by rw [hkey, hanswer]⟩
    | _ => cases hw

/-- A slot of the run is there just while it waits and nobody has submitted. -/
theorem Tied.pending_iff (hr : r.Sound) (ht : Tied runId r w) (callId : String) :
    (∃ h ∈ r.slots, h.key = ⟨runId, callId⟩) ↔ w.IsOpen callId := by
  constructor
  · rintro ⟨h, hslot, hkey⟩
    obtain ⟨-, shown, hw⟩ := ht.of_held (hr.slots_held h hslot) (by rw [hkey])
    rw [hr.received_none_of_slot hslot, hkey] at hw
    exact ⟨shown, hw⟩
  · rintro ⟨shown, rfl⟩
    obtain ⟨h, hone, hkey, hanswer⟩ := ht
    have hh : h ∈ r.held := (mem_heldBy.mp (by rw [hone]; exact List.mem_singleton_self h)).1
    refine ⟨h, ?_, hkey⟩
    by_contra hslot
    have hsome := (hr.answered h hh).mp hslot
    rw [hanswer] at hsome
    cases hsome

/-! ## What happens to it -/

theorem Wait.after_submission {ticket : Nat} {key : WaitKey} {payload : Json} {ack : SubmitAck}
    (hw : w.isWaiting = false) : w.after runId (.submission ticket key payload ack) = w := by
  cases w with
  | waiting => cases hw
  | _ => rfl

theorem Tied.after_submit (hr : r.Sound) (ht : Tied runId r w) (ticket : Nat) (key : WaitKey)
    (payload : Json) (ack : SubmitAck) : Tied runId (r.submit key payload).2
      (w.after runId (.submission ticket key payload ack)) := by
  have hheld : (r.submit key payload).2.heldBy runId = r.heldBy runId := by
    rw [Rendezvous.heldBy, Rendezvous.heldBy, (hr.submit_held key payload).1]
  cases hw : w.isWaiting with
  | false =>
    rw [Wait.after_submission hw, tied_iff hw, hheld]
    exact (tied_iff hw).mp ht
  | true =>
    cases w with
    | waiting callId shown answer =>
      obtain ⟨h, hone, hkey, hanswer⟩ := ht
      have hh : h ∈ r.held := (mem_heldBy.mp (by rw [hone]; exact List.mem_singleton_self h)).1
      have hreceived := hr.received_submit hh key payload
      cases answer with
      | none =>
        have hslot : h ∈ r.slots := by
          by_contra hslot
          have hsome := (hr.answered h hh).mp hslot
          rw [hanswer] at hsome
          cases hsome
        refine ⟨h, hheld.trans hone, hkey, hreceived.trans ?_⟩
        by_cases hfor : key = ⟨runId, callId⟩
        · rw [if_pos ⟨hkey.trans hfor.symm, hslot⟩, if_pos hfor]
        · have hne : h.key ≠ key := fun he => hfor (he.symm.trans hkey)
          rw [if_neg fun hin => hne hin.1, if_neg hfor, hanswer]
      | some first =>
        have hslot : h ∉ r.slots := (hr.answered h hh).mpr (by simp [hanswer])
        rw [if_neg fun hin => hslot hin.2] at hreceived
        exact ⟨h, hheld.trans hone, hkey, hreceived.trans hanswer⟩
    | _ => cases hw

theorem Tied.after_register (ht : Tied runId r w) {key : WaitKey} (hother : key.runId ≠ runId) :
    Tied runId (r.register key).2 w := by
  rw [Rendezvous.register_eq]
  split
  · exact ht.congr rfl fun _ _ => rfl
  · refine ht.congr ?_ fun _ _ => rfl
    simp [Rendezvous.heldBy, hother]

theorem Tied.after_release (hr : r.Sound) (ht : Tied runId r w) (hh : h ∈ r.held)
    (hother : h.key.runId ≠ runId) : Tied runId (r.release h) w := by
  refine ht.congr ?_ (fun h' hh' => ?_)
  · simp only [Rendezvous.heldBy, Rendezvous.release, List.filter_filter]
    refine List.filter_congr fun h' _ => ?_
    by_cases hrun : h'.key.runId = runId
    · have hne : h' ≠ h := fun he => hother (he ▸ hrun)
      simp [hrun, hne]
    · simp [hrun]
  · obtain ⟨hheld, hrun⟩ := mem_heldBy.mp hh'
    have htoken : h'.token ≠ h.token := by
      intro ht
      have he : h' = h := hr.held_unique hheld hh ht
      exact hother (he ▸ hrun)
    simp [Rendezvous.received?, Rendezvous.release, Rendezvous.lookup_filter, htoken]

theorem Entry.FitsIn.fits {e : Entry} (hown : e.isOfWait = false) (hfits : e.FitsIn env w) :
    e.Fits env w := by
  cases e with
  | submission => cases hown
  | waitBegan => cases hown
  | waitEnded => cases hown
  | _ => exact hfits

theorem Wait.after_event {e : Event} {callId : String} {shown : Bool} {answer : Option Json} :
    (Wait.waiting callId shown answer).after runId (.event e) = .waiting callId true answer := by
  cases answer <;> rfl

/-- A run that does not wait begins no wait with an entry that is not about one. -/
theorem Wait.isWaiting_after {e : Entry} (hown : e.isOfWait = false) (hw : w.isWaiting = false) :
    (w.after runId e).isWaiting = false := by
  cases e with
  | submission => cases hown
  | waitBegan => cases hown
  | waitEnded => cases hown
  | event e =>
    cases w with
    | waiting => cases hw
    | _ => cases e <;> rfl
  | _ =>
    cases w with
    | waiting => cases hw
    | _ => rfl

/-- An entry of the run that fits and is not about a wait needs no handle. -/
theorem Tied.after_note {e : Entry} (ht : Tied runId r w) (hown : e.isOfWait = false)
    (hfits : e.FitsIn env w) : Tied runId r (w.after runId e) := by
  cases hw : w.isWaiting with
  | false => exact (tied_iff (Wait.isWaiting_after hown hw)).mpr ((tied_iff hw).mp ht)
  | true =>
    cases w with
    | waiting callId shown answer =>
      obtain ⟨-, call, args, rfl, -⟩ := hfits
      rw [Wait.after_event]
      exact ht
    | _ => cases hw

theorem Tied.after_begin (hr : r.Sound) (hnone : r.heldBy runId = []) {r' : Rendezvous}
    (hrun : h.key.runId = runId) (hreg : r.register h.key = (.ok h, r')) :
    Tied runId r' (.waiting h.key.callId false none) := by
  rw [Rendezvous.register_eq] at hreg
  split at hreg
  · cases hreg
  · obtain ⟨hok, rfl⟩ := Prod.mk.inj hreg
    have hnew : h = ⟨h.key, r.nextToken⟩ := (Except.ok.inj hok).symm
    refine ⟨h, ?_, by rw [← hrun], ?_⟩
    · rw [← hnew]
      simpa [Rendezvous.heldBy, hrun] using hnone
    · rw [hnew]
      exact hr.next_unmailed

theorem Tied.after_end (ht : Tied runId r w) (hh : h ∈ r.held) (hrun : h.key.runId = runId) :
    Tied runId (r.release h) (w.after runId (.waitEnded h.key)) := by
  obtain ⟨hone, shown, hw⟩ := ht.of_held hh hrun
  have hnone : (r.release h).heldBy runId = [] := by
    have hsplit : (r.release h).heldBy runId = (r.heldBy runId).filter (· != h) := by
      simp only [Rendezvous.heldBy, Rendezvous.release, List.filter_filter]
      exact List.filter_congr fun h' _ => Bool.and_comm _ _
    rw [hsplit, hone]
    simp
  rw [hw]
  cases r.received? h <;> exact hnone

end Tied

/-! ## What holds at every moment -/

/-- A wait that is over had its call shown. -/
def Told (runId : String) (before : List Entry) (e : Entry) : Prop :=
  ∀ key, e = .waitEnded key → (waitOf runId before).isShown = true

/-- The entries of a journal stand where they fit. -/
abbrev Fitting (env : Env) : List Entry → Prop :=
  Throughout fun before e => e.Fits env (waitOf env.runId before)

/-- What is true of a run and its waits whatever happened. -/
structure Moment.Holds (env : Env) (m : Moment) : Prop where
  sound : m.state.world.rendezvous.Sound
  tied : Tied env.runId m.state.world.rendezvous (waitOf env.runId m.state.journal)
  fits : Fitting env m.state.journal
  told : m.state.channel.connected = true → Throughout (Told env.runId) m.state.journal
  since : m.since ≤ m.state.now

section Holds

variable {env : Env} {m m' : Moment} {runId : String}

theorem waitOf_snoc (j : List Entry) (e : Entry) :
    waitOf runId (j ++ [e]) = (waitOf runId j).after runId e := by
  simp [waitOf]

namespace Moment.Holds

theorem pending_iff (h : m.Holds env) (callId : String) :
    m.state.world.rendezvous.isPending ⟨env.runId, callId⟩ = true ↔
      (waitOf env.runId m.state.journal).IsOpen callId :=
  Rendezvous.isPending_iff.trans (h.tied.pending_iff h.sound callId)

theorem snoc {e : Entry} {r : Rendezvous} {t : Nat} (h : m.Holds env) (hsound : r.Sound)
    (htied : Tied env.runId r ((waitOf env.runId m.state.journal).after env.runId e))
    (hfits : e.Fits env (waitOf env.runId m.state.journal))
    (htold : m.state.channel.connected = true → Told env.runId m.state.journal e)
    (ht : t ≤ m.state.now) :
    Moment.Holds env ⟨(m.state.withRendezvous r).note e, t⟩ where
  sound := hsound
  tied := by
    show Tied env.runId r (waitOf env.runId (m.state.journal ++ [e]))
    rw [waitOf_snoc]
    exact htied
  fits := h.fits.snoc hfits
  told := fun hconn => (h.told hconn).snoc (htold hconn)
  since := ht

theorem step (h : m.Holds env) (hstep : Step env m m') : m'.Holds env := by
  cases hstep with
  | acts act =>
    cases act with
    | leave => exact ⟨h.sound, h.tied, h.fits, nofun, h.since⟩
    | submit ticket key payload =>
      refine h.snoc (h.sound.after_submit key payload)
        (h.tied.after_submit h.sound ticket key payload _) ?_ (fun _ => nofun) h.since
      show key.runId = env.runId →
        ((m.state.world.rendezvous.submit key payload).1.accepted = true ↔
          (waitOf env.runId m.state.journal).IsOpen key.callId)
      intro hrun
      rw [h.sound.submit_accepted key payload, ← h.tied.pending_iff h.sound key.callId, ← hrun]
  | othersRegister hother =>
    exact ⟨h.sound.after_register _, h.tied.after_register hother, h.fits, h.told, h.since⟩
  | othersRelease hheld hother =>
    exact ⟨h.sound.after_release hheld, h.tied.after_release h.sound hheld hother, h.fits, h.told,
      h.since⟩
  | goesOn hjournal hrendezvous hlater hconn =>
    refine ⟨?_, ?_, ?_, fun hc => ?_, Nat.le_trans h.since hlater⟩
    · rw [hrendezvous]
      exact h.sound
    · rw [hrendezvous, hjournal]
      exact h.tied
    · rw [hjournal]
      exact h.fits
    · rw [hjournal]
      exact h.told (hconn hc)
  | @notes e hown hfits =>
    refine h.snoc h.sound (h.tied.after_note hown hfits) (hfits.fits hown) (fun _ key he => ?_) ?_
    · rw [he] at hown
      cases hown
    · split
      · exact Nat.le_refl _
      · exact h.since
  | @begins handle r call htaken hasks hown hreg =>
    have hsound : r.Sound := by
      have := h.sound.after_register handle.key
      rwa [hreg] at this
    have htied := h.tied
    rw [htaken] at htied
    refine h.snoc hsound ?_ ⟨call, htaken, hasks, hown⟩ (fun _ => nofun) h.since
    rw [htaken]
    exact Tied.after_begin h.sound htied (by rw [hown]) hreg
  | @ends handle hown hheld htold hover =>
    obtain ⟨-, shown, hw⟩ := h.tied.of_held hheld hown
    refine h.snoc (h.sound.after_release hheld) (h.tied.after_end hheld hown)
      ⟨hown, shown, _, hw⟩ (fun hconn key _ => ?_) h.since
    refine htold.resolve_right ?_
    rw [hconn]
    nofun

theorem reaches (h : m.Holds env) (hr : Reaches env m m') : m'.Holds env := by
  induction hr with
  | refl => exact h
  | tail _ hstep ih => exact ih.step hstep

end Moment.Holds

/-! ## The moments of a journal -/

theorem Step.journal (h : Step env m m') :
    m'.state.journal = m.state.journal ∨ ∃ e, m'.state.journal = m.state.journal ++ [e] := by
  cases h with
  | acts act =>
    cases act with
    | leave => exact Or.inl rfl
    | submit ticket key payload => exact Or.inr ⟨_, rfl⟩
  | othersRegister => exact Or.inl rfl
  | othersRelease => exact Or.inl rfl
  | goesOn hjournal => exact Or.inl hjournal
  | notes => exact Or.inr ⟨_, rfl⟩
  | begins => exact Or.inr ⟨_, rfl⟩
  | ends => exact Or.inr ⟨_, rfl⟩

/-- Whoever came to a journal was at a moment for each part of it that the start does not have. -/
theorem Reaches.through {before after : List Entry} (hr : Reaches env m m')
    (hj : m'.state.journal = before ++ after) (hstart : m.state.journal <+: before) :
    ∃ m₁, Reaches env m m₁ ∧ m₁.state.journal = before ∧ Reaches env m₁ m' := by
  induction hr generalizing after with
  | refl =>
    obtain ⟨u, rfl⟩ := hstart
    have hnone : u ++ after = [] := by simpa using hj.symm
    exact ⟨m, .refl, by simp [(List.append_eq_nil_iff.mp hnone).1], .refl⟩
  | @tail m₁ m₂ hr hstep ih =>
    rcases hstep.journal with hsame | ⟨e, hsnoc⟩
    · obtain ⟨m', hto, hbefore, hfrom⟩ := ih (hsame.symm.trans hj)
      exact ⟨m', hto, hbefore, hfrom.tail hstep⟩
    · rw [hsnoc] at hj
      cases after using List.reverseRecOn with
      | nil => exact ⟨m₂, hr.tail hstep, by rw [hsnoc, hj, List.append_nil], .refl⟩
      | append_singleton after f =>
        rw [← List.append_assoc] at hj
        obtain ⟨m', hto, hbefore, hfrom⟩ := ih (List.append_inj_left' hj rfl)
        exact ⟨m', hto, hbefore, hfrom.tail hstep⟩

/-! ## What clients do meanwhile -/

section Calm

variable {s s' : State}

/-- What the acts of a client make of the journal and the waits can come about one by one. -/
theorem reaches_acts (env : Env) (acts : List ClientAct) (m : Moment) :
    ∃ s, Reaches env m { m with state := s } ∧
      s.journal = (performAll acts m.state).journal ∧
      s.world.rendezvous = (performAll acts m.state).world.rendezvous ∧
      s.now = m.state.now ∧ s.channel.connected = m.state.channel.connected := by
  induction acts generalizing m with
  | nil => exact ⟨m.state, .refl, rfl, rfl, rfl, rfl⟩
  | cons act rest ih =>
    cases act with
    | submit ticket key payload =>
      obtain ⟨s, hr, hj, hw, hn, hc⟩ :=
        ih { m with state := perform (.submit ticket key payload) m.state }
      exact ⟨s, .head (.acts m (.submit ticket key payload)) hr, hj, hw, hn, hc⟩
    | leave =>
      -- Whether the client is there is not what is looked at, so it may as well stay.
      obtain ⟨s, hr, hj, hw, hn, hc⟩ := ih m
      have hsame : (perform .leave m.state).journal = m.state.journal ∧
          (perform .leave m.state).world.rendezvous = m.state.world.rendezvous := ⟨rfl, rfl⟩
      obtain ⟨hj', hw'⟩ := performAll_congr rest hsame.1 hsame.2
      exact ⟨s, hr, hj.trans hj'.symm, hw.trans hw'.symm, hn, hc⟩

theorem reaches_calm (c : Calm env m.state s) : Reaches env m { m with state := s } := by
  obtain ⟨acts, hjournal, hrendezvous⟩ := c.acted
  obtain ⟨s₁, hr, hj, hw, hn, hc⟩ := reaches_acts env acts m
  refine hr.tail (.goesOn { m with state := s₁ } (hjournal.trans hj.symm)
    (hrendezvous.trans hw.symm) ?_ fun hconn => ?_)
  · rw [hn]
    exact c.later
  · rw [hc]
    exact (c.sent hconn).1

/-- Where a run can stand for as long as only clients act. -/
def Wait.Lasting (runId : String) (W : Wait → Prop) : Prop :=
  ∀ w ticket key payload ack, W w → W (w.after runId (.submission ticket key payload ack))

theorem Wait.Lasting.calm {W : Wait → Prop} (hW : Wait.Lasting runId W)
    (hw : W (waitOf runId s.journal)) (c : Calm env s s') : W (waitOf runId s'.journal) := by
  obtain ⟨acts, hjournal, -⟩ := c.acted
  rw [hjournal]
  clear hjournal c
  induction acts generalizing s with
  | nil => exact hw
  | cons act rest ih =>
    refine ih (s := perform act s) ?_
    cases act with
    | leave => exact hw
    | submit ticket key payload =>
      show W (waitOf runId (s.journal ++ [_]))
      rw [waitOf_snoc]
      exact hW _ _ _ _ _ hw

end Calm

/-! ## As long as a wait is open -/

/-- Something was submitted for a wait. -/
def Submitted (key : WaitKey) (j : List Entry) : Prop :=
  ∃ ticket payload ack, .submission ticket key payload ack ∈ j

theorem Submitted.append_right {key : WaitKey} {i j : List Entry} (h : Submitted key i) :
    Submitted key (i ++ j) := by
  obtain ⟨ticket, payload, ack, hmem⟩ := h
  exact ⟨ticket, payload, ack, List.mem_append_left _ hmem⟩

/-- Nothing that happens takes back what happened before. -/
structure Onward (m : Moment) (later : List Entry) (m' : Moment) : Prop where
  journal : m'.state.journal = m.state.journal ++ later
  since : m.since ≤ m'.since
  now : m.state.now ≤ m'.state.now
  connected : m'.state.channel.connected = true → m.state.channel.connected = true

/-- How a wait that was open is doing some entries later. -/
def StillOpen (env : Env) (callId : String) (m : Moment) (later : List Entry) (m' : Moment) :
    Prop :=
  (waitOf env.runId m'.state.journal).IsOpen callId ∨
    Submitted ⟨env.runId, callId⟩ later ∨ m'.state.channel.connected = false ∨
    m.since + env.frontendTimeoutMs ≤ m'.state.now

theorem Onward.trans {m'' : Moment} {later more : List Entry} (h : Onward m later m')
    (h' : Onward m' more m'') : Onward m (later ++ more) m'' where
  journal := by rw [h'.journal, h.journal, List.append_assoc]
  since := Nat.le_trans h.since h'.since
  now := Nat.le_trans h.now h'.now
  connected := fun hc => h.connected (h'.connected hc)

theorem Step.onward (h : m.Holds env) (hstep : Step env m m') :
    ∃ later, Onward m later m' ∧
      ∀ callId, (waitOf env.runId m.state.journal).IsOpen callId →
        StillOpen env callId m later m' := by
  have same {s : State} {t : Nat} (hj : s.journal = m.state.journal) (ht : m.since ≤ t)
      (hn : m.state.now ≤ s.now)
      (hc : s.channel.connected = true → m.state.channel.connected = true) :
      ∃ later, Onward m later ⟨s, t⟩ ∧
        ∀ callId, (waitOf env.runId m.state.journal).IsOpen callId →
          StillOpen env callId m later ⟨s, t⟩ := by
    refine ⟨[], ⟨by simp [hj], ht, hn, hc⟩, fun callId hw => Or.inl ?_⟩
    show (waitOf env.runId s.journal).IsOpen callId
    rw [hj]
    exact hw
  cases hstep with
  | acts act =>
    cases act with
    | leave => exact same rfl (Nat.le_refl _) (Nat.le_refl _) nofun
    | submit ticket key payload =>
      refine ⟨_, ⟨rfl, Nat.le_refl _, Nat.le_refl _, id⟩, fun callId hw => ?_⟩
      by_cases hfor : key = ⟨env.runId, callId⟩
      · exact Or.inr (Or.inl ⟨ticket, payload, _, by rw [hfor]; exact List.mem_singleton_self _⟩)
      · obtain ⟨shown, hw⟩ := hw
        refine Or.inl ⟨shown, ?_⟩
        show waitOf env.runId (m.state.journal ++ [_]) = .waiting callId shown none
        rw [waitOf_snoc, hw]
        exact congrArg (Wait.waiting callId shown) (if_neg hfor)
  | othersRegister hother => exact same rfl (Nat.le_refl _) (Nat.le_refl _) id
  | othersRelease hheld hother => exact same rfl (Nat.le_refl _) (Nat.le_refl _) id
  | goesOn hjournal hrendezvous hlater hconn => exact same hjournal (Nat.le_refl _) hlater hconn
  | @notes e hown hfits =>
    refine ⟨[e], ⟨rfl, ?_, Nat.le_refl _, id⟩, fun callId hw => Or.inl ?_⟩
    · show m.since ≤ if e.event?.isSome then m.state.now else m.since
      split
      · exact h.since
      · exact Nat.le_refl _
    · obtain ⟨shown, hw⟩ := hw
      rw [hw] at hfits
      obtain ⟨-, call, args, rfl, -⟩ := hfits
      refine ⟨true, ?_⟩
      show waitOf env.runId (m.state.journal ++ [_]) = .waiting callId true none
      rw [waitOf_snoc, hw]
      rfl
  | begins htaken hasks hown hreg =>
    refine ⟨_, ⟨rfl, Nat.le_refl _, Nat.le_refl _, id⟩, fun callId hw => ?_⟩
    obtain ⟨shown, hw⟩ := hw
    rw [htaken] at hw
    cases hw
  | @ends handle hown hheld htold hover =>
    refine ⟨_, ⟨rfl, Nat.le_refl _, Nat.le_refl _, id⟩, fun callId hw => Or.inr (Or.inr ?_)⟩
    -- Nobody has answered a wait that is open.
    have hnone : m.state.world.rendezvous.received? handle = none := by
      obtain ⟨shown, hw⟩ := hw
      obtain ⟨-, shown', hw'⟩ := h.tied.of_held hheld hown
      rw [hw] at hw'
      injection hw' with _ _ hanswer
      exact hanswer.symm
    rw [hnone] at hover
    exact hover.resolve_left Bool.false_ne_true

/-- A wait stays open until somebody submits, the client is gone or the time is up. -/
theorem Reaches.stillOpen {callId : String} (h : m.Holds env) (hr : Reaches env m m')
    (hw : (waitOf env.runId m.state.journal).IsOpen callId) :
    ∃ later, Onward m later m' ∧ StillOpen env callId m later m' := by
  induction hr with
  | refl => exact ⟨[], ⟨by simp, Nat.le_refl _, Nat.le_refl _, id⟩, Or.inl hw⟩
  | tail hr hstep ih =>
    obtain ⟨later, honward, hopen⟩ := ih
    obtain ⟨more, honward', hopen'⟩ := hstep.onward (h.reaches hr)
    refine ⟨later ++ more, honward.trans honward', ?_⟩
    rcases hopen with hw' | hsubmitted | hgone | hup
    · rcases hopen' callId hw' with hw'' | hsubmitted | hgone | hup
      · exact Or.inl hw''
      · obtain ⟨ticket, payload, ack, hmem⟩ := hsubmitted
        exact Or.inr (Or.inl ⟨ticket, payload, ack, List.mem_append_right _ hmem⟩)
      · exact Or.inr (Or.inr (Or.inl hgone))
      · have := honward.since
        exact Or.inr (Or.inr (Or.inr (by omega)))
    · exact Or.inr (Or.inl hsubmitted.append_right)
    · refine Or.inr (Or.inr (Or.inl (Bool.eq_false_iff.mpr fun hc => ?_)))
      rw [honward'.connected hc] at hgone
      cases hgone
    · have := honward'.now
      exact Or.inr (Or.inr (Or.inr (by omega)))

/-! ## What becomes of a payload -/

/-- The first result that is shown in a part of a journal. -/
def firstResult? (j : List Entry) : Option Event :=
  (eventsOf j).find? fun e => e.resultId?.isSome

/-- A payload came for a call, and the result is not shown yet. -/
def Wait.HasPayload (callId : String) (payload : Json) (w : Wait) : Prop :=
  (∃ shown, w = .waiting callId shown (some payload)) ∨ w = .owed callId payload

/-- Behind a payload that came, the first result that is shown is this payload for its call. -/
theorem firstResult_of_payload {callId : String} {payload : Json} {j after : List Entry}
    (hfits : Fitting env (j ++ after))
    (hw : (waitOf env.runId j).HasPayload callId payload) :
    firstResult? after = some (.toolResult callId payload) ∨
      firstResult? after = none ∧ (waitOf env.runId (j ++ after)).HasPayload callId payload := by
  induction after generalizing j with
  | nil => exact Or.inr ⟨rfl, by simpa using hw⟩
  | cons e after ih =>
    have hfit : e.Fits env (waitOf env.runId j) := hfits j e after rfl
    have hsplit : j ++ e :: after = (j ++ [e]) ++ after := by simp
    rw [hsplit] at hfits ⊢
    -- An entry that shows no result leaves it to the rest of them.
    have skip (hnone : firstResult? (e :: after) = firstResult? after)
        (hw' : ((waitOf env.runId j).after env.runId e).HasPayload callId payload) :
        firstResult? (e :: after) = some (.toolResult callId payload) ∨
          firstResult? (e :: after) = none ∧
            (waitOf env.runId ((j ++ [e]) ++ after)).HasPayload callId payload := by
      rw [hnone]
      refine ih hfits ?_
      rw [waitOf_snoc]
      exact hw'
    rcases hw with ⟨shown, hw⟩ | hw
    · rw [hw] at hfit skip
      cases e with
      | submission ticket key value ack => exact skip rfl (Or.inl ⟨shown, rfl⟩)
      | waitBegan key =>
        obtain ⟨call, hcalled, -⟩ := hfit
        cases hcalled
      | waitEnded key => exact skip rfl (Or.inr rfl)
      | _ =>
        obtain ⟨-, call, args, heq, -⟩ := hfit
        cases heq <;> exact skip rfl (Or.inl ⟨true, rfl⟩)
    · rw [hw] at hfit skip
      cases e with
      | submission ticket key value ack => exact skip rfl (Or.inr rfl)
      | waitBegan key =>
        obtain ⟨call, hcalled, -⟩ := hfit
        cases hcalled
      | waitEnded key =>
        obtain ⟨-, shown, answer, heq⟩ := hfit
        cases heq
      | _ =>
        have hresult := hfit
        cases hresult <;> exact Or.inl rfl

end Holds

end Run

end AgentRun
