import AgentRun.Proofs.Registry
import Mathlib.Tactic.Tauto

/-!
# Payloads reach the wait they are meant for

Waits are registered, looked at and given up, and payloads are submitted, in any order and by anyone
(`Desk.step`). The log of these steps alone says which waits are open (`isOpen`) and what was handed
to each (`handed?`), without a word of slots, numbers and mail. `Desk.Faithful` says that the
registry does what the log asks for, and it holds after any steps.

`Desk.Tallies` is the invariant behind it: it ties a sound registry to the log of what was done.
-/

namespace AgentRun

namespace Rendezvous

variable {h h' : Handle} {key : WaitKey} {payload : Json}

/-! ## The log -/

/-- A step of someone who uses the registry. -/
inductive Move where
  | register (key : WaitKey)
  | submit (key : WaitKey) (payload : Json)
  /-- A wait is looked at, before or after its time is up. -/
  | poll (h : Handle) (timeoutMs : Nat) (isUp : Bool)
  | drop (h : Handle)

/-- What came of a step. -/
inductive Did where
  | registered (h : Handle)
  | refused (key : WaitKey) (error : RendezvousError)
  | submitted (key : WaitKey) (payload : Json) (ack : SubmitAck)
  | waited (h : Handle)
  | completed (h : Handle) (result : Except RendezvousError Json)
  | dropped (h : Handle)

/-- Whether a wait is held by someone, by a log with the latest entry first: it was registered, and
since then it neither completed nor was dropped. -/
def isHeld (h : Handle) : List Did → Bool
  | [] => false
  | .registered h' :: log => h == h' || isHeld h log
  | .completed h' _ :: log => h != h' && isHeld h log
  | .dropped h' :: log => h != h' && isHeld h log
  | _ :: log => isHeld h log

/-- Whether a wait is open, by a log with the latest entry first: it is held, and nothing was
submitted for its key since it was registered. -/
def isOpen (h : Handle) : List Did → Bool
  | [] => false
  | .registered h' :: log => h == h' || isOpen h log
  | .submitted key _ _ :: log => h.key != key && isOpen h log
  | .completed h' _ :: log => h != h' && isOpen h log
  | .dropped h' :: log => h != h' && isOpen h log
  | _ :: log => isOpen h log

/-- What was submitted for a wait while it was open, by a log with the latest entry first. -/
def handed? (h : Handle) : List Did → Option Json
  | [] => none
  | .submitted key payload _ :: log =>
    if h.key = key ∧ isOpen h log then some payload else handed? h log
  | _ :: log => handed? h log

/-- A registry with the log of what was done to it. -/
structure Desk where
  registry : Rendezvous
  log : List Did

namespace Desk

/-- A step is done. Only a wait that is held can be looked at or dropped, and one that completes is
given up. -/
def step (d : Desk) : Move → Desk
  | .register key =>
    match d.registry.register key with
    | (.ok h, r) => ⟨r, .registered h :: d.log⟩
    | (.error e, r) => ⟨r, .refused key e :: d.log⟩
  | .submit key payload =>
    let (ack, r) := d.registry.submit key payload
    ⟨r, .submitted key payload ack :: d.log⟩
  | .poll h timeoutMs isUp =>
    if h ∈ d.registry.held then
      match d.registry.poll? h timeoutMs isUp with
      | none => ⟨d.registry, .waited h :: d.log⟩
      | some result => ⟨d.registry.release h, .completed h result :: d.log⟩
    else d
  | .drop h =>
    if h ∈ d.registry.held then ⟨d.registry.release h, .dropped h :: d.log⟩ else d

/-- What some steps make of a registry without waits. -/
def after (moves : List Move) : Desk := moves.foldl step ⟨.empty, []⟩

/-- A wait for a key is open. -/
def Pending (d : Desk) (key : WaitKey) : Prop := ∃ h, h.key = key ∧ isOpen h d.log = true

/-- The registry does what the log asks for. -/
structure Faithful (d : Desk) : Prop where
  /-- The slots are the open waits. -/
  slot_iff : ∀ h, h ∈ d.registry.slots ↔ isOpen h d.log = true
  /-- No key has two of them. -/
  one_slot : (d.registry.slots.map Handle.key).Nodup
  /-- A registration is refused for the one reason that a wait for its key is open. -/
  register_refused : ∀ key, d.Pending key →
    (d.registry.register key).1 = .error (.alreadyPending key.runId key.callId)
  /-- Any other gives a handle that nobody had before. -/
  register_new : ∀ key, ¬ d.Pending key → ∃ h, h.key = key ∧ .registered h ∉ d.log ∧
    (d.registry.register key).1 = .ok h
  /-- A submission is accepted if a wait for its key is open, and otherwise refused. -/
  submit_accepted : ∀ key payload, (d.registry.submit key payload).1.accepted = true ↔
    d.Pending key
  /-- It takes the slot of its key away, and no other. -/
  submit_slots : ∀ key payload h, h ∈ (d.registry.submit key payload).2.slots ↔
    h ∈ d.registry.slots ∧ h.key ≠ key
  /-- Whoever holds a wait gets what was handed to it, in time or not, or else the timeout once the
  time is up. -/
  poll_eq : ∀ h, isHeld h d.log = true → ∀ timeoutMs isUp,
    d.registry.poll? h timeoutMs isUp =
      match handed? h d.log with
      | some payload => some (.ok payload)
      | none => if isUp then some (.error (.timeout timeoutMs)) else none
  /-- What was handed to a wait is not replaced by anything. -/
  handed_stays : ∀ h payload, handed? h d.log = some payload →
    ∀ m, handed? h (d.step m).log = some payload
  /-- A wait completed with what was handed to it, and without a payload if nothing ever was. -/
  completed_handed : ∀ h result, .completed h result ∈ d.log →
    result.toOption = handed? h d.log
  never_abandoned : ∀ h, .completed h (.error .abandoned) ∉ d.log
  /-- Whoever looks at a wait or drops it leaves the slots of all others. -/
  others_stay : ∀ h h', h' ≠ h → h' ∈ d.registry.slots → (∀ timeoutMs isUp,
    h' ∈ (d.step (.poll h timeoutMs isUp)).registry.slots) ∧
    h' ∈ (d.step (.drop h)).registry.slots
  /-- No slot is left when nobody holds a wait. -/
  none_left : (∀ h, isHeld h d.log = false) → d.registry.slots = []

/-- Whoever looks at a wait or drops it takes at most the slot of that wait away. -/
theorem others_stay {d : Desk} (hne : h' ≠ h) (hslot : h' ∈ d.registry.slots) :
    (∀ timeoutMs isUp, h' ∈ (d.step (.poll h timeoutMs isUp)).registry.slots) ∧
      h' ∈ (d.step (.drop h)).registry.slots := by
  have hreleased : h' ∈ (d.registry.release h).slots := by
    simpa [Rendezvous.release, hne] using hslot
  constructor
  · intro timeoutMs isUp
    simp only [step]
    by_cases hin : h ∈ d.registry.held
    · simp only [hin, if_true]
      cases d.registry.poll? h timeoutMs isUp with
      | none => exact hslot
      | some result => exact hreleased
    · simpa only [hin, if_false] using hslot
  · simp only [step]
    by_cases hin : h ∈ d.registry.held
    · simpa only [hin, if_true] using hreleased
    · simpa only [hin, if_false] using hslot

/-- What the registry has in common with its log. -/
structure Tallies (d : Desk) : Prop where
  sound : Sound d.registry
  slot_iff : ∀ h, h ∈ d.registry.slots ↔ isOpen h d.log = true
  held_iff : ∀ h, h ∈ d.registry.held ↔ isHeld h d.log = true
  received : ∀ h ∈ d.registry.held, d.registry.received? h = handed? h d.log
  registered : ∀ h, .registered h ∈ d.log → h.token < d.registry.nextToken
  completed : ∀ h result, .completed h result ∈ d.log → h ∉ d.registry.held ∧
    .registered h ∈ d.log ∧ result.toOption = handed? h d.log ∧ result ≠ .error .abandoned

end Desk

section Log

variable {log : List Did}

theorem registered_of_isHeld (hh : isHeld h log = true) : .registered h ∈ log := by
  induction log with
  | nil => cases hh
  | cons did log ih =>
    cases did with
    | registered h' =>
      rw [isHeld, Bool.or_eq_true, beq_iff_eq] at hh
      rcases hh with rfl | hh
      · exact List.mem_cons_self
      · exact List.mem_cons_of_mem _ (ih hh)
    | completed h' result =>
      rw [isHeld, Bool.and_eq_true] at hh
      exact List.mem_cons_of_mem _ (ih hh.2)
    | dropped h' =>
      rw [isHeld, Bool.and_eq_true] at hh
      exact List.mem_cons_of_mem _ (ih hh.2)
    | _ => exact List.mem_cons_of_mem _ (ih hh)

theorem registered_of_isOpen (hh : isOpen h log = true) : .registered h ∈ log := by
  induction log with
  | nil => cases hh
  | cons did log ih =>
    cases did with
    | registered h' =>
      rw [isOpen, Bool.or_eq_true, beq_iff_eq] at hh
      rcases hh with rfl | hh
      · exact List.mem_cons_self
      · exact List.mem_cons_of_mem _ (ih hh)
    | completed h' result =>
      rw [isOpen, Bool.and_eq_true] at hh
      exact List.mem_cons_of_mem _ (ih hh.2)
    | dropped h' =>
      rw [isOpen, Bool.and_eq_true] at hh
      exact List.mem_cons_of_mem _ (ih hh.2)
    | submitted key' payload' ack =>
      rw [isOpen, Bool.and_eq_true] at hh
      exact List.mem_cons_of_mem _ (ih hh.2)
    | _ => exact List.mem_cons_of_mem _ (ih hh)

theorem registered_of_handed (hh : handed? h log = some payload) : .registered h ∈ log := by
  induction log with
  | nil => cases hh
  | cons did log ih =>
    refine List.mem_cons_of_mem _ ?_
    cases did with
    | submitted key' payload' ack =>
      unfold handed? at hh
      split at hh
      · rename_i hopen
        exact registered_of_isOpen hopen.2
      · exact ih hh
    | _ => exact ih hh

end Log

namespace Desk.Tallies

variable {d : Desk}

theorem empty : Tallies ⟨.empty, []⟩ := by
  refine ⟨.empty, ?_, ?_, ?_, ?_, ?_⟩ <;> simp [Rendezvous.empty, isOpen, isHeld]

theorem pending_iff (ht : Tallies d) (key : WaitKey) :
    d.Pending key ↔ ∃ h ∈ d.registry.slots, h.key = key := by
  simp only [Pending, ht.slot_iff]
  exact exists_congr fun h => and_comm

/-- Nothing was handed to an open wait yet. -/
theorem open_unhanded (ht : Tallies d) (hopen : isOpen h d.log = true) :
    handed? h d.log = none := by
  have hslot := (ht.slot_iff h).mpr hopen
  rw [← ht.received h (ht.sound.slots_held h hslot)]
  exact ht.sound.received_none_of_slot hslot

theorem poll_eq (ht : Tallies d) (hh : h ∈ d.registry.held) (timeoutMs : Nat) (isUp : Bool) :
    d.registry.poll? h timeoutMs isUp =
      match handed? h d.log with
      | some payload => some (.ok payload)
      | none => if isUp then some (.error (.timeout timeoutMs)) else none := by
  unfold poll?
  rw [ht.sound.look_of_held hh, ht.received h hh]
  cases handed? h d.log <;> rfl

/-! ### Each step keeps them together -/

theorem register (ht : Tallies d) (key : WaitKey) : Tallies (d.step (.register key)) := by
  have hsound := ht.sound.after_register key
  rw [register_eq] at hsound
  simp only [step, register_eq]
  by_cases hp : d.registry.isPending key
  · simp only [hp, if_true] at hsound ⊢
    refine ⟨hsound, ht.slot_iff, ht.held_iff, ht.received, ?_, ?_⟩
    · intro h hh
      exact Nat.lt_succ_of_lt (ht.registered h (by simpa using hh))
    · intro h result hh
      simpa [handed?] using ht.completed h result (by simpa using hh)
  · simp only [hp] at hsound ⊢
    -- Nothing can be known of the new wait, as all that is known is of earlier numbers.
    have hnew : .registered ⟨key, d.registry.nextToken⟩ ∉ d.log :=
      fun hin => Nat.lt_irrefl _ (ht.registered _ hin)
    refine ⟨hsound, ?_, ?_, ?_, ?_, ?_⟩
    · intro h
      simp [isOpen, ht.slot_iff]
    · intro h
      simp [isHeld, ht.held_iff]
    · intro h hh
      rcases List.mem_cons.mp hh with rfl | hh
      · have hnone : handed? ⟨key, d.registry.nextToken⟩ d.log = none := by
          by_contra hsome
          obtain ⟨payload, hpayload⟩ := Option.ne_none_iff_exists'.mp hsome
          exact hnew (registered_of_handed hpayload)
        simpa [handed?, hnone, received?] using ht.sound.next_unmailed
      · simpa [handed?, received?] using ht.received h hh
    · intro h hh
      rcases List.mem_cons.mp hh with he | hh
      · cases he
        exact Nat.lt_succ_self _
      · exact Nat.lt_succ_of_lt (ht.registered h hh)
    · intro h result hh
      obtain ⟨hheld, hreg, hrest⟩ := ht.completed h result (by simpa using hh)
      refine ⟨?_, List.mem_cons_of_mem _ hreg, hrest⟩
      have hne : h ≠ ⟨key, d.registry.nextToken⟩ := fun he => hnew (he ▸ hreg)
      simp [hne, hheld]

theorem submit (ht : Tallies d) (key : WaitKey) (payload : Json) :
    Tallies (d.step (.submit key payload)) := by
  obtain ⟨hheld, hnext⟩ := ht.sound.submit_held key payload
  refine ⟨ht.sound.after_submit key payload, ?_, ?_, ?_, ?_, ?_⟩
  · intro h
    simp only [step, ht.sound.submit_slots, ht.slot_iff, isOpen]
    simp [and_comm]
  · intro h
    simpa [step, hheld, isHeld] using ht.held_iff h
  · intro h hh
    have hh' : h ∈ d.registry.held := by simpa [step, hheld] using hh
    simp only [step, ht.sound.received_submit hh', ht.slot_iff, ht.received h hh', handed?]
  · intro h hh
    simpa [step, hnext] using ht.registered h (by simpa [step] using hh)
  · intro h result hh
    obtain ⟨hout, hreg, hres⟩ := ht.completed h result (by simpa [step] using hh)
    have hclosed : ¬ isOpen h d.log = true :=
      fun hopen => hout (ht.sound.slots_held h ((ht.slot_iff h).mpr hopen))
    refine ⟨by simpa [step, hheld] using hout, List.mem_cons_of_mem _ hreg, ?_⟩
    simpa [step, handed?, hclosed] using hres

/-- A wait is given up, under an entry that says no more than that. -/
theorem release (ht : Tallies d) (hh : h ∈ d.registry.held) {did : Did}
    (hopen : ∀ h', isOpen h' (did :: d.log) = (h' != h && isOpen h' d.log))
    (hheld : ∀ h', isHeld h' (did :: d.log) = (h' != h && isHeld h' d.log))
    (hhanded : ∀ h', handed? h' (did :: d.log) = handed? h' d.log)
    (hregistered : ∀ h', did ≠ .registered h')
    (hcompleted : ∀ h' result, did = .completed h' result →
      h' = h ∧ result.toOption = handed? h d.log ∧ result ≠ .error .abandoned) :
    Tallies ⟨d.registry.release h, did :: d.log⟩ := by
  refine ⟨ht.sound.after_release hh, ?_, ?_, ?_, ?_, ?_⟩
  · intro h'
    simp [Rendezvous.release, hopen, ht.slot_iff, and_comm]
  · intro h'
    simp [Rendezvous.release, hheld, ht.held_iff, and_comm]
  · intro h' hh'
    obtain ⟨hin, hne⟩ : h' ∈ d.registry.held ∧ h' ≠ h := by
      simpa [Rendezvous.release] using hh'
    have htoken : h'.token ≠ h.token := fun he => hne (ht.sound.held_unique hin hh he)
    rw [hhanded, ← ht.received h' hin]
    simp [received?, Rendezvous.release, lookup_filter, htoken]
  · intro h' hh'
    rcases List.mem_cons.mp hh' with he | hh'
    · exact absurd he.symm (hregistered h')
    · exact ht.registered h' hh'
  · intro h' result hh'
    rw [hhanded]
    rcases List.mem_cons.mp hh' with he | hh'
    · obtain ⟨rfl, hres⟩ := hcompleted h' result he.symm
      have hreg := registered_of_isHeld ((ht.held_iff h').mp hh)
      exact ⟨by simp [Rendezvous.release], List.mem_cons_of_mem _ hreg, hres⟩
    · obtain ⟨hout, hreg, hres⟩ := ht.completed h' result hh'
      exact ⟨fun hin => hout (List.mem_of_mem_filter hin), List.mem_cons_of_mem _ hreg, hres⟩

theorem poll (ht : Tallies d) (h : Handle) (timeoutMs : Nat) (isUp : Bool) :
    Tallies (d.step (.poll h timeoutMs isUp)) := by
  unfold step
  by_cases hh : h ∈ d.registry.held
  · simp only [hh, if_true]
    have hpoll := ht.poll_eq hh timeoutMs isUp
    cases hresult : d.registry.poll? h timeoutMs isUp with
    | none =>
      refine ⟨ht.sound, ht.slot_iff, ht.held_iff, ht.received, ?_, ?_⟩
      · intro h' hh'
        exact ht.registered h' (by simpa using hh')
      · intro h' result hh'
        simpa [handed?] using ht.completed h' result (by simpa using hh')
    | some result =>
      refine ht.release hh (fun _ => rfl) (fun _ => rfl) (fun _ => rfl) nofun ?_
      rintro h' result' he
      cases he
      rw [hresult] at hpoll
      cases hhanded : handed? h d.log with
      | some payload =>
        rw [hhanded] at hpoll
        cases hpoll
        exact ⟨rfl, rfl, nofun⟩
      | none =>
        rw [hhanded] at hpoll
        cases isUp
        · cases hpoll
        · cases hpoll
          exact ⟨rfl, rfl, nofun⟩
  · simpa only [hh, if_false] using ht

theorem drop (ht : Tallies d) (h : Handle) : Tallies (d.step (.drop h)) := by
  unfold step
  by_cases hh : h ∈ d.registry.held
  · simp only [hh, if_true]
    exact ht.release hh (fun _ => rfl) (fun _ => rfl) (fun _ => rfl) nofun nofun
  · simpa only [hh, if_false] using ht

theorem step (ht : Tallies d) (m : Move) : Tallies (d.step m) := by
  cases m with
  | register key => exact ht.register key
  | submit key payload => exact ht.submit key payload
  | poll h timeoutMs isUp => exact ht.poll h timeoutMs isUp
  | drop h => exact ht.drop h

theorem steps (ht : Tallies d) (moves : List Move) : Tallies (moves.foldl Desk.step d) := by
  induction moves generalizing d with
  | nil => exact ht
  | cons m moves ih => exact ih (ht.step m)

/-! ### What follows from it -/

/-- A payload stays with its wait, as nobody can submit for a wait that was answered. -/
theorem handed_stays (ht : Tallies d) (hh : handed? h d.log = some payload) (m : Move) :
    handed? h (d.step m).log = some payload := by
  have hclosed : ¬ isOpen h d.log = true := fun hopen => by
    rw [ht.open_unhanded hopen] at hh
    cases hh
  cases m with
  | register key =>
    simp only [Desk.step, register_eq]
    by_cases hp : d.registry.isPending key <;> simpa [hp, handed?] using hh
  | submit key payload' => simpa [Desk.step, handed?, hclosed] using hh
  | poll h' timeoutMs isUp =>
    simp only [Desk.step]
    by_cases hin : h' ∈ d.registry.held
    · simp only [hin, if_true]
      cases d.registry.poll? h' timeoutMs isUp <;> simpa [handed?] using hh
    · simpa only [hin, if_false] using hh
  | drop h' =>
    simp only [Desk.step]
    by_cases hin : h' ∈ d.registry.held <;> simpa [hin, handed?] using hh

theorem register_new (ht : Tallies d) {key : WaitKey} (hfree : ¬ d.Pending key) :
    ∃ h, h.key = key ∧ .registered h ∉ d.log ∧ (d.registry.register key).1 = .ok h := by
  have hp : d.registry.isPending key = false := by
    rwa [ht.pending_iff, ← isPending_iff, Bool.not_eq_true] at hfree
  refine ⟨⟨key, d.registry.nextToken⟩, rfl, ?_, ?_⟩
  · intro hin
    exact Nat.lt_irrefl _ (ht.registered _ hin)
  · simp [register_eq, hp]

theorem none_left (ht : Tallies d) (hnone : ∀ h, isHeld h d.log = false) :
    d.registry.slots = [] := by
  refine List.eq_nil_iff_forall_not_mem.mpr fun h hslot => ?_
  have hheld := (ht.held_iff h).mp (ht.sound.slots_held h hslot)
  rw [hnone h] at hheld
  cases hheld

end Desk.Tallies

/-- Whatever is done to a registry, waits are open, answered and closed as its log says, and a
payload comes out where it was meant to. -/
theorem desk_faithful (moves : List Move) : (Desk.after moves).Faithful := by
  have ht : (Desk.after moves).Tallies := Desk.Tallies.empty.steps moves
  exact {
    slot_iff := ht.slot_iff
    one_slot := ht.sound.keys
    register_refused := fun key hp => by
      have hpending := isPending_iff.mpr ((ht.pending_iff key).mp hp)
      simp [register_eq, hpending]
    register_new := fun key hfree => ht.register_new hfree
    submit_accepted := fun key payload =>
      (ht.sound.submit_accepted key payload).trans (ht.pending_iff key).symm
    submit_slots := fun key payload h => ht.sound.submit_slots key payload
    poll_eq := fun h hh => ht.poll_eq ((ht.held_iff h).mpr hh)
    handed_stays := fun h payload hh m => ht.handed_stays hh m
    completed_handed := fun h result hh => (ht.completed h result hh).2.2.1
    never_abandoned := fun h hh => (ht.completed h _ hh).2.2.2 rfl
    others_stay := fun h h' hne hslot => Desk.others_stay hne hslot
    none_left := ht.none_left }

/-- A wait that was answered is dropped after its key was registered again. -/
example (key : WaitKey) (payload : Json) :
    (Desk.after [.register key, .submit key payload, .register key,
      .drop ⟨key, 0⟩]).registry.slots = [⟨key, 1⟩] := by
  simp [Desk.after, Desk.step, register_eq, Rendezvous.empty, isPending, slot?,
    Rendezvous.submit, Rendezvous.release]

end Rendezvous

end AgentRun
