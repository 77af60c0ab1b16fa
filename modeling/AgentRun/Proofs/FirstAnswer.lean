import AgentRun.Proofs.Decoding
import AgentRun.Proofs.Moves
import AgentRun.Proofs.Timing

/-!
# The attempt that decides a model call

A call with a time limit makes attempts one after the other, each with the whole time. An attempt is
silent if its time is up before any chunk of it carried something (`Reply.Silent`); this depends on
the reply of the model alone, on when its chunks come and when it ends, with all times counted from
the start of the attempt. A silent attempt leaves nothing but its entry, and the next one starts
from an empty answer at the moment the time was up. The first attempt that is not silent decides the
call: what the call delivers are the events of its chunks, decoded from nothing, and it comes out as
the reply does (`Verdict.result`).
-/

namespace AgentRun

open Assembly (pushAll)

/-! ## What a reply is under a time limit -/

/-- How a reply ends for a call that waits a limited time for it. -/
inductive Verdict where
  /-- The answer is complete. -/
  | complete
  | failed (e : GatewayError)
  | panicked (message : String)
  /-- The time is up before it ends. -/
  | late
  deriving DecidableEq, Repr

namespace Verdict

/-- How a call comes out that is decided by a reply, with the turn that its chunks make. -/
def result (timeoutMs : Nat) (turn : Turn) : Verdict → Except Run.Halt (Option Turn)
  | .complete => .ok (some turn)
  | .failed e => .error (.failed (.gateway e))
  | .panicked m => .error (.panicked m)
  | .late => .error (.failed (.modelStalled timeoutMs))

/-- What is noted of the turn that its chunks make. -/
def noted (request : ModelRequest) (turn : Turn) : Verdict → List Run.Entry
  | .complete => [Run.Entry.answer request turn]
  | _ => []

/-- The reply itself halts the run. -/
inductive Halts : Verdict → Run.Halt → Prop
  | failed (e : GatewayError) : Halts (.failed e) (.failed (.gateway e))
  | panicked (message : String) : Halts (.panicked message) (.panicked message)

theorem Halts.result_eq {v : Verdict} {halt : Run.Halt} (h : v.Halts halt) (timeoutMs : Nat)
    (request : ModelRequest) (turn : Turn) :
    v ≠ .late ∧ v.result timeoutMs turn = .error halt ∧ v.noted request turn = [] := by
  cases h with
  | failed e => exact ⟨Verdict.noConfusion, rfl, rfl⟩
  | panicked message => exact ⟨Verdict.noConfusion, rfl, rfl⟩

end Verdict

/-- The verdict on a stream that ends in time. -/
def StreamEnd.verdict : StreamEnd → Verdict
  | .done => .complete
  | .failed e => .failed e
  | .silent => .late
  | .panicked m => .panicked m

/-- When the chunks of a stream come that begins at a time. -/
def arrivals (start : Nat) : List (Nat × Chunk) → List (Nat × Chunk)
  | [] => []
  | (after, c) :: rest => (start + after, c) :: arrivals (start + after) rest

/-- When the last of them comes. -/
def lastAt (start : Nat) : List (Nat × Chunk) → Nat
  | [] => start
  | (after, _) :: rest => lastAt (start + after) rest

/-- The chunks that come by a time. -/
def arrived (limit start : Nat) (chunks : List (Nat × Chunk)) : List Chunk :=
  ((arrivals start chunks).filter fun c => c.1 ≤ limit).map Prod.snd

namespace Opening

/-- The chunks of a request that is answered. -/
def chunks : Opening → List (Nat × Chunk)
  | .stream s => s.chunks
  | _ => []

/-- When it ends that began at a time. -/
def endsAt (start : Nat) : Opening → Nat
  | .stream s => lastAt start s.chunks + s.endsAfter
  | _ => start

/-- The verdict on a reply that ends in time. -/
def verdict : Opening → Verdict
  | .stream s => s.ending.verdict
  | .refused e => .failed e
  | .panicked m => .panicked m

end Opening

namespace Reply

/-- The chunks that come in time, counted from the start of the attempt. -/
def inTime (limit : Nat) (r : Reply) : List Chunk :=
  match r.after with
  | some opened => arrived limit opened r.opening.chunks
  | none => []

/-- How the reply ends if the attempt has a limited time. -/
def verdict (limit : Nat) (r : Reply) : Verdict :=
  match r.after with
  | some opened => if r.opening.endsAt opened ≤ limit then r.opening.verdict else .late
  | none => .late

/-- The time is up before any chunk carried something. -/
def Silent (limit : Nat) (r : Reply) : Prop :=
  r.verdict limit = .late ∧ ∀ c ∈ r.inTime limit, c.isEmpty = true

instance (limit : Nat) (r : Reply) : Decidable (r.Silent limit) :=
  inferInstanceAs (Decidable (_ ∧ _))

theorem silent_iff {limit : Nat} {r : Reply} : r.Silent limit ↔
    r.verdict limit = .late ∧ (r.inTime limit).any (fun c => !c.isEmpty) = false := by
  simp [Silent]

end Reply

section Arrivals

variable {limit start after : Nat} {c : Chunk} {rest : List (Nat × Chunk)}

theorem le_lastAt (chunks : List (Nat × Chunk)) : start ≤ lastAt start chunks := by
  induction chunks generalizing start with
  | nil => exact Nat.le_refl _
  | cons step chunks ih => exact Nat.le_trans (Nat.le_add_right _ _) ih

theorem Opening.le_endsAt (opening : Opening) : start ≤ opening.endsAt start := by
  cases opening with
  | stream s => exact Nat.le_trans (le_lastAt s.chunks) (Nat.le_add_right _ _)
  | refused e => exact Nat.le_refl _
  | panicked m => exact Nat.le_refl _

theorem le_of_mem_arrivals {x : Nat × Chunk} (h : x ∈ arrivals start rest) : start ≤ x.1 := by
  induction rest generalizing start with
  | nil => exact absurd h List.not_mem_nil
  | cons step rest ih =>
    obtain ⟨after, c⟩ := step
    rcases List.mem_cons.mp h with rfl | h
    · exact Nat.le_add_right _ _
    · have hlater := ih h
      omega

/-- No chunk of a stream that begins too late comes in time. -/
theorem arrived_of_lt (h : limit < start) : arrived limit start rest = [] := by
  have hlate : (arrivals start rest).filter (fun c => c.1 ≤ limit) = [] := by
    refine List.filter_eq_nil_iff.mpr ?_
    intro x hx
    have hcomes : start ≤ x.1 := le_of_mem_arrivals hx
    simp only [decide_eq_true_eq]
    omega
  rw [arrived, hlate]
  rfl

theorem arrived_cons (h : start + after ≤ limit) :
    arrived limit start ((after, c) :: rest) = c :: arrived limit (start + after) rest := by
  simp [arrived, arrivals, h]

/-- When a chunk does not come in time no later one does. -/
theorem arrived_late (h : ¬ start + after ≤ limit) :
    arrived limit start ((after, c) :: rest) = [] := by
  have hrest : arrived limit (start + after) rest = [] := arrived_of_lt (Nat.lt_of_not_le h)
  have hfirst : arrived limit start ((after, c) :: rest) = arrived limit (start + after) rest := by
    simp [arrived, arrivals, h]
  rw [hfirst, hrest]

end Arrivals

/-! ## Chunks that carry nothing -/

namespace Assembly

theorem push_isEmpty (supply : Supply) {c : Chunk} (hc : c.isEmpty = true) (a : Assembly) :
    a.push supply c = ([], { a with finishReason := c.finishReason.or a.finishReason }) := by
  have hvoid (push : String → Assembly → Event × Assembly) {text : Option String}
      (htext : Chunk.isVoid text = true) (a : Assembly) : a.pushText push text = ([], a) := by
    cases text with
    | none => rfl
    | some t =>
      have ht : t = "" := by simpa [Chunk.isVoid] using htext
      simp [pushText, ht, Option.filter]
  simp only [Chunk.isEmpty, Bool.and_eq_true] at hc
  obtain ⟨⟨hcontent, hreasoning⟩, hcalls⟩ := hc
  dsimp only [push]
  rw [hvoid _ hreasoning, hvoid _ hcontent, if_pos hcalls]
  rfl

/-- They give no event and mint no id; at most the reason for the end is noted. -/
theorem pushAll_isEmpty (supply : Supply) {cs : List Chunk} (hcs : ∀ c ∈ cs, c.isEmpty = true)
    (a : Assembly) : (pushAll supply cs a).1 = [] ∧ (pushAll supply cs a).2.minted = a.minted := by
  induction cs generalizing a with
  | nil => exact ⟨rfl, rfl⟩
  | cons c rest ih =>
    have hc := push_isEmpty supply (hcs c List.mem_cons_self) a
    obtain ⟨hevents, hminted⟩ := ih (fun d hd => hcs d (List.mem_cons_of_mem c hd))
      { a with finishReason := c.finishReason.or a.finishReason }
    simp only [pushAll, hc, List.nil_append]
    exact ⟨hevents, hminted⟩

end Assembly

namespace Run

variable {env : Env} {t : List Entry} {l : Ledger} {a : Assembly} {s s' : State}

/-- A client that keeps reading is not gone where a run stands. -/
theorem Stands.not_gone (p : Stands env t l a s) (hreads : env.client.KeepsReading) {halt : Halt} :
    ¬ Gone halt s := by
  intro hgone
  have hthere : s.channel.connected = true := (p.ready.attended hreads).1
  rw [hgone.2] at hthere
  cases hthere

/-- Such a client has been given every event of the trail. -/
theorem Stands.sent_eq (p : Stands env t l a s) (hreads : env.client.KeepsReading) :
    s.channel.sent = eventsOf t := by
  rw [p.ready.sent (p.ready.attended hreads).1, ← State.eventsOf_trail, p.trail]

/-! ## Reading a stream -/

/-- How an attempt comes out under a verdict when its time is up at a time: it ends in time, or it
is told at that time whether anything was heard. -/
inductive EndsBy (v : Verdict) (heard : Bool) (time : Nat) (s : State) : AttemptEnd → Prop
  | complete (hv : v = .complete) : EndsBy v heard time s .complete
  | late (hv : v = .late) (hnow : s.now = time) : EndsBy v heard time s (.timedOut heard)

theorem EndsBy.of_timedOut {v : Verdict} {heard emitted : Bool} {time : Nat}
    (h : EndsBy v heard time s (.timedOut emitted)) :
    heard = emitted ∧ v = .late ∧ s.now = time := by
  cases h with
  | late hv hnow => exact ⟨rfl, hv, hnow⟩

theorem takeChunk_heard (p : Stands env t l a s) (hreads : env.client.KeepsReading) (c : Chunk) :
    Ensures (takeChunk env c) s
      (fun more s' => more = !c.isEmpty ∧ Still s s' ∧
        Stands env (t ++ (a.push env.supply c).1.map .event) l (a.push env.supply c).2 s')
      (fun _ _ => False) := by
  refine ((takeChunk_spec p c).and (takeChunk_still env c s)).mono (fun more s₁ h => ?_)
    (fun halt s₁ h => ?_)
  · obtain ⟨⟨rfl, p₁⟩, hstill⟩ := h
    refine ⟨?_, hstill, p₁⟩
    have hnil := Assembly.push_nil env.supply c a
    rw [Bool.eq_iff_iff]
    simp only [Bool.not_eq_true', ← Bool.not_eq_true, List.isEmpty_iff, hnil]
  · obtain ⟨⟨hgone, done, -, p₁⟩, -⟩ := h
    exact p₁.not_gone hreads hgone

/-- The end of a stream that has run for a while, when all its chunks are taken. -/
theorem streamEnd_inTime (env : Env) {begun spent limit : Nat} (hnow : s.now = begun + spent)
    (hspent : spent ≤ limit) (endsAfter : Nat) (ending : StreamEnd) (emitted : Bool) :
    let v := if spent + endsAfter ≤ limit then ending.verdict else .late
    let Left (s' : State) := s'.world.requests = s.world.requests ∧ Calm env s s'
    Ensures (readStream env (some (begun + limit)) endsAfter ending emitted []) s
      (fun r s' => Left s' ∧ EndsBy v emitted (begun + limit) s' r)
      (fun halt s' => Left s' ∧ v.Halts halt) := by
  intro v Left
  have hdeadline : s.now ≤ begun + limit := by omega
  simp only [readStream, ensures_bind]
  refine (waitFor_onTime Calm.refl hdeadline endsAfter).mono (fun inTime s₁ h => ?_)
    (fun _ _ h => h.elim)
  obtain ⟨hinTime, c, hnow₁, hrequests⟩ := h
  by_cases hends : s.now + endsAfter ≤ begun + limit
  · have hv : v = ending.verdict := if_pos (show spent + endsAfter ≤ limit by omega)
    rw [hinTime, decide_eq_true hends]
    cases ending with
    | done => exact ⟨⟨hrequests, c⟩, .complete hv⟩
    | failed e => exact ⟨⟨hrequests, c⟩, hv ▸ .failed e⟩
    | panicked m => exact ⟨⟨hrequests, c⟩, hv ▸ .panicked m⟩
    | silent =>
      have hdeadline₁ : s₁.now ≤ begun + limit := by omega
      simp only [Bool.not_true, Bool.false_eq_true, if_false, ensures_bind, ensures_pure]
      refine (waitFor_never c hdeadline₁).mono (fun _ s₂ h₂ => ?_) (fun _ _ h₂ => h₂.elim)
      obtain ⟨-, c₂, hnow₂, hrequests₂⟩ := h₂
      exact ⟨⟨hrequests₂.trans hrequests, c₂⟩, .late hv hnow₂⟩
  · have hv : v = .late := if_neg (show ¬ spent + endsAfter ≤ limit by omega)
    rw [hinTime, decide_eq_false hends]
    exact ⟨⟨hrequests, c⟩, .late hv (by omega)⟩

/-- The rest of a stream that has run for a while: what is taken of it are the chunks that come in
time. -/
theorem readStream_inTime (p : Stands env t l a s) (hreads : env.client.KeepsReading)
    {begun spent limit : Nat} (hnow : s.now = begun + spent) (hspent : spent ≤ limit)
    (endsAfter : Nat) (ending : StreamEnd) (emitted : Bool) (rest : List (Nat × Chunk)) :
    let cs := arrived limit spent rest
    let v := if lastAt spent rest + endsAfter ≤ limit then ending.verdict else .late
    let Left (s' : State) := s'.world.requests = s.world.requests ∧
      Stands env (t ++ (pushAll env.supply cs a).1.map .event) l (pushAll env.supply cs a).2 s'
    Ensures (readStream env (some (begun + limit)) endsAfter ending emitted rest) s
      (fun r s' => Left s' ∧
        EndsBy v (emitted || cs.any fun c => !c.isEmpty) (begun + limit) s' r)
      (fun halt s' => Left s' ∧ v.Halts halt) := by
  -- On the steps that are left: each wait either takes the next step in time or is the last one.
  induction rest generalizing t a s emitted spent with
  | nil =>
    intro cs v Left
    have hleft {s' : State} (h : s'.world.requests = s.world.requests ∧ Calm env s s') :
        Left s' := ⟨h.1, by simpa [cs, arrived, arrivals, pushAll] using p.calm h.2⟩
    have hheard : (emitted || cs.any fun c => !c.isEmpty) = emitted := by
      simp [cs, arrived, arrivals]
    rw [hheard]
    exact (streamEnd_inTime env hnow hspent endsAfter ending emitted).mono
      (fun r s₁ h => ⟨hleft h.1, h.2⟩) (fun halt s₁ h => ⟨hleft h.1, h.2⟩)
  | cons step rest ih =>
    obtain ⟨after, c⟩ := step
    intro cs v Left
    have hdeadline : s.now ≤ begun + limit := by omega
    simp only [readStream, ensures_bind]
    refine (waitFor_onTime Calm.refl hdeadline after).mono (fun inTime s₁ h => ?_)
      (fun _ _ h => h.elim)
    obtain ⟨hinTime, calm, hnow₁, hrequests⟩ := h
    by_cases hcomes : s.now + after ≤ begun + limit
    · have hcs : cs = c :: arrived limit (spent + after) rest := arrived_cons (by omega)
      have hnow₁' : s₁.now = begun + (spent + after) := by omega
      rw [hinTime, decide_eq_true hcomes]
      simp only [Bool.not_true, Bool.false_eq_true, if_false, ensures_bind]
      refine (takeChunk_heard (p.calm calm) hreads c).mono (fun more s₂ h₂ => ?_)
        (fun _ _ h₂ => h₂.elim)
      obtain ⟨rfl, hstill, p₂⟩ := h₂
      have hlater := ih p₂ (hstill.now.trans hnow₁') (by omega) (emitted || !c.isEmpty)
      have hleft {s' : State} (h : s'.world.requests = s₂.world.requests ∧
          Stands env (t ++ (a.push env.supply c).1.map .event ++
            (pushAll env.supply (arrived limit (spent + after) rest)
              (a.push env.supply c).2).1.map .event) l
            (pushAll env.supply (arrived limit (spent + after) rest)
              (a.push env.supply c).2).2 s') : Left s' := by
        refine ⟨h.1.trans (hstill.requests.trans hrequests), ?_⟩
        rw [hcs]
        simpa [pushAll] using h.2
      rw [hcs, List.any_cons, ← Bool.or_assoc]
      exact hlater.mono (fun r s₃ h₃ => ⟨hleft h₃.1, h₃.2⟩) (fun halt s₃ h₃ => ⟨hleft h₃.1, h₃.2⟩)
    · have hcs : cs = [] := arrived_late (by omega)
      have hlast : spent + after ≤ lastAt (spent + after) rest := le_lastAt rest
      have hv : v = .late :=
        if_neg (show ¬ lastAt (spent + after) rest + endsAfter ≤ limit by omega)
      rw [hinTime, decide_eq_false hcomes, hcs, List.any_nil, Bool.or_false]
      refine ⟨⟨hrequests, ?_⟩, .late hv (by omega)⟩
      rw [hcs]
      simpa [pushAll] using p.calm calm

/-! ## One attempt -/

theorem attemptAnswer_inTime (p : Stands env t l a s) (hreads : env.client.KeepsReading)
    {request : ModelRequest} {reply : Reply}
    (hreply : env.model.reply s.world.requests request = reply) (limit : Nat) :
    let cs := reply.inTime limit
    let Left (s' : State) := s'.world.requests = s.world.requests ++ [request] ∧
      Stands env (t ++ .attempt s.now request :: (pushAll env.supply cs a).1.map .event) l
        (pushAll env.supply cs a).2 s'
    Ensures (attemptAnswer env request (some limit)) s
      (fun r s' => Left s' ∧
        EndsBy (reply.verdict limit) (cs.any fun c => !c.isEmpty) (s.now + limit) s' r)
      (fun halt s' => Left s' ∧ (reply.verdict limit).Halts halt) := by
  intro cs Left
  simp only [attemptAnswer, ensures_bind, ensures_get, ensures_set, Option.map_some,
    hreply]
  have p₀ := p.note (e := .attempt s.now request) rfl rfl
  have hnow₀ : (s.note (.attempt s.now request)).now = s.now := rfl
  have hrequests₀ : (s.note (.attempt s.now request)).world.requests = s.world.requests := rfl
  generalize s.note (.attempt s.now request) = s₀ at p₀ hnow₀ hrequests₀ ⊢
  have p₁ := p₀.withWorld { s₀.world with requests := s₀.world.requests ++ [request] }
  have hnow₁ : ({ s₀ with world :=
    { s₀.world with requests := s₀.world.requests ++ [request] } } : State).now = s.now := hnow₀
  have hrequests₁ : ({ s₀ with world :=
    { s₀.world with requests := s₀.world.requests ++ [request] } } : State).world.requests =
      s.world.requests ++ [request] := by rw [← hrequests₀]
  generalize ({ s₀ with world :=
    { s₀.world with requests := s₀.world.requests ++ [request] } } : State) = s₁
    at p₁ hnow₁ hrequests₁ ⊢
  have hdeadline : s₁.now ≤ s.now + limit := by omega
  have hunheard {s' : State} (hcs : cs = []) (c : Calm env s₁ s')
      (hr : s'.world.requests = s₁.world.requests) : Left s' := by
    refine ⟨hr.trans hrequests₁, ?_⟩
    rw [hcs]
    exact p₁.calm c
  obtain ⟨_ | opened, opening⟩ := reply
  · -- The request is never taken.
    refine (waitFor_never Calm.refl hdeadline).mono (fun inTime s₂ h => ?_) (fun _ _ h => h.elim)
    obtain ⟨rfl, c, hnow₂, hrequests₂⟩ := h
    exact ⟨hunheard rfl c hrequests₂, .late rfl hnow₂⟩
  · refine (waitFor_onTime Calm.refl hdeadline opened).mono (fun inTime s₂ h => ?_)
      (fun _ _ h => h.elim)
    obtain ⟨hinTime, c, hnow₂, hrequests₂⟩ := h
    have hverdict : Reply.verdict limit ⟨some opened, opening⟩ =
        if opening.endsAt opened ≤ limit then opening.verdict else .late := rfl
    by_cases hopens : opened ≤ limit
    · have hnow : s₂.now = s.now + opened := by omega
      rw [hinTime, decide_eq_true (by omega)]
      simp only [Bool.not_true, Bool.false_eq_true, if_false]
      cases opening with
      | refused e =>
        have hv : Reply.verdict limit ⟨some opened, .refused e⟩ = .failed e :=
          hverdict.trans (if_pos hopens)
        exact ⟨hunheard rfl c hrequests₂, hv ▸ .failed e⟩
      | panicked m =>
        have hv : Reply.verdict limit ⟨some opened, .panicked m⟩ = .panicked m :=
          hverdict.trans (if_pos hopens)
        exact ⟨hunheard rfl c hrequests₂, hv ▸ .panicked m⟩
      | stream stream =>
        have hread := readStream_inTime (p₁.calm c) hreads hnow hopens stream.endsAfter
          stream.ending false stream.chunks
        have hleft {s' : State} (h : s'.world.requests = s₂.world.requests ∧
            Stands env (t ++ [.attempt s.now request] ++ (pushAll env.supply cs a).1.map .event) l
              (pushAll env.supply cs a).2 s') : Left s' :=
          ⟨h.1.trans (hrequests₂.trans hrequests₁), by simpa using h.2⟩
        exact hread.mono (fun r s₃ h => ⟨hleft h.1, h.2⟩) (fun halt s₃ h => ⟨hleft h.1, h.2⟩)
    · have hcs : cs = [] := arrived_of_lt (by omega)
      have hends : opened ≤ opening.endsAt opened := opening.le_endsAt
      have hlate : Reply.verdict limit ⟨some opened, opening⟩ = .late :=
        hverdict.trans (if_neg (by omega))
      rw [hinTime, decide_eq_false (by omega), hcs]
      exact ⟨hunheard hcs c hrequests₂, .late hlate (by omega)⟩

/-- An attempt with a reply that is not silent decides its call: how the call comes out, and what
the attempt leaves but for its entry. -/
structure Decisive (supply : Supply) (k : Nat) (request : ModelRequest) (limit : Nat)
    (reply : Reply) (result : Except Halt (Option Turn)) (left : List Entry) : Prop where
  heard : ¬ reply.Silent limit
  result_eq : result = (reply.verdict limit).result limit
    (pushAll supply (reply.inTime limit) (.start k)).2.turn
  left_eq : left = (pushAll supply (reply.inTime limit) (.start k)).1.map .event ++
    (reply.verdict limit).noted request (pushAll supply (reply.inTime limit) (.start k)).2.turn

/-- The attempt of a number, under a limit of time. Either it decides the call, or its time is up
before anything came and nothing but its entry is left of it. -/
theorem answerInTime_decisive {k : Nat} (p : Stands env t l (.start k) s)
    (hreads : env.client.KeepsReading) {request : ModelRequest} {reply : Reply}
    (hreply : env.model.reply s.world.requests request = reply) {scope : Scope}
    (hlimit : 0 < scope.timeoutMs) (n : Nat) :
    let Decided (result : Except Halt (Option Turn)) (s' : State) := ∃ left a',
      Decisive env.supply k request scope.timeoutMs reply result left ∧
        Stands env (t ++ [.attempt s.now request] ++ left) l a' s'
    Ensures (answerInTime env request scope n) s
      (fun answer s' => match answer with
        | some turn => Decided (.ok (some turn)) s'
        | none => n + 1 < scope.attempts ∧ reply.Silent scope.timeoutMs ∧
          Stands env (t ++ [.attempt s.now request]) l (.start k) s' ∧
          s'.now = s.now + scope.timeoutMs ∧
          s'.world.requests = s.world.requests ++ [request])
      (fun halt s' => Decided (.error halt) s' ∨
        scope.attempts ≤ n + 1 ∧ reply.Silent scope.timeoutMs ∧
          halt = .failed (.modelTimeout scope.timeoutError) ∧
          ∃ a', Stands env (t ++ [.attempt s.now request]) l a' s') := by
  intro Decided
  have hlimit? : scope.timeout? = some scope.timeoutMs := if_neg (Nat.ne_of_gt hlimit)
  have hattempt := attemptAnswer_inTime p hreads hreply scope.timeoutMs
  rw [← hlimit?] at hattempt
  refine ensures_answerInTime (hattempt.mono (fun _ _ h => h) (fun halt s₁ h => ?_))
    (fun s₁ h => ?_) (fun s₁ h => ?_) (fun hleft s₁ h => ?_) (fun hlast s₁ h => ?_)
  · obtain ⟨⟨-, p₁⟩, hhalts⟩ := h
    obtain ⟨hnotLate, hresult, hnoted⟩ := hhalts.result_eq scope.timeoutMs request
      (pushAll env.supply (reply.inTime scope.timeoutMs) (.start k)).2.turn
    have hheard : ¬ reply.Silent scope.timeoutMs := fun h => hnotLate h.1
    exact Or.inl ⟨_, _, ⟨hheard, hresult.symm, rfl⟩, by simpa [hnoted] using p₁⟩
  · obtain ⟨⟨-, p₁⟩, ⟨hv⟩⟩ := h
    have hheard : ¬ reply.Silent scope.timeoutMs := fun h => by cases hv.symm.trans h.1
    have hturn : s₁.assembly.turn =
        (pushAll env.supply (reply.inTime scope.timeoutMs) (.start k)).2.turn :=
      congrArg Assembly.turn p₁.assembly
    rw [hturn]
    have p₂ := p₁.next.note (e := .answer request
      (pushAll env.supply (reply.inTime scope.timeoutMs) (.start k)).2.turn) rfl rfl
    refine ⟨_, _, ⟨hheard, by rw [hv]; rfl, rfl⟩, by simpa [hv, Verdict.noted] using p₂⟩
  · obtain ⟨⟨-, p₁⟩, hends⟩ := h
    obtain ⟨hany, hv, -⟩ := hends.of_timedOut
    have hheard : ¬ reply.Silent scope.timeoutMs := fun h => by
      cases hany.symm.trans (Reply.silent_iff.mp h).2
    exact Or.inl ⟨_, _, ⟨hheard, by rw [hv]; rfl, rfl⟩, by simpa [hv, Verdict.noted] using p₁⟩
  · obtain ⟨⟨hrequests, p₁⟩, hends⟩ := h
    obtain ⟨hany, hv, hnow⟩ := hends.of_timedOut
    have hsilent : reply.Silent scope.timeoutMs := Reply.silent_iff.mpr ⟨hv, hany⟩
    obtain ⟨hevents, hminted⟩ := Assembly.pushAll_isEmpty env.supply hsilent.2 (.start k)
    rw [hevents] at p₁
    have hkept : (pushAll env.supply (reply.inTime scope.timeoutMs) (.start k)).2.minted = k :=
      hminted
    exact ⟨hleft, hsilent, hkept ▸ p₁.next, hnow, hrequests⟩
  · obtain ⟨⟨-, p₁⟩, hends⟩ := h
    obtain ⟨hany, hv, -⟩ := hends.of_timedOut
    have hsilent : reply.Silent scope.timeoutMs := Reply.silent_iff.mpr ⟨hv, hany⟩
    obtain ⟨hevents, -⟩ := Assembly.pushAll_isEmpty env.supply hsilent.2 (.start k)
    rw [hevents] at p₁
    exact Or.inr ⟨hlast, hsilent, rfl, _, p₁⟩

/-! ## The whole call -/

/-- The reply to the attempt of a number, if all attempts make one request. -/
def replyTo (env : Env) (asked : List ModelRequest) (request : ModelRequest) (n : Nat) : Reply :=
  env.model.reply (asked ++ List.replicate n request) request

/-- The entries of the first attempts of a call, of which all but the last used up their time. -/
def tries (request : ModelRequest) (begun limit n : Nat) : List Entry :=
  (List.range n).map fun i => .attempt (begun + i * limit) request

theorem tries_succ (request : ModelRequest) (begun limit n : Nat) :
    tries request begun limit (n + 1) =
      tries request begun limit n ++ [.attempt (begun + n * limit) request] := by
  simp [tries, List.range_succ]

theorem eventsOf_tries (request : ModelRequest) (begun limit n : Nat) :
    eventsOf (tries request begun limit n) = [] := by
  simp [tries, eventsOf, List.filterMap_map, Function.comp_def, Entry.event?]

theorem eventsOf_noted (v : Verdict) (request : ModelRequest) (turn : Turn) :
    eventsOf (v.noted request turn) = [] := by
  cases v <;> rfl

/-- How a call comes out whose attempts get these replies, and what the attempts leave. The first
attempt that is not silent decides it, and if there is none the call has timed out. -/
inductive Decided (supply : Supply) (k begun : Nat) (request : ModelRequest) (scope : Scope)
    (reply : Nat → Reply) : Except Halt (Option Turn) → List Entry → Prop
  | byAttempt {n : Nat} {result : Except Halt (Option Turn)} {left : List Entry}
      (hn : n < scope.attempts) (hbefore : ∀ i < n, (reply i).Silent scope.timeoutMs)
      (hdecides : Decisive supply k request scope.timeoutMs (reply n) result left) :
      Decided supply k begun request scope reply result
        (tries request begun scope.timeoutMs (n + 1) ++ left)
  | bySilence (hsilent : ∀ i < scope.attempts, (reply i).Silent scope.timeoutMs) :
      Decided supply k begun request scope reply
        (.error (.failed (.modelTimeout scope.timeoutError)))
        (tries request begun scope.timeoutMs scope.attempts)

theorem attempts_decided {k begun : Nat} (p : Stands env t l (.start k) s)
    (hreads : env.client.KeepsReading) (hbegun : s.now = begun) {asked : List ModelRequest}
    (hasked : s.world.requests = asked) (request : ModelRequest) {scope : Scope}
    (hlimit : 0 < scope.timeoutMs) :
    let Left (result : Except Halt (Option Turn)) (s' : State) := ∃ u a',
      Decided env.supply k begun request scope (replyTo env asked request) result u ∧
        Stands env (t ++ u) l a' s'
    Ensures (retrying (answerInTime env request scope) scope.attempts 0) s
      (fun answer s' => answer.isSome = true ∧ Left (.ok answer) s')
      (fun halt s' => Left (.error halt) s') := by
  intro Left
  -- After some silent attempts the call is where it was but for their entries and their time.
  refine (ensures_retrying_counted
    (I := fun n s' => n < scope.attempts ∧
      (∀ i < n, (replyTo env asked request i).Silent scope.timeoutMs) ∧
      Stands env (t ++ tries request begun scope.timeoutMs n) l (.start k) s' ∧
      s'.now = begun + n * scope.timeoutMs ∧
      s'.world.requests = asked ++ List.replicate n request)
    (Q := fun turn s' => Left (.ok (some turn)) s')
    (fun n s₁ hn h => ?_) _ 0 s (Nat.zero_add _) ?_).imp (fun answer s₁ h => ?_)
  · obtain ⟨-, hbefore, p₁, hnow, hrequests⟩ := h
    have hreply : env.model.reply s₁.world.requests request = replyTo env asked request n := by
      rw [hrequests, replyTo]
    have hsofar (hsilent : (replyTo env asked request n).Silent scope.timeoutMs) :
        ∀ i < n + 1, (replyTo env asked request i).Silent scope.timeoutMs := by
      intro i hi
      rcases Nat.lt_succ_iff_lt_or_eq.mp hi with hi | rfl
      · exact hbefore i hi
      · exact hsilent
    have hstep := answerInTime_decisive p₁ hreads hreply hlimit n
    rw [hnow, List.append_assoc, ← tries_succ] at hstep
    refine hstep.mono (fun answer s₂ h => ?_) (fun halt s₂ h => ?_)
    · cases answer with
      | some turn =>
        obtain ⟨left, a', hdecides, p₂⟩ := h
        exact ⟨_, a', .byAttempt hn hbefore hdecides, by simpa using p₂⟩
      | none =>
        obtain ⟨hleft, hsilent, p₂, hnow₂, hrequests₂⟩ := h
        refine ⟨hleft, hsofar hsilent, p₂, ?_, ?_⟩
        · rw [hnow₂, Nat.succ_mul, Nat.add_assoc]
        · rw [hrequests₂, hrequests, List.append_assoc, List.replicate_succ']
    · rcases h with ⟨left, a', hdecides, p₂⟩ | ⟨hlast, hsilent, rfl, a', p₂⟩
      · exact ⟨_, a', .byAttempt hn hbefore hdecides, by simpa using p₂⟩
      · have hall : scope.attempts = n + 1 := Nat.le_antisymm hlast hn
        exact ⟨_, a', .bySilence (hall ▸ hsofar hsilent), hall ▸ p₂⟩
  · refine ⟨Scope.attempts_pos scope, fun i hi => absurd hi (Nat.not_lt_zero i), ?_, ?_, ?_⟩
    · simpa [tries] using p
    · simp [hbegun]
    · simp [hasked]
  · cases answer with
    | some turn => exact ⟨rfl, h⟩
    | none => exact absurd h.1 (Nat.lt_irrefl _)

theorem callModel_decided (h : Resting env s) (hreads : env.client.KeepsReading)
    (hunspent : s.spending.modelIsSpent = false) (hlimit : 0 < s.spending.budget.model.timeoutMs)
    (ask : Ask) :
    let request := requestFor env s.history ask
    let Left (result : Except Halt (Option Turn)) (s' : State) := ∃ u l' a',
      Decided env.supply s.assembly.minted s.now request s.spending.budget.model
        (replyTo env s.world.requests request) result u ∧
        Stands env (s.trail ++ .modelCall s.now request :: u) l' a' s'
    Ensures (callModel env ask) s (fun answer s' => Left (.ok answer) s')
      (fun halt s' => Left (.error halt) s') := by
  intro request Left
  obtain ⟨k, p⟩ := h
  have hminted : s.assembly.minted = k := congrArg Assembly.minted p.assembly
  refine ensures_callModel (fun e hdenied => ?_) (fun spending hadmitted => ?_)
  · have hspent := modelIsSpent_of_denied hdenied
    rw [hunspent] at hspent
    cases hspent
  · obtain ⟨-, rfl⟩ := admitModel_eq hadmitted
    have p₁ : Stands env s.trail
        { s.ledger with spending := { s.spending with modelCalls := s.spending.modelCalls + 1 } }
        (.start k)
        { s with spending := { s.spending with modelCalls := s.spending.modelCalls + 1 } } :=
      p.withLedger rfl rfl rfl rfl rfl
    have p₂ := p₁.note (e := .modelCall s.now request) rfl rfl
    refine (attempts_decided p₂ hreads (show _ = s.now from rfl)
      (show _ = s.world.requests from rfl) request hlimit).mono (fun answer s₁ h => ?_)
      (fun halt s₁ h => ?_)
    · obtain ⟨hsome, u, a', hu, p₃⟩ := h
      exact Or.inl ⟨hsome, u, _, a', hminted ▸ hu, by simpa using p₃⟩
    · obtain ⟨u, a', hu, p₃⟩ := h
      exact ⟨u, _, a', hminted ▸ hu, by simpa using p₃⟩

section Whole

variable {engine : Engine} {turn : UserTurn} {world : World} {fuel : Nat} {c : Station}

/-- Wherever a run comes, a model call that the budget admits and whose attempts have a limited time
is decided by the first attempt that is not silent, if its client keeps reading. The call comes out
as the reply to this attempt does; what it delivers, and the turn that it may give, are what the
chunks of this one reply make of an empty answer. If all attempts are silent, as many as there may
be, the call has timed out and delivers nothing. -/
theorem Visits.call_decided (h : Visits engine turn world fuel c s)
    (hreads : turn.client.KeepsReading) (hunspent : s.spending.modelIsSpent = false)
    (hlimit : 0 < s.spending.budget.model.timeoutMs) {ask : Ask}
    {result : Except Halt (Option Turn)}
    (hcall : (callModel (engine.start turn world).1 ask).run s = (result, s')) :
    let request := requestFor (engine.start turn world).1 s.history ask
    let limit := s.spending.budget.model.timeoutMs
    let retries := s.spending.budget.model.retryCount
    let reply (i : Nat) := engine.model.reply (s.world.requests ++ List.replicate i request) request
    let answer (i : Nat) :=
      pushAll engine.supply ((reply i).inTime limit) (.start s.assembly.minted)
    (∃ n ≤ retries, (∀ i < n, (reply i).Silent limit) ∧ ¬ (reply n).Silent limit ∧
        result = ((reply n).verdict limit).result limit (answer n).2.turn ∧
        s'.channel.sent = s.channel.sent ++ (answer n).1 ∧
        s'.trail = s.trail ++ .modelCall s.now request :: tries request s.now limit (n + 1) ++
          (answer n).1.map .event ++
          ((reply n).verdict limit).noted request (answer n).2.turn) ∨
      (∀ i ≤ retries, (reply i).Silent limit) ∧
        result = .error (.failed (.modelTimeout ⟨retries + 1, limit⟩)) ∧
        s'.channel.sent = s.channel.sent ∧
        s'.trail = s.trail ++
          .modelCall s.now request :: tries request s.now limit (retries + 1) := by
  intro request limit retries reply answer
  have hreply : replyTo (engine.start turn world).1 s.world.requests request = reply := rfl
  have hattempts : s.spending.budget.model.attempts = retries + 1 :=
    if_neg (Nat.ne_of_gt hlimit)
  obtain ⟨u, l', a', hu, p'⟩ : ∃ u l' a', Decided engine.supply s.assembly.minted s.now request
      s.spending.budget.model reply result u ∧
      Stands (engine.start turn world).1 (s.trail ++ .modelCall s.now request :: u) l' a' s' := by
    have hspec := (callModel_decided h.resting hreads hunspent hlimit ask).of_run hcall
    cases result with
    | ok answer => exact hspec
    | error halt => exact hspec
  have hsent : s'.channel.sent = s.channel.sent ++ eventsOf u := by
    obtain ⟨k, p⟩ := h.resting
    rw [p'.sent_eq hreads, p.sent_eq hreads, eventsOf_append]
    rfl
  cases hu with
  | @byAttempt n _ left hn hbefore hdecisive =>
    refine Or.inl ⟨n, by omega, hbefore, hdecisive.heard, hdecisive.result_eq, ?_, ?_⟩
    · rw [hsent, hdecisive.left_eq]
      simp only [eventsOf_append, eventsOf_tries, eventsOf_noted, eventsOf_map_event,
        List.nil_append, List.append_nil]
      rfl
    · rw [p'.trail, hdecisive.left_eq]
      simp
      rfl
  | bySilence hsilent =>
    refine Or.inr ⟨fun i hi => hsilent i (by omega), ?_, ?_, hattempts ▸ p'.trail⟩
    · rw [Scope.timeoutError, hattempts]
    · rw [hsent, eventsOf_tries, List.append_nil]

end Whole

/-- A first turn with a tenth of a second for each attempt at a model call, and two retries. -/
def impatient : UserTurn :=
  limited { Budget.unlimited with model := ⟨0, 100, 2⟩ } (firstTurn .oneshot)

/-- A model that says nothing but that its answer is cut off, and answers when asked again. -/
def hesitant : Engine :=
  rehearsal [Script.ofChunks [Chunk.ofFinish "length"] .silent,
    Script.ofChunks (Script.texts ["Hello"]) .done]

/-- The second attempt answers a tenth of a second later, with its own reason for the end. -/
theorem second_attempt_answers :
    let env := (hesitant.start impatient (.new 1)).1
    let s := (hesitant.start impatient (.new 1)).2
    let request := requestFor env s.history ⟨"Answer", [], .auto, none⟩
    let turn : Turn := ⟨"Hello", "", [], some "stop"⟩
    let text : Event := .content (IdKind.block.mint hesitant.supply s.assembly.minted) "Hello"
    ∃ s', (callModel env ⟨"Answer", [], .auto, none⟩).run s = (.ok (some turn), s') ∧
      s'.channel.sent = [text] ∧ s'.trail = [.modelCall 0 request, .attempt 0 request,
        .attempt 100 request, .event text, .answer request turn] := by
  intro env s request turn text
  have hstart : s.world.requests = [] ∧ s.spending.modelIsSpent = false ∧
      s.spending.budget.model = ⟨0, 100, 2⟩ ∧ s.now = 0 ∧ s.channel.sent = [] ∧ s.trail = [] := by
    decide +kernel
  have hfirst : (hesitant.model.reply [] request).Silent 100 := by decide +kernel
  have hsecond : ¬ (hesitant.model.reply [request] request).Silent 100 := by decide +kernel
  have hverdict : (hesitant.model.reply [request] request).verdict 100 = .complete := by
    decide +kernel
  have hanswer : (pushAll hesitant.supply ((hesitant.model.reply [request] request).inTime 100)
      (.start s.assembly.minted)).1 = [text] ∧
      (pushAll hesitant.supply ((hesitant.model.reply [request] request).inTime 100)
        (.start s.assembly.minted)).2.turn = turn := by
    decide +kernel
  obtain ⟨hrequests, hunspent, hmodel, hnow, hsent₀, htrail₀⟩ := hstart
  obtain ⟨hevents, hturn⟩ := hanswer
  have hvisits : Visits hesitant impatient (.new 1) 1 _ s := visits_start _ _ _ _
  rcases hcall : (callModel env ⟨"Answer", [], .auto, none⟩).run s with ⟨result, s'⟩
  have hdecided := hvisits.call_decided Client.reader_keepsReading hunspent (by rw [hmodel]; decide)
    hcall
  simp only [hrequests, hmodel, hnow, hsent₀, htrail₀, List.nil_append] at hdecided
  rcases hdecided with ⟨n, -, hbefore, hheard, hresult, hsent, htrail⟩ | ⟨hsilent, -⟩
  · obtain rfl : n = 1 := by
      rcases Nat.lt_trichotomy n 1 with hlt | heq | hgt
      · obtain rfl : n = 0 := Nat.lt_one_iff.mp hlt
        exact absurd hfirst hheard
      · exact heq
      · exact absurd (hbefore 1 hgt) hsecond
    have hrequest : List.replicate 1 request = [request] := rfl
    rw [hrequest, hverdict, hturn] at hresult
    rw [hrequest, hevents] at hsent
    rw [hrequest, hverdict, hevents, hturn] at htrail
    exact ⟨s', by rw [hresult]; rfl, hsent, htrail⟩
  · exact absurd (hsilent 1 (by decide)) hsecond

end Run

end AgentRun
