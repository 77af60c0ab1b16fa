import Mathlib.Data.Set.Function
import Mathlib.Order.Interval.Set.Defs
import AgentRun.Proofs.WholeRun

/-!
# How a run ends

A run that has ended gave its client the events of its stages, none of which is a `finish`, then an
apology if the stages ended badly, and then one `finish`. The apology stands in a block that was not
used before: the texts of a run are in minted blocks, and the block of the apology is minted last.
-/

namespace AgentRun.Run

variable {engine : Engine} {turn : UserTurn} {world : World} {fuel : Nat}

/-- The stages of a run ended because the client did not answer in time. -/
def TimedOut (stages : Except Halt Unit) : Prop :=
  ∃ tool timeoutMs, stages = .error (.failed (.frontendTimeout tool timeoutMs))

theorem neverEnds_iff {stages : Except Halt Unit} :
    neverEnds stages = true ↔ stages = .error .stuck ∨ stages = .error .cut := by
  rcases stages with (_ | _ | _ | _) | _ <;> simp [neverEnds]

/-- A halt that ends a run with its client there is apologised for. -/
theorem apology?_of_ends {h : Halt} (hends : neverEnds (.error h) = false)
    (hthere : h ≠ .failed .consumerGone) :
    ∃ message reason, apology? h = some (message, reason) ∧
      (reason = .timeout ↔ TimedOut (.error h)) ∧
      (TimedOut (.error h) → message = frontendTimeoutMessage) ∧
      (¬TimedOut (.error h) → message = genericFailureMessage) := by
  cases h with
  | failed e =>
    cases e with
    | frontendTimeout tool timeoutMs =>
      have out : TimedOut (.error (.failed (.frontendTimeout tool timeoutMs))) := ⟨_, _, rfl⟩
      exact ⟨_, _, rfl, ⟨fun _ => out, fun _ => rfl⟩, fun _ => rfl, fun h => absurd out h⟩
    | consumerGone => exact absurd rfl hthere
    | _ => exact ⟨_, _, rfl, by simp [TimedOut], by simp [TimedOut], fun _ => rfl⟩
  | panicked m => exact ⟨_, _, rfl, by simp [TimedOut], by simp [TimedOut], fun _ => rfl⟩
  | stuck => cases hends
  | cut => cases hends

/-- Minted names of one kind are as different as the UUIDs in them. -/
theorem mint_injOn {supply : Supply} {n i j : Nat} {kind : IdKind}
    (h : Set.InjOn supply (Set.Iio n)) (hi : i < n) (hj : j < n)
    (hij : kind.mint supply i = kind.mint supply j) : i = j :=
  h hi hj ((String.append_right_inj _).mp hij)

/-- A run has ended unless it waits for ever. The events that it delivered are those of its stages,
an apology if they ended badly, and one `finish` behind them. -/
theorem ended_run_delivers (engine : Engine) (turn : UserTurn) (world : World) (fuel : Nat)
    (hreads : turn.client.KeepsReading)
    (hids : Set.InjOn engine.supply
      (Set.Iio (engine.run turn world fuel).final.assembly.minted)) :
    let o := engine.run turn world fuel
    let body := (afterStages engine turn world fuel).events
    (o.ended = true ↔ o.stages ≠ .error .stuck ∧ o.stages ≠ .error .cut) ∧
    (o.ended = true → ∃ apology reason,
      o.delivered = body ++ apology ++ [.finish reason] ∧
      (∀ e ∈ body ++ apology, e.isFinish = false) ∧
      (reason = .timeout ↔ TimedOut o.stages) ∧
      (o.stages = .ok () → apology = []) ∧
      (∀ h, o.stages = .error h → ∃ block message, apology = [.content block message] ∧
        (TimedOut o.stages → message = frontendTimeoutMessage) ∧
        (¬TimedOut o.stages → message = genericFailureMessage) ∧
        ∀ e ∈ body, e.block? ≠ some block)) := by
  intro o body
  obtain ⟨t, l, a, h⟩ := ran engine turn world fuel
  have hended : o.ended = !neverEnds o.stages := h.ended
  have hdelivered : o.delivered = body ++
    endingOf (IdKind.block.mint engine.supply a.minted) o.stages := h.delivered_eq hreads
  refine ⟨by simp [hended, ← not_or, ← neverEnds_iff], fun hend => ?_⟩
  have hbody : ∀ e ∈ body, e.isFinish = false := h.stands.ready.unfinished
  have hends : neverEnds o.stages = false := by simpa [hended] using hend
  cases hstages : o.stages with
  | ok _ =>
    refine ⟨[], .stop, ?_, by simpa using hbody, by simp [TimedOut], fun _ => rfl,
      fun _ h => by cases h⟩
    rw [hdelivered, hstages, List.append_nil]
    rfl
  | error halt =>
    rw [hstages] at hends
    have hthere : halt ≠ .failed .consumerGone := fun hh => h.read hreads (hh ▸ hstages)
    obtain ⟨message, reason, happ, hreason, hout, hin⟩ := apology?_of_ends hends hthere
    have hending : endingOf (IdKind.block.mint engine.supply a.minted) o.stages =
        [.content (IdKind.block.mint engine.supply a.minted) message, .finish reason] := by
      simp [hstages, endingOf, happ]
    refine ⟨[.content (IdKind.block.mint engine.supply a.minted) message], reason, ?_, ?_, hreason,
      (fun h => by cases h), fun _ _ => ⟨_, message, rfl, hout, hin, ?_⟩⟩
    · rw [hdelivered, hending, List.append_assoc]
      rfl
    · intro e he
      rcases List.mem_append.mp he with he | he
      · exact hbody e he
      · obtain rfl := List.mem_singleton.mp he
        rfl
    · -- The block was minted after all blocks of the stages.
      obtain ⟨texts, minted, hfinal, hm⟩ := h.final_ended hreads
      have hlt : a.minted < minted := hm _ message (by
        rw [show (engine.run turn world fuel).stages = o.stages from rfl, hending]
        exact List.mem_cons_self ..)
      rw [hfinal.minted] at hids
      intro e he hblock
      obtain ⟨i, hi, heq⟩ := h.stands.ready.texts e he _ hblock
      rw [h.stands.assembly] at hi
      exact absurd (mint_injOn hids hlt (Nat.lt_trans hi hlt) heq) (Nat.ne_of_gt hi)

/-- An answer that is interrupted in its course. -/
def interrupted : Reply :=
  Script.ofChunks [Chunk.ofContent "Well"] (.failed (.streamInterrupted "reset"))

/-- A run whose model breaks off in the middle of an answer. -/
theorem interrupted_run_delivers :
    ∃ block, ((rehearsal [interrupted]).run (firstTurn .react) (.new 1) 0).delivered =
      [.content (IdKind.block.mint (Uuid.timed 0) 2) "Well",
        .content block genericFailureMessage, .finish .stop] := by
  have minted : ((rehearsal [interrupted]).run (firstTurn .react) (.new 1) 0).final.assembly.minted
      = 4 := by decide +kernel
  have distinct : ∀ i < 4, ∀ j < 4, Uuid.timed 0 i = Uuid.timed 0 j → i = j := by decide
  have stages : ((rehearsal [interrupted]).run (firstTurn .react) (.new 1) 0).stages =
      .error (.failed (.gateway (.streamInterrupted "reset"))) := by decide +kernel
  have body : (afterStages (rehearsal [interrupted]) (firstTurn .react) (.new 1) 0).events =
      [.content (IdKind.block.mint (Uuid.timed 0) 2) "Well"] := by decide +kernel
  have inTime : ¬TimedOut (.error (.failed (.gateway (.streamInterrupted "reset")))) := by
    simp [TimedOut]
  obtain ⟨hended, hdelivers⟩ := ended_run_delivers (rehearsal [interrupted]) (firstTurn .react)
    (.new 1) 0 Client.reader_keepsReading (by
      rw [minted]
      exact fun i hi j hj hij => distinct i hi j hj hij)
  rw [stages] at hended hdelivers
  obtain ⟨apology, reason, hdelivered, -, hreason, -, hfailed⟩ :=
    hdelivers (hended.mpr ⟨by simp, by simp⟩)
  obtain ⟨block, message, rfl, -, hmessage, -⟩ := hfailed _ rfl
  obtain rfl := hmessage inTime
  have hstop : reason = .stop := by
    cases reason with
    | stop => rfl
    | timeout => exact absurd (hreason.mp rfl) inTime
  exact ⟨block, by rw [hdelivered, body, hstop]; rfl⟩

end AgentRun.Run
