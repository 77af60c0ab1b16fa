import AgentRun.Proofs.ModelCall

/-!
# How long waiting takes

The clock of a run moves in one place only: where the run waits for something under a deadline, and
then it moves to the time of that thing or to the deadline, whichever comes first. Nothing that the
client does in between moves it further, and giving an event away takes no time at all, whether or
not there is room for it. The requests of the model stand still in all of this. `Still` says both of
a step that takes no time, and `RunsTo` of a wait until a time.
-/

namespace AgentRun.Run

/-- The clock and the requests of the model stand still. -/
structure Still (s s' : State) : Prop where
  now : s'.now = s.now
  requests : s'.world.requests = s.world.requests

/-- The clock runs to a time, unless it is later already, and the requests stand still. -/
structure RunsTo (time : Nat) (s s' : State) : Prop where
  now : s'.now = max s.now time
  requests : s'.world.requests = s.world.requests

variable {env : Env} {s₀ s s' s'' : State} {time limit : Nat}

theorem Still.refl : Still s s := ⟨rfl, rfl⟩

theorem Still.trans (h : Still s s') (h' : Still s' s'') : Still s s'' :=
  ⟨h'.now.trans h.now, h'.requests.trans h.requests⟩

/-! ## Steps that take no time -/

theorem still_perform (act : ClientAct) (s : State) : Still s (perform act s) := by
  cases act with
  | submit ticket key payload => exact ⟨rfl, rfl⟩
  | leave => exact ⟨rfl, rfl⟩

theorem still_undertake (i : Intent) (s : State) : Still s (undertake i s) := by
  unfold undertake
  cases i.after with
  | none => exact still_perform i.act s
  | some d => exact ⟨rfl, rfl⟩

theorem still_undertakeAll (intents : List Intent) (s : State) :
    Still s (undertakeAll intents s) := by
  unfold undertakeAll
  induction intents generalizing s with
  | nil => exact .refl
  | cons i rest ih => exact (still_undertake i s).trans (ih (undertake i s))

theorem still_takeEvents (env : Env) (n : Nat) (s : State) : Still s (takeEvents env n s) := by
  induction n generalizing s with
  | zero => exact .refl
  | succ n ih =>
    unfold takeEvents
    split
    · exact .refl
    · rename_i c _
      have htaken : Still s { s with channel := c, lastTaken := s.now } := ⟨rfl, rfl⟩
      exact (htaken.trans (still_undertakeAll _ _)).trans (ih _)

theorem still_clientTurn (env : Env) (s : State) : Still s (clientTurn env s) :=
  still_takeEvents env _ s

theorem still_performs (due : List Appointment) (s : State) :
    Still s (due.foldl (fun s a => perform a.act s) s) := by
  induction due generalizing s with
  | nil => exact .refl
  | cons a rest ih => exact (still_perform a.act s).trans (ih (perform a.act s))

theorem still_keepDue (s : State) : Still s (keepDue s) := by
  have hagenda : Still s { s with agenda := s.agenda.dropWhile fun a => a.time ≤ s.now } :=
    ⟨rfl, rfl⟩
  exact hagenda.trans (still_performs _ _)

theorem still_giveWay (env : Env) (s : State) : Still s (giveWay env s) := by
  have hturn : Still s (keepDue (clientTurn env (keepDue s))) :=
    ((still_keepDue s).trans (still_clientTurn env _)).trans (still_keepDue _)
  exact ⟨hturn.now, hturn.requests⟩

theorem still_giveWayIfDue (env : Env) (s : State) : Still s (giveWayIfDue env s) := by
  unfold giveWayIfDue
  split
  · exact .refl
  · exact still_giveWay env s

theorem still_takeStep (env : Env) (s : State) : Still s (takeStep env s) :=
  ⟨(still_giveWayIfDue env s).now, (still_giveWayIfDue env s).requests⟩

theorem still_losePatience (env : Env) (limit : Nat) (s : State) :
    Still s (losePatience env limit s) := by
  unfold losePatience
  cases env.client.patience with
  | none => exact .refl
  | some p =>
    simp only
    split
    · exact ⟨rfl, rfl⟩
    · exact .refl

/-! ## Giving events away -/

theorem still_noteEvent (passed : Bool) (e : Event) (c : Channel) (s : State) :
    Still s (noteEvent passed e c s) := by
  unfold noteEvent
  split <;> exact ⟨rfl, rfl⟩

theorem emit_still (env : Env) (e : Event) (s : State) :
    Ensures (emit env e) s (fun _ s' => Still s s') (fun _ s' => Still s s') := by
  simp only [emit, ensures_bind, ensures_get]
  have hstep : Still s (if s.channel.finished then s else takeStep env s) := by
    split
    · exact .refl
    · exact still_takeStep env s
  generalize (if s.channel.finished then s else takeStep env s) = s₁ at hstep
  rcases s₁.channel.put e with ⟨_ | _ | _, c⟩
  · exact hstep.trans (still_noteEvent _ e c s₁)
  · -- There is no room, and the client gets its turn at once.
    have hfull : Still s₁ { s₁ with channel := c } := ⟨rfl, rfl⟩
    have hturn : Still s₁ (clientTurn env (keepDue { s₁ with channel := c })) :=
      (hfull.trans (still_keepDue _)).trans (still_clientTurn env _)
    simp only
    generalize clientTurn env (keepDue { s₁ with channel := c }) = s₂ at hturn
    have hroom : Still s { s₂ with stretch := 1 } :=
      hstep.trans ⟨hturn.now, hturn.requests⟩
    rcases s₂.channel.enqueue e with ⟨_ | _ | _, c₂⟩
    · exact hroom.trans (still_noteEvent false e c₂ _)
    · exact hroom.trans ⟨rfl, rfl⟩
    · exact hroom.trans ⟨rfl, rfl⟩
  · simp only [ensures_bind, ensures_set, ensures_fail]
    exact hstep.trans ⟨rfl, rfl⟩

theorem emitAll_still (env : Env) (es : List Event) (s : State) :
    Ensures (emitAll env es) s (fun _ s' => Still s s') (fun _ s' => Still s s') := by
  refine ensures_emitAll (I := fun _ s' => Still s s') .refl (fun _ e s₁ _ h₁ => ?_)
  exact (emit_still env e s₁).mono (fun _ _ h₂ => h₁.trans h₂) (fun _ _ h₂ => h₁.trans h₂)

theorem takeChunk_still (env : Env) (c : Chunk) (s : State) :
    Ensures (takeChunk env c) s (fun _ s' => Still s s') (fun _ s' => Still s s') :=
  ensures_takeChunk ((emitAll_still env _ _).mono (fun _ _ h => ⟨h.now, h.requests⟩)
    (fun _ _ h => ⟨h.now, h.requests⟩))

/-! ## Waits -/

/-- An appointment that is kept moves the clock no further than it may. -/
theorem keepNext_within (h : keepNext? limit s = some s') :
    s.now ≤ s'.now ∧ s'.now ≤ max s.now limit ∧ s'.world.requests = s.world.requests := by
  unfold keepNext? at h
  split at h
  · rename_i a _ _
    split at h
    · rename_i hdue
      cases h
      have hstill := still_keepDue (s.reach a.time)
      have hnow : (keepDue (s.reach a.time)).now = max s.now a.time := hstill.now
      exact ⟨by omega, by omega, hstill.requests⟩
    · cases h
  · cases h

theorem keepAppointments_within (limit n : Nat) (s : State) :
    s.now ≤ (keepAppointments limit n s).now ∧
      (keepAppointments limit n s).now ≤ max s.now limit ∧
      (keepAppointments limit n s).world.requests = s.world.requests := by
  induction n generalizing s with
  | zero => exact ⟨Nat.le_refl _, Nat.le_max_left _ _, rfl⟩
  | succ n ih =>
    unfold keepAppointments
    cases hnext : keepNext? limit s with
    | none => exact ⟨Nat.le_refl _, Nat.le_max_left _ _, rfl⟩
    | some s₁ =>
      obtain ⟨hlow, hhigh, hrequests⟩ := keepNext_within hnext
      obtain ⟨hlow', hhigh', hrequests'⟩ := ih s₁
      exact ⟨by simp only; omega, by simp only; omega, hrequests'.trans hrequests⟩

theorem passTime_runsTo (env : Env) (time : Nat) (s : State) :
    RunsTo time s (passTime env time s) := by
  have hgive := still_giveWay env s
  generalize hs₁ : giveWay env s = s₁ at hgive
  obtain ⟨hlow, hhigh, hrequests⟩ := keepAppointments_within time s₁.agenda.length s₁
  have hlose := still_losePatience env time (keepAppointments time s₁.agenda.length s₁)
  have hpass : passTime env time s =
      (losePatience env time (keepAppointments time s₁.agenda.length s₁)).reach time := by
    rw [← hs₁]
    rfl
  rw [hpass]
  refine ⟨?_, hlose.requests.trans (hrequests.trans hgive.requests)⟩
  show max (losePatience env time (keepAppointments time s₁.agenda.length s₁)).now time = _
  rw [hlose.now, ← hgive.now]
  omega

theorem pause_runsTo (env : Env) (time : Nat) (s : State) :
    RunsTo time s (pause env time s) := by
  unfold pause
  by_cases hwaits : s.now < time
  · rw [if_pos hwaits]
    have hpassed := passTime_runsTo env time s
    have hstep := still_takeStep env (passTime env time s)
    exact ⟨hstep.now.trans hpassed.now, hstep.requests.trans hpassed.requests⟩
  · rw [if_neg hwaits]
    have hstep := still_takeStep env s
    exact ⟨hstep.now.trans (by omega), hstep.requests⟩

/-- A wait under a deadline that is not over comes back: at the time when what it waits for is
ready, if that is not behind the deadline, and else at the deadline. -/
theorem waitFor_onTime (c : Calm env s₀ s) (hdeadline : s.now ≤ limit) (d : Nat) :
    Ensures (waitFor env (some d) (some limit)) s
      (fun inTime s' => inTime = decide (s.now + d ≤ limit) ∧ Calm env s₀ s' ∧
        s'.now = min (s.now + d) limit ∧ s'.world.requests = s.world.requests)
      (fun _ _ => False) := by
  suffices hclock : Ensures (waitFor env (some d) (some limit)) s
      (fun inTime s' => inTime = decide (s.now + d ≤ limit) ∧
        s'.now = min (s.now + d) limit ∧ s'.world.requests = s.world.requests)
      (fun _ _ => False) by
    exact ((waitFor_spec c (some d) _).and hclock).mono
      (fun _ _ ⟨calm, hinTime, hends⟩ => ⟨hinTime, calm, hends⟩) (fun _ _ h => h.2)
  unfold waitFor
  simp only [ensures_bind, ensures_get]
  cases d with
  | zero =>
    have hready : decide (s.now + 0 ≤ limit) = true := decide_eq_true hdeadline
    simp only [ensures_pure]
    exact ⟨hready.symm, (Nat.min_eq_left hdeadline).symm, trivial⟩
  | succ d =>
    have hpause := pause_runsTo env (min (s.now + (d + 1)) limit) s
    have hnow : (pause env (min (s.now + (d + 1)) limit) s).now = min (s.now + (d + 1)) limit := by
      rw [hpause.now]
      omega
    simp only [ensures_bind, ensures_set, ensures_pure, true_and]
    exact ⟨hnow, hpause.requests⟩

/-- What never comes is waited for until the deadline. -/
theorem waitFor_never (c : Calm env s₀ s) (hdeadline : s.now ≤ limit) :
    Ensures (waitFor env none (some limit)) s
      (fun inTime s' => inTime = false ∧ Calm env s₀ s' ∧ s'.now = limit ∧
        s'.world.requests = s.world.requests)
      (fun _ _ => False) := by
  suffices hclock : Ensures (waitFor env none (some limit)) s
      (fun inTime s' => inTime = false ∧ s'.now = limit ∧ s'.world.requests = s.world.requests)
      (fun _ _ => False) by
    exact ((waitFor_spec c none _).and hclock).mono
      (fun _ _ ⟨calm, hinTime, hends⟩ => ⟨hinTime, calm, hends⟩) (fun _ _ h => h.2)
  have hpause := pause_runsTo env limit s
  have hnow : (pause env limit s).now = limit := by
    rw [hpause.now]
    exact Nat.max_eq_right hdeadline
  unfold waitFor
  simp only [ensures_bind, ensures_get, ensures_set, ensures_pure, true_and]
  exact ⟨hnow, hpause.requests⟩

end AgentRun.Run
