import AgentRun.Rendezvous
import Mathlib.Data.List.Nodup

/-!
# The registry of waits

What holds of a registry whatever was done to it (`Sound`): a slot belongs to a wait that is held,
no two slots have the same key, and a wait that is held has either its slot or a payload.
Registration, submission and release keep it so, and for such a registry it is told what each of
them does.
-/

namespace AgentRun

namespace Rendezvous

variable {r : Rendezvous} {h h' : Handle} {key : WaitKey} {payload : Json}

/-- What holds of a registry at all times. -/
structure Sound (r : Rendezvous) : Prop where
  slots_held : ∀ h ∈ r.slots, h ∈ r.held
  keys : (r.slots.map Handle.key).Nodup
  tokens : (r.held.map Handle.token).Nodup
  fresh : ∀ h ∈ r.held, h.token < r.nextToken
  /-- Whoever is held without a slot has a payload, and nobody else has one. -/
  answered : ∀ h ∈ r.held, h ∉ r.slots ↔ (r.received? h).isSome
  mail_held : ∀ m ∈ r.mail, ∃ h ∈ r.held, h.token = m.1

theorem slot_mem (hs : r.slot? key = some h) : h ∈ r.slots ∧ h.key = key := by
  have hkey := List.find?_some hs
  exact ⟨List.mem_of_find?_eq_some hs, by simpa using hkey⟩

theorem slot_eq_none : r.slot? key = none ↔ ∀ h ∈ r.slots, h.key ≠ key := by
  simp [slot?]

theorem isPending_iff : r.isPending key = true ↔ ∃ h ∈ r.slots, h.key = key := by
  simp [isPending, slot?]

theorem lookup_filter {mail : List (Nat × Json)} {t u : Nat} :
    (mail.filter fun m => m.1 != t).lookup u = if u = t then none else mail.lookup u := by
  induction mail with
  | nil => simp
  | cons m mail ih =>
    obtain ⟨n, payload⟩ := m
    by_cases hu : u = n
    · subst hu
      by_cases ht : u = t
      · simp [ht] at ih ⊢
        exact ih
      · simp [ht]
    · have hbeq : (u == n) = false := by simp [hu]
      by_cases hn : n = t
      · subst hn
        simpa [hbeq, List.lookup_cons, hu] using ih
      · simpa [hn, hbeq, List.lookup_cons] using ih

theorem register_eq (key : WaitKey) :
    r.register key =
      if r.isPending key then
        (.error (.alreadyPending key.runId key.callId), { r with nextToken := r.nextToken + 1 })
      else
        (.ok ⟨key, r.nextToken⟩,
          { r with
            slots := ⟨key, r.nextToken⟩ :: r.slots
            held := ⟨key, r.nextToken⟩ :: r.held
            nextToken := r.nextToken + 1 }) := by
  unfold register
  split <;> rfl

theorem register_free (hfree : r.isPending key = false) :
    ∃ r', r.register key = (.ok ⟨key, r.nextToken⟩, r') ∧ ⟨key, r.nextToken⟩ ∈ r'.held := by
  rw [register_eq, hfree]
  exact ⟨_, rfl, List.mem_cons_self⟩

theorem held_of_register {h : Handle} {r' : Rendezvous} (hreg : r.register key = (.ok h, r')) :
    h ∈ r'.held := by
  rw [register_eq] at hreg
  split at hreg
  · cases hreg
  · cases hreg
    exact List.mem_cons_self

namespace Sound

theorem empty : Sound empty where
  slots_held := by simp [Rendezvous.empty]
  keys := List.nodup_nil
  tokens := List.nodup_nil
  fresh := by simp [Rendezvous.empty]
  answered := by simp [Rendezvous.empty]
  mail_held := by simp [Rendezvous.empty]

theorem slot_unique (hr : Sound r) (hh : h ∈ r.slots) (hh' : h' ∈ r.slots)
    (hkey : h.key = h'.key) : h = h' :=
  List.inj_on_of_nodup_map hr.keys hh hh' hkey

theorem held_unique (hr : Sound r) (hh : h ∈ r.held) (hh' : h' ∈ r.held)
    (htoken : h.token = h'.token) : h = h' :=
  List.inj_on_of_nodup_map hr.tokens hh hh' htoken

theorem slot_eq_some (hr : Sound r) : r.slot? key = some h ↔ h ∈ r.slots ∧ h.key = key := by
  refine ⟨slot_mem, ?_⟩
  rintro ⟨hh, rfl⟩
  cases hs : r.slot? h.key with
  | none => exact absurd rfl (slot_eq_none.mp hs h hh)
  | some h' =>
    obtain ⟨hh', hkey⟩ := slot_mem hs
    rw [hr.slot_unique hh' hh hkey]

theorem received_none_of_slot (hr : Sound r) (hh : h ∈ r.slots) : r.received? h = none := by
  have := (hr.answered h (hr.slots_held h hh)).not
  simpa [hh] using this

/-- The number of the next registration is nobody's yet. -/
theorem next_unused (hr : Sound r) (hh : h ∈ r.held) : h.token ≠ r.nextToken :=
  Nat.ne_of_lt (hr.fresh h hh)

theorem next_unmailed (hr : Sound r) : r.mail.lookup r.nextToken = none := by
  rw [List.lookup_eq_none_iff]
  intro m hm
  obtain ⟨h, hh, htoken⟩ := hr.mail_held m hm
  have := hr.next_unused hh
  simpa [← htoken] using this.symm

/-! ## Registration -/

theorem after_register (hr : Sound r) (key : WaitKey) : Sound (r.register key).2 := by
  rw [register_eq]
  by_cases hp : r.isPending key
  · simp only [hp, if_true]
    exact { hr with fresh := fun h hh => Nat.lt_succ_of_lt (hr.fresh h hh) }
  · simp only [hp]
    have hfree : ∀ h ∈ r.slots, h.key ≠ key := fun h hh hk => hp (isPending_iff.mpr ⟨h, hh, hk⟩)
    refine ⟨?_, ?_, ?_, ?_, ?_, ?_⟩
    · intro h hh
      rcases List.mem_cons.mp hh with rfl | hh
      · exact List.mem_cons_self
      · exact List.mem_cons_of_mem _ (hr.slots_held h hh)
    · simpa using ⟨hfree, hr.keys⟩
    · simpa using ⟨fun h hh => hr.next_unused hh, hr.tokens⟩
    · intro h hh
      rcases List.mem_cons.mp hh with rfl | hh
      · exact Nat.lt_succ_self _
      · exact Nat.lt_succ_of_lt (hr.fresh h hh)
    · intro h hh
      rcases List.mem_cons.mp hh with rfl | hh
      · simp [received?, hr.next_unmailed]
      · have hne : h ≠ ⟨key, r.nextToken⟩ := fun he => hr.next_unused hh (he ▸ rfl)
        simpa [hne, received?] using hr.answered h hh
    · intro m hm
      obtain ⟨h, hh, htoken⟩ := hr.mail_held m hm
      exact ⟨h, List.mem_cons_of_mem _ hh, htoken⟩

/-! ## Submission -/

/-- Whoever has a slot is there to take a payload. -/
theorem submit_eq (hr : Sound r) (key : WaitKey) (payload : Json) :
    r.submit key payload =
      match r.slot? key with
      | none => (.notPending, r)
      | some h =>
        (.ok, { r with
          slots := r.slots.filter (· != h)
          mail := (h.token, payload) :: r.mail }) := by
  unfold submit
  cases hs : r.slot? key with
  | none => rfl
  | some h =>
    have hheld := hr.slots_held h (slot_mem hs).1
    simp [hheld]

theorem after_submit (hr : Sound r) (key : WaitKey) (payload : Json) :
    Sound (r.submit key payload).2 := by
  rw [hr.submit_eq]
  cases hs : r.slot? key with
  | none => exact hr
  | some h =>
    obtain ⟨hslot, -⟩ := slot_mem hs
    have hheld := hr.slots_held h hslot
    refine { hr with slots_held := ?_, keys := ?_, answered := ?_, mail_held := ?_ }
    · intro h' hh'
      exact hr.slots_held h' (List.mem_of_mem_filter hh')
    · exact hr.keys.sublist (List.filter_sublist.map _)
    · intro h' hh'
      by_cases he : h' = h
      · simp [he, received?]
      · have htoken : h'.token ≠ h.token := fun ht => he (hr.held_unique hh' hheld ht)
        have hbeq : (h'.token == h.token) = false := by simp [htoken]
        have := hr.answered h' hh'
        simpa [he, received?, List.lookup_cons, hbeq] using this
    · intro m hm
      rcases List.mem_cons.mp hm with rfl | hm
      · exact ⟨h, hheld, rfl⟩
      · exact hr.mail_held m hm

theorem submit_slots (hr : Sound r) (key : WaitKey) (payload : Json) :
    h ∈ (r.submit key payload).2.slots ↔ h ∈ r.slots ∧ h.key ≠ key := by
  rw [hr.submit_eq]
  cases hs : r.slot? key with
  | none =>
    have hfree := slot_eq_none.mp hs
    exact ⟨fun hh => ⟨hh, hfree h hh⟩, And.left⟩
  | some h' =>
    obtain ⟨hslot, hkey⟩ := slot_mem hs
    simp only [List.mem_filter, bne_iff_ne]
    refine and_congr_right fun hh => not_congr ⟨fun he => he ▸ hkey, fun he => ?_⟩
    exact hr.slot_unique hh hslot (he.trans hkey.symm)

theorem submit_accepted (hr : Sound r) (key : WaitKey) (payload : Json) :
    (r.submit key payload).1.accepted = true ↔ ∃ h ∈ r.slots, h.key = key := by
  rw [hr.submit_eq]
  cases hs : r.slot? key with
  | none => simpa [SubmitAck.notPending] using slot_eq_none.mp hs
  | some h => simpa [SubmitAck.ok] using ⟨h, slot_mem hs⟩

theorem submit_held (hr : Sound r) (key : WaitKey) (payload : Json) :
    (r.submit key payload).2.held = r.held ∧
      (r.submit key payload).2.nextToken = r.nextToken := by
  rw [hr.submit_eq]
  cases r.slot? key <;> exact ⟨rfl, rfl⟩

/-- A payload goes to the wait whose slot it found, and to no other. -/
theorem received_submit (hr : Sound r) (hh : h ∈ r.held) (key : WaitKey) (payload : Json) :
    (r.submit key payload).2.received? h =
      if h.key = key ∧ h ∈ r.slots then some payload else r.received? h := by
  rw [hr.submit_eq]
  cases hs : r.slot? key with
  | none =>
    have hfree := slot_eq_none.mp hs
    have hn : ¬ (h.key = key ∧ h ∈ r.slots) := fun ⟨hk, hslot⟩ => hfree h hslot hk
    simp [hn]
  | some h' =>
    obtain ⟨hslot, hkey⟩ := slot_mem hs
    by_cases he : h = h'
    · subst he
      simp [received?, hkey, hslot]
    · have hn : ¬ (h.key = key ∧ h ∈ r.slots) :=
        fun ⟨hk, hin⟩ => he (hr.slot_unique hin hslot (hk.trans hkey.symm))
      have htoken : (h.token == h'.token) = false := by
        simpa using fun ht => he (hr.held_unique hh (hr.slots_held h' hslot) ht)
      simp [received?, List.lookup_cons, htoken, hn]

/-! ## Release -/

theorem after_release (hr : Sound r) (hheld : h ∈ r.held) : Sound (r.release h) := by
  have htoken : ∀ h' ∈ r.held, h' ≠ h → h'.token ≠ h.token :=
    fun h' hh' hne ht => hne (hr.held_unique hh' hheld ht)
  refine ⟨?_, ?_, ?_, ?_, ?_, ?_⟩
  · intro h' hh'
    simp only [release, List.mem_filter] at hh' ⊢
    exact ⟨hr.slots_held h' hh'.1, hh'.2⟩
  · exact hr.keys.sublist (List.filter_sublist.map _)
  · exact hr.tokens.sublist (List.filter_sublist.map _)
  · intro h' hh'
    exact hr.fresh h' (List.mem_of_mem_filter hh')
  · intro h' hh'
    simp only [release, List.mem_filter, bne_iff_ne] at hh' ⊢
    have ht := htoken h' hh'.1 hh'.2
    have := hr.answered h' hh'.1
    simpa [received?, lookup_filter, ht, hh'.2] using this
  · intro m hm
    simp only [release, List.mem_filter, bne_iff_ne] at hm ⊢
    obtain ⟨h', hh', ht⟩ := hr.mail_held m hm.1
    exact ⟨h', ⟨hh', fun he => hm.2 (he ▸ ht.symm)⟩, ht⟩

/-- What there is for a wait that is held: its payload, if it was handed one. -/
theorem look_of_held (hr : Sound r) (hh : h ∈ r.held) :
    r.look? h = (r.received? h).map .ok := by
  unfold look?
  cases hm : r.received? h with
  | some payload => rfl
  | none =>
    have hslot : h ∈ r.slots := by
      by_contra hn
      have := (hr.answered h hh).mp hn
      simp [hm] at this
    simp [hslot]

end Sound

end Rendezvous

end AgentRun
