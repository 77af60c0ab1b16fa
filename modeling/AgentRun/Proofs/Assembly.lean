import AgentRun.Proofs.Journal

/-!
# What chunks add to an answer

A chunk adds to the answer and gives events at the same time. `Assembly.Grew supply a es a'` says
what is true of any answer `a'` that was made from `a` while the events `es` were given: the count
of minted names has not gone down, the blocks of the events and the open blocks are minted ones, the
events are pieces of an answer and nothing else, and each call that is new has a piece among them.
-/

namespace AgentRun

/-- A block that was minted before the count reached `n`. -/
def MintedBelow (supply : Supply) (n : Nat) (block : String) : Prop :=
  ∃ k < n, block = IdKind.block.mint supply k

theorem MintedBelow.mono {supply : Supply} {n m : Nat} {block : String}
    (h : MintedBelow supply n block) (hnm : n ≤ m) : MintedBelow supply m block := by
  obtain ⟨k, hk, rfl⟩ := h
  exact ⟨k, Nat.lt_of_lt_of_le hk hnm, rfl⟩

/-- Whether an event is a piece of an answer of the model. -/
def Event.isPiece : Event → Bool
  | .content _ _ => true
  | .reasoning _ _ => true
  | .toolCall _ => true
  | _ => false

namespace Assembly

/-- A block of text or of reasoning is open. -/
def IsOpen (a : Assembly) (block : String) : Prop :=
  a.contentBlock = some block ∨ a.reasoningBlock = some block

/-- The open blocks are minted ones. -/
def BlocksMinted (supply : Supply) (a : Assembly) : Prop :=
  ∀ block, a.IsOpen block → MintedBelow supply a.minted block

/-- What became of an answer while events were given. -/
structure Grew (supply : Supply) (a : Assembly) (es : List Event) (a' : Assembly) : Prop where
  minted : a.minted ≤ a'.minted
  blocks : a.BlocksMinted supply → a'.BlocksMinted supply
  texts : a.BlocksMinted supply →
    ∀ e ∈ es, ∀ block, e.block? = some block → MintedBelow supply a'.minted block
  pieces : ∀ e ∈ es, e.isPiece = true
  shown : ∀ c ∈ a'.calls, (∃ d ∈ a.calls, d.id = c.id) ∨ ∃ e ∈ es, e.pieceId? = some c.id

/-- The events of several chunks and what they make of an answer. -/
def pushAll (supply : Supply) : List Chunk → Assembly → List Event × Assembly
  | [], a => ([], a)
  | c :: rest, a =>
    let (events, a) := a.push supply c
    let (more, a) := pushAll supply rest a
    (events ++ more, a)

variable {supply : Supply} {a a' b : Assembly} {es fs : List Event}

namespace Grew

theorem refl : Grew supply a [] a where
  minted := Nat.le_refl _
  blocks := id
  texts := fun _ _ he => absurd he List.not_mem_nil
  pieces := fun _ he => absurd he List.not_mem_nil
  shown := fun c hc => Or.inl ⟨c, hc, rfl⟩

theorem trans (h : Grew supply a es a') (h' : Grew supply a' fs b) :
    Grew supply a (es ++ fs) b where
  minted := Nat.le_trans h.minted h'.minted
  blocks := h'.blocks ∘ h.blocks
  texts := fun ha e he block hb => by
    rcases List.mem_append.mp he with he | he
    · exact (h.texts ha e he block hb).mono h'.minted
    · exact h'.texts (h.blocks ha) e he block hb
  pieces := fun e he => (List.mem_append.mp he).elim (h.pieces e) (h'.pieces e)
  shown := fun c hc => by
    rcases h'.shown c hc with ⟨d, hd, hdc⟩ | ⟨e, he, hec⟩
    · rcases h.shown d hd with ⟨d', hd', hdd'⟩ | ⟨e, he, hed⟩
      · exact Or.inl ⟨d', hd', hdd'.trans hdc⟩
      · exact Or.inr ⟨e, List.mem_append_left _ he, hdc ▸ hed⟩
    · exact Or.inr ⟨e, List.mem_append_right _ he, hec⟩

/-- A piece of text in a block that is open afterwards. -/
theorem of_text {e : Event} (hm : a.minted ≤ a'.minted) (hcalls : a'.calls = a.calls)
    (hopen : ∀ block, a'.IsOpen block → a.IsOpen block ∨ MintedBelow supply a'.minted block)
    (he : e.isPiece = true) (hb : ∀ block, e.block? = some block → a'.IsOpen block) :
    Grew supply a [e] a' := by
  have blocks (ha : a.BlocksMinted supply) : a'.BlocksMinted supply := fun block h =>
    (hopen block h).elim (fun h => (ha block h).mono hm) id
  refine ⟨hm, blocks, fun ha f hf block hfb => ?_, fun f hf => ?_, fun c hc => ?_⟩
  · obtain rfl := List.mem_singleton.mp hf
    exact blocks ha block (hb block hfb)
  · obtain rfl := List.mem_singleton.mp hf
    exact he
  · exact Or.inl ⟨c, hcalls ▸ hc, rfl⟩

end Grew

theorem closeBlocks_grew : Grew supply a [] a.closeBlocks :=
  { Grew.refl with blocks := fun _ block h => by simp [IsOpen, closeBlocks] at h }

theorem pushContent_grew (text : String) (a : Assembly) :
    Grew supply a [(a.pushContent supply text).1] (a.pushContent supply text).2 := by
  unfold pushContent
  cases hb : a.contentBlock with
  | some block =>
    exact Grew.of_text (Nat.le_refl _) rfl (fun _ h => Or.inl (by simpa [IsOpen, hb] using h)) rfl
      fun _ h => Or.inl h
  | none =>
    have new : MintedBelow supply (a.minted + 1) (IdKind.block.mint supply a.minted) :=
      ⟨a.minted, Nat.lt_succ_self _, rfl⟩
    refine Grew.of_text (Nat.le_succ _) rfl (fun block h => ?_) rfl fun _ h => Or.inl h
    rcases h with h | h
    · exact Or.inr (Option.some.inj h ▸ new)
    · exact Or.inl (Or.inr h)

theorem pushReasoning_grew (text : String) (a : Assembly) :
    Grew supply a [(a.pushReasoning supply text).1] (a.pushReasoning supply text).2 := by
  unfold pushReasoning
  cases hb : a.reasoningBlock with
  | some block =>
    exact Grew.of_text (Nat.le_refl _) rfl (fun _ h => Or.inl (by simpa [IsOpen, hb] using h)) rfl
      fun _ h => Or.inr h
  | none =>
    have new : MintedBelow supply (a.minted + 1) (IdKind.block.mint supply a.minted) :=
      ⟨a.minted, Nat.lt_succ_self _, rfl⟩
    refine Grew.of_text (Nat.le_succ _) rfl (fun block h => ?_) rfl fun _ h => Or.inr h
    rcases h with h | h
    · exact Or.inl (Or.inl h)
    · exact Or.inr (Option.some.inj h ▸ new)

theorem pushText_grew {push : String → Assembly → Event × Assembly}
    (h : ∀ text (a : Assembly), Grew supply a [(push text a).1] (push text a).2)
    (text : Option String) :
    Grew supply a (a.pushText push text).1 (a.pushText push text).2 := by
  unfold pushText
  split
  · exact h _ a
  · exact Grew.refl

/-- The calls with a fragment added are those before and the one of the fragment. -/
theorem mem_addTo {id : String} {f : Fragment} {calls : List OpenCall} {c : OpenCall}
    (hc : c ∈ (addTo id f calls).1) : (∃ d ∈ calls, d.id = c.id) ∨ c.id = id := by
  induction calls with
  | nil =>
    obtain rfl := List.mem_singleton.mp hc
    exact Or.inr rfl
  | cons d rest ih =>
    unfold addTo at hc
    split at hc
    · rename_i hd
      rcases List.mem_cons.mp hc with rfl | hc
      · exact Or.inr hd
      · exact Or.inl ⟨c, List.mem_cons_of_mem _ hc, rfl⟩
    · rcases List.mem_cons.mp hc with rfl | hc
      · exact Or.inl ⟨c, List.mem_cons_self .., rfl⟩
      · rcases ih hc with ⟨d', hd', h⟩ | h
        · exact Or.inl ⟨d', List.mem_cons_of_mem _ hd', h⟩
        · exact Or.inr h

theorem callId_minted (f : Fragment) : a.minted ≤ (a.callId supply f).2 := by
  unfold callId
  split
  · exact Nat.le_refl _
  · split
    · exact Nat.le_refl _
    · exact Nat.le_succ _

theorem pushFragment_grew (f : Fragment) :
    Grew supply a [(a.pushFragment supply f).1] (a.pushFragment supply f).2 where
  minted := callId_minted f
  blocks := fun ha b h => (ha b h).mono (callId_minted f)
  texts := fun _ e he block hb => by
    obtain rfl := List.mem_singleton.mp he
    cases hb
  pieces := fun e he => by
    obtain rfl := List.mem_singleton.mp he
    rfl
  shown := fun c hc => by
    rcases mem_addTo hc with h | h
    · exact Or.inl h
    · exact Or.inr ⟨_, List.mem_singleton.mpr rfl, by rw [h]; rfl⟩

theorem pushFragments_grew (fs : List Fragment) :
    Grew supply a (a.pushFragments supply fs).1 (a.pushFragments supply fs).2 := by
  induction fs generalizing a with
  | nil => exact Grew.refl
  | cons f rest ih => exact (pushFragment_grew f).trans ih

theorem push_grew (c : Chunk) : Grew supply a (a.push supply c).1 (a.push supply c).2 := by
  have thought : Grew supply a (a.pushText (pushReasoning supply) c.reasoning).1
      (a.pushText (pushReasoning supply) c.reasoning).2 :=
    pushText_grew pushReasoning_grew c.reasoning
  have said := thought.trans (pushText_grew pushContent_grew c.content)
  -- The reason why the answer ends is no part of what is looked at.
  have reason {a₁ : Assembly} {es : List Event} (h : Grew supply a es a₁) :
      Grew supply a es { a₁ with finishReason := c.finishReason.or a₁.finishReason } :=
    ⟨h.minted, h.blocks, h.texts, h.pieces, h.shown⟩
  dsimp only [push]
  split
  · simpa using reason said
  · exact reason (said.trans (closeBlocks_grew.trans (pushFragments_grew c.toolCalls)))

theorem pushAll_grew (cs : List Chunk) :
    Grew supply a (pushAll supply cs a).1 (pushAll supply cs a).2 := by
  induction cs generalizing a with
  | nil => exact Grew.refl
  | cons c rest ih => exact (push_grew c).trans ih

theorem pushAll_snoc (cs : List Chunk) (c : Chunk) (a : Assembly) :
    pushAll supply (cs ++ [c]) a =
      ((pushAll supply cs a).1 ++ ((pushAll supply cs a).2.push supply c).1,
        ((pushAll supply cs a).2.push supply c).2) := by
  induction cs generalizing a with
  | nil => simp [pushAll]
  | cons c' rest ih => simp [pushAll, ih]

/-- Every call of a turn that was put together from nothing has a piece among the events. -/
theorem turn_shown {minted : Nat} (h : Grew supply (start minted) es a) :
    ∀ c ∈ a.turn.calls, ∃ e ∈ es, e.pieceId? = some c.id := by
  intro c hc
  obtain ⟨⟨d, i⟩, hd, rfl⟩ := List.mem_map.mp hc
  rcases h.shown d (List.fst_mem_of_mem_zipIdx hd) with ⟨d', hd', -⟩ | h
  · exact absurd hd' List.not_mem_nil
  · exact h

end Assembly

end AgentRun
