import Mathlib.Order.Interval.Set.Basic
import AgentRun.Proofs.Exhaustion

/-!
# Texts of one block

Two texts go together for the reader of a run if they carry the same block. `InOrder` says of a
trail what this is good for: texts of one block are of one voice and of the model, and nothing but
texts stands between them; a text that comes while an answer is put together was heard from the
model, and a text that comes while none is put together is the engine's.

A trail stays in order text by text because of what is open. A block is open for a voice if whatever
the trail has in it is of that voice and only texts came since (`Recent`); so one more text may go
into it. The other texts open blocks of their own, with names that were not minted before.
-/

namespace AgentRun

/-- The two sorts of texts. -/
inductive Voice where
  | content
  | reasoning
  deriving DecidableEq

/-- The voice of a text. -/
def Event.voice? : Event → Option Voice
  | .content _ _ => some .content
  | .reasoning _ _ => some .reasoning
  | _ => none

/-- The open block of a voice. -/
def Assembly.openBlock (a : Assembly) : Voice → Option String
  | .content => a.contentBlock
  | .reasoning => a.reasoningBlock

/-- A text is what a chunk says or thinks. -/
def Event.IsPieceOf (c : Chunk) : Event → Prop
  | .content _ text => c.content = some text
  | .reasoning _ text => c.reasoning = some text
  | _ => False

theorem Event.typeName_eq_of_voice {e f : Event} {voice : Voice} (he : e.voice? = some voice)
    (hf : f.voice? = some voice) : e.typeName = f.typeName := by
  cases e with
  | content =>
    cases he
    cases f with
    | content => rfl
    | _ => cases hf
  | reasoning =>
    cases he
    cases f with
    | reasoning => rfl
    | _ => cases hf
  | _ => cases he

namespace Run

/-- Whether an entry sends a text. -/
def Entry.isText : Entry → Bool
  | .event (.content _ _) => true
  | .event (.reasoning _ _) => true
  | _ => false

/-- A text is a piece of what the model streams for the last of some requests. -/
def Heard (model : Model) (requests : List ModelRequest) (e : Event) : Prop :=
  ∃ request ∈ requests.getLast?, ∃ earlier stream,
    (model.reply earlier request).opening = .stream stream ∧
      ∃ c ∈ stream.chunks, e.IsPieceOf c.2

/-- The texts of a trail are where they belong. -/
structure InOrder (model : Model) (t : List Entry) : Prop where
  /-- Texts of one block are of one voice and of one answer, with nothing but texts between. -/
  tied : ∀ before e between f after block,
    t = before ++ .event e :: between ++ .event f :: after →
    e.block? = some block → f.block? = some block →
    e.typeName = f.typeName ∧ (∀ x ∈ between, x.isText = true) ∧ answering false before = true
  /-- In an answer nothing is said but what the model streams. -/
  heard : ∀ before e after block, t = before ++ .event e :: after → e.block? = some block →
    answering false before = true → Heard model (requestsOf before) e
  /-- Between the answers nothing is said but that the budget is exhausted. -/
  own : ∀ before e after block, t = before ++ .event e :: after → e.block? = some block →
    answering false before = false → e = .content block budgetExhaustedMessage

/-- What a trail has in a block is of a voice and of an answer, and only texts came since. -/
def Recent (voice : Voice) (block : String) (t : List Entry) : Prop :=
  ∀ before e after, t = before ++ .event e :: after → e.block? = some block →
    e.voice? = some voice ∧ answering false before = true ∧ ∀ x ∈ after, x.isText = true

/-- A trail in order, with an answer that is being put together at its end. -/
structure Spoken (model : Model) (supply : Supply) (t : List Entry) (a : Assembly) : Prop where
  inOrder : InOrder model t
  minted : ∀ e, .event e ∈ t → ∀ block, e.block? = some block →
    MintedBelow supply a.minted block
  opened : ∀ voice block, a.openBlock voice = some block →
    MintedBelow supply a.minted block ∧ Recent voice block t
  /-- The voices do not share a block. -/
  apart : ∀ voice voice' block, a.openBlock voice = some block →
    a.openBlock voice' = some block → voice = voice'

variable {model : Model} {supply : Supply} {t u : List Entry} {a a' : Assembly} {x : Entry}
  {e : Event} {voice : Voice} {block : String}

/-! ## Trails that grow by an entry -/

/-- Where an element stands in a list with one more at its end: it is the last, or it stood there
before. -/
theorem snoc_split {α : Type} {l before after : List α} {x y : α}
    (h : l ++ [x] = before ++ y :: after) :
    before = l ∧ y = x ∧ after = [] ∨ ∃ rest, after = rest ++ [x] ∧ l = before ++ y :: rest := by
  rcases List.eq_nil_or_concat after with rfl | ⟨rest, z, rfl⟩
  · obtain ⟨hl, hx⟩ := List.append_inj' h rfl
    exact Or.inl ⟨hl.symm, (List.cons.inj hx).1.symm, rfl⟩
  · rw [List.concat_eq_append, ← List.cons_append, ← List.append_assoc] at h
    obtain ⟨hl, hx⟩ := List.append_inj' h rfl
    obtain rfl := (List.cons.inj hx).1
    exact Or.inr ⟨rest, List.concat_eq_append, hl⟩

namespace InOrder

theorem nil : InOrder model [] := by
  refine ⟨?_, ?_, ?_⟩
  · intro before e between f after block h
    simp at h
  · intro before e after block h
    simp at h
  · intro before e after block h
    simp at h

/-- A trail in order was in order before. -/
theorem of_append (h : InOrder model (t ++ u)) : InOrder model t := by
  refine ⟨?_, ?_, ?_⟩
  · rintro before e between f after block rfl he hf
    exact h.tied before e between f (after ++ u) block (by simp) he hf
  · rintro before e after block rfl he hbefore
    exact h.heard before e (after ++ u) block (by simp) he hbefore
  · rintro before e after block rfl he hbefore
    exact h.own before e (after ++ u) block (by simp) he hbefore

/-- One more text goes into a block that only has recent texts. -/
theorem snoc (h : InOrder model t) (htied : ∀ e block, x = .event e → e.block? = some block →
      ∃ voice, e.voice? = some voice ∧ Recent voice block t)
    (hheard : ∀ e block, x = .event e → e.block? = some block → answering false t = true →
      Heard model (requestsOf t) e)
    (hown : ∀ e block, x = .event e → e.block? = some block → answering false t = false →
      e = .content block budgetExhaustedMessage) : InOrder model (t ++ [x]) := by
  refine ⟨?_, ?_, ?_⟩
  · intro before e between f after block hsplit he hf
    rcases snoc_split hsplit with ⟨hbefore, rfl, -⟩ | ⟨rest, -, hbefore⟩
    · obtain ⟨voice, hvoice, hrecent⟩ := htied f block rfl hf
      obtain ⟨hsame, hanswering, hbetween⟩ := hrecent before e between hbefore.symm he
      exact ⟨Event.typeName_eq_of_voice hsame hvoice, hbetween, hanswering⟩
    · exact h.tied before e between f rest block hbefore he hf
  · intro before e after block hsplit he hbefore
    rcases snoc_split hsplit with ⟨rfl, hx, -⟩ | ⟨rest, -, hsplit⟩
    · exact hheard e block hx.symm he hbefore
    · exact h.heard before e rest block hsplit he hbefore
  · intro before e after block hsplit he hbefore
    rcases snoc_split hsplit with ⟨rfl, hx, -⟩ | ⟨rest, -, hsplit⟩
    · exact hown e block hx.symm he hbefore
    · exact h.own before e rest block hsplit he hbefore

/-- An entry that is no text changes nothing. -/
theorem snoc_quiet (h : InOrder model t) (hx : x.isText = false) : InOrder model (t ++ [x]) := by
  have hnone {e : Event} {block : String} (he : x = .event e) : e.block? ≠ some block := by
    subst he
    cases e with
    | content => cases hx
    | reasoning => cases hx
    | _ => exact Option.some_ne_none _ ∘ Eq.symm
  exact h.snoc (fun e block he hb => absurd hb (hnone he))
    (fun e block he hb => absurd hb (hnone he)) (fun e block he hb => absurd hb (hnone he))

theorem append_quiet (h : InOrder model t) (hu : ∀ x ∈ u, x.isText = false) :
    InOrder model (t ++ u) := by
  induction u generalizing t with
  | nil => simpa using h
  | cons x u ih =>
    have hrest := ih (h.snoc_quiet (hu x List.mem_cons_self))
      (fun y hy => hu y (List.mem_cons_of_mem x hy))
    simpa using hrest

end InOrder

namespace Recent

/-- A block that no text has been in. -/
theorem of_fresh (h : ∀ e, .event e ∈ t → e.block? ≠ some block) : Recent voice block t := by
  rintro before e after rfl he
  exact absurd he (h e (by simp))

theorem snoc (h : Recent voice block t) (hx : x.isText = true)
    (hsame : ∀ e, x = .event e → e.block? = some block →
      e.voice? = some voice ∧ answering false t = true) : Recent voice block (t ++ [x]) := by
  intro before e after hsplit he
  rcases snoc_split hsplit with ⟨rfl, hx', rfl⟩ | ⟨rest, rfl, ht⟩
  · obtain ⟨hvoice, hanswering⟩ := hsame e hx'.symm he
    exact ⟨hvoice, hanswering, fun y hy => absurd hy List.not_mem_nil⟩
  · obtain ⟨hvoice, hanswering, hrest⟩ := h before e rest ht he
    refine ⟨hvoice, hanswering, fun y hy => ?_⟩
    rcases List.mem_append.mp hy with hy | hy
    · exact hrest y hy
    · obtain rfl := List.mem_singleton.mp hy
      exact hx

end Recent

/-! ## Answers that grow by an event -/

theorem answering_event (before : Bool) (es : List Event) :
    answering before (es.map .event) = before := by
  induction es with
  | nil => rfl
  | cons e es ih => exact ih

/-- A name that is minted now was not minted before. -/
theorem minted_ne {n : Nat} (hids : Set.InjOn supply (Set.Iio (n + 1)))
    (h : MintedBelow supply n block) : block ≠ IdKind.block.mint supply n := by
  rintro rfl
  obtain ⟨i, hi, heq⟩ := h
  have hsame : n = i := mint_injOn hids (Nat.lt_succ_self n) (Nat.lt_succ_of_lt hi) heq
  exact absurd hsame (Nat.ne_of_gt hi)

namespace Spoken

/-- A trail in order, when no block is open. -/
theorem of_closed (h : InOrder model t) (hminted : ∀ e, .event e ∈ t → ∀ block,
    e.block? = some block → MintedBelow supply a.minted block)
    (hclosed : ∀ voice, a.openBlock voice = none) : Spoken model supply t a := by
  refine ⟨h, hminted, fun voice block hopen => ?_, fun voice voice' block hopen => ?_⟩
  · cases (hclosed voice).symm.trans hopen
  · cases (hclosed voice).symm.trans hopen

/-- An event without a text while no block is open. -/
theorem quiet (h : Spoken model supply t a) (he : (Entry.event e).isText = false)
    (hclosed : ∀ voice, a'.openBlock voice = none) (hle : a.minted ≤ a'.minted) :
    Spoken model supply (t ++ [.event e]) a' := by
  have hnone (block : String) : e.block? ≠ some block := by
    cases e with
    | content => cases he
    | reasoning => cases he
    | _ => exact Option.some_ne_none _ ∘ Eq.symm
  refine .of_closed (h.inOrder.snoc_quiet he) (fun f hf block hb => ?_) hclosed
  rcases List.mem_append.mp hf with hf | hf
  · exact (h.minted f hf block hb).mono hle
  · cases List.mem_singleton.mp hf
    exact absurd hb (hnone block)

/-- A text of a voice, in the block that is open for it or in a new one. -/
theorem text (h : Spoken model supply t a) (hanswering : answering false t = true)
    (hheard : Heard model (requestsOf t) e)
    (hvoice : e.voice? = some voice) (hblock : e.block? = some block)
    (hids : Set.InjOn supply (Set.Iio a'.minted))
    (hstep : a.openBlock voice = some block ∧ a'.minted = a.minted ∨
      block = IdKind.block.mint supply a.minted ∧ a'.minted = a.minted + 1)
    (hthis : a'.openBlock voice = some block)
    (hothers : ∀ other ≠ voice, a'.openBlock other = a.openBlock other) :
    Spoken model supply (t ++ [.event e]) a' := by
  have htext : (Entry.event e).isText = true := by
    cases e with
    | content => rfl
    | reasoning => rfl
    | _ => cases hvoice
  have hle : a.minted ≤ a'.minted := by omega
  have hminted : MintedBelow supply a'.minted block := by
    rcases hstep with ⟨hopen, -⟩ | ⟨rfl, hnext⟩
    · exact (h.opened voice block hopen).1.mono hle
    · exact ⟨a.minted, by omega, rfl⟩
  have hrecent : Recent voice block t := by
    rcases hstep with ⟨hopen, -⟩ | ⟨rfl, hnext⟩
    · exact (h.opened voice block hopen).2
    · refine .of_fresh fun f hf hb => ?_
      exact minted_ne (hnext ▸ hids) (h.minted f hf _ hb) rfl
  have hapart {other : Voice} (hne : other ≠ voice) : a.openBlock other ≠ some block := by
    intro hopen
    rcases hstep with ⟨hopen', -⟩ | ⟨rfl, hnext⟩
    · exact hne (h.apart other voice block hopen hopen')
    · exact minted_ne (hnext ▸ hids) (h.opened other _ hopen).1 rfl
  refine ⟨?_, ?_, ?_, ?_⟩
  · refine h.inOrder.snoc (fun f b hf hb => ?_) (fun f b hf _ _ => ?_) (fun f b hf hb hnot => ?_)
    · cases hf
      obtain rfl := Option.some.inj (hb.symm.trans hblock)
      exact ⟨voice, hvoice, hrecent⟩
    · cases hf
      exact hheard
    · cases hanswering.symm.trans hnot
  · intro f hf b hb
    rcases List.mem_append.mp hf with hf | hf
    · exact (h.minted f hf b hb).mono hle
    · cases List.mem_singleton.mp hf
      obtain rfl := Option.some.inj (hb.symm.trans hblock)
      exact hminted
  · intro other b hopen
    by_cases hother : other = voice
    · subst hother
      obtain rfl := Option.some.inj (hopen.symm.trans hthis)
      exact ⟨hminted, hrecent.snoc htext fun f hf _ => by
        cases hf
        exact ⟨hvoice, hanswering⟩⟩
    · rw [hothers other hother] at hopen
      obtain ⟨hb, hrecent'⟩ := h.opened other b hopen
      refine ⟨hb.mono hle, hrecent'.snoc htext fun f hf hfb => ?_⟩
      cases hf
      obtain rfl := Option.some.inj (hfb.symm.trans hblock)
      exact absurd hopen (hapart hother)
  · intro v v' b hv hv'
    by_cases hv₁ : v = voice
    · by_cases hv₂ : v' = voice
      · rw [hv₁, hv₂]
      · subst hv₁
        obtain rfl := Option.some.inj (hv.symm.trans hthis)
        exact absurd (hothers v' hv₂ ▸ hv') (hapart hv₂)
    · by_cases hv₂ : v' = voice
      · subst hv₂
        obtain rfl := Option.some.inj (hv'.symm.trans hthis)
        exact absurd (hothers v hv₁ ▸ hv) (hapart hv₁)
      · exact h.apart v v' b (hothers v hv₁ ▸ hv) (hothers v' hv₂ ▸ hv')

end Spoken

/-- Events that keep a trail in order while an answer grows, if their texts are the model's. -/
structure Continues (supply : Supply) (a : Assembly) (es : List Event) (a' : Assembly) : Prop where
  minted : a.minted ≤ a'.minted
  spoken : ∀ {model t}, Spoken model supply t a → answering false t = true →
    (∀ e ∈ es, ∀ block, e.block? = some block → Heard model (requestsOf t) e) →
    Set.InjOn supply (Set.Iio a'.minted) → Spoken model supply (t ++ es.map .event) a'

namespace Continues

variable {b : Assembly} {es fs : List Event}

theorem refl : Continues supply a [] a := by
  refine ⟨Nat.le_refl _, fun h _ _ _ => ?_⟩
  simpa using h

theorem trans (h : Continues supply a es a') (h' : Continues supply a' fs b) :
    Continues supply a (es ++ fs) b := by
  refine ⟨Nat.le_trans h.minted h'.minted, fun {model t} hspoken hanswering hheard hids => ?_⟩
  have hbefore : Set.InjOn supply (Set.Iio a'.minted) :=
    hids.mono (Set.Iio_subset_Iio h'.minted)
  have hfirst : Spoken model supply (t ++ es.map .event) a' :=
    h.spoken hspoken hanswering (fun e he => hheard e (List.mem_append_left fs he)) hbefore
  have hstill : answering false (t ++ es.map .event) = true := by
    rw [answering_append, answering_event, hanswering]
  have hsame : requestsOf (t ++ es.map .event) = requestsOf t := by
    rw [requestsOf_append, requestsOf_map_event, List.append_nil]
  have hnext := h'.spoken hfirst hstill
    (fun e he => hsame ▸ hheard e (List.mem_append_right es he)) hids
  simpa using hnext

theorem of_content (text : String) (a : Assembly) :
    Continues supply a [(a.pushContent supply text).1] (a.pushContent supply text).2 := by
  refine ⟨(Assembly.pushContent_grew text a).minted, fun {model t} h hanswering hheard hids => ?_⟩
  have hothers {block : Option String} {n : Nat} : ∀ other ≠ Voice.content,
      Assembly.openBlock { a with text := a.text ++ text, contentBlock := block, minted := n }
        other = a.openBlock other := by
    intro other hother
    cases other with
    | content => exact absurd rfl hother
    | reasoning => rfl
  unfold Assembly.pushContent at hheard hids ⊢
  cases hb : a.contentBlock with
  | some block =>
    rw [hb] at hheard hids
    have hsaid := hheard _ List.mem_cons_self block rfl
    exact h.text hanswering hsaid rfl rfl hids (Or.inl ⟨hb, rfl⟩) rfl hothers
  | none =>
    rw [hb] at hheard hids
    have hsaid := hheard _ List.mem_cons_self _ rfl
    exact h.text hanswering hsaid rfl rfl hids (Or.inr ⟨rfl, rfl⟩) rfl hothers

theorem of_reasoning (text : String) (a : Assembly) :
    Continues supply a [(a.pushReasoning supply text).1] (a.pushReasoning supply text).2 := by
  refine ⟨(Assembly.pushReasoning_grew text a).minted, fun {model t} h hanswering hheard hids => ?_⟩
  have hothers {block : Option String} {n : Nat} : ∀ other ≠ Voice.reasoning,
      Assembly.openBlock
        { a with reasoning := a.reasoning ++ text, reasoningBlock := block, minted := n }
        other = a.openBlock other := by
    intro other hother
    cases other with
    | content => rfl
    | reasoning => exact absurd rfl hother
  unfold Assembly.pushReasoning at hheard hids ⊢
  cases hb : a.reasoningBlock with
  | some block =>
    rw [hb] at hheard hids
    have hthought := hheard _ List.mem_cons_self block rfl
    exact h.text hanswering hthought rfl rfl hids (Or.inl ⟨hb, rfl⟩) rfl hothers
  | none =>
    rw [hb] at hheard hids
    have hthought := hheard _ List.mem_cons_self _ rfl
    exact h.text hanswering hthought rfl rfl hids (Or.inr ⟨rfl, rfl⟩) rfl hothers

theorem of_text {push : String → Assembly → Event × Assembly}
    (h : ∀ text (a : Assembly), Continues supply a [(push text a).1] (push text a).2)
    (text : Option String) :
    Continues supply a (a.pushText push text).1 (a.pushText push text).2 := by
  unfold Assembly.pushText
  cases text.filter fun t => t != "" with
  | some text => exact h text a
  | none => exact refl

/-- The fragments of calls come when no block is open. -/
theorem of_fragments (fs : List Fragment) (hclosed : ∀ voice, a.openBlock voice = none) :
    Continues supply a (a.pushFragments supply fs).1 (a.pushFragments supply fs).2 := by
  induction fs generalizing a with
  | nil => exact refl
  | cons f rest ih =>
    have hstill : ∀ voice, (a.pushFragment supply f).2.openBlock voice = none := by
      intro voice
      cases voice with
      | content => exact hclosed .content
      | reasoning => exact hclosed .reasoning
    have hfirst : Continues supply a [(a.pushFragment supply f).1] (a.pushFragment supply f).2 :=
      ⟨Assembly.callId_minted f, fun h _ _ _ => h.quiet rfl hstill (Assembly.callId_minted f)⟩
    exact hfirst.trans (ih hstill)

theorem closeBlocks_closed (a : Assembly) (voice : Voice) :
    a.closeBlocks.openBlock voice = none := by
  cases voice <;> rfl

theorem of_closing (a : Assembly) : Continues supply a [] a.closeBlocks := by
  refine ⟨Nat.le_refl _, fun {model t} h _ _ _ => ?_⟩
  have hnext : Spoken model supply t a.closeBlocks :=
    .of_closed h.inOrder h.minted (closeBlocks_closed a)
  simpa using hnext

theorem of_chunk (c : Chunk) : Continues supply a (a.push supply c).1 (a.push supply c).2 := by
  have thought : Continues supply a (a.pushText (Assembly.pushReasoning supply) c.reasoning).1
      (a.pushText (Assembly.pushReasoning supply) c.reasoning).2 := of_text of_reasoning c.reasoning
  have said := thought.trans (of_text of_content c.content)
  -- The reason why the answer ends has no part in the blocks.
  have reason {a₁ : Assembly} {es : List Event} (h : Continues supply a es a₁) :
      Continues supply a es { a₁ with finishReason := c.finishReason.or a₁.finishReason } := by
    refine ⟨h.minted, fun hspoken hanswering hheard hids => ?_⟩
    have hnext := h.spoken hspoken hanswering hheard hids
    exact ⟨hnext.inOrder, hnext.minted, hnext.opened, hnext.apart⟩
  dsimp only [Assembly.push]
  split
  · simpa using reason said
  · exact reason (said.trans ((of_closing _).trans
      (of_fragments c.toolCalls (closeBlocks_closed _))))

end Continues

/-! ## What a chunk says -/

section Pieces

variable {c : Chunk}

theorem pushText_pieces {push : String → Assembly → Event × Assembly} {text : Option String}
    (h : ∀ said a, text = some said → (push said a).1.IsPieceOf c) (a : Assembly) :
    ∀ e ∈ (a.pushText push text).1, e.IsPieceOf c := by
  unfold Assembly.pushText
  cases hsaid : text.filter fun t => t != "" with
  | none => exact fun e he => absurd he List.not_mem_nil
  | some said =>
    intro e he
    obtain rfl := List.mem_singleton.mp he
    exact h said a (Option.filter_eq_some_iff.mp hsaid).1

theorem pushFragments_quiet (fs : List Fragment) (a : Assembly) :
    ∀ e ∈ (a.pushFragments supply fs).1, e.block? = none := by
  induction fs generalizing a with
  | nil => exact fun e he => absurd he List.not_mem_nil
  | cons f rest ih =>
    intro e he
    rcases List.mem_cons.mp he with rfl | he
    · rfl
    · exact ih _ e he

/-- The texts that a chunk brings are its own. -/
theorem push_pieces (c : Chunk) (a : Assembly) :
    ∀ e ∈ (a.push supply c).1, ∀ block, e.block? = some block → e.IsPieceOf c := by
  have thought {text : String} (b : Assembly) (h : c.reasoning = some text) :
      (b.pushReasoning supply text).1.IsPieceOf c := by
    unfold Assembly.pushReasoning
    split <;> exact h
  have said {text : String} (b : Assembly) (h : c.content = some text) :
      (b.pushContent supply text).1.IsPieceOf c := by
    unfold Assembly.pushContent
    split <;> exact h
  intro e he block hb
  dsimp only [Assembly.push] at he
  rcases List.mem_append.mp he with he | he
  · rcases List.mem_append.mp he with he | he
    · exact pushText_pieces (fun _ b => thought b) _ e he
    · exact pushText_pieces (fun _ b => said b) _ e he
  · split at he
    · cases he
    · cases hb.symm.trans (pushFragments_quiet _ _ e he)

end Pieces

end Run

end AgentRun
