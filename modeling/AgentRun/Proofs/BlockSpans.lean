import AgentRun.Proofs.Attribution
import AgentRun.Proofs.Blocks

/-!
# How long a block lasts

The life of a decoder falls into spans: each step that closes the blocks ends one, be it a chunk
with fragments of calls, a close from outside or the end of a stream. In a span a voice has at most
one block, and a block is never taken up again in a later one (`Spanned`). So whether two texts
share their block is told by what was done between them, and a block is open just when the present
span has a text.
-/

namespace AgentRun

/-- What is done with a decoder. -/
inductive DecoderStep where
  | push (c : Chunk)
  | close
  /-- The end of a stream. -/
  | finish

/-- Whether a step closes the blocks. -/
def DecoderStep.closes : DecoderStep → Bool
  | .push c => !c.toolCalls.isEmpty
  | .close => true
  | .finish => true

namespace Collector

/-- A step: its events, and the decoder behind it. -/
def step (supply : Supply) (d : DecoderStep) (k : Collector) : List Event × Collector :=
  match d with
  | .push c => k.push supply c
  | .close => ([], { k with toAssembly := k.toAssembly.closeBlocks })
  | .finish => ([], k.next)

/-- The decoder behind some steps. -/
def after (supply : Supply) : List DecoderStep → Collector → Collector
  | [], k => k
  | d :: rest, k => after supply rest (k.step supply d).2

/-- The events of some steps, step by step. -/
def emitted (supply : Supply) : List DecoderStep → Collector → List (List Event)
  | [], _ => []
  | d :: rest, k => (k.step supply d).1 :: emitted supply rest (k.step supply d).2

end Collector

/-- The block of a text, with its voice and the span in which it came. -/
structure SpanText where
  voice : Voice
  span : Nat
  block : String

/-- What an event in a span says of the blocks. -/
def Event.spanText? (span : Nat) : Event → Option SpanText
  | .content block _ => some ⟨.content, span, block⟩
  | .reasoning block _ => some ⟨.reasoning, span, block⟩
  | _ => none

def spanTexts (span : Nat) (es : List Event) : List SpanText := es.filterMap (Event.spanText? span)

/-- The texts so far and the open blocks, in a span. -/
structure Spanned (supply : Supply) (texts : List SpanText) (span : Nat) (a : Assembly) : Prop where
  same : ∀ t ∈ texts, ∀ u ∈ texts, t.block = u.block ↔ t.voice = u.voice ∧ t.span = u.span
  past : ∀ t ∈ texts, t.span ≤ span
  minted : ∀ t ∈ texts, MintedBelow supply a.minted t.block
  opened : ∀ voice block, a.openBlock voice = some block ↔ ⟨voice, span, block⟩ ∈ texts

variable {supply : Supply} {texts : List SpanText} {span n : Nat} {a a' b : Assembly}
  {es fs : List Event} {voice : Voice} {block : String} {k : Collector}

namespace Spanned

theorem start (minted : Nat) : Spanned supply [] 0 (Assembly.start minted) := by
  refine ⟨nofun, nofun, nofun, fun voice block => ?_⟩
  cases voice <;> simp [Assembly.openBlock, Assembly.start]

/-- Only the open blocks and the count of minted names matter. -/
theorem congr (h : Spanned supply texts span a)
    (hopen : ∀ voice, a'.openBlock voice = a.openBlock voice)
    (hle : a.minted ≤ a'.minted) : Spanned supply texts span a' := by
  refine ⟨h.same, h.past, fun t ht => (h.minted t ht).mono hle, fun voice block => ?_⟩
  rw [hopen]
  exact h.opened voice block

/-- When the blocks are closed, a span begins that has no text yet. -/
theorem close (h : Spanned supply texts span a) :
    Spanned supply texts (span + 1) a.closeBlocks := by
  refine ⟨h.same, fun t ht => Nat.le_succ_of_le (h.past t ht), h.minted, fun voice block => ?_⟩
  rw [Run.Continues.closeBlocks_closed]
  constructor
  · intro hopen
    cases hopen
  · intro hmem
    have hpast : span + 1 ≤ span := h.past _ hmem
    omega

/-- One more text in the block that is open for its voice. -/
theorem continued (h : Spanned supply texts span a) (hopen : a.openBlock voice = some block) :
    Spanned supply (texts ++ [⟨voice, span, block⟩]) span a := by
  have hmem : ⟨voice, span, block⟩ ∈ texts := (h.opened voice block).mp hopen
  have hold {t : SpanText} : t ∈ texts ++ [⟨voice, span, block⟩] ↔ t ∈ texts := by
    constructor
    · intro ht
      rcases List.mem_append.mp ht with ht | ht
      · exact ht
      · rw [List.mem_singleton.mp ht]
        exact hmem
    · exact List.mem_append_left _
  refine ⟨fun t ht u hu => ?_, fun t ht => ?_, fun t ht => ?_, fun voice block => ?_⟩
  · exact h.same t (hold.mp ht) u (hold.mp hu)
  · exact h.past t (hold.mp ht)
  · exact h.minted t (hold.mp ht)
  · rw [hold]
    exact h.opened voice block

/-- A text in a new block, when none is open for its voice. -/
theorem opens (h : Spanned supply texts span a) (hclosed : a.openBlock voice = none)
    (hids : Set.InjOn supply (Set.Iio (a.minted + 1))) (hnext : a'.minted = a.minted + 1)
    (hthis : a'.openBlock voice = some (IdKind.block.mint supply a.minted))
    (hothers : ∀ other ≠ voice, a'.openBlock other = a.openBlock other) :
    Spanned supply (texts ++ [⟨voice, span, IdKind.block.mint supply a.minted⟩]) span a' := by
  set new : SpanText := ⟨voice, span, IdKind.block.mint supply a.minted⟩ with hnew
  -- No text so far is in the new block, and none is of its voice and its span.
  have hblock : ∀ t ∈ texts, t.block ≠ new.block := fun t ht =>
    Run.minted_ne hids (h.minted t ht)
  have hspan : ∀ t ∈ texts, ¬(t.voice = voice ∧ t.span = span) := by
    rintro ⟨v, m, c⟩ ht ⟨rfl, rfl⟩
    rw [(h.opened _ _).mpr ht] at hclosed
    cases hclosed
  refine ⟨fun t ht u hu => ?_, fun t ht => ?_, fun t ht => ?_, fun other c => ?_⟩
  · rcases List.mem_append.mp ht with ht | ht
    · rcases List.mem_append.mp hu with hu | hu
      · exact h.same t ht u hu
      · obtain rfl := List.mem_singleton.mp hu
        exact iff_of_false (hblock t ht) (hspan t ht)
    · obtain rfl := List.mem_singleton.mp ht
      rcases List.mem_append.mp hu with hu | hu
      · refine iff_of_false (fun heq => hblock u hu heq.symm) fun heq => ?_
        exact hspan u hu ⟨heq.1.symm, heq.2.symm⟩
      · obtain rfl := List.mem_singleton.mp hu
        exact iff_of_true rfl ⟨rfl, rfl⟩
  · rcases List.mem_append.mp ht with ht | ht
    · exact h.past t ht
    · rw [List.mem_singleton.mp ht]
  · rcases List.mem_append.mp ht with ht | ht
    · exact (h.minted t ht).mono (by omega)
    · rw [List.mem_singleton.mp ht]
      exact ⟨a.minted, by omega, rfl⟩
  · by_cases hother : other = voice
    · subst hother
      rw [hthis, List.mem_append, List.mem_singleton]
      constructor
      · intro heq
        rw [← Option.some.inj heq]
        exact Or.inr rfl
      · rintro (hmem | heq)
        · exact absurd ⟨rfl, rfl⟩ (hspan _ hmem)
        · rw [(SpanText.mk.inj heq).2.2]
    · rw [hothers other hother, h.opened, List.mem_append, List.mem_singleton]
      constructor
      · exact Or.inl
      · rintro (hmem | heq)
        · exact hmem
        · exact absurd (SpanText.mk.inj heq).1 hother

end Spanned

/-! ## Events in a span -/

/-- Events of a span, with which an answer grows, and how many spans end behind them. -/
structure Spans (supply : Supply) (a : Assembly) (es : List Event) (ends : Nat) (a' : Assembly) :
    Prop where
  minted : a.minted ≤ a'.minted
  spanned : ∀ {texts span}, Spanned supply texts span a →
    Set.InjOn supply (Set.Iio a'.minted) →
    Spanned supply (texts ++ spanTexts span es) (span + ends) a'

namespace Spans

theorem refl (a : Assembly) : Spans supply a [] 0 a := by
  refine ⟨Nat.le_refl _, fun h _ => ?_⟩
  simpa [spanTexts] using h

theorem trans (h : Spans supply a es 0 a') (h' : Spans supply a' fs n b) :
    Spans supply a (es ++ fs) n b := by
  refine ⟨Nat.le_trans h.minted h'.minted, fun {texts span} hs hids => ?_⟩
  have hbefore : Set.InjOn supply (Set.Iio a'.minted) :=
    hids.mono (Set.Iio_subset_Iio h'.minted)
  have hboth := h'.spanned (h.spanned hs hbefore) hids
  rw [spanTexts, List.filterMap_append, ← List.append_assoc]
  exact hboth

/-- Events without a text, behind the others. -/
theorem quiet (h : Spans supply a es n a') (hfs : ∀ e ∈ fs, e.block? = none)
    (hopen : ∀ voice, b.openBlock voice = a'.openBlock voice) (hle : a'.minted ≤ b.minted) :
    Spans supply a (es ++ fs) n b := by
  refine ⟨Nat.le_trans h.minted hle, fun {texts span} hs hids => ?_⟩
  have hnone : spanTexts span fs = [] := by
    refine List.filterMap_eq_nil_iff.mpr fun e he => ?_
    have hblock := hfs e he
    cases e with
    | content => cases hblock
    | reasoning => cases hblock
    | _ => rfl
  have hbefore : Set.InjOn supply (Set.Iio a'.minted) := hids.mono (Set.Iio_subset_Iio hle)
  have hnext := (h.spanned hs hbefore).congr hopen hle
  rw [spanTexts, List.filterMap_append]
  change Spanned supply (texts ++ (spanTexts span es ++ spanTexts span fs)) (span + n) b
  rwa [hnone, List.append_nil]

theorem of_closing (a : Assembly) : Spans supply a [] 1 a.closeBlocks := by
  refine ⟨Nat.le_refl _, fun h _ => ?_⟩
  simpa [spanTexts] using h.close

theorem of_content (text : String) (a : Assembly) :
    Spans supply a [(a.pushContent supply text).1] 0 (a.pushContent supply text).2 := by
  refine ⟨(Assembly.pushContent_grew text a).minted, fun {texts span} h hids => ?_⟩
  unfold Assembly.pushContent at hids ⊢
  cases hblock : a.contentBlock with
  | some block =>
    have hopen : a.openBlock .content = some block := hblock
    refine (h.continued hopen).congr (fun other => ?_) (Nat.le_refl _)
    cases other with
    | content => exact hblock.symm
    | reasoning => rfl
  | none =>
    have hclosed : a.openBlock .content = none := hblock
    rw [hblock] at hids
    refine h.opens hclosed hids rfl rfl fun other hother => ?_
    cases other with
    | content => exact absurd rfl hother
    | reasoning => rfl

theorem of_reasoning (text : String) (a : Assembly) :
    Spans supply a [(a.pushReasoning supply text).1] 0 (a.pushReasoning supply text).2 := by
  refine ⟨(Assembly.pushReasoning_grew text a).minted, fun {texts span} h hids => ?_⟩
  unfold Assembly.pushReasoning at hids ⊢
  cases hblock : a.reasoningBlock with
  | some block =>
    have hopen : a.openBlock .reasoning = some block := hblock
    refine (h.continued hopen).congr (fun other => ?_) (Nat.le_refl _)
    cases other with
    | content => rfl
    | reasoning => exact hblock.symm
  | none =>
    have hclosed : a.openBlock .reasoning = none := hblock
    rw [hblock] at hids
    refine h.opens hclosed hids rfl rfl fun other hother => ?_
    cases other with
    | content => rfl
    | reasoning => exact absurd rfl hother

theorem of_text {push : String → Assembly → Event × Assembly}
    (h : ∀ text (a : Assembly), Spans supply a [(push text a).1] 0 (push text a).2)
    (text : Option String) :
    Spans supply a (a.pushText push text).1 0 (a.pushText push text).2 := by
  unfold Assembly.pushText
  cases text.filter fun t => t != "" with
  | some text => exact h text a
  | none => exact refl a

theorem openBlock_fragments (cs : List Fragment) (a : Assembly) (voice : Voice) :
    (a.pushFragments supply cs).2.openBlock voice = a.openBlock voice := by
  induction cs generalizing a with
  | nil => rfl
  | cons c rest ih =>
    have hone : (a.pushFragment supply c).2.openBlock voice = a.openBlock voice := by
      cases voice <;> rfl
    exact (ih _).trans hone

/-- A chunk ends a span if it has fragments, behind its texts. -/
theorem of_chunk (c : Chunk) (a : Assembly) :
    Spans supply a (a.push supply c).1 (if c.toolCalls.isEmpty then 0 else 1)
      (a.push supply c).2 := by
  have hthought : Spans supply a (a.pushText (Assembly.pushReasoning supply) c.reasoning).1 0
      (a.pushText (Assembly.pushReasoning supply) c.reasoning).2 := of_text of_reasoning c.reasoning
  have hsaid := hthought.trans (of_text of_content c.content)
  have hreason {es : List Event} {n : Nat} {b : Assembly} (h : Spans supply a es n b) :
      Spans supply a es n { b with finishReason := c.finishReason.or b.finishReason } := by
    have hnext := h.quiet (b := { b with finishReason := c.finishReason.or b.finishReason })
      (List.forall_mem_nil _) (fun voice => by cases voice <;> rfl) (Nat.le_refl _)
    rwa [List.append_nil] at hnext
  dsimp only [Assembly.push]
  by_cases hnone : c.toolCalls.isEmpty = true
  · rw [if_pos hnone, if_pos hnone, List.append_nil]
    exact hreason hsaid
  · rw [if_neg hnone, if_neg hnone]
    have hclosed := hsaid.trans (of_closing _)
    rw [List.append_nil] at hclosed
    exact hreason (hclosed.quiet (Run.pushFragments_quiet _ _) (openBlock_fragments _ _)
      (Assembly.pushFragments_grew _).minted)

end Spans

/-! ## Steps of a decoder -/

namespace Collector

theorem step_spans (supply : Supply) (d : DecoderStep) (h : k.Coherent) :
    Spans supply k.toAssembly (k.step supply d).1 (if d.closes then 1 else 0)
        (k.step supply d).2.toAssembly ∧
      (k.step supply d).2.Coherent := by
  cases d with
  | push c =>
    obtain ⟨hevents, hassembly, hcoherent⟩ := push_follows supply h c
    refine ⟨?_, hcoherent⟩
    have hchunk : Spans supply k.toAssembly (k.toAssembly.push supply c).1
        (if c.toolCalls.isEmpty then 0 else 1) (k.toAssembly.push supply c).2 :=
      Spans.of_chunk c k.toAssembly
    have hends : (if c.toolCalls.isEmpty then 0 else 1) =
        if (DecoderStep.push c).closes then 1 else 0 := by
      cases hnone : c.toolCalls.isEmpty <;> simp [DecoderStep.closes, hnone]
    rw [← hevents, ← hassembly, hends] at hchunk
    exact hchunk
  | close => exact ⟨Spans.of_closing _, h.withAssembly rfl⟩
  | finish =>
    have hclosed : Spans supply k.toAssembly [] 1 k.toAssembly.closeBlocks := Spans.of_closing _
    have hnext := hclosed.quiet (b := k.next.toAssembly) (List.forall_mem_nil _)
      (fun voice => by cases voice <;> rfl) (Nat.le_refl _)
    exact ⟨hnext, coherent_start _⟩

theorem minted_le_after (supply : Supply) (steps : List DecoderStep) (h : k.Coherent) :
    k.minted ≤ (after supply steps k).minted := by
  induction steps generalizing k with
  | nil => exact Nat.le_refl _
  | cons d rest ih =>
    obtain ⟨hone, hcoherent⟩ := step_spans supply d h
    exact Nat.le_trans hone.minted (ih hcoherent)

/-- The texts of some steps, from a span on. -/
def spoken (supply : Supply) : List DecoderStep → Nat → Collector → List SpanText
  | [], _, _ => []
  | d :: rest, span, k => spanTexts span (k.step supply d).1 ++
    spoken supply rest (span + if d.closes then 1 else 0) (k.step supply d).2

theorem spoken_spanned (steps : List DecoderStep) (h : k.Coherent)
    (hs : Spanned supply texts span k.toAssembly)
    (hids : Set.InjOn supply (Set.Iio (after supply steps k).minted)) :
    Spanned supply (texts ++ spoken supply steps span k)
      (span + steps.countP DecoderStep.closes) (after supply steps k).toAssembly := by
  induction steps generalizing k texts span with
  | nil =>
    rw [spoken, List.append_nil]
    exact hs
  | cons d rest ih =>
    obtain ⟨hone, hcoherent⟩ := step_spans supply d h
    have hle := minted_le_after supply rest hcoherent
    have hnext := hone.spanned hs (hids.mono (Set.Iio_subset_Iio hle))
    have hrest := ih hcoherent hnext hids
    have hspan : span + (if d.closes then 1 else 0) + rest.countP DecoderStep.closes =
        span + (d :: rest).countP DecoderStep.closes := by
      rw [List.countP_cons]
      omega
    rw [hspan, List.append_assoc] at hrest
    exact hrest

end Collector

theorem Event.spanText?_eq_some {e : Event} {t : SpanText} : e.spanText? span = some t ↔
    e.voice? = some t.voice ∧ e.block? = some t.block ∧ t.span = span := by
  obtain ⟨voice, m, block⟩ := t
  cases e <;> simp [Event.spanText?, Event.voice?, Event.block?, eq_comm] <;> tauto

theorem Event.voice?_of_block {e : Event} (h : e.block? = some block) :
    ∃ voice, e.voice? = some voice := by
  cases e with
  | content => exact ⟨_, rfl⟩
  | reasoning => exact ⟨_, rfl⟩
  | _ => cases h

theorem Collector.length_emitted (supply : Supply) (steps : List DecoderStep) (k : Collector) :
    (emitted supply steps k).length = steps.length := by
  induction steps generalizing k with
  | nil => rfl
  | cons d rest ih => rw [emitted, List.length_cons, ih, List.length_cons]

theorem Collector.mem_spoken {steps : List DecoderStep} {t : SpanText} :
    t ∈ spoken supply steps span k ↔ ∃ i es, (emitted supply steps k)[i]? = some es ∧ ∃ e ∈ es,
      Event.spanText? (span + (steps.take i).countP DecoderStep.closes) e = some t := by
  induction steps generalizing k span with
  | nil => simp [spoken, emitted]
  | cons d rest ih =>
    rw [spoken, emitted, List.mem_append, ih, spanTexts, List.mem_filterMap]
    constructor
    · rintro (⟨e, he, ht⟩ | ⟨i, es, hes, e, he, ht⟩)
      · exact ⟨0, _, rfl, e, he, ht⟩
      · refine ⟨i + 1, es, hes, e, he, ?_⟩
        rw [List.take_succ_cons, List.countP_cons, Nat.add_comm (List.countP _ _), ← Nat.add_assoc]
        exact ht
    · rintro ⟨i, es, hes, e, he, ht⟩
      cases i with
      | zero =>
        obtain rfl := Option.some.inj hes
        exact Or.inl ⟨e, he, ht⟩
      | succ i =>
        refine Or.inr ⟨i, es, hes, e, he, ?_⟩
        rw [List.take_succ_cons, List.countP_cons, Nat.add_comm (List.countP _ _),
          ← Nat.add_assoc] at ht
        exact ht

/-- Two places are in one span just when nothing closes the blocks between them. -/
theorem countP_take_eq (steps : List DecoderStep) {i j : Nat} (hij : i ≤ j) :
    (steps.take i).countP DecoderStep.closes = (steps.take j).countP DecoderStep.closes ↔
      ∀ d ∈ (steps.take j).drop i, d.closes = false := by
  have hsplit : (steps.take j).countP DecoderStep.closes =
      (steps.take i).countP DecoderStep.closes +
        ((steps.take j).drop i).countP DecoderStep.closes := by
    have happend := List.take_append_drop i (steps.take j)
    rw [List.take_take, Nat.min_eq_left hij] at happend
    rw [← List.countP_append, happend]
  rw [hsplit]
  constructor
  · intro h d hd
    have hzero : ((steps.take j).drop i).countP DecoderStep.closes = 0 := by omega
    exact Bool.eq_false_iff.mpr (List.countP_eq_zero.mp hzero d hd)
  · intro h
    have hzero : ((steps.take j).drop i).countP DecoderStep.closes = 0 :=
      List.countP_eq_zero.mpr fun d hd => Bool.eq_false_iff.mp (h d hd)
    omega

theorem Assembly.hasOpenBlock_iff (a : Assembly) :
    a.hasOpenBlock = true ↔ ∃ voice block, a.openBlock voice = some block := by
  rw [Assembly.hasOpenBlock, Bool.or_eq_true, Option.isSome_iff_exists, Option.isSome_iff_exists]
  constructor
  · rintro (⟨block, h⟩ | ⟨block, h⟩)
    · exact ⟨.content, block, h⟩
    · exact ⟨.reasoning, block, h⟩
  · rintro ⟨voice, block, h⟩
    cases voice with
    | content => exact Or.inl ⟨block, h⟩
    | reasoning => exact Or.inr ⟨block, h⟩

namespace Collector

/-- Whatever is done with a decoder, in whatever order, two texts have one block just when they are
of one voice and nothing closed the blocks between them: no chunk with fragments of calls, the chunk
of the earlier text among them, no close and no end of a stream. A block is open just when there is
a text with none of these behind it. No name is to be minted twice. -/
theorem blocks_last_to_next_close (supply : Supply) (steps : List DecoderStep) (minted : Nat)
    (hids : Set.InjOn supply (Set.Iio (after supply steps (start minted)).minted)) :
    let events := emitted supply steps (start minted)
    (∀ i j es fs, i ≤ j → events[i]? = some es → events[j]? = some fs →
      ∀ e ∈ es, ∀ f ∈ fs, ∀ block block', e.block? = some block → f.block? = some block' →
        (block = block' ↔
          e.voice? = f.voice? ∧ ∀ d ∈ (steps.take j).drop i, d.closes = false)) ∧
    ((after supply steps (start minted)).hasOpenBlock = true ↔
      ∃ i es, events[i]? = some es ∧ (∃ e ∈ es, e.block?.isSome = true) ∧
        ∀ d ∈ steps.drop i, d.closes = false) := by
  intro events
  have hall := spoken_spanned steps (coherent_start minted) (Spanned.start minted) hids
  rw [List.nil_append, Nat.zero_add] at hall
  have hspoken {i : Nat} {es : List Event} {e : Event} {voice : Voice} {block : String}
      (hes : events[i]? = some es) (he : e ∈ es) (hvoice : e.voice? = some voice)
      (hb : e.block? = some block) :
      ⟨voice, (steps.take i).countP DecoderStep.closes, block⟩ ∈
        spoken supply steps 0 (start minted) := by
    refine mem_spoken.mpr ⟨i, es, hes, e, he, ?_⟩
    rw [Nat.zero_add]
    exact Event.spanText?_eq_some.mpr ⟨hvoice, hb, rfl⟩
  refine ⟨fun i j es fs hij hes hfs e he f hf block block' hb hb' => ?_, ?_⟩
  · obtain ⟨voice, hvoice⟩ := Event.voice?_of_block hb
    obtain ⟨voice', hvoice'⟩ := Event.voice?_of_block hb'
    rw [hvoice, hvoice', Option.some.injEq, ← countP_take_eq steps hij]
    exact hall.same _ (hspoken hes he hvoice hb) _ (hspoken hfs hf hvoice' hb')
  · have hwhole {i : Nat} {es : List Event} (hes : events[i]? = some es) :
        (steps.take i).countP DecoderStep.closes = steps.countP DecoderStep.closes ↔
          ∀ d ∈ steps.drop i, d.closes = false := by
      have hi : i ≤ steps.length := by
        rw [← length_emitted supply steps (start minted)]
        exact Nat.le_of_lt (List.getElem?_eq_some_iff.mp hes).1
      have hspan := countP_take_eq steps hi
      rwa [List.take_length] at hspan
    rw [Assembly.hasOpenBlock_iff]
    constructor
    · rintro ⟨voice, block, hopen⟩
      obtain ⟨i, es, hes, e, he, ht⟩ := mem_spoken.mp ((hall.opened voice block).mp hopen)
      obtain ⟨-, hb, hspan⟩ := Event.spanText?_eq_some.mp ht
      refine ⟨i, es, hes, ⟨e, he, Option.isSome_of_eq_some hb⟩, (hwhole hes).mp ?_⟩
      rw [Nat.zero_add] at hspan
      exact hspan.symm
    · rintro ⟨i, es, hes, ⟨e, he, htext⟩, hnone⟩
      obtain ⟨block, hb⟩ := Option.isSome_iff_exists.mp htext
      obtain ⟨voice, hvoice⟩ := Event.voice?_of_block hb
      have hmem := hspoken hes he hvoice hb
      rw [(hwhole hes).mpr hnone] at hmem
      exact ⟨voice, block, (hall.opened voice block).mpr hmem⟩

/-- Two pieces of a text with a thought between them are of one block, though the second comes with
a fragment of a call. The fragment closes it, so the next text is of another block, and that one is
open. -/
theorem thought_does_not_split_text :
    let steps : List DecoderStep := [.push (Chunk.ofContent "Hel"), .push (Chunk.ofReasoning "hm"),
      .push { Chunk.ofContent "lo" with toolCalls := [Fragment.ofArguments "x"] },
      .push (Chunk.ofContent "Done")]
    ∃ block other, emitted (Uuid.timed 0) steps (start 0) = [[.content block "Hel"],
        [.reasoning (IdKind.block.mint (Uuid.timed 0) 1) "hm"], [.content block "lo",
          .toolCall ⟨IdKind.call.mint (Uuid.timed 0) 2, none, none, "x", 0⟩],
        [.content other "Done"]] ∧
      block ≠ other ∧ (after (Uuid.timed 0) steps (start 0)).hasOpenBlock = true := by
  intro steps
  have hminted : (after (Uuid.timed 0) steps (start 0)).minted = 4 := by decide +kernel
  have huuids : ∀ i < 4, ∀ j < 4, Uuid.timed 0 i = Uuid.timed 0 j → i = j := by decide
  have hevents : emitted (Uuid.timed 0) steps (start 0) =
      [[.content (IdKind.block.mint (Uuid.timed 0) 0) "Hel"],
        [.reasoning (IdKind.block.mint (Uuid.timed 0) 1) "hm"],
        [.content (IdKind.block.mint (Uuid.timed 0) 0) "lo",
          .toolCall ⟨IdKind.call.mint (Uuid.timed 0) 2, none, none, "x", 0⟩],
        [.content (IdKind.block.mint (Uuid.timed 0) 3) "Done"]] := by
    decide +kernel
  obtain ⟨hshared, hopen⟩ := blocks_last_to_next_close (Uuid.timed 0) steps 0 (by
    rw [hminted]
    exact fun i hi j hj hij => huuids i hi j hj hij)
  rw [hevents] at hshared hopen
  refine ⟨_, _, hevents, ?_, ?_⟩
  · intro heq
    have hnone := ((hshared 0 3 _ _ (by decide) rfl rfl _ List.mem_cons_self _ List.mem_cons_self
      _ _ rfl rfl).mp heq).2
    exact absurd hnone (by decide)
  · refine hopen.mpr ⟨3, _, rfl, ⟨_, List.mem_cons_self, rfl⟩, ?_⟩
    decide

end Collector

end AgentRun
