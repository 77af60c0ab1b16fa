import AgentRun.Proofs.Assembly
import Mathlib.Data.List.Forall2
import Mathlib.Data.List.Induction

/-!
# The events of an answer tell the turn

The events for the consumer and the turn for the dispatch are made from the same chunks by different
means. Here the turn is read off the events: the texts are those of the text events, and a call is
what the pieces of its id say, where the calls stand in the order of their first pieces
(`Assembled`). The pieces themselves carry the fragments of the chunks, one for one and in their
order (`pushAll_carried`). A decoder goes from one stream to the next with nothing but its count of
minted ids, so this holds of every stream of a run.
-/

namespace AgentRun

namespace Event

/-- The text of an event of the answer. -/
def contentText? : Event → Option String
  | .content _ text => some text
  | _ => none

/-- The text of an event of the reasoning. -/
def reasoningText? : Event → Option String
  | .reasoning _ text => some text
  | _ => none

/-- The piece of a call in an event. -/
def piece? : Event → Option CallPiece
  | .toolCall p => some p
  | _ => none

end Event

/-- The pieces of calls among some events. -/
def piecesOf (es : List Event) : List CallPiece := es.filterMap Event.piece?

/-- The ids of some pieces, each once and in the order of its first piece. -/
def firstIds (ps : List CallPiece) : List String := (ps.map CallPiece.id).eraseDups

/-- The pieces with an id. -/
def piecesWith (id : String) (ps : List CallPiece) : List CallPiece := ps.filter fun p => p.id = id

/-- The first of some names that is not blank, without the blanks around it. -/
def firstNonBlank (names : List (Option String)) : String :=
  ((names.filterMap fun name => name.map Text.trim).find? fun name => name ≠ "").getD ""

/-- The first name among some pieces that is not blank, without the blanks around it. -/
def firstName (ps : List CallPiece) : String := firstNonBlank (ps.map CallPiece.name)

/-- The arguments of some pieces behind each other. -/
def joinedArguments (ps : List CallPiece) : String := String.join (ps.map CallPiece.argsChunk)

/-- The fragments of some chunks, in their order. -/
def fragmentsOf (cs : List Chunk) : List Fragment := cs.flatMap Chunk.toolCalls

/-- The fragments whose pieces have an id. -/
def fragmentsWith (id : String) (fs : List Fragment) (ps : List CallPiece) : List Fragment :=
  ((fs.zip ps).filter fun fp => fp.2.id = id).map Prod.fst

/-- A piece says what its fragment says. -/
structure Fragment.CarriedBy (f : Fragment) (p : CallPiece) : Prop where
  name : p.name = f.name
  callType : p.callType = f.callType
  argsChunk : p.argsChunk = f.arguments.getD ""

/-- A stream of chunks with what was made of it. -/
structure Decoded where
  chunks : List Chunk
  events : List Event
  turn : Turn

/-- The turn and the events of a stream tell the same. -/
structure Decoded.Agrees (d : Decoded) : Prop where
  text : d.turn.text = String.join (d.events.filterMap Event.contentText?)
  reasoning : d.turn.reasoning = String.join (d.events.filterMap Event.reasoningText?)
  ids_nodup : (d.turn.calls.map Call.id).Nodup
  ids : d.turn.calls.map Call.id = firstIds (piecesOf d.events)
  arguments : ∀ c ∈ d.turn.calls,
    c.rawArguments = joinedArguments (piecesWith c.id (piecesOf d.events))
  /-- The pieces carry the fragments of the stream one by one. -/
  carried : List.Forall₂ Fragment.CarriedBy (fragmentsOf d.chunks) (piecesOf d.events)
  name : ∀ c ∈ d.turn.calls, c.name = firstNonBlank
    ((fragmentsWith c.id (fragmentsOf d.chunks) (piecesOf d.events)).map Fragment.name)
  index : d.turn.calls.map Call.index = List.range d.turn.calls.length
  /-- Each piece carries the index of its call. -/
  piece_index : ∀ c ∈ d.turn.calls, ∀ p ∈ piecesWith c.id (piecesOf d.events), p.index = c.index
  finishReason : d.turn.finishReason = (d.chunks.filterMap Chunk.finishReason).getLast?

namespace Assembly

/-- Streams are decoded one after another. -/
def decodeStreams (supply : Supply) : List (List Chunk) → Assembly → List Decoded
  | [], _ => []
  | cs :: rest, a =>
    let (events, a) := pushAll supply cs a
    ⟨cs, events, a.turn⟩ :: decodeStreams supply rest a.next

/-! ## Calls by their pieces -/

section Pieces

variable {ps : List CallPiece} {p : CallPiece} {id : String}

theorem firstIds_snoc (ps : List CallPiece) (p : CallPiece) :
    firstIds (ps ++ [p]) =
      if p.id ∈ firstIds ps then firstIds ps else firstIds ps ++ [p.id] := by
  have hmem : p.id ∈ firstIds ps ↔ p.id ∈ ps.map CallPiece.id := List.mem_eraseDups
  rw [firstIds, List.map_append, List.eraseDups_append, firstIds]
  by_cases h : p.id ∈ ps.map CallPiece.id
  · have hnone : ([p].map CallPiece.id).removeAll (ps.map CallPiece.id) = [] := by
      simp only [List.map_cons, List.map_nil, List.removeAll, List.filter_cons, List.filter_nil]
      simp only [List.elem_eq_mem, h, decide_true, Bool.not_true, Bool.false_eq_true, if_false]
    rw [hnone, if_pos (List.mem_eraseDups.mpr h)]
    simp
  · have hone : ([p].map CallPiece.id).removeAll (ps.map CallPiece.id) = [p.id] := by
      simp only [List.map_cons, List.map_nil, List.removeAll, List.filter_cons, List.filter_nil]
      simp only [List.elem_eq_mem, h, decide_false, Bool.not_false, if_true]
    rw [hone, if_neg fun hin => h (List.mem_eraseDups.mp hin)]
    rfl

theorem firstIds_nodup (ps : List CallPiece) : (firstIds ps).Nodup := by
  induction ps using List.reverseRecOn with
  | nil => exact List.nodup_nil
  | append_singleton ps p ih =>
    rw [firstIds_snoc]
    by_cases h : p.id ∈ firstIds ps
    · rwa [if_pos h]
    · rw [if_neg h]
      refine List.nodup_append.mpr ⟨ih, by simp, fun id hid id' hid' he => ?_⟩
      rw [List.mem_singleton.mp hid'] at he
      exact h (he ▸ hid)

theorem piecesWith_eq_nil (h : id ∉ firstIds ps) : piecesWith id ps = [] := by
  refine List.filter_eq_nil_iff.mpr fun p hp => ?_
  have hne : p.id ≠ id := fun he => h (List.mem_eraseDups.mpr (List.mem_map.mpr ⟨p, hp, he⟩))
  simpa using hne

theorem firstNonBlank_snoc (names : List (Option String)) (name : Option String) :
    firstNonBlank (names ++ [name]) =
      if firstNonBlank names = "" then Text.trim (name.getD "") else firstNonBlank names := by
  unfold firstNonBlank
  rw [List.filterMap_append, List.find?_append]
  cases hfind : (names.filterMap fun name => name.map Text.trim).find? fun name => name ≠ "" with
  | some first =>
    have hfirst : first ≠ "" := by simpa using List.find?_some hfind
    simp [hfirst]
  | none =>
    cases name with
    | none =>
      have htrim : Text.trim "" = "" := rfl
      simp [htrim]
    | some name =>
      by_cases hblank : Text.trim name = "" <;> simp [hblank]

theorem firstName_snoc (ps : List CallPiece) (p : CallPiece) :
    firstName (ps ++ [p]) =
      if firstName ps = "" then Text.trim (p.name.getD "") else firstName ps := by
  rw [firstName, List.map_append]
  exact firstNonBlank_snoc (ps.map CallPiece.name) p.name

/-- The names of the pieces of an id are those of its fragments. -/
theorem names_fragmentsWith {fs : List Fragment} (h : List.Forall₂ Fragment.CarriedBy fs ps)
    (id : String) :
    (fragmentsWith id fs ps).map Fragment.name = (piecesWith id ps).map CallPiece.name := by
  induction h with
  | nil => rfl
  | @cons f p fs ps hfirst _ ih =>
    unfold fragmentsWith piecesWith at ih ⊢
    by_cases hid : p.id = id
    · simpa [hid, hfirst.name] using ih
    · simpa [hid] using ih

/-- The call that some pieces of one id make. -/
def callOf (id : String) (ps : List CallPiece) : OpenCall :=
  ⟨id, firstName (piecesWith id ps), joinedArguments (piecesWith id ps)⟩

theorem callOf_of_new (h : id ∉ firstIds ps) : callOf id ps = ⟨id, "", ""⟩ := by
  rw [callOf, piecesWith_eq_nil h]
  rfl

/-- A piece of another call is none of this one. -/
theorem callOf_snoc_of_ne (h : id ≠ p.id) : callOf id (ps ++ [p]) = callOf id ps := by
  have hne : ¬ p.id = id := fun he => h he.symm
  simp [callOf, piecesWith, hne]

/-- A piece adds to its call what its fragment adds. -/
theorem callOf_snoc (ps : List CallPiece) (f : Fragment) (callType : Option String) (index : Nat) :
    callOf id (ps ++ [⟨id, f.name, callType, f.arguments.getD "", index⟩]) =
      OpenCall.add f (callOf id ps) := by
  have hwith : piecesWith id (ps ++ [⟨id, f.name, callType, f.arguments.getD "", index⟩]) =
      piecesWith id ps ++ [⟨id, f.name, callType, f.arguments.getD "", index⟩] := by
    simp [piecesWith]
  have hjoin : joinedArguments (piecesWith id ps ++
      [⟨id, f.name, callType, f.arguments.getD "", index⟩]) =
      joinedArguments (piecesWith id ps) ++ f.arguments.getD "" := by
    simp [joinedArguments]
  rw [callOf, hwith, hjoin, firstName_snoc]
  rfl

end Pieces

/-- A fragment is added to a list of calls that is told by its ids: the call of the fragment
changes, or comes in at the end, and its place is that of its id. -/
theorem addTo_map {id : String} {f : Fragment} {ids : List String} {g g' : String → OpenCall}
    (hid : ∀ i, (g i).id = i) (hother : ∀ i, i ≠ id → g' i = g i)
    (hnew : id ∉ ids → g id = ⟨id, "", ""⟩) (hadd : g' id = OpenCall.add f (g id))
    (hnodup : ids.Nodup) :
    addTo id f (ids.map g) =
      ((if id ∈ ids then ids else ids ++ [id]).map g', ids.idxOf id) := by
  induction ids with
  | nil =>
    have hopen : g id = ⟨id, "", ""⟩ := hnew List.not_mem_nil
    simp [addTo, hadd, hopen]
  | cons i ids ih =>
    obtain ⟨hni, hnodup⟩ := List.nodup_cons.mp hnodup
    by_cases hi : i = id
    · subst hi
      have hrest : ids.map g' = ids.map g :=
        List.map_congr_left fun j hj => hother j fun he => hni (he ▸ hj)
      simp [addTo, hid, hadd, hrest]
    · have hne : id ≠ i := fun he => hi he.symm
      have hnew' : id ∉ ids → g id = ⟨id, "", ""⟩ := fun h => hnew (by simp [hne, h])
      have hrest := ih hnew' hnodup
      rw [List.map_cons, addTo, if_neg (by rwa [hid]), hrest]
      by_cases hin : id ∈ ids
      · simp [hin, hother i hi, List.idxOf_cons_ne _ hi]
      · simp [hin, hne, hother i hi]

/-! ## What is assembled is what the events tell -/

/-- An answer that is put together is what the events so far tell. -/
structure Assembled (es : List Event) (a : Assembly) : Prop where
  text : a.text = String.join (es.filterMap Event.contentText?)
  reasoning : a.reasoning = String.join (es.filterMap Event.reasoningText?)
  calls : a.calls = (firstIds (piecesOf es)).map fun id => callOf id (piecesOf es)
  index : ∀ p ∈ piecesOf es, p.index = (firstIds (piecesOf es)).idxOf p.id

namespace Assembled

variable (supply : Supply) {es : List Event} {a : Assembly}

theorem start (minted : Nat) : Assembled [] (start minted) :=
  ⟨rfl, rfl, rfl, nofun⟩

theorem closeBlocks (h : Assembled es a) : Assembled es a.closeBlocks :=
  ⟨h.text, h.reasoning, h.calls, h.index⟩

theorem snoc_content {a' : Assembly} {block text : String} (h : Assembled es a)
    (htext : a'.text = a.text ++ text) (hreasoning : a'.reasoning = a.reasoning)
    (hcalls : a'.calls = a.calls) : Assembled (es ++ [.content block text]) a' := by
  have hpieces : piecesOf (es ++ [.content block text]) = piecesOf es := by
    simp [piecesOf, Event.piece?, List.filterMap_cons]
  refine ⟨?_, ?_, ?_, ?_⟩
  · simp [htext, h.text, Event.contentText?]
  · simp [hreasoning, h.reasoning, Event.reasoningText?, List.filterMap_cons]
  · rw [hpieces, hcalls]
    exact h.calls
  · rw [hpieces]
    exact h.index

theorem snoc_reasoning {a' : Assembly} {block text : String} (h : Assembled es a)
    (htext : a'.text = a.text) (hreasoning : a'.reasoning = a.reasoning ++ text)
    (hcalls : a'.calls = a.calls) : Assembled (es ++ [.reasoning block text]) a' := by
  have hpieces : piecesOf (es ++ [.reasoning block text]) = piecesOf es := by
    simp [piecesOf, Event.piece?, List.filterMap_cons]
  refine ⟨?_, ?_, ?_, ?_⟩
  · simp [htext, h.text, Event.contentText?, List.filterMap_cons]
  · simp [hreasoning, h.reasoning, Event.reasoningText?]
  · rw [hpieces, hcalls]
    exact h.calls
  · rw [hpieces]
    exact h.index

theorem pushContent (h : Assembled es a) (text : String) :
    Assembled (es ++ [(a.pushContent supply text).1]) (a.pushContent supply text).2 := by
  unfold Assembly.pushContent
  cases a.contentBlock with
  | some block => exact h.snoc_content rfl rfl rfl
  | none => exact h.snoc_content rfl rfl rfl

theorem pushReasoning (h : Assembled es a) (text : String) :
    Assembled (es ++ [(a.pushReasoning supply text).1]) (a.pushReasoning supply text).2 := by
  unfold Assembly.pushReasoning
  cases a.reasoningBlock with
  | some block => exact h.snoc_reasoning rfl rfl rfl
  | none => exact h.snoc_reasoning rfl rfl rfl

theorem pushText {push : String → Assembly → Event × Assembly} (h : Assembled es a)
    (hpush : ∀ text, Assembled (es ++ [(push text a).1]) (push text a).2) (text : Option String) :
    Assembled (es ++ (a.pushText push text).1) (a.pushText push text).2 := by
  unfold Assembly.pushText
  cases text.filter fun t => t != "" with
  | some t => exact hpush t
  | none => simpa using h

theorem pushFragment (h : Assembled es a) (f : Fragment) :
    Assembled (es ++ [(a.pushFragment supply f).1]) (a.pushFragment supply f).2 := by
  dsimp only [Assembly.pushFragment]
  generalize (a.callId supply f).1 = id
  generalize (a.callId supply f).2 = minted
  set ps := piecesOf es with hps
  set ids := firstIds ps with hids
  set p : CallPiece := ⟨id, f.name, f.callType, f.arguments.getD "", ids.idxOf id⟩ with hp
  have hadd : addTo id f a.calls = ((firstIds (ps ++ [p])).map fun i => callOf i (ps ++ [p]),
      ids.idxOf id) := by
    rw [h.calls, firstIds_snoc]
    exact addTo_map (fun _ => rfl) (fun i hi => callOf_snoc_of_ne hi) (fun hi => callOf_of_new hi)
      (callOf_snoc ps f f.callType _) (firstIds_nodup ps)
  have hpieces : piecesOf (es ++ [.toolCall p]) = ps ++ [p] := by
    simp [piecesOf, Event.piece?, hps]
  rw [hadd]
  refine ⟨?_, ?_, ?_, ?_⟩
  · simpa [Event.contentText?, List.filterMap_cons] using h.text
  · simpa [Event.reasoningText?, List.filterMap_cons] using h.reasoning
  · rw [hpieces]
  · rw [hpieces, firstIds_snoc]
    intro q hq
    -- An id that is there already keeps its place, whether the new one comes in behind it or not.
    have hold : ∀ q ∈ ps, (if id ∈ ids then ids else ids ++ [id]).idxOf q.id = ids.idxOf q.id := by
      intro q hq
      have hmem : q.id ∈ ids := List.mem_eraseDups.mpr (List.mem_map.mpr ⟨q, hq, rfl⟩)
      by_cases hin : id ∈ ids
      · rw [if_pos hin]
      · rw [if_neg hin, List.idxOf_append_of_mem hmem]
    rcases List.mem_append.mp hq with hq | hq
    · rw [h.index q hq]
      exact (hold q hq).symm
    · rw [List.mem_singleton.mp hq]
      by_cases hin : id ∈ ids
      · simp only [hp, if_pos hin, ← hids]
      · simp only [hp, if_neg hin, ← hids]
        rw [List.idxOf_append_of_notMem hin, List.idxOf_eq_length hin]
        simp

theorem pushFragments (h : Assembled es a) (fs : List Fragment) :
    Assembled (es ++ (a.pushFragments supply fs).1) (a.pushFragments supply fs).2 := by
  induction fs generalizing es a with
  | nil => simpa [Assembly.pushFragments] using h
  | cons f rest ih =>
    have hrest := ih (h.pushFragment supply f)
    simpa [Assembly.pushFragments] using hrest

theorem push (h : Assembled es a) (c : Chunk) :
    Assembled (es ++ (a.push supply c).1) (a.push supply c).2 := by
  have hthought := h.pushText (fun t => h.pushReasoning supply t) c.reasoning
  have hsaid := hthought.pushText (fun t => hthought.pushContent supply t) c.content
  dsimp only [Assembly.push]
  split
  · have := hsaid
    simp only [List.append_nil, ← List.append_assoc]
    exact ⟨this.text, this.reasoning, this.calls, this.index⟩
  · have hcalled := hsaid.closeBlocks.pushFragments supply c.toolCalls
    simp only [← List.append_assoc]
    exact ⟨hcalled.text, hcalled.reasoning, hcalled.calls, hcalled.index⟩

theorem pushAll (h : Assembled es a) (cs : List Chunk) :
    Assembled (es ++ (Assembly.pushAll supply cs a).1) (Assembly.pushAll supply cs a).2 := by
  induction cs generalizing es a with
  | nil => simpa [Assembly.pushAll] using h
  | cons c rest ih =>
    have hrest := ih (h.push supply c)
    simpa [Assembly.pushAll] using hrest

/-- A call of the turn is told by its id, and stands where the id stands. -/
theorem turn_call (h : Assembled es a) {c : Call} (hc : c ∈ a.turn.calls) :
    c.name = firstName (piecesWith c.id (piecesOf es)) ∧
      c.rawArguments = joinedArguments (piecesWith c.id (piecesOf es)) ∧
      c.index = (firstIds (piecesOf es)).idxOf c.id := by
  obtain ⟨⟨d, i⟩, hd, rfl⟩ := List.mem_map.mp hc
  obtain ⟨hi, hget⟩ := List.mem_zipIdx' hd
  have hlength : i < (firstIds (piecesOf es)).length := by
    rw [h.calls] at hi
    simpa using hi
  have hcall : d = callOf (firstIds (piecesOf es))[i] (piecesOf es) := by
    simp only [hget, h.calls, List.getElem_map]
  refine ⟨by rw [hcall]; rfl, by rw [hcall]; rfl, ?_⟩
  rw [hcall]
  exact ((firstIds_nodup _).idxOf_getElem i hlength).symm

theorem turn_ids (h : Assembled es a) : a.turn.calls.map Call.id = firstIds (piecesOf es) := by
  have hids : a.turn.calls.map Call.id = (a.calls.zipIdx.map Prod.fst).map OpenCall.id := by
    rw [List.map_map]
    exact List.map_map ..
  rw [hids, List.zipIdx_map_fst, h.calls, List.map_map]
  exact List.map_id' _

end Assembled

theorem turn_indices (a : Assembly) :
    a.turn.calls.map Call.index = List.range a.turn.calls.length := by
  rw [turn, List.map_map, List.length_map, List.length_zipIdx, List.range_eq_range']
  exact List.zipIdx_map_snd 0 a.calls

/-! ## The pieces carry the fragments -/

section Carried

variable {supply : Supply}

theorem piecesOf_append (es es' : List Event) :
    piecesOf (es ++ es') = piecesOf es ++ piecesOf es' :=
  List.filterMap_append

theorem pushText_pieces {push : String → Assembly → Event × Assembly}
    (hpush : ∀ text (a : Assembly), (push text a).1.piece? = none) (text : Option String)
    (a : Assembly) : piecesOf (a.pushText push text).1 = [] := by
  unfold pushText
  cases text.filter fun t => t != "" with
  | none => rfl
  | some t => simp [piecesOf, hpush]

theorem pushContent_piece (text : String) (a : Assembly) :
    (a.pushContent supply text).1.piece? = none := by
  unfold pushContent
  cases a.contentBlock <;> rfl

theorem pushReasoning_piece (text : String) (a : Assembly) :
    (a.pushReasoning supply text).1.piece? = none := by
  unfold pushReasoning
  cases a.reasoningBlock <;> rfl

theorem piecesOf_push (supply : Supply) (c : Chunk) (a : Assembly) :
    piecesOf (a.push supply c).1 =
      piecesOf (((a.pushText (pushReasoning supply) c.reasoning).2.pushText (pushContent supply)
        c.content).2.closeBlocks.pushFragments supply c.toolCalls).1 := by
  dsimp only [push]
  rw [piecesOf_append, piecesOf_append, pushText_pieces pushReasoning_piece,
    pushText_pieces pushContent_piece]
  cases c.toolCalls with
  | nil => rfl
  | cons f rest => rfl

theorem pushFragments_carried (fs : List Fragment) (a : Assembly) :
    List.Forall₂ Fragment.CarriedBy fs (piecesOf (a.pushFragments supply fs).1) := by
  induction fs generalizing a with
  | nil => exact .nil
  | cons f rest ih => exact .cons ⟨rfl, rfl, rfl⟩ (ih _)

theorem push_carried (supply : Supply) (c : Chunk) (a : Assembly) :
    List.Forall₂ Fragment.CarriedBy c.toolCalls (piecesOf (a.push supply c).1) := by
  rw [piecesOf_push]
  exact pushFragments_carried c.toolCalls _

theorem pushAll_carried (supply : Supply) (cs : List Chunk) (a : Assembly) :
    List.Forall₂ Fragment.CarriedBy (fragmentsOf cs) (piecesOf (pushAll supply cs a).1) := by
  induction cs generalizing a with
  | nil => exact .nil
  | cons c rest ih =>
    have hpieces : piecesOf (pushAll supply (c :: rest) a).1 =
        piecesOf (a.push supply c).1 ++ piecesOf (pushAll supply rest (a.push supply c).2).1 :=
      piecesOf_append _ _
    rw [hpieces]
    exact List.rel_append (push_carried supply c a) (ih (a.push supply c).2)

end Carried

/-! ## The reason why the answer ends -/

section Reason

variable {supply : Supply}

theorem pushText_finishReason {push : String → Assembly → Event × Assembly}
    (hpush : ∀ text (a : Assembly), (push text a).2.finishReason = a.finishReason)
    (text : Option String) (a : Assembly) :
    (a.pushText push text).2.finishReason = a.finishReason := by
  unfold pushText
  cases text.filter fun t => t != "" with
  | some t => exact hpush t a
  | none => rfl

theorem pushContent_finishReason (text : String) (a : Assembly) :
    (a.pushContent supply text).2.finishReason = a.finishReason := by
  unfold pushContent
  cases a.contentBlock <;> rfl

theorem pushReasoning_finishReason (text : String) (a : Assembly) :
    (a.pushReasoning supply text).2.finishReason = a.finishReason := by
  unfold pushReasoning
  cases a.reasoningBlock <;> rfl

theorem pushFragments_finishReason (fs : List Fragment) (a : Assembly) :
    (a.pushFragments supply fs).2.finishReason = a.finishReason := by
  induction fs generalizing a with
  | nil => rfl
  | cons f rest ih => exact ih _

theorem push_finishReason (c : Chunk) (a : Assembly) :
    (a.push supply c).2.finishReason = c.finishReason.or a.finishReason := by
  have htexts : ((a.pushText (pushReasoning supply) c.reasoning).2.pushText (pushContent supply)
      c.content).2.finishReason = a.finishReason :=
    (pushText_finishReason pushContent_finishReason ..).trans
      (pushText_finishReason pushReasoning_finishReason ..)
  dsimp only [push]
  split
  · rw [htexts]
  · rw [pushFragments_finishReason]
    exact congrArg c.finishReason.or htexts

theorem pushAll_finishReason (supply : Supply) (a : Assembly) (cs : List Chunk) :
    (pushAll supply cs a).2.finishReason =
      (cs.filterMap Chunk.finishReason).getLast?.or a.finishReason := by
  induction cs generalizing a with
  | nil => rfl
  | cons c rest ih =>
    have hrest := ih (a.push supply c).2
    rw [push_finishReason] at hrest
    refine hrest.trans ?_
    cases hc : c.finishReason with
    | none => simp [hc]
    | some reason =>
      rw [List.filterMap_cons, hc]
      cases (rest.filterMap Chunk.finishReason) with
      | nil => rfl
      | cons r rs => simp [List.getLast?_cons]

end Reason

/-! ## Chunks without events -/

theorem pushText_nil {push : String → Assembly → Event × Assembly} {text : Option String}
    {a : Assembly} : (a.pushText push text).1 = [] ↔ Chunk.isVoid text = true := by
  unfold pushText Chunk.isVoid
  cases text with
  | none => simp
  | some t =>
    by_cases ht : t = "" <;> simp [ht, Option.filter]

theorem push_nil (supply : Supply) (c : Chunk) (a : Assembly) :
    (a.push supply c).1 = [] ↔ c.isEmpty = true := by
  have hfragments (a : Assembly) :
      (if c.toolCalls.isEmpty then (([] : List Event), a)
        else a.closeBlocks.pushFragments supply c.toolCalls).1 = [] ↔
      c.toolCalls.isEmpty = true := by
    cases c.toolCalls with
    | nil => simp
    | cons f fs => simp [pushFragments]
  dsimp only [push]
  rw [List.append_eq_nil_iff, List.append_eq_nil_iff, pushText_nil, pushText_nil, hfragments]
  simp only [Chunk.isEmpty, Bool.and_eq_true]
  exact and_congr_left fun _ => and_comm

/-! ## Streams -/

theorem pushAll_agrees (supply : Supply) (cs : List Chunk) (minted : Nat) :
    Decoded.Agrees ⟨cs, (pushAll supply cs (start minted)).1,
      (pushAll supply cs (start minted)).2.turn⟩ := by
  have h := (Assembled.start minted).pushAll supply cs
  rw [List.nil_append] at h
  have hreason := pushAll_finishReason supply (start minted) cs
  have hcarried := pushAll_carried supply cs (start minted)
  refine ⟨h.text, h.reasoning, ?_, h.turn_ids, ?_, hcarried, ?_, turn_indices _, ?_, ?_⟩
  · rw [h.turn_ids]
    exact firstIds_nodup _
  · intro c hc
    exact (h.turn_call hc).2.1
  · intro c hc
    rw [names_fragmentsWith hcarried]
    exact (h.turn_call hc).1
  · intro c hc p hp
    obtain ⟨hp, hid⟩ := List.mem_filter.mp hp
    rw [(h.turn_call hc).2.2, h.index p hp, of_decide_eq_true hid]
  · exact hreason.trans (Option.or_none ..)

/-- Whatever streams a decoder gets one after another, the turn of each tells what its events tell,
and a chunk gives no events just when there is nothing in it to tell. -/
theorem decoded_streams_agree (supply : Supply) (streams : List (List Chunk)) :
    (∀ d ∈ decodeStreams supply streams (start 0), d.Agrees) ∧
      ∀ (c : Chunk) (a : Assembly), (a.push supply c).1 = [] ↔ c.isEmpty = true := by
  refine ⟨?_, push_nil supply⟩
  generalize 0 = minted
  induction streams generalizing minted with
  | nil => nofun
  | cons cs rest ih =>
    intro d hd
    rcases List.mem_cons.mp hd with rfl | hd
    · exact pushAll_agrees supply cs minted
    · exact ih _ d hd

end Assembly

end AgentRun
