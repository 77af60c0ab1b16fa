import AgentRun.Collector
import AgentRun.Proofs.Decoding

/-!
# The call of a fragment

A `Collector` finds the call of a fragment in three tables, an `Assembly` in the list of its calls.
They do the same (`Collector.Follows`): the table by id agrees with the list, the call opened last
is the last of the list, and while there is no call there is no index either, so the table by index
is never what decides. What the fragments of a stream are attributed to is then told by the list
alone (`Attributions`), and the indices can be anything.
-/

namespace AgentRun

/-- A fragment without its index. -/
def Fragment.unplaced (f : Fragment) : Fragment := { f with index := none }

/-- A chunk without the indices of its fragments. -/
def Chunk.unplaced (c : Chunk) : Chunk := { c with toolCalls := c.toolCalls.map Fragment.unplaced }

/-- The piece of a call that is made of a fragment, behind the pieces of the stream so far. -/
structure Attributed (supply : Supply) (earlier : List CallPiece) (f : Fragment) (p : CallPiece) :
    Prop where
  own : ∀ id, f.ownId? = some id → p.id = id
  latest : f.ownId? = none → ∀ id, (firstIds earlier).getLast? = some id → p.id = id
  /-- Only the first call of a stream can be without an id of the model. -/
  opened : f.ownId? = none → (p.id ∉ firstIds earlier ↔ earlier = [])
  minted : f.ownId? = none → earlier = [] → ∃ n, p.id = IdKind.call.mint supply n
  name : p.name = f.name
  callType : p.callType = f.callType
  argsChunk : p.argsChunk = f.arguments.getD ""
  place : p.index = (firstIds (earlier ++ [p])).idxOf p.id

/-- Each fragment has one piece, attributed behind the pieces before it. -/
structure Attributions (supply : Supply) (fs : List Fragment) (ps : List CallPiece) : Prop where
  length : ps.length = fs.length
  each : ∀ i f, fs[i]? = some f → ∃ p, ps[i]? = some p ∧ Attributed supply (ps.take i) f p

/-- The calls that some pieces make. -/
def callsMade (ps : List CallPiece) : List Call :=
  (firstIds ps).zipIdx.map fun (id, place) =>
    ⟨id, firstName (piecesWith id ps), joinedArguments (piecesWith id ps), place⟩

namespace Attributions

variable {supply : Supply}

theorem nil : Attributions supply [] [] := ⟨rfl, nofun⟩

theorem snoc {fs : List Fragment} {ps : List CallPiece} {f : Fragment} {p : CallPiece}
    (h : Attributions supply fs ps) (hp : Attributed supply ps f p) :
    Attributions supply (fs ++ [f]) (ps ++ [p]) := by
  refine ⟨by simp [h.length], fun i g hg => ?_⟩
  by_cases hi : i < fs.length
  · rw [List.getElem?_append_left hi] at hg
    obtain ⟨q, hq, hqg⟩ := h.each i g hg
    have hips : i < ps.length := h.length ▸ hi
    refine ⟨q, by rw [List.getElem?_append_left hips, hq], ?_⟩
    rw [List.take_append_of_le_length (Nat.le_of_lt hips)]
    exact hqg
  · have hlast : i = fs.length := by
      have hbound := (List.getElem?_eq_some_iff.mp hg).1
      rw [List.length_append, List.length_singleton] at hbound
      omega
    subst hlast
    rw [List.getElem?_concat_length] at hg
    obtain rfl := Option.some.inj hg
    rw [← h.length]
    exact ⟨p, by rw [List.getElem?_concat_length], by rwa [List.take_left]⟩

end Attributions

namespace Assembly

variable {supply : Supply} {es : List Event} {a : Assembly}

/-! ## What a fragment is attributed to -/

theorem firstIds_eq_nil {ps : List CallPiece} : firstIds ps = [] ↔ ps = [] := by
  constructor
  · intro h
    cases ps with
    | nil => rfl
    | cons p rest =>
      have hp : p.id ∈ firstIds (p :: rest) := List.mem_eraseDups.mpr (List.mem_cons_self ..)
      rw [h] at hp
      exact absurd hp List.not_mem_nil
  · rintro rfl
    rfl

theorem Assembled.getLast?_calls (h : Assembled es a) :
    a.calls.getLast?.map OpenCall.id = (firstIds (piecesOf es)).getLast? := by
  rw [h.calls, List.getLast?_map, Option.map_map]
  exact Option.map_id'

theorem callId_of_own {f : Fragment} {id : String} (hf : f.ownId? = some id) :
    a.callId supply f = (id, a.minted) := by
  unfold callId
  rw [Fragment.ownId?] at hf
  rw [hf]

theorem callId_of_latest {f : Fragment} {c : OpenCall} (hf : f.ownId? = none)
    (hc : a.calls.getLast? = some c) : a.callId supply f = (c.id, a.minted) := by
  unfold callId
  rw [Fragment.ownId?] at hf
  rw [hf, hc]

theorem callId_of_first {f : Fragment} (hf : f.ownId? = none) (hc : a.calls = []) :
    a.callId supply f = (IdKind.call.mint supply a.minted, a.minted + 1) := by
  unfold callId
  rw [Fragment.ownId?] at hf
  rw [hf, hc]
  rfl

theorem pushFragment_attributed (supply : Supply) (h : Assembled es a) (f : Fragment) :
    ∃ p, (a.pushFragment supply f).1 = .toolCall p ∧ Attributed supply (piecesOf es) f p := by
  have hnext := h.pushFragment supply f
  set p : CallPiece := ⟨(a.callId supply f).1, f.name, f.callType, f.arguments.getD "",
    (addTo (a.callId supply f).1 f a.calls).2⟩ with hp
  have hevent : (a.pushFragment supply f).1 = .toolCall p := rfl
  have hpieces : piecesOf (es ++ [(a.pushFragment supply f).1]) = piecesOf es ++ [p] := by
    simp [hevent, piecesOf, Event.piece?]
  have hlast := h.getLast?_calls
  refine ⟨p, hevent, ?_, ?_, ?_, ?_, rfl, rfl, rfl, ?_⟩
  · intro id hid
    rw [hp, callId_of_own hid]
  · intro hid id hlatest
    rw [hlatest] at hlast
    obtain ⟨c, hc, rfl⟩ := Option.map_eq_some_iff.mp hlast
    rw [hp, callId_of_latest hid hc]
  · intro hid
    constructor
    · intro hnew
      by_contra hsome
      have hne : firstIds (piecesOf es) ≠ [] := fun hnil => hsome (firstIds_eq_nil.mp hnil)
      rw [List.getLast?_eq_some_getLast hne] at hlast
      obtain ⟨c, hc, hcid⟩ := Option.map_eq_some_iff.mp hlast
      apply hnew
      rw [hp, callId_of_latest hid hc, hcid]
      exact List.getLast_mem hne
    · intro hnil
      rw [hnil]
      exact List.not_mem_nil
  · intro hid hnil
    have hcalls : a.calls = [] := by
      rw [h.calls, hnil]
      rfl
    exact ⟨a.minted, by rw [hp, callId_of_first hid hcalls]⟩
  · have hplace := hnext.index p
    rw [hpieces] at hplace
    exact hplace (List.mem_append_right _ (List.mem_singleton.mpr rfl))

/-! ## All fragments of a stream -/

/-- An answer that is what its events tell, whose pieces are attributed. -/
structure Traced (supply : Supply) (fs : List Fragment) (es : List Event) (a : Assembly) :
    Prop where
  assembled : Assembled es a
  attributions : Attributions supply fs (piecesOf es)

theorem pushFragments_traced {fs : List Fragment} (h : Traced supply fs es a)
    (more : List Fragment) : Traced supply (fs ++ more) (es ++ (a.pushFragments supply more).1)
      (a.pushFragments supply more).2 := by
  induction more generalizing fs es a with
  | nil => simpa [pushFragments] using h
  | cons f rest ih =>
    obtain ⟨p, hevent, hp⟩ := pushFragment_attributed supply h.assembled f
    have hpieces : piecesOf (es ++ [(a.pushFragment supply f).1]) = piecesOf es ++ [p] := by
      simp [hevent, piecesOf, Event.piece?]
    have hone : Traced supply (fs ++ [f]) (es ++ [(a.pushFragment supply f).1])
        (a.pushFragment supply f).2 :=
      ⟨h.assembled.pushFragment supply f, hpieces ▸ h.attributions.snoc hp⟩
    simpa [pushFragments] using ih hone

theorem push_traced {fs : List Fragment} (h : Traced supply fs es a) (c : Chunk) :
    Traced supply (fs ++ c.toolCalls) (es ++ (a.push supply c).1) (a.push supply c).2 := by
  refine ⟨h.assembled.push supply c, ?_⟩
  have hthought := h.assembled.pushText
    (fun t => h.assembled.pushReasoning supply t) c.reasoning
  have hsaid := hthought.pushText (fun t => hthought.pushContent supply t) c.content
  -- The texts of the chunk come before its fragments and are no pieces.
  have hbefore : Traced supply fs
      (es ++ (a.pushText (pushReasoning supply) c.reasoning).1 ++
        ((a.pushText (pushReasoning supply) c.reasoning).2.pushText (pushContent supply)
          c.content).1)
      ((a.pushText (pushReasoning supply) c.reasoning).2.pushText (pushContent supply)
        c.content).2.closeBlocks := by
    refine ⟨hsaid.closeBlocks, ?_⟩
    rw [piecesOf_append, piecesOf_append, pushText_pieces pushReasoning_piece,
      pushText_pieces pushContent_piece, List.append_nil, List.append_nil]
    exact h.attributions
  have hafter := (pushFragments_traced hbefore c.toolCalls).attributions
  rw [piecesOf_append, piecesOf_append, piecesOf_append, pushText_pieces pushReasoning_piece,
    pushText_pieces pushContent_piece, List.append_nil, List.append_nil] at hafter
  rwa [piecesOf_append, piecesOf_push]

theorem pushAll_traced {fs : List Fragment} (h : Traced supply fs es a) (cs : List Chunk) :
    Traced supply (fs ++ fragmentsOf cs) (es ++ (pushAll supply cs a).1)
      (pushAll supply cs a).2 := by
  induction cs generalizing fs es a with
  | nil => simpa [fragmentsOf, pushAll] using h
  | cons c rest ih =>
    have hrest := ih (push_traced h c)
    simpa [fragmentsOf, pushAll] using hrest

theorem Assembled.turn_calls (h : Assembled es a) : a.turn.calls = callsMade (piecesOf es) := by
  rw [turn, callsMade, h.calls, List.zipIdx_map, List.map_map]
  rfl

end Assembly

namespace Collector

variable {supply : Supply} {k : Collector}

open Assembly (addTo)

/-! ## A fragment added at a place -/

theorem modify_ids (f : Fragment) (place : Nat) (calls : List OpenCall) :
    (calls.modify place (Assembly.OpenCall.add f)).map OpenCall.id = calls.map OpenCall.id := by
  induction calls generalizing place with
  | nil => simp
  | cons c rest ih =>
    cases place with
    | zero => rfl
    | succ place => exact congrArg (c.id :: ·) (ih place)

theorem addTo_at {id : String} {f : Fragment} {calls : List OpenCall} {place : Nat}
    (hnodup : (calls.map OpenCall.id).Nodup) (hplace : calls[place]?.map OpenCall.id = some id) :
    addTo id f calls = (calls.modify place (Assembly.OpenCall.add f), place) := by
  induction calls generalizing place with
  | nil => cases hplace
  | cons c rest ih =>
    obtain ⟨hfirst, hrest⟩ := List.nodup_cons.mp hnodup
    cases place with
    | zero =>
      have hid : c.id = id := Option.some.inj hplace
      rw [addTo, if_pos hid]
      rfl
    | succ place =>
      obtain ⟨d, hd, hdid⟩ := Option.map_eq_some_iff.mp hplace
      -- The call stands further back, so the first call has another id.
      have hne : c.id ≠ id := by
        intro he
        apply hfirst
        rw [he, ← hdid]
        exact List.mem_map_of_mem (List.mem_of_getElem? hd)
      rw [addTo, if_neg hne, ih hrest hplace]
      rfl

theorem addTo_new {id : String} {f : Fragment} {calls : List OpenCall}
    (hnew : id ∉ calls.map OpenCall.id) :
    addTo id f calls =
      ((calls ++ [OpenCall.mk id "" ""]).modify calls.length (Assembly.OpenCall.add f),
        calls.length) := by
  induction calls with
  | nil => rfl
  | cons c rest ih =>
    rw [List.map_cons, List.mem_cons, not_or] at hnew
    rw [addTo, if_neg fun he => hnew.1 he.symm, ih hnew.2]
    rfl

/-! ## The tables agree with the list -/

/-- The tables say where the calls stand. -/
structure Coherent (k : Collector) : Prop where
  byId : ∀ id place, k.byId.lookup id = some place ↔ k.calls[place]?.map OpenCall.id = some id
  latest : ∀ place, k.lastOpened = some place ↔ k.calls.length = place + 1
  /-- An index is known only if a call was opened. -/
  byIndex : k.calls = [] → k.byIndex = []
  nodup : (k.calls.map OpenCall.id).Nodup

theorem coherent_start (minted : Nat) : (start minted).Coherent := by
  refine ⟨fun id place => ?_, fun place => ?_, fun _ => rfl, List.nodup_nil⟩
  · constructor
    · intro h
      cases h
    · intro h
      cases h
  · constructor
    · intro h
      cases h
    · intro h
      cases h

theorem getElem?_opened {calls : List OpenCall} {c : OpenCall} {id : String} {place : Nat} :
    (calls ++ [c])[place]?.map OpenCall.id = some id ↔
      calls[place]?.map OpenCall.id = some id ∨ (place = calls.length ∧ c.id = id) := by
  rcases Nat.lt_trichotomy place calls.length with hlt | rfl | hgt
  · have hne : place ≠ calls.length := Nat.ne_of_lt hlt
    simp [List.getElem?_append_left hlt, hne]
  · simp
  · have hne : place ≠ calls.length := Nat.ne_of_gt hgt
    have hout : (calls ++ [c]).length ≤ place := by
      rw [List.length_append, List.length_singleton]
      omega
    simp [List.getElem?_eq_none hout, List.getElem?_eq_none (Nat.le_of_lt hgt), hne]

theorem Coherent.openCall (h : k.Coherent) {id : String} (index : Option Nat)
    (hnew : id ∉ k.calls.map OpenCall.id) : (k.openCall id index).2.Coherent := by
  refine ⟨fun other place => ?_, fun place => ?_, fun hnil => ?_, ?_⟩
  · show ((id, k.calls.length) :: k.byId).lookup other = some place ↔
      (k.calls ++ [OpenCall.mk id "" ""])[place]?.map OpenCall.id = some other
    rw [getElem?_opened, List.lookup_cons]
    by_cases ho : other = id
    · subst ho
      have hother : k.calls[place]?.map OpenCall.id ≠ some other := by
        intro hfound
        obtain ⟨c, hc, hcid⟩ := Option.map_eq_some_iff.mp hfound
        exact hnew (hcid ▸ List.mem_map_of_mem (List.mem_of_getElem? hc))
      simp [hother, eq_comm]
    · have hne : id ≠ other := fun he => ho he.symm
      rw [beq_eq_false_iff_ne.mpr ho]
      simpa [hne] using h.byId other place
  · show some k.calls.length = some place ↔
      (k.calls ++ [OpenCall.mk id "" ""]).length = place + 1
    rw [List.length_append, List.length_singleton, Option.some.injEq]
    omega
  · exact absurd (List.append_eq_nil_iff.mp hnil).2 (List.cons_ne_nil _ _)
  · show ((k.calls ++ [OpenCall.mk id "" ""]).map OpenCall.id).Nodup
    rw [List.map_append]
    refine List.nodup_append.mpr ⟨h.nodup, List.pairwise_singleton _ _, fun a ha b hb he => ?_⟩
    obtain rfl : b = id := List.mem_singleton.mp hb
    exact hnew (he ▸ ha)

/-! ## A fragment -/

/-- A place that was found, and what the tables have become: the fragment goes to the call that the
list gives it. -/
structure Located (supply : Supply) (f : Fragment) (k : Collector) (r : Nat × Collector) :
    Prop where
  coherent : r.2.Coherent
  call : r.2.calls[r.1]?.map OpenCall.id = some (k.toAssembly.callId supply f).1
  rest : r.2.toAssembly = { k.toAssembly with
    calls := r.2.calls, minted := (k.toAssembly.callId supply f).2 }
  added : addTo (k.toAssembly.callId supply f).1 f k.calls =
    (r.2.calls.modify r.1 (Assembly.OpenCall.add f), r.1)

theorem Coherent.located (h : k.Coherent) {f : Fragment} {id : String} {place : Nat}
    (hid : k.toAssembly.callId supply f = (id, k.minted))
    (hplace : k.calls[place]?.map OpenCall.id = some id) : Located supply f k (place, k) where
  coherent := h
  call := by rw [hid, hplace]
  rest := by rw [hid]
  added := by
    rw [hid]
    exact addTo_at h.nodup hplace

theorem Coherent.located_new (h : k.Coherent) {f : Fragment} {id : String} {minted : Nat}
    (hid : k.toAssembly.callId supply f = (id, minted)) (hnew : id ∉ k.calls.map OpenCall.id) :
    Located supply f k (Collector.openCall id f.index { k with minted := minted }) where
  coherent := by
    have hsame : Coherent { k with minted := minted } := ⟨h.byId, h.latest, h.byIndex, h.nodup⟩
    exact hsame.openCall f.index hnew
  call := by
    rw [hid]
    exact getElem?_opened.mpr (Or.inr ⟨rfl, rfl⟩)
  rest := by
    rw [hid]
    rfl
  added := by
    rw [hid]
    exact addTo_new hnew

theorem placeOf_located (supply : Supply) (h : k.Coherent) (f : Fragment) :
    Located supply f k (k.placeOf supply f) := by
  unfold placeOf
  cases hown : f.ownId? with
  | some id =>
    have hid : k.toAssembly.callId supply f = (id, k.minted) := Assembly.callId_of_own hown
    cases hfound : k.byId.lookup id with
    | some place =>
      simp only [hfound]
      exact h.located hid ((h.byId id place).mp hfound)
    | none =>
      simp only [hfound]
      refine h.located_new hid fun hmem => ?_
      obtain ⟨c, hc, hcid⟩ := List.mem_map.mp hmem
      obtain ⟨place, hplace⟩ := List.mem_iff_getElem?.mp hc
      rw [(h.byId id place).mpr (by rw [hplace, ← hcid]; rfl)] at hfound
      cases hfound
  | none =>
    cases hlast : k.lastOpened with
    | some place =>
      have hlength := (h.latest place).mp hlast
      obtain ⟨c, hc⟩ : ∃ c, k.calls[place]? = some c :=
        ⟨_, List.getElem?_eq_getElem (by omega)⟩
      have hget : k.calls.getLast? = some c := by
        rw [List.getLast?_eq_getElem?, hlength]
        exact hc
      exact h.located (Assembly.callId_of_latest hown hget) (by rw [hc]; rfl)
    | none =>
      have hnil : k.calls = [] := by
        cases hcalls : k.calls with
        | nil => rfl
        | cons c rest =>
          have hopen := (h.latest rest.length).mpr (by rw [hcalls]; rfl)
          rw [hlast] at hopen
          cases hopen
      -- No call is open, so no index is known either, and the table by index gives nothing.
      have hindex : (f.index.bind fun i => k.byIndex.lookup i) = none := by
        rw [h.byIndex hnil]
        cases f.index <;> rfl
      simp only [hindex]
      refine h.located_new (Assembly.callId_of_first hown hnil) fun hmem => ?_
      rw [hnil] at hmem
      exact absurd hmem List.not_mem_nil

/-! ## Steps, chunks and streams -/

/-- A step of a collector does what a step of an assembly does, and leaves the tables coherent. -/
structure Follows {α : Type} (r : α × Collector) (r' : α × Assembly) : Prop where
  result : r.1 = r'.1
  assembly : r.2.toAssembly = r'.2
  coherent : r.2.Coherent

theorem Coherent.added (h : k.Coherent) (f : Fragment) (place : Nat) :
    Coherent { k with calls := k.calls.modify place (Assembly.OpenCall.add f) } := by
  refine ⟨fun id other => (h.byId id other).trans ?_, fun other => (h.latest other).trans ?_,
    fun hnil => h.byIndex ?_, ?_⟩
  · rw [← List.getElem?_map, ← List.getElem?_map, modify_ids]
  · rw [List.length_modify]
  · have hlength := List.length_modify (Assembly.OpenCall.add f) k.calls place
    rw [show k.calls.modify place (Assembly.OpenCall.add f) = [] from hnil] at hlength
    exact List.eq_nil_of_length_eq_zero hlength.symm
  · rw [modify_ids]
    exact h.nodup

theorem pushFragment_follows (supply : Supply) (h : k.Coherent) (f : Fragment) :
    Follows (k.pushFragment supply f) (k.toAssembly.pushFragment supply f) := by
  obtain ⟨hcoherent, hcall, hrest, hadded⟩ := placeOf_located supply h f
  obtain ⟨c, hc, hcid⟩ := Option.map_eq_some_iff.mp hcall
  refine ⟨?_, ?_, hcoherent.added f _⟩
  · dsimp only [pushFragment, Assembly.pushFragment]
    rw [hadded, List.getD_eq_getElem?_getD, hc, ← hcid]
    rfl
  · dsimp only [pushFragment, Assembly.pushFragment]
    rw [hrest, hadded]

theorem pushFragments_follows (supply : Supply) (h : k.Coherent) (fs : List Fragment) :
    Follows (k.pushFragments supply fs) (k.toAssembly.pushFragments supply fs) := by
  induction fs generalizing k with
  | nil => exact ⟨rfl, rfl, h⟩
  | cons f rest ih =>
    have hone := pushFragment_follows supply h f
    have hrest := ih hone.coherent
    rw [hone.assembly] at hrest
    refine ⟨?_, hrest.assembly, hrest.coherent⟩
    exact congrArg₂ List.cons hone.result hrest.result

theorem pushText_calls {push : String → Assembly → Event × Assembly}
    (hpush : ∀ text (a : Assembly), (push text a).2.calls = a.calls) (text : Option String)
    (a : Assembly) : (a.pushText push text).2.calls = a.calls := by
  unfold Assembly.pushText
  cases text.filter fun t => t != "" with
  | none => rfl
  | some t => exact hpush t a

theorem pushContent_calls (text : String) (a : Assembly) :
    (a.pushContent supply text).2.calls = a.calls := by
  unfold Assembly.pushContent
  cases a.contentBlock <;> rfl

theorem pushReasoning_calls (text : String) (a : Assembly) :
    (a.pushReasoning supply text).2.calls = a.calls := by
  unfold Assembly.pushReasoning
  cases a.reasoningBlock <;> rfl

/-- The tables do not depend on the texts of the answer. -/
theorem Coherent.withAssembly (h : k.Coherent) {a : Assembly} (ha : a.calls = k.calls) :
    Coherent { k with toAssembly := a } := by
  refine ⟨?_, ?_, ?_, ?_⟩
  · rw [ha]
    exact h.byId
  · rw [ha]
    exact h.latest
  · rw [ha]
    exact h.byIndex
  · rw [ha]
    exact h.nodup

theorem push_follows (supply : Supply) (h : k.Coherent) (c : Chunk) :
    Follows (k.push supply c) (k.toAssembly.push supply c) := by
  have hcalls : ((k.toAssembly.pushText (Assembly.pushReasoning supply) c.reasoning).2.pushText
      (Assembly.pushContent supply) c.content).2.calls = k.calls :=
    (pushText_calls pushContent_calls ..).trans (pushText_calls pushReasoning_calls ..)
  dsimp only [push, Assembly.push]
  by_cases hnone : c.toolCalls.isEmpty
  · rw [if_pos hnone, if_pos hnone]
    exact ⟨rfl, rfl, h.withAssembly hcalls⟩
  · rw [if_neg hnone, if_neg hnone]
    have hclosed := h.withAssembly (a := ((k.toAssembly.pushText (Assembly.pushReasoning supply)
      c.reasoning).2.pushText (Assembly.pushContent supply) c.content).2.closeBlocks) hcalls
    have hcalled := pushFragments_follows supply hclosed c.toolCalls
    refine ⟨?_, ?_, hcalled.coherent.withAssembly rfl⟩
    · rw [hcalled.result]
    · rw [hcalled.assembly]

theorem pushAll_follows (supply : Supply) (h : k.Coherent) (cs : List Chunk) :
    Follows (k.pushAll supply cs) (Assembly.pushAll supply cs k.toAssembly) := by
  induction cs generalizing k with
  | nil => exact ⟨rfl, rfl, h⟩
  | cons c rest ih =>
    have hone := push_follows supply h c
    have hrest := ih hone.coherent
    rw [hone.assembly] at hrest
    refine ⟨?_, hrest.assembly, hrest.coherent⟩
    exact congrArg₂ (· ++ ·) hone.result hrest.result

/-- Streams are decoded one after another. -/
def decodeStreams (supply : Supply) : List (List Chunk) → Collector → List Decoded
  | [], _ => []
  | cs :: rest, k =>
    let (events, k) := k.pushAll supply cs
    ⟨cs, events, k.turn⟩ :: decodeStreams supply rest k.next

theorem decodeStreams_eq (supply : Supply) (streams : List (List Chunk)) (minted : Nat) :
    decodeStreams supply streams (start minted) =
      Assembly.decodeStreams supply streams (Assembly.start minted) := by
  induction streams generalizing minted with
  | nil => rfl
  | cons cs rest ih =>
    obtain ⟨hevents, hassembly, -⟩ :=
      pushAll_follows supply (coherent_start minted) cs
    dsimp only [decodeStreams, Assembly.decodeStreams, next, Assembly.next]
    rw [ih, hassembly, hevents]
    rfl

end Collector

namespace Assembly

variable {supply : Supply}

/-! ## Without the indices -/

theorem addTo_unplaced (id : String) (f : Fragment) (calls : List OpenCall) :
    addTo id f.unplaced calls = addTo id f calls := by
  induction calls with
  | nil => rfl
  | cons c rest ih =>
    by_cases hid : c.id = id
    · rw [addTo, addTo, if_pos hid, if_pos hid]
      rfl
    · rw [addTo, addTo, if_neg hid, if_neg hid, ih]

theorem pushFragment_unplaced (f : Fragment) (a : Assembly) :
    a.pushFragment supply f.unplaced = a.pushFragment supply f := by
  have hid : a.callId supply f.unplaced = a.callId supply f := rfl
  simp only [pushFragment, hid, addTo_unplaced]
  rfl

theorem pushFragments_unplaced (fs : List Fragment) (a : Assembly) :
    a.pushFragments supply (fs.map Fragment.unplaced) = a.pushFragments supply fs := by
  induction fs generalizing a with
  | nil => rfl
  | cons f rest ih =>
    simp only [List.map_cons, pushFragments, pushFragment_unplaced, ih]

theorem push_unplaced (c : Chunk) (a : Assembly) :
    a.push supply c.unplaced = a.push supply c := by
  have hempty : (c.toolCalls.map Fragment.unplaced).isEmpty = c.toolCalls.isEmpty :=
    List.isEmpty_map
  simp only [push, Chunk.unplaced, hempty, pushFragments_unplaced]

theorem pushAll_unplaced (cs : List Chunk) (a : Assembly) :
    pushAll supply (cs.map Chunk.unplaced) a = pushAll supply cs a := by
  induction cs generalizing a with
  | nil => rfl
  | cons c rest ih => simp only [List.map_cons, pushAll, push_unplaced, ih]

theorem decodeStreams_unplaced (streams : List (List Chunk)) (a : Assembly) :
    (decodeStreams supply (streams.map (List.map Chunk.unplaced)) a).map
        (fun d => (d.events, d.turn)) =
      (decodeStreams supply streams a).map fun d => (d.events, d.turn) := by
  induction streams generalizing a with
  | nil => rfl
  | cons cs rest ih =>
    simp only [List.map_cons, decodeStreams, pushAll_unplaced, ih]

theorem decodeStreams_attributed (streams : List (List Chunk)) (minted : Nat) :
    ∀ d ∈ decodeStreams supply streams (start minted),
      Attributions supply (fragmentsOf d.chunks) (piecesOf d.events) ∧
        d.turn.calls = callsMade (piecesOf d.events) := by
  induction streams generalizing minted with
  | nil => nofun
  | cons cs rest ih =>
    intro d hd
    rcases List.mem_cons.mp hd with rfl | hd
    · have hstart : Traced supply [] [] (start minted) :=
        ⟨Assembled.start minted, Attributions.nil⟩
      have hall := pushAll_traced hstart cs
      rw [List.nil_append, List.nil_append] at hall
      exact ⟨hall.attributions, hall.assembled.turn_calls⟩
    · exact ih _ d hd

theorem decodeStreams_chunks (streams : List (List Chunk)) (a : Assembly) :
    (decodeStreams supply streams a).map Decoded.chunks = streams := by
  induction streams generalizing a with
  | nil => rfl
  | cons cs rest ih => exact congrArg (cs :: ·) (ih _)

end Assembly

/-- Streams that differ in the indices of their fragments only. -/
def SameButIndices (streams others : List (List Chunk)) : Prop :=
  others.map (List.map Chunk.unplaced) = streams.map (List.map Chunk.unplaced)

/-- Whatever streams come, a collector attributes each fragment to the call of its own id, else to
the call that was opened last in its stream, else to a new one, and the indices change nothing. It
does just what the list of the calls does without the tables. -/
theorem fragments_attributed (supply : Supply) (streams : List (List Chunk)) (minted : Nat) :
    Collector.decodeStreams supply streams (Collector.start minted) =
        Assembly.decodeStreams supply streams (Assembly.start minted) ∧
      (Collector.decodeStreams supply streams (Collector.start minted)).map Decoded.chunks =
        streams ∧
      (∀ d ∈ Collector.decodeStreams supply streams (Collector.start minted),
        Attributions supply (fragmentsOf d.chunks) (piecesOf d.events) ∧
          d.turn.calls = callsMade (piecesOf d.events)) ∧
      ∀ others, SameButIndices streams others →
        (Collector.decodeStreams supply others (Collector.start minted)).map
            (fun d => (d.events, d.turn)) =
          (Collector.decodeStreams supply streams (Collector.start minted)).map
            fun d => (d.events, d.turn) := by
  simp only [Collector.decodeStreams_eq]
  refine ⟨trivial, Assembly.decodeStreams_chunks ..,
    Assembly.decodeStreams_attributed streams minted, fun others hsame => ?_⟩
  rw [← Assembly.decodeStreams_unplaced others, ← Assembly.decodeStreams_unplaced streams]
  exact congrArg _ (congrArg (Assembly.decodeStreams supply · _) hsame)

-- The first call is touched again, but a fragment without an id still goes to the second.
example :
    (Collector.decodeStreams (fun _ => "") [["a", "b", "a", ""].map fun id =>
        Chunk.ofFragment ⟨some 0, some id, none, none, some "x"⟩] (Collector.start 0)).map
      (fun d => d.turn.calls.map fun c => (c.id, c.rawArguments)) =
        [[("a", "xx"), ("b", "xx")]] := by
  decide +kernel

end AgentRun
