import AgentRun.Proofs.Attribution
import AgentRun.Proofs.DateTexts
import AgentRun.Script.Reply

/-!
# Scripted answers are decoded

A scripted answer is made into chunks by one part of the program and put together by another. The
decoder gives back just what the script says: how far an answer has come (`Assembly.Holds`) is
followed chunk by chunk, first for one chunk of each kind and then for all chunks of a script.
-/

namespace AgentRun

open Text (isBlank isBlankText trim)

namespace Json

/-! ## A text of blanks holds no value -/

theorem readValue_blank {cs : List Char} (h : ∀ c ∈ cs, isBlank c = true) (fuel depth : Nat)
    (o : Outline) : ∃ stop, readValue (fuel + 1) depth o cs = .error stop := by
  cases hstart : skipSpace cs with
  | nil =>
    rw [readValue, hstart]
    exact ⟨_, rfl⟩
  | cons c rest =>
    have hmem : c ∈ skipSpace cs := by
      rw [hstart]
      exact List.mem_cons_self
    have hblank : isBlank c = true := h c ((List.dropWhile_sublist isSpace).mem hmem)
    have hdigit : Text.isAsciiDigit c = false := by
      by_contra hd
      rw [Bool.not_eq_false] at hd
      rw [Text.not_blank_of_asciiDigit hd] at hblank
      cases hblank
    rw [readValue, hstart]
    -- None of the characters that start a value is blank.
    split
    case h_9 heq =>
      obtain ⟨rfl, rfl⟩ := List.cons.inj heq
      rw [hdigit]
      exact ⟨_, rfl⟩
    case h_1 heq => cases heq
    all_goals
      rename_i heq
      obtain ⟨rfl, rfl⟩ := List.cons.inj heq
      exact absurd hblank (by decide)

theorem not_blank_of_readFree {s : String} {j : Json} (h : readFree s = .ok j) :
    isBlankText s = false := by
  by_contra hblank
  rw [Bool.not_eq_false, isBlankText, List.all_eq_true] at hblank
  obtain ⟨stop, hstop⟩ := readValue_blank hblank (2 * s.toList.length) depthLimit .whole
  have hall : readAll .whole s.toList = .error stop := by
    rw [readAll, hstop]
    rfl
  rw [readFree, read, readParts, hall] at h
  cases h

end Json

/-- Arguments that can be read are not taken for missing ones. -/
theorem Call.arguments_of_readFree {c : Call} {args : Json}
    (h : Json.readFree c.rawArguments = .ok args) : c.arguments = .ok args := by
  have hblank : isBlankText c.rawArguments = false := Json.not_blank_of_readFree h
  rw [Call.arguments, hblank]
  exact h

/-! ## The chunks of a script -/

namespace Script

theorem firstFragment_ownId {id : String} (hid : id ≠ "") (i : Nat) (name arguments : String) :
    (firstFragment i id name arguments).ownId? = some id := by
  simp [firstFragment, Fragment.ownId?, hid]

theorem add_firstFragment (i : Nat) (id name arguments : String) :
    Assembly.OpenCall.add (firstFragment i id name arguments) ⟨id, "", ""⟩ =
      ⟨id, trim name, arguments⟩ := by
  simp [Assembly.OpenCall.add, firstFragment]

theorem add_ofArguments (piece : String) (c : OpenCall) :
    Assembly.OpenCall.add (.ofArguments piece) c =
      { c with arguments := c.arguments ++ piece } := by
  unfold Assembly.OpenCall.add
  by_cases hname : c.name = ""
  · rw [if_pos hname, hname]
    rfl
  · rw [if_neg hname]
    rfl

/-- Behind the first fragment there are only fragments without an id. -/
theorem splitCall_cons (id name part : String) (rest : List String) :
    splitCall id name (part :: rest) =
      (Chunk.ofFragment (firstFragment 0 id name part) ::
        rest.map fun part => Chunk.ofFragment (.ofArguments part)) ++
          [.ofFinish "tool_calls"] := by
  have hlater : ∀ p ∈ rest.zipIdx 1, Chunk.ofFragment
      (if p.2 = 0 then firstFragment 0 id name p.1 else .ofArguments p.1) =
        Chunk.ofFragment (.ofArguments p.1) := by
    intro p hp
    have hplace : 1 ≤ p.2 := List.le_snd_of_mem_zipIdx hp
    have hne : p.2 ≠ 0 := by omega
    rw [if_neg hne]
  have hparts : rest.map (fun part => Chunk.ofFragment (.ofArguments part)) =
      (rest.zipIdx 1).map fun p => Chunk.ofFragment (.ofArguments p.1) := by
    conv_lhs => rw [← List.zipIdx_map_fst 1 rest, List.map_map]
    rfl
  rw [splitCall, List.zipIdx_cons, List.map_cons, hparts, ← List.map_congr_left hlater]
  rfl

end Script

/-! ## One chunk -/

namespace Assembly

/-- How far an answer has come, whatever its blocks and the minted ids are. -/
structure Holds (a : Assembly) (text reasoning : String) (calls : List OpenCall)
    (reason : Option String) : Prop where
  text : a.text = text
  reasoning : a.reasoning = reasoning
  calls : a.calls = calls
  reason : a.finishReason = reason

variable {supply : Supply} {a : Assembly} {text reasoning : String} {calls before : List OpenCall}
  {reason : Option String} {f : Fragment}

/-- Calls of other ids in front stay as they are. -/
theorem addTo_append {id : String} (hnew : id ∉ before.map OpenCall.id) (rest : List OpenCall) :
    (addTo id f (before ++ rest)).1 = before ++ (addTo id f rest).1 := by
  induction before with
  | nil => rfl
  | cons d before ih =>
    rw [List.map_cons, List.mem_cons, not_or] at hnew
    obtain ⟨hd, hbefore⟩ := hnew
    rw [List.cons_append, addTo, if_neg fun he => hd he.symm, List.cons_append, ← ih hbefore]

/-- An empty piece is not pushed, which does the same as to push it. -/
theorem pushText_some {push : String → Assembly → Event × Assembly} {P : String → Assembly → Prop}
    (hempty : P "" a) (hpush : ∀ piece, P piece (push piece a).2) (piece : String) :
    P piece (a.pushText push (some piece)).2 := by
  unfold pushText
  by_cases hpiece : piece = ""
  · subst hpiece
    exact hempty
  · have hkept : (some piece).filter (fun t => t != "") = some piece := by simp [hpiece]
    rw [hkept]
    exact hpush piece

namespace Holds

variable (supply)

theorem start (minted : Nat) : (Assembly.start minted).Holds "" "" [] none := ⟨rfl, rfl, rfl, rfl⟩

theorem content (h : a.Holds text reasoning calls reason) (piece : String) :
    (a.push supply (.ofContent piece)).2.Holds (text ++ piece) reasoning calls reason := by
  have hpushed : (a.push supply (.ofContent piece)).2 =
      (a.pushText (pushContent supply) (some piece)).2 := rfl
  rw [hpushed]
  refine pushText_some (P := fun piece b => b.Holds (text ++ piece) reasoning calls reason) ?_
    (fun piece => ?_) piece
  · rwa [String.append_empty]
  · unfold pushContent
    cases a.contentBlock with
    | some block => exact ⟨congrArg (· ++ piece) h.text, h.reasoning, h.calls, h.reason⟩
    | none => exact ⟨congrArg (· ++ piece) h.text, h.reasoning, h.calls, h.reason⟩

theorem thought (h : a.Holds text reasoning calls reason) (piece : String) :
    (a.push supply (.ofReasoning piece)).2.Holds text (reasoning ++ piece) calls reason := by
  have hpushed : (a.push supply (.ofReasoning piece)).2 =
      (a.pushText (pushReasoning supply) (some piece)).2 := rfl
  rw [hpushed]
  refine pushText_some (P := fun piece b => b.Holds text (reasoning ++ piece) calls reason) ?_
    (fun piece => ?_) piece
  · rwa [String.append_empty]
  · unfold pushReasoning
    cases a.reasoningBlock with
    | some block => exact ⟨h.text, congrArg (· ++ piece) h.reasoning, h.calls, h.reason⟩
    | none => exact ⟨h.text, congrArg (· ++ piece) h.reasoning, h.calls, h.reason⟩

theorem finished (h : a.Holds text reasoning calls reason) (last : String) :
    (a.push supply (.ofFinish last)).2.Holds text reasoning calls (some last) :=
  ⟨h.text, h.reasoning, h.calls, rfl⟩

/-- A fragment with a new id opens a call. -/
theorem opened (h : a.Holds text reasoning calls reason) {id : String} (hid : f.ownId? = some id)
    (hnew : id ∉ calls.map OpenCall.id) : (a.push supply (.ofFragment f)).2.Holds text reasoning
      (calls ++ [OpenCall.add f ⟨id, "", ""⟩]) reason := by
  have hcall : a.closeBlocks.callId supply f = (id, a.minted) := callId_of_own hid
  refine ⟨h.text, h.reasoning, ?_, h.reason⟩
  show (addTo (a.closeBlocks.callId supply f).1 f a.calls).1 = _
  have hadd := addTo_append (f := f) hnew []
  rw [List.append_nil] at hadd
  rw [hcall, h.calls, hadd]
  rfl

/-- A fragment without an id adds to the last call. -/
theorem added {c : OpenCall} (h : a.Holds text reasoning (before ++ [c]) reason)
    (hid : f.ownId? = none) (hnew : c.id ∉ before.map OpenCall.id) :
    (a.push supply (.ofFragment f)).2.Holds text reasoning (before ++ [OpenCall.add f c])
      reason := by
  have hlast : a.closeBlocks.calls.getLast? = some c := by
    show a.calls.getLast? = some c
    rw [h.calls, List.getLast?_append_cons]
    rfl
  have hcall : a.closeBlocks.callId supply f = (c.id, a.minted) := callId_of_latest hid hlast
  refine ⟨h.text, h.reasoning, ?_, h.reason⟩
  show (addTo (a.closeBlocks.callId supply f).1 f a.calls).1 = _
  rw [hcall, h.calls, addTo_append hnew, addTo, if_pos rfl]

end Holds

/-! ## All chunks of a script -/

theorem pushAll_append (cs ds : List Chunk) (a : Assembly) :
    (pushAll supply (cs ++ ds) a).2 = (pushAll supply ds (pushAll supply cs a).2).2 := by
  induction cs generalizing a with
  | nil => rfl
  | cons c rest ih => exact ih _

namespace Holds

variable (supply)

theorem contents (h : a.Holds text reasoning calls reason) (pieces : List String) :
    (pushAll supply (pieces.map Chunk.ofContent) a).2.Holds (text ++ String.join pieces) reasoning
      calls reason := by
  induction pieces generalizing a text with
  | nil => simpa [pushAll, String.join] using h
  | cons piece rest ih =>
    have hrest := ih (h.content supply piece)
    rw [String.append_assoc] at hrest
    rw [String.join_cons]
    exact hrest

/-- Fragments without an id add their texts to the last call. -/
theorem addedAll {c : OpenCall} (h : a.Holds text reasoning (before ++ [c]) reason)
    (hnew : c.id ∉ before.map OpenCall.id) (pieces : List String) :
    (pushAll supply (pieces.map fun piece => Chunk.ofFragment (.ofArguments piece)) a).2.Holds text
      reasoning (before ++ [{ c with arguments := c.arguments ++ String.join pieces }]) reason := by
  induction pieces generalizing a c with
  | nil => simpa [pushAll, String.join] using h
  | cons piece rest ih =>
    have hone := h.added supply (f := .ofArguments piece) rfl hnew
    rw [Script.add_ofArguments] at hone
    have hrest := ih hone hnew
    rw [String.append_assoc] at hrest
    rw [String.join_cons]
    exact hrest

/-- First fragments of calls with new ids, each of its own, open these calls in their order. -/
theorem openedAll {cs : List (String × String × Json)} (n : Nat)
    (h : a.Holds text reasoning calls reason) (hids : ∀ c ∈ cs, c.1 ≠ "")
    (hnodup : (calls.map OpenCall.id ++ cs.map Prod.fst).Nodup) :
    (pushAll supply ((cs.zipIdx n).map fun ((id, name, args), i) =>
        Chunk.ofFragment (Script.firstFragment i id name args.text)) a).2.Holds text reasoning
      (calls ++ cs.map fun (id, name, args) => ⟨id, trim name, args.text⟩) reason := by
  induction cs generalizing a calls n with
  | nil => simpa [pushAll] using h
  | cons c rest ih =>
    obtain ⟨id, name, args⟩ := c
    have hown : (Script.firstFragment n id name args.text).ownId? = some id :=
      Script.firstFragment_ownId (hids _ List.mem_cons_self) n name args.text
    have hnew : id ∉ calls.map OpenCall.id := by
      intro hmem
      exact (List.nodup_append.mp hnodup).2.2 id hmem id List.mem_cons_self rfl
    have hone := h.opened supply hown hnew
    rw [Script.add_firstFragment] at hone
    have hnext : ((calls ++ [OpenCall.mk id (trim name) args.text]).map OpenCall.id ++
        rest.map Prod.fst).Nodup := by
      rw [List.map_append, List.append_assoc]
      exact hnodup
    have hrest := ih (n + 1) hone (fun d hd => hids d (List.mem_cons_of_mem _ hd)) hnext
    rw [List.append_assoc] at hrest
    exact hrest

end Holds

end Assembly

namespace Collector

/-- The turn that a decoder makes of one stream. -/
def decode (supply : Supply) (minted : Nat) (cs : List Chunk) : Turn :=
  ((start minted).pushAll supply cs).2.turn

theorem decode_finished {supply : Supply} {minted : Nat} {cs : List Chunk}
    {text reasoning : String} {calls : List OpenCall} {reason : Option String}
    (h : (Assembly.pushAll supply cs (Assembly.start minted)).2.Holds text reasoning calls reason)
    (last : String) : decode supply minted (cs ++ [.ofFinish last]) = ⟨text, reasoning,
      calls.zipIdx.map fun (c, i) => ⟨c.id, c.name, c.arguments, i⟩, some last⟩ := by
  obtain ⟨-, hassembly, -⟩ :=
    pushAll_follows supply (coherent_start minted) (cs ++ [.ofFinish last])
  have hall : ((start minted).pushAll supply (cs ++ [.ofFinish last])).2.Holds text reasoning
      calls (some last) := by
    rw [hassembly, Assembly.pushAll_append]
    exact h.finished supply last
  rw [decode, Assembly.turn, hall.text, hall.reasoning, hall.calls, hall.reason]

end Collector

namespace Script

open Collector (decode decode_finished)

variable (supply : Supply) (minted : Nat)

theorem decode_calls {cs : List (String × String × Json)} (hids : ∀ c ∈ cs, c.1 ≠ "")
    (hnodup : (cs.map Prod.fst).Nodup) : decode supply minted (calls cs) =
      ⟨"", "", cs.zipIdx.map fun ((id, name, args), i) => ⟨id, trim name, args.text, i⟩,
        some "tool_calls"⟩ := by
  have hopened := (Assembly.Holds.start minted).openedAll supply 0 hids hnodup
  rw [calls, decode_finished hopened, List.nil_append, List.zipIdx_map, List.map_map]
  rfl

theorem decode_splitCall {id name : String} {parts : List String} (hid : id ≠ "")
    (hparts : parts ≠ []) : decode supply minted (splitCall id name parts) =
      ⟨"", "", [⟨id, trim name, String.join parts, 0⟩], some "tool_calls"⟩ := by
  obtain ⟨part, rest, rfl⟩ := List.exists_cons_of_ne_nil hparts
  have hown := firstFragment_ownId hid 0 name part
  have hone := (Assembly.Holds.start minted).opened supply hown List.not_mem_nil
  rw [add_firstFragment] at hone
  have hall := hone.addedAll supply List.not_mem_nil rest
  rw [splitCall_cons, decode_finished hall, String.join_cons]
  rfl

theorem decode_texts (parts : List String) : decode supply minted (texts parts) =
    ⟨String.join parts, "", [], some "stop"⟩ := by
  have hsaid := (Assembly.Holds.start minted).contents supply parts
  rw [texts, decode_finished hsaid, String.empty_append]
  rfl

theorem decode_reasonedText (reasoning text : String) :
    decode supply minted (reasonedText reasoning text) = ⟨text, reasoning, [], some "stop"⟩ := by
  have hthought := (Assembly.Holds.start minted).thought supply reasoning
  have hsaid : (Assembly.pushAll supply [.ofReasoning reasoning, .ofContent text]
      (Assembly.start minted)).2.Holds ("" ++ text) ("" ++ reasoning) [] none :=
    hthought.content supply text
  rw [String.empty_append, String.empty_append] at hsaid
  exact decode_finished hsaid "stop"

/-- What a script says is what a decoder makes of it, whatever ids it has minted before. Calls with
ids, each of its own, come out in their order with the names trimmed, and arguments that read back
from their text are read back; the parts of a call that is split make up one text; a text and a
reasoning come out whole and without a call. -/
theorem scripts_decode (supply : Supply) (minted : Nat) :
    (∀ cs : List (String × String × Json), (∀ c ∈ cs, c.1 ≠ "") → (cs.map Prod.fst).Nodup →
      decode supply minted (calls cs) =
          ⟨"", "", cs.zipIdx.map fun ((id, name, args), i) => ⟨id, trim name, args.text, i⟩,
            some "tool_calls"⟩ ∧
        ∀ (i : Nat) (id name : String) (args : Json), cs[i]? = some (id, name, args) →
          Json.readFree args.text = .ok args →
            (decode supply minted (calls cs)).calls[i]?.map Call.arguments = some (.ok args)) ∧
    (∀ id name parts, id ≠ "" → parts ≠ [] → decode supply minted (splitCall id name parts) =
      ⟨"", "", [⟨id, trim name, String.join parts, 0⟩], some "tool_calls"⟩) ∧
    (∀ parts, decode supply minted (texts parts) = ⟨String.join parts, "", [], some "stop"⟩) ∧
    ∀ reasoning text, decode supply minted (reasonedText reasoning text) =
      ⟨text, reasoning, [], some "stop"⟩ := by
  refine ⟨fun cs hids hnodup => ?_, fun id name parts => decode_splitCall supply minted,
    decode_texts supply minted, decode_reasonedText supply minted⟩
  have hturn := decode_calls supply minted hids hnodup
  refine ⟨hturn, fun i id name args hget hread => ?_⟩
  rw [hturn, List.getElem?_map, List.getElem?_zipIdx, hget]
  exact congrArg some (Call.arguments_of_readFree hread)

/-- Two calls, of which one has no arguments to speak of and the other a blank around its name. -/
theorem two_calls_decode :
    let cs : List (String × String × Json) :=
      [("c1", "look", .null), ("c2", " tell ", .obj [("text", .str " \"hi\" ")])]
    decode (Uuid.timed 0) 0 (calls cs) =
        ⟨"", "", [⟨"c1", "look", "null", 0⟩,
          ⟨"c2", "tell", "\x7b\"text\":\" \\\"hi\\\" \"\x7d", 1⟩], some "tool_calls"⟩ ∧
      (decode (Uuid.timed 0) 0 (calls cs)).calls[1]?.map Call.arguments =
        some (.ok (.obj [("text", .str " \"hi\" ")])) ∧
      decode (Uuid.timed 0) 0 (splitCall "c1" "tell" ["\x7b", "", "\x7d"]) =
        ⟨"", "", [⟨"c1", "tell", "\x7b\x7d", 0⟩], some "tool_calls"⟩ := by
  intro cs
  obtain ⟨hcalls, hsplit, -⟩ := scripts_decode (Uuid.timed 0) 0
  obtain ⟨hturn, hread⟩ := hcalls cs (by decide) (by decide)
  refine ⟨hturn.trans (by decide +kernel), hread 1 _ _ _ rfl (by decide +kernel), ?_⟩
  exact (hsplit "c1" "tell" _ (by decide) (by decide)).trans (by decide +kernel)

end Script

end AgentRun
