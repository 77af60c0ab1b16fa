import AgentRun.Proofs.Names

/-!
# Tools as sources of values

A template names the tool whose result it takes a value from. Two spellings of a tool name the same
source unless a capital sigma ends a word in one of them: the registry lower-cases it to the final
form, and a template, which is lower-cased character by character, does not. For all other spellings
a result that is recorded under one of them is found by a template that is written with another.
-/

namespace AgentRun

open Text (HasFinalSigma plain isBlank)
open Template (sourceKey isSourceChar)

/-- The text of a template for a field of a source. -/
def reference (source field : String) : String :=
  "\x7b\x7b" ++ source ++ "." ++ field ++ "\x7d\x7d"

/-! ## Reading a template -/

theorem wordRanges_free : ∀ r ∈ Text.wordRanges, Text.FreeOfBlanks r.1 r.2 := by decide +kernel

theorem not_blank_of_word {c : Char} (h : Text.isWord c = true) : isBlank c = false := by
  unfold Text.isWord at h
  split at h
  · rename_i hascii
    have hnone : ∀ n < 128, (Char.ofNat n).isAlphanum = true ∨ Char.ofNat n = '_' →
        isBlank (Char.ofNat n) = false := by decide +kernel
    rw [← Char.ofNat_toNat c] at h ⊢
    exact hnone c.toNat hascii (by simpa using h)
  · obtain ⟨r, hr, hlo, hhi⟩ := Text.exists_of_inRanges h
    exact (wordRanges_free r hr).not_blank hlo hhi

namespace Template

theorem blanks_cons {c : Char} (cs : List Char) (h : isBlank c = false) :
    blanks (c :: cs) = c :: cs :=
  List.dropWhile_cons_of_neg (by simp [h])

theorem mark_cons (c : Char) (cs : List Char) : mark c (c :: cs) = some cs := if_pos rfl

theorem some1_append {p : Char → Bool} {w : List Char} {c : Char} (rest : List Char) (hw : w ≠ [])
    (hall : ∀ d ∈ w, p d = true) (hc : p c = false) :
    some1 p (w ++ c :: rest) = some (w, c :: rest) := by
  have htake : (w ++ c :: rest).takeWhile p = w := by
    rw [List.takeWhile_append_of_pos hall, List.takeWhile_cons_of_neg (by simp [hc]),
      List.append_nil]
  have hdrop : (w ++ c :: rest).dropWhile p = c :: rest := by
    rw [List.dropWhile_append_of_pos hall, List.dropWhile_cons_of_neg (by simp [hc])]
  rw [some1, htake, hdrop, if_neg (by simpa using hw)]

/-- A source without braces and points, with a field, is read back from its template. -/
theorem ofChars?_reference {source field : String} (hsource : source ≠ "")
    (hplain : ∀ c ∈ source.toList, isSourceChar c = true) (hfield : field ≠ "")
    (hword : ∀ c ∈ field.toList, Text.isWord c = true) :
    ofChars? (reference source field).toList = some ⟨source.toList, field, none⟩ := by
  have hsource' : source.toList ≠ [] := fun h => hsource (by simpa using h)
  have hfield' : field.toList ≠ [] := fun h => hfield (by simpa using h)
  have htext : (reference source field).toList = '\x7b' :: '\x7b' ::
      (source.toList ++ '.' :: (field.toList ++ '\x7d' :: ['\x7d'])) := by
    simp [reference]
  have hread : some1 isSourceChar (source.toList ++ '.' :: (field.toList ++ '\x7d' :: ['\x7d'])) =
      some (source.toList, '.' :: (field.toList ++ '\x7d' :: ['\x7d'])) :=
    some1_append _ hsource' hplain (by decide)
  have hblank : blanks (field.toList ++ '\x7d' :: ['\x7d']) =
      field.toList ++ '\x7d' :: ['\x7d'] := by
    cases hcs : field.toList with
    | nil => exact absurd hcs hfield'
    | cons c cs => exact blanks_cons _ (not_blank_of_word (hword c (by simp [hcs])))
  have hname : some1 Text.isWord (field.toList ++ '\x7d' :: ['\x7d']) =
      some (field.toList, '\x7d' :: ['\x7d']) := some1_append _ hfield' hword (by decide)
  have hbrace : isBlank '\x7b' = false ∧ isBlank '\x7d' = false := by decide
  simp only [ofChars?, htext, blanks_cons _ hbrace.1, blanks_cons _ hbrace.2, mark_cons, hread,
    hblank, hname, dateShift, Option.bind_eq_bind, Option.bind_some, String.ofList_toList]
  rfl

/-- The latest record of a source that has the field gives the value. -/
theorem lookup?_eq {t : Template} {earlier later : List ToolRecord} {r : ToolRecord} {value : Json}
    (hr : sourceKey r.toolName.toList = sourceKey t.source)
    (hvalue : r.result.get? t.field = some value)
    (hlater : ∀ r' ∈ later, sourceKey r'.toolName.toList = sourceKey t.source →
      r'.result.get? t.field = none) :
    t.lookup? (earlier ++ r :: later) = some value := by
  have hnone : (later.reverse.filter fun r' => sourceKey r'.toolName.toList ==
      sourceKey t.source).findSome? (fun r' => r'.result.get? t.field) = none := by
    rw [List.findSome?_eq_none_iff]
    intro r' hr'
    rw [List.mem_filter, List.mem_reverse, beq_iff_eq] at hr'
    exact hlater r' hr'.1 hr'.2
  rw [lookup?, List.reverse_append, List.reverse_cons, List.append_assoc, List.filter_append,
    List.findSome?_append, hnone, Option.none_or]
  simp [hr, hvalue]

end Template

/-! ## Two spellings -/

/-- A name that a template can be written with. -/
def Writable (name : String) : Prop := name ≠ "" ∧ ∀ c ∈ name.toList, isSourceChar c = true

/-- Any field of a result that is recorded under a name is found by a template that is written with
another name, unless a later result of that source has the field as well. -/
def FoundUnder (recorded written : String) : Prop :=
  ∀ (field : String) (value : Json) (earlier later : List ToolRecord) (r : ToolRecord),
    field ≠ "" → (∀ c ∈ field.toList, Text.isWord c = true) →
    r.toolName = recorded → r.result.get? field = some value →
    (∀ r' ∈ later, sourceKey r'.toolName.toList = sourceKey written.toList →
      r'.result.get? field = none) →
    resolve (earlier ++ r :: later) (.str (reference written field)) = value

theorem foundUnder_of_sourceKey {recorded written : String} (hwritten : Writable written)
    (hsame : sourceKey recorded.toList = sourceKey written.toList) :
    FoundUnder recorded written := by
  intro field value earlier later r hfield hword hname hvalue hlater
  have htemplate := Template.ofChars?_reference hwritten.1 hwritten.2 hfield hword
  have hfound : Template.lookup? ⟨written.toList, field, none⟩ (earlier ++ r :: later) =
      some value := Template.lookup?_eq (by rw [hname, hsame]) hvalue hlater
  rw [resolve, resolveText, htemplate]
  simp only [hfound]

/-- Two spellings of a tool are the same source but for the form of a sigma. They are the same
source, under which a template finds what is recorded under either, where no capital sigma ends a
word. -/
theorem spellings_are_one_source (a b : String) (hsame : toolKey a = toolKey b) :
    (sourceKey a.toList).map plain = (sourceKey b.toList).map plain ∧
    (¬ HasFinalSigma a.toList → ¬ HasFinalSigma b.toList →
      sourceKey a.toList = sourceKey b.toList ∧ (Writable b → FoundUnder a b)) := by
  refine ⟨by rw [map_plain_sourceKey, map_plain_sourceKey, hsame], fun ha hb => ?_⟩
  have hkey : sourceKey a.toList = sourceKey b.toList := by
    rw [sourceKey_eq ha, sourceKey_eq hb, hsame]
  exact ⟨hkey, fun hwritten => foundUnder_of_sourceKey hwritten hkey⟩

/-- A name of capital sigmas, of which none ends a word, is found under the name in lower case. -/
theorem inner_sigmas_are_one_source :
    toolKey " ΣΊΣΥΦΟς" = toolKey "σίσυφος" ∧ FoundUnder " ΣΊΣΥΦΟς" "σίσυφος" := by
  have hsame : toolKey " ΣΊΣΥΦΟς" = toolKey "σίσυφος" := by decide +kernel
  obtain ⟨-, hplain⟩ := spellings_are_one_source " ΣΊΣΥΦΟς" "σίσυφος" hsame
  have hwritable : Writable "σίσυφος" := ⟨by decide, List.all_eq_true.mp (by decide)⟩
  exact ⟨hsame, (hplain (by decide +kernel) (by decide +kernel)).2 hwritable⟩

/-- A tool is found under its name in capitals and under its name in lower case, but a template with
the second does not find what is recorded under the first: a capital sigma ends it. -/
theorem final_sigma_hides_source :
    toolKey "ΟΔΟΣ" = toolKey "οδος" ∧ sourceKey "ΟΔΟΣ".toList ≠ sourceKey "οδος".toList ∧
      resolve [⟨"c1", "ΟΔΟΣ", .null, .obj [("f", .bool true)]⟩] (.str "\x7b\x7bοδος.f\x7d\x7d") =
        .str "\x7b\x7bοδος.f\x7d\x7d" := by
  decide +kernel

end AgentRun
