import Mathlib.Data.List.TakeWhile
import AgentRun.Template
import AgentRun.Tool.Registry

/-!
# The forms of a name

A tool is looked up under its name without the blanks around it and in lower case (`toolKey`), and a
template refers to it under its name without any blanks and in lower case, character by character
(`Template.sourceKey`). Lower-casing neither makes nor takes away blanks, so the two forms only
differ by what lower-casing a text does beyond its characters: a capital sigma that ends a word
takes the final form. But for the form of the sigmas, the second form is the first without its
blanks (`map_plain_sourceKey`), and where no capital sigma ends a word it is just that
(`sourceKey_eq`).
-/

namespace AgentRun

namespace Text

/-! ## Trimming -/

/-- Only blanks are trimmed, before a text and after it. -/
theorem eq_trimmed (cs : List Char) : ∃ before after, cs = before ++ (trimmed cs ++ after) ∧
    (∀ c ∈ before, isBlank c = true) ∧ ∀ c ∈ after, isBlank c = true := by
  have hfront := List.takeWhile_append_dropWhile (p := isBlank) (l := cs)
  have hback := List.takeWhile_append_dropWhile (p := isBlank) (l := (cs.dropWhile isBlank).reverse)
  refine ⟨cs.takeWhile isBlank, ((cs.dropWhile isBlank).reverse.takeWhile isBlank).reverse, ?_, ?_,
    ?_⟩
  · rw [trimmed, ← List.reverse_append, hback, List.reverse_reverse, hfront]
  · exact fun c hc => List.all_eq_true.mp List.all_takeWhile c hc
  · exact fun c hc => List.all_eq_true.mp List.all_takeWhile c (List.mem_reverse.mp hc)

/-- Blanks around a text make no difference to it. -/
theorem trimmed_blanks {before after : List Char} (cs : List Char)
    (hbefore : ∀ c ∈ before, isBlank c = true) (hafter : ∀ c ∈ after, isBlank c = true) :
    trimmed (before ++ (cs ++ after)) = trimmed cs := by
  rw [trimmed, trimmed, List.dropWhile_append_of_pos hbefore, List.dropWhile_append]
  split
  · rename_i hempty
    rw [List.dropWhile_eq_nil_iff.mpr hafter, List.isEmpty_iff.mp hempty]
  · have hback : ∀ c ∈ after.reverse, isBlank c = true :=
      fun c hc => hafter c (List.mem_reverse.mp hc)
    rw [List.reverse_append, List.dropWhile_append_of_pos hback]

theorem trimmed_trimmed (cs : List Char) : trimmed (trimmed cs) = trimmed cs := by
  obtain ⟨before, after, hcs, hbefore, hafter⟩ := eq_trimmed cs
  rw [← trimmed_blanks (trimmed cs) hbefore hafter, ← hcs]

theorem filter_trimmed (cs : List Char) :
    (trimmed cs).filter (fun c => !isBlank c) = cs.filter fun c => !isBlank c := by
  obtain ⟨before, after, hcs, hbefore, hafter⟩ := eq_trimmed cs
  have none {l : List Char} (h : ∀ c ∈ l, isBlank c = true) :
      l.filter (fun c => !isBlank c) = [] := by simpa using h
  calc (trimmed cs).filter (fun c => !isBlank c)
      = (before ++ (trimmed cs ++ after)).filter (fun c => !isBlank c) := by
        rw [List.filter_append, List.filter_append, none hbefore, none hafter, List.nil_append,
          List.append_nil]
    _ = cs.filter fun c => !isBlank c := by rw [← hcs]

/-! ## Blanks and lower case -/

/-- The blank characters as ranges of code points. -/
def blankRanges : List (Nat × Nat) := [
  (0x09, 0x0D), (0x20, 0x20), (0x85, 0x85), (0xA0, 0xA0), (0x1680, 0x1680), (0x2000, 0x200A),
  (0x2028, 0x2029), (0x202F, 0x202F), (0x205F, 0x205F), (0x3000, 0x3000)]

theorem inRanges_of_isBlank {c : Char} (h : isBlank c = true) :
    inRanges c.toNat blankRanges = true := by
  simp only [isBlank, Bool.or_eq_true, Bool.and_eq_true, decide_eq_true_eq, beq_iff_eq] at h
  simp only [inRanges, blankRanges, Bool.or_eq_true, Bool.and_eq_true, decide_eq_true_eq,
    Bool.false_eq_true, or_false]
  omega

/-- No blank has a code point from `lo` to `hi`. -/
def FreeOfBlanks (lo hi : Nat) : Prop := ∀ r ∈ blankRanges, hi < r.1 ∨ r.2 < lo

instance (lo hi : Nat) : Decidable (FreeOfBlanks lo hi) :=
  inferInstanceAs (Decidable (∀ r ∈ blankRanges, hi < r.1 ∨ r.2 < lo))

theorem FreeOfBlanks.not_blank {lo hi : Nat} (h : FreeOfBlanks lo hi) {c : Char}
    (hlo : lo ≤ c.toNat) (hhi : c.toNat ≤ hi) : isBlank c = false := by
  rw [Bool.eq_false_iff]
  intro hblank
  obtain ⟨r, hr, hr₁, hr₂⟩ := exists_of_inRanges (inRanges_of_isBlank hblank)
  rcases h r hr with hlt | hlt
  · exact absurd hhi (by omega)
  · exact absurd hlo (by omega)

/-- The lower-case form of the last capital of a run. -/
def CaseRun.lastTarget (r : CaseRun) : Nat := r.target + (r.last - r.first)

/-- Neither the capitals of the table nor their lower-case forms are blank, and all of these are
characters. -/
theorem caseRuns_free : ∀ r ∈ caseRuns, FreeOfBlanks r.first r.last ∧
    FreeOfBlanks r.target r.lastTarget ∧
    (r.lastTarget < 0xD800 ∨ 0xDFFF < r.target ∧ r.lastTarget < 0x110000) := by
  decide +kernel

theorem lowerCode_cases (n : Nat) (runs : List CaseRun) : lowerCode n runs = n ∨
    ∃ r ∈ runs, r.first ≤ n ∧ n ≤ r.last ∧ lowerCode n runs = r.target + (n - r.first) := by
  induction runs with
  | nil => exact Or.inl rfl
  | cons r rest ih =>
    rw [lowerCode]
    split
    · exact Or.inl rfl
    · rename_i hfirst
      split
      · rename_i hin
        exact Or.inr ⟨r, List.mem_cons_self, Nat.le_of_not_lt hfirst, hin.1, rfl⟩
      · rcases ih with h | ⟨r', hr', h⟩
        · exact Or.inl h
        · exact Or.inr ⟨r', List.mem_cons_of_mem _ hr', h⟩

theorem toNat_ofNat {n : Nat} (h : n.isValidChar) : (Char.ofNat n).toNat = n := by
  rw [Char.ofNat, dif_pos h]
  rfl

/-- Lower-casing by the table neither makes nor takes away a blank. -/
theorem isBlank_lowerCode (c : Char) :
    isBlank (Char.ofNat (lowerCode c.toNat caseRuns)) = isBlank c := by
  rcases lowerCode_cases c.toNat caseRuns with h | ⟨r, hr, hfirst, hlast, h⟩
  · rw [h, Char.ofNat_toNat]
  · obtain ⟨hcapital, htarget, hvalid⟩ := caseRuns_free r hr
    simp only [CaseRun.lastTarget] at htarget hvalid
    have hchar : (r.target + (c.toNat - r.first)).isValidChar := by
      unfold Nat.isValidChar
      omega
    have htoNat := toNat_ofNat hchar
    rw [h, hcapital.not_blank hfirst hlast]
    exact htarget.not_blank (by omega) (by omega)

theorem isBlank_toLower : ∀ n < 128, isBlank (Char.ofNat n).toLower = isBlank (Char.ofNat n) := by
  decide +kernel

/-- Lower-casing neither makes nor takes away a blank. -/
theorem isBlank_of_mem_lowerChar {c d : Char} (h : d ∈ lowerChar c) : isBlank d = isBlank c := by
  unfold lowerChar at h
  split at h
  · rename_i hascii
    rw [List.mem_singleton.mp h]
    simpa using isBlank_toLower c.toNat hascii
  · split at h
    · rename_i hdotted
      have hc : isBlank c = false := by simp [isBlank, hdotted]
      rw [hc]
      rcases List.mem_cons.mp h with rfl | h
      · decide
      · rw [List.mem_singleton.mp h]
        decide
    · rw [List.mem_singleton.mp h]
      exact isBlank_lowerCode c

/-- A text may as well lose its blanks after it was lower-cased, character by character. -/
theorem filter_flatMap_lowerChar (cs : List Char) :
    (cs.filter fun c => !isBlank c).flatMap lowerChar =
      (cs.flatMap lowerChar).filter fun c => !isBlank c := by
  induction cs with
  | nil => rfl
  | cons c cs ih =>
    rw [List.flatMap_cons, List.filter_append, ← ih]
    cases hc : isBlank c with
    | true =>
      have hnone : (lowerChar c).filter (fun c => !isBlank c) = [] := by
        simpa using fun d hd => (isBlank_of_mem_lowerChar hd).trans hc
      simp [hc, hnone]
    | false =>
      have hall : (lowerChar c).filter (fun c => !isBlank c) = lowerChar c := by
        simpa using fun d hd => (isBlank_of_mem_lowerChar hd).trans hc
      simp [hc, hall]

/-! ## The final sigma -/

/-- The character with the form of a final sigma taken back. -/
def plain (c : Char) : Char := if c = 'ς' then 'σ' else c

theorem isBlank_plain (c : Char) : isBlank (plain c) = isBlank c := by
  unfold plain
  split
  · rename_i hc
    rw [hc]
    decide
  · rfl

/-- A capital sigma ends a word of the text, with a cased letter before it and none after it. -/
def HasFinalSigma (cs : List Char) : Prop :=
  ∃ before after, cs = before ++ 'Σ' :: after ∧ startsCased before.reverse = true ∧
    startsCased after = false

theorem hasFinalSigma_iff {cs : List Char} : HasFinalSigma cs ↔ ∃ i < cs.length,
    cs[i]? = some 'Σ' ∧ startsCased (cs.take i).reverse = true ∧
      startsCased (cs.drop (i + 1)) = false := by
  constructor
  · rintro ⟨before, after, rfl, hbefore, hafter⟩
    exact ⟨before.length, by simp, by simp, by simpa using hbefore, by simpa using hafter⟩
  · rintro ⟨i, hi, hget, hbefore, hafter⟩
    refine ⟨cs.take i, cs.drop (i + 1), ?_, hbefore, hafter⟩
    rw [List.getElem?_eq_getElem hi, Option.some.injEq] at hget
    rw [← hget, List.getElem_cons_drop, List.take_append_drop]

instance (cs : List Char) : Decidable (HasFinalSigma cs) :=
  decidable_of_iff _ hasFinalSigma_iff.symm

/-- The first letter that counts is in the first part of a text, unless all of that is skipped. -/
theorem startsCased_append (cs rest : List Char) : startsCased (cs ++ rest) =
    (startsCased cs || cs.all (fun c => inRanges c.toNat ignorableRanges) && startsCased rest) := by
  induction cs with
  | nil => rfl
  | cons c cs ih =>
    simp only [List.cons_append, startsCased, List.all_cons, ih]
    split
    · rename_i hskipped
      rw [hskipped, Bool.true_and]
    · rename_i hcounts
      rw [Bool.eq_false_iff.mpr hcounts, Bool.false_and, Bool.false_and, Bool.or_false]

theorem casedRanges_free : ∀ r ∈ casedRanges, FreeOfBlanks r.1 r.2 := by decide +kernel

theorem not_cased_of_blank {c : Char} (h : isBlank c = true) :
    inRanges c.toNat casedRanges = false := by
  rw [Bool.eq_false_iff]
  intro hcased
  obtain ⟨r, hr, hlo, hhi⟩ := exists_of_inRanges hcased
  rw [(casedRanges_free r hr).not_blank hlo hhi] at h
  cases h

theorem startsCased_blanks {cs : List Char} (h : ∀ c ∈ cs, isBlank c = true) :
    startsCased cs = false := by
  induction cs with
  | nil => rfl
  | cons c cs ih =>
    rw [startsCased]
    split
    · exact ih fun d hd => h d (List.mem_cons_of_mem _ hd)
    · exact not_cased_of_blank (h c List.mem_cons_self)

/-- A sigma that ends a word of a trimmed text ends one of the whole text. -/
theorem HasFinalSigma.of_trimmed {cs : List Char} (h : HasFinalSigma (trimmed cs)) :
    HasFinalSigma cs := by
  obtain ⟨front, back, hcs, -, hback⟩ := eq_trimmed cs
  obtain ⟨before, after, htrimmed, hbefore, hafter⟩ := h
  refine ⟨front ++ before, after ++ back, ?_, ?_, ?_⟩
  · rw [htrimmed] at hcs
    simpa using hcs
  · rw [List.reverse_append, startsCased_append, hbefore, Bool.true_or]
  · rw [startsCased_append, hafter, startsCased_blanks hback, Bool.and_false, Bool.or_false]

/-- But for the form of the sigmas, a text is lower-cased character by character. -/
theorem map_plain_lowerAfter (before cs : List Char) :
    (lowerAfter before cs).map plain = (cs.flatMap lowerChar).map plain := by
  induction cs generalizing before with
  | nil => rfl
  | cons c cs ih =>
    simp only [lowerAfter, List.flatMap_cons, List.map_append, ih]
    congr 1
    split
    · rename_i hc
      have hsigma : c = 'Σ' := by rw [← Char.ofNat_toNat c, hc]
      rw [hsigma]
      split <;> decide
    · rfl

/-- Where no capital sigma ends a word, a text is lower-cased character by character. -/
theorem lowerAfter_eq {before cs : List Char} (h : ¬ HasFinalSigma (before.reverse ++ cs)) :
    lowerAfter before cs = cs.flatMap lowerChar := by
  induction cs generalizing before with
  | nil => rfl
  | cons c cs ih =>
    rw [lowerAfter, List.flatMap_cons, ih (by simpa using h)]
    congr 1
    split
    · rename_i hc
      have hsigma : c = 'Σ' := by rw [← Char.ofNat_toNat c, hc]
      have hnot : (startsCased before && !startsCased cs) = false := by
        rw [Bool.eq_false_iff]
        intro hfinal
        rw [Bool.and_eq_true, Bool.not_eq_true'] at hfinal
        exact h ⟨before.reverse, cs, by rw [hsigma], by simpa using hfinal.1, hfinal.2⟩
      rw [hnot, hsigma]
      decide
    · rfl

end Text

/-! ## The two forms -/

open Text (trimmed isBlank plain HasFinalSigma)
open Template (sourceKey)

theorem toolKey_toList (name : String) :
    (toolKey name).toList = Text.lowerAfter [] (trimmed name.toList) := by
  simp [toolKey, Text.lower, Text.trim]

/-- Blanks around a name make no difference to where its tool is found. -/
theorem toolKey_trim (name : String) : toolKey (Text.trim name) = toolKey name := by
  simp [toolKey, Text.trim, Text.trimmed_trimmed]

theorem sourceKey_trimmed (cs : List Char) :
    sourceKey cs = ((trimmed cs).flatMap Text.lowerChar).filter fun c => !isBlank c := by
  rw [sourceKey, ← Text.filter_trimmed, Text.filter_flatMap_lowerChar]

theorem map_plain_filter (cs : List Char) : (cs.filter fun c => !isBlank c).map plain =
    (cs.map plain).filter fun c => !isBlank c := by
  rw [List.filter_map]
  congr 2
  funext c
  simp [Text.isBlank_plain]

/-- But for the form of the sigmas, a name is referred to by the form under which its tool is found,
without the blanks. -/
theorem map_plain_sourceKey (name : String) : (sourceKey name.toList).map plain =
    ((toolKey name).toList.filter fun c => !isBlank c).map plain := by
  rw [sourceKey_trimmed, map_plain_filter, map_plain_filter, toolKey_toList,
    Text.map_plain_lowerAfter]

/-- Where no capital sigma ends a word, a name is referred to by the form under which its tool is
found, without the blanks. -/
theorem sourceKey_eq {name : String} (h : ¬ HasFinalSigma name.toList) :
    sourceKey name.toList = (toolKey name).toList.filter fun c => !isBlank c := by
  have htrimmed : ¬ HasFinalSigma ([].reverse ++ trimmed name.toList) := fun hf => h hf.of_trimmed
  rw [sourceKey_trimmed, toolKey_toList, Text.lowerAfter_eq htrimmed]

end AgentRun
