import AgentRun.Proofs.Sources

/-!
# Which texts are templates

A template is written with two braces around a source, a point and a field, with or without a shift
of days, and with blanks between these parts and around the braces (`Template.Written`).
`Template.ofChars?` recognises just the texts that are written in this way (`isSome_ofChars?`). It
keeps the blanks around a source, which make no difference to what the source is.
-/

namespace AgentRun

namespace Template

open Text (isBlank isWord isDigit)

/-- Nothing but blanks. -/
def Blanks (cs : List Char) : Prop := ∀ c ∈ cs, isBlank c = true

/-- The sign of a shift. -/
def sign (back : Bool) : Char := if back then '-' else '+'

/-- How a shift is written. -/
inductive ShiftWritten : Option (Bool × List Char) → List Char → Prop
  | none : ShiftWritten none []
  | days (back : Bool) {digits b₁ b₂ : List Char} {unit : Char} (blanks₁ : Blanks b₁)
      (nonempty : digits ≠ []) (number : ∀ c ∈ digits, isDigit c = true) (blanks₂ : Blanks b₂)
      (letter : unit = 'd' ∨ unit = 'D') :
      ShiftWritten (some (back, digits)) (sign back :: (b₁ ++ (digits ++ (b₂ ++ [unit]))))

/-- How a template is written. -/
inductive Written (source field : List Char) (shift : Option (Bool × List Char)) :
    List Char → Prop
  | intro {b₀ b₁ b₂ b₃ b₄ b₅ b₆ days : List Char} (blanks₀ : Blanks b₀) (blanks₁ : Blanks b₁)
      (source_ne : source ≠ []) (source_chars : ∀ c ∈ source, isSourceChar c = true)
      (blanks₂ : Blanks b₂) (blanks₃ : Blanks b₃)
      (field_ne : field ≠ []) (field_chars : ∀ c ∈ field, isWord c = true) (blanks₄ : Blanks b₄)
      (days_written : ShiftWritten shift days) (blanks₅ : Blanks b₅) (blanks₆ : Blanks b₆) :
      Written source field shift
        (b₀ ++ '\x7b' :: '\x7b' :: (b₁ ++ (source ++ (b₂ ++ '.' :: (b₃ ++ (field ++ (b₄ ++
          (days ++ (b₅ ++ '\x7d' :: '\x7d' :: b₆)))))))))

/-! ## Classes of characters -/

theorem isSourceChar_of_blank {c : Char} (h : isBlank c = true) : isSourceChar c = true := by
  have hbraces : isBlank '\x7b' = false ∧ isBlank '\x7d' = false ∧ isBlank '.' = false := by decide
  unfold isSourceChar
  simp only [Bool.and_eq_true, bne_iff_ne]
  refine ⟨⟨?_, ?_⟩, ?_⟩
  · rintro rfl
    rw [hbraces.1] at h
    cases h
  · rintro rfl
    rw [hbraces.2.1] at h
    cases h
  · rintro rfl
    rw [hbraces.2.2] at h
    cases h

theorem not_word_of_blank {c : Char} (h : isBlank c = true) : isWord c = false := by
  rw [Bool.eq_false_iff]
  intro hword
  rw [not_blank_of_word hword] at h
  cases h

theorem digitRanges_free : ∀ r ∈ Text.digitRanges, Text.FreeOfBlanks r.1 r.2 := by decide +kernel

theorem not_blank_of_digit {c : Char} (h : isDigit c = true) : isBlank c = false := by
  obtain ⟨r, hr, hlo, hhi⟩ := Text.exists_of_inRanges h
  exact (digitRanges_free r hr).not_blank hlo hhi

theorem not_digit_of_blank {c : Char} (h : isBlank c = true) : isDigit c = false := by
  rw [Bool.eq_false_iff]
  intro hdigit
  rw [not_blank_of_digit hdigit] at h
  cases h

/-! ## What the readers take -/

theorem blanks_taken (cs : List Char) : ∃ b, Blanks b ∧ cs = b ++ blanks cs :=
  ⟨cs.takeWhile isBlank, fun c hc => List.all_eq_true.mp List.all_takeWhile c hc,
    List.takeWhile_append_dropWhile.symm⟩

theorem mark_taken {c : Char} {cs rest : List Char} (h : mark c cs = some rest) :
    cs = c :: rest := by
  cases cs with
  | nil => cases h
  | cons d cs =>
    dsimp only [mark] at h
    by_cases hd : d = c
    · rw [if_pos hd] at h
      rw [hd, Option.some.inj h]
    · rw [if_neg hd] at h
      cases h

theorem some1_taken {p : Char → Bool} {cs w rest : List Char} (h : some1 p cs = some (w, rest)) :
    w ≠ [] ∧ (∀ c ∈ w, p c = true) ∧ cs = w ++ rest := by
  unfold some1 at h
  split at h
  · cases h
  · rename_i hne
    obtain ⟨rfl, rfl⟩ := Prod.mk.inj (Option.some.inj h)
    refine ⟨by simpa using hne, ?_, List.takeWhile_append_dropWhile.symm⟩
    exact fun c hc => List.all_eq_true.mp List.all_takeWhile c hc

theorem days_taken {back : Bool} {cs rest : List Char} {shift : Option (Bool × List Char)}
    (h : days back cs = some (shift, rest)) :
    ∃ text, ShiftWritten shift (sign back :: text) ∧ cs = text ++ rest := by
  obtain ⟨b₁, hb₁, hcs⟩ := blanks_taken cs
  unfold days at h
  obtain ⟨⟨digits, after⟩, hdigits, h⟩ := Option.bind_eq_some_iff.mp h
  obtain ⟨hne, hnumber, hread⟩ := some1_taken hdigits
  obtain ⟨b₂, hb₂, hafter⟩ := blanks_taken after
  -- Either letter ends the shift.
  have done {unit : Char} {rest' : List Char} (hunit : unit = 'd' ∨ unit = 'D')
      (hrest : blanks after = unit :: rest')
      (hr : some (some (back, digits), rest') = some (shift, rest)) :
      ∃ text, ShiftWritten shift (sign back :: text) ∧ cs = text ++ rest := by
    obtain ⟨rfl, rfl⟩ := Prod.mk.inj (Option.some.inj hr)
    refine ⟨_, .days back hb₁ hne hnumber hb₂ hunit, ?_⟩
    rw [hcs, hread, hafter, hrest]
    simp
  dsimp only at h
  split at h
  · rename_i rest' hrest
    exact done (Or.inl rfl) hrest h
  · rename_i rest' hrest
    exact done (Or.inr rfl) hrest h
  · cases h

theorem dateShift_taken {cs rest : List Char} {shift : Option (Bool × List Char)}
    (h : dateShift cs = some (shift, rest)) :
    ∃ text, ShiftWritten shift text ∧ cs = text ++ rest := by
  unfold dateShift at h
  split at h
  · obtain ⟨text, htext, hcs⟩ := days_taken h
    exact ⟨_, htext, congrArg _ hcs⟩
  · obtain ⟨text, htext, hcs⟩ := days_taken h
    exact ⟨_, htext, congrArg _ hcs⟩
  · obtain ⟨rfl, rfl⟩ := Prod.mk.inj (Option.some.inj h)
    exact ⟨[], .none, rfl⟩

theorem written_of_ofChars? {cs : List Char} {t : Template} (h : ofChars? cs = some t) :
    Written t.source t.field.toList t.shift cs := by
  obtain ⟨r₀, h₀, h⟩ := Option.bind_eq_some_iff.mp h
  obtain ⟨r₁, h₁, h⟩ := Option.bind_eq_some_iff.mp h
  obtain ⟨⟨source, r₂⟩, h₂, h⟩ := Option.bind_eq_some_iff.mp h
  obtain ⟨r₃, h₃, h⟩ := Option.bind_eq_some_iff.mp h
  obtain ⟨⟨field, r₄⟩, h₄, h⟩ := Option.bind_eq_some_iff.mp h
  obtain ⟨⟨shift, r₅⟩, h₅, h⟩ := Option.bind_eq_some_iff.mp h
  obtain ⟨r₆, h₆, h⟩ := Option.bind_eq_some_iff.mp h
  obtain ⟨r₇, h₇, h⟩ := Option.bind_eq_some_iff.mp h
  split at h
  · rename_i hend
    obtain rfl := Option.some.inj h
    obtain ⟨b₀, hb₀, hcs⟩ := blanks_taken cs
    obtain ⟨hsource, hchars, hr₁⟩ := some1_taken h₂
    obtain ⟨b₃, hb₃, hr₃⟩ := blanks_taken r₃
    obtain ⟨hfield, hword, hr₃'⟩ := some1_taken h₄
    obtain ⟨b₄, hb₄, hr₄⟩ := blanks_taken r₄
    obtain ⟨text, htext, hr₄'⟩ := dateShift_taken h₅
    obtain ⟨b₅, hb₅, hr₅⟩ := blanks_taken r₅
    obtain ⟨b₆, hb₆, hr₇⟩ := blanks_taken r₇
    have hempty : blanks r₇ = [] := List.isEmpty_iff.mp hend
    -- The blanks beside a source are read with it.
    have hnone : Blanks [] := nofun
    have hwritten := Written.intro hb₀ hnone hsource hchars hnone hb₃ hfield hword hb₄ htext hb₅ hb₆
    rw [hcs, mark_taken h₀, mark_taken h₁, hr₁, mark_taken h₃, hr₃, hr₃', hr₄, hr₄', hr₅,
      mark_taken h₆, mark_taken h₇, hr₇, hempty]
    simpa using hwritten
  · cases h

/-! ## What the readers find -/

theorem blanks_append {b : List Char} (cs : List Char) (hb : Blanks b) :
    blanks (b ++ cs) = blanks cs :=
  List.dropWhile_append_of_pos hb

/-- A word of a class is read to its end where what follows starts with no character of the
class. -/
theorem some1_word {p : Char → Bool} {w rest : List Char} (hw : w ≠ [])
    (hall : ∀ c ∈ w, p c = true) (hstop : ∀ c, rest.head? = some c → p c = false) :
    some1 p (w ++ rest) = some (w, rest) := by
  cases rest with
  | nil =>
    have htake : (w ++ []).takeWhile p = w := by
      rw [List.append_nil]
      exact List.takeWhile_eq_self_iff.mpr hall
    have hdrop : (w ++ []).dropWhile p = [] := by
      rw [List.append_nil]
      exact List.dropWhile_eq_nil_iff.mpr hall
    rw [some1, htake, hdrop, if_neg (by simpa using hw)]
  | cons c rest => exact some1_append rest hw hall (hstop c rfl)

/-- What comes behind some blanks starts with a blank or is what comes without them. -/
theorem head_behind_blanks {p : Char → Bool} {b rest : List Char} (hb : Blanks b)
    (hblank : ∀ c, isBlank c = true → p c = false)
    (hrest : ∀ c, rest.head? = some c → p c = false) :
    ∀ c, (b ++ rest).head? = some c → p c = false := by
  intro c hc
  cases b with
  | nil => exact hrest c hc
  | cons d b =>
    obtain rfl := Option.some.inj hc
    exact hblank d (hb d (List.mem_cons_self ..))

theorem blanks_word {p : Char → Bool} {w : List Char} (rest : List Char) (hw : w ≠ [])
    (hall : ∀ c ∈ w, p c = true) (hp : ∀ c, p c = true → isBlank c = false) :
    blanks (w ++ rest) = w ++ rest := by
  cases w with
  | nil => exact absurd rfl hw
  | cons c w => exact blanks_cons _ (hp c (hall c (List.mem_cons_self ..)))

theorem sign_not_blank (back : Bool) : isBlank (sign back) = false := by
  cases back <;> decide

theorem dateShift_sign (back : Bool) (cs : List Char) :
    dateShift (sign back :: cs) = days back cs := by
  cases back <;> rfl

/-- A shift is read behind the blanks before it, with a brace somewhere behind it. -/
theorem dateShift_written {shift : Option (Bool × List Char)} {text b : List Char}
    (rest : List Char) (h : ShiftWritten shift text) (hb : Blanks b) :
    ∃ more, dateShift (blanks (text ++ (b ++ '\x7d' :: rest))) = some (shift, more) ∧
      blanks more = '\x7d' :: rest := by
  have hbrace : isBlank '\x7d' = false := by decide
  cases h with
  | none =>
    refine ⟨'\x7d' :: rest, ?_, blanks_cons _ hbrace⟩
    rw [List.nil_append, blanks_append _ hb, blanks_cons _ hbrace]
    rfl
  | @days back digits b₁ b₂ unit hb₁ hne hnumber hb₂ hunit =>
    refine ⟨b ++ '\x7d' :: rest, ?_, by rw [blanks_append _ hb, blanks_cons _ hbrace]⟩
    have hdigit : isDigit unit = false ∧ isBlank unit = false := by
      rcases hunit with rfl | rfl <;> decide
    have hstop : ∀ c, (b₂ ++ unit :: (b ++ '\x7d' :: rest)).head? = some c → isDigit c = false := by
      refine head_behind_blanks hb₂ (fun c => not_digit_of_blank) fun c hc => ?_
      obtain rfl := Option.some.inj hc
      exact hdigit.1
    have htext : sign back :: (b₁ ++ (digits ++ (b₂ ++ [unit]))) ++ (b ++ '\x7d' :: rest) =
        sign back :: (b₁ ++ (digits ++ (b₂ ++ unit :: (b ++ '\x7d' :: rest)))) := by
      simp
    rw [htext, blanks_cons _ (sign_not_blank back), dateShift_sign, days, blanks_append _ hb₁,
      blanks_word _ hne hnumber fun c => not_blank_of_digit, some1_word hne hnumber hstop]
    dsimp only [Option.bind_eq_bind, Option.bind_some]
    rw [blanks_append _ hb₂, blanks_cons _ hdigit.2]
    rcases hunit with rfl | rfl <;> rfl

theorem sourceKey_of_blanks {b : List Char} (hb : Blanks b) : sourceKey b = [] := by
  have hnone : b.filter (fun c => !isBlank c) = [] := by
    refine List.filter_eq_nil_iff.mpr fun c hc => ?_
    simp [hb c hc]
  rw [sourceKey, hnone]
  rfl

theorem sourceKey_append (a b : List Char) : sourceKey (a ++ b) = sourceKey a ++ sourceKey b := by
  rw [sourceKey, List.filter_append, List.flatMap_append]
  rfl

/-- A field ends where its template goes on. -/
theorem field_ends {shift : Option (Bool × List Char)} {b₄ b₅ text : List Char} (rest : List Char)
    (hb₄ : Blanks b₄) (htext : ShiftWritten shift text) (hb₅ : Blanks b₅) :
    ∀ c, (b₄ ++ (text ++ (b₅ ++ '\x7d' :: rest))).head? = some c → isWord c = false := by
  refine head_behind_blanks hb₄ (fun c => not_word_of_blank) ?_
  cases htext with
  | none =>
    rw [List.nil_append]
    refine head_behind_blanks hb₅ (fun c => not_word_of_blank) fun c hc => ?_
    obtain rfl := Option.some.inj hc
    decide
  | days back =>
    intro c hc
    obtain rfl := Option.some.inj hc
    cases back <;> decide

theorem ofChars?_of_written {source field cs : List Char} {shift : Option (Bool × List Char)}
    (h : Written source field shift cs) :
    ∃ t, ofChars? cs = some t ∧ sourceKey t.source = sourceKey source ∧
      t.field.toList = field ∧ t.shift = shift := by
  obtain ⟨hb₀, hb₁, hsource, hchars, hb₂, hb₃, hfield, hword, hb₄, hdays, hb₅, hb₆⟩ := h
  rename_i b₀ b₁ b₂ b₃ b₄ b₅ b₆ days
  have hbrace : isBlank '\x7b' = false := by decide
  -- The blanks around the source are read as a part of it.
  have hall : ∀ c ∈ b₁ ++ (source ++ b₂), isSourceChar c = true := by
    intro c hc
    rcases List.mem_append.mp hc with hc | hc
    · exact isSourceChar_of_blank (hb₁ c hc)
    · rcases List.mem_append.mp hc with hc | hc
      · exact hchars c hc
      · exact isSourceChar_of_blank (hb₂ c hc)
  have hread := some1_append (b₃ ++ (field ++ (b₄ ++ (days ++ (b₅ ++ '\x7d' :: '\x7d' :: b₆)))))
    (by simp [hsource]) hall (c := '.') (by decide)
  rw [List.append_assoc, List.append_assoc] at hread
  have hname := some1_word hfield hword (field_ends ('\x7d' :: b₆) hb₄ hdays hb₅)
  obtain ⟨more, hshift, hmore⟩ := dateShift_written ('\x7d' :: b₆) hdays hb₅
  have hend : blanks b₆ = [] := List.dropWhile_eq_nil_iff.mpr hb₆
  refine ⟨⟨b₁ ++ (source ++ b₂), String.ofList field, shift⟩, ?_, ?_, ?_, rfl⟩
  · simp only [ofChars?, Option.bind_eq_bind, blanks_append _ hb₀, blanks_cons _ hbrace, mark_cons,
      Option.bind_some, hread, blanks_append _ hb₃,
      blanks_word _ hfield hword fun c => not_blank_of_word, hname, blanks_append _ hb₄, hshift,
      hmore, hend]
    rfl
  · rw [sourceKey_append, sourceKey_append, sourceKey_of_blanks hb₁, sourceKey_of_blanks hb₂,
      List.nil_append, List.append_nil]
  · exact String.toList_ofList

theorem isSome_ofChars? (cs : List Char) :
    (ofChars? cs).isSome = true ↔ ∃ source field shift, Written source field shift cs := by
  constructor
  · intro h
    obtain ⟨t, ht⟩ := Option.isSome_iff_exists.mp h
    exact ⟨_, _, _, written_of_ofChars? ht⟩
  · rintro ⟨source, field, shift, h⟩
    obtain ⟨t, ht, -⟩ := ofChars?_of_written h
    rw [ht]
    rfl

end Template

end AgentRun
