import AgentRun.Proofs.Resolution
import AgentRun.Proofs.TimestampTexts

/-!
# Shifted dates

A template with a shift of days gives the date that is so many days away from that of its field,
with what the field has behind the date (`OffsetBy.resolve_dated`). Dates compose under it: a shift
back gives the date again, and two shifts one way are one (`dates_are_shifted_by_days`). A timestamp
stays one as long as its year has four digits (`timestamps_are_shifted_by_days`). What is shifted at
all is told by `shifted_from_dates`.
-/

namespace AgentRun

open Template (Written sourceKey)
open Text (isBlank isAsciiDigit isDigit digitsValue Digits)
open Date (Away IsoDate Spelled)

/-- The numeral of a number of days that fits 64 bits. -/
def Counts (digits : List Char) (n : Nat) : Prop :=
  Digits digits ∧ digitsValue digits = n ∧ n < Text.word64

/-- A string that stands for a field of the records with a shift. -/
inductive Offset (records : List ToolRecord) (s : String) (back : Bool) (digits : List Char)
    (value : Json) : Prop
  | intro {source field : List Char}
      (written : Written source field (some (back, digits)) s.toList)
      (latest : Latest records (sourceKey source) (String.ofList field) value)

/-- A string that stands for a field of the records with a shift by a number of days. -/
def OffsetBy (records : List ToolRecord) (s : String) (back : Bool) (n : Nat) (value : Json) :
    Prop :=
  ∃ digits, Offset records s back digits value ∧ Counts digits n

variable {records : List ToolRecord} {s v : String} {back : Bool} {digits rest : List Char}
  {value : Json} {n : Nat} {d e : Date}

/-- The numeral of a shift is read when it is one of ASCII digits that fits. -/
theorem Offset.counts_iff (h : Offset records s back digits value) :
    Text.unsignedBelow Text.word64 (String.ofList digits) = some n ↔ Counts digits n := by
  obtain ⟨written, -⟩ := h
  generalize s.toList = cs at written
  cases written with
  | intro _ _ _ _ _ _ _ _ _ days_written _ _ =>
    cases days_written with
    | days _ _ nonempty number _ _ =>
      have hplus : '+' ∉ digits := fun hin => absurd (number '+' hin) (by decide +kernel)
      rw [Text.unsignedBelow_eq_some, String.toList_ofList, Text.unsigned_of_notMem hplus]
      exact and_iff_right nonempty

/-! ## What a shifted field resolves to -/

theorem Offset.resolve_eq (h : Offset records s back digits value) :
    resolve records (.str s) = shifted value back digits := by
  obtain ⟨written, latest⟩ := h
  obtain ⟨t, ht, hshift, hlookup⟩ := resolveText_of_written records written
  show resolveText records s = _
  simp only [resolveText, ht, (hlookup _).mp latest, hshift]

theorem dated_iff {cs : List Char} : Dated cs d rest ↔
    Spelled d cs ∧ d.IsValid ∧ rest = [] ∨ Timestamp.Written d rest cs := by
  constructor
  · intro h
    cases h with
    | date alone =>
      obtain ⟨hspelled, hvalid⟩ := Date.ofChars?_eq_some.mp alone
      exact Or.inl ⟨hspelled, hvalid, rfl⟩
    | timestamp no_date parts => exact Or.inr (Timestamp.split?_eq_some.mp parts)
  · rintro (⟨hspelled, hvalid, rfl⟩ | hwritten)
    · exact .date (Date.ofChars?_eq_some.mpr ⟨hspelled, hvalid⟩)
    · exact .timestamp hwritten.not_date (Timestamp.split?_eq_some.mpr hwritten)

theorem Dated.valid {cs : List Char} (h : Dated cs d rest) : d.IsValid := by
  rcases dated_iff.mp h with ⟨-, hvalid, -⟩ | hwritten
  · exact hvalid
  · exact hwritten.valid

theorem Dated.inCalendar {cs : List Char} (h : Dated cs d rest) : d.InCalendar :=
  (Date.isValid_iff.mp h.valid).2

/-- The one date that a text starts with. -/
theorem Dated.unique {cs rest' : List Char} (h : Dated cs d rest) (h' : Dated cs e rest') :
    d = e ∧ rest = rest' := by
  cases h with
  | date alone =>
    cases h' with
    | date alone' => exact ⟨Option.some.inj (alone.symm.trans alone'), rfl⟩
    | timestamp no_date parts =>
      rw [no_date] at alone
      cases alone
  | timestamp no_date parts =>
    cases h' with
    | date alone' =>
      rw [no_date] at alone'
      cases alone'
    | timestamp no_date' parts' => exact Prod.mk.inj (Option.some.inj (parts.symm.trans parts'))

theorem shiftsTo_iff (hdated : Dated (Text.trimmed v.toList) d rest)
    (hcount : Text.unsignedBelow Text.word64 (String.ofList digits) = some n)
    (haway : Away d n back e) {text : String} : ShiftsTo (.str v) back digits text ↔
      e.InRange ∧ text = e.text ++ String.ofList rest := by
  constructor
  · rintro ⟨s', n', d', rest', e', hs, hn, hdated', hshift, htext⟩
    obtain rfl := Json.str.inj hs
    obtain rfl := Option.some.inj (hcount.symm.trans hn)
    obtain ⟨rfl, rfl⟩ := hdated.unique hdated'
    rw [haway.shift?_eq] at hshift
    split at hshift
    · rename_i hin
      obtain rfl := Option.some.inj hshift
      exact ⟨hin, htext⟩
    · cases hshift
  · rintro ⟨hin, htext⟩
    refine ⟨v, n, d, rest, e, rfl, hcount, hdated, ?_, htext⟩
    rw [haway.shift?_eq, if_pos hin]

/-- The date that is so many days away, with the text that was behind the date. -/
theorem OffsetBy.resolve_dated (h : OffsetBy records s back n (.str v))
    (hdated : Dated (Text.trimmed v.toList) d rest) (haway : Away d n back e) :
    resolve records (.str s) =
      if e.InRange then .str (e.text ++ String.ofList rest) else .null := by
  obtain ⟨digits, hoffset, hcounts⟩ := h
  have hiff {text : String} : ShiftsTo (.str v) back digits text ↔
      e.InRange ∧ text = e.text ++ String.ofList rest :=
    shiftsTo_iff hdated (hoffset.counts_iff.mpr hcounts) haway
  rw [hoffset.resolve_eq]
  rcases shifted_cases (.str v) back digits with ⟨text, hshifts, heq⟩ | ⟨hstays, heq⟩
  · obtain ⟨hin, rfl⟩ := hiff.mp hshifts
    rw [heq, if_pos hin]
  · have hout : ¬ e.InRange := fun hin => hstays _ (hiff.mpr ⟨hin, rfl⟩)
    rw [heq, if_neg hout]

/-- No day is shifted from `null`. -/
theorem OffsetBy.resolve_null (h : OffsetBy records s back n .null) :
    resolve records (.str s) = .null := by
  obtain ⟨digits, hoffset, -⟩ := h
  rw [hoffset.resolve_eq]
  rfl

theorem Offset.resolve_ne_null (h : Offset records s back digits value) :
    resolve records (.str s) ≠ .null ↔ ∃ text, ShiftsTo value back digits text := by
  rw [h.resolve_eq]
  rcases shifted_cases value back digits with ⟨text, hshifts, heq⟩ | ⟨hstays, heq⟩
  · rw [heq]
    exact ⟨fun _ => ⟨text, hshifts⟩, fun _ => nofun⟩
  · rw [heq]
    constructor
    · intro hne
      exact absurd rfl hne
    · rintro ⟨text, hshifts⟩
      exact absurd hshifts (hstays text)

theorem Offset.of_read {t : Template} (hread : Template.ofChars? s.toList = some t)
    (hshift : t.shift = some (back, digits)) (hvalue : t.lookup? records = some value) :
    Offset records s back digits value := by
  have hwritten := Template.written_of_ofChars? hread
  rw [hshift] at hwritten
  refine .intro hwritten ?_
  rw [String.ofList_toList]
  exact latest_of_lookup? hvalue

/-- The record of a tool that answered with a date. -/
def dateNote (text : String) : List ToolRecord :=
  [⟨"c1", "cal", .null, .obj [("at", .str text)]⟩]

/-! ## Dates -/

theorem trimmed_of_trim {d : Date} (h : Text.trim v = d.text) :
    Text.trimmed v.toList = d.text.toList := by
  rw [← h, Text.trim, String.toList_ofList]

theorem dated_text (h : d.IsValid) : Dated (Text.trimmed d.text.toList) d [] := by
  rw [Date.trimmed_text]
  exact .date (Date.ofChars?_text h)

/-- Whatever the date and the number of days, a shift gives the text of the one date whose number is
so much greater, or smaller, and which is so many steps away, or `null` where that date is out of
range. A shift back gives the date again, and a second shift the same way is one shift by the
sum. -/
theorem dates_are_shifted_by_days (hd : d.IsValid) (hv : Text.trim v = d.text)
    (h : OffsetBy records s back n (.str v)) :
    ∃ e, Away d n back e ∧
      (∀ e' : Date, e'.InCalendar → e'.number = d.number + Date.withSign back n → e' = e) ∧
      resolve records (.str s) = (if e.InRange then .str e.text else .null) ∧
      (n = 0 → resolve records (.str s) = .str d.text) ∧
      (∀ records' s', resolve records (.str s) ≠ .null →
        OffsetBy records' s' (!back) n (resolve records (.str s)) →
        resolve records' (.str s') = .str d.text) ∧
      ∀ m records₁ s₁ records₂ s₂, OffsetBy records₁ s₁ back m (resolve records (.str s)) →
        OffsetBy records₂ s₂ back (n + m) (.str v) →
        resolve records₁ (.str s₁) = resolve records₂ (.str s₂) := by
  obtain ⟨hrange, hcal⟩ := Date.isValid_iff.mp hd
  obtain ⟨e, haway⟩ := Date.exists_away hcal n back
  have hdated : Dated (Text.trimmed v.toList) d [] := by
    rw [trimmed_of_trim hv, ← Date.trimmed_text]
    exact dated_text hd
  -- What a template gives for a date, as the text of the date alone.
  have gives {records : List ToolRecord} {s v : String} {back : Bool} {n : Nat} {d e : Date}
      (h : OffsetBy records s back n (.str v)) (hdated : Dated (Text.trimmed v.toList) d [])
      (haway : Away d n back e) :
      resolve records (.str s) = if e.InRange then .str e.text else .null := by
    rw [h.resolve_dated hdated haway, String.ofList_nil, String.append_empty]
  have hresolve := gives h hdated haway
  refine ⟨e, haway, ?_, hresolve, ?_, ?_, ?_⟩
  · intro e' he' hnum
    exact Date.number_injective he' haway.inCalendar (hnum.trans haway.number.symm)
  · rintro rfl
    rw [hresolve, haway.of_zero hcal, if_pos hrange]
  · intro records' s' hne h'
    by_cases hin : e.InRange
    · have hvalid : e.IsValid := Date.isValid_iff.mpr ⟨hin, haway.inCalendar⟩
      rw [hresolve, if_pos hin] at h'
      rw [gives h' (dated_text hvalid) (haway.reversed hcal), if_pos hrange]
    · rw [hresolve, if_neg hin] at hne
      exact absurd rfl hne
  · intro m records₁ s₁ records₂ s₂ h₁ h₂
    obtain ⟨f, hfurther⟩ := Date.exists_away haway.inCalendar m back
    have hsum := gives h₂ hdated (haway.trans hcal hfurther)
    by_cases hin : e.InRange
    · have hvalid : e.IsValid := Date.isValid_iff.mpr ⟨hin, haway.inCalendar⟩
      rw [hresolve, if_pos hin] at h₁
      rw [gives h₁ (dated_text hvalid) hfurther, hsum]
    · have hout : ¬ f.InRange := fun hf => hin (haway.inRange_between hcal hrange hfurther hf)
      rw [hresolve, if_neg hin] at h₁
      rw [h₁.resolve_null, hsum, if_neg hout]

theorem first_of_march_goes_back :
    (⟨2024, 3, 1⟩ : Date).IsValid ∧ Text.trim "2024-03-01" = (⟨2024, 3, 1⟩ : Date).text ∧
      OffsetBy (dateNote "2024-03-01") "\x7b\x7bcal.at-1d\x7d\x7d" true 1 (.str "2024-03-01") ∧
      resolve (dateNote "2024-03-01") (.str "\x7b\x7bcal.at-1d\x7d\x7d") = .str "2024-02-29" := by
  have hd : (⟨2024, 3, 1⟩ : Date).IsValid := by decide
  have hv : Text.trim "2024-03-01" = (⟨2024, 3, 1⟩ : Date).text := by decide +kernel
  have h : OffsetBy (dateNote "2024-03-01") "\x7b\x7bcal.at-1d\x7d\x7d" true 1
      (.str "2024-03-01") :=
    ⟨['1'], .of_read (t := ⟨['c', 'a', 'l'], "at", some (true, ['1'])⟩) (by decide +kernel) rfl
      (by decide +kernel), by decide, by decide, by decide⟩
  obtain ⟨e, -, hunique, hresolve, -⟩ := dates_are_shifted_by_days hd hv h
  have he : (⟨2024, 2, 29⟩ : Date) = e := hunique _ (by decide) (by decide)
  refine ⟨hd, hv, h, ?_⟩
  rw [hresolve, ← he, if_pos (by decide)]
  decide +kernel

/-! ## Timestamps -/

/-- A date outside the years 0 to 9999 with a time behind it is nothing that a shift starts from. -/
theorem not_dated_of_year {e' : Date} {rest' : List Char} (htime : Timestamp.TimeWritten rest)
    (hyears : ¬ (0 ≤ e.year ∧ e.year ≤ 9999)) :
    ¬ Dated (Text.trimmed (e.text ++ String.ofList rest).toList) e' rest' := by
  rw [String.toList_append, String.toList_ofList, Timestamp.trimmed_text e htime, dated_iff]
  rintro (⟨hspelled, -, -⟩ | hwritten)
  · exact hspelled.colon_notMem (List.mem_append_right _ htime.colon_mem)
  · exact Timestamp.not_written_of_year hyears hwritten

theorem dated_timestamp (htime : Timestamp.TimeWritten rest) (hvalid : e.IsValid)
    (hfirst : 0 ≤ e.year) (hlast : e.year ≤ 9999) :
    Timestamp.Written e rest (e.text ++ String.ofList rest).toList ∧
      Dated (Text.trimmed (e.text ++ String.ofList rest).toList) e rest := by
  have hwritten : Timestamp.Written e rest (e.text ++ String.ofList rest).toList := by
    rw [String.toList_append, String.toList_ofList]
    exact .intro (Date.isoDate_text hvalid hfirst hlast) htime
  have htrim : Text.trimmed (e.text ++ String.ofList rest).toList =
      (e.text ++ String.ofList rest).toList := by
    rw [String.toList_append, String.toList_ofList]
    exact Timestamp.trimmed_text e htime
  refine ⟨hwritten, dated_iff.mpr (Or.inr ?_)⟩
  rw [htrim]
  exact hwritten

/-- A shifted timestamp has the shifted date in front of the text that was behind the first ten
bytes. It is a timestamp again, which can be shifted further, as long as its year has four digits.
Two shifts one way that both give something are one shift by the sum. -/
theorem timestamps_are_shifted_by_days {text : String}
    (hv : Timestamp.Written d rest (Text.trimmed v.toList))
    (h : OffsetBy records s back n (.str v)) (hout : resolve records (.str s) = .str text) :
    ∃ e, Away d n back e ∧ text = e.text ++ String.ofList rest ∧
      Text.trim v = d.text ++ String.ofList rest ∧ d.text.utf8ByteSize = 10 ∧
      ((∃ e' rest', Timestamp.Written e' rest' text.toList) ↔ 0 ≤ e.year ∧ e.year ≤ 9999) ∧
      (0 ≤ e.year ∧ e.year ≤ 9999 →
        Timestamp.Written e rest text.toList ∧ e.text.utf8ByteSize = 10 ∧
        ∀ back' m records₁ s₁, OffsetBy records₁ s₁ back' m (.str text) →
          ∃ f, Away e m back' f ∧ resolve records₁ (.str s₁) =
            if f.InRange then .str (f.text ++ String.ofList rest) else .null) ∧
      ∀ m records₁ s₁ records₂ s₂, OffsetBy records₁ s₁ back m (.str text) →
        resolve records₁ (.str s₁) ≠ .null → OffsetBy records₂ s₂ back (n + m) (.str v) →
        resolve records₂ (.str s₂) = resolve records₁ (.str s₁) := by
  have hdated : Dated (Text.trimmed v.toList) d rest := dated_iff.mpr (Or.inr hv)
  obtain ⟨e, haway⟩ := Date.exists_away hdated.inCalendar n back
  rw [h.resolve_dated hdated haway] at hout
  obtain ⟨htext, hfirst, hlast⟩ := hv.eq_text
  by_cases hin : e.InRange
  · rw [if_pos hin] at hout
    obtain rfl := Json.str.inj hout
    have hvalid : e.IsValid := Date.isValid_iff.mpr ⟨hin, haway.inCalendar⟩
    -- What a further template gives for the new timestamp.
    have further (hyears : 0 ≤ e.year ∧ e.year ≤ 9999) {back' : Bool} {m : Nat}
        {records₁ : List ToolRecord} {s₁ : String} {f : Date} (hf : Away e m back' f)
        (h₁ : OffsetBy records₁ s₁ back' m (.str (e.text ++ String.ofList rest))) :
        resolve records₁ (.str s₁) =
          if f.InRange then .str (f.text ++ String.ofList rest) else .null :=
      h₁.resolve_dated (dated_timestamp hv.time hvalid hyears.1 hyears.2).2 hf
    refine ⟨e, haway, rfl, ?_, Timestamp.utf8ByteSize_date hdated.valid hfirst hlast, ?_, ?_, ?_⟩
    · rw [Text.trim, htext, String.ofList_append, String.ofList_toList]
    · constructor
      · rintro ⟨e', rest', hwritten⟩
        by_contra hyears
        rw [String.toList_append] at hwritten
        exact Timestamp.not_written_of_year hyears hwritten
      · rintro ⟨hfirst', hlast'⟩
        exact ⟨e, rest, (dated_timestamp hv.time hvalid hfirst' hlast').1⟩
    · intro hyears
      refine ⟨(dated_timestamp hv.time hvalid hyears.1 hyears.2).1,
        Timestamp.utf8ByteSize_date hvalid hyears.1 hyears.2, ?_⟩
      intro back' m records₁ s₁ h₁
      obtain ⟨f, hf⟩ := Date.exists_away haway.inCalendar m back'
      exact ⟨f, hf, further hyears hf h₁⟩
    · intro m records₁ s₁ records₂ s₂ h₁ hne h₂
      by_cases hyears : 0 ≤ e.year ∧ e.year ≤ 9999
      · obtain ⟨f, hf⟩ := Date.exists_away haway.inCalendar m back
        rw [further hyears hf h₁, h₂.resolve_dated hdated (haway.trans hdated.inCalendar hf)]
      · obtain ⟨digits, hoffset, -⟩ := h₁
        obtain ⟨text', s', n', d', rest', e', hs', -, hdated', -⟩ := hoffset.resolve_ne_null.mp hne
        obtain rfl := Json.str.inj hs'
        exact absurd hdated' (not_dated_of_year hv.time hyears)
  · rw [if_neg hin] at hout
    cases hout

theorem leap_second_is_kept :
    Timestamp.Written ⟨2024, 12, 31⟩ "T23:59:60Z".toList
        (Text.trimmed "2024-12-31T23:59:60Z".toList) ∧
      OffsetBy (dateNote "2024-12-31T23:59:60Z") "\x7b\x7bcal.at+1d\x7d\x7d" false 1
        (.str "2024-12-31T23:59:60Z") ∧
      resolve (dateNote "2024-12-31T23:59:60Z") (.str "\x7b\x7bcal.at+1d\x7d\x7d") =
        .str "2025-01-01T23:59:60Z" ∧
      ∃ d rest, Timestamp.Written d rest "2025-01-01T23:59:60Z".toList := by
  have hv : Timestamp.Written ⟨2024, 12, 31⟩ "T23:59:60Z".toList
      (Text.trimmed "2024-12-31T23:59:60Z".toList) :=
    Timestamp.split?_eq_some.mp (by decide +kernel)
  have h : OffsetBy (dateNote "2024-12-31T23:59:60Z") "\x7b\x7bcal.at+1d\x7d\x7d" false 1
      (.str "2024-12-31T23:59:60Z") :=
    ⟨['1'], .of_read (t := ⟨['c', 'a', 'l'], "at", some (false, ['1'])⟩) (by decide +kernel) rfl
      (by decide +kernel), by decide, by decide, by decide⟩
  have hout : resolve (dateNote "2024-12-31T23:59:60Z") (.str "\x7b\x7bcal.at+1d\x7d\x7d") =
      .str "2025-01-01T23:59:60Z" := by decide +kernel
  obtain ⟨e, haway, -, -, -, hagain, -⟩ := timestamps_are_shifted_by_days hv h hout
  have he : (⟨2025, 1, 1⟩ : Date) = e :=
    Date.number_injective (by decide) haway.inCalendar (haway.number.symm ▸ by decide)
  exact ⟨hv, h, hout, hagain.mpr (he ▸ by decide)⟩

/-- A timestamp is shifted past the year 9999 to a text that is none. -/
theorem year_ten_thousand_is_no_timestamp :
    (∃ d rest, Timestamp.Written d rest "9999-12-31T00:00:00Z".toList) ∧
      resolve (dateNote "9999-12-31T00:00:00Z") (.str "\x7b\x7bcal.at+1d\x7d\x7d") =
        .str "+10000-01-01T00:00:00Z" ∧
      ¬ ∃ d rest, Timestamp.Written d rest "+10000-01-01T00:00:00Z".toList := by
  refine ⟨⟨⟨9999, 12, 31⟩, "T00:00:00Z".toList, Timestamp.split?_eq_some.mp (by decide +kernel)⟩,
    by decide +kernel, ?_⟩
  rintro ⟨d, rest, hwritten⟩
  have hsplit := Timestamp.split?_eq_some.mpr hwritten
  rw [show Timestamp.split? "+10000-01-01T00:00:00Z".toList = none by decide +kernel] at hsplit
  cases hsplit

/-! ## What is shifted -/

/-- A date in another spelling than four, two and two digits. -/
def LooseDate (d : Date) (cs : List Char) : Prop := Spelled d cs ∧ d.IsValid ∧ ¬ IsoDate d cs

/-- A shifted field gives something, and not `null`, just when it is the string of a date, in one
spelling or another, or of a timestamp, the number of days fits 64 bits and the shifted date is in
range. -/
theorem shifted_from_dates (h : Offset records s back digits value) :
    resolve records (.str s) ≠ .null ↔ ∃ v n d e, value = .str v ∧ Counts digits n ∧
      (IsoDate d (Text.trimmed v.toList) ∨ LooseDate d (Text.trimmed v.toList) ∨
        ∃ rest, Timestamp.Written d rest (Text.trimmed v.toList)) ∧
      Away d n back e ∧ e.InRange := by
  rw [h.resolve_ne_null]
  constructor
  · rintro ⟨text, v, n, d, rest, e, rfl, hn, hdated, hshift, -⟩
    obtain ⟨e', haway⟩ := Date.exists_away hdated.inCalendar n back
    rw [haway.shift?_eq] at hshift
    split at hshift
    · rename_i hin
      refine ⟨v, n, d, e', rfl, h.counts_iff.mp hn, ?_, haway, hin⟩
      rcases dated_iff.mp hdated with ⟨hspelled, hvalid, -⟩ | hwritten
      · by_cases hiso : IsoDate d (Text.trimmed v.toList)
        · exact Or.inl hiso
        · exact Or.inr (Or.inl ⟨hspelled, hvalid, hiso⟩)
      · exact Or.inr (Or.inr ⟨rest, hwritten⟩)
    · cases hshift
  · rintro ⟨v, n, d, e, rfl, hcounts, htext, haway, hin⟩
    have hdated : ∃ rest, Dated (Text.trimmed v.toList) d rest := by
      rcases htext with hiso | ⟨hspelled, hvalid, -⟩ | ⟨rest, hwritten⟩
      · exact ⟨[], dated_iff.mpr (Or.inl ⟨hiso.spelled.1, hiso.spelled.2, rfl⟩)⟩
      · exact ⟨[], dated_iff.mpr (Or.inl ⟨hspelled, hvalid, rfl⟩)⟩
      · exact ⟨rest, dated_iff.mpr (Or.inr hwritten)⟩
    obtain ⟨rest, hdated⟩ := hdated
    exact ⟨_, (shiftsTo_iff hdated (h.counts_iff.mpr hcounts) haway).mpr ⟨hin, rfl⟩⟩

theorem no_such_day_is_not_shifted :
    Offset (dateNote "2023-02-29") "\x7b\x7bcal.at+1d\x7d\x7d" false ['1'] (.str "2023-02-29") ∧
      resolve (dateNote "2023-02-29") (.str "\x7b\x7bcal.at+1d\x7d\x7d") = .null := by
  have h : Offset (dateNote "2023-02-29") "\x7b\x7bcal.at+1d\x7d\x7d" false ['1']
      (.str "2023-02-29") :=
    .of_read (t := ⟨['c', 'a', 'l'], "at", some (false, ['1'])⟩) (by decide +kernel) rfl
      (by decide +kernel)
  refine ⟨h, ?_⟩
  by_contra hne
  obtain ⟨v, n, d, e, hv, -, htext, -⟩ := (shifted_from_dates h).mp hne
  obtain rfl := Json.str.inj hv
  have hdate : Date.ofChars? (Text.trimmed "2023-02-29".toList) = none := by decide +kernel
  have hsplit : Timestamp.split? (Text.trimmed "2023-02-29".toList) = none := by decide +kernel
  rcases htext with hiso | ⟨hspelled, hvalid, -⟩ | ⟨rest, hwritten⟩
  · rw [Date.ofChars?_eq_some.mpr hiso.spelled] at hdate
    cases hdate
  · rw [Date.ofChars?_eq_some.mpr ⟨hspelled, hvalid⟩] at hdate
    cases hdate
  · rw [Timestamp.split?_eq_some.mpr hwritten] at hsplit
    cases hsplit

/-- A date with a month and a day of one digit each is shifted, though it is neither of the form
YYYY-MM-DD nor a timestamp. -/
theorem short_month_is_shifted :
    (∀ d, ¬ IsoDate d (Text.trimmed "2024-1-5".toList)) ∧
      (∀ d rest, ¬ Timestamp.Written d rest (Text.trimmed "2024-1-5".toList)) ∧
      resolve (dateNote "2024-1-5") (.str "\x7b\x7bcal.at+1d\x7d\x7d") = .str "2024-01-06" := by
  refine ⟨?_, ?_, by decide +kernel⟩
  · intro d hiso
    exact absurd hiso.length_eq (by decide +kernel)
  · intro d rest hwritten
    have hsplit : Timestamp.split? (Text.trimmed "2024-1-5".toList) = none := by decide +kernel
    rw [Timestamp.split?_eq_some.mpr hwritten] at hsplit
    cases hsplit

end AgentRun
