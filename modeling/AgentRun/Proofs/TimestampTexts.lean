import AgentRun.Proofs.DateTexts
import Mathlib.Data.String.Basic

/-!
# How timestamps are written

A timestamp is a date of four, two and two digits, a time of the day (`TimeWritten`) and nothing
else (`Written`). `Timestamp.split?` cuts just these texts behind their date (`split?_eq_some`), and
none of them is the spelling of a date.
-/

namespace AgentRun

open Text (isBlank isAsciiDigit digitsValue Digits)
open Date (IsoDate Ends ends_cons)

namespace Timestamp

/-- Two digits that make a number up to `most`. -/
def TwoDigits (most : Nat) (ds : List Char) : Prop :=
  Digits ds ∧ ds.length = 2 ∧ digitsValue ds ≤ most

/-- How a fraction of a second is written, if there is one. -/
inductive FractionWritten : List Char → Prop
  | none : FractionWritten []
  | digits {ds : List Char} (digits : Digits ds) (nonempty : ds ≠ []) : FractionWritten ('.' :: ds)

/-- How an offset from UTC is written. -/
inductive OffsetWritten : List Char → Prop
  | zulu {z : Char} (letter : z ∈ ['Z', 'z']) : OffsetWritten [z]
  | hours {sign : Char} {h m : List Char} (signed : sign ∈ ['+', '-', '\u2212'])
      (hours : TwoDigits 23 h) (minutes : TwoDigits 59 m) : OffsetWritten (sign :: (h ++ ':' :: m))

/-- How a time of the day is written, with the character that divides it from the date. -/
inductive TimeWritten : List Char → Prop
  | intro {t : Char} {h m s f z : List Char} (divider : t ∈ ['T', 't', ' '])
      (hours : TwoDigits 23 h) (minutes : TwoDigits 59 m) (seconds : TwoDigits 60 s)
      (fraction : FractionWritten f) (offset : OffsetWritten z) :
      TimeWritten (t :: (h ++ ':' :: (m ++ ':' :: (s ++ (f ++ z)))))

/-- A timestamp of a date, with the text behind the date. -/
inductive Written (d : Date) (rest : List Char) : List Char → Prop
  | intro {date : List Char} (date_written : IsoDate d date) (time : TimeWritten rest) :
      Written d rest (date ++ rest)

variable {cs rest : List Char} {most : Nat}

/-! ## The parts of a time -/

theorem twoDigits_eq_some :
    twoDigits most cs = some rest ↔ ∃ ds, TwoDigits most ds ∧ cs = ds ++ rest := by
  constructor
  · intro h
    unfold twoDigits at h
    split at h
    · rename_i a b rest'
      split at h
      · rename_i hdigits
        obtain ⟨ha, hb, hvalue⟩ := hdigits
        obtain rfl := Option.some.inj h
        refine ⟨[a, b], ⟨?_, rfl, hvalue⟩, rfl⟩
        intro c hc
        rcases List.mem_cons.mp hc with rfl | hc
        · exact ha
        · rwa [List.mem_singleton.mp hc]
      · cases h
    · cases h
  · rintro ⟨ds, ⟨hdigits, htwo, hvalue⟩, rfl⟩
    obtain ⟨a, b, rfl⟩ := List.length_eq_two.mp htwo
    exact if_pos ⟨hdigits a (by simp), hdigits b (by simp), hvalue⟩

theorem TwoDigits.read {ds : List Char} (h : TwoDigits most ds) (rest : List Char) :
    twoDigits most (ds ++ rest) = some rest :=
  twoDigits_eq_some.mpr ⟨ds, h, rfl⟩

theorem oneOf_eq_some {choices : List Char} :
    oneOf choices cs = some rest ↔ ∃ c ∈ choices, cs = c :: rest := by
  cases cs with
  | nil => simp [oneOf]
  | cons c cs =>
    by_cases hc : choices.contains c
    · simp only [oneOf, if_pos hc, Option.some.injEq, List.cons.injEq]
      constructor
      · rintro rfl
        exact ⟨c, by simpa using hc, rfl, rfl⟩
      · rintro ⟨-, -, -, h⟩
        exact h
    · simp only [oneOf, if_neg hc]
      constructor
      · intro h
        cases h
      · rintro ⟨c', hc', h⟩
        obtain ⟨rfl, -⟩ := List.cons.inj h
        exact absurd hc' (by simpa using hc)

theorem fraction_taken (h : fraction cs = some rest) : ∃ f, FractionWritten f ∧ cs = f ++ rest := by
  unfold fraction at h
  split at h
  · rename_i rest'
    split at h
    · rename_i hdigit
      obtain rfl := Option.some.inj h
      refine ⟨_, .digits (Date.digits_takeWhile rest') ?_, ?_⟩
      · intro hempty
        cases rest' with
        | nil => cases hdigit
        | cons c rest' =>
          have hc : isAsciiDigit c = true := hdigit
          rw [List.takeWhile_cons_of_pos hc] at hempty
          cases hempty
      · rw [List.cons_append, List.takeWhile_append_dropWhile]
    · cases h
  · obtain rfl := Option.some.inj h
    exact ⟨[], .none, rfl⟩

/-- A fraction ends where no digit follows. -/
theorem fraction_written {f : List Char} (h : FractionWritten f) (hrest : Ends rest)
    (hpoint : ∀ rest', rest ≠ '.' :: rest') : fraction (f ++ rest) = some rest := by
  cases h with
  | none =>
    unfold fraction
    split
    · rename_i rest' heq
      exact absurd heq (hpoint rest')
    · rfl
  | @digits ds digits nonempty =>
    obtain ⟨c, ds, rfl⟩ := List.exists_cons_of_ne_nil nonempty
    have hc : isAsciiDigit c = true := digits c (List.mem_cons_self ..)
    show (if isAsciiDigit c = true then some ((c :: ds ++ rest).dropWhile isAsciiDigit)
      else none) = _
    rw [if_pos hc, hrest.dropWhile_eq digits]

theorem offset_eq_some : offset cs = some rest ↔ ∃ z, OffsetWritten z ∧ cs = z ++ rest := by
  constructor
  · intro h
    unfold offset at h
    split at h
    · obtain rfl := Option.some.inj h
      exact ⟨['Z'], .zulu (by simp), rfl⟩
    · obtain rfl := Option.some.inj h
      exact ⟨['z'], .zulu (by simp), rfl⟩
    · obtain ⟨r₁, hsign, h⟩ := Option.bind_eq_some_iff.mp h
      obtain ⟨r₂, hhours, h⟩ := Option.bind_eq_some_iff.mp h
      obtain ⟨r₃, hcolon, hminutes⟩ := Option.bind_eq_some_iff.mp h
      obtain ⟨sign, hmem, rfl⟩ := oneOf_eq_some.mp hsign
      obtain ⟨hs, hh, rfl⟩ := twoDigits_eq_some.mp hhours
      obtain ⟨colon, hcolon', rfl⟩ := oneOf_eq_some.mp hcolon
      obtain ⟨m, hm, rfl⟩ := twoDigits_eq_some.mp hminutes
      obtain rfl := List.mem_singleton.mp hcolon'
      exact ⟨_, .hours hmem hh hm, by simp⟩
  · rintro ⟨z, hz, rfl⟩
    cases hz with
    | zulu letter =>
      simp only [List.mem_cons, List.not_mem_nil, or_false] at letter
      rcases letter with rfl | rfl <;> rfl
    | @hours sign h m signed hours minutes =>
      have hsign : oneOf ['+', '-', '\u2212'] (sign :: (h ++ ':' :: (m ++ rest))) =
          some (h ++ ':' :: (m ++ rest)) := oneOf_eq_some.mpr ⟨sign, signed, rfl⟩
      have hcolon : oneOf [':'] (':' :: (m ++ rest)) = some (m ++ rest) := rfl
      rw [List.cons_append, List.append_assoc, List.cons_append]
      unfold offset
      split
      · rename_i heq
        obtain ⟨rfl, -⟩ := List.cons.inj heq
        exact absurd signed (by decide)
      · rename_i heq
        obtain ⟨rfl, -⟩ := List.cons.inj heq
        exact absurd signed (by decide)
      · simp only [Option.bind_eq_bind, hsign, Option.bind_some, hours.read, hcolon, minutes.read]

/-! ## The time -/

theorem OffsetWritten.head {z : List Char} (h : OffsetWritten z) :
    Ends z ∧ ∀ rest', z ≠ '.' :: rest' := by
  have hstart {c : Char} (rest : List Char)
      (hc : c ∈ ['Z', 'z'] ∨ c ∈ ['+', '-', '\u2212']) :
      Ends (c :: rest) ∧ ∀ rest', c :: rest ≠ '.' :: rest' := by
    simp only [List.mem_cons, List.not_mem_nil, or_false] at hc
    have hne : isAsciiDigit c = false ∧ c ≠ '.' := by
      rcases hc with (rfl | rfl) | rfl | rfl | rfl <;> decide
    exact ⟨ends_cons rest hne.1, fun rest' heq => hne.2 (List.cons.inj heq).1⟩
  cases h with
  | zulu letter => exact hstart [] (Or.inl letter)
  | hours signed hours minutes => exact hstart _ (Or.inr signed)

/-- The reader of times takes the written ones, and no other text. -/
theorem timeOfDay_eq_some : timeOfDay cs = some [] ↔ TimeWritten cs := by
  constructor
  · intro h
    obtain ⟨r₁, hdivider, h⟩ := Option.bind_eq_some_iff.mp h
    obtain ⟨r₂, hhours, h⟩ := Option.bind_eq_some_iff.mp h
    obtain ⟨r₃, hcolon, h⟩ := Option.bind_eq_some_iff.mp h
    obtain ⟨r₄, hminutes, h⟩ := Option.bind_eq_some_iff.mp h
    obtain ⟨r₅, hcolon', h⟩ := Option.bind_eq_some_iff.mp h
    obtain ⟨r₆, hseconds, h⟩ := Option.bind_eq_some_iff.mp h
    obtain ⟨r₇, hfraction, hoffset⟩ := Option.bind_eq_some_iff.mp h
    obtain ⟨t, ht, rfl⟩ := oneOf_eq_some.mp hdivider
    obtain ⟨h, hh, rfl⟩ := twoDigits_eq_some.mp hhours
    obtain ⟨colon, hmem, rfl⟩ := oneOf_eq_some.mp hcolon
    obtain rfl := List.mem_singleton.mp hmem
    obtain ⟨m, hm, rfl⟩ := twoDigits_eq_some.mp hminutes
    obtain ⟨colon', hmem', rfl⟩ := oneOf_eq_some.mp hcolon'
    obtain rfl := List.mem_singleton.mp hmem'
    obtain ⟨s, hs, rfl⟩ := twoDigits_eq_some.mp hseconds
    obtain ⟨f, hf, rfl⟩ := fraction_taken hfraction
    obtain ⟨z, hz, rfl⟩ := offset_eq_some.mp hoffset
    rw [List.append_nil]
    exact .intro ht hh hm hs hf hz
  · intro h
    cases h with
    | @intro t h m s f z divider hours minutes seconds fraction offset =>
      have hdivider : oneOf ['T', 't', ' '] (t :: (h ++ ':' :: (m ++ ':' :: (s ++ (f ++ z))))) =
          some (h ++ ':' :: (m ++ ':' :: (s ++ (f ++ z)))) := oneOf_eq_some.mpr ⟨t, divider, rfl⟩
      have hcolon : ∀ rest, oneOf [':'] (':' :: rest) = some rest := fun rest => rfl
      have hfraction := fraction_written fraction offset.head.1 offset.head.2
      have hoffset := offset_eq_some.mpr ⟨z, offset, (List.append_nil z).symm⟩
      simp only [timeOfDay, Option.bind_eq_bind, hdivider, Option.bind_some, hours.read, hcolon,
        minutes.read, seconds.read, hfraction, hoffset]

theorem TimeWritten.colon_mem {rest : List Char} (h : TimeWritten rest) : ':' ∈ rest := by
  cases h with
  | intro divider hours minutes seconds fraction offset => simp

theorem TwoDigits.last {ds : List Char} (h : TwoDigits most ds) :
    ∃ front c, ds = front ++ [c] ∧ isBlank c = false := by
  obtain ⟨hdigits, htwo, -⟩ := h
  obtain ⟨a, b, rfl⟩ := List.length_eq_two.mp htwo
  exact ⟨[a], b, rfl, Text.not_blank_of_asciiDigit (hdigits b (by simp))⟩

/-- A time ends with no blank. -/
theorem TimeWritten.last {rest : List Char} (h : TimeWritten rest) :
    ∃ front c, rest = front ++ [c] ∧ isBlank c = false := by
  cases h with
  | @intro t h m s f z divider hours minutes seconds fraction offset =>
    have hz : ∃ front c, z = front ++ [c] ∧ isBlank c = false := by
      cases offset with
      | @zulu z letter =>
        refine ⟨[], z, rfl, ?_⟩
        simp only [List.mem_cons, List.not_mem_nil, or_false] at letter
        rcases letter with rfl | rfl <;> decide
      | @hours sign h' m' signed hours' minutes' =>
        obtain ⟨front, c, rfl, hc⟩ := minutes'.last
        exact ⟨sign :: (h' ++ ':' :: front), c, by simp, hc⟩
    obtain ⟨front, c, rfl, hc⟩ := hz
    exact ⟨t :: (h ++ ':' :: (m ++ ':' :: (s ++ (f ++ front)))), c, by simp, hc⟩

/-! ## The date -/

/-- Ten characters make a date of this form, or none. -/
theorem isPlainDate_spelled (h : isPlainDate cs = true) : ∃ y m w, Digits y ∧ y.length = 4 ∧
    Digits m ∧ m.length = 2 ∧ Digits w ∧ w.length = 2 ∧ cs = y ++ '-' :: (m ++ '-' :: w) := by
  unfold isPlainDate at h
  split at h
  · rename_i a b c d e f g k
    simp only [List.all_cons, List.all_nil, Bool.and_eq_true] at h
    obtain ⟨ha, hb, hc, hd, he, hf, hg, hk, -⟩ := h
    refine ⟨[a, b, c, d], [e, f], [g, k], ?_, rfl, ?_, rfl, ?_, rfl, rfl⟩
    all_goals
      intro x hx
      simp only [List.mem_cons, List.not_mem_nil, or_false] at hx
    · rcases hx with rfl | rfl | rfl | rfl <;> assumption
    · rcases hx with rfl | rfl <;> assumption
    · rcases hx with rfl | rfl <;> assumption
  · cases h

theorem isPlainDate_written {y m w : List Char} (hy : Digits y) (four : y.length = 4)
    (hm : Digits m) (two : m.length = 2) (hw : Digits w) (two' : w.length = 2) :
    isPlainDate (y ++ '-' :: (m ++ '-' :: w)) = true := by
  obtain ⟨a, y', rfl⟩ := List.exists_cons_of_length_eq_add_one four
  obtain ⟨b, c, d, rfl⟩ := List.length_eq_three.mp (show y'.length = 3 by simpa using four)
  obtain ⟨e, f, rfl⟩ := List.length_eq_two.mp two
  obtain ⟨g, k, rfl⟩ := List.length_eq_two.mp two'
  have hall {x : Char} {ds : List Char} (hds : Digits ds) (hx : x ∈ ds) : isAsciiDigit x = true :=
    hds x hx
  simp [isPlainDate, hall hy, hall hm, hall hw]

theorem isoDate_iff {d : Date} :
    IsoDate d cs ↔ isPlainDate cs = true ∧ Date.ofChars? cs = some d := by
  constructor
  · intro h
    refine ⟨?_, Date.ofChars?_eq_some.mpr h.spelled⟩
    cases h with
    | intro year four month two day two' value valid =>
      exact isPlainDate_written year four month two day two'
  · rintro ⟨hplain, hread⟩
    obtain ⟨y, m, w, hy, four, hm, two, hw, two', rfl⟩ := isPlainDate_spelled hplain
    rw [Date.ofChars?_of_spelled (Date.spelled_digits hy four hm two hw two')] at hread
    split at hread
    · rename_i hvalid
      exact .intro hy four hm two hw two' (Option.some.inj hread).symm
        (Option.some.inj hread ▸ hvalid)
    · cases hread

/-- Just the timestamps are cut behind their date. -/
theorem split?_eq_some {d : Date} : split? cs = some (d, rest) ↔ Written d rest cs := by
  unfold split?
  dsimp only
  constructor
  · intro h
    split at h
    · rename_i hparts
      obtain ⟨d', hread, h⟩ := Option.map_eq_some_iff.mp h
      obtain ⟨rfl, rfl⟩ := Prod.mk.inj h
      have hwritten := Written.intro (isoDate_iff.mpr ⟨hparts.1, hread⟩)
        (timeOfDay_eq_some.mp hparts.2)
      rwa [List.take_append_drop] at hwritten
    · cases h
  · intro h
    cases h with
    | @intro date hdate htime =>
      obtain ⟨hplain, hread⟩ := isoDate_iff.mp hdate
      have hlength := hdate.length_eq
      rw [List.take_left' hlength, List.drop_left' hlength,
        if_pos ⟨hplain, timeOfDay_eq_some.mpr htime⟩, hread]
      rfl

/-- No timestamp is the spelling of a date. -/
theorem Written.not_date {d : Date} (h : Written d rest cs) : Date.ofChars? cs = none := by
  rw [Option.eq_none_iff_forall_ne_some]
  intro d' hread
  have hcolon := (Date.ofChars?_eq_some.mp hread).1.colon_notMem
  cases h with
  | intro hdate htime => exact hcolon (List.mem_append_right _ htime.colon_mem)

theorem Written.eq_text {d : Date} (h : Written d rest cs) :
    cs = d.text.toList ++ rest ∧ 0 ≤ d.year ∧ d.year ≤ 9999 := by
  cases h with
  | intro hdate htime =>
    obtain ⟨rfl, hyears⟩ := hdate.eq_text
    exact ⟨rfl, hyears⟩

theorem utf8Len_digits {ds : List Char} (h : Digits ds) : String.utf8Len ds = ds.length := by
  induction ds with
  | nil => rfl
  | cons c ds ih =>
    obtain ⟨-, hhi⟩ := Text.isAsciiDigit_iff.mp (h c (List.mem_cons_self ..))
    have hsize : c.utf8Size = 1 := Char.utf8Size_eq_one_iff.mpr (UInt32.le_iff_toNat_le.mpr
      (Nat.le_trans hhi (by decide)))
    rw [String.utf8Len_cons, ih fun d hd => h d (List.mem_cons_of_mem _ hd), hsize,
      List.length_cons]

/-- The date of a timestamp takes up ten bytes. -/
theorem utf8ByteSize_date {d : Date} (hvalid : d.IsValid) (hfirst : 0 ≤ d.year)
    (hlast : d.year ≤ 9999) : d.text.utf8ByteSize = 10 := by
  have hiso := Date.isoDate_text hvalid hfirst hlast
  rw [← String.utf8Len_toList]
  generalize d.text.toList = cs at hiso
  cases hiso with
  | intro year four month two day two' value valid =>
    have hhyphen : '-'.utf8Size = 1 := by decide
    simp only [String.utf8Len_append, String.utf8Len_cons, utf8Len_digits year,
      utf8Len_digits month, utf8Len_digits day, four, two, two', hhyphen]

/-- A text that starts with a date outside the years 0 to 9999 is no timestamp. -/
theorem not_written_of_year {d e : Date} {rest' : List Char}
    (hyears : ¬ (0 ≤ e.year ∧ e.year ≤ 9999)) : ¬ Written d rest' (e.text.toList ++ rest) := by
  intro h
  generalize hcs : e.text.toList ++ rest = cs at h
  rw [Date.toList_text, Date.yearText_signed hyears] at hcs
  cases h with
  | intro hdate htime =>
    cases hdate with
    | intro year four month two day two' value valid =>
      simp only [List.append_assoc, List.cons_append] at hcs
      exact Date.digits_ne_sign _ _ _ year (List.length_pos_iff.mp (by omega)) hcs.symm

theorem Written.time {d : Date} (h : Written d rest cs) : TimeWritten rest := by
  cases h with
  | intro hdate htime => exact htime

theorem Written.valid {d : Date} (h : Written d rest cs) : d.IsValid := by
  cases h with
  | intro hdate htime => exact hdate.spelled.2

/-- A date with a time behind it has no blanks around it. -/
theorem trimmed_text (d : Date) (h : TimeWritten rest) :
    Text.trimmed (d.text.toList ++ rest) = d.text.toList ++ rest := by
  refine Text.trimmed_eq_self (Date.head_text d rest) ?_
  intro c hc
  obtain ⟨front, last, rfl, hlast⟩ := h.last
  rw [← List.append_assoc, List.getLast?_concat] at hc
  obtain rfl := Option.some.inj hc
  exact hlast

end Timestamp

end AgentRun
