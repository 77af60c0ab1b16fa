import AgentRun.Calendar.Date
import Mathlib.Logic.Function.Iterate

/-!
# Days by number

The days of the calendar follow one another without gaps (`Date.next`), and their numbers count
them: every integer is the number of just one date (`ofNumber_number`, `number_ofNumber`). So a
shift gives the date that is reached by the given number of steps from day to day, as long as its
year is in the range (`Away.shift?_eq`).
-/

namespace AgentRun

namespace Date

/-- The length of a month. -/
def monthLength (year : Int) (month : Nat) : Nat :=
  (monthLengths (isLeap year)).getD (month - 1) 0

/-- A day that the calendar has, in whatever year. -/
def InCalendar (d : Date) : Prop :=
  1 ≤ d.month ∧ d.month ≤ 12 ∧ 1 ≤ d.day ∧ d.day ≤ monthLength d.year d.month

/-- The years that a date can be shifted to. -/
def InRange (d : Date) : Prop := firstYear ≤ d.year ∧ d.year ≤ lastYear

instance (d : Date) : Decidable d.InRange := by unfold InRange; infer_instance

instance (d : Date) : Decidable d.InCalendar := by unfold InCalendar; infer_instance

theorem isValid_iff {d : Date} : d.IsValid ↔ d.InRange ∧ d.InCalendar := by
  unfold IsValid InRange InCalendar monthLength
  constructor
  · rintro ⟨hfirst, hlast, hrest⟩
    exact ⟨⟨hfirst, hlast⟩, hrest⟩
  · rintro ⟨⟨hfirst, hlast⟩, hrest⟩
    exact ⟨hfirst, hlast, hrest⟩

/-- The day after. -/
def next (d : Date) : Date :=
  if d.day < monthLength d.year d.month then { d with day := d.day + 1 }
  else if d.month < 12 then ⟨d.year, d.month + 1, 1⟩
  else ⟨d.year + 1, 1, 1⟩

/-! ## Months -/

/-- The number of days in the first months of a year. -/
def daysIn (lengths : List Nat) (months : Nat) : Nat := (lengths.take months).foldr (· + ·) 0

@[simp] theorem daysIn_zero (lengths : List Nat) : daysIn lengths 0 = 0 := rfl

@[simp] theorem daysIn_cons (l : Nat) (rest : List Nat) (k : Nat) :
    daysIn (l :: rest) (k + 1) = l + daysIn rest k := rfl

theorem daysIn_succ (lengths : List Nat) {k : Nat} (hk : k < lengths.length) :
    daysIn lengths (k + 1) = daysIn lengths k + lengths.getD k 0 := by
  induction lengths generalizing k with
  | nil => simp at hk
  | cons l rest ih =>
    cases k with
    | zero => simp [daysIn]
    | succ k =>
      rw [daysIn_cons, daysIn_cons, ih (by simpa using hk), List.getD_cons_succ, Nat.add_assoc]

theorem daysIn_mono (lengths : List Nat) {j k : Nat} (h : j ≤ k) :
    daysIn lengths j ≤ daysIn lengths k := by
  induction lengths generalizing j k with
  | nil => simp [daysIn]
  | cons l rest ih =>
    cases j with
    | zero => simp
    | succ j =>
      obtain ⟨k, rfl⟩ : ∃ i, k = i + 1 := ⟨k - 1, by omega⟩
      have hrest := ih (show j ≤ k by omega)
      simp only [daysIn_cons]
      omega

theorem inMonths_eq (lengths : List Nat) (month : Nat) {k day : Nat} (hk : k < lengths.length)
    (hday : 1 ≤ day) (hlast : day ≤ lengths.getD k 0) :
    inMonths month (daysIn lengths k + day) lengths = (month + k, day) := by
  induction lengths generalizing month k with
  | nil => simp at hk
  | cons l rest ih =>
    unfold inMonths
    cases k with
    | zero =>
      rw [List.getD_cons_zero] at hlast
      rw [daysIn_zero, Nat.zero_add, if_pos hlast, Nat.add_zero]
    | succ k =>
      rw [List.getD_cons_succ] at hlast
      have hnot : ¬ daysIn (l :: rest) (k + 1) + day ≤ l := by
        rw [daysIn_cons]
        omega
      have hless : daysIn (l :: rest) (k + 1) + day - l = daysIn rest k + day := by
        rw [daysIn_cons]
        omega
      rw [if_neg hnot, hless, ih (month + 1) (by simpa using hk) hlast]
      simp only [Prod.mk.injEq, and_true]
      omega

/-- Every day of a year is a day of one of its months. -/
theorem exists_month {lengths : List Nat} {n : Nat} (hn : 1 ≤ n)
    (hlast : n ≤ daysIn lengths lengths.length) :
    ∃ k day, k < lengths.length ∧ 1 ≤ day ∧ day ≤ lengths.getD k 0 ∧
      n = daysIn lengths k + day := by
  induction lengths generalizing n with
  | nil =>
    simp [daysIn] at hlast
    omega
  | cons l rest ih =>
    by_cases hfirst : n ≤ l
    · exact ⟨0, n, by simp, hn, by simpa using hfirst, by simp⟩
    · rw [List.length_cons, daysIn_cons] at hlast
      obtain ⟨k, day, hk, hday, hle, hnum⟩ := ih (n := n - l) (by omega) (by omega)
      refine ⟨k + 1, day, by simpa using hk, hday, by simpa using hle, ?_⟩
      rw [daysIn_cons]
      omega

theorem length_monthLengths (leap : Bool) : (monthLengths leap).length = 12 := rfl

theorem monthLength_pos {year : Int} {month : Nat} (h1 : 1 ≤ month) (h12 : month ≤ 12) :
    1 ≤ monthLength year month := by
  have hall : ∀ leap, ∀ m < 12, 1 ≤ (monthLengths leap).getD m 0 := by decide
  exact hall _ _ (by omega)

/-! ## Years -/

theorem daysBeforeYear_eq (year : Int) : daysBeforeYear year =
    365 * (year - 1) + (year - 1) / 4 - (year - 1) / 100 + (year - 1) / 400 := rfl

theorem daysIn_year (leap : Bool) :
    daysIn (monthLengths leap) 12 = if leap then 366 else 365 := by
  cases leap <;> rfl

/-- The months of a year fill it. -/
theorem daysBeforeYear_succ (year : Int) : daysBeforeYear (year + 1) =
    daysBeforeYear year + daysIn (monthLengths (isLeap year)) 12 := by
  rw [daysIn_year, daysBeforeYear_eq, daysBeforeYear_eq]
  unfold isLeap
  simp only [Bool.and_eq_true, Bool.or_eq_true, beq_iff_eq, bne_iff_ne]
  split <;> omega

theorem daysBeforeYear_le {y z : Int} (h : y ≤ z) : daysBeforeYear y ≤ daysBeforeYear z := by
  rw [daysBeforeYear_eq, daysBeforeYear_eq]
  omega

/-- The estimate of the year of a day is off by one at most. -/
theorem estimate_bounds (n : Int) : daysBeforeYear (400 * n / 146097 + 1 - 1) < n ∧
    n ≤ daysBeforeYear (400 * n / 146097 + 1 + 1 + 1) := by
  rw [daysBeforeYear_eq, daysBeforeYear_eq]
  constructor
  · omega
  · omega

theorem yearOf_spec (n : Int) :
    daysBeforeYear (yearOf n) < n ∧ n ≤ daysBeforeYear (yearOf n + 1) := by
  obtain ⟨hlo, hhi⟩ := estimate_bounds n
  unfold yearOf
  dsimp only
  by_cases hbefore : n ≤ daysBeforeYear (400 * n / 146097 + 1)
  · rw [if_pos hbefore, Int.sub_add_cancel]
    exact ⟨hlo, hbefore⟩
  · rw [if_neg hbefore]
    by_cases hafter : daysBeforeYear (400 * n / 146097 + 1 + 1) < n
    · rw [if_pos hafter]
      exact ⟨hafter, hhi⟩
    · rw [if_neg hafter]
      exact ⟨Int.not_le.mp hbefore, Int.not_lt.mp hafter⟩

theorem yearOf_eq {n y : Int} (hlo : daysBeforeYear y < n) (hhi : n ≤ daysBeforeYear (y + 1)) :
    yearOf n = y := by
  obtain ⟨hlo', hhi'⟩ := yearOf_spec n
  rcases Int.lt_trichotomy (yearOf n) y with hlt | heq | hgt
  · have hle := daysBeforeYear_le (show yearOf n + 1 ≤ y by omega)
    omega
  · exact heq
  · have hle := daysBeforeYear_le (show y + 1 ≤ yearOf n by omega)
    omega

/-! ## Numbers -/

theorem number_eq (d : Date) :
    d.number = daysBeforeYear d.year + daysIn (monthLengths (isLeap d.year)) (d.month - 1) +
      d.day := rfl

/-- The number of a day lies within its year. -/
theorem number_bounds {d : Date} (h : d.InCalendar) :
    daysBeforeYear d.year < d.number ∧ d.number ≤ daysBeforeYear (d.year + 1) := by
  obtain ⟨hm1, hm12, hd1, hdlast⟩ := h
  have hmonth := daysIn_succ (monthLengths (isLeap d.year)) (k := d.month - 1)
    (by rw [length_monthLengths]; omega)
  have hyear := daysIn_mono (monthLengths (isLeap d.year)) (show d.month - 1 + 1 ≤ 12 by omega)
  unfold monthLength at hdlast
  rw [number_eq, daysBeforeYear_succ]
  constructor
  · omega
  · omega

theorem ofNumber_number {d : Date} (h : d.InCalendar) : ofNumber d.number = d := by
  obtain ⟨hlo, hhi⟩ := number_bounds h
  obtain ⟨hm1, hm12, hd1, hdlast⟩ := h
  have hmonth := inMonths_eq (monthLengths (isLeap d.year)) 1 (k := d.month - 1)
    (by rw [length_monthLengths]; omega) hd1 hdlast
  have hinto : (d.number - daysBeforeYear d.year).toNat =
      daysIn (monthLengths (isLeap d.year)) (d.month - 1) + d.day := by
    rw [number_eq]
    omega
  unfold ofNumber
  simp only [yearOf_eq hlo hhi, hinto, hmonth]
  rw [Nat.add_sub_cancel' hm1]

theorem number_ofNumber (n : Int) : (ofNumber n).InCalendar ∧ (ofNumber n).number = n := by
  obtain ⟨hlo, hhi⟩ := yearOf_spec n
  rw [daysBeforeYear_succ] at hhi
  have hlast : (n - daysBeforeYear (yearOf n)).toNat ≤
      daysIn (monthLengths (isLeap (yearOf n))) (monthLengths (isLeap (yearOf n))).length := by
    rw [length_monthLengths]
    omega
  obtain ⟨k, day, hk, hday, hle, hnum⟩ := exists_month (by omega) hlast
  rw [length_monthLengths] at hk
  have hdate : ofNumber n = ⟨yearOf n, 1 + k, day⟩ := by
    unfold ofNumber
    simp only [hnum, inMonths_eq (monthLengths (isLeap (yearOf n))) 1 hk hday hle]
  rw [hdate]
  refine ⟨⟨by simp, by simp only; omega, hday, ?_⟩, ?_⟩
  · simpa [monthLength] using hle
  · simp only [number_eq, Nat.add_sub_cancel_left]
    omega

theorem number_injective {d e : Date} (hd : d.InCalendar) (he : e.InCalendar)
    (h : d.number = e.number) : d = e := by
  rw [← ofNumber_number hd, ← ofNumber_number he, h]

/-- Later days are in no earlier year. -/
theorem year_le {d e : Date} (hd : d.InCalendar) (he : e.InCalendar) (h : d.number ≤ e.number) :
    d.year ≤ e.year := by
  by_contra hlt
  have hle := daysBeforeYear_le (show e.year + 1 ≤ d.year by omega)
  have hd' := number_bounds hd
  have he' := number_bounds he
  omega

/-! ## From day to day -/

theorem next_inCalendar {d : Date} (h : d.InCalendar) : d.next.InCalendar := by
  obtain ⟨hm1, hm12, hd1, hdlast⟩ := h
  unfold next
  split
  · rename_i hday
    exact ⟨hm1, hm12, by simp, hday⟩
  · split
    · rename_i hmonth
      exact ⟨by simp, hmonth, Nat.le_refl 1, monthLength_pos (Nat.le_add_left ..) hmonth⟩
    · exact ⟨Nat.le_refl 1, by simp, Nat.le_refl 1, monthLength_pos (Nat.le_refl 1) (by simp)⟩

theorem number_next {d : Date} (h : d.InCalendar) : d.next.number = d.number + 1 := by
  obtain ⟨hm1, hm12, hd1, hdlast⟩ := h
  have hmonth := daysIn_succ (monthLengths (isLeap d.year)) (k := d.month - 1)
    (by rw [length_monthLengths]; omega)
  unfold next
  split
  · simp only [number_eq]
    omega
  · rename_i hday
    have hend : d.day = (monthLengths (isLeap d.year)).getD (d.month - 1) 0 :=
      Nat.le_antisymm hdlast (Nat.le_of_not_lt hday)
    rw [Nat.sub_add_cancel hm1] at hmonth
    split
    · simp only [number_eq, Nat.add_sub_cancel]
      omega
    · have hdec : d.month = 12 := by omega
      rw [hdec] at hmonth hend
      simp only [number_eq, daysBeforeYear_succ, hdec, Nat.sub_self, daysIn_zero]
      omega

theorem iterate_next {d : Date} (h : d.InCalendar) (n : Nat) :
    (next^[n] d).InCalendar ∧ (next^[n] d).number = d.number + n := by
  induction n with
  | zero => exact ⟨h, by simp⟩
  | succ n ih =>
    obtain ⟨hin, hnum⟩ := ih
    rw [Function.iterate_succ_apply']
    refine ⟨next_inCalendar hin, ?_⟩
    rw [number_next hin, hnum]
    omega

/-! ## Shifts -/

/-- A number with a sign. -/
def withSign (minus : Bool) (n : Nat) : Int := if minus then -n else n

theorem withSign_add (minus : Bool) (m n : Nat) :
    withSign minus (m + n) = withSign minus m + withSign minus n := by
  cases minus <;> simp only [withSign, Bool.false_eq_true, if_true, if_false] <;> omega

theorem withSign_not (minus : Bool) (n : Nat) : withSign (!minus) n = -withSign minus n := by
  cases minus <;> simp [withSign]

theorem withSign_zero (minus : Bool) : withSign minus 0 = 0 := by cases minus <;> rfl

/-- One date is a number of days after another, or before it: by their numbers, and by the steps
from day to day that lead from the earlier to the later. -/
structure Away (d : Date) (n : Nat) (back : Bool) (e : Date) : Prop where
  inCalendar : e.InCalendar
  number : e.number = d.number + withSign back n
  steps : if back then next^[n] e = d else next^[n] d = e

variable {d e f : Date} {m n : Nat} {back : Bool}

theorem away_of_number (hd : d.InCalendar) (he : e.InCalendar)
    (h : e.number = d.number + withSign back n) : Away d n back e := by
  refine ⟨he, h, ?_⟩
  unfold withSign at h
  cases back with
  | false =>
    obtain ⟨hin, hnum⟩ := iterate_next hd n
    rw [if_neg Bool.false_ne_true] at h ⊢
    exact number_injective hin he (by rw [hnum, h])
  | true =>
    obtain ⟨hin, hnum⟩ := iterate_next he n
    rw [if_pos rfl] at h ⊢
    exact number_injective hin hd (by rw [hnum, h, Int.neg_add_cancel_right])

theorem exists_away (hd : d.InCalendar) (n : Nat) (back : Bool) : ∃ e, Away d n back e := by
  obtain ⟨hin, hnum⟩ := number_ofNumber (d.number + withSign back n)
  exact ⟨_, away_of_number hd hin hnum⟩

theorem Away.unique (he : Away d n back e) (hf : Away d n back f) : e = f :=
  number_injective he.inCalendar hf.inCalendar (he.number.trans hf.number.symm)

theorem Away.of_zero (hd : d.InCalendar) (h : Away d 0 back e) : e = d := by
  refine number_injective h.inCalendar hd ?_
  rw [h.number, withSign_zero, Int.add_zero]

theorem Away.reversed (hd : d.InCalendar) (h : Away d n back e) : Away e n (!back) d := by
  refine away_of_number h.inCalendar hd ?_
  rw [withSign_not, h.number, Int.add_neg_cancel_right]

theorem Away.trans (hd : d.InCalendar) (he : Away d m back e) (hf : Away e n back f) :
    Away d (m + n) back f := by
  refine away_of_number hd hf.inCalendar ?_
  rw [hf.number, he.number, withSign_add, Int.add_assoc]

/-- No shift leads out of the range of years and a longer one back into it. -/
theorem Away.inRange_between (hd : d.InCalendar) (hin : d.InRange) (he : Away d m back e)
    (hf : Away e n back f) (hlast : f.InRange) : e.InRange := by
  have henum := he.number
  have hfnum := hf.number
  unfold InRange withSign at *
  cases back with
  | false =>
    rw [if_neg Bool.false_ne_true] at henum hfnum
    have hfirst := year_le hd he.inCalendar (by omega)
    have hsecond := year_le he.inCalendar hf.inCalendar (by omega)
    omega
  | true =>
    rw [if_pos rfl] at henum hfnum
    have hfirst := year_le he.inCalendar hd (by omega)
    have hsecond := year_le hf.inCalendar he.inCalendar (by omega)
    omega

/-- A shift gives the date that is so many days away, if its year is in the range. -/
theorem Away.shift?_eq (h : Away d n back e) :
    d.shift? n back = if e.InRange then some e else none := by
  have hnum : (if back then d.number - n else d.number + n) = e.number := by
    rw [h.number]
    cases back <;> simp [withSign, Int.sub_eq_add_neg]
  unfold shift? InRange
  simp only [hnum, ofNumber_number h.inCalendar]

end Date

end AgentRun
