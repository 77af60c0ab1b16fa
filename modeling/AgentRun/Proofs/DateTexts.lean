import AgentRun.Proofs.DayNumbers
import AgentRun.Proofs.TemplateText
import Mathlib.Algebra.Group.Nat.Defs
import Mathlib.Data.List.Induction

/-!
# How dates are written

The reader of dates takes more texts than the writer of dates makes: blanks before each number,
short months and days, a year of up to four digits or of any number of digits behind a sign
(`Spelled`). It takes just these (`ofChars?_eq_some`), and so it reads back whatever is written
(`ofChars?_text`).
-/

namespace AgentRun

open Template (Blanks sign)

namespace Text

/-! ## Digits -/

/-- Nothing but decimal digits of ASCII. -/
def Digits (cs : List Char) : Prop := ∀ c ∈ cs, isAsciiDigit c = true

instance (cs : List Char) : Decidable (Digits cs) := List.decidableBAll _ _

theorem isAsciiDigit_iff {c : Char} : isAsciiDigit c = true ↔ 48 ≤ c.toNat ∧ c.toNat ≤ 57 := by
  unfold isAsciiDigit
  rw [Bool.and_eq_true, decide_eq_true_iff, decide_eq_true_iff]
  exact Iff.rfl

theorem not_blank_of_asciiDigit {c : Char} (h : isAsciiDigit c = true) : isBlank c = false := by
  obtain ⟨hlo, hhi⟩ := isAsciiDigit_iff.mp h
  unfold isBlank
  simp only [Bool.or_eq_false_iff, Bool.and_eq_false_iff, decide_eq_false_iff_not,
    beq_eq_false_iff_ne]
  omega

theorem asciiDigitValue_lt {c : Char} (h : isAsciiDigit c = true) : asciiDigitValue c < 10 := by
  obtain ⟨hlo, hhi⟩ := isAsciiDigit_iff.mp h
  show c.toNat - 48 < 10
  omega

theorem asciiDigitValue_injective {c d : Char} (hc : isAsciiDigit c = true)
    (hd : isAsciiDigit d = true) (h : asciiDigitValue c = asciiDigitValue d) : c = d := by
  obtain ⟨hclo, -⟩ := isAsciiDigit_iff.mp hc
  obtain ⟨hdlo, -⟩ := isAsciiDigit_iff.mp hd
  change c.toNat - 48 = d.toNat - 48 at h
  exact Char.toNat_inj.mp (by omega)

theorem digitsValue_snoc (cs : List Char) (c : Char) :
    digitsValue (cs ++ [c]) = 10 * digitsValue cs + asciiDigitValue c := by
  unfold digitsValue
  rw [List.foldl_append]
  rfl

theorem Digits.of_snoc {cs : List Char} {c : Char} (h : Digits (cs ++ [c])) :
    Digits cs ∧ isAsciiDigit c = true :=
  ⟨fun d hd => h d (List.mem_append_left _ hd), h c (by simp)⟩

/-- A numeral is read when there are digits behind its plus sign, and nothing else, and its value
is within the bound. -/
theorem unsignedBelow_eq_some {bound n : Nat} {s : String} : unsignedBelow bound s = some n ↔
    unsigned s.toList ≠ [] ∧ Digits (unsigned s.toList) ∧ digitsValue (unsigned s.toList) = n ∧
      n < bound := by
  have hread : ((unsigned s.toList).isEmpty || !(unsigned s.toList).all isAsciiDigit) = false ↔
      unsigned s.toList ≠ [] ∧ Digits (unsigned s.toList) := by
    simp [Digits]
  simp only [unsignedBelow]
  split
  · rename_i hnot
    have hnone : ¬ (unsigned s.toList ≠ [] ∧ Digits (unsigned s.toList)) := fun h => by
      rw [hread.mpr h] at hnot
      cases hnot
    exact ⟨nofun, fun ⟨hne, hdigits, _⟩ => absurd ⟨hne, hdigits⟩ hnone⟩
  · rename_i hyes
    obtain ⟨hne, hdigits⟩ := hread.mp (Bool.eq_false_iff.mpr hyes)
    split
    · rename_i hlt
      constructor
      · intro h
        obtain rfl := Option.some.inj h
        exact ⟨hne, hdigits, rfl, hlt⟩
      · rintro ⟨-, -, rfl, -⟩
        rfl
    · rename_i hlt
      exact ⟨nofun, fun ⟨_, _, hvalue, hlt'⟩ => absurd (hvalue ▸ hlt') hlt⟩

theorem unsigned_of_notMem {cs : List Char} (h : '+' ∉ cs) : unsigned cs = cs := by
  unfold unsigned
  split
  · exact absurd List.mem_cons_self h
  · rfl

theorem digitsValue_lt {cs : List Char} (h : Digits cs) : digitsValue cs < 10 ^ cs.length := by
  induction cs using List.reverseRecOn with
  | nil => decide
  | append_singleton cs c ih =>
    obtain ⟨hcs, hc⟩ := h.of_snoc
    have hlt := ih hcs
    have hdigit := asciiDigitValue_lt hc
    rw [digitsValue_snoc, List.length_append, List.length_singleton, Nat.pow_succ]
    omega

/-- Rows of digits of one length are told apart by their values. -/
theorem digitsValue_injective {cs ds : List Char} (hcs : Digits cs) (hds : Digits ds)
    (hlength : cs.length = ds.length) (h : digitsValue cs = digitsValue ds) : cs = ds := by
  induction cs using List.reverseRecOn generalizing ds with
  | nil => exact (List.length_eq_zero_iff.mp hlength.symm).symm
  | append_singleton cs c ih =>
    cases ds using List.reverseRecOn with
    | nil => simp at hlength
    | append_singleton ds d =>
      obtain ⟨hcs', hc⟩ := hcs.of_snoc
      obtain ⟨hds', hd⟩ := hds.of_snoc
      have hclt := asciiDigitValue_lt hc
      have hdlt := asciiDigitValue_lt hd
      rw [digitsValue_snoc, digitsValue_snoc] at h
      have hlast : c = d := asciiDigitValue_injective hc hd (by omega)
      have hfront : cs = ds := ih hcs' hds' (by simpa using hlength) (by omega)
      rw [hlast, hfront]

theorem toList_padded (width n : Nat) : (padded width n).toList =
    List.replicate (width - (Nat.toDigits 10 n).length) '0' ++ Nat.toDigits 10 n :=
  String.toList_ofList

theorem digits_padded (width n : Nat) : Digits (padded width n).toList := by
  intro c hc
  rw [toList_padded] at hc
  rcases List.mem_append.mp hc with hzero | hdigit
  · rw [List.eq_of_mem_replicate hzero]
    decide
  · have hc := Nat.isDigit_of_mem_toDigits (by decide) (by decide) hdigit
    rw [isAsciiDigit_iff]
    unfold Char.isDigit at hc
    simpa [UInt32.le_iff_toNat_le] using hc

theorem digitsValue_padded (width n : Nat) : digitsValue (padded width n).toList = n := by
  rw [toList_padded]
  show Nat.ofDigitChars 10 (_ ++ _) 0 = n
  rw [Nat.ofDigitChars_append, Nat.ofDigitChars_replicate_zero, Nat.mul_zero,
    Nat.ofDigitChars_ten_toDigits]

theorem padded_ne_nil (width n : Nat) : (padded width n).toList ≠ [] := by
  rw [toList_padded]
  simp [Nat.toDigits_ne_nil]

theorem length_padded {width n : Nat} (hwidth : 0 < width) (h : n < 10 ^ width) :
    (padded width n).toList.length = width := by
  have hle := (Nat.length_toDigits_le_iff (b := 10) (by decide) hwidth).mpr h
  rw [toList_padded, List.length_append, List.length_replicate]
  omega

/-- Digits are what their value is padded to. -/
theorem padded_digitsValue {cs : List Char} (h : Digits cs) (hne : cs ≠ []) :
    (padded cs.length (digitsValue cs)).toList = cs :=
  digitsValue_injective (digits_padded _ _) h
    (length_padded (List.length_pos_iff.mpr hne) (digitsValue_lt h)) (digitsValue_padded _ _)

/-! ## Nothing to trim -/

theorem trimmed_eq_self {cs : List Char} (hhead : ∀ c, cs.head? = some c → isBlank c = false)
    (hlast : ∀ c, cs.getLast? = some c → isBlank c = false) : trimmed cs = cs := by
  have hfront {ds : List Char} (h : ∀ c, ds.head? = some c → isBlank c = false) :
      ds.dropWhile isBlank = ds := by
    cases ds with
    | nil => rfl
    | cons c ds => exact Template.blanks_cons ds (h c rfl)
  rw [trimmed, hfront hhead, hfront (by rwa [List.head?_reverse]), List.reverse_reverse]

end Text

open Text (isBlank isAsciiDigit digitsValue padded Digits)

namespace Date

/-! ## Spellings -/

/-- How a number of up to `most` digits is written. -/
inductive NumberWritten (most n : Nat) : List Char → Prop
  | intro {b ds : List Char} (blanks : Blanks b) (digits : Digits ds) (nonempty : ds ≠ [])
      (short : ds.length ≤ most) (value : digitsValue ds = n) : NumberWritten most n (b ++ ds)

/-- How a year is written. -/
inductive YearWritten (year : Int) : List Char → Prop
  | plain {n : Nat} {w : List Char} (number : NumberWritten 4 n w) (value : year = n) :
      YearWritten year w
  | signed {b ds : List Char} (minus : Bool) (blanks : Blanks b) (digits : Digits ds)
      (nonempty : ds ≠ []) (value : year = withSign minus (digitsValue ds)) :
      YearWritten year (b ++ sign minus :: ds)

/-- How a date is written. -/
inductive Spelled (d : Date) : List Char → Prop
  | intro {y m w : List Char} (year : YearWritten d.year y) (month : NumberWritten 2 d.month m)
      (day : NumberWritten 2 d.day w) : Spelled d (y ++ '-' :: (m ++ '-' :: w))

/-- Where a number ends. -/
def Ends (rest : List Char) : Prop := ∀ c, rest.head? = some c → isAsciiDigit c = false

theorem ends_nil : Ends [] := nofun

theorem ends_cons {c : Char} (rest : List Char) (h : isAsciiDigit c = false) :
    Ends (c :: rest) := by
  intro d hd
  obtain rfl := Option.some.inj hd
  exact h

theorem Ends.takeWhile_eq {ds rest : List Char} (hrest : Ends rest) (hds : Digits ds) :
    (ds ++ rest).takeWhile isAsciiDigit = ds := by
  rw [List.takeWhile_append_of_pos hds]
  cases rest with
  | nil => rw [List.takeWhile_nil, List.append_nil]
  | cons c rest =>
    rw [List.takeWhile_cons_of_neg (by simp [hrest c rfl]), List.append_nil]

theorem Ends.dropWhile_eq {ds rest : List Char} (hrest : Ends rest) (hds : Digits ds) :
    (ds ++ rest).dropWhile isAsciiDigit = rest := by
  rw [List.dropWhile_append_of_pos hds]
  cases rest with
  | nil => rfl
  | cons c rest => exact List.dropWhile_cons_of_neg (by simp [hrest c rfl])

theorem Ends.take {rest : List Char} (h : Ends rest) (n : Nat) : Ends (rest.take n) := by
  intro c hc
  cases n with
  | zero => simp at hc
  | succ n =>
    cases rest with
    | nil => simp at hc
    | cons d rest => exact h c hc

/-! ## What the reader takes -/

theorem blanks_dropped (cs : List Char) : ∃ b, Blanks b ∧ cs = b ++ cs.dropWhile isBlank :=
  Template.blanks_taken cs

theorem prefix_taken {ds cs : List Char} (h : ds <+: cs) : cs = ds ++ cs.drop ds.length :=
  (List.prefix_iff_eq_append.mp h).symm

theorem digits_takeWhile (cs : List Char) : Digits (cs.takeWhile isAsciiDigit) :=
  fun c hc => List.all_eq_true.mp List.all_takeWhile c hc

theorem readNumber_taken {most n : Nat} {cs rest : List Char}
    (h : readNumber most cs = some (n, rest)) : ∃ w, NumberWritten most n w ∧ cs = w ++ rest := by
  obtain ⟨b, hb, hcs⟩ := blanks_dropped cs
  unfold readNumber at h
  dsimp only at h
  split at h
  · cases h
  · rename_i hne
    obtain ⟨hvalue, hrest⟩ := Prod.mk.inj (Option.some.inj h)
    have hprefix : ((cs.dropWhile isBlank).take most).takeWhile isAsciiDigit <+:
        cs.dropWhile isBlank :=
      (List.takeWhile_prefix _).trans (List.take_prefix ..)
    have hshort := (List.takeWhile_prefix (p := isAsciiDigit)
      (l := (cs.dropWhile isBlank).take most)).length_le
    refine ⟨_, .intro hb (digits_takeWhile _) (by simpa using hne)
      (hshort.trans (by rw [List.length_take]; exact Nat.min_le_left ..)) hvalue, ?_⟩
    rw [List.append_assoc, ← hrest, ← prefix_taken hprefix, ← hcs]

theorem readSigned_taken {n : Nat} {cs rest : List Char}
    (h : readYear.signed cs = some (n, rest)) :
    ∃ ds, Digits ds ∧ ds ≠ [] ∧ digitsValue ds = n ∧ cs = ds ++ rest := by
  unfold readYear.signed at h
  dsimp only at h
  split at h
  · cases h
  · rename_i hne
    obtain ⟨hvalue, hrest⟩ := Prod.mk.inj (Option.some.inj h)
    refine ⟨_, digits_takeWhile cs, by simpa using hne, hvalue, ?_⟩
    rw [← hrest, ← prefix_taken (List.takeWhile_prefix _)]

theorem readYear_taken {year : Int} {cs rest : List Char} (h : readYear cs = some (year, rest)) :
    ∃ w, YearWritten year w ∧ cs = w ++ rest := by
  obtain ⟨b, hb, hcs⟩ := blanks_dropped cs
  have signed (minus : Bool) {n : Nat} {rest' : List Char}
      (hsign : cs.dropWhile isBlank = sign minus :: rest')
      (hread : readYear.signed rest' = some (n, rest)) (hyear : year = withSign minus n) :
      ∃ w, YearWritten year w ∧ cs = w ++ rest := by
    obtain ⟨ds, hds, hne, hvalue, hrest⟩ := readSigned_taken hread
    refine ⟨_, .signed minus hb hds hne (by rw [hvalue, hyear]), ?_⟩
    rw [List.append_assoc, List.cons_append, ← hrest, ← hsign, ← hcs]
  unfold readYear at h
  split at h
  · rename_i rest' hsign
    obtain ⟨⟨n, rest''⟩, hread, h⟩ := Option.map_eq_some_iff.mp h
    obtain ⟨hyear, rfl⟩ := Prod.mk.inj h
    exact signed true hsign hread hyear.symm
  · rename_i rest' hsign
    obtain ⟨⟨n, rest''⟩, hread, h⟩ := Option.map_eq_some_iff.mp h
    obtain ⟨hyear, rfl⟩ := Prod.mk.inj h
    exact signed false hsign hread hyear.symm
  · obtain ⟨⟨n, rest''⟩, hread, h⟩ := Option.map_eq_some_iff.mp h
    obtain ⟨hyear, rfl⟩ := Prod.mk.inj h
    obtain ⟨w, hw, hrest⟩ := readNumber_taken hread
    cases hw with
    | @intro b' ds hb' hds hne hshort hvalue =>
      refine ⟨b ++ b' ++ ds, .plain (.intro ?_ hds hne hshort hvalue) hyear.symm, ?_⟩
      · intro c hc
        rcases List.mem_append.mp hc with hc | hc
        · exact hb c hc
        · exact hb' c hc
      · rw [hcs, hrest]
        simp

theorem readHyphen_taken {cs rest : List Char} (h : readHyphen cs = some rest) :
    cs = '-' :: rest := by
  unfold readHyphen at h
  split at h
  · rw [Option.some.inj h]
  · cases h

theorem spelled_of_ofChars? {cs : List Char} {d : Date} (h : ofChars? cs = some d) :
    Spelled d cs ∧ d.IsValid := by
  obtain ⟨⟨year, r₁⟩, hyear, h⟩ := Option.bind_eq_some_iff.mp h
  obtain ⟨r₂, hfirst, h⟩ := Option.bind_eq_some_iff.mp h
  obtain ⟨⟨month, r₃⟩, hmonth, h⟩ := Option.bind_eq_some_iff.mp h
  obtain ⟨r₄, hsecond, h⟩ := Option.bind_eq_some_iff.mp h
  obtain ⟨⟨day, r₅⟩, hday, h⟩ := Option.bind_eq_some_iff.mp h
  dsimp only at h
  split at h
  · rename_i hend
    obtain rfl := Option.some.inj h
    obtain ⟨y, hy, hcs⟩ := readYear_taken hyear
    obtain ⟨m, hm, hr₂⟩ := readNumber_taken hmonth
    obtain ⟨w, hw, hr₄⟩ := readNumber_taken hday
    have hempty : r₅ = [] := List.isEmpty_iff.mp hend.1
    have hspelled := Spelled.intro (d := ⟨year, month, day⟩) hy hm hw
    rw [hcs, readHyphen_taken hfirst, hr₂, readHyphen_taken hsecond, hr₄, hempty, List.append_nil]
    exact ⟨hspelled, hend.2⟩
  · cases h

/-! ## What the reader finds -/

theorem dropWhile_digits {b ds : List Char} (rest : List Char) (hb : Blanks b) (hds : Digits ds)
    (hne : ds ≠ []) : (b ++ (ds ++ rest)).dropWhile isBlank = ds ++ rest := by
  rw [List.dropWhile_append_of_pos hb]
  exact Template.blanks_word rest hne hds fun c => Text.not_blank_of_asciiDigit

theorem readNumber_written {most n : Nat} {w rest : List Char} (h : NumberWritten most n w)
    (hrest : Ends rest) : readNumber most (w ++ rest) = some (n, rest) := by
  cases h with
  | @intro b ds hb hds hne hshort hvalue =>
    have hdigits : ((ds ++ rest).take most).takeWhile isAsciiDigit = ds := by
      rw [List.take_append, List.take_of_length_le hshort]
      exact (hrest.take _).takeWhile_eq hds
    unfold readNumber
    simp only [List.append_assoc, dropWhile_digits rest hb hds hne, hdigits]
    rw [if_neg (by simpa using hne), hvalue, List.drop_left]

theorem readSigned_written {ds rest : List Char} (hds : Digits ds) (hne : ds ≠ [])
    (hrest : Ends rest) : readYear.signed (ds ++ rest) = some (digitsValue ds, rest) := by
  unfold readYear.signed
  simp only [hrest.takeWhile_eq hds]
  rw [if_neg (by simpa using hne), List.drop_left]

/-- A row of digits starts with no sign. -/
theorem digits_ne_sign {ds : List Char} (rest rest' : List Char) (minus : Bool) (hds : Digits ds)
    (hne : ds ≠ []) : ds ++ rest ≠ sign minus :: rest' := by
  intro h
  cases ds with
  | nil => exact hne rfl
  | cons c ds =>
    obtain ⟨hc, -⟩ := List.cons.inj h
    have hdigit := hds c (List.mem_cons_self ..)
    rw [hc] at hdigit
    cases minus <;> exact absurd hdigit (by decide)

theorem readYear_written {year : Int} {w rest : List Char} (h : YearWritten year w)
    (hrest : Ends rest) : readYear (w ++ rest) = some (year, rest) := by
  cases h with
  | @plain n _ number value =>
    cases number with
    | @intro b ds hb hds hne hshort hvalue =>
      have hread : readNumber 4 (ds ++ rest) = some (n, rest) :=
        readNumber_written (.intro (b := []) nofun hds hne hshort hvalue) hrest
      unfold readYear
      rw [List.append_assoc, dropWhile_digits rest hb hds hne]
      split
      · rename_i rest' hminus
        exact absurd hminus (digits_ne_sign rest rest' true hds hne)
      · rename_i rest' hplus
        exact absurd hplus (digits_ne_sign rest rest' false hds hne)
      · rw [hread, value]
        rfl
  | @signed b ds minus hb hds hne value =>
    have hread := readSigned_written hds hne hrest
    have hfront : (b ++ sign minus :: ds ++ rest).dropWhile isBlank =
        sign minus :: (ds ++ rest) := by
      rw [List.append_assoc, List.dropWhile_append_of_pos hb]
      exact Template.blanks_cons _ (Template.sign_not_blank minus)
    unfold readYear
    rw [hfront]
    cases minus with
    | false =>
      show (readYear.signed (ds ++ rest)).map _ = _
      rw [hread, value]
      rfl
    | true =>
      show (readYear.signed (ds ++ rest)).map _ = _
      rw [hread, value]
      rfl

theorem ofChars?_of_spelled {cs : List Char} {d : Date} (h : Spelled d cs) :
    ofChars? cs = if d.IsValid then some d else none := by
  cases h with
  | @intro y m w year month day =>
    have hyphen : ∀ rest, Ends ('-' :: rest) := fun rest => ends_cons rest (by decide)
    have hlast : readNumber 2 w = some (d.day, []) := by
      have hread := readNumber_written day ends_nil
      rwa [List.append_nil] at hread
    simp only [ofChars?, Option.bind_eq_bind, readYear_written year (hyphen _), Option.bind_some,
      readHyphen, readNumber_written month (hyphen _), hlast, List.isEmpty_nil, true_and]

/-- The reader takes the spellings of the dates that there are, and no other text. -/
theorem ofChars?_eq_some {cs : List Char} {d : Date} :
    ofChars? cs = some d ↔ Spelled d cs ∧ d.IsValid := by
  constructor
  · exact spelled_of_ofChars?
  · rintro ⟨hspelled, hvalid⟩
    rw [ofChars?_of_spelled hspelled, if_pos hvalid]

/-! ## What the writer writes -/

theorem toList_text (d : Date) : d.text.toList =
    (yearText d.year).toList ++
      '-' :: ((padded 2 d.month).toList ++ '-' :: (padded 2 d.day).toList) := by
  unfold text
  simp

theorem number_padded {width n : Nat} (hwidth : 0 < width) (h : n < 10 ^ width) :
    NumberWritten width n (padded width n).toList := by
  rw [← List.nil_append (padded width n).toList]
  exact .intro nofun (Text.digits_padded width n) (Text.padded_ne_nil width n)
    (Text.length_padded hwidth h).le (Text.digitsValue_padded width n)

theorem yearText_plain {year : Int} (h : 0 ≤ year ∧ year ≤ 9999) :
    yearText year = padded 4 year.toNat := if_pos h

theorem yearText_signed {year : Int} (h : ¬ (0 ≤ year ∧ year ≤ 9999)) :
    (yearText year).toList = sign (decide (year < 0)) :: (padded 4 year.natAbs).toList := by
  unfold yearText
  rw [if_neg h, String.toList_append]
  by_cases hneg : year < 0
  · rw [if_pos hneg, decide_eq_true hneg]
    rfl
  · rw [if_neg hneg, decide_eq_false hneg]
    rfl

theorem year_text (year : Int) : YearWritten year (yearText year).toList := by
  by_cases hplain : 0 ≤ year ∧ year ≤ 9999
  · rw [yearText_plain hplain]
    exact .plain (number_padded (by decide) (by omega)) (Int.toNat_of_nonneg hplain.1).symm
  · rw [yearText_signed hplain]
    refine .signed (b := []) _ nofun (Text.digits_padded 4 _) (Text.padded_ne_nil 4 _) ?_
    rw [Text.digitsValue_padded]
    unfold withSign
    by_cases hneg : year < 0
    · rw [if_pos (decide_eq_true hneg)]
      omega
    · rw [if_neg (by simp [hneg])]
      omega

theorem spelled_text {d : Date} (hmonth : d.month < 100) (hday : d.day < 100) :
    Spelled d d.text.toList := by
  rw [toList_text]
  exact .intro (year_text d.year) (number_padded (by decide) hmonth)
    (number_padded (by decide) hday)

/-- The calendar has no numbers of three digits but for years. -/
theorem InCalendar.short {d : Date} (h : d.InCalendar) : d.month < 100 ∧ d.day < 100 := by
  obtain ⟨-, hm12, -, hlast⟩ := h
  have hlength : ∀ leap, ∀ m < 12, (monthLengths leap).getD m 0 < 100 := by decide
  have hm := hlength (isLeap d.year) (d.month - 1) (by omega)
  unfold monthLength at hlast
  omega

theorem ofChars?_text {d : Date} (h : d.IsValid) : ofChars? d.text.toList = some d := by
  obtain ⟨hmonth, hday⟩ := (isValid_iff.mp h).2.short
  rw [ofChars?_of_spelled (spelled_text hmonth hday), if_pos h]

/-! ## Four, two and two digits -/

/-- A date that is written as four, two and two digits. -/
inductive IsoDate (d : Date) : List Char → Prop
  | intro {y m w : List Char} (year : Digits y) (four : y.length = 4) (month : Digits m)
      (two : m.length = 2) (day : Digits w) (two' : w.length = 2)
      (value : d = ⟨digitsValue y, digitsValue m, digitsValue w⟩) (valid : d.IsValid) :
      IsoDate d (y ++ '-' :: (m ++ '-' :: w))

theorem numberWritten_digits {most : Nat} {ds : List Char} (hds : Digits ds) (hmost : 0 < most)
    (hlength : ds.length = most) : NumberWritten most (digitsValue ds) ds :=
  .intro (b := []) nofun hds (List.length_pos_iff.mp (by omega)) hlength.le rfl

theorem spelled_digits {y m w : List Char} (year : Digits y) (four : y.length = 4)
    (month : Digits m) (two : m.length = 2) (day : Digits w) (two' : w.length = 2) :
    Spelled ⟨digitsValue y, digitsValue m, digitsValue w⟩ (y ++ '-' :: (m ++ '-' :: w)) :=
  .intro (.plain (numberWritten_digits year (by decide) four) rfl)
    (numberWritten_digits month (by decide) two) (numberWritten_digits day (by decide) two')

theorem IsoDate.spelled {d : Date} {cs : List Char} (h : IsoDate d cs) :
    Spelled d cs ∧ d.IsValid := by
  cases h with
  | intro year four month two day two' value valid =>
    subst value
    exact ⟨spelled_digits year four month two day two', valid⟩

theorem IsoDate.length_eq {d : Date} {cs : List Char} (h : IsoDate d cs) : cs.length = 10 := by
  cases h with
  | intro year four month two day two' value valid => simp [four, two, two']

/-- It is the text that a date of these years has. -/
theorem IsoDate.eq_text {d : Date} {cs : List Char} (h : IsoDate d cs) :
    cs = d.text.toList ∧ 0 ≤ d.year ∧ d.year ≤ 9999 := by
  cases h with
  | @intro y m w year four month two day two' value valid =>
    subst value
    have hlt : digitsValue y < 10 ^ 4 := four ▸ Text.digitsValue_lt year
    have hne {ds : List Char} {n : Nat} (hlength : ds.length = n + 1) : ds ≠ [] :=
      List.length_pos_iff.mp (by omega)
    have hyear := Text.padded_digitsValue year (hne four)
    have hmonth := Text.padded_digitsValue month (hne two)
    have hday := Text.padded_digitsValue day (hne two')
    rw [four] at hyear
    rw [two] at hmonth
    rw [two'] at hday
    have hplain : 0 ≤ (digitsValue y : Int) ∧ (digitsValue y : Int) ≤ 9999 := by omega
    refine ⟨?_, hplain⟩
    rw [toList_text]
    simp only [yearText_plain hplain, Int.toNat_natCast, hyear, hmonth, hday]

theorem isoDate_text {d : Date} (hvalid : d.IsValid) (hfirst : 0 ≤ d.year) (hlast : d.year ≤ 9999) :
    IsoDate d d.text.toList := by
  obtain ⟨hmonth, hday⟩ := (isValid_iff.mp hvalid).2.short
  rw [toList_text, yearText_plain ⟨hfirst, hlast⟩]
  refine .intro (Text.digits_padded 4 _) (Text.length_padded (by decide) (by omega))
    (Text.digits_padded 2 _) (Text.length_padded (by decide) hmonth) (Text.digits_padded 2 _)
    (Text.length_padded (by decide) hday) ?_ hvalid
  rw [Text.digitsValue_padded, Text.digitsValue_padded, Text.digitsValue_padded,
    Int.toNat_of_nonneg hfirst]

/-! ## Blanks and colons -/

theorem text_not_blank (d : Date) : ∀ c ∈ d.text.toList, isBlank c = false := by
  have hpadded : ∀ width n, ∀ c ∈ (padded width n).toList, isBlank c = false :=
    fun width n c hc => Text.not_blank_of_asciiDigit (Text.digits_padded width n c hc)
  have hyear : ∀ c ∈ (yearText d.year).toList, isBlank c = false := by
    intro c hc
    by_cases hplain : 0 ≤ d.year ∧ d.year ≤ 9999
    · rw [yearText_plain hplain] at hc
      exact hpadded _ _ c hc
    · rw [yearText_signed hplain] at hc
      rcases List.mem_cons.mp hc with rfl | hdigit
      · exact Template.sign_not_blank _
      · exact hpadded _ _ c hdigit
  intro c hc
  rw [toList_text] at hc
  simp only [List.mem_append, List.mem_cons] at hc
  rcases hc with hc | rfl | hc | rfl | hc
  · exact hyear c hc
  · decide
  · exact hpadded _ _ c hc
  · decide
  · exact hpadded _ _ c hc

theorem text_ne_nil (d : Date) : d.text.toList ≠ [] := by
  rw [toList_text]
  simp

/-- A text that starts with the text of a date starts with no blank. -/
theorem head_text (d : Date) (rest : List Char) :
    ∀ c, (d.text.toList ++ rest).head? = some c → isBlank c = false := by
  intro c hc
  obtain ⟨a, l, htext⟩ := List.exists_cons_of_ne_nil (text_ne_nil d)
  rw [htext] at hc
  obtain rfl := Option.some.inj hc
  exact text_not_blank d a (by simp [htext])

theorem trimmed_text (d : Date) : Text.trimmed d.text.toList = d.text.toList := by
  refine Text.trimmed_eq_self ?_ ?_
  · intro c hc
    exact text_not_blank d c (List.mem_of_head? hc)
  · intro c hc
    exact text_not_blank d c (List.mem_of_getLast? hc)

theorem NumberWritten.colon_notMem {most n : Nat} {w : List Char} (h : NumberWritten most n w) :
    ':' ∉ w := by
  cases h with
  | intro blanks digits nonempty short value =>
    intro hc
    rcases List.mem_append.mp hc with hc | hc
    · exact absurd (blanks ':' hc) (by decide)
    · exact absurd (digits ':' hc) (by decide)

theorem Spelled.colon_notMem {d : Date} {cs : List Char} (h : Spelled d cs) : ':' ∉ cs := by
  cases h with
  | @intro y m w year month day =>
    have hyear : ':' ∉ y := by
      cases year with
      | plain number value => exact number.colon_notMem
      | @signed b ds minus blanks digits nonempty value =>
        intro hc
        rcases List.mem_append.mp hc with hc | hc
        · exact absurd (blanks ':' hc) (by decide)
        · rcases List.mem_cons.mp hc with hc | hc
          · cases minus <;> exact absurd hc (by decide)
          · exact absurd (digits ':' hc) (by decide)
    have hmonth := month.colon_notMem
    have hday := day.colon_notMem
    simp [hyear, hmonth, hday]

end Date

end AgentRun
