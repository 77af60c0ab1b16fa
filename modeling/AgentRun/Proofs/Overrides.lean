import AgentRun.CommandLine.Session
import AgentRun.Proofs.DateTexts

/-!
# Settings from the environment

The environment overrides the settings of an engine one by one, and the outcome is that of the
first setting that is wrong: a value that is no numeral for its setting (`Setting.Refused`) goes
before a setting that comes to zero. `Config.withOverrides_eq` and `Config.validate_eq` say so of
the two passes, and `Config.overrides_are_exact` of both together.
-/

namespace AgentRun

open Text (isBlank trim trimmed Digits digitsValue unsigned unsignedBelow)
open Template (Blanks)

/-! ## Numerals -/

/-- How a number below a bound is written for a setting: digits, perhaps with a plus sign, and
blanks around them. -/
inductive NumeralWritten (bound n : Nat) : List Char → Prop
  | intro {before plus ds behind : List Char} (blanks : Blanks before)
      (sign : plus = [] ∨ plus = ['+']) (digits : Digits ds) (nonempty : ds ≠ [])
      (value : digitsValue ds = n) (fits : n < bound) (blanks' : Blanks behind) :
      NumeralWritten bound n (before ++ (plus ++ ds ++ behind))

/-- Blanks around a numeral do not matter, and nothing of the numeral is blank. -/
theorem trimmed_numeral {before plus ds behind : List Char} (blanks : Blanks before)
    (sign : plus = [] ∨ plus = ['+']) (digits : Digits ds) (blanks' : Blanks behind) :
    trimmed (before ++ (plus ++ ds ++ behind)) = plus ++ ds := by
  have hchars : ∀ c ∈ plus ++ ds, isBlank c = false := by
    intro c hc
    rcases List.mem_append.mp hc with hc | hc
    · rcases sign with rfl | rfl
      · cases hc
      · rw [List.mem_singleton.mp hc]
        decide
    · exact Text.not_blank_of_asciiDigit (digits c hc)
  rw [Text.trimmed_blanks _ blanks blanks']
  exact Text.trimmed_eq_self (fun c hc => hchars c (List.mem_of_mem_head? hc))
    fun c hc => hchars c (List.mem_of_mem_getLast? hc)

theorem numeral_read {bound n : Nat} {value : String} :
    unsignedBelow bound (trim value) = some n ↔ NumeralWritten bound n value.toList := by
  rw [Text.unsignedBelow_eq_some, trim, String.toList_ofList]
  constructor
  · rintro ⟨hne, hdigits, hvalue, hfits⟩
    obtain ⟨before, behind, htext, hbefore, hbehind⟩ := Text.eq_trimmed value.toList
    obtain ⟨plus, hsign, hplus⟩ : ∃ plus, (plus = [] ∨ plus = ['+']) ∧
        trimmed value.toList = plus ++ unsigned (trimmed value.toList) := by
      unfold unsigned
      split
      · exact ⟨['+'], Or.inr rfl, by assumption⟩
      · exact ⟨[], Or.inl rfl, rfl⟩
    rw [htext, hplus]
    exact .intro hbefore hsign hdigits hne hvalue hfits hbehind
  · intro h
    generalize value.toList = cs at h
    cases h with
    | intro blanks sign digits nonempty value fits blanks' =>
      rename_i plus ds _
      have hunsigned : unsigned (plus ++ ds) = ds := by
        rcases sign with rfl | rfl
        · exact Text.unsigned_of_notMem fun hin => absurd (digits '+' hin) (by decide)
        · rfl
      rw [trimmed_numeral blanks sign digits blanks', hunsigned]
      exact ⟨nonempty, digits, value, fits⟩

/-! ## Setting by setting -/

/-- A setting that the environment may override. -/
inductive Setting where
  | toolWorkers
  | eventBuffer
  | frontendTimeoutMs
  | reactMaxSteps
  | maxTaskRounds
  deriving DecidableEq

namespace Setting

/-- The settings in the order in which they are looked at. -/
def all : List Setting :=
  [.toolWorkers, .eventBuffer, .frontendTimeoutMs, .reactMaxSteps, .maxTaskRounds]

/-- The name of a setting in a document. -/
def field : Setting → String
  | .toolWorkers => "tool_workers"
  | .eventBuffer => "event_buffer"
  | .frontendTimeoutMs => "frontend_submit_timeout_ms"
  | .reactMaxSteps => "react_max_steps"
  | .maxTaskRounds => "max_task_rounds"

/-- The variable of the environment that overrides a setting. -/
def variableName : Setting → String
  | .toolWorkers => "CONDUCTOR_TOOL_WORKERS"
  | .eventBuffer => "CONDUCTOR_EVENT_BUFFER"
  | .frontendTimeoutMs => "CONDUCTOR_FRONTEND_SUBMIT_TIMEOUT_MS"
  | .reactMaxSteps => "CONDUCTOR_REACT_MAX_STEPS"
  | .maxTaskRounds => "CONDUCTOR_MAX_TASK_ROUNDS"

/-- What the numbers of a setting stay below. -/
def bound : Setting → Nat
  | .toolWorkers | .eventBuffer | .frontendTimeoutMs => Text.word64
  | .reactMaxSteps | .maxTaskRounds => Text.word32

/-- The number that a setting has. -/
def of (c : Config) : Setting → Nat
  | .toolWorkers => c.toolWorkers
  | .eventBuffer => c.eventBuffer
  | .frontendTimeoutMs => c.frontendTimeoutMs
  | .reactMaxSteps => c.reactMaxSteps
  | .maxTaskRounds => c.maxTaskRounds

/-- Whether a setting may be zero. A run that does not wait for its client at all is no fault. -/
def mayBeZero (s : Setting) : Bool := s == .frontendTimeoutMs

/-- The first setting with a property, in the order in which they are looked at. -/
def IsFirst (p : Setting → Prop) (s : Setting) : Prop :=
  p s ∧ ∃ before behind, all = before ++ s :: behind ∧ ∀ t ∈ before, ¬ p t

theorem isFirst_iff {p : Setting → Prop} [DecidablePred p] {s : Setting} :
    IsFirst p s ↔ all.find? (fun t => p t) = some s := by
  simp [IsFirst, List.find?_eq_some_iff_append]

theorem exists_isFirst {p : Setting → Prop} [DecidablePred p] {s : Setting} (h : p s) :
    ∃ t, IsFirst p t := by
  have hsome : (all.find? fun t => p t).isSome := by
    rw [List.find?_isSome]
    exact ⟨s, by cases s <;> decide, by simpa using h⟩
  obtain ⟨t, ht⟩ := Option.isSome_iff_exists.mp hsome
  exact ⟨t, isFirst_iff.mpr ht⟩

/-- The environment has a value for a setting, and it is no numeral for it. -/
def Refused (lookup : String → Option String) (s : Setting) : Prop :=
  ∃ value, lookup s.variableName = some value ∧ ∀ n, ¬ NumeralWritten s.bound n value.toList

/-- The number that a setting comes to: the one that the environment has for it, or else the one it
had. -/
inductive Becomes (c : Config) (lookup : String → Option String) (s : Setting) : Nat → Prop
  | kept (absent : lookup s.variableName = none) : Becomes c lookup s (s.of c)
  | given {value : String} {n : Nat} (present : lookup s.variableName = some value)
      (written : NumeralWritten s.bound n value.toList) : Becomes c lookup s n

variable {c c' : Config} {lookup : String → Option String} {s : Setting} {n : Nat}
  {value : String}

theorem becomes_of_not_refused (h : ¬ s.Refused lookup) : ∃ n, s.Becomes c lookup n := by
  cases hlookup : lookup s.variableName with
  | none => exact ⟨s.of c, .kept hlookup⟩
  | some value =>
    by_contra hnone
    exact h ⟨value, hlookup, fun n hn => hnone ⟨n, .given hlookup hn⟩⟩

/-- What is made of a setting. -/
def read (c : Config) (lookup : String → Option String) (s : Setting) : Except ConfigError Nat :=
  Config.override lookup s.variableName s.bound (s.of c)

theorem Becomes.read_eq (h : s.Becomes c lookup n) : s.read c lookup = .ok n := by
  rcases h with ⟨absent⟩ | ⟨present, written⟩
  · simp only [read, Config.override, absent]
  · simp only [read, Config.override, present, numeral_read.mpr written]

theorem Refused.read_eq (h : s.Refused lookup) (hvalue : lookup s.variableName = some value) :
    s.read c lookup = .error (.invalidValue s.variableName value) := by
  obtain ⟨value', hvalue', hnone⟩ := h
  obtain rfl := Option.some.inj (hvalue.symm.trans hvalue')
  have hread : unsignedBelow s.bound (trim value) = none := by
    rw [Option.eq_none_iff_forall_ne_some]
    exact fun n hn => hnone n (numeral_read.mp hn)
  simp only [read, Config.override, hvalue, hread]

end Setting

namespace Config

open Setting

variable {c c' : Config} {lookup : String → Option String} {s : Setting} {value : String}

/-! ## All settings -/

/-- The settings with the numbers of a list, which has one for each in their order. -/
def ofNumbers : List Nat → Config
  | [toolWorkers, eventBuffer, frontendTimeoutMs, reactMaxSteps, maxTaskRounds] =>
    ⟨toolWorkers, eventBuffer, frontendTimeoutMs, reactMaxSteps, maxTaskRounds⟩
  | _ => default

theorem withOverrides_eq (c : Config) (lookup : String → Option String) :
    c.withOverrides lookup =
      all.mapM (read c lookup) >>= fun numbers => (ofNumbers numbers).validate := by
  simp only [all, List.mapM_cons, List.mapM_nil, bind_assoc, pure_bind]
  rfl

/-- What fails for an item, but for none before it, fails for the list. -/
theorem mapM_error {α β ε : Type} {f : α → Except ε β} {before behind : List α} {x : α} {e : ε}
    (hbefore : ∀ y ∈ before, ∃ b, f y = .ok b) (hx : f x = .error e) :
    (before ++ x :: behind).mapM f = .error e := by
  induction before with
  | nil =>
    rw [List.nil_append, List.mapM_cons, hx]
    rfl
  | cons y before ih =>
    obtain ⟨b, hb⟩ := hbefore y List.mem_cons_self
    rw [List.cons_append, List.mapM_cons, hb, ih fun z hz => hbefore z (List.mem_cons_of_mem _ hz)]
    rfl

/-- The first value that is no numeral for its setting ends it. -/
theorem withOverrides_refused (h : IsFirst (Refused lookup) s)
    (hvalue : lookup s.variableName = some value) :
    c.withOverrides lookup = .error (.invalidValue s.variableName value) := by
  obtain ⟨hrefused, before, behind, hall, hbefore⟩ := h
  have hread : ∀ t ∈ before, ∃ n, t.read c lookup = .ok n := fun t ht => by
    obtain ⟨n, hn⟩ := becomes_of_not_refused (hbefore t ht)
    exact ⟨n, hn.read_eq⟩
  rw [withOverrides_eq, hall, mapM_error hread (hrefused.read_eq hvalue)]
  rfl

/-- When every setting comes to a number, only the zeros are left to look for. -/
theorem withOverrides_taken (h : ∀ s : Setting, s.Becomes c lookup (s.of c')) :
    c.withOverrides lookup = c'.validate := by
  have hread : all.mapM (read c lookup) = .ok (all.map fun s => s.of c') := by
    simp only [all, List.mapM_cons, List.mapM_nil, (h _).read_eq]
    rfl
  rw [withOverrides_eq, hread]
  rfl

theorem exists_taken (h : ∀ s : Setting, ¬ s.Refused lookup) :
    ∃ c' : Config, ∀ s : Setting, s.Becomes c lookup (s.of c') := by
  choose number hnumber using fun s : Setting => becomes_of_not_refused (c := c) (h s)
  refine ⟨⟨number .toolWorkers, number .eventBuffer, number .frontendTimeoutMs,
    number .reactMaxSteps, number .maxTaskRounds⟩, fun s => ?_⟩
  cases s <;> exact hnumber _

/-- A setting is zero that must not be. -/
def Vanishes (c : Config) (s : Setting) : Prop := s.mayBeZero = false ∧ s.of c = 0

instance (c : Config) : DecidablePred c.Vanishes := fun s =>
  inferInstanceAs (Decidable (s.mayBeZero = false ∧ s.of c = 0))

theorem validate_eq (c : Config) : c.validate =
    match all.find? fun s => c.Vanishes s with
    | some s => .error (.zero s.field)
    | none => .ok c := by
  unfold validate
  split_ifs with h₁ h₂ h₃ h₄ <;> simp [all, Vanishes, mayBeZero, Setting.of, field, *]

/-- The first setting that vanishes is named. -/
theorem validate_zero (h : IsFirst c.Vanishes s) : c.validate = .error (.zero s.field) := by
  rw [validate_eq, isFirst_iff.mp h]

theorem validate_eq_ok : c.validate = .ok c' ↔ c = c' ∧ ∀ s, ¬ c.Vanishes s := by
  constructor
  · intro h
    have hnone (s : Setting) : ¬ c.Vanishes s := fun hs => by
      obtain ⟨t, ht⟩ := exists_isFirst hs
      cases (validate_zero ht).symm.trans h
    have hfind : (all.find? fun s => c.Vanishes s) = none := by
      simpa using fun s _ => hnone s
    rw [validate_eq, hfind] at h
    exact ⟨Except.ok.inj h, hnone⟩
  · rintro ⟨rfl, hnone⟩
    have hfind : (all.find? fun s => c.Vanishes s) = none := by
      simpa using fun s _ => hnone s
    rw [validate_eq, hfind]

/-! ## The outcome -/

/-- Overrides fail at the first value that is no numeral for its setting, and if there is none at
the first setting that comes to zero and must not. -/
inductive Fails (c : Config) (lookup : String → Option String) : ConfigError → Prop
  | invalid {s : Setting} {value : String} (first : IsFirst (Refused lookup) s)
      (present : lookup s.variableName = some value) :
      Fails c lookup (.invalidValue s.variableName value)
  | zero {s : Setting} (numerals : ∀ s : Setting, ¬ s.Refused lookup)
      (first : IsFirst (fun s => s.mayBeZero = false ∧ s.Becomes c lookup 0) s) :
      Fails c lookup (.zero s.field)

/-- Overrides succeed when every value is a numeral and no setting comes to zero that must not. -/
structure Succeeds (c : Config) (lookup : String → Option String) : Prop where
  numerals : ∀ s : Setting, ¬ s.Refused lookup
  positive : ∀ (s : Setting) (n : Nat), s.mayBeZero = false → s.Becomes c lookup n → n ≠ 0

theorem becomes_iff (h : ∀ s : Setting, s.Becomes c lookup (s.of c')) {n : Nat} :
    s.Becomes c lookup n ↔ n = s.of c' := by
  constructor
  · intro hn
    exact Except.ok.inj (hn.read_eq.symm.trans (h s).read_eq)
  · rintro rfl
    exact h s

theorem Fails.withOverrides_eq {e : ConfigError} (h : Fails c lookup e) :
    c.withOverrides lookup = .error e := by
  cases h with
  | invalid first present => exact withOverrides_refused first present
  | zero numerals first =>
    obtain ⟨c', hc'⟩ := exists_taken (c := c) numerals
    have hvanishes : (fun s : Setting => s.mayBeZero = false ∧ s.Becomes c lookup 0) =
        c'.Vanishes := by
      funext s
      rw [becomes_iff hc', eq_comm (a := 0), Vanishes]
    rw [withOverrides_taken hc', validate_zero (hvanishes ▸ first)]

theorem Succeeds.withOverrides_eq (h : Succeeds c lookup) :
    ∃ c', (∀ s : Setting, s.Becomes c lookup (s.of c')) ∧ c.withOverrides lookup = .ok c' := by
  obtain ⟨c', hc'⟩ := exists_taken (c := c) h.numerals
  refine ⟨c', hc', ?_⟩
  rw [withOverrides_taken hc', validate_eq_ok]
  exact ⟨rfl, fun s hs => h.positive s _ hs.1 (hc' s) hs.2⟩

theorem fails_or_succeeds (c : Config) (lookup : String → Option String) :
    (∃ e, Fails c lookup e) ∨ Succeeds c lookup := by
  classical
  by_cases hrefused : ∃ s : Setting, s.Refused lookup
  · obtain ⟨s, hs⟩ := hrefused
    obtain ⟨t, ht⟩ := exists_isFirst hs
    obtain ⟨value, hvalue, -⟩ := ht.1
    exact Or.inl ⟨_, .invalid ht hvalue⟩
  · have hnumerals (s : Setting) : ¬ s.Refused lookup := fun hs => hrefused ⟨s, hs⟩
    by_cases hzero : ∃ s : Setting, s.mayBeZero = false ∧ s.Becomes c lookup 0
    · obtain ⟨s, hs⟩ := hzero
      obtain ⟨t, ht⟩ :=
        exists_isFirst (p := fun s => s.mayBeZero = false ∧ s.Becomes c lookup 0) hs
      exact Or.inl ⟨_, .zero hnumerals ht⟩
    · refine Or.inr ⟨hnumerals, ?_⟩
      rintro s n hmust hn rfl
      exact hzero ⟨s, hmust, hn⟩

/-- No setting is zero that must not be. -/
def Working (c : Config) : Prop :=
  c.toolWorkers ≠ 0 ∧ c.eventBuffer ≠ 0 ∧ c.reactMaxSteps ≠ 0 ∧ c.maxTaskRounds ≠ 0

theorem working_of_validate (h : c.validate = .ok c') : c'.Working := by
  obtain ⟨rfl, hnone⟩ := validate_eq_ok.mp h
  exact ⟨fun hz => hnone .toolWorkers ⟨rfl, hz⟩, fun hz => hnone .eventBuffer ⟨rfl, hz⟩,
    fun hz => hnone .reactMaxSteps ⟨rfl, hz⟩, fun hz => hnone .maxTaskRounds ⟨rfl, hz⟩⟩

theorem working_of_text {text : String} (h : ofText text = .ok c) : c.Working := by
  unfold ofText at h
  split at h
  · cases h
  · exact working_of_validate h

/-- One of the two ways out is taken, and it says what the outcome is. -/
theorem withOverrides_cases (c : Config) (lookup : String → Option String) :
    (∃ e, Fails c lookup e ∧ c.withOverrides lookup = .error e) ∨
      Succeeds c lookup ∧ ∃ c', (∀ s : Setting, s.Becomes c lookup (s.of c')) ∧ c'.Working ∧
        c.withOverrides lookup = .ok c' := by
  rcases fails_or_succeeds c lookup with ⟨e, he⟩ | hs
  · exact Or.inl ⟨e, he, he.withOverrides_eq⟩
  · obtain ⟨c', hc', hok⟩ := hs.withOverrides_eq
    have hvalid : c'.validate = .ok c' := by rw [← withOverrides_taken hc', hok]
    exact Or.inr ⟨hs, c', hc', working_of_validate hvalid, hok⟩

/-- Settings are overridden one and all or not at all. They are when each value that the
environment has is a numeral for its setting and no setting comes to zero that must not, and each
is then the number that was given for it, or else the one that it had. Otherwise the first fault is
told, where values that are no numerals go before zeros. So no settings work with a zero, wherever
they come from. -/
theorem overrides_are_exact (c : Config) (lookup : String → Option String) :
    ((∃ c', c.withOverrides lookup = .ok c') ↔ Succeeds c lookup) ∧
      (∀ c', c.withOverrides lookup = .ok c' → ∀ s : Setting, s.Becomes c lookup (s.of c')) ∧
      (∀ e, c.withOverrides lookup = .error e ↔ Fails c lookup e) ∧
      (∀ c', c.withOverrides lookup = .ok c' → c'.Working) ∧
      (∀ text c', ofText text = .ok c' → c'.Working) ∧
      ∀ file path c', CommandLine.readConfigFile file path = .ok c' → c'.Working := by
  have hfile : ∀ file path c', CommandLine.readConfigFile file path = .ok c' → c'.Working := by
    intro file path c' h
    unfold CommandLine.readConfigFile at h
    split at h
    · cases h
    · exact working_of_text h
  rcases withOverrides_cases c lookup with ⟨e, he, herror⟩ | ⟨hs, c', hc', hworking, hok⟩
  · have hfails : ¬ Succeeds c lookup := fun hs => by
      obtain ⟨c', -, hok⟩ := hs.withOverrides_eq
      cases herror.symm.trans hok
    simp only [herror]
    refine ⟨⟨nofun, fun hs => absurd hs hfails⟩, nofun, fun e' => ⟨fun h => ?_, fun he' => ?_⟩,
      nofun, fun _ _ => working_of_text, hfile⟩
    · obtain rfl := Except.error.inj h
      exact he
    · exact herror.symm.trans he'.withOverrides_eq
  · have hnever (e : ConfigError) : ¬ Fails c lookup e := fun he => by
      cases hok.symm.trans he.withOverrides_eq
    simp only [hok]
    refine ⟨⟨fun _ => hs, fun _ => ⟨c', rfl⟩⟩, ?_, fun e => ⟨nofun, fun he => absurd he (hnever e)⟩,
      ?_, fun _ _ => working_of_text, hfile⟩
    · intro c'' h
      obtain rfl := Except.ok.inj h
      exact hc'
    · intro c'' h
      obtain rfl := Except.ok.inj h
      exact hworking

/-- A value that is no numeral is told of first, even behind a zero. -/
example : default.withOverrides
    (fun key => if key = "CONDUCTOR_TOOL_WORKERS" then some "0"
      else if key = "CONDUCTOR_MAX_TASK_ROUNDS" then some " lots " else none) =
    .error (.invalidValue "CONDUCTOR_MAX_TASK_ROUNDS" " lots ") := by
  decide +kernel

end Config

end AgentRun
