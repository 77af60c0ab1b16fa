import AgentRun.LogFilter
import AgentRun.Proofs.Names
import Mathlib.Data.List.Induction
import Mathlib.Data.List.Nodup

/-!
# What a directive tells of the modules

The levels of modules are read from texts such as `engine=debug`. Whatever the texts are, each
module stands once among the levels, where it was first named and with the level it was last given
(`LogFilter.names_setLevels`, `LogFilter.lookup_setLevels`), and its part of the directive reads
back as the module with its level (`LogFilter.parseModule?_modulePart`).

The parts of a directive stand between commas, and a name may itself hold commas. So a directive
tells the levels just when no name does (`LogFilter.told_iff`).
-/

namespace AgentRun

open Text (trim trimmed)

/-! ## Texts between commas -/

/-- The parts of a text between its commas. -/
def commaParts (s : String) : List String := (s.toList.splitOn ',').map String.ofList

theorem commaParts_of_notMem {s : String} (h : ',' ∉ s.toList) : commaParts s = [s] := by
  have hsingle : s.toList.splitOn ',' = [s.toList] :=
    List.splitOnP_eq_singleton fun c hc => beq_false_of_ne fun he => h (he ▸ hc)
  rw [commaParts, hsingle, List.map_singleton, String.ofList_toList]

theorem commaParts_append (s t : String) :
    commaParts (s ++ "," ++ t) = commaParts s ++ commaParts t := by
  have hsplit : (s.toList ++ ',' :: t.toList).splitOn ',' =
      s.toList.splitOn ',' ++ t.toList.splitOn ',' :=
    List.splitOnP_append_cons _ _ (beq_self_eq_true ',')
  have htext : (s ++ "," ++ t).toList = s.toList ++ ',' :: t.toList := by
    simp [String.toList_append]
  rw [commaParts, commaParts, commaParts, htext, hsplit, List.map_append]

/-- Texts that are joined by commas come apart there, and wherever else they hold one. -/
theorem commaParts_intercalate (s : String) (ts : List String) :
    commaParts (",".intercalate (s :: ts)) = (s :: ts).flatMap commaParts := by
  induction ts generalizing s with
  | nil => simp
  | cons t ts ih => rw [String.intercalate_cons_cons, commaParts_append, ih, ← List.flatMap_cons]

/-- There is no comma left in a part. -/
theorem comma_notMem {s part : String} (h : part ∈ commaParts s) : ',' ∉ part.toList := by
  have none {l cs : List Char} (hcs : cs ∈ l.splitOn ',') : ',' ∉ cs := by
    induction l generalizing cs with
    | nil =>
      rw [List.mem_singleton.mp hcs]
      exact List.not_mem_nil
    | cons c l ih =>
      rw [List.splitOn_eq_splitOnP, List.splitOnP_cons_eq_if_modifyHead] at hcs
      split at hcs
      · rcases List.mem_cons.mp hcs with rfl | hcs
        · exact List.not_mem_nil
        · exact ih hcs
      · rename_i hc
        -- The first part of the rest gets one more character, which is no comma.
        obtain ⟨ds, rest, hsplit⟩ := List.exists_cons_of_ne_nil (List.splitOnP_ne_nil (· == ',') l)
        have hrest : ∀ es ∈ ds :: rest, ',' ∉ es := fun es hes => ih (by
          rwa [List.splitOn_eq_splitOnP, hsplit])
        rw [hsplit, List.modifyHead_cons] at hcs
        rcases List.mem_cons.mp hcs with rfl | hcs
        · intro hin
          rcases List.mem_cons.mp hin with rfl | hin
          · exact hc (beq_self_eq_true ',')
          · exact hrest ds List.mem_cons_self hin
        · exact hrest cs (List.mem_cons_of_mem _ hcs)
  obtain ⟨cs, hcs, rfl⟩ := List.mem_map.mp h
  rw [String.toList_ofList]
  exact none hcs

namespace LogLevel

theorem asciiLower_label (l : LogLevel) : Text.asciiLower l.label = l.text := by
  cases l <;> decide +kernel

theorem parse?_text (l : LogLevel) : parse? (trim l.text) = some l := by
  cases l <;> decide +kernel

theorem comma_notMem_text (l : LogLevel) : ',' ∉ l.text.toList := by
  cases l <;> decide +kernel

end LogLevel

namespace LogFilter

variable {name text : String} {level : LogLevel} {m : String × LogLevel}
  {ms : List (String × LogLevel)} {f : LogFilter}

/-! ## One text -/

theorem splitAtEquals_eq_some {cs before behind : List Char} :
    splitAtEquals cs = some (before, behind) ↔ cs = before ++ '=' :: behind ∧ '=' ∉ before := by
  induction cs generalizing before with
  | nil => simp [splitAtEquals]
  | cons c cs ih =>
    by_cases hc : c = '='
    · subst hc
      rw [splitAtEquals]
      constructor
      · intro h
        obtain ⟨rfl, rfl⟩ := Prod.mk.inj (Option.some.inj h)
        exact ⟨rfl, List.not_mem_nil⟩
      · rintro ⟨hcs, hnot⟩
        cases before with
        | nil => rw [(List.cons.inj hcs).2]
        | cons d before => exact absurd ((List.cons.inj hcs).1 ▸ List.mem_cons_self) hnot
    · rw [splitAtEquals.eq_3 c cs (fun he => hc he), Option.map_eq_some_iff]
      constructor
      · rintro ⟨⟨before', behind'⟩, hsplit, heq⟩
        obtain ⟨rfl, rfl⟩ := Prod.mk.inj heq
        obtain ⟨rfl, hnot⟩ := ih.mp hsplit
        exact ⟨rfl, fun hin => (List.mem_cons.mp hin).elim (fun he => hc he.symm) hnot⟩
      · rintro ⟨hcs, hnot⟩
        cases before with
        | nil => exact absurd (List.cons.inj hcs).1 hc
        | cons d before =>
          obtain ⟨rfl, rfl⟩ := List.cons.inj hcs
          exact ⟨(before, behind), ih.mpr ⟨rfl, fun hin => hnot (List.mem_cons_of_mem _ hin)⟩, rfl⟩

/-- A text names a module in front of its first `=`, and the level behind it. -/
theorem parseModule?_eq_some : parseModule? text = some m ↔ ∃ before behind,
    text.toList = before ++ '=' :: behind ∧ '=' ∉ before ∧
      trim (String.ofList before) = m.1 ∧ m.1 ≠ "" ∧
      LogLevel.parse? (trim (String.ofList behind)) = some m.2 := by
  unfold parseModule?
  simp only [Option.bind_eq_bind, Option.bind_eq_some_iff, Prod.exists, splitAtEquals_eq_some]
  constructor
  · rintro ⟨before, behind, ⟨htext, hplain⟩, h⟩
    split at h
    · cases h
    · rename_i hname
      obtain ⟨level, hlevel, hm⟩ := Option.bind_eq_some_iff.mp h
      obtain rfl := Option.some.inj hm
      exact ⟨before, behind, htext, hplain, rfl, hname, hlevel⟩
  · rintro ⟨before, behind, htext, hplain, hname, hne, hlevel⟩
    refine ⟨before, behind, ⟨htext, hplain⟩, ?_⟩
    rw [hname, if_neg hne, hlevel]
    rfl

/-- A name that a text can give a module. -/
structure IsName (name : String) : Prop where
  /-- There are no blanks around it. -/
  trimmed : trim name = name
  nonempty : name ≠ ""
  plain : '=' ∉ name.toList

/-- The name that a text gives a module stands in the text. -/
theorem mem_of_parseModule? (h : parseModule? text = some m) {c : Char} (hc : c ∈ m.1.toList) :
    c ∈ text.toList := by
  obtain ⟨before, behind, htext, -, hname, -⟩ := parseModule?_eq_some.mp h
  obtain ⟨front, back, hbefore, -⟩ := Text.eq_trimmed before
  rw [← hname, trim, String.toList_ofList, String.toList_ofList] at hc
  rw [htext, hbefore]
  simp [hc]

theorem isName_of_parseModule? (h : parseModule? text = some m) : IsName m.1 := by
  obtain ⟨before, behind, -, hplain, hname, hne, -⟩ := parseModule?_eq_some.mp h
  have hchars : m.1.toList = trimmed before := by
    rw [← hname, trim, String.toList_ofList, String.toList_ofList]
  refine ⟨?_, hne, ?_⟩
  · rw [trim, hchars, Text.trimmed_trimmed, ← hchars, String.ofList_toList]
  · intro hin
    obtain ⟨front, back, hbefore, -⟩ := Text.eq_trimmed before
    rw [hchars] at hin
    refine hplain (hbefore ▸ ?_)
    simp [hin]

/-- The part of a module reads back as the module. -/
theorem parseModule?_modulePart (h : IsName m.1) : parseModule? (modulePart m) = some m := by
  refine parseModule?_eq_some.mpr ⟨m.1.toList, m.2.text.toList, ?_, h.plain, ?_, h.nonempty, ?_⟩
  · simp [modulePart, String.toList_append]
  · rw [String.ofList_toList, h.trimmed]
  · rw [String.ofList_toList, LogLevel.parse?_text]

/-! ## Many texts -/

/-- The filter with the levels of modules that texts give, as far as they can be read. -/
def ofTexts (level : LogLevel) (json : Bool) (texts : List String) : LogFilter :=
  (texts.filterMap parseModule?).foldl (fun f m => f.withModule m.1 m.2) ⟨level, [], json⟩

theorem names_setLevel : (setLevel name level ms).map Prod.fst =
    if name ∈ ms.map Prod.fst then ms.map Prod.fst else ms.map Prod.fst ++ [name] := by
  induction ms with
  | nil => simp [setLevel]
  | cons m ms ih =>
    obtain ⟨n, l⟩ := m
    rw [setLevel]
    by_cases hn : n = name
    · simp [hn]
    · rw [if_neg hn, List.map_cons, ih]
      by_cases hin : name ∈ ms.map Prod.fst
      · simp [hin]
      · simp [hin, Ne.symm hn]

theorem lookup_setLevel (n : String) : (setLevel name level ms).lookup n =
    if n = name then some level else ms.lookup n := by
  induction ms with
  | nil =>
    by_cases hn : n = name
    · simp [setLevel, hn]
    · simp [setLevel, List.lookup_cons, hn, beq_false_of_ne hn]
  | cons m ms ih =>
    obtain ⟨n', l⟩ := m
    rw [setLevel]
    by_cases hn' : n' = name
    · subst hn'
      by_cases hn : n = n'
      · simp [hn]
      · simp [List.lookup_cons, hn, beq_false_of_ne hn]
    · rw [if_neg hn', List.lookup_cons, List.lookup_cons, ih]
      by_cases hn : n = name
      · subst hn
        simp [beq_false_of_ne (Ne.symm hn')]
      · simp [hn]

theorem mem_setLevel (h : m ∈ setLevel name level ms) : m = (name, level) ∨ m ∈ ms := by
  induction ms with
  | nil => exact Or.inl (List.mem_singleton.mp h)
  | cons m' ms ih =>
    obtain ⟨n, l⟩ := m'
    rw [setLevel] at h
    split at h
    · rename_i hn
      rcases List.mem_cons.mp h with rfl | h
      · exact Or.inl (hn ▸ rfl)
      · exact Or.inr (List.mem_cons_of_mem _ h)
    · rcases List.mem_cons.mp h with rfl | h
      · exact Or.inr List.mem_cons_self
      · exact (ih h).imp_right (List.mem_cons_of_mem _)

/-- The levels of modules that are given a level one after another. -/
def setLevels (given : List (String × LogLevel)) : List (String × LogLevel) :=
  given.foldl (fun ms m => setLevel m.1 m.2 ms) []

variable {given : List (String × LogLevel)}

theorem setLevels_snoc : setLevels (given ++ [m]) = setLevel m.1 m.2 (setLevels given) := by
  rw [setLevels, List.foldl_append]
  rfl

/-- The modules stand in the order in which they were first named. -/
theorem names_setLevels (given : List (String × LogLevel)) :
    (setLevels given).map Prod.fst = (given.map Prod.fst).eraseDups := by
  induction given using List.reverseRecOn with
  | nil => rfl
  | append_singleton given m ih =>
    rw [setLevels_snoc, names_setLevel, List.map_append, List.map_singleton,
      List.eraseDups_append, ih]
    by_cases hin : m.1 ∈ given.map Prod.fst
    · rw [if_pos (List.mem_eraseDups.mpr hin)]
      have hnone : [m.1].removeAll (given.map Prod.fst) = [] := by simpa [List.removeAll] using hin
      rw [hnone, List.eraseDups_nil, List.append_nil]
    · rw [if_neg (fun h => hin (List.mem_eraseDups.mp h))]
      have hnew : [m.1].removeAll (given.map Prod.fst) = [m.1] := by
        simpa [List.removeAll] using hin
      rw [hnew]
      rfl

theorem nodup_setLevels (given : List (String × LogLevel)) :
    ((setLevels given).map Prod.fst).Nodup := by
  induction given using List.reverseRecOn with
  | nil => exact List.nodup_nil
  | append_singleton given m ih =>
    rw [setLevels_snoc, names_setLevel]
    split
    · exact ih
    · rename_i hnew
      rw [← List.concat_eq_append]
      exact ih.concat hnew

/-- A module has the level that it was last given. -/
theorem lookup_setLevels (given : List (String × LogLevel)) (name : String) :
    (setLevels given).lookup name = given.reverse.lookup name := by
  induction given using List.reverseRecOn with
  | nil => rfl
  | append_singleton given m ih =>
    rw [setLevels_snoc, lookup_setLevel, List.reverse_append, List.reverse_singleton,
      List.singleton_append, List.lookup_cons, ih]
    by_cases hname : name = m.1
    · simp [hname]
    · simp [hname, beq_false_of_ne hname]

theorem mem_setLevels (h : m ∈ setLevels given) : m ∈ given := by
  induction given using List.reverseRecOn with
  | nil => exact h
  | append_singleton given m' ih =>
    rw [setLevels_snoc] at h
    rcases mem_setLevel h with rfl | h
    · exact List.mem_append_right _ List.mem_cons_self
    · exact List.mem_append_left _ (ih h)

/-- Only the modules of a filter change, one text after another. -/
theorem ofTexts_eq (level : LogLevel) (json : Bool) (texts : List String) :
    ofTexts level json texts = ⟨level, setLevels (texts.filterMap parseModule?), json⟩ := by
  unfold ofTexts
  generalize texts.filterMap parseModule? = given
  induction given using List.reverseRecOn with
  | nil => rfl
  | append_singleton given m ih =>
    rw [List.foldl_append, ih, setLevels_snoc]
    rfl

theorem isName_ofTexts {json : Bool} {texts : List String}
    (hm : m ∈ (ofTexts level json texts).modules) : IsName m.1 := by
  rw [ofTexts_eq] at hm
  obtain ⟨text, -, htext⟩ := List.mem_filterMap.mp (mem_setLevels hm)
  exact isName_of_parseModule? htext

/-! ## The directive -/

/-- The parts of a directive are its level and, module by module, the parts of its modules. -/
theorem commaParts_directive (f : LogFilter) : commaParts f.directive =
    f.level.text :: f.modules.flatMap fun m => commaParts (modulePart m) := by
  rw [directive, commaParts_intercalate, List.flatMap_cons,
    commaParts_of_notMem f.level.comma_notMem_text, List.flatMap_map]
  rfl

theorem commaParts_modulePart (h : ',' ∉ m.1.toList) :
    commaParts (modulePart m) = [modulePart m] := by
  refine commaParts_of_notMem ?_
  have hlevel := m.2.comma_notMem_text
  simp [modulePart, String.toList_append, h, hlevel]

/-- The directive of a filter tells its levels: the first part between commas is the level for
everything, in lower case, and the others read back as the modules with their levels. -/
def Told (f : LogFilter) : Prop := ∃ parts,
  commaParts f.directive = Text.asciiLower f.level.label :: parts ∧
    parts.map parseModule? = f.modules.map some

theorem told_iff (hnames : ∀ m ∈ f.modules, IsName m.1) :
    f.Told ↔ ∀ m ∈ f.modules, ',' ∉ m.1.toList := by
  constructor
  · rintro ⟨parts, hparts, hread⟩ m hm
    -- A part has no comma, and so the name that it gives has none.
    obtain ⟨part, hpart, hm'⟩ := List.mem_map.mp (hread ▸ List.mem_map_of_mem hm)
    have hnone : ',' ∉ part.toList :=
      comma_notMem (hparts ▸ List.mem_cons_of_mem _ hpart : part ∈ commaParts f.directive)
    exact fun hin => hnone (mem_of_parseModule? hm' hin)
  · intro hnone
    refine ⟨f.modules.map modulePart, ?_, ?_⟩
    · have hparts : f.modules.flatMap (fun m => commaParts (modulePart m)) =
          f.modules.flatMap fun m => [modulePart m] :=
        List.flatMap_congr fun m hm => commaParts_modulePart (hnone m hm)
      rw [commaParts_directive, LogLevel.asciiLower_label, hparts, List.map_eq_flatMap]
    · rw [List.map_map]
      exact List.map_congr_left fun m hm => parseModule?_modulePart (hnames m hm)

/-- Whatever the texts are, the modules are those that they name, each once and where it was first
named, with the level that it was last given. The part of each reads back, and the directive tells
them all unless there is a comma in a name. -/
theorem modules_are_told (level : LogLevel) (json : Bool) (texts : List String) :
    let given := texts.filterMap parseModule?
    let f := ofTexts level json texts
    f.level = level ∧ f.json = json ∧
      (f.modules.map Prod.fst).Nodup ∧
      f.modules.map Prod.fst = (given.map Prod.fst).eraseDups ∧
      (∀ name, f.modules.lookup name = given.reverse.lookup name) ∧
      (∀ m ∈ f.modules, parseModule? (modulePart m) = some m) ∧
      commaParts f.directive = Text.asciiLower level.label ::
        f.modules.flatMap (fun m => commaParts (modulePart m)) ∧
      (f.Told ↔ ∀ m ∈ f.modules, ',' ∉ m.1.toList) := by
  intro given f
  have hnames : ∀ m ∈ f.modules, IsName m.1 := fun m hm => isName_ofTexts hm
  have hf : f = ⟨level, setLevels given, json⟩ := ofTexts_eq level json texts
  refine ⟨hf ▸ rfl, hf ▸ rfl, hf ▸ nodup_setLevels given, hf ▸ names_setLevels given,
    hf ▸ lookup_setLevels given, fun m hm => parseModule?_modulePart (hnames m hm), ?_,
    told_iff hnames⟩
  rw [commaParts_directive, LogLevel.asciiLower_label, hf]

/-- A module whose name holds a comma comes apart in the directive. -/
theorem comma_divides_module :
    parseModule? "a,b=debug" = some ("a,b", .debug) ∧
      (ofTexts .info false ["a,b=debug"]).directive = "info,a,b=debug" ∧
      commaParts "info,a,b=debug" = ["info", "a", "b=debug"] ∧
      ¬ (ofTexts .info false ["a,b=debug"]).Told := by
  have hread : parseModule? "a,b=debug" = some ("a,b", .debug) := by decide +kernel
  have hmodules : (ofTexts .info false ["a,b=debug"]).modules = [("a,b", .debug)] := by
    decide +kernel
  refine ⟨hread, by decide +kernel, by decide +kernel, ?_⟩
  rw [told_iff fun m hm => isName_ofTexts hm, hmodules]
  decide +kernel

end LogFilter

end AgentRun
