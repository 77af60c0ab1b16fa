import AgentRun.Proofs.TemplateText
import Mathlib.Data.List.Induction

/-!
# What arguments resolve to

The values that templates stand for, told by the texts and the records alone (`Resolves`): a string
that is a template as a whole becomes the field of the latest record of its source that has it, or
the shifted date, and everything else stays. `resolve` gives just that.
-/

namespace AgentRun

open Template (Written sourceKey)

/-- The result of a record is an object with a field. -/
def ToolRecord.Has (r : ToolRecord) (field : String) (value : Json) : Prop :=
  ∃ fields, r.result = .obj fields ∧ fields.lookup field = some value

/-- The field of the latest record of a source that has it. -/
def Latest (records : List ToolRecord) (key : List Char) (field : String) (value : Json) : Prop :=
  ∃ earlier r later, records = earlier ++ r :: later ∧ sourceKey r.toolName.toList = key ∧
    r.Has field value ∧ ∀ r' ∈ later, sourceKey r'.toolName.toList = key → ∀ v, ¬ r'.Has field v

/-- A text that starts with a date: a date alone, or a timestamp. -/
inductive Dated (cs : List Char) : Date → List Char → Prop
  | date {d : Date} (alone : Date.ofChars? cs = some d) : Dated cs d []
  | timestamp {d : Date} {rest : List Char} (no_date : Date.ofChars? cs = none)
      (parts : Timestamp.split? cs = some (d, rest)) : Dated cs d rest

/-- The text of the date that is a number of days away from that of a value, with the rest of the
value behind it. -/
def ShiftsTo (value : Json) (back : Bool) (digits : List Char) (text : String) : Prop :=
  ∃ s n d rest e, value = .str s ∧
    Text.unsignedBelow Text.word64 (String.ofList digits) = some n ∧
    Dated (Text.trimmed s.toList) d rest ∧ Date.shift? d n back = some e ∧
    text = e.text ++ String.ofList rest

/-- What a string stands for. -/
inductive TextResolves (records : List ToolRecord) (s : String) : Json → Prop
  | value {source field : List Char} {v : Json} (written : Written source field none s.toList)
      (latest : Latest records (sourceKey source) (String.ofList field) v) :
      TextResolves records s v
  | shifted {source field digits : List Char} {back : Bool} {v : Json} {text : String}
      (written : Written source field (some (back, digits)) s.toList)
      (latest : Latest records (sourceKey source) (String.ofList field) v)
      (shifts : ShiftsTo v back digits text) : TextResolves records s (.str text)
  | unshifted {source field digits : List Char} {back : Bool} {v : Json}
      (written : Written source field (some (back, digits)) s.toList)
      (latest : Latest records (sourceKey source) (String.ofList field) v)
      (stays : ∀ text, ¬ ShiftsTo v back digits text) : TextResolves records s .null
  | unknown {source field : List Char} {shift : Option (Bool × List Char)}
      (written : Written source field shift s.toList)
      (missing : ∀ v, ¬ Latest records (sourceKey source) (String.ofList field) v) :
      TextResolves records s (.str s)
  | plain (text : ∀ source field shift, ¬ Written source field shift s.toList) :
      TextResolves records s (.str s)

mutual

/-- What arguments resolve to. -/
inductive Resolves (records : List ToolRecord) : Json → Json → Prop
  | null : Resolves records .null .null
  | bool (b : Bool) : Resolves records (.bool b) (.bool b)
  | num (n : Number) : Resolves records (.num n) (.num n)
  | str {s : String} {out : Json} (text : TextResolves records s out) :
      Resolves records (.str s) out
  | arr {items out : List Json} (each : ItemsResolve records items out) :
      Resolves records (.arr items) (.arr out)
  | obj {fields out : List (String × Json)} (each : FieldsResolve records fields out) :
      Resolves records (.obj fields) (.obj out)

/-- The items of an array resolve one by one. -/
inductive ItemsResolve (records : List ToolRecord) : List Json → List Json → Prop
  | nil : ItemsResolve records [] []
  | cons {x out : Json} {rest outs : List Json} (first : Resolves records x out)
      (more : ItemsResolve records rest outs) : ItemsResolve records (x :: rest) (out :: outs)

/-- The values of an object resolve one by one, under the same keys. -/
inductive FieldsResolve (records : List ToolRecord) :
    List (String × Json) → List (String × Json) → Prop
  | nil : FieldsResolve records [] []
  | cons {k : String} {v out : Json} {rest outs : List (String × Json)}
      (first : Resolves records v out) (more : FieldsResolve records rest outs) :
      FieldsResolve records ((k, v) :: rest) ((k, out) :: outs)

end

variable {records : List ToolRecord}

/-! ## The latest record -/

theorem has_iff_get? {r : ToolRecord} {field : String} {value : Json} :
    r.Has field value ↔ r.result.get? field = some value := by
  unfold ToolRecord.Has
  constructor
  · rintro ⟨fields, hresult, hvalue⟩
    rw [hresult]
    exact hvalue
  · intro h
    cases hresult : r.result with
    | obj fields =>
      rw [hresult] at h
      exact ⟨fields, rfl, h⟩
    | null | bool _ | num _ | str _ | arr _ =>
      rw [hresult] at h
      cases h

theorem Template.lookup?_snoc (t : Template) (records : List ToolRecord) (r : ToolRecord) :
    t.lookup? (records ++ [r]) =
      if sourceKey r.toolName.toList = sourceKey t.source
      then (r.result.get? t.field).or (t.lookup? records) else t.lookup? records := by
  unfold Template.lookup?
  rw [List.reverse_append, List.reverse_singleton, List.singleton_append]
  by_cases hsame : sourceKey r.toolName.toList = sourceKey t.source
  · rw [if_pos hsame, List.filter_cons_of_pos (by simpa using hsame), List.findSome?_cons]
    cases r.result.get? t.field <;> rfl
  · rw [if_neg hsame, List.filter_cons_of_neg (by simpa using hsame)]

theorem latest_of_lookup? {t : Template} {value : Json} (h : t.lookup? records = some value) :
    Latest records (sourceKey t.source) t.field value := by
  induction records using List.reverseRecOn with
  | nil => cases h
  | append_singleton records r ih =>
    rw [Template.lookup?_snoc] at h
    -- Where the last record does not give the value, it is one more of the later ones without it.
    have older
        (hr : sourceKey r.toolName.toList = sourceKey t.source → r.result.get? t.field = none)
        (h : t.lookup? records = some value) :
        Latest (records ++ [r]) (sourceKey t.source) t.field value := by
      obtain ⟨earlier, r₀, later, rfl, hsource, hhas, hlater⟩ := ih h
      refine ⟨earlier, r₀, later ++ [r], by simp, hsource, hhas, fun r' hr' hsame v hv => ?_⟩
      rcases List.mem_append.mp hr' with hr' | hr'
      · exact hlater r' hr' hsame v hv
      · obtain rfl := List.mem_singleton.mp hr'
        rw [has_iff_get?, hr hsame] at hv
        cases hv
    by_cases hsame : sourceKey r.toolName.toList = sourceKey t.source
    · rw [if_pos hsame] at h
      cases hget : r.result.get? t.field with
      | none =>
        rw [hget, Option.none_or] at h
        exact older (fun _ => hget) h
      | some v =>
        rw [hget, Option.some_or] at h
        obtain rfl := Option.some.inj h
        exact ⟨records, r, [], rfl, hsame, has_iff_get?.mpr hget, nofun⟩
    · rw [if_neg hsame] at h
      exact older (fun hs => absurd hs hsame) h

theorem lookup?_of_latest {t : Template} {value : Json}
    (h : Latest records (sourceKey t.source) t.field value) : t.lookup? records = some value := by
  obtain ⟨earlier, r, later, rfl, hsource, hhas, hlater⟩ := h
  refine Template.lookup?_eq hsource (has_iff_get?.mp hhas) fun r' hr' hsame => ?_
  cases hget : r'.result.get? t.field with
  | none => rfl
  | some v => exact absurd (has_iff_get?.mpr hget) (hlater r' hr' hsame v)

theorem lookup?_eq_none {t : Template} :
    t.lookup? records = none ↔ ∀ v, ¬ Latest records (sourceKey t.source) t.field v := by
  constructor
  · intro h v hv
    rw [lookup?_of_latest hv] at h
    cases h
  · intro h
    cases hlookup : t.lookup? records with
    | none => rfl
    | some v => exact absurd (latest_of_lookup? hlookup) (h v)

/-! ## Shifted dates -/

theorem shiftedText?_eq_some {s text : String} {n : Nat} {back : Bool} :
    shiftedText? s n back = some text ↔ ∃ d rest e, Dated (Text.trimmed s.toList) d rest ∧
      Date.shift? d n back = some e ∧ text = e.text ++ String.ofList rest := by
  unfold shiftedText?
  dsimp only
  cases hdate : Date.ofChars? (Text.trimmed s.toList) with
  | some d =>
    dsimp only
    constructor
    · intro h
      obtain ⟨e, he, rfl⟩ := Option.map_eq_some_iff.mp h
      exact ⟨d, [], e, .date hdate, he, by simp⟩
    · rintro ⟨d', rest, e, hdated, he, rfl⟩
      cases hdated with
      | date alone =>
        obtain rfl := Option.some.inj (hdate.symm.trans alone)
        rw [he]
        simp
      | timestamp no_date parts =>
        rw [hdate] at no_date
        cases no_date
  | none =>
    dsimp only
    constructor
    · intro h
      obtain ⟨⟨d, rest⟩, hsplit, h⟩ := Option.bind_eq_some_iff.mp h
      obtain ⟨e, he, rfl⟩ := Option.map_eq_some_iff.mp h
      exact ⟨d, rest, e, .timestamp hdate hsplit, he, rfl⟩
    · rintro ⟨d', rest, e, hdated, he, rfl⟩
      cases hdated with
      | date alone =>
        rw [hdate] at alone
        cases alone
      | timestamp no_date parts =>
        rw [parts, Option.bind_some]
        exact Option.map_eq_some_iff.mpr ⟨e, he, rfl⟩

theorem shifted_of_shiftsTo {value : Json} {back : Bool} {digits : List Char} {text : String}
    (h : ShiftsTo value back digits text) : shifted value back digits = .str text := by
  obtain ⟨s, n, d, rest, e, rfl, hn, hdated, he, htext⟩ := h
  have hshift := shiftedText?_eq_some.mpr ⟨d, rest, e, hdated, he, htext⟩
  unfold shifted
  rw [hn]
  dsimp only
  rw [hshift]
  rfl

theorem shifted_cases (value : Json) (back : Bool) (digits : List Char) :
    (∃ text, ShiftsTo value back digits text ∧ shifted value back digits = .str text) ∨
      (∀ text, ¬ ShiftsTo value back digits text) ∧ shifted value back digits = .null := by
  by_cases h : ∃ text, ShiftsTo value back digits text
  · obtain ⟨text, htext⟩ := h
    exact Or.inl ⟨text, htext, shifted_of_shiftsTo htext⟩
  · have hnone : ∀ text, ¬ ShiftsTo value back digits text := fun text htext => h ⟨text, htext⟩
    refine Or.inr ⟨hnone, ?_⟩
    unfold shifted
    split
    · rename_i s n hn
      cases hshift : shiftedText? s n back with
      | none => rfl
      | some text =>
        obtain ⟨d, rest, e, hdated, he, htext⟩ := shiftedText?_eq_some.mp hshift
        exact absurd ⟨s, n, d, rest, e, rfl, hn, hdated, he, htext⟩ (hnone text)
    · rfl

/-! ## Strings -/

theorem resolveText_resolves (records : List ToolRecord) (s : String) :
    TextResolves records s (resolveText records s) := by
  unfold resolveText
  cases hread : Template.ofChars? s.toList with
  | none =>
    refine .plain fun source field shift hwritten => ?_
    obtain ⟨t, ht, -⟩ := Template.ofChars?_of_written hwritten
    rw [hread] at ht
    cases ht
  | some t =>
    have hwritten := Template.written_of_ofChars? hread
    have hfield : String.ofList t.field.toList = t.field := String.ofList_toList
    dsimp only
    cases hlookup : t.lookup? records with
    | none =>
      refine .unknown hwritten ?_
      rw [hfield]
      exact lookup?_eq_none.mp hlookup
    | some v =>
      have hlatest : Latest records (sourceKey t.source) (String.ofList t.field.toList) v := by
        rw [hfield]
        exact latest_of_lookup? hlookup
      dsimp only
      cases hshift : t.shift with
      | none =>
        rw [hshift] at hwritten
        exact .value hwritten hlatest
      | some shift =>
        obtain ⟨back, digits⟩ := shift
        rw [hshift] at hwritten
        dsimp only
        rcases shifted_cases v back digits with ⟨text, hshifts, heq⟩ | ⟨hstays, heq⟩
        · rw [heq]
          exact .shifted hwritten hlatest hshifts
        · rw [heq]
          exact .unshifted hwritten hlatest hstays

/-- What is written is read, up to the blanks around the source. -/
theorem resolveText_of_written (records : List ToolRecord) {source field : List Char}
    {shift : Option (Bool × List Char)} {s : String}
    (h : Written source field shift s.toList) :
    ∃ t : Template, Template.ofChars? s.toList = some t ∧ t.shift = shift ∧
      ∀ v, Latest records (sourceKey source) (String.ofList field) v ↔
        t.lookup? records = some v := by
  obtain ⟨t, ht, hsource, rfl, hshift⟩ := Template.ofChars?_of_written h
  refine ⟨t, ht, hshift, fun v => ?_⟩
  rw [← hsource, String.ofList_toList]
  exact ⟨lookup?_of_latest, latest_of_lookup?⟩

theorem TextResolves.eq {s : String} {out : Json} (h : TextResolves records s out) :
    resolveText records s = out := by
  cases h with
  | value written latest =>
    obtain ⟨t, ht, hshift, hlookup⟩ := resolveText_of_written records written
    simp only [resolveText, ht, (hlookup _).mp latest, hshift]
  | shifted written latest shifts =>
    obtain ⟨t, ht, hshift, hlookup⟩ := resolveText_of_written records written
    simp only [resolveText, ht, (hlookup _).mp latest, hshift, shifted_of_shiftsTo shifts]
  | @unshifted source field digits back v written latest stays =>
    obtain ⟨t, ht, hshift, hlookup⟩ := resolveText_of_written records written
    simp only [resolveText, ht, (hlookup _).mp latest, hshift]
    rcases shifted_cases v back digits with ⟨text, hshifts, -⟩ | ⟨-, heq⟩
    · exact absurd hshifts (stays text)
    · exact heq
  | unknown written missing =>
    obtain ⟨t, ht, hshift, hlookup⟩ := resolveText_of_written records written
    have hnone : t.lookup? records = none := by
      cases hv : t.lookup? records with
      | none => rfl
      | some v => exact absurd ((hlookup v).mpr hv) (missing v)
    simp only [resolveText, ht, hnone]
  | plain text =>
    cases hread : Template.ofChars? s.toList with
    | none => simp only [resolveText, hread]
    | some t => exact absurd (Template.written_of_ofChars? hread) (text _ _ _)

/-! ## Values -/

mutual

theorem resolve_resolves (records : List ToolRecord) :
    ∀ j, Resolves records j (resolve records j)
  | .null => .null
  | .bool b => .bool b
  | .num n => .num n
  | .str s => .str (resolveText_resolves records s)
  | .arr items => .arr (resolveItems_resolve records items)
  | .obj fields => .obj (resolveFields_resolve records fields)

theorem resolveItems_resolve (records : List ToolRecord) :
    ∀ items, ItemsResolve records items (resolveItems records items)
  | [] => .nil
  | x :: rest => .cons (resolve_resolves records x) (resolveItems_resolve records rest)

theorem resolveFields_resolve (records : List ToolRecord) :
    ∀ fields, FieldsResolve records fields (resolveFields records fields)
  | [] => .nil
  | (_, v) :: rest => .cons (resolve_resolves records v) (resolveFields_resolve records rest)

end

mutual

theorem Resolves.eq {j out : Json} : Resolves records j out → resolve records j = out
  | .null => rfl
  | .bool _ => rfl
  | .num _ => rfl
  | .str text => text.eq
  | .arr each => congrArg Json.arr each.eq
  | .obj each => congrArg Json.obj each.eq

theorem ItemsResolve.eq {items out : List Json} :
    ItemsResolve records items out → resolveItems records items = out
  | .nil => rfl
  | .cons first more => congrArg₂ List.cons first.eq more.eq

theorem FieldsResolve.eq {fields out : List (String × Json)} :
    FieldsResolve records fields out → resolveFields records fields = out
  | .nil => rfl
  | .cons first more => congrArg₂ List.cons (congrArg (Prod.mk _) first.eq) more.eq

end

-- The later record is passed over, as it has no such field. The value that is put in is a template
-- itself and stays.
example :
    resolve [⟨"c1", "Weather", .null, .obj [("city", .str "\x7b\x7bb.v\x7d\x7d")]⟩,
        ⟨"c2", "weather", .null, .obj [("temp", .null)]⟩]
      (.arr [.str " \x7b\x7b wea ther . city\x7d\x7d", .str "in \x7b\x7bweather.city\x7d\x7d"]) =
      .arr [.str "\x7b\x7bb.v\x7d\x7d", .str "in \x7b\x7bweather.city\x7d\x7d"] := by
  decide +kernel

end AgentRun
