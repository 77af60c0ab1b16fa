import AgentRun.Json.Record
import AgentRun.Proofs.CanonicalForm

/-!
# Reading back what was written

The lemmas that take a written record apart again. A record is written as an object whose keys are
some of the names its reader knows, in their order (`Json.record?_obj`); each part is then found
under its name, and `Record.required_of`, `Record.optional_of` and `Record.orElse_of` say what has
to be known about the part alone. `Record.maybe` and `Record.unlessEmpty` leave parts out, so what
`lookup` gives for a part that is not there has to be read as the value that was left out: absent,
or the empty list.
-/

namespace AgentRun

namespace Json

/-! ## Atoms and lists -/

theorem natBelow?_nat {n bound : Nat} (hn : n < bound) : (Json.nat n).natBelow? bound = some n := by
  have hrange : (0 : Int) ≤ n ∧ (n : Int) < bound := by omega
  simp [Json.nat, natBelow?, hrange]

theorem word32?_nat {n : Nat} (hn : n < Text.word32) : (Json.nat n).word32? = some n :=
  natBelow?_nat hn

theorem word64?_nat {n : Nat} (hn : n < Text.word64) : (Json.nat n).word64? = some n :=
  natBelow?_nat hn

theorem free?_of_isCanonical {j : Json} (hj : j.IsCanonical) : j.free? = some j := by
  rw [free?, hj.canonical_eq]

theorem list?_list {α : Type} {read : Json → Option α} {write : α → Json} {items : List α}
    (hitems : ∀ a ∈ items, read (write a) = some a) :
    (Json.list write items).list? read = some items := by
  show (items.map write).mapM read = some items
  induction items with
  | nil => rfl
  | cons a rest ih =>
    have ha : read (write a) = some a := hitems a List.mem_cons_self
    have hrest : (rest.map write).mapM read = some rest :=
      ih fun b hb => hitems b (List.mem_cons_of_mem a hb)
    simp [ha, hrest]

theorem list?_texts (texts : List String) : (Json.list .str texts).list? Json.str? = some texts :=
  list?_list fun _ _ => rfl

/-! ## The shape of a record -/

/-- Fields with known keys, in the order of the names, are all taken and none is refused. -/
theorem record?_obj {names : List String} {r : Record} (hnames : names.Nodup)
    (hkeys : (r.map Prod.fst).Sublist names) : (Json.obj r).record? names = some r := by
  have hknown : r.filter (fun f => names.contains f.1) = r := by
    refine List.filter_eq_self.2 ?_
    intro f hf
    have hmem : f.1 ∈ names := hkeys.subset (List.mem_map_of_mem hf)
    simpa using hmem
  have honce : (r.map Prod.fst).Nodup := hnames.sublist hkeys
  simp only [record?, hknown]
  exact if_pos honce

/-- The tag in front of the fields is found and taken off. -/
theorem tagged?_obj {tag value : String} {r : Record} (htag : tag ∉ r.map Prod.fst) :
    (Json.obj ((tag, .str value) :: r)).tagged? tag = some (value, .obj r) := by
  have hother : ∀ f ∈ r, f.1 ≠ tag := by
    intro f hf heq
    exact htag (heq ▸ List.mem_map_of_mem hf)
  have hnone : r.filter (fun f => f.1 == tag) = [] := by simpa using hother
  have hall : r.filter (fun f => f.1 != tag) = r := by simpa using hother
  simp [tagged?, hnone, hall]

end Json

namespace Record

variable {α : Type} {name key : String} {write : α → Json} {read : Json → Option α}

/-! ## Parts that may be left out -/

theorem keys_maybe (part : Option α) :
    ((maybe name write part).map Prod.fst).Sublist [name] := by
  cases part with
  | none => exact List.nil_sublist _
  | some a => exact List.Sublist.refl _

theorem keys_unlessEmpty (items : List α) :
    ((unlessEmpty name write items).map Prod.fst).Sublist [name] := by
  cases items with
  | nil => exact List.nil_sublist _
  | cons a rest => exact List.Sublist.refl _

theorem keys_append {r r' : Record} {names names' : List String}
    (hr : (r.map Prod.fst).Sublist names) (hr' : (r'.map Prod.fst).Sublist names') :
    ((r ++ r').map Prod.fst).Sublist (names ++ names') := by
  rw [List.map_append]
  exact hr.append hr'

@[simp] theorem lookup_maybe (part : Option α) :
    (maybe name write part).lookup key = if key = name then part.map write else none := by
  cases part with
  | none => simp [maybe]
  | some a =>
    by_cases hkey : key = name
    · simp [maybe, hkey]
    · have hne : (key == name) = false := by simpa using hkey
      simp [maybe, List.lookup_cons, hkey, hne]

@[simp] theorem lookup_unlessEmpty (items : List α) :
    (unlessEmpty name write items).lookup key
      = if key = name ∧ items ≠ [] then some (Json.list write items) else none := by
  cases items with
  | nil => simp [unlessEmpty]
  | cons a rest =>
    by_cases hkey : key = name
    · simp [unlessEmpty, hkey]
    · have hne : (key == name) = false := by simpa using hkey
      simp [unlessEmpty, List.lookup_cons, hkey, hne]

/-! ## Reading one part -/

theorem required_of {r : Record} {j : Json} {a : α} (hpart : r.lookup name = some j)
    (hread : read j = some a) : r.required name read = some a := by
  simp [required, hpart, hread]

theorem orElse_of {r : Record} {j : Json} {a default : α} (hpart : r.lookup name = some j)
    (hread : read j = some a) : r.orElse name default read = some a := by
  simp [orElse, hpart, hread]

/-- A part that may be absent comes back if it is not written as `null`, which is read as its
absence. -/
theorem optional_of (write : α → Json) {r : Record} {part : Option α}
    (hpart : r.lookup name = part.map write) (hnull : ∀ a, write a ≠ .null)
    (hread : ∀ a ∈ part, read (write a) = some a) : r.optional name read = some part := by
  cases part with
  | none => simp [optional, hpart]
  | some a =>
    have ha : read (write a) = some a := hread a rfl
    have hwritten : r.lookup name = some (write a) := hpart
    cases hj : write a with
    | null => exact absurd hj (hnull a)
    | _ =>
      rw [hj] at hwritten ha
      simp [optional, hwritten, ha]

theorem optional_text {r : Record} {part : Option String} (hpart : r.lookup name = part.map .str) :
    r.optional name Json.str? = some part :=
  optional_of .str hpart (by simp) (by simp)

/-- A list comes back if it is left out only when it is empty. -/
theorem orElse_items {r : Record} {items : List α}
    (hpart : r.lookup name = if items ≠ [] then some (Json.list write items) else none)
    (hread : ∀ a ∈ items, read (write a) = some a) :
    r.orElse name [] (Json.list? read) = some items := by
  by_cases hitems : items = []
  · simp [orElse, hpart, hitems]
  · simp [orElse, hpart, hitems, Json.list?_list hread]

end Record

end AgentRun
