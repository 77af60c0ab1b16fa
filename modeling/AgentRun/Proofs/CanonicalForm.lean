import AgentRun.Json.Basic
import Mathlib.Data.List.Induction
import Mathlib.Data.String.Basic

/-!
# The form in which free values are kept

`Json.canonical` puts the fields of every object into ascending order of their keys and keeps the
last of equal ones. Its values are exactly the canonical ones (`isCanonical_canonical`), it leaves
these as they are (`canonical_eq_self_iff`), and what it does to the others is told by what is found
under a key: the canonical form of the last value that stood under it (`get?_canonical`).
-/

namespace AgentRun

namespace Json

/-! ## Putting in one field -/

theorem mem_insertField {key : String} {value : Json} {fields : List (String × Json)}
    {f : String × Json} (hf : f ∈ insertField key value fields) :
    f = (key, value) ∨ f ∈ fields := by
  induction fields with
  | nil => exact .inl (List.mem_singleton.1 hf)
  | cons g rest ih =>
    obtain ⟨k, v⟩ := g
    rw [insertField] at hf
    split_ifs at hf with hbefore hsame
    · exact List.mem_cons.1 hf
    · rcases List.mem_cons.1 hf with heq | hrest
      · exact .inl heq
      · exact .inr (List.mem_cons_of_mem _ hrest)
    · rcases List.mem_cons.1 hf with heq | hrest
      · exact .inr (heq ▸ List.mem_cons_self)
      · exact (ih hrest).imp id (List.mem_cons_of_mem _)

theorem Ascending.insertField {fields : List (String × Json)} (hfields : Ascending fields)
    (key : String) (value : Json) : Ascending (Json.insertField key value fields) := by
  induction fields with
  | nil => exact List.pairwise_singleton _ _
  | cons g rest ih =>
    obtain ⟨k, v⟩ := g
    obtain ⟨hfirst, hrest⟩ := List.pairwise_cons.1 hfields
    rw [Json.insertField]
    split_ifs with hbefore hsame
    · refine List.pairwise_cons.2 ⟨?_, hfields⟩
      intro f hf
      rcases List.mem_cons.1 hf with rfl | hf
      · exact hbefore
      · exact lt_trans hbefore (hfirst f hf)
    · subst hsame
      exact List.pairwise_cons.2 ⟨hfirst, hrest⟩
    · have hbehind : k < key := lt_of_le_of_ne (not_lt.1 hbefore) (Ne.symm hsame)
      refine List.pairwise_cons.2 ⟨?_, ih hrest⟩
      intro f hf
      rcases mem_insertField hf with rfl | hf
      · exact hbehind
      · exact hfirst f hf

theorem lookup_field (f : String × Json) (rest : List (String × Json)) (k : String) :
    (f :: rest).lookup k = if k = f.1 then some f.2 else rest.lookup k := by
  obtain ⟨key, value⟩ := f
  by_cases hk : k = key
  · simp [hk]
  · have hne : (k == key) = false := by simpa using hk
    simp [List.lookup_cons, hk, hne]

/-- The new field is found under its key, and every other key finds what it found. -/
theorem lookup_insertField (key : String) (value : Json) (fields : List (String × Json))
    (k : String) : (insertField key value fields).lookup k
      = if k = key then some value else fields.lookup k := by
  induction fields with
  | nil => exact lookup_field (key, value) [] k
  | cons g rest ih =>
    obtain ⟨k', v⟩ := g
    by_cases hbefore : key < k'
    · rw [insertField, if_pos hbefore]
      exact lookup_field (key, value) _ k
    · by_cases hsame : key = k'
      · rw [insertField, if_neg hbefore, if_pos hsame, lookup_field, lookup_field, hsame]
        by_cases hk : k = k' <;> simp [hk]
      · rw [insertField, if_neg hbefore, if_neg hsame, lookup_field, lookup_field, ih]
        by_cases hk : k = key
        · simp [hk, hsame]
        · simp [hk]

/-- A key behind all others goes to the end. -/
theorem insertField_of_last {key : String} {value : Json} {fields : List (String × Json)}
    (hlast : ∀ f ∈ fields, f.1 < key) :
    insertField key value fields = fields ++ [(key, value)] := by
  induction fields with
  | nil => rfl
  | cons g rest ih =>
    obtain ⟨k, v⟩ := g
    obtain ⟨hk, hrest⟩ := List.forall_mem_cons.1 hlast
    have hbefore : ¬ key < k := lt_asymm hk
    have hsame : ¬ key = k := ne_of_gt hk
    rw [insertField, if_neg hbefore, if_neg hsame, ih hrest]
    rfl

/-! ## Putting all fields in order -/

theorem sortFields_append_singleton (fields : List (String × Json)) (f : String × Json) :
    sortFields (fields ++ [f]) = insertField f.1 f.2 (sortFields fields) := by
  simp [sortFields]

theorem mem_sortFields {fields : List (String × Json)} {f : String × Json}
    (hf : f ∈ sortFields fields) : f ∈ fields := by
  induction fields using List.reverseRecOn with
  | nil => exact hf
  | append_singleton front g ih =>
    rw [sortFields_append_singleton] at hf
    rcases mem_insertField hf with rfl | hf
    · exact List.mem_append_right _ (List.mem_singleton_self _)
    · exact List.mem_append_left _ (ih hf)

theorem ascending_sortFields (fields : List (String × Json)) : Ascending (sortFields fields) := by
  induction fields using List.reverseRecOn with
  | nil => exact .nil
  | append_singleton front f ih =>
    rw [sortFields_append_singleton]
    exact ih.insertField f.1 f.2

/-- The last of equal keys wins. -/
theorem lookup_sortFields (fields : List (String × Json)) (k : String) :
    (sortFields fields).lookup k = fields.reverse.lookup k := by
  induction fields using List.reverseRecOn with
  | nil => rfl
  | append_singleton front f ih =>
    rw [sortFields_append_singleton, lookup_insertField, ih, List.reverse_concat, lookup_field]

theorem sortFields_of_ascending {fields : List (String × Json)} (hfields : Ascending fields) :
    sortFields fields = fields := by
  induction fields using List.reverseRecOn with
  | nil => rfl
  | append_singleton front f ih =>
    obtain ⟨hfront, _, hlast⟩ := List.pairwise_append.1 hfields
    have hbefore : ∀ g ∈ front, g.1 < f.1 := fun g hg => hlast g hg f (List.mem_singleton_self f)
    rw [sortFields_append_singleton, ih hfront, insertField_of_last hbefore]

/-! ## Whole values -/

theorem canonicalItems_eq (items : List Json) : canonicalItems items = items.map canonical := by
  induction items with
  | nil => rfl
  | cons x rest ih => rw [canonicalItems, ih, List.map_cons]

theorem canonicalFields_eq (fields : List (String × Json)) :
    canonicalFields fields = fields.map fun f => (f.1, f.2.canonical) := by
  induction fields with
  | nil => rfl
  | cons f rest ih =>
    obtain ⟨k, v⟩ := f
    rw [canonicalFields, ih, canonicalField, List.map_cons]

theorem canonical_arr (items : List Json) : (arr items).canonical = .arr (items.map canonical) := by
  rw [canonical, canonicalItems_eq]

theorem canonical_obj (fields : List (String × Json)) : (obj fields).canonical
    = .obj (sortFields (fields.map fun f => (f.1, f.2.canonical))) := by
  rw [canonical, canonicalFields_eq]

theorem isCanonical_canonical : (j : Json) → j.canonical.IsCanonical
  | .null => .null
  | .bool b => .bool b
  | .num n => .num n
  | .str s => .str s
  | .arr items => by
    rw [canonical_arr]
    refine .arr fun y hy => ?_
    obtain ⟨x, hx, rfl⟩ := List.mem_map.1 hy
    exact isCanonical_canonical x
  | .obj fields => by
    rw [canonical_obj]
    refine .obj (ascending_sortFields _) fun g hg => ?_
    obtain ⟨f, hf, rfl⟩ := List.mem_map.1 (mem_sortFields hg)
    exact isCanonical_canonical f.2
termination_by j => sizeOf j
decreasing_by
  · have hsize : sizeOf x < sizeOf items := List.sizeOf_lt_of_mem hx
    simp only [arr.sizeOf_spec]
    omega
  · have hsize : sizeOf f < sizeOf fields := List.sizeOf_lt_of_mem hf
    obtain ⟨k, v⟩ := f
    simp only [Prod.mk.sizeOf_spec] at hsize
    simp only [obj.sizeOf_spec]
    omega

/-- A canonical value stays as it is: by induction on why it is canonical. -/
theorem IsCanonical.canonical_eq {j : Json} (hj : j.IsCanonical) : j.canonical = j := by
  induction hj with
  | null | bool | num | str => rfl
  | @arr items _ ih =>
    have hmap : items.map canonical = items := (List.map_congr_left ih).trans (List.map_id items)
    rw [canonical_arr, hmap]
  | @obj fields hkeys _ ih =>
    have hmap : (fields.map fun f => (f.1, f.2.canonical)) = fields := by
      refine (List.map_congr_left fun f hf => ?_).trans (List.map_id fields)
      rw [ih f hf]
      rfl
    rw [canonical_obj, hmap, sortFields_of_ascending hkeys]

/-- The values that `canonical` leaves as they are are those with ascending keys at every depth. -/
theorem canonical_eq_self_iff (j : Json) : j.canonical = j ↔ j.IsCanonical :=
  ⟨fun h => h ▸ isCanonical_canonical j, fun h => h.canonical_eq⟩

instance (j : Json) : Decidable j.IsCanonical := decidable_of_iff _ (canonical_eq_self_iff j)

/-- Under a key stands the canonical form of the last value that stood under it. -/
theorem get?_canonical (key : String) (fields : List (String × Json)) :
    (obj fields).canonical.get? key = (fields.reverse.lookup key).map canonical := by
  rw [canonical_obj, get?_obj, lookup_sortFields, ← List.map_reverse]
  induction fields.reverse with
  | nil => rfl
  | cons f rest ih =>
    rw [List.map_cons, lookup_field, lookup_field, ih]
    by_cases hkey : key = f.1 <;> simp [hkey]

end Json

end AgentRun
