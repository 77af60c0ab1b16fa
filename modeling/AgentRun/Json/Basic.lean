import AgentRun.Decimal.Binary

/-!
# JSON values

The values that documents, tool arguments and tool results are made of. An object is kept as the
list of its fields in the order of the document; `canonical` gives the form in which the program
holds free values, with the keys ascending and the last of equal keys winning.
-/

namespace AgentRun

/-- A number: an integer that fits in 64 bits, signed or unsigned, or a binary64 number. -/
inductive Number where
  /-- An integer. -/
  | int (value : Int)
  /-- A fraction, a number in exponent notation or an integer that does not fit. -/
  | float (value : Decimal.Binary)
  deriving DecidableEq, Repr

/-- A JSON value. -/
inductive Json where
  /-- The value `null`. -/
  | null
  /-- A truth value. -/
  | bool (value : Bool)
  | num (value : Number)
  | str (value : String)
  /-- An array. -/
  | arr (items : List Json)
  /-- An object, by its fields. -/
  | obj (fields : List (String × Json))
  deriving Repr

namespace Json

mutual

/-- Equality of values is decidable. -/
def decEq : (a b : Json) → Decidable (a = b)
  | .null, .null => .isTrue rfl
  | .bool a, .bool b => if h : a = b then .isTrue (by rw [h]) else .isFalse (by simpa)
  | .num a, .num b => if h : a = b then .isTrue (by rw [h]) else .isFalse (by simpa)
  | .str a, .str b => if h : a = b then .isTrue (by rw [h]) else .isFalse (by simpa)
  | .arr a, .arr b => match decEqItems a b with
    | .isTrue h => .isTrue (by rw [h])
    | .isFalse h => .isFalse (by simpa)
  | .obj a, .obj b => match decEqFields a b with
    | .isTrue h => .isTrue (by rw [h])
    | .isFalse h => .isFalse (by simpa)
  | .null, .bool _ | .null, .num _ | .null, .str _ | .null, .arr _ | .null, .obj _
  | .bool _, .null | .bool _, .num _ | .bool _, .str _ | .bool _, .arr _ | .bool _, .obj _
  | .num _, .null | .num _, .bool _ | .num _, .str _ | .num _, .arr _ | .num _, .obj _
  | .str _, .null | .str _, .bool _ | .str _, .num _ | .str _, .arr _ | .str _, .obj _
  | .arr _, .null | .arr _, .bool _ | .arr _, .num _ | .arr _, .str _ | .arr _, .obj _
  | .obj _, .null | .obj _, .bool _ | .obj _, .num _ | .obj _, .str _ | .obj _, .arr _ =>
    .isFalse (by simp)
termination_by structural a => a

/-- Equality of the items of arrays is decidable. -/
def decEqItems : (a b : List Json) → Decidable (a = b)
  | [], [] => .isTrue rfl
  | [], _ :: _ => .isFalse (by simp)
  | _ :: _, [] => .isFalse (by simp)
  | x :: xs, y :: ys => match decEq x y, decEqItems xs ys with
    | .isTrue h, .isTrue h' => .isTrue (by rw [h, h'])
    | .isFalse h, _ => .isFalse (by simp [h])
    | _, .isFalse h => .isFalse (by simp [h])
termination_by structural a => a

/-- Equality of the fields of objects is decidable. -/
def decEqFields : (a b : List (String × Json)) → Decidable (a = b)
  | [], [] => .isTrue rfl
  | [], _ :: _ => .isFalse (by simp)
  | _ :: _, [] => .isFalse (by simp)
  | x :: xs, y :: ys => match decEqField x y, decEqFields xs ys with
    | .isTrue h, .isTrue h' => .isTrue (by rw [h, h'])
    | .isFalse h, _ => .isFalse (by simp [h])
    | _, .isFalse h => .isFalse (by simp [h])
termination_by structural a => a

/-- Equality of two fields is decidable. -/
def decEqField : (a b : String × Json) → Decidable (a = b)
  | (k, v), (k', v') => match decEq v v' with
    | .isTrue h' => if h : k = k' then .isTrue (by rw [h, h']) else .isFalse (by simp [h])
    | .isFalse h => .isFalse (by simp [h])
termination_by structural a => a

end

instance : DecidableEq Json := decEq

/-- Puts a field into fields with ascending keys, in the place of a field of the same key. Strings
are ordered by code point, which is the order of their UTF-8 bytes. -/
def insertField (key : String) (value : Json) : List (String × Json) → List (String × Json)
  | [] => [(key, value)]
  | (k, v) :: rest =>
    if key < k then (key, value) :: (k, v) :: rest
    else if key = k then (key, value) :: rest
    else (k, v) :: insertField key value rest

/-- Fields with ascending keys, the last of equal keys winning. -/
def sortFields (fields : List (String × Json)) : List (String × Json) :=
  fields.foldl (fun sorted f => insertField f.1 f.2 sorted) []

mutual

/-- The value with the fields of every object in ascending order of their keys. -/
def canonical : Json → Json
  | .null => .null
  | .bool b => .bool b
  | .num n => .num n
  | .str s => .str s
  | .arr items => .arr (canonicalItems items)
  | .obj fields => .obj (sortFields (canonicalFields fields))
termination_by structural j => j

/-- The items of an array in canonical form. -/
def canonicalItems : List Json → List Json
  | [] => []
  | x :: rest => canonical x :: canonicalItems rest
termination_by structural items => items

/-- The fields of an object with their values in canonical form. -/
def canonicalFields : List (String × Json) → List (String × Json)
  | [] => []
  | f :: rest => canonicalField f :: canonicalFields rest
termination_by structural fields => fields

/-- A field with its value in canonical form. -/
def canonicalField : String × Json → String × Json
  | (k, v) => (k, canonical v)
termination_by structural field => field

end

/-- The fields have strictly ascending keys, so that no key stands twice. -/
def Ascending (fields : List (String × Json)) : Prop := fields.Pairwise fun f g => f.1 < g.1

/-- A value is canonical when the fields of every object in it, at whatever depth, have strictly
ascending keys. This is the form of a value that is held with its fields in an ordered map. -/
inductive IsCanonical : Json → Prop where
  | null : IsCanonical .null
  | bool (b : Bool) : IsCanonical (.bool b)
  | num (n : Number) : IsCanonical (.num n)
  | str (s : String) : IsCanonical (.str s)
  /-- An array is canonical when its items are. -/
  | arr {items : List Json} (hitems : ∀ x ∈ items, IsCanonical x) : IsCanonical (.arr items)
  /-- An object is canonical when its keys ascend and the values of its fields are canonical. -/
  | obj {fields : List (String × Json)} (hkeys : Ascending fields)
      (hvalues : ∀ f ∈ fields, IsCanonical f.2) : IsCanonical (.obj fields)

/-- An integer. -/
def int (i : Int) : Json := .num (.int i)

/-- A natural number. -/
def nat (n : Nat) : Json := .num (.int n)

/-- The empty object. -/
def empty : Json := .obj []

/-- The value of a field of an object. -/
def get? (key : String) : Json → Option Json
  | .obj fields => fields.lookup key
  | _ => none

/-- The text of a string. -/
def str? : Json → Option String
  | .str s => some s
  | _ => none

/-- The items of an array. -/
def items? : Json → Option (List Json)
  | .arr items => some items
  | _ => none

/-- The text of a field that is a string. -/
def text? (key : String) (j : Json) : Option String := (j.get? key).bind str?

@[simp] theorem get?_obj (key : String) (fields : List (String × Json)) :
    (Json.obj fields).get? key = fields.lookup key := rfl

@[simp] theorem str?_str (s : String) : (Json.str s).str? = some s := rfl

end Json

end AgentRun
