import Mathlib

/-! JSON values. The fields of an object are looked up from the front, and a merge puts
the fields of its right operand there. -/

inductive Json where
  | null
  | bool (b : Bool)
  | number (q : ℚ)
  | text (s : String)
  | array (items : List Json)
  | object (fields : List (String × Json))

namespace Json

abbrev Fields := List (String × Json)

def isNull : Json → Bool
  | null => true
  | _ => false

/-- What a condition makes of a value. -/
def truthy : Json → Bool
  | null => false
  | bool b => b
  | number q => q != 0
  | text s => s != ""
  | array items => !items.isEmpty
  | object fields => !fields.isEmpty

def fields? : Json → Option Fields
  | object fields => some fields
  | _ => none

namespace Fields
variable {fields left right : Fields} {key : String}

def get? (fields : Fields) (key : String) : Option Json := fields.lookup key

/-- A field that is missing reads as null. -/
def get (fields : Fields) (key : String) : Json := (fields.get? key).getD null

def merge (left right : Fields) : Fields :=
  right ++ left.filter (fun field => (right.get? field.1).isNone)

theorem get?_eq_none (h : ∀ field ∈ fields, field.1 ≠ key) : fields.get? key = none := by
  rw [get?, List.lookup_eq_none_iff]
  intro field hmem
  simpa using (h field hmem).symm

theorem get?_cons (name : String) (value : Json) : get? ((name, value) :: fields) key =
    if key = name then some value else fields.get? key := by
  by_cases hkey : key = name
  · rw [if_pos hkey, hkey, get?, List.lookup_cons_self]
  · have hbeq : (key == name) = false := by simpa using hkey
    simp [get?, List.lookup, hbeq, hkey]

theorem get?_filter {p : String → Bool} (hp : p key) (fields : Fields) :
    get? (fields.filter (fun field => p field.1)) key = fields.get? key := by
  induction fields with
  | nil => rfl
  | cons field fields ih =>
    obtain ⟨name, value⟩ := field
    by_cases hkey : key = name
    · have hfirst : p name = true := by rwa [← hkey]
      rw [List.filter_cons, if_pos hfirst, get?_cons, get?_cons, if_pos hkey, if_pos hkey]
    · rw [get?_cons, if_neg hkey, ← ih, List.filter_cons]
      split
      · rw [get?_cons, if_neg hkey]
      · rfl

theorem get?_merge (left right : Fields) (key : String) :
    (left.merge right).get? key = (right.get? key).or (left.get? key) := by
  rw [merge, get?, List.lookup_append]
  change (right.get? key).or (get? (left.filter _) key) = _
  cases hright : right.get? key with
  | some value => rfl
  | none =>
    have hkept : (right.get? key).isNone = true := by simp [hright]
    rw [get?_filter (p := fun k => (right.get? k).isNone) hkept left]

/-- Merges that never name a key leave what it reads as. -/
theorem get?_foldl_merge {updates : List Fields}
    (h : ∀ update ∈ updates, ∀ field ∈ update, field.1 ≠ key) :
    (updates.foldl merge fields).get? key = fields.get? key := by
  induction updates generalizing fields with
  | nil => rfl
  | cons update updates ih =>
    obtain ⟨hfirst, hrest⟩ := List.forall_mem_cons.mp h
    rw [List.foldl_cons, ih hrest, get?_merge, get?_eq_none hfirst, Option.none_or]

/-- Merges never take a key away. -/
theorem isSome_foldl_merge {updates : List Fields} (h : (fields.get? key).isSome) :
    ((updates.foldl merge fields).get? key).isSome := by
  induction updates generalizing fields with
  | nil => exact h
  | cons update updates ih =>
    refine ih ?_
    rw [get?_merge, Option.isSome_or, h, Bool.or_true]

end Fields

end Json
