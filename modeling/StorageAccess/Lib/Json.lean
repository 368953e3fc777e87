import Mathlib.Algebra.Group.Int.Defs
import Mathlib.Algebra.Group.Nat.Defs
import StorageAccess.Lib.Path
/-!
# JSON values

Values as a dynamically typed JSON library hands them out: a missing member
reads as null, and reading a value at the wrong type gives that type's default.
-/

namespace Json

open Posix (Str)

inductive JValue
  | null
  | bool (b : Bool)
  | num (n : Int)
  | str (s : Str)
  | arr (items : List JValue)
  | obj (fields : List (String × JValue))
  deriving Repr

namespace JValue

def object : JValue := .obj []

def array : JValue := .arr []

def text (s : String) : JValue := .str s.toList

def get (j : JValue) (key : String) : JValue :=
  match j with
  | .obj fields => (fields.lookup key).getD .null
  | _ => .null

def hasKey (j : JValue) (key : String) : Bool :=
  match j with
  | .obj fields => (fields.lookup key).isSome
  | _ => false

/-- Set a member of an object. -/
def put (j : JValue) (key : String) (v : JValue) : JValue :=
  match j with
  | .obj fields => .obj ((key, v) :: fields.filter (·.1 ≠ key))
  | j => j

def append (j : JValue) (v : JValue) : JValue :=
  match j with
  | .arr items => .arr (items ++ [v])
  | j => j

def asString : JValue → Str
  | .str s => s
  | _ => []

def asBool : JValue → Bool
  | .bool b => b
  | _ => false

/-- A number as an `int`, which stands at the end of its range for what lies beyond. -/
def asInt : JValue → Int
  | .num n => max (-2 ^ 31) (min n (2 ^ 31 - 1))
  | _ => 0

def items : JValue → List JValue
  | .arr items => items
  | _ => []

def isArray : JValue → Bool
  | .arr _ => true
  | _ => false

def isObject : JValue → Bool
  | .obj _ => true
  | _ => false

def isString : JValue → Bool
  | .str _ => true
  | _ => false

def isNumber : JValue → Bool
  | .num _ => true
  | _ => false

def isBool : JValue → Bool
  | .bool _ => true
  | _ => false

@[simp]
theorem isObject_object : object.isObject = true := rfl

@[simp]
theorem isObject_put (j : JValue) (k : String) (v : JValue) : (j.put k v).isObject = j.isObject := by
  cases j <;> rfl

theorem lookup_filter_ne {α : Type} (fields : List (String × α)) {k k' : String} (h : k' ≠ k) :
    (fields.filter (·.1 ≠ k)).lookup k' = fields.lookup k' := by
  induction fields with
  | nil => rfl
  | cons f fields ih =>
    obtain ⟨a, v⟩ := f
    by_cases ha : a = k
    · subst ha
      simpa [List.lookup_cons, beq_eq_false_iff_ne.2 h] using ih
    · by_cases hk : k' = a
      · subst hk
        simp [ha]
      · simp only [ne_eq, ha, not_false_eq_true, decide_true, List.filter_cons_of_pos, List.lookup_cons,
          beq_eq_false_iff_ne.2 hk]
        simpa using ih

theorem get_put (j : JValue) (hj : j.isObject = true) (k k' : String) (v : JValue) :
    (j.put k v).get k' = if k' = k then v else j.get k' := by
  cases j <;> simp [isObject] at hj
  rename_i fields
  by_cases h : k' = k
  · simp [put, get, h]
  · simp only [put, get, List.lookup_cons, beq_eq_false_iff_ne.2 h, if_neg h]
    rw [lookup_filter_ne fields h]

@[simp]
theorem get_put_self (j : JValue) (hj : j.isObject = true) (k : String) (v : JValue) : (j.put k v).get k = v := by
  rw [get_put j hj, if_pos rfl]

@[simp]
theorem get_object (k : String) : object.get k = .null := rfl

theorem hasKey_put (j : JValue) (hj : j.isObject = true) (k k' : String) (v : JValue) :
    (j.put k v).hasKey k' = (decide (k' = k) || j.hasKey k') := by
  cases j <;> simp [isObject] at hj
  rename_i fields
  by_cases h : k' = k
  · simp [put, hasKey, h]
  · simp only [put, hasKey, List.lookup_cons, beq_eq_false_iff_ne.2 h, h]
    rw [lookup_filter_ne fields h]
    simp

theorem get_of_not_hasKey {j : JValue} {k : String} (h : ¬ j.hasKey k = true) : j.get k = .null := by
  cases j with
  | obj fields =>
    have hnone : fields.lookup k = none := Option.not_isSome_iff_eq_none.1 h
    simp only [get, hnone, Option.getD_none]
  | null | bool | num | str | arr => rfl

end JValue

end Json
