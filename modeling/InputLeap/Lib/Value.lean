import Mathlib.Data.Int.Notation
import Mathlib.Data.List.Defs

/-! Values as documents and settings hold them. What is not there, or of another type, is read as a default. -/

namespace InputLeap.Lib

/-- Numbers are those that an `int` holds. -/
inductive Value
  | null
  | bool (b : Bool)
  | int (n : ℤ)
  | text (s : List Char)
  | array (items : List Value)
  | object (fields : List (String × Value))

namespace Value

def field (v : Value) (key : String) : Value :=
  match v with
  | object fields => (fields.lookup key).getD null
  | _ => null

def toBool (v : Value) (default : Bool) : Bool :=
  match v with
  | bool b => b
  | _ => default

def toInt (v : Value) (default : ℤ) : ℤ :=
  match v with
  | int n => n
  | _ => default

def toText : Value → List Char
  | text s => s
  | _ => []

def toArray : Value → List Value
  | array items => items
  | _ => []

def isArray : Value → Bool
  | array _ => true
  | _ => false

def isObject : Value → Bool
  | object _ => true
  | _ => false

variable {α : Type}

def vector {n : ℕ} (v : Value) (read : Value → α) (default : Fin n → α) (i : Fin n) : α :=
  (v.toArray[i.val]?).elim (default i) read

def ofVector {n : ℕ} (write : α → Value) (values : Fin n → α) : Value := array ((List.finRange n).map fun i => write (values i))

section Reading

variable {n : ℕ} {write : α → Value} {read : Value → α} {values : Fin n → α} {items : List α}

@[simp]
lemma toInt_int (n default : ℤ) : (int n).toInt default = n := rfl

@[simp]
lemma toArray_array (items : List Value) : (array items).toArray = items := rfl

lemma vector_ofVector (h : ∀ i, read (write (values i)) = values i) (default : Fin n → α) :
    (ofVector write values).vector read default = values := by
  funext i
  rw [vector, ofVector, toArray, List.getElem?_map]
  rw [List.getElem?_eq_getElem (by rw [List.length_finRange]; exact i.isLt)]
  simp [h]

lemma map_read (h : ∀ a ∈ items, read (write a) = a) : (items.map write).map read = items := by
  rw [List.map_map]
  exact (List.map_congr_left h).trans (List.map_id items)

end Reading

end Value

end InputLeap.Lib
