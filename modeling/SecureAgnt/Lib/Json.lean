/-
JSON values with the accessors of `serde_json::Value`.

A number keeps the representation it was parsed into, so `asU64` accepts
exactly the integers `Value::as_u64` accepts.  An object is its list of fields;
lookups take the first field of a name, and `insert` replaces it.
-/
import Mathlib.Algebra.Order.Ring.Int
import Mathlib.Data.List.Basic

namespace SecureAgnt

inductive JsonNumber where
  | posInt (n : UInt64)
  | negInt (n : Int64)
  | float (bits : UInt64)
  deriving DecidableEq, Repr

inductive Json where
  | null
  | bool (b : Bool)
  | num (n : JsonNumber)
  | str (s : String)
  | arr (items : List Json)
  | obj (fields : List (String × Json))
  deriving Repr

namespace Json

def nat (n : Nat) : Json := .num (.posInt (UInt64.ofNat n))

def get? : Json → String → Option Json
  | .obj fields, key => (fields.find? fun f => f.1 == key).map (·.2)
  | _, _ => none

def asStr? : Json → Option String
  | .str s => some s
  | _ => none

def asBool? : Json → Option Bool
  | .bool b => some b
  | _ => none

def asArray? : Json → Option (List Json)
  | .arr items => some items
  | _ => none

def asObject? : Json → Option (List (String × Json))
  | .obj fields => some fields
  | _ => none

def asU64? : Json → Option Nat
  | .num (.posInt n) => some n.toNat
  | _ => none

def asNumber? : Json → Option JsonNumber
  | .num n => some n
  | _ => none

def isNull : Json → Bool
  | .null => true
  | _ => false

/-- `Map::insert`: replaces the field of that name or adds one. -/
def insertField (key : String) (value : Json) : List (String × Json) → List (String × Json)
  | [] => [(key, value)]
  | (k, v) :: rest =>
    if k == key then (k, value) :: rest else (k, v) :: insertField key value rest

/-- `as_object_mut` followed by `insert`; other values are left alone. -/
def insert (j : Json) (key : String) (value : Json) : Json :=
  match j with
  | .obj fields => .obj (insertField key value fields)
  | other => other

/-- `Map::remove` for every field of that name. -/
def removeField (key : String) (fields : List (String × Json)) : List (String × Json) :=
  fields.filter fun f => !(f.1 == key)

theorem asU64?_lt {j : Json} {n : Nat} (h : j.asU64? = some n) : n < 2 ^ 64 := by
  unfold asU64? at h
  split at h
  · rename_i m
    cases h
    exact m.toNat_lt
  · cases h

@[simp] theorem asU64?_nat (n : Nat) : (nat n).asU64? = some (n % 2 ^ 64) := by
  simp [nat, asU64?]

@[simp] theorem get?_obj_cons (key k : String) (v : Json) (rest : List (String × Json)) :
    (Json.obj ((k, v) :: rest)).get? key =
      if k = key then some v else (Json.obj rest).get? key := by
  by_cases h : k = key <;> simp [get?, h]

end Json
end SecureAgnt
