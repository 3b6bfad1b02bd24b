/-
Equality of JSON values is decidable.
-/
import SecureAgnt.Lib.Json

namespace SecureAgnt
namespace Json

mutual

def beq : Json → Json → Bool
  | .null, .null => true
  | .bool a, .bool b => a == b
  | .num m, .num n => m == n
  | .str s, .str t => s == t
  | .arr xs, .arr ys => beqItems xs ys
  | .obj fs, .obj gs => beqFields fs gs
  | _, _ => false

def beqItems : List Json → List Json → Bool
  | [], [] => true
  | x :: xs, y :: ys => beq x y && beqItems xs ys
  | _, _ => false

def beqFields : List (String × Json) → List (String × Json) → Bool
  | [], [] => true
  | (k, x) :: fs, (l, y) :: gs => k == l && beq x y && beqFields fs gs
  | _, _ => false

end

mutual

theorem beq_iff : (x y : Json) → (beq x y = true ↔ x = y)
  | .null, y => by cases y <;> simp [beq]
  | .bool a, y => by cases y <;> simp [beq]
  | .num m, y => by cases y <;> simp [beq]
  | .str s, y => by cases y <;> simp [beq]
  | .arr xs, y => by
    cases y with
    | arr ys => simp only [beq, beqItems_iff xs ys, arr.injEq]
    | _ => simp [beq]
  | .obj fs, y => by
    cases y with
    | obj gs => simp only [beq, beqFields_iff fs gs, obj.injEq]
    | _ => simp [beq]

theorem beqItems_iff : (xs ys : List Json) → (beqItems xs ys = true ↔ xs = ys)
  | [], ys => by cases ys <;> simp [beqItems]
  | x :: xs, ys => by
    cases ys with
    | nil => simp [beqItems]
    | cons y ys =>
      simp only [beqItems, Bool.and_eq_true, beq_iff x y, beqItems_iff xs ys, List.cons.injEq]

theorem beqFields_iff : (fs gs : List (String × Json)) → (beqFields fs gs = true ↔ fs = gs)
  | [], gs => by cases gs <;> simp [beqFields]
  | (k, x) :: fs, gs => by
    cases gs with
    | nil => simp [beqFields]
    | cons g gs =>
      obtain ⟨l, y⟩ := g
      simp only [beqFields, Bool.and_eq_true, beq_iff x y, beqFields_iff fs gs, List.cons.injEq,
        Prod.mk.injEq, beq_iff_eq]

end

instance : DecidableEq Json := fun x y => decidable_of_iff _ (beq_iff x y)

end Json
end SecureAgnt
