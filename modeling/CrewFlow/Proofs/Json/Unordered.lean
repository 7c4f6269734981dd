import Mathlib
import CrewFlow.Proofs.Json.Fields
/-!
# Values whose fields have no order

Two values are the same when their objects have the same value under every key, whatever the order of the keys.
Lists keep their order.
-/
set_option autoImplicit false

namespace CrewFlow.Json

/-- Equality of values, in whatever order the fields of objects come. -/
inductive Value.Equal : Value → Value → Prop where
  | null : Equal .null .null
  | bool (b : Bool) : Equal (.bool b) (.bool b)
  | num (n : Number) : Equal (.num n) (.num n)
  | str (s : String) : Equal (.str s) (.str s)
  | arr {xs ys : List Value} (each : List.Forall₂ Equal xs ys) : Equal (.arr xs) (.arr ys)
  | obj {fs gs : Fields} (each : ∀ key, Option.Rel Equal (fs.get? key) (gs.get? key)) : Equal (.obj fs) (.obj gs)

mutual

theorem Value.Equal.refl : ∀ v : Value, v.Equal v
  | .null => .null
  | .bool b => .bool b
  | .num n => .num n
  | .str s => .str s
  | .arr items => .arr (equal_items items)
  | .obj fields => .obj (equal_fields fields)

theorem equal_items : ∀ items : List Value, List.Forall₂ Value.Equal items items
  | [] => .nil
  | v :: vs => .cons (Value.Equal.refl v) (equal_items vs)

theorem equal_fields : ∀ (fields : List (String × Value)) (key : String),
    Option.Rel Value.Equal (Fields.get? fields key) (Fields.get? fields key)
  | [], _ => .none
  | (name, v) :: rest, key => by
      rw [Fields.get?, Fields.lookup_cons_eq]
      split
      · exact .some (Value.Equal.refl v)
      · exact equal_fields rest key

end

section Lookups
variable {v w : Value} {x y : Option Value}

theorem Value.Equal.get? (equal : v.Equal w) (key : String) : Option.Rel Value.Equal (v.get? key) (w.get? key) := by
  cases equal with
  | obj each => exact each key
  | null | bool | num | str | arr => exact .none

theorem rel_bind {f : Value → Option Value} (equal : Option.Rel Value.Equal x y)
    (next : ∀ {v w}, v.Equal w → Option.Rel Value.Equal (f v) (f w)) :
    Option.Rel Value.Equal (x.bind f) (y.bind f) := by
  cases equal with
  | none => exact .none
  | some equal => exact next equal

theorem rel_map {R S : Value → Value → Prop} {f g : Value → Value} (related : Option.Rel R x y)
    (next : ∀ {v w}, R v w → S (f v) (g w)) : Option.Rel S (x.map f) (y.map g) := by
  cases related with
  | none => exact .none
  | some related => exact .some (next related)

theorem rel_or {z w : Option Value} (first : Option.Rel Value.Equal x y) (second : Option.Rel Value.Equal z w) :
    Option.Rel Value.Equal (x.or z) (y.or w) := by
  cases first with
  | none => exact second
  | some equal => exact .some equal

theorem rel_filter_isNull (equal : Option.Rel Value.Equal x y) :
    Option.Rel Value.Equal (x.filter fun v => !v.isNull) (y.filter fun v => !v.isNull) := by
  cases equal with
  | none => exact .none
  | some equal => cases equal with
    | null => exact .none
    | arr each => exact .some (.arr each)
    | obj each => exact .some (.obj each)
    | bool | num | str => exact .some (.refl _)

end Lookups

end CrewFlow.Json
