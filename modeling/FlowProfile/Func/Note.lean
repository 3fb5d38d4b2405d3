/-
Notes

The payload a front end attaches to a function under a key: an integer, a truth value, a
text, or a tuple of further payloads. Equality is decidable although tuples nest.
-/

import FlowProfile.Text.Quoted
import FlowProfile.Text.Separated

namespace FlowProfile

/-- A note's payload. -/
inductive Note
  | int (value : Int64)
  | bool (value : Bool)
  | str (text : String)
  | tuple (items : List Note)
  deriving Inhabited

namespace Note

mutual

/-- Payloads are compared by their shape, item by item. -/
def decideEq : (first second : Note) → Decidable (first = second)
  | int a, int b =>
      if same : a = b then isTrue (congrArg int same) else isFalse fun h => same (int.inj h)
  | bool a, bool b =>
      if same : a = b then isTrue (congrArg bool same) else isFalse fun h => same (bool.inj h)
  | str a, str b =>
      if same : a = b then isTrue (congrArg str same) else isFalse fun h => same (str.inj h)
  | tuple a, tuple b =>
      match decideEqItems a b with
      | isTrue same => isTrue (congrArg tuple same)
      | isFalse apart => isFalse fun h => apart (tuple.inj h)
  | int _, bool _ | int _, str _ | int _, tuple _ => isFalse nofun
  | bool _, int _ | bool _, str _ | bool _, tuple _ => isFalse nofun
  | str _, int _ | str _, bool _ | str _, tuple _ => isFalse nofun
  | tuple _, int _ | tuple _, bool _ | tuple _, str _ => isFalse nofun

/-- Tuples are equal when their items are, in order. -/
def decideEqItems : (first second : List Note) → Decidable (first = second)
  | [], [] => isTrue rfl
  | [], _ :: _ => isFalse nofun
  | _ :: _, [] => isFalse nofun
  | a :: restA, b :: restB =>
      match decideEq a b, decideEqItems restA restB with
      | isTrue same, isTrue sameRest => isTrue (same ▸ sameRest ▸ rfl)
      | isFalse apart, _ => isFalse fun h => apart (List.cons.inj h).1
      | _, isFalse apart => isFalse fun h => apart (List.cons.inj h).2

end

instance : DecidableEq Note := decideEq

/-- The four forms a payload can have. -/
inductive Kind
  | int
  | bool
  | str
  | tuple
  deriving DecidableEq, Repr

/-- The name of a form in messages. -/
def Kind.text : Kind → String
  | int => "int"
  | bool => "bool"
  | str => "string"
  | tuple => "tuple"

/-- The form of a payload. -/
def kind : Note → Kind
  | int _ => .int
  | bool _ => .bool
  | str _ => .str
  | tuple _ => .tuple

/-- The number a payload stands for: a truth value counts as one or zero. -/
def asInt? : Note → Option Int64
  | int value => some value
  | bool value => some (if value then 1 else 0)
  | str _ | tuple _ => none

/-- The items of a tuple. -/
def items? : Note → Option (List Note)
  | tuple items => some items
  | int _ | bool _ | str _ => none

mutual

/-- The written form of a payload. -/
def text : Note → String
  | int value => toString value.toInt
  | bool true => "true"
  | bool false => "false"
  | str value => Text.quoted value
  | tuple items => "(" ++ Text.separated (texts items) ++ ")"

/-- The written forms of the items of a tuple. -/
def texts : List Note → List String
  | [] => []
  | item :: rest => text item :: texts rest

end

theorem texts_eq_map (items : List Note) : texts items = items.map text := by
  induction items with
  | nil => rfl
  | cons item rest ih => simp [texts, ih]

end Note

end FlowProfile
