/-
Records in JSON

A record is written as an object, with its fields in any order and others between them,
or as an array of its fields in their own order. A field of the record must not be given
twice, and the names of an object's fields must be texts.
-/

import FlowProfile.Json.Reader

namespace FlowProfile.Json

/-- The value of a field that is given exactly once, or nothing if it is not given. The
outer option fails on a field that is given twice. -/
def lookupOnce (name : String) (fields : List (Option String × Json)) :
    Option (Option Json) :=
  match fields.filter (·.1 = some name) with
  | [] => some none
  | [field] => some (some field.2)
  | _ => none

/-- The fields of a record in the order of `names`, each if it is given. An array gives
the first ones; a `whole` record gives all of them in an array. -/
def record (names : List String) (whole : Bool) : Json → Option (List (Option Json))
  | obj fields =>
      if fields.any (·.1.isNone) then none
      else names.mapM fun name => lookupOnce name fields
  | arr items =>
      if items.length > names.length || (whole && items.length < names.length) then none
      else some (items.map some ++ List.replicate (names.length - items.length) none)
  | null | bool _ | nat _ | number _ | str _ => none

/-- A field that must be given. -/
def required {α : Type} (decode : Json → Option α) (given : Option Json) : Option α :=
  given.bind decode

/-- A field that has a value even if it is not given. -/
def optional {α : Type} (default : α) (decode : Json → Option α) : Option Json → Option α
  | some json => decode json
  | none => some default

/-- A truth value. -/
def asBool? : Json → Option Bool
  | bool value => some value
  | _ => none

/-- A text. -/
def asText? : Json → Option String
  | str text => text
  | _ => none

/-- A number of 64 bits, written with digits alone. -/
def asWord? : Json → Option UInt64
  | nat value => if value < UInt64.size then some value.toUInt64 else none
  | _ => none

/-- An array of things of one kind. -/
def asList? {α : Type} (decode : Json → Option α) : Json → Option (List α)
  | arr items => items.mapM decode
  | _ => none

/-- Something that may be null. -/
def asNullable? {α : Type} (decode : Json → Option α) : Json → Option (Option α)
  | null => some none
  | json => (decode json).map some

end FlowProfile.Json
