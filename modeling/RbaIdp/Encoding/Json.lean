import Mathlib.Data.Rat.Floor

/-!
# JSON values

What a JSON parser of the source language gives, and the exceptions that reading it may
raise.  A number is an integer of any size or a float; a float may be infinite.
-/

namespace Encoding

inductive Json where
  | null
  | bool (value : Bool)
  | int (value : ℤ)
  | float (value : ℚ)
  | infinity (negative : Bool)
  | nan
  | str (value : String)
  | arr (items : List Json)
  | obj (fields : List (String × Json))

/-- The exceptions of the built-in operations. -/
inductive PyException where
  | typeError
  | valueError
  | keyError
  | overflowError
  | recursionError
deriving DecidableEq

namespace Json

/-- `bool(value)` -/
def truthy : Json → Bool
  | null => false
  | bool value => value
  | int value => value != 0
  | float value => value != 0
  | infinity _ | nan => true
  | str value => value != ""
  | arr items => !items.isEmpty
  | obj fields => !fields.isEmpty

/-- `None` or a text -/
def ofText : Option String → Json
  | none => .null
  | some text => .str text

/-- `data.get(key)` of an object -/
def get? : Json → String → Option Json
  | obj fields, key => fields.lookup key
  | _, _ => none

/-- `data[key]` for a text `key` -/
def subscript (data : Json) (key : String) : Except PyException Json :=
  match data with
  | obj fields => (fields.lookup key).elim (.error .keyError) .ok
  | _ => .error .typeError

end Json

/-- `int(q)`: towards zero. -/
def truncate (q : ℚ) : ℤ := if 0 ≤ q then ⌊q⌋ else ⌈q⌉

end Encoding
