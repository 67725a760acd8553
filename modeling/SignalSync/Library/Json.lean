import Mathlib.Data.List.Basic

/-!
# JSON values in Python

What `json.loads` makes of a text, and what Python reads of it: keys of a dictionary,
truth, and `str`. A number is known by its text. `Python` is what else a program needs
of the language's own reading and writing of values.
-/

namespace Library

inductive Json
  | null
  | bool (value : Bool)
  | number (text : String) (isZero : Bool)
  | string (value : String)
  | array (items : List Json)
  | object (fields : List (String × Json))

class Python where
  /-- `repr` of a list or a dictionary. -/
  repr : Json → String
  /-- `datetime.fromisoformat`, in microseconds. -/
  fromIsoFormat : String → Option ℕ

namespace Json

/-- `dict.get`; `None` is `null`. -/
def get (key : String) : Json → Json
  | .object fields => (fields.lookup key).getD .null
  | _ => .null

/-- `bool`. -/
def truthy : Json → Bool
  | .null => false
  | .bool value => value
  | .number _ isZero => !isZero
  | .string value => value ≠ ""
  | .array items => !items.isEmpty
  | .object fields => !fields.isEmpty

/-- `a or b`. -/
def orElse (a b : Json) : Json := if a.truthy then a else b

/-- `value if isinstance(value, dict) else {}`. -/
def dictOrEmpty : Json → Json
  | .object fields => .object fields
  | _ => .object []

def string? : Json → Option String
  | .string value => some value
  | _ => none

theorem string?_eq_some {j : Json} {value : String} : j.string? = some value ↔ j = .string value := by
  cases j <;> simp [string?]

/-- `str`. -/
def text [Python] : Json → String
  | .null => "None"
  | .bool value => if value then "True" else "False"
  | .number text _ => text
  | .string value => value
  | j => Python.repr j

end Json

end Library
