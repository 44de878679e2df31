import MarketplacePipeline.Python.Error

/-!
# JSON values

The values that `json.loads` gives, and how the pipeline reads them: `value[key]`, `value[0]` and
`value.get(key, default)`, which raise for a value of another type, and `str(value)`.
-/

namespace MarketplacePipeline

/-- What `json.loads` gives; a `float` is the text of its `repr`. -/
inductive Json
  | null
  | bool (b : Bool)
  | int (n : ℤ)
  | float (text : Str)
  | str (s : Str)
  | list (items : List Json)
  | dict (fields : List (Str × Json))

namespace Json

/-- `type(value).__name__`. -/
def typeName : Json → Str
  | null => "NoneType".toList
  | bool _ => "bool".toList
  | int _ => "int".toList
  | float _ => "float".toList
  | str _ => "str".toList
  | list _ => "list".toList
  | dict _ => "dict".toList

/-- The `TypeError` of `value[...]` for a value that has no items. -/
def notSubscriptable (value : Json) : PyError :=
  ⟨.exception, "'".toList ++ value.typeName ++ "' object is not subscriptable".toList⟩

/-- `value[key]`. -/
def getItem (key : Str) : Json → Except PyError Json
  | dict fields =>
    match fields.lookup key with
    | some value => .ok value
    | none => .error ⟨.exception, "'".toList ++ key ++ "'".toList⟩
  | list _ => .error ⟨.exception, "list indices must be integers or slices, not str".toList⟩
  | str _ => .error ⟨.exception, "string indices must be integers, not 'str'".toList⟩
  | value => .error value.notSubscriptable

/-- `value[0]`. -/
def getFirst : Json → Except PyError Json
  | list (value :: _) => .ok value
  | list [] => .error ⟨.exception, "list index out of range".toList⟩
  | str (c :: _) => .ok (str [c])
  | str [] => .error ⟨.exception, "string index out of range".toList⟩
  | dict _ => .error ⟨.exception, "0".toList⟩
  | value => .error value.notSubscriptable

/-- `value.get(key, default)`. -/
def get (value : Json) (key : Str) (fallback : Json) : Except PyError Json :=
  match value with
  | dict fields => .ok ((fields.lookup key).getD fallback)
  | value =>
    .error ⟨.exception, "'".toList ++ value.typeName ++ "' object has no attribute 'get'".toList⟩

/-- `bool(value)`. -/
def truthy : Json → Bool
  | null => false
  | bool b => b
  | int n => n ≠ 0
  | float text => text ≠ "0.0".toList ∧ text ≠ "-0.0".toList
  | str s => !s.isEmpty
  | list items => !items.isEmpty
  | dict fields => !fields.isEmpty

end Json

/-- The module `json` and `repr`, of which nothing is used but that `loads` raises an
`Exception`. -/
structure JsonText where
  /-- `json.loads(text)`. -/
  loads : Str → Except PyError Json
  /-- `repr(value)`. -/
  repr : Json → Str
  loads_isException : ∀ text exc, loads text = .error exc → exc.isException = true

namespace JsonText

variable (text : JsonText)

/-- `str(value)`. -/
def str : Json → Str
  | .str s => s
  | value => text.repr value

/-- `json.loads(value)`. -/
def loadsValue : Json → Except PyError Json
  | .str s => text.loads s
  | value =>
    .error ⟨.exception, "the JSON object must be str, bytes or bytearray, not ".toList ++
      value.typeName⟩

end JsonText

end MarketplacePipeline
