import BananaChat.Allowances.AmountText
import BananaChat.Foundation.Dictionary
import BananaChat.Foundation.Text

namespace BananaChat.Providers

open Foundation

/-!
# Decoded JSON

The values that `json.loads` returns, as far as the readers of provider streams tell them apart: a
float may equal an integer, and an object is a dictionary.
-/

inductive Json
  | null
  | bool (value : Bool)
  | int (value : ℤ)
  /-- A float, with the integer that it equals, if any. -/
  | float (whole : Option ℤ)
  | text (value : Text)
  | array (items : List Json)
  | object (entries : List (String × Json))

/-- `json` of the standard library; a text that cannot be decoded has no value. -/
structure JsonLibrary where
  loads : Text -> Option Json
  /-- `loads` of bytes. -/
  loadBytes : List UInt8 -> Option Json
  dumps : Json -> Text

namespace Json

/-- `value.get(key)` of a dictionary; a missing key and `None` are the same. -/
def get (key : String) : Json -> Json
  | .object entries => (Dictionary.get? key entries).getD .null
  | _ => .null

/-- `key in value`, for a dictionary. -/
def has (key : String) : Json -> Bool
  | .object entries => (Dictionary.get? key entries).isSome
  | _ => false

def isObject : Json -> Bool
  | .object _ => true
  | _ => false

def isNull : Json -> Bool
  | .null => true
  | _ => false

/-- `bool(value)`. -/
def truth : Json -> Bool
  | .null => false
  | .bool value => value
  | .int value => value ≠ 0
  | .float whole => whole ≠ some 0
  | .text value => !value.isEmpty
  | .array items => !items.isEmpty
  | .object entries => !entries.isEmpty

def text? : Json -> Option Text
  | .text value => some value
  | _ => none

def isText (value : Json) (literal : String) : Bool := value.text? = some (Text.ofString literal)

def object? : Json -> Option (List (String × Json))
  | .object entries => some entries
  | _ => none

def integer? : Json -> Option ℤ
  | .int value => some value
  | .bool value => some (if value then 1 else 0)
  | .float whole => whole
  | _ => none

/-- `value or ''`. -/
def orEmpty (value : Json) : Json := if value.truth then value else .text []

def maxArgumentDepth : ℕ := 32

def maxArgumentNodes : ℕ := 20000

def children : Json -> List Json
  | .array items => items
  | .object entries => entries.map Prod.snd
  | _ => []

/-- The loop of `nesting_too_deep`, for as many values as may still be counted. -/
def nestingFrom : ℕ -> List (Json × ℕ) -> Bool
  | _, [] => false
  | 0, _ :: _ => true
  | left + 1, (item, depth) :: stack =>
    if maxArgumentDepth < depth then true
    else nestingFrom left ((item.children.map fun child => (child, depth + 1)).reverse ++ stack)

def nestingTooDeep (value : Json) : Bool := nestingFrom maxArgumentNodes [(value, 0)]

end Json

/-- `not text.strip()`. -/
def isBlank (text : Text) : Bool :=
  text.all (fun point =>
    match point with
    | .scalar char => Allowances.isSpace char
    | .surrogate _ => false)

end BananaChat.Providers
