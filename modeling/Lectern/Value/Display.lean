import Lectern.Decimal.Shortest
import Lectern.Value.Basic

/-!
# Values in text

**`Value.display`** is the form of a value in running text, where a text stands without quotes; inside a list or a
table it stands in quotes.
-/

set_option autoImplicit false

namespace Lectern.Value

/-- The name of the type of a value in messages. -/
def typeName : Value → Text
  | .null => "NoneType".toList
  | .bool _ => "bool".toList
  | .int _ => "int".toList
  | .float _ => "float".toList
  | .text _ => "str".toList
  | .date _ => "date".toList
  | .time _ => "time".toList
  | .dateTime _ _ _ => "datetime".toList
  | .array _ => "list".toList
  | .table _ => "dict".toList

mutual

/-- The form of a value inside another one. -/
def displayInner : Value → Text
  | .null => "None".toList
  | .bool b => if b then "True".toList else "False".toList
  | .int n => Numeral.writeInt n
  | .float x => Decimal.print x
  | .text s => Text.quote s
  | .date d => d.print
  | .time t => t.print
  | .dateTime d t offset => printDateTime d t offset
  | .array items => ['['] ++ displayItems items ++ [']']
  | .table entries => ['\x7b'] ++ displayEntries entries ++ ['\x7d']

/-- The elements of a list in a row. -/
def displayItems : List Value → Text
  | [] => []
  | [item] => displayInner item
  | item :: items => displayInner item ++ ", ".toList ++ displayItems items

/-- The entries of a table in a row. -/
def displayEntries : List (Text × Value) → Text
  | [] => []
  | [(key, value)] => Text.quote key ++ ": ".toList ++ displayInner value
  | (key, value) :: entries =>
    Text.quote key ++ ": ".toList ++ displayInner value ++ ", ".toList ++ displayEntries entries

end

/-- The form of a value in running text. -/
def display : Value → Text
  | .text s => s
  | value => displayInner value

/-- Whether a value counts as true. -/
def isTruthy : Value → Bool
  | .null => false
  | .bool b => b
  | .int n => n != 0
  | .float x => x != 0
  | .text s => s != []
  | .array items => !items.isEmpty
  | .table entries => !entries.isEmpty
  | _ => true

/-- The elements of a value: those of a list, the keys of a table, the characters of a text. -/
def elements? : Value → Option (List Value)
  | .array items => some items
  | .table entries => some (entries.map fun entry => .text entry.1)
  | .text s => some (s.map fun c => .text [c])
  | _ => none

/-- The entries of a value that is a table. -/
def entries? : Value → Option (List (Text × Value))
  | .table entries => some entries
  | _ => none

end Lectern.Value
