import ComplexCalculator.Binary64.Shortest
import ComplexCalculator.Text.Quoted

/-!
# Untyped arguments

Some arguments come unchecked: a precision may be anything, and so may an expression
or what is given to be read as a literal.  A `Datum` is such a value, and messages
about it show it or name its type.
-/

namespace ComplexCalculator

/-- A value of unknown type. -/
inductive Datum where
  | none
  | boolean (value : Bool)
  | integer (value : Int)
  | real (value : Binary64)
  | text (value : String)
  | list (items : List Datum)
  | mapping (entries : List (String × Datum))
  deriving Inhabited

namespace Datum

/-- The name of the type in messages. -/
def typeName : Datum → String
  | .none => "NoneType"
  | .boolean _ => "bool"
  | .integer _ => "int"
  | .real _ => "float"
  | .text _ => "str"
  | .list _ => "list"
  | .mapping _ => "dict"

/-- Whether the value counts as nothing: no value at all, false, a zero, or a text, a
list or a mapping without contents. -/
def isVoid : Datum → Bool
  | .none => true
  | .boolean value => !value
  | .integer n => n == 0
  | .real x => x.isZero
  | .text s => s.isEmpty
  | .list items => items.isEmpty
  | .mapping entries => entries.isEmpty

/-- Whether the value is made of other values. -/
def isCompound : Datum → Bool
  | .list _ | .mapping _ => true
  | _ => false

mutual

/-- The value as messages show it. -/
def shown : Datum → String
  | .none => "None"
  | .boolean true => "True"
  | .boolean false => "False"
  | .integer n => toString n
  | .real x => x.shortestText
  | .text s => Text.quoted s
  | .list items => "[" ++ ", ".intercalate (shownItems items) ++ "]"
  | .mapping entries => "\x7b" ++ ", ".intercalate (shownEntries entries) ++ "\x7d"

/-- The items of a list, each as messages show it. -/
def shownItems : List Datum → List String
  | [] => []
  | item :: items => shown item :: shownItems items

/-- The entries of a mapping, each as messages show it. -/
def shownEntries : List (String × Datum) → List String
  | [] => []
  | (key, value) :: entries => (Text.quoted key ++ ": " ++ shown value) :: shownEntries entries

end

end Datum

end ComplexCalculator
