import WeakKleene.Json.Fraction
import WeakKleene.Text.Units

namespace WeakKleene

/-!
Structured data: the values that a JSON document can hold.
-/

/-- The name of a field.  A name in which a half of a UTF-16 pair stands alone is `ragged`, and is
kept by its code points. -/
inductive FieldName where
  | plain (text : String)
  | ragged (codes : List Nat)
deriving DecidableEq, Repr

namespace FieldName

instance : Coe String FieldName := ⟨plain⟩

def ofCodes (codes : List Nat) : FieldName :=
  if codes.any Text.isHalf then .ragged codes else .plain (Text.ofCodes codes)

/-- The name as a text, with a replacement for what is no character. -/
def text : FieldName -> String
  | .plain text => text
  | .ragged codes => Text.ofCodes codes

end FieldName

/-- A value.  An object keeps its fields in order.  A text in which a half of a UTF-16 pair stands
alone is `ragged`, like a name. -/
inductive Json where
  | null
  | bool (value : Bool)
  | int (value : Int)
  | fraction (value : Float)
  | string (text : String)
  | ragged (codes : List Nat)
  | list (items : List Json)
  | object (fields : List (FieldName × Json))

instance : Inhabited Json := ⟨.null⟩

namespace Json

def ofCodes (codes : List Nat) : Json :=
  if codes.any Text.isHalf then .ragged codes else .string (Text.ofCodes codes)

/-- An object with names that are plain texts. -/
def record (fields : List (String × Json)) : Json :=
  .object (fields.map fun (name, value) => (.plain name, value))

/-- The text that a name is. -/
def ofName : FieldName -> Json
  | .plain text => .string text
  | .ragged codes => .ragged codes

/-- The text that a value is, with a replacement for what is no character. -/
def text? : Json -> Option String
  | .string text => some text
  | .ragged codes => some (Text.ofCodes codes)
  | _ => none

/-- The code points of the text that a value is. -/
def codes? : Json -> Option (List Nat)
  | .string text => some (Text.codes text)
  | .ragged codes => some codes
  | _ => none

def ofText? : Option String -> Json
  | some text => .string text
  | none => .null

def nat (value : Nat) : Json := .int value

def texts (items : List String) : Json := .list (items.map Json.string)

def nats (items : List Nat) : Json := .list (items.map Json.nat)

def ofNat? : Option Nat -> Json
  | some number => .nat number
  | none => .null

def lines (items : List String) : Json := .string (String.join (items.map (· ++ "\n")))

def entry? (name : String) (fields : List (FieldName × Json)) : Option Json :=
  fields.lookup (.plain name)

/-- Set a field of an object: in place if the object has one of that name, at the end if not. -/
def put (name : FieldName) (value : Json) : List (FieldName × Json) -> List (FieldName × Json)
  | [] => [(name, value)]
  | field :: rest => if field.1 == name then (name, value) :: rest else field :: put name value rest

def kind : Json -> String
  | .null => "NoneType"
  | .bool _ => "bool"
  | .int _ => "int"
  | .fraction _ => "float"
  | .string _ | .ragged _ => "str"
  | .list _ => "list"
  | .object _ => "dict"

/-- The whole number that a value is, where false and true are zero and one. -/
def number? : Json -> Option Int
  | .int value => some value
  | .bool value => some (if value then 1 else 0)
  | _ => none

/-- Where the number that a value is stands among all numbers. -/
def rank? : Json -> Option (Int × Int)
  | .fraction value => some (Fraction.rank value)
  | value => value.number?.map Fraction.rankOf

def isText (text : String) : Json -> Bool
  | .string found => found == text
  | _ => false

/-- Whether a value can name something.  Lists and objects cannot. -/
def isName : Json -> Bool
  | .list _ | .object _ => false
  | _ => true

/-- Whether two values name the same thing: they are the same text, the same number, or both
null. -/
def sameName : Json -> Json -> Bool
  | .string left, .string right => left == right
  | .ragged left, .ragged right => left == right
  | .null, .null => true
  | left, right =>
    match left.rank?, right.rank? with
    | some left, some right => left == right
    | _, _ => false

/-- Whether a value counts as true: it is neither null, false, zero nor empty. -/
def isTrue : Json -> Bool
  | .null => false
  | .bool value => value
  | .int value => value != 0
  | .fraction value => value != 0
  | .string text => !text.isEmpty
  | .ragged codes => !codes.isEmpty
  | .list items => !items.isEmpty
  | .object fields => !fields.isEmpty

end Json
end WeakKleene
