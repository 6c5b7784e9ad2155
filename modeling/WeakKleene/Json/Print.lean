import WeakKleene.Json.Basic
import WeakKleene.Text.Quoted

namespace WeakKleene
namespace Json

/-!
Two written forms of data: an indented document in which only ASCII characters
occur, and a single line in which texts are quoted as in messages.
-/

def unitEscape (unit : Nat) : List Char := '\\' :: 'u' :: Text.hexDigits 4 unit

def escape (code : Nat) : List Char :=
  if code == '"'.toNat then ['\\', '"']
  else if code == '\\'.toNat then ['\\', '\\']
  else if code == '\n'.toNat then ['\\', 'n']
  else if code == '\r'.toNat then ['\\', 'r']
  else if code == '\t'.toNat then ['\\', 't']
  else if code == 8 then ['\\', 'b']
  else if code == 12 then ['\\', 'f']
  else if 32 <= code && code <= 126 then [Char.ofNat code]
  else (Text.unitsOf code).flatMap unitEscape

def quoteCodes (codes : List Nat) : String := "\"" ++ String.ofList (codes.flatMap escape) ++ "\""

def quote (text : String) : String := quoteCodes (Text.codes text)

def quoteName : FieldName -> String
  | .plain text => quote text
  | .ragged codes => quoteCodes codes

def quotedName : FieldName -> String
  | .plain text => Text.quoted text
  | .ragged codes => Text.quotedCodes codes

def newline (depth : Nat) : String := "\n" ++ String.ofList (List.replicate (2 * depth) ' ')

/-- Items between brackets, one to a line. -/
def block (opening closing : String) (depth : Nat) (items : List String) : String :=
  if items.isEmpty then opening ++ closing
  else
    opening ++ newline (depth + 1) ++ String.intercalate ("," ++ newline (depth + 1)) items ++
      newline depth ++ closing

mutual

def documentAt (depth : Nat) : Json -> String
  | .null => "null"
  | .bool true => "true"
  | .bool false => "false"
  | .int value => toString value
  | .fraction value => Fraction.written "NaN" "Infinity" value
  | .string text => quote text
  | .ragged codes => quoteCodes codes
  | .list items => block "[" "]" depth (itemDocuments (depth + 1) items)
  | .object fields => block "\x7b" "\x7d" depth (fieldDocuments (depth + 1) fields)

def itemDocuments (depth : Nat) : List Json -> List String
  | [] => []
  | item :: rest => documentAt depth item :: itemDocuments depth rest

def fieldDocuments (depth : Nat) : List (FieldName × Json) -> List String
  | [] => []
  | (name, value) :: rest =>
    (quoteName name ++ ": " ++ documentAt depth value) :: fieldDocuments depth rest

end

def document (json : Json) : String := documentAt 0 json

mutual

def oneLine : Json -> String
  | .null => "None"
  | .bool true => "True"
  | .bool false => "False"
  | .int value => toString value
  | .fraction value => Fraction.written "nan" "inf" value
  | .string text => Text.quoted text
  | .ragged codes => Text.quotedCodes codes
  | .list items => "[" ++ String.intercalate ", " (oneLineItems items) ++ "]"
  | .object fields => "\x7b" ++ String.intercalate ", " (oneLineFields fields) ++ "\x7d"

def oneLineItems : List Json -> List String
  | [] => []
  | item :: rest => oneLine item :: oneLineItems rest

def oneLineFields : List (FieldName × Json) -> List String
  | [] => []
  | (name, value) :: rest => (quotedName name ++ ": " ++ oneLine value) :: oneLineFields rest

end

/-- A value inside a sentence: a text as it is, all else on a single line. -/
def shown : Json -> String
  | .string text => text
  | .ragged codes => Text.ofCodes codes
  | value => oneLine value

end Json
end WeakKleene
