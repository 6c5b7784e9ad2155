import WeakKleene.Json.Basic
import WeakKleene.Json.Token

namespace WeakKleene
namespace Json

/-!
Reading a JSON document.  Numbers may be of any length and values nested to any
depth: no bound of a machine is put on them.
-/

/-- What was read off the front of a list of tokens, and the tokens after it. -/
structure Front (α : Type) (tokens : List Token) where
  value : α
  rest : List Token
  shorter : rest.length < tokens.length

mutual

def readValue (tokens : List Token) : Option (Front Json tokens) :=
  match tokens with
  | .number value :: rest => some ⟨.int value, rest, Nat.lt_succ_self _⟩
  | .fraction value :: rest => some ⟨.fraction value, rest, Nat.lt_succ_self _⟩
  | .text codes :: rest => some ⟨.ofCodes codes, rest, Nat.lt_succ_self _⟩
  | .word name :: rest =>
    if name == "null".toList then some ⟨.null, rest, Nat.lt_succ_self _⟩
    else if name == "true".toList then some ⟨.bool true, rest, Nat.lt_succ_self _⟩
    else if name == "false".toList then some ⟨.bool false, rest, Nat.lt_succ_self _⟩
    else if name == "NaN".toList then
      some ⟨.fraction Fraction.undefined, rest, Nat.lt_succ_self _⟩
    else if name == "Infinity".toList then
      some ⟨.fraction Fraction.infinite, rest, Nat.lt_succ_self _⟩
    else none
  | .openBracket :: .closeBracket :: rest =>
    some ⟨.list [], rest, Nat.lt_succ_of_lt (Nat.lt_succ_self _)⟩
  | .openBracket :: rest => do
      let items <- readItems rest
      return ⟨.list items.value, items.rest, Nat.lt_succ_of_lt items.shorter⟩
  | .openBrace :: .closeBrace :: rest =>
    some ⟨.object [], rest, Nat.lt_succ_of_lt (Nat.lt_succ_self _)⟩
  | .openBrace :: rest => do
      let fields <- readFields [] rest
      return ⟨.object fields.value, fields.rest, Nat.lt_succ_of_lt fields.shorter⟩
  | _ => none
termination_by 2 * tokens.length

def readItems (tokens : List Token) : Option (Front (List Json) tokens) := do
  let first <- readValue tokens
  have := first.shorter
  match found : first.rest with
  | .comma :: rest => do
      have : rest.length < tokens.length := by
        simp only [found, List.length_cons] at this; omega
      let others <- readItems rest
      return ⟨first.value :: others.value, others.rest, by have := others.shorter; omega⟩
  | .closeBracket :: rest =>
    return ⟨[first.value], rest, by simp only [found, List.length_cons] at this; omega⟩
  | _ => none
termination_by 2 * tokens.length + 1

/-- The fields of an object up to its closing brace, after those read before.  A later field
replaces an earlier one of the same name. -/
def readFields (fields : List (FieldName × Json)) (tokens : List Token) :
    Option (Front (List (FieldName × Json)) tokens) :=
  match tokens with
  | .text name :: .colon :: start => do
      let first <- readValue start
      have := first.shorter
      let known := put (.ofCodes name) first.value fields
      match found : first.rest with
      | .comma :: rest => do
          have : rest.length < start.length := by
            simp only [found, List.length_cons] at this; omega
          let others <- readFields known rest
          return ⟨others.value, others.rest, by
            have := others.shorter
            simp only [List.length_cons]; omega⟩
      | .closeBrace :: rest =>
        return ⟨known, rest, by simp only [found, List.length_cons] at this ⊢; omega⟩
      | _ => none
  | _ => none
termination_by 2 * tokens.length + 1

end

def parse? (text : String) : Option Json := do
  let tokens <- scan text.toList
  let front <- readValue tokens
  if front.rest.isEmpty then return front.value else none

end Json
end WeakKleene
