import WeakKleene.Formula.Substitution
import WeakKleene.Json.Basic

namespace WeakKleene

/-!
Formulas as data, for exchange with other programs.

A term or formula is a list that starts with its kind.  A bilateral predicate
may leave out the name of its denial.
-/

namespace Term

def toJson : Term -> Json
  | const name => .list [.string "c", .string name]
  | var name => .list [.string "v", .string name]

def ofJson : Json -> Except Fault Term
  | .list [.string "c", .string name] => .ok (const name)
  | .list [.string "v", .string name] => .ok (var name)
  | _ => .error .wrongKind

end Term

namespace Formula

mutual

def toJson : Formula -> Json
  | atom name => .list [.string "atom", .string name]
  | pred name args => .list [.string "pred", .string name, .list (args.map Term.toJson)]
  | bilateral name args starName starred =>
    .list [.string "bi", .string name, .list (args.map Term.toJson), .string starName,
      .bool starred]
  | neg body => .list [.string "op", .string "~", toJson body]
  | join connective left right =>
    .list [.string "op", .string connective.symbol, toJson left, toJson right]
  | quant .all var restriction matrix =>
    .list [.string "forall", .string var, toJson restriction, toJson matrix]
  | quant .exist var restriction matrix =>
    .list [.string "exists", .string var, toJson restriction, toJson matrix]
  | quant (.other symbol) var restriction matrix =>
    .list [.string "quant", .string symbol, .string var, toJson restriction, toJson matrix]
  | irregular symbol parts => .list (.string "op" :: .string symbol :: partsToJson parts)

def partsToJson : List Formula -> List Json
  | [] => []
  | part :: rest => toJson part :: partsToJson rest

end

mutual

def ofJson : Json -> Except Fault Formula
  | .list [.string "atom", .string name] => named name
  | .list [.string "pred", .string name, .list args] => do
      return pred name (<- args.mapM Term.ofJson)
  | .list [.string "bi", .string name, .list args, starName, .bool starred] => do
      let args <- args.mapM Term.ofJson
      match starName with
      | .null | .string "" => return sided name args starred
      | .string starName => return bilateral name args starName starred
      | _ => .error .wrongKind
  | .list (.string "op" :: .string symbol :: parts) => do
      return compound symbol (<- partsOfJson parts)
  | .list [.string "forall", .string var, restriction, matrix] => do
      return quant .all var (<- ofJson restriction) (<- ofJson matrix)
  | .list [.string "exists", .string var, restriction, matrix] => do
      return quant .exist var (<- ofJson restriction) (<- ofJson matrix)
  | .list [.string "quant", .string symbol, .string var, restriction, matrix] => do
      return quant (.other symbol) var (<- ofJson restriction) (<- ofJson matrix)
  | _ => .error .wrongKind

def partsOfJson : List Json -> Except Fault (List Formula)
  | [] => .ok []
  | part :: rest => do
      let formula <- ofJson part
      return formula :: (<- partsOfJson rest)

end

end Formula
end WeakKleene
