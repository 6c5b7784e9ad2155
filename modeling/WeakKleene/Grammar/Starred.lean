import WeakKleene.Grammar.Mode
import WeakKleene.Grammar.Plain

namespace WeakKleene
namespace Grammar

/-!
Reading formulas with starred predicates.

Every predicate becomes a bilateral one.  A token that starts with an upper-case
letter is a predicate, one that starts with a lower-case letter an atom, and a
token with a star in it a starred predicate.  A negation directly in front of
a predicate is absorbed into its star.  Restrictions are read as plain formulas
and made bilateral afterwards, together with what the quantifier governs.
-/

/-- The kind of an argument is decided by its first letter, which must be there. -/
def sidedArgument (name : List Char) : Except Fault Term :=
  match name with
  | [] => .error .blankArgument
  | c :: _ =>
    if Text.isUpperChar c then .ok (.var (String.ofList name))
    else .ok (.const (String.ofList name))

def sidedArguments (args : List Char) : Except Fault (List Term) :=
  if args.isEmpty then .ok []
  else (commaPieces args).mapM fun piece => sidedArgument (Text.trim piece)

def trimParens (text : List Char) : List Char :=
  let isParen := fun c => c == '(' || c == ')'
  (((text.dropWhile isParen).reverse).dropWhile isParen).reverse

/-- Name and arguments of a token read as a predicate, its star counting as part of the name. -/
def predicateParts? : Token -> Option (List Char × List Char)
  | .word name => some (name, [])
  | .applied name args => some (name, args)
  | .starred name args => some (name ++ ['*'], args.getD [])
  | _ => none

/-- Name and arguments of a token with a star in it: what stands before the first star, and what
follows it without the parentheses at its ends. -/
def starredParts? : Token -> Option (List Char × List Char)
  | .starred name args => some (name, trimParens (args.getD []))
  | .applied name args =>
    if args.contains '*' then
      let (front, back) := args.span (· != '*')
      some (name ++ '(' :: front, trimParens (back.drop 1))
    else none
  | _ => none

/-- A token that starts with an upper-case letter, as name and arguments. -/
def predicateToken? (token : Token) : Option (List Char × List Char) :=
  if Text.startsUpper token.source then predicateParts? token else none

mutual

/-- Every predicate replaced by the bilateral one, a negated predicate by its denial. -/
def makeBilateral (mode : Mode) : Formula -> Except ParseError Formula
  | .pred name args => .ok (.sided name args false)
  | .neg (.pred name args) => negatedPredicate name args
  | .neg (.bilateral name args starName starred) =>
    negatedPredicate (if starred then starName else name) args
  | .neg body => return .neg (<- makeBilateral mode body)
  | .join connective left right =>
    return .join connective (<- makeBilateral mode left) (<- makeBilateral mode right)
  | .quant .all var restriction matrix =>
    return .quant .all var (<- makeBilateral mode restriction) (<- makeBilateral mode matrix)
  | .quant .exist var restriction matrix =>
    return .quant .exist var (<- makeBilateral mode restriction) (<- makeBilateral mode matrix)
  | .irregular symbol parts => return .irregular symbol (<- makeAllBilateral mode parts)
  | formula => .ok formula
where
  /-- A negated predicate becomes its denial where the mode allows the negation. -/
  negatedPredicate (name : String) (args : List Term) : Except ParseError Formula :=
    if mode.allowsNegatedPredicate then mode.denial name args
    else .error (mode.refusal ("~" ++ name))

def makeAllBilateral (mode : Mode) : List Formula -> Except ParseError (List Formula)
  | [] => .ok []
  | part :: rest => return (<- makeBilateral mode part) :: (<- makeAllBilateral mode rest)

end

def asFault {α : Type} (result : Except ParseError α) : Except Fault α := result.mapError .parse

section Descent

variable (mode : Mode)

mutual

/-- Arrows group to the right. -/
def sidedImplication (tokens : List Token) : Except Fault (Taken tokens) := do
  let left <- sidedDisjunction tokens
  have := left.shorter
  match found : left.rest with
  | .mark .implies _ :: rest => do
      have : rest.length < tokens.length := by
        simp only [found, List.length_cons] at this; omega
      let right <- sidedImplication rest
      return ⟨.join .imp left.formula right.formula, right.rest, Nat.lt_trans right.shorter this⟩
  | rest => return ⟨left.formula, rest, by rw [<- found]; exact this⟩
termination_by 8 * tokens.length + 6

def sidedDisjunction (tokens : List Token) : Except Fault (Taken tokens) := do
  let first <- sidedConjunction tokens
  have := first.shorter
  let all <- extendSidedDisjunction first.formula first.rest
  return ⟨all.formula, all.rest, Nat.lt_of_le_of_lt all.notLonger first.shorter⟩
termination_by 8 * tokens.length + 5

/-- The further disjuncts after a first one. -/
def extendSidedDisjunction (left : Formula) (tokens : List Token) :
    Except Fault (Extended tokens) :=
  match tokens with
  | .mark .or _ :: rest => do
      let next <- sidedConjunction rest
      have := next.shorter
      let all <- extendSidedDisjunction (.join .disj left next.formula) next.rest
      return ⟨all.formula, all.rest,
        Nat.le_succ_of_le (Nat.le_trans all.notLonger (Nat.le_of_lt next.shorter))⟩
  | tokens => return ⟨left, tokens, Nat.le_refl _⟩
termination_by 8 * tokens.length + 7

def sidedConjunction (tokens : List Token) : Except Fault (Taken tokens) := do
  let first <- sidedNegation tokens
  have := first.shorter
  let all <- extendSidedConjunction first.formula first.rest
  return ⟨all.formula, all.rest, Nat.lt_of_le_of_lt all.notLonger first.shorter⟩
termination_by 8 * tokens.length + 4

def extendSidedConjunction (left : Formula) (tokens : List Token) :
    Except Fault (Extended tokens) :=
  match tokens with
  | .mark .and _ :: rest => do
      let next <- sidedNegation rest
      have := next.shorter
      let all <- extendSidedConjunction (.join .conj left next.formula) next.rest
      return ⟨all.formula, all.rest,
        Nat.le_succ_of_le (Nat.le_trans all.notLonger (Nat.le_of_lt next.shorter))⟩
  | tokens => return ⟨left, tokens, Nat.le_refl _⟩
termination_by 8 * tokens.length + 7

/-- A negation; directly in front of a predicate it makes the predicate's denial. -/
def sidedNegation (tokens : List Token) : Except Fault (Taken tokens) :=
  match tokens with
  | .mark .not _ :: rest =>
    match rest, rest.head?.bind predicateToken? with
    | _ :: rest, some (name, args) => do
        let terms <- sidedArguments args
        let name := String.ofList name
        let denied <- asFault <| if mode.allowsNegatedPredicate then mode.denial name terms
          else .error (mode.refusal ("¬" ++ name))
        return ⟨denied, rest, Nat.lt_succ_of_lt (Nat.lt_succ_self _)⟩
    | rest, _ => do
        let body <- sidedNegation rest
        return ⟨.neg body.formula, body.rest, Nat.lt_succ_of_lt body.shorter⟩
  | tokens => sidedAtomic tokens
termination_by 8 * tokens.length + 3

def sidedAtomic (tokens : List Token) : Except Fault (Taken tokens) :=
  match tokens with
  | [] => .error (.parse .unexpectedEnd)
  | .mark .openParen _ :: rest => do
      let inside <- sidedImplication rest
      have := inside.shorter
      match found : inside.rest with
      | .mark .closeParen _ :: rest =>
        return ⟨inside.formula, rest, by
          simp only [found, List.length_cons] at this ⊢; omega⟩
      | rest => .error (.parse (.expectedClosing (rest.head?.map Token.text)))
  | .quantifier quantifier var scope _ :: rest => do
      let condition <- asFault (readRestriction scope {})
      let matrix <- sidedNegation rest
      let condition <- asFault (makeBilateral mode condition)
      let governed <- asFault (makeBilateral mode matrix.formula)
      return ⟨.quant quantifier (String.ofList var) condition governed, matrix.rest,
        Nat.lt_succ_of_lt matrix.shorter⟩
  | token :: rest =>
    match starredParts? token, predicateToken? token with
    | some (name, args), _ => do
        if !mode.allowsStar then
          .error (.parse (mode.refusal (String.ofList (name ++ ['*']))))
        let terms <- sidedArguments args
        return ⟨.sided (String.ofList name) terms true, rest, Nat.lt_succ_self _⟩
    | none, some (name, args) => do
        let terms <- sidedArguments args
        return ⟨.sided (String.ofList name) terms false, rest, Nat.lt_succ_self _⟩
    | none, none =>
      if Text.startsLower token.source then return ⟨.atom token.text, rest, Nat.lt_succ_self _⟩
      else .error (.parse (.unexpectedToken token.text))
termination_by 8 * tokens.length + 2

end

def readSided (text : List Char) : Except Fault Formula := do
  let tokens <- asFault (scan .starred text)
  if tokens.isEmpty then .error (.parse .emptyFormula)
  let whole <- sidedImplication mode tokens
  match whole.rest with
  | [] => return whole.formula
  | token :: _ => .error (.parse (.unexpectedToken token.text))

end Descent

mutual

/-- A plain formula's predicates made bilateral, outside of quantifiers only. -/
def sideOutside : Formula -> Formula
  | .pred name args => .sided name args false
  | .bilateral name args starName starred => .sided (if starred then starName else name) args false
  | .neg (.pred name args) => .sided name args true
  | .neg (.bilateral name args starName starred) =>
    .sided (if starred then starName else name) args true
  | .neg body => .neg (sideOutside body)
  | .join connective left right => .join connective (sideOutside left) (sideOutside right)
  | .irregular symbol parts => .irregular symbol (sideAllOutside parts)
  | formula => formula

def sideAllOutside : List Formula -> List Formula
  | [] => []
  | part :: rest => sideOutside part :: sideAllOutside rest

end

end Grammar
end WeakKleene
