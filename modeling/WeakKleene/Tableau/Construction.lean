import WeakKleene.Model
import WeakKleene.Tableau.Basic

namespace WeakKleene
namespace Tableau

/-!
Running a tableau to its end, and what its open branches say.

The branch that was opened first is expanded by the expansion that comes before
all others.  The run ends when no branch is open, when no open branch can be
expanded, when the first open branch cannot, or when a bound on the number of
expansions is reached.  Each branch that is open then gives a model.
-/

variable [Memory]

def pending (tableau : Tableau) (branch : Branch) : List Node :=
  (tableau.listed branch).filter fun node => !branch.processed.contains node.id

/-- Whether no pending node of an open branch has an expansion. -/
def complete (tableau : Tableau) : Except Fault Bool := do
  let unfinished <- (tableau.opened.filterMap tableau.branch?).anyM fun branch =>
    (tableau.pending branch).anyM fun node =>
      return (<- tableau.expansion? node branch).isSome
  return !unfinished

/-- The expansions of a branch's pending nodes, in order of the nodes. -/
def expansions (tableau : Tableau) (branch : Branch) : Except Fault (List (Nat × Expansion)) := do
  let found <- (tableau.pending branch).mapM fun node => do
    return (<- tableau.expansion? node branch).map fun expansion => (node.id, expansion)
  return found.filterMap id

/-- The first of the expansions that come before all others. -/
def preferred? : List (Nat × Expansion) -> Option (Nat × Expansion)
  | [] => none
  | first :: rest =>
    some (rest.foldl (fun best next => if next.2.before best.2 then next else best) first)

/-- The next expansion of a run: the branch, the node, and what to conclude. -/
def next? (tableau : Tableau) : Except Fault (Option (Nat × Nat × Expansion)) := do
  if <- tableau.complete then return none
  match tableau.opened.head?.bind tableau.branch? with
  | none => return none
  | some branch =>
    return (preferred? (<- tableau.expansions branch)).map fun (node, expansion) =>
      (branch.id, node, expansion)

/-- One expansion of a run, or nothing if the run is over. -/
def step? (tableau : Tableau) : Except Fault (Option Tableau) := do
  return (<- tableau.next?).map fun (branch, node, expansion) =>
    tableau.apply node branch expansion

/-- Run for at most the given number of expansions, up to a fault if there is one. -/
def run : Nat -> Tableau -> Tableau × Option Fault
  | 0, tableau =>
    match tableau.complete with
    | .ok _ => (tableau, none)
    | .error fault => (tableau, some fault)
  | bound + 1, tableau =>
    match tableau.step? with
    | .ok (some advanced) => run bound advanced
    | .ok none => (tableau, none)
    | .error fault => (tableau, some fault)

/-- The number of expansions after which a run is given up. -/
def stepBound : Nat := 1000

/-- Run to the end or to the bound, unless there is a fault on the way. -/
def construct (tableau : Tableau) : Except Fault Tableau :=
  match tableau.run stepBound with
  | (finished, none) => .ok finished
  | (_, some fault) => .error fault

/-- The value that a branch gives to an atom.  A definite sign on the branch decides; m is read
as true, n as false, and without any sign the atom is undefined. -/
def valueOn (branch : Branch) (atom : String) : Truth :=
  let signed := fun sign => (branch.find? atom sign).isSome
  if signed .t then .t
  else if signed .f then .f
  else if signed .e then .e
  else if signed .m then .t
  else if signed .n then .f
  else .e

/-- The model of a branch: values for all ground atoms in its formulas. -/
def modelOf (tableau : Tableau) (branch : Branch) : Model :=
  let atoms := Sorted.ofList ((tableau.nodesOn branch).flatMap fun node =>
    node.signed.formula.groundAtoms)
  ⟨atoms.map fun atom => (atom, valueOn branch atom), []⟩

def models (tableau : Tableau) : List Model :=
  (tableau.opened.filterMap tableau.branch?).map tableau.modelOf

/-- Whether a branch is open. -/
def satisfiable (tableau : Tableau) : Bool := !tableau.models.isEmpty

/-- The names of predicates and of their denials, each mapped to the other, in order of first
occurrence in the initial formulas. -/
def bilateralNames (formulas : List Signed) : List (String × String) :=
  (formulas.flatMap fun signed => baseNames signed.formula).foldl (fun pairs name =>
    put (Formula.starOf name) name (put name (Formula.starOf name) pairs)) []
where
  /-- Set the partner of a name, in place if the name has one. -/
  put (name partner : String) (pairs : List (String × String)) : List (String × String) :=
    if pairs.any fun pair => pair.1 == name then
      pairs.map fun pair => if pair.1 == name then (name, partner) else pair
    else pairs ++ [(name, partner)]
  /-- The base names of all bilateral predicates in a formula. -/
  baseNames : Formula -> List String
    | .bilateral name .. => [name]
    | .neg body => baseNames body
    | .join _ left right => baseNames left ++ baseNames right
    | .quant _ _ restriction matrix => baseNames restriction ++ baseNames matrix
    | .irregular _ parts => baseNamesOf parts
    | _ => []
  baseNamesOf : List Formula -> List String
    | [] => []
    | part :: rest => baseNames part ++ baseNamesOf rest

end Tableau
end WeakKleene
