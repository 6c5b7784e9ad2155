import WeakKleene.Sign

namespace WeakKleene

/-!
Rules of the tableau calculi, as instances: what is concluded from one signed
formula.
-/

/-- An instance of a rule.  Each conclusion is a set of signed formulas, and one of the
conclusions holds if the premise does.  A universal rule records the constant it was
instantiated with. -/
structure Rule where
  name : String
  premise : Signed
  conclusions : List (List Signed)
  constant : Option String

namespace Rule

def branching (rule : Rule) : Bool := rule.conclusions.length > 1

def named (premise : Signed) (kind : String) (conclusions : List (List Signed))
    (constant : Option String) : Rule where
  name := premise.sign.letter ++ "-" ++ kind
  premise := premise
  conclusions := conclusions
  constant := constant

end Rule

/-- What a rule may use from the branch it is applied to: the constants that occur there, in the
order in which they are listed, those already used for the premise if that is recorded, and a name
for a new one. -/
structure Situation where
  existing : List String
  used : Option (List String)
  fresh : String

namespace Situation

/-- The constant to instantiate a universal formula with: the first one not used yet, or a new
one if there are none at all. -/
def universalConstant? (situation : Situation) : Option String :=
  match situation.existing, situation.used with
  | [], _ => some situation.fresh
  | first :: _, none => some first
  | existing, some used => existing.find? fun name => !used.contains name

/-- A universal formula is instantiated with a constant that occurs and was not used yet, or with
a new one if no constant occurs. -/
theorem universalConstant?_eq_some {situation : Situation} {name : String}
    (chosen : situation.universalConstant? = some name) :
    (situation.existing = [] ∧ name = situation.fresh) ∨
      (name ∈ situation.existing ∧ forall used, situation.used = some used -> name ∉ used) := by
  rcases situation with ⟨existing, used, fresh⟩
  cases existing with
  | nil => exact .inl ⟨rfl, (Option.some.inj chosen).symm⟩
  | cons first rest =>
    cases used with
    | none =>
      rw [<- Option.some.inj chosen]
      exact .inr ⟨List.mem_cons_self, fun _ impossible => by cases impossible⟩
    | some used =>
      have found : (first :: rest).find? (fun name => !used.contains name) = some name := chosen
      have unused := List.find?_some found
      rw [Bool.not_eq_true', List.contains_eq_mem, decide_eq_false_iff_not] at unused
      refine .inr ⟨List.mem_of_find?_eq_some found, fun _ same => ?_⟩
      rwa [<- Option.some.inj same]

def anyUsed (situation : Situation) : Bool :=
  match situation.used with
  | some (_ :: _) => true
  | _ => false

end Situation

def firstPart : List Formula -> Except Fault Formula
  | first :: _ => .ok first
  | [] => .error .missingPart

def firstTwoParts : List Formula -> Except Fault (Formula × Formula)
  | first :: second :: _ => .ok (first, second)
  | _ => .error .missingPart

end WeakKleene
