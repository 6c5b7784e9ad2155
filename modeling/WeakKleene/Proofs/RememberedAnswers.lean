import WeakKleene.Evaluator.Consultation
import WeakKleene.Proofs.Readability

namespace WeakKleene
namespace Consultant

open Formula

/-!
# Remembered answers

A statement and its denial are asked about under one text and share one place in
a consultant's memory, whichever comes first.  The answer is stored as it stands
for the statement, and a denial turns it around after it was found or received.

So the memory cannot be noticed: in every row of questions each formula gets the
answer that the model has for it, as if nothing had been asked before.
-/

/-- The statement that an atomic formula affirms or denies.  A denial with the name that denials
have by default is written as its statement with a star, one with a name of its own stands for
itself. -/
def subject : Formula -> String
  | bilateral name args starName true =>
    if starName = starOf name then (pred name args).text else (pred starName args).text
  | formula => formula.text

def denies : Formula -> Bool
  | bilateral _ _ _ starred => starred
  | _ => false

/-- What a table of answers says about a formula by itself. -/
def verdict (table : String -> Option (Option Truth × Option Truth)) (formula : Formula) :
    Option Evidence :=
  if formula.isAtomic then
    match table (subject formula) with
    | none => none
    | some (affirmed, denied) =>
      if denies formula then some ⟨denied.getD .e, affirmed.getD .e⟩
      else some ⟨affirmed.getD .e, denied.getD .e⟩
  else none

variable {formula : Formula}

theorem filter_ne_star {cs : List Char} (free : '*' ∉ cs) : cs.filter (· != '*') = cs := by
  refine List.filter_eq_self.mpr fun c member => bne_iff_ne.mpr ?_
  rintro rfl
  exact free member

/-- Without its stars a denial reads as its statement, where that has none of its own. -/
theorem filter_application_starOf {name : String} {args : List Term}
    (clear : '*' ∉ (application name args).toList) :
    (application (starOf name) args).toList.filter (· != '*') =
      (application name args).toList := by
  rw [application_toList] at clear
  obtain ⟨inName, inArgs⟩ := not_or.mp (mt List.mem_append.mpr clear)
  rw [application_toList, application_toList, starOf, String.toList_append, List.append_assoc,
    List.filter_append, List.filter_append, filter_ne_star inName, filter_ne_star inArgs]
  rfl

theorem question_eq (clear : '*' ∉ (subject formula).toList) :
    question formula = (subject formula, denies formula) := by
  have unstarred : forall text : String, '*' ∉ text.toList ->
      String.ofList (text.toList.filter (· != '*')) = text := by
    intro text free
    rw [filter_ne_star free, String.ofList_toList]
  match formula with
  | bilateral name args starName false => exact congrArg (·, false) (unstarred _ clear)
  | bilateral name args starName true =>
    refine congrArg (·, true) ?_
    by_cases named : starName = starOf name
    · rw [subject, if_pos named] at clear ⊢
      subst named
      exact (congrArg String.ofList (filter_application_starOf clear)).trans String.ofList_toList
    · rw [subject, if_neg named] at clear ⊢
      exact unstarred _ clear
  | atom _ | pred .. | neg _ | join .. | quant .. | irregular .. => rfl

section

variable {consultant : Consultant} {memory : Memory}

/-- What is remembered of a statement is what the model says about it. -/
def Faithful (consultant : Consultant) (memory : Memory) : Prop :=
  forall statement evidence, memory.answers.lookup statement = some evidence ->
    consultant.answer statement = some evidence

theorem inquire_of_faithful (faithful : Faithful consultant memory) (statement : String) :
    (consultant.inquire memory statement).1 = consultant.answer statement ∧
      Faithful consultant (consultant.inquire memory statement).2 := by
  unfold inquire
  cases remembered : memory.answers.lookup statement with
  | some evidence => exact ⟨(faithful statement evidence remembered).symm, faithful⟩
  | none =>
    cases received : consultant.answer statement with
    | none => exact ⟨rfl, faithful⟩
    | some evidence =>
      refine ⟨rfl, fun other found looked => ?_⟩
      rw [List.lookup_cons] at looked
      split at looked
      · rename_i same
        rw [beq_iff_eq.mp same, received, <- looked]
      · exact faithful other found looked

variable {model : Option String} {table : String -> Option (Option Truth × Option Truth)}

/-- One question: the reply is the table's, whatever was asked before. -/
theorem consult_of_faithful (tabled : consultant.answer = (Endpoint.ofTable model table).answer)
    (faithful : Faithful consultant memory)
    (clear : formula.isAtomic = true -> '*' ∉ (subject formula).toList) :
    (consultant.consult memory formula).1 = verdict table formula ∧
      Faithful consultant (consultant.consult memory formula).2 := by
  unfold consult verdict
  by_cases atomic : formula.isAtomic = true
  · obtain ⟨reply, still⟩ := inquire_of_faithful faithful (subject formula)
    rw [if_pos atomic, if_pos atomic, question_eq (clear atomic)]
    refine ⟨?_, still⟩
    dsimp only
    rw [reply, tabled]
    dsimp only [Endpoint.ofTable]
    cases table (subject formula) <;> cases denies formula <;> rfl
  · rw [if_neg atomic, if_neg atomic]
    exact ⟨rfl, faithful⟩

/-- A row of questions: the memory that one question leaves serves the next. -/
theorem consultAll_of_faithful
    (tabled : consultant.answer = (Endpoint.ofTable model table).answer)
    (faithful : Faithful consultant memory) {formulas : List Formula}
    (clear : forall formula, formula ∈ formulas -> formula.isAtomic = true ->
      '*' ∉ (subject formula).toList) :
    (consultant.consultAll memory formulas).1 = formulas.map (verdict table) := by
  induction formulas generalizing memory with
  | nil => rfl
  | cons formula rest ih =>
    obtain ⟨reply, still⟩ := consult_of_faithful tabled faithful (clear formula List.mem_cons_self)
    rw [consultAll, List.map_cons, <- reply,
      <- ih still fun other member => clear other (List.mem_cons_of_mem _ member)]

end

/-- A predicate and its denial get one answer, seen from its two sides. -/
theorem verdict_sided (table : String -> Option (Option Truth × Option Truth)) (name : String)
    (args : List Term) (starred : Bool) :
    verdict table (sided name args !starred) =
      (verdict table (sided name args starred)).map Evidence.swap := by
  have statement : forall side, subject (sided name args side) = (pred name args).text
    | true => if_pos rfl
    | false => rfl
  unfold verdict
  rw [statement, statement]
  cases table (pred name args).text <;> cases starred <;> rfl

/-- A consultant for a model with a table replies by the table, in every row of questions.  A
predicate and its dual get replies that are each other's other side, wherever they stand in it. -/
theorem consultAll_eq_verdicts {service : Service} {provider : String}
    {model name : Option String} {table : String -> Option (Option Truth × Option Truth)}
    (reached : service.connect provider (requestedModel service provider model) =
      some (.ofTable name table)) :
    ∃ consultant, connect? (some service) provider model = some consultant ∧
      forall formulas : List Formula,
        (forall formula, formula ∈ formulas -> formula.isAtomic = true ->
          '*' ∉ (subject formula).toList) ->
        (consultant.consultAll .empty formulas).1 = formulas.map (verdict table) ∧
        forall (i j : Nat) predicate args starred dual,
          (sided predicate args starred).dual? = some dual ->
          formulas[i]? = some (sided predicate args starred) -> formulas[j]? = some dual ->
          ∃ reply : Option Evidence,
            (consultant.consultAll .empty formulas).1[i]? = some reply ∧
            (consultant.consultAll .empty formulas).1[j]? = some (reply.map Evidence.swap) := by
  let endpoint := Endpoint.ofTable name table
  let consultant : Consultant := ⟨⟨provider, modelName endpoint provider model⟩, endpoint.answer⟩
  have connected : connect? (some service) provider model = some consultant := by
    rw [connect?, Option.bind_eq_bind, Option.bind_some, reached]
    rfl
  have tabled : consultant.answer = (Endpoint.ofTable name table).answer := rfl
  have fresh : Faithful consultant .empty := by
    intro statement evidence looked
    cases looked
  refine ⟨consultant, connected, fun formulas clear => ?_⟩
  have replies : (consultant.consultAll .empty formulas).1 = formulas.map (verdict table) :=
    consultAll_of_faithful tabled fresh clear
  refine ⟨replies, fun i j predicate args starred dual isDual first second => ?_⟩
  obtain rfl : sided predicate args (!starred) = dual := Option.some.inj isDual
  refine ⟨verdict table (sided predicate args starred), ?_, ?_⟩
  · rw [replies, List.getElem?_map, first, Option.map_some]
  · rw [replies, List.getElem?_map, second, Option.map_some, verdict_sided]

/-- A model that affirms one statement, cannot say whether it denies it, and fails at another. -/
def hesitant : String -> Option (Option Truth × Option Truth)
  | "P(a)" => some (some .t, none)
  | "Q(a)" => none
  | _ => some (some .e, some .e)

/-- The denial is asked first, its statement twice afterwards, and the failure is met twice. -/
theorem replies_of_hesitant :
    ∃ consultant,
      connect? (some ⟨true, fun _ _ => some (.ofTable none hesitant)⟩) "mock" none =
        some consultant ∧
      (consultant.consultAll .empty [sided "P" [.const "a"] true, sided "P" [.const "a"] false,
        pred "Q" [.const "a"], pred "P" [.const "a"], sided "Q" [.const "a"] true,
        neg (pred "P" [.const "a"]), sided "P" [.const "a"] true]).1 =
      [some ⟨.e, .t⟩, some ⟨.t, .e⟩, none, some ⟨.t, .e⟩, none, none, some ⟨.e, .t⟩] := by
  obtain ⟨consultant, connected, replies⟩ := consultAll_eq_verdicts
    (rfl : (⟨true, fun _ _ => some (.ofTable none hesitant)⟩ : Service).connect "mock"
      (requestedModel _ "mock" none) = some (.ofTable none hesitant))
  exact ⟨consultant, connected, (replies _ (by decide +kernel)).1.trans (by decide +kernel)⟩

end Consultant
end WeakKleene
