import WeakKleene.CommandLine.Prover
import WeakKleene.Proofs.SidedReading

namespace WeakKleene
namespace CommandLine

/-!
# What a reported verdict over bilateral predicates means

The command line tests an inference over bilateral predicates by a tableau with
true premises and a false conclusion.  A closed tableau refutes the falsity of the
conclusion and says nothing about its being undefined.  So the conclusion of an
inference that is reported as valid is true just where it is defined, for all
valuations that make the premises true and do not tell a predicate from the
denial of its denial.
-/

/-- What a response says about an inference: the field of a record, or the line below the
premises and the conclusion. -/
def Announces (request : Request) (premises : List Formula) (conclusion : Formula) (valid : Bool)
    (response : Response) : Prop :=
  if request.json then
    ∃ more, response.lines = [(Json.record ([
      ("type", .string "acrq_inference"),
      ("premises", .texts (premises.map Formula.text)),
      ("conclusion", .string conclusion.text),
      ("valid", .bool valid)] ++ more)).document]
  else
    response.lines[3]? = some (if valid then "  ✓ Valid inference" else "  ✗ Invalid inference")

/-- What is asked for by an input and the mode alone. -/
def bilateralRequest (input : String) : Request :=
  .ofGiven ⟨[("--mode", some "acrq")], none, none⟩ input

theorem requestedMode_bilateralRequest (input : String) :
    requestedMode (bilateralRequest input) = .ok .transparent :=
  rfl

theorem withTurnstile_bilateralRequest (input : String) :
    withTurnstile (bilateralRequest input).input (bilateralRequest input).inference = .ok input :=
  rfl

section Verdict

variable {request : Request} {mode : Grammar.Mode} {text : String} {premises : List Formula}
  {conclusion : Formula}

theorem readSidedInference_readable
    (read : readSidedInference mode text = .ok (premises, conclusion))
    (free : forall formula, formula ∈ premises ++ [conclusion] -> formula.QuantifierFree) :
    forall formula, formula ∈ premises ++ [conclusion] -> formula.Readable := by
  unfold readSidedInference at read
  split at read
  · rcases Tableau.exists_of_bind_eq_ok read with ⟨readPremises, atPremises, read⟩
    rcases Tableau.exists_of_bind_eq_ok read with ⟨readConclusion, atConclusion, done⟩
    cases done
    intro formula member
    have isFree := free formula member
    rcases List.mem_append.mp member with premise | last
    · rcases (Tableau.mem_of_mapM atPremises).1 formula premise with ⟨piece, _, parsed⟩
      exact Grammar.readSided_readable parsed isFree
    · rw [List.mem_singleton.mp last] at isFree ⊢
      exact Grammar.readSided_readable atConclusion isFree
  · cases read

/-- What the answer says depends on the finished tableau only. -/
theorem answerSidedInference_announces [Memory] {tableau : Tableau}
    (way : requestedMode request = .ok mode)
    (given : withTurnstile request.input request.inference = .ok text)
    (read : readSidedInference mode text = .ok (premises, conclusion))
    (finished : Tableau.ofFormulas (.bilateral none)
      (premises.map (Signed.mk .t) ++ [⟨.f, conclusion⟩]) false = .ok tableau) :
    ∃ response, answerSidedInference request = .ok response ∧
      Announces request premises conclusion (!tableau.satisfiable) response := by
  simp only [answerSidedInference, way, given, read, finished, bind, Except.bind]
  cases json : request.json with
  | true =>
    refine ⟨_, rfl, ?_⟩
    rw [Announces, if_pos json]
    exact ⟨("syntax_mode", .string mode.name) :: _, rfl⟩
  | false =>
    refine ⟨_, rfl, ?_⟩
    rw [Announces, json]
    cases tableau.satisfiable <;> rfl

/-- The formulas of a test are the premises and the conclusion, under definite signs. -/
theorem mem_test {signed : Signed}
    (member : signed ∈ premises.map (Signed.mk .t) ++ [⟨.f, conclusion⟩]) :
    (signed.formula ∈ premises ∧ signed.sign = .t) ∨ signed = ⟨.f, conclusion⟩ := by
  rcases List.mem_append.mp member with premise | last
  · rcases List.mem_map.mp premise with ⟨formula, inside, rfl⟩
    exact .inl ⟨inside, rfl⟩
  · exact .inr (List.mem_singleton.mp last)

theorem formula_of_mem_test {signed : Signed}
    (member : signed ∈ premises.map (Signed.mk .t) ++ [⟨.f, conclusion⟩]) :
    signed.formula ∈ premises ++ [conclusion] := by
  rcases mem_test member with ⟨premise, _⟩ | rfl
  · exact List.mem_append_left _ premise
  · exact List.mem_append_right _ List.mem_cons_self

/-- A closed test refutes that the conclusion is false where the premises are true. -/
theorem conclusion_not_false [Memory] {tableau : Tableau} {valuation : String -> Truth}
    (reachable : Tableau.Reachable (.bilateral none)
      (premises.map (Signed.mk .t) ++ [⟨.f, conclusion⟩]) tableau)
    (closed : tableau.satisfiable = false)
    (readable : forall formula, formula ∈ premises ++ [conclusion] -> formula.Readable)
    (cancels : forall formula, formula ∈ premises ++ [conclusion] ->
      formula.Cancels valuation false)
    (allTrue : forall premise, premise ∈ premises ->
      ∃ form, premise.bilateralForm = .ok form ∧ form.value valuation = .t) :
    ∃ form, conclusion.bilateralForm = .ok form ∧ form.value valuation ≠ .f := by
  have definite : forall signed, signed ∈ premises.map (Signed.mk .t) ++ [⟨.f, conclusion⟩] ->
      signed.sign.definite = true := by
    intro signed member
    rcases mem_test member with ⟨_, sign⟩ | rfl
    · rw [sign]
      rfl
    · rfl
  rcases reachable.exists_unbacked closed definite
    (fun signed member => readable signed.formula (formula_of_mem_test member))
    (fun signed member => cancels signed.formula (formula_of_mem_test member)) with
      ⟨signed, member, form, found, differs⟩
  rcases mem_test member with ⟨premise, sign⟩ | rfl
  · -- A premise has the value that its sign names, so it is not what fails.
    rcases allTrue signed.formula premise with ⟨form', found', isTrue⟩
    rw [found'] at found
    rw [<- Except.ok.inj found, isTrue, sign] at differs
    exact absurd rfl differs
  · refine ⟨form, found, ?_⟩
    intro isFalse
    rw [isFalse] at differs
    exact differs rfl

/-- An inference over bilateral predicates without quantifiers is answered.  If it is reported as
valid, then a valuation that makes the bilateral forms of all premises true makes that of the
conclusion true just when it is defined, provided that predicates and the denials of their
denials have the same values. -/
theorem announced_conclusion_true_iff_defined [Memory] (request : Request)
    (way : requestedMode request = .ok mode)
    (given : withTurnstile request.input request.inference = .ok text)
    (read : readSidedInference mode text = .ok (premises, conclusion))
    (free : forall formula, formula ∈ premises ++ [conclusion] -> formula.QuantifierFree) :
    ∃ response valid, answerSidedInference request = .ok response ∧
      Announces request premises conclusion valid response ∧
      (valid = true -> forall valuation : String -> Truth,
        (forall formula, formula ∈ premises ++ [conclusion] -> formula.Cancels valuation false) ->
        (forall premise, premise ∈ premises ->
          ∃ form, premise.bilateralForm = .ok form ∧ form.value valuation = .t) ->
        ∃ form, conclusion.bilateralForm = .ok form ∧
          (form.value valuation = .t ↔ form.value valuation ≠ .e)) := by
  have readable := readSidedInference_readable read free
  have freeTest : forall signed, signed ∈ premises.map (Signed.mk .t) ++ [⟨.f, conclusion⟩] ->
      signed.formula.QuantifierFree := fun signed member =>
    free signed.formula (formula_of_mem_test member)
  rcases Tableau.exists_ofFormulas_bilateral false (by simp) freeTest with
    ⟨tableau, finished, reachable⟩
  rcases answerSidedInference_announces way given read finished with ⟨response, said, announced⟩
  refine ⟨response, !tableau.satisfiable, said, announced, ?_⟩
  intro valid valuation cancels allTrue
  have closed : tableau.satisfiable = false := by simpa using valid
  rcases conclusion_not_false reachable closed readable cancels allTrue with ⟨form, found, notFalse⟩
  refine ⟨form, found, ?_⟩
  cases value : form.value valuation with
  | t => simp
  | e => simp
  | f => exact absurd value notFalse

open scoped Memory

/-- From the denial of a disjunction the denial of a part follows. -/
theorem announced_denied_disjunction :
    answerSidedInference (bilateralRequest "~(P(a) | Q(a)) |- ~Q(a)") =
      .ok ⟨["ACrQ Inference (transparent mode):", "  Premises: ~(P(a) | Q(a))",
        "  Conclusion: Q*(a)", "  ✓ Valid inference"], none⟩ ∧
    forall valuation : String -> Truth, valuation "P*(a)" = .t -> valuation "Q*(a)" = .t ->
      ∃ form, (Formula.sided "Q" [.const "a"] true).bilateralForm = .ok form ∧
        (form.value valuation = .t ↔ form.value valuation ≠ .e) := by
  have read : readSidedInference .transparent "~(P(a) | Q(a)) |- ~Q(a)" =
      .ok ([.neg (.join .disj (.sided "P" [.const "a"] false) (.sided "Q" [.const "a"] false))],
        .sided "Q" [.const "a"] true) := by
    with_unfolding_all rfl
  have answered : answerSidedInference (bilateralRequest "~(P(a) | Q(a)) |- ~Q(a)") =
      .ok ⟨["ACrQ Inference (transparent mode):", "  Premises: ~(P(a) | Q(a))",
        "  Conclusion: Q*(a)", "  ✓ Valid inference"], none⟩ := by
    simp only [answerSidedInference, requestedMode_bilateralRequest,
      withTurnstile_bilateralRequest, read, bind, Except.bind]
    rfl
  refine ⟨answered, ?_⟩
  intro valuation first second
  rcases announced_conclusion_true_iff_defined (bilateralRequest "~(P(a) | Q(a)) |- ~Q(a)")
    (requestedMode_bilateralRequest _) (withTurnstile_bilateralRequest _) read
    (by
      simp only [List.cons_append, List.nil_append, List.mem_cons, List.not_mem_nil, or_false]
      rintro formula (rfl | rfl)
      · exact .neg (.join .disj (.basic rfl) (.basic rfl))
      · exact .basic rfl) with ⟨response, valid, said, announced, preserved⟩
  rw [answered] at said
  rw [<- Except.ok.inj said] at announced
  have isValid : valid = true := by
    cases valid with
    | true => rfl
    | false => exact absurd (Option.some.inj announced) (by decide)
  apply preserved isValid valuation
  · simp only [List.cons_append, List.nil_append, List.mem_cons, List.not_mem_nil, or_false]
    rintro formula (rfl | rfl)
    · exact ⟨True.intro, True.intro⟩
    · exact True.intro
  · intro premise member
    rw [List.mem_singleton.mp member]
    have values : (Formula.join .conj (.sided "P" [.const "a"] true)
        (.sided "Q" [.const "a"] true)).value valuation =
          Truth.conj (valuation "P*(a)") (valuation "Q*(a)") := rfl
    refine ⟨_, rfl, values.trans ?_⟩
    rw [first, second]
    rfl

/-- A disjunction with an undefined part is reported to follow from its other part, and a
predicate from the denial of its denial, which has a value of its own. -/
theorem announced_conclusion_undefined :
    (answerSidedInference (bilateralRequest "P(a) |- P(a) | Q(a)") =
        .ok ⟨["ACrQ Inference (transparent mode):", "  Premises: P(a)",
          "  Conclusion: P(a) | Q(a)", "  ✓ Valid inference"], none⟩ ∧
      readSidedInference .transparent "P(a) |- P(a) | Q(a)" = .ok ([.sided "P" [.const "a"] false],
          .join .disj (.sided "P" [.const "a"] false) (.sided "Q" [.const "a"] false)) ∧
      ∃ valuation : String -> Truth, (Formula.sided "P" [.const "a"] false).value valuation = .t ∧
        (Formula.join .disj (.sided "P" [.const "a"] false)
          (.sided "Q" [.const "a"] false)).value valuation = .e) ∧
    (answerSidedInference (bilateralRequest "~~P(a) |- P(a)") =
        .ok ⟨["ACrQ Inference (transparent mode):", "  Premises: ~P*(a)",
          "  Conclusion: P(a)", "  ✓ Valid inference"], none⟩ ∧
      readSidedInference .transparent "~~P(a) |- P(a)" =
        .ok ([.neg (.sided "P" [.const "a"] true)], .sided "P" [.const "a"] false) ∧
      ∃ (valuation : String -> Truth) (form : Formula),
        (Formula.neg (.sided "P" [.const "a"] true)).bilateralForm = .ok form ∧
        form.value valuation = .t ∧
        (Formula.sided "P" [.const "a"] false).value valuation = .f) := by
  have readPart : readSidedInference .transparent "P(a) |- P(a) | Q(a)" =
      .ok ([.sided "P" [.const "a"] false],
        .join .disj (.sided "P" [.const "a"] false) (.sided "Q" [.const "a"] false)) := by
    with_unfolding_all rfl
  have readDouble : readSidedInference .transparent "~~P(a) |- P(a)" =
      .ok ([.neg (.sided "P" [.const "a"] true)], .sided "P" [.const "a"] false) := by
    with_unfolding_all rfl
  refine ⟨⟨?_, readPart, fun atom => if atom = "P(a)" then .t else .e, by decide, by decide⟩,
    ?_, readDouble, fun atom => if atom = "P(a)" then .f else .t, _, rfl, by decide, by decide⟩
  · simp only [answerSidedInference, requestedMode_bilateralRequest,
      withTurnstile_bilateralRequest, readPart, bind, Except.bind]
    rfl
  · simp only [answerSidedInference, requestedMode_bilateralRequest,
      withTurnstile_bilateralRequest, readDouble, bind, Except.bind]
    rfl

end Verdict
end CommandLine
end WeakKleene
