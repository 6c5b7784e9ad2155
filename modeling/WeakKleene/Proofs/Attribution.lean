import WeakKleene.Proofs.Affirmation
import WeakKleene.Proofs.DeniedAtoms
import WeakKleene.Proofs.Instances

namespace WeakKleene

/-!
# Where stored evidence comes from

A check with an adviser stores every denial on a node of its tableau as the
adviser's evidence, on whatever branch and under whatever sign the node stands.
So a denial is not always the adviser's.  It comes from one of three sources:
the adviser's answer is evidence against the predicate, the answer is that there
is no evidence on either side, or a statement of the theory denies the
predicate already.
-/

open Formula

/-! ## The adviser's part -/

variable {adviser : Adviser} {tableau : Tableau}

namespace Adviser

def Answers (adviser : Adviser) (asked : Formula) (evidence : Evidence) : Prop :=
  (adviser.evaluator asked).evidence? = some evidence

/-- The adviser finds evidence against the predicate that is denied, or for its denial. -/
def Justifies (adviser : Adviser) (denial : Denial) : Prop :=
  (∃ asked evidence, Expansion.denialOf? asked = some denial.formula ∧
    adviser.Answers asked evidence ∧ evidence.negative = .t) ∨
  ∃ evidence, adviser.Answers denial.formula evidence ∧ evidence.positive = .t

/-- The adviser finds no evidence about the predicate that is denied, neither for nor against. -/
def LeavesOpen (adviser : Adviser) (denial : Denial) : Prop :=
  ∃ asked, Expansion.denialOf? asked = some denial.formula ∧ adviser.Answers asked ⟨.f, .f⟩

/-- What an answer makes of a formula: its denial, if there is evidence against it or none at
all. -/
def Tells (adviser : Adviser) (formula : Formula) : Prop :=
  ∃ asked evidence, Expansion.denialOf? asked = some formula ∧ adviser.Answers asked evidence ∧
    (evidence.negative = .t ∨ evidence = ⟨.f, .f⟩)

theorem Tells.isAtomic {formula : Formula} (tells : adviser.Tells formula) :
    formula.isAtomic = true := by
  rcases tells with ⟨asked, _, denial, _⟩
  cases asked with
  | pred | bilateral =>
    cases denial
    rfl
  | _ => cases denial

theorem Tells.justifies_or_leavesOpen {denial : Denial} (tells : adviser.Tells denial.formula) :
    adviser.Justifies denial ∨ adviser.LeavesOpen denial := by
  rcases tells with ⟨asked, evidence, denied, answers, against | rfl⟩
  · exact .inl (.inl ⟨asked, evidence, denied, answers, against⟩)
  · exact .inr ⟨asked, denied, answers⟩

def silent : Adviser := ⟨fun _ => .silent, none⟩

/-- An adviser who finds no evidence on either side of anything. -/
def undecided : Adviser := ⟨fun _ => .evidence ⟨.f, .f⟩, none⟩

/-- An adviser who finds evidence against one predicate, written as given. -/
def objecting (predicate : String) : Adviser where
  evaluator := fun formula => if formula.text = predicate then .evidence ⟨.f, .t⟩ else .silent
  info := none

end Adviser

namespace Tableau

theorem mem_of_byEvaluation? {formula : Formula} {expansion : Expansion}
    (found : Expansion.byEvaluation? (some adviser.evaluator) formula = some expansion)
    {conclusion : List Signed} (chosen : conclusion ∈ expansion.conclusions) {part : Signed}
    (listed : part ∈ conclusion) : part.formula = formula ∨ adviser.Tells part.formula := by
  rcases byEvaluation?_eq_some found with ⟨_, evidence, same, _, answered, conclusions⟩
  cases same
  rw [conclusions] at chosen
  rw [List.mem_singleton.mp chosen] at listed
  exact (mem_evidenceConclusion listed).imp_right fun told =>
    ⟨formula, evidence, told.1, answered, told.2⟩

/-- What the formulas of a list deny already, or an adviser tells. -/
def Sourced (adviser : Adviser) (formulas : List Signed) (signed : Signed) : Prop :=
  (∃ origin, origin ∈ formulas ∧ DeniesWithin origin.formula signed.formula) ∨
    adviser.Tells signed.formula

/-- No expansion leads to a denial from elsewhere. -/
theorem closed_sourced [Memory] (adviser : Adviser) (formulas : List Signed) :
    Closed (.bilateral (some adviser.evaluator)) (Sourced adviser formulas) := by
  intro tableau node found expansion sided sourced proposed conclusion chosen part listed
  have evaluated (answered : Expansion.byEvaluation? (some adviser.evaluator) node.signed.formula =
      some expansion) : Sourced adviser formulas part := by
    rcases mem_of_byEvaluation? answered chosen listed with same | told
    · rw [Sourced, same]
      exact sourced
    · exact .inr told
  rcases bilateral_rule_of_proposed sided proposed with ⟨situation, rule, ruled, rfl⟩ | answered
  · rcases sourced with ⟨origin, member, within⟩ | told
    · exact .inl ⟨origin, member, within.trans (Bilateral.rule_leads ruled chosen listed)⟩
    · rw [Sourced, Bilateral.rule_repeats ruled chosen listed told.isAtomic]
      exact .inr told
  · exact evaluated answered

/-- A denial on a node is one of the initial formulas' or the adviser's. -/
theorem denied_or_told [Memory] {formulas : List Signed} {traced : Bool}
    (finished : ofFormulas (.bilateral (some adviser.evaluator)) formulas traced = .ok tableau)
    {id : Nat} {signed : Signed} (carried : tableau.signedAt? id = some signed) {denial : Denial}
    (denies : signed.formula = denial.formula) :
    (∃ origin args, origin ∈ formulas ∧ { denial with args := args } ∈ origin.formula.denied false ∧
      Fills origin.formula.boundNames args denial.args) ∨ adviser.Tells denial.formula := by
  have bears := (reachable_of_ofFormulas finished).bears (closed_sourced adviser formulas)
    fun signed member => .inl ⟨signed, member, .refl _⟩
  rcases bears id signed carried with ⟨origin, member, within⟩ | told
  · rw [denies] at within
    rcases within.denied denial List.mem_cons_self with ⟨args, listed, fills⟩
    exact .inl ⟨origin, args, member, listed, fills⟩
  · exact .inr (denies ▸ told)

end Tableau

/-! ## What a check stores -/

namespace Theory

open Tableau (exists_of_bind_eq_ok return_eq_ok)

variable {theory : Theory}

/-- A statement of the theory denies the predicate already, with constants at most for what it
binds. -/
def Denies (theory : Theory) (denial : Denial) : Prop :=
  ∃ statement content args, statement ∈ theory.statements ∧
    statement.content? = .ok (some content) ∧
    { denial with args := args } ∈ content.denied false ∧
    Fills content.boundNames args denial.args

/-- A statement as it is stored for evidence. -/
def EvidenceFor (text : String) (statement : Statement) : Prop :=
  (∃ number, statement.id = .string (Statement.idOf 'E' number)) ∧
    statement.formula = .string text ∧ statement.sign = .string "t"

theorem denial_of_mem_denials {entry : String × String} (listed : entry ∈ denials tableau) :
    ∃ denial : Denial, entry.1 = denial.formula.text ∧ ∃ id signed,
      tableau.signedAt? id = some signed ∧ signed.formula = denial.formula := by
  rcases List.mem_filterMap.mp listed with ⟨node, member, denied⟩
  rcases Array.getElem?_of_mem (Array.mem_def.mpr member) with ⟨id, found⟩
  have carried : tableau.signedAt? id = some node.signed := by
    rw [Tableau.signedAt?, Tableau.node?, found]
    rfl
  split at denied
  · next name args star formula =>
    cases denied
    exact ⟨⟨name, star, args⟩, congrArg Formula.text formula, id, node.signed, carried, formula⟩
  · cases denied

/-- A fold that takes or leaves each entry has only entries that it was given. -/
theorem mem_of_mem_foldl {α : Type} {step : List α -> α -> List α}
    (taken : forall kept entry, step kept entry = kept ∨ step kept entry = kept ++ [entry])
    {entries kept : List α} {entry : α} (member : entry ∈ entries.foldl step kept) :
    entry ∈ kept ∨ entry ∈ entries := by
  induction entries generalizing kept with
  | nil => exact .inl member
  | cons first rest ih =>
    rcases ih member with early | late
    · rcases taken kept first with left | appended
      · exact .inl (left ▸ early)
      · rw [appended, List.mem_append, List.mem_singleton] at early
        exact early.imp_right fun same => List.mem_cons.mpr (.inl same)
    · exact .inr (List.mem_cons_of_mem first late)

theorem mem_denials_of_mem_newDenials {entry : String × String}
    (listed : entry ∈ theory.newDenials tableau) : entry ∈ denials tableau := by
  refine (mem_of_mem_foldl ?_ listed).resolve_left List.not_mem_nil
  rintro kept ⟨text, sentence⟩
  dsimp only
  split
  · exact .inl rfl
  · exact .inr rfl

variable {statement : Statement} {formula : String}

theorem addSigned_stores (now : String) (adviser : Adviser) {draft : Draft}
    (isEvidence : draft.origin = .evidence) (signed : draft.sign = "t")
    (stored : statement ∈ (theory.addSigned now adviser draft).1.statements) :
    statement ∈ theory.statements ∨ EvidenceFor draft.formula statement := by
  rw [addSigned] at stored
  split at stored
  · exact .inl stored
  · next id moved taken =>
    rw [isEvidence] at taken
    rcases takeId_eq_ok taken with ⟨⟨number, named⟩, same⟩
    split at stored
    · exact .inl (same ▸ stored)
    · rcases mem_putStatement stored with old | rfl
      · exact .inl (same ▸ old)
      · exact .inr ⟨⟨number, congrArg Json.string named⟩, rfl, congrArg Json.string signed⟩

theorem storeDenials_stores (now : String) (adviser : Adviser) (entries : List (String × String))
    (stored : statement ∈ (theory.storeDenials now adviser entries).1.statements) :
    statement ∈ theory.statements ∨ ∃ entry, entry ∈ entries ∧ EvidenceFor entry.1 statement := by
  induction entries generalizing theory with
  | nil => exact .inl stored
  | cons entry rest ih =>
    rcases entry with ⟨text, sentence⟩
    let draft : Draft :=
      ⟨.evidence, .string sentence, text, "t", [("source", .string "llm_evaluation")]⟩
    have first (member : statement ∈ (theory.addSigned now adviser draft).1.statements) :
        statement ∈ theory.statements ∨
          ∃ entry, entry ∈ (text, sentence) :: rest ∧ EvidenceFor entry.1 statement :=
      (addSigned_stores now adviser rfl rfl member).imp_right fun fits =>
        ⟨(text, sentence), List.mem_cons_self, fits⟩
    rw [storeDenials] at stored
    split at stored
    · next added =>
      rw [added] at first
      rcases ih stored with old | ⟨entry, later, fits⟩
      · exact first old
      · exact .inr ⟨entry, List.mem_cons_of_mem _ later, fits⟩
    · next added =>
      rw [added] at first
      exact first stored

/-- What a check stores beyond the statements there were is evidence for a denial on a node of the
theory's tableau. -/
theorem check_stores [Memory] (now : String) (adviser : Adviser)
    (stored : statement ∈ (theory.check now (some adviser)).1.statements) :
    statement ∈ theory.statements ∨ ∃ formulas tableau entry, theory.signedFormulas = .ok formulas ∧
      Tableau.ofFormulas (.bilateral (some adviser.evaluator)) formulas false = .ok tableau ∧
      entry ∈ denials tableau ∧ EvidenceFor entry.1 statement := by
  rw [check] at stored
  split at stored
  · exact .inl stored
  · exact .inl stored
  · next tableau finished =>
    have kept : statement ∈ (theory.storeAdvice now (some adviser) tableau).1.statements := by
      split at stored
      · next equal => exact equal ▸ stored
      · next equal => exact equal ▸ stored
    rcases exists_of_bind_eq_ok finished with ⟨formulas, read, constructed⟩
    split at constructed
    · cases constructed
    · rcases return_eq_ok.mp constructed with ⟨_, constructed, equal⟩
      cases equal
      refine (storeDenials_stores now adviser _ kept).imp_right ?_
      rintro ⟨entry, new, fits⟩
      exact ⟨formulas, tableau, entry, read, constructed, mem_denials_of_mem_newDenials new, fits⟩

/-- Each statement that a check stores is evidence under t for the denial of a predicate.  The
adviser finds evidence against the predicate, or leaves it open, or a statement that was there
denies it. -/
theorem stored_evidence_sources [Memory] (theory : Theory) (now : String) (adviser : Adviser)
    (statement : Statement)
    (stored : statement ∈ (theory.check now (some adviser)).1.statements)
    (added : statement ∉ theory.statements) :
    ∃ denial : Denial, EvidenceFor denial.formula.text statement ∧
      (adviser.Justifies denial ∨ adviser.LeavesOpen denial ∨ theory.Denies denial) := by
  rcases check_stores now adviser stored with old |
    ⟨formulas, tableau, entry, read, finished, listed, fits⟩
  · exact absurd old added
  rcases denial_of_mem_denials listed with ⟨denial, text, id, signed, carried, formula⟩
  refine ⟨denial, text ▸ fits, ?_⟩
  rcases Tableau.denied_or_told finished carried formula with
    ⟨origin, args, member, denied, fills⟩ | told
  · rcases exists_statement_of_mem read member with ⟨source, stated, content, _⟩
    exact .inr (.inr ⟨source, origin.formula, args, stated, content, denied, fills⟩)
  · exact told.justifies_or_leavesOpen.imp_right .inl

/-- A sentence that denies a predicate and affirms another. -/
def halfDenied : Theory := ⟨[literal "S0001" "~P(a) & Q(a)" "t"], .int 2, ⟨none, none, none⟩⟩

def evidence (id formula sentence : String) : Statement :=
  Draft.statement ⟨.evidence, .string ("LLM evidence: " ++ sentence), formula, "t",
    [("source", .string "llm_evaluation")]⟩ id ""

theorem signedFormula?_literal (id : String) {sign : String} {content : Formula} {checked : Sign}
    (read : (literal id formula sign).content? = .ok (some content))
    (signed : checkedSign? (.string sign) = some checked) :
    signedFormula? (literal id formula sign) = .ok (some ⟨checked, content⟩) := by
  rw [signedFormula?, read, literal, Draft.statement]
  simp only [bind, Except.bind, signed]
  rfl

theorem signedFormulas_literal (id sign : String) {content : Formula} {counter : Json}
    {timings : Timings} {checked : Sign}
    (read : (literal id formula sign).content? = .ok (some content))
    (signed : checkedSign? (.string sign) = some checked) :
    signedFormulas ⟨[literal id formula sign], counter, timings⟩ = .ok [⟨checked, content⟩] := by
  rw [signedFormulas]
  simp only [List.mapM_cons, List.mapM_nil, signedFormula?_literal id read signed]
  rfl

theorem content?_halfDenied : (literal "S0001" "~P(a) & Q(a)" "t").content? =
      .ok (some (.join .conj (.sided "P" [.const "a"] true) (.sided "Q" [.const "a"] false))) := by
  refine content?_literal "S0001" "t" ?_
  with_unfolding_all rfl

open scoped Memory

theorem check_halfDenied_objecting :
    (halfDenied.check "" (some (.objecting "Q(a)"))).1.statements = halfDenied.statements ++
      [evidence "E0002" "P*(a)" "a is not p", evidence "E0003" "Q*(a)" "a is not q"] := by
  rw [check, tableau?, halfDenied, signedFormulas_literal _ _ content?_halfDenied rfl]
  rfl

theorem evidence_not_literal {id other text sentence sign : String} (differs : id ≠ other) :
    evidence id text sentence ∉ [literal other formula sign] := by
  intro listed
  have same := congrArg Statement.id (List.mem_singleton.mp listed)
  exact differs (Json.string.inj same)

/-- The adviser objects to the predicate that the sentence affirms. -/
theorem stored_evidence_sources_halfDenied : evidence "E0003" "Q*(a)" "a is not q" ∈
        (halfDenied.check "" (some (.objecting "Q(a)"))).1.statements ∧
      evidence "E0003" "Q*(a)" "a is not q" ∉ halfDenied.statements ∧
      ∃ denial : Denial, EvidenceFor denial.formula.text (evidence "E0003" "Q*(a)" "a is not q") ∧
        ((Adviser.objecting "Q(a)").Justifies denial ∨
          (Adviser.objecting "Q(a)").LeavesOpen denial ∨ halfDenied.Denies denial) := by
  have stored : evidence "E0003" "Q*(a)" "a is not q" ∈
      (halfDenied.check "" (some (.objecting "Q(a)"))).1.statements := by
    rw [check_halfDenied_objecting]
    exact List.mem_append_right _ (List.mem_cons_of_mem _ List.mem_cons_self)
  have added : evidence "E0003" "Q*(a)" "a is not q" ∉ halfDenied.statements :=
    evidence_not_literal (by decide)
  exact ⟨stored, added, stored_evidence_sources _ _ _ _ stored added⟩

/-- A check stores a denial for which the adviser has no evidence. -/
def StoresUnjustified [Memory] (theory : Theory) (adviser : Adviser) : Prop :=
  ∃ statement, statement ∈ (theory.check "" (some adviser)).1.statements ∧
    statement ∉ theory.statements ∧ forall denial : Denial,
      EvidenceFor denial.formula.text statement -> ¬ adviser.Justifies denial

def refuted : Theory := ⟨[literal "S0001" "P(a)" "f"], .int 2, ⟨none, none, none⟩⟩

/-- The sentence's own denial is stored though the adviser says nothing.  What is asserted to be
false is stored as denied though the adviser leaves it open. -/
theorem stored_evidence_unjustified :
    halfDenied.StoresUnjustified .silent ∧ refuted.StoresUnjustified .undecided := by
  constructor
  · have statements : (halfDenied.check "" (some .silent)).1.statements =
        halfDenied.statements ++ [evidence "E0002" "P*(a)" "a is not p"] := by
      rw [check, tableau?, halfDenied, signedFormulas_literal _ _ content?_halfDenied rfl]
      rfl
    refine ⟨evidence "E0002" "P*(a)" "a is not p", ?_, evidence_not_literal (by decide), ?_⟩
    · rw [statements]
      exact List.mem_append_right _ List.mem_cons_self
    · rintro denial _ (⟨_, _, _, answers, _⟩ | ⟨_, answers, _⟩)
      · cases answers
      · cases answers
  · have content := content?_literal "S0001" "f" readFormula_P_a
    have statements : (refuted.check "" (some .undecided)).1.statements =
        refuted.statements ++ [evidence "E0002" "P*(a)" "a is not p"] := by
      rw [check, tableau?, refuted, signedFormulas_literal _ _ content rfl]
      rfl
    refine ⟨evidence "E0002" "P*(a)" "a is not p", ?_, evidence_not_literal (by decide), ?_⟩
    · rw [statements]
      exact List.mem_append_right _ List.mem_cons_self
    · rintro denial _ (⟨_, _, _, answers, against⟩ | ⟨_, answers, inFavour⟩)
      · cases answers
        cases against
      · cases answers
        cases inFavour

end Theory
end WeakKleene
