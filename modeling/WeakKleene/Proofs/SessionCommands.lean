import WeakKleene.Proofs.Conversation
import WeakKleene.Proofs.Persistence
import WeakKleene.Shell.Command

namespace WeakKleene
namespace Shell

/-!
# What the commands do to the statements

Most commands only add statements, and while the counter is ahead they add them
behind those that are there.  Retracting removes the statements it names, and
clearing removes all.  Loading puts the statements of a file behind the others,
or replaces the theory by the file.  What needs consent changes nothing without
it.

Whatever a command writes is the document of a theory in order, so a file that
it finds later can be read back.
-/

open Dialogue

variable {tidy : Prop} {session : Session}

/-- The document of a theory that is in order.  In tidy files the counter is ahead. -/
def Saved (tidy : Prop) (text : String) : Prop :=
  ∃ theory now, Theory.Orderly theory ∧ (tidy -> theory.isAhead = true) ∧ text = theory.document now

/-- The theory is in order, and what an adviser says about itself can be put into a document.  In a
tidy session the counter is ahead. -/
structure Session.Sound (session : Session) (tidy : Prop) : Prop where
  orderly : session.theory.Orderly
  ahead : tidy -> session.theory.isAhead = true
  known : forall adviser, session.adviser = some adviser -> adviser.Plain

/-- A sound session in which statements were added behind those of another, if the counter was
ahead. -/
structure Session.Extends (session after : Session) (tidy : Prop) : Prop where
  sound : after.Sound tidy
  grows : session.theory.Grows after.theory

variable {after : Session} {theory : Theory} {action : Action} {adviser : Adviser} {text : String}
variable {wanted : Theory -> Prop} {folder : Folder} {inputs : List Input}

theorem Session.Sound.extends (sound : session.Sound tidy)
    (grows : session.theory.Grows after.theory)
    (known : forall adviser, after.adviser = some adviser -> adviser.Plain) :
    session.Extends after tidy :=
  ⟨⟨grows.orderly, fun holds => (grows.kept (sound.ahead holds)).1, known⟩, grows⟩

theorem Session.Sound.refl (sound : session.Sound tidy) : session.Extends session tidy :=
  ⟨sound, sound.orderly.refl⟩

theorem Session.Extends.trans {middle : Session}
    (first : session.Extends middle tidy) (second : middle.Extends after tidy) :
    session.Extends after tidy :=
  ⟨second.sound, first.grows.trans second.grows⟩

theorem Session.Sound.withTheory (sound : session.Sound tidy)
    (grows : session.theory.Grows theory) :
    session.Extends (session.withTheory theory) tidy :=
  sound.extends grows sound.known

/-- The session that an action ends with.  An action that ends for want of an answer leaves it as
it was. -/
def Session.next (session : Session) : Ending (Session × Status) -> Session
  | .result (after, _) => after
  | _ => session

/-! ## Adding -/

/-- Whatever an action comes to, it only adds statements to those of a session. -/
def Adds (tidy : Prop) (session : Session) (action : Action) : Prop :=
  forall folder inputs, action.Ensures (Saved tidy)
    (fun ending => session.Extends (session.next ending) tidy) folder inputs

theorem Adds.trans {middle : Session} (sound : session.Sound tidy)
    (extended : session.Extends middle tidy) (adds : Adds tidy middle action) :
    Adds tidy session action := by
  intro folder inputs
  refine (adds folder inputs).mono fun ending further => ?_
  cases ending with
  | result value => exact extended.trans further
  | noInput => exact sound.refl
  | interrupted => exact sound.refl

variable {next : Unit -> Action}

theorem adds_tell {line : String} :
    Adds tidy session (tell line >>= next) ↔ Adds tidy session (next ()) :=
  Iff.rfl

theorem Session.Extends.goOn (extended : session.Extends after tidy) :
    Adds tidy session after.goOn :=
  fun _ _ => extended

theorem Session.Extends.fail (extended : session.Extends after tidy)
    (fault : Fault) : Adds tidy session (after.fail fault) :=
  fun _ _ => extended

theorem adds_assertionFailed (extended : session.Extends after tidy)
    (fault : Fault) : Adds tidy session (assertionFailed after fault) := by
  cases fault <;> exact fun _ _ => extended

theorem adds_assertCommand (sound : session.Sound tidy) (text : String) :
    Adds tidy session (assertCommand session text) := by
  rw [assertCommand]
  split
  · exact sound.refl.goOn
  · rcases signAndSentence text with ⟨sign, sentence⟩
    have asserted := sound.orderly.assert session.now (.string sentence) .null (.string sign)
    dsimp only
    split
    · next theory fault equal =>
      rw [equal] at asserted
      exact adds_assertionFailed (sound.withTheory asserted.1) fault
    · next theory statement equal =>
      rw [equal] at asserted
      have extended := sound.withTheory asserted.1
      rw [adds_tell, adds_tell, adds_tell]
      split
      · exact extended.goOn
      · exact extended.goOn

theorem adds_tellEach {groups : List (Except Fault (List String))}
    {next : Option Fault -> Action} (each : forall fault, Adds tidy session (next fault)) :
    Adds tidy session (tellEach groups >>= next) :=
  fun folder inputs => ensures_tellEach fun fault => each fault folder inputs

theorem adds_tellAll {lines : List String} :
    Adds tidy session (tellAll lines >>= next) ↔ Adds tidy session (next ()) :=
  forall_congr' fun _ => forall_congr' fun _ => ensures_tellAll

theorem adds_saveNow (extended : session.Extends after tidy) :
    Adds tidy session (saveNow after) := by
  rw [saveNow]
  split
  · exact extended.fail _
  · intro folder inputs
    refine ⟨⟨after.theory, after.now, extended.sound.orderly, extended.sound.ahead, rfl⟩,
      fun fault folder => ?_⟩
    cases fault with
    | some fault => exact extended
    | none => exact extended

theorem judgedMetadata_plain (known : adviser.Plain) {metadata judged : Json}
    (plain : metadata.Plain) (same : judgedMetadata adviser metadata = .ok judged) :
    judged.Plain := by
  cases plain with
  | object distinct named all =>
    have marked := (Json.Plain.object distinct named all).put "llm_evaluated" (.bool true)
    rcases known.signed marked with ⟨fields, signed, told⟩
    rw [judgedMetadata, signed] at same
    cases same
    exact told
  | list all =>
    cases same
    exact .list all
  | null | bool | int | string =>
    cases same
    constructor

theorem adds_showEvidence {formula : String} {evidence : Evidence}
    (adds : Adds tidy session (next ())) :
    Adds tidy session (showEvidence formula evidence >>= next) :=
  adds_tellAll.mpr adds

theorem adviserOf_plain (consultant : Consultant) : (adviserOf consultant).Plain :=
  .inr ⟨_, rfl, .record (by simp) (by simp [Json.Plain.string])⟩

theorem adds_chooseProvider (extended : session.Extends after tidy)
    (provider : String) (model key : Option String) :
    Adds tidy session (chooseProvider after provider model key) := by
  rw [chooseProvider]
  split
  · next consultant _ =>
    have chosen : session.Extends { after with
        adviser := some (adviserOf consultant), provider := some provider } tidy := by
      refine ⟨⟨extended.sound.orderly, extended.sound.ahead, fun adviser same => ?_⟩,
        extended.grows⟩
      cases same
      exact adviserOf_plain consultant
    rw [adds_tell, adds_tell]
    split
    · split
      · exact chosen.goOn
      · split
        · exact chosen.goOn
        · exact chosen.goOn
    · exact chosen.goOn
  · rw [adds_tell]
    split
    · exact adds_tellAll.mpr extended.goOn
    · exact extended.goOn

section Commands

variable (sound : session.Sound tidy)
include sound

theorem adds_listCommand (text : String) :
    Adds tidy session (listCommand session text) := by
  rw [listCommand]
  split
  · exact sound.refl.fail _
  · exact sound.refl.goOn
  · rw [adds_tellAll]
    refine adds_tellEach fun fault => ?_
    cases fault with
    | some fault => exact sound.refl.fail fault
    | none => exact adds_tellAll.mpr sound.refl.goOn

theorem adds_checkCommand [Memory] (text : String) :
    Adds tidy session (checkCommand session text) := by
  have grows := sound.orderly.check session.now sound.known
  rw [checkCommand, adds_tell]
  split
  · next equal =>
    rw [equal] at grows
    exact (sound.withTheory grows).fail _
  · next equal =>
    rw [equal] at grows
    have extended := sound.withTheory grows
    rw [adds_tell]
    refine adds_tellEach fun fault => ?_
    cases fault with
    | some fault => exact extended.fail fault
    | none =>
      dsimp only
      split
      · exact extended.goOn
      · exact extended.goOn

theorem adds_inferCommand (text : String) :
    Adds tidy session (inferCommand session text) := by
  rw [inferCommand, adds_tell]
  split
  · exact sound.refl.fail _
  · next inferred =>
    have extended := sound.withTheory (sound.orderly.infer sound.known inferred)
    dsimp only
    split
    · exact extended.goOn
    · rw [adds_tell]
      exact adds_tellAll.mpr extended.goOn

theorem adds_reportCommand [Memory] (text : String) :
    Adds tidy session (reportCommand session text) := by
  have grows := sound.orderly.report session.now sound.known
  rw [reportCommand]
  split
  · next equal =>
    rw [equal] at grows
    exact (sound.withTheory grows).goOn
  · next equal =>
    rw [equal] at grows
    exact (sound.withTheory grows).fail _

theorem adds_question {prompt : String}
    {next : String -> Action} (each : forall answer, Adds tidy session (next answer)) :
    Adds tidy session (question prompt >>= next) := by
  intro folder inputs
  rcases inputs with _ | ⟨answer | _, rest⟩
  · exact sound.refl
  · exact each answer folder rest
  · exact sound.refl

theorem adds_saveCommand (text : String) :
    Adds tidy session (saveCommand session text) := by
  rw [saveCommand]
  split
  · exact adds_saveNow (sound.extends sound.orderly.refl sound.known)
  · split
    · refine adds_question sound fun answer => ?_
      split
      · exact adds_saveNow sound.refl
      · exact sound.refl.goOn
    · exact adds_saveNow sound.refl

/-! ## Advice -/

theorem adds_bind
    (adds : Adds tidy session action) {next : Session × Status -> Action}
    (each : forall after status, session.Extends after tidy ->
      Adds tidy session (next (after, status))) :
    Adds tidy session (action >>= next) := by
  intro folder inputs
  refine ((adds folder inputs).mono fun ending extended => ?_).bind
  cases ending with
  | result value => exact each value.1 value.2 extended
  | noInput => exact sound.refl
  | interrupted => exact sound.refl

theorem adds_fallBack (reason text : String) :
    Adds tidy session (fallBack session reason text) :=
  adds_assertCommand sound text

theorem adds_assertOrFallBack (text : String) :
    Adds tidy session (assertOrFallBack session text) := by
  refine adds_bind sound (adds_assertCommand sound text) fun after status extended => ?_
  cases status with
  | goOn => exact extended.goOn
  | stop => exact fun _ _ => extended
  | failed fault => exact (adds_fallBack extended.sound _ text).trans sound extended

/-- Asserting a formula stores the statement it returns, behind all others if the counter is
ahead. -/
theorem assertFormula_extends (sentence formula sign : String) :
    session.Extends (assertFormula session sentence formula sign).1 tidy ∧
      forall statement, (assertFormula session sentence formula sign).2 = .ok statement ->
        statement ∈ (assertFormula session sentence formula sign).1.theory.statements ∧
          (session.theory.isAhead = true ->
            (assertFormula session sentence formula sign).1.theory.statements =
              session.theory.statements ++ [statement]) := by
  rcases sound.orderly.assert session.now (.string sentence) (.string formula) (.string sign) with
    ⟨grows, last⟩
  exact ⟨sound.withTheory grows, last⟩

theorem adds_claimDenial (sentence name : String)
    (args : List Term) : Adds tidy session (claimDenial session sentence name args) := by
  rw [claimDenial]
  generalize name ++ "*(" ++ String.intercalate "," (args.map Term.name) ++ ")" = denial
  have extended := (assertFormula_extends sound (sentence ++ " (negative evidence)") denial "t").1
  split
  · next equal =>
    rw [equal] at extended
    exact (adds_fallBack extended.sound _ sentence).trans sound extended
  · next equal =>
    rw [equal] at extended
    exact extended.goOn

theorem adds_claimBoth (sentence text : String)
    (formula : Formula) : Adds tidy session (claimBoth session sentence text formula) := by
  have extended := (assertFormula_extends sound sentence text "t").1
  rw [claimBoth, adds_tell]
  split
  · next equal =>
    rw [equal] at extended
    exact (adds_fallBack extended.sound _ sentence).trans sound extended
  · next equal =>
    rw [equal] at extended
    rw [adds_tell, adds_tell, adds_tell]
    split
    · exact (adds_claimDenial extended.sound sentence _ _).trans sound extended
    · exact extended.goOn

theorem adds_claimSigned (known : adviser.Plain) (sentence text sign verdict : String) :
    Adds tidy session (claimSigned session adviser sentence text sign verdict) := by
  rcases assertFormula_extends sound sentence text sign with ⟨extended, last⟩
  rw [claimSigned]
  split
  · next equal =>
    rw [equal] at extended
    exact (adds_fallBack extended.sound _ sentence).trans sound extended
  · next after statement equal =>
    rw [equal] at extended last
    rcases last statement rfl with ⟨member, stored⟩
    rw [adds_tell, adds_tell, adds_tell, adds_tell]
    split
    · exact (adds_fallBack extended.sound _ sentence).trans sound extended
    · next metadata judged =>
      rcases extended.sound.orderly with ⟨counter, numbered⟩
      have plain := numbered.plain statement member
      have updated : { statement with metadata := metadata : Statement }.Plain :=
        { plain with metadata := judgedMetadata_plain known plain.metadata judged }
      have further : session.Extends (after.withTheory
          (after.theory.put { statement with metadata := metadata })) tidy :=
        sound.extends (extended.grows.put_last member stored updated rfl) extended.sound.known
      exact further.goOn

theorem adds_claimByAdvice (known : adviser.Plain) (text formulaText : String) (formula : Formula) :
    Adds tidy session (claimByAdvice session adviser text formulaText formula) := by
  rw [claimByAdvice, adds_tell]
  split
  · exact sound.refl.fail _
  · rw [adds_tellAll]
    split
    · exact adds_fallBack sound _ text
    · exact adds_assertOrFallBack sound text
    · split
      · exact adds_claimSigned sound known text formulaText _ _
      · exact adds_claimBoth sound text formulaText formula

theorem adds_claimCommand (text : String) :
    Adds tidy session (claimCommand session text) := by
  rw [claimCommand]
  split
  · exact sound.refl.goOn
  · split
    · exact adds_assertCommand sound text
    · next adviser chosen =>
      split
      · exact sound.refl.goOn
      · split
        · exact adds_claimByAdvice sound (sound.known adviser chosen) text _ _
        · exact adds_assertCommand sound text

theorem adds_storeEvaluation (known : adviser.Plain) (sentence formula : String) :
    Adds tidy session (storeEvaluation session adviser sentence formula) := by
  have metadata : (Json.record [("source", .string "llm_evaluation"),
      ("evaluation_type", .string "direct_query")]).Plain :=
    .record (by simp) (by simp [Json.Plain.string])
  have draft : Draft.Plain ⟨.evidence, .string sentence, formula, "t",
      [("source", .string "llm_evaluation"), ("evaluation_type", .string "direct_query")]⟩ :=
    ⟨.string sentence, metadata⟩
  have extended := sound.withTheory (sound.orderly.addSigned session.now known draft)
  rw [storeEvaluation]
  dsimp only
  split
  · exact extended.goOn
  · exact extended.goOn

theorem adds_assertEvaluation (known : adviser.Plain) (formula : Formula) (evidence : Evidence) :
    Adds tidy session (assertEvaluation session adviser formula evidence) := by
  rw [assertEvaluation.eq_def]
  split
  · exact adds_storeEvaluation sound known _ _
  · exact adds_storeEvaluation sound known _ _
  · exact sound.refl.goOn
  · exact sound.refl.goOn

theorem adds_evaluateFormula (assert : Bool)
    (formula : Formula) : Adds tidy session (evaluateFormula session assert formula) := by
  rw [evaluateFormula, adds_tell]
  split
  · exact sound.refl.fail _
  · rw [adds_tellAll]
    split
    · exact sound.refl.goOn
    · next adviser chosen =>
      split
      · exact sound.refl.goOn
      · exact sound.refl.goOn
      · refine adds_showEvidence ?_
        split
        · exact adds_assertEvaluation sound (sound.known adviser chosen) formula _
        · exact sound.refl.goOn

theorem adds_evaluateCommand (text : String) :
    Adds tidy session (evaluateCommand session text) := by
  rw [evaluateCommand]
  split
  · exact sound.refl.goOn
  · split
    · exact sound.refl.goOn
    · rcases evaluateArguments text with ⟨formulaText, assert⟩
      dsimp only
      split
      · exact sound.refl.goOn
      · split
        · exact adds_evaluateFormula sound assert _
        · exact sound.refl.goOn

theorem adds_llmCommand (text : String) :
    Adds tidy session (llmCommand session text) := by
  have keyed (name : String) : session.Extends { session with keys := name :: session.keys } tidy :=
    sound.extends sound.orderly.refl sound.known
  rw [llmCommand]
  split
  · exact adds_tellAll.mpr sound.refl.goOn
  · next first rest _ =>
    rcases modelAndKey rest with ⟨model, key⟩
    dsimp only
    split
    · exact adds_tellAll.mpr sound.refl.goOn
    · split
      · exact adds_tellAll.mpr sound.refl.goOn
      · split
        · split
          · split
            · exact sound.refl.fail _
            · rw [adds_tell]
              exact adds_chooseProvider (keyed _) _ _ _
          · exact adds_chooseProvider sound.refl _ _ _
        · exact sound.refl.goOn

theorem adds_helpCommand (text : String) :
    Adds tidy session (helpCommand session text) := by
  rw [helpCommand]
  split
  · exact adds_tellAll.mpr sound.refl.goOn
  · split
    · exact adds_tellAll.mpr sound.refl.goOn
    · exact sound.refl.goOn

theorem adds_quitCommand (text : String) :
    Adds tidy session (quitCommand session text) :=
  fun _ _ => sound.refl

end Commands

/-! ## Retracting -/

/-- Whether a command to retract means a statement: by its id, or because it is inferred. -/
def retracts (text : String) (statement : Statement) : Bool :=
  if trimmed text == "--inferred" then (countsAsInferred statement).toOption.getD false
  else ((Text.words text.toList).map String.ofList).any fun id =>
    statement.id.sameName (.string id)

/-- Retracting one by one removes all statements of the ids. -/
theorem retractAll_eq {α : Type} (idOf : α -> Json) (theory : Theory) (items : List α) :
    (retractAll idOf theory items).1 = { theory with
      statements := theory.statements.filter fun statement =>
        !items.any fun item => statement.id.sameName (idOf item) } := by
  induction items generalizing theory with
  | nil => simp [retractAll]
  | cons item rest ih =>
    rw [retractAll]
    simp only [ih, Theory.retract_eq, List.filter_filter, List.any_cons, Bool.not_or, Bool.and_comm]

/-- The sort of an id is always known, and so is whether a statement counts as inferred. -/
theorem exists_countsAsInferred {statement : Statement} (isId : Statement.IsId statement.id) :
    ∃ inferred, countsAsInferred statement = .ok inferred := by
  rcases isId with ⟨letter, number, same⟩
  rw [countsAsInferred]
  split
  · exact ⟨true, rfl⟩
  · rw [Statement.origin?, same]
    exact ⟨_, rfl⟩

theorem filterAuxM_eq_ok {α ε : Type} {visit : α -> Except ε Bool} {keep : α -> Bool}
    {list : List α} (each : forall item, item ∈ list -> visit item = .ok (keep item))
    (found : List α) :
    list.filterAuxM visit found = .ok ((list.filter keep).reverse ++ found) := by
  induction list generalizing found with
  | nil => rfl
  | cons item rest ih =>
    have later (found : List α) := ih
      (fun item member => each item (List.mem_cons_of_mem _ member)) found
    rw [List.filterAuxM, each item List.mem_cons_self]
    cases kept : keep item with
    | true =>
      rw [List.filter_cons_of_pos kept, List.reverse_cons, List.append_assoc]
      exact later (item :: found)
    | false =>
      rw [List.filter_cons_of_neg (by rw [kept]; exact Bool.false_ne_true)]
      exact later found

theorem inferredIds_eq (orderly : theory.Orderly)
    (inferred : trimmed text == "--inferred") :
    inferredIds theory = .ok ((theory.statements.filter (retracts text)).map Statement.id) := by
  rcases orderly with ⟨counter, numbered⟩
  have each : forall statement, statement ∈ theory.statements ->
      countsAsInferred statement = .ok (retracts text statement) := by
    intro statement member
    rcases exists_countsAsInferred (numbered.isId statement member) with ⟨found, same⟩
    rw [retracts, if_pos inferred, same]
    rfl
  rw [inferredIds, List.filterM, filterAuxM_eq_ok each, List.append_nil]
  change Except.ok (List.map _ (List.reverse (List.reverse _))) = _
  rw [List.reverse_reverse]

/-- Removing the ids of some statements removes just these. -/
theorem filter_ids_eq (orderly : theory.Orderly) (chosen : Statement -> Bool) :
    (theory.statements.filter fun statement =>
      !((theory.statements.filter chosen).map Statement.id).any fun id =>
        statement.id.sameName id) =
      theory.statements.filter fun statement => !chosen statement := by
  rcases orderly with ⟨counter, numbered⟩
  refine List.filter_congr fun statement member => congrArg Bool.not ?_
  rw [Bool.eq_iff_iff, List.any_map, List.any_eq_true]
  constructor
  · rintro ⟨other, listed, same⟩
    rcases List.mem_filter.mp listed with ⟨inside, holds⟩
    have equal := ((numbered.isId statement member).sameName_iff
      (numbered.isId other inside)).mp same
    rwa [List.inj_on_of_nodup_map numbered.distinct member inside equal]
  · intro holds
    exact ⟨statement, List.mem_filter.mpr ⟨member, holds⟩,
      ((numbered.isId statement member).sameName_iff (numbered.isId statement member)).mpr rfl⟩

/-- An action leaves a session sound, with a theory as wanted. -/
def Leaves (tidy : Prop) (session : Session) (wanted : Theory -> Prop) (action : Action)
    (folder : Folder) (inputs : List Input) : Prop :=
  action.Ensures (Saved tidy) (fun ending => (session.next ending).Sound tidy ∧
    wanted (session.next ending).theory) folder inputs

theorem leaves_tell {line : String} :
    Leaves tidy session wanted (tell line >>= next) folder inputs ↔
      Leaves tidy session wanted (next ()) folder inputs :=
  Iff.rfl

theorem leaves_find {path : String} {next : Found -> Action} :
    Leaves tidy session wanted (find path >>= next) folder inputs ↔
      Leaves tidy session wanted (next (folder.look path)) folder inputs :=
  Iff.rfl

theorem leaves_question {prompt answer : String} {next : String -> Action} {rest : List Input} :
    Leaves tidy session wanted (question prompt >>= next) folder (.line answer :: rest) ↔
      Leaves tidy session wanted (next answer) folder rest :=
  Iff.rfl

theorem Leaves.mono {weaker : Theory -> Prop} (implies : forall after, wanted after -> weaker after)
    (leaves : Leaves tidy session wanted action folder inputs) :
    Leaves tidy session weaker action folder inputs :=
  Ensures.mono (fun _ after => ⟨after.1, implies _ after.2⟩) leaves

theorem Adds.leaves (adds : Adds tidy session action) (folder : Folder) (inputs : List Input) :
    Leaves tidy session (session.theory.Grows ·) action folder inputs :=
  (adds folder inputs).mono fun _ extended => ⟨extended.sound, extended.grows⟩

def retracted (theory : Theory) (text : String) : Theory :=
  { theory with
    statements := theory.statements.filter fun statement => !retracts text statement }

theorem Session.Sound.retracted (sound : session.Sound tidy)
    (removed : theory = retracted session.theory text) :
    (session.withTheory theory).Sound tidy ∧ theory = Shell.retracted session.theory text := by
  subst removed
  exact ⟨⟨sound.orderly.filter _, fun holds => Theory.isAhead_filter (sound.ahead holds) _,
    sound.known⟩, rfl⟩

theorem retractInferred_leaves (sound : session.Sound tidy)
    (inferred : trimmed text == "--inferred") (folder : Folder) (inputs : List Input) :
    Leaves tidy session (· = retracted session.theory text) (retractInferred session) folder
      inputs := by
  rw [retractInferred, inferredIds_eq sound.orderly inferred]
  have removed := retractAll_eq id session.theory
    ((session.theory.statements.filter (retracts text)).map Statement.id)
  simp only [id_eq] at removed
  rw [filter_ids_eq sound.orderly] at removed
  split
  · next equal => cases equal
  · next equal =>
    have nothing := List.map_eq_nil_iff.mp (Except.ok.inj equal)
    have all : session.theory.statements.filter (fun statement => !retracts text statement) =
        session.theory.statements := by
      refine List.filter_eq_self.mpr fun statement member => ?_
      rw [Bool.not_eq_true', <- Bool.not_eq_true]
      exact List.filter_eq_nil_iff.mp nothing statement member
    refine ⟨sound, ?_⟩
    rw [retracted, all]
    rfl
  · next ids _ equal =>
    cases equal
    have after := sound.retracted removed
    dsimp only
    split
    · exact after
    · exact after

theorem retractCommand_leaves (sound : session.Sound tidy) (text : String)
    (folder : Folder) (inputs : List Input) :
    Leaves tidy session (· = retracted session.theory text) (retractCommand session text) folder
      inputs := by
  rw [retractCommand]
  split
  · next empty =>
    rw [String.isEmpty_iff] at empty
    subst empty
    have all : session.theory.statements.filter (fun statement => !retracts "" statement) =
        session.theory.statements :=
      List.filter_eq_self.mpr fun _ _ => rfl
    refine ⟨sound, ?_⟩
    rw [retracted, all]
    rfl
  · cases inferred : trimmed text == "--inferred" with
    | true => exact retractInferred_leaves sound inferred folder inputs
    | false =>
      have removed : (retractAll Json.string session.theory
          ((Text.words text.toList).map String.ofList)).1 = retracted session.theory text := by
        rw [retractAll_eq, retracted]
        simp only [retracts, if_neg (Bool.eq_false_iff.mp inferred)]
      have after := sound.retracted removed
      rw [if_neg Bool.false_ne_true]
      dsimp only
      split
      · split
        · exact after
        · exact after
      · split
        · exact after
        · exact after

/-! ## Clearing and loading -/

def confirmed : List Input -> Bool
  | .line answer :: _ => agrees answer
  | _ => false

theorem clearCommand_leaves (sound : session.Sound tidy) (text : String)
    (folder : Folder) (inputs : List Input) :
    Leaves tidy session (· = if confirmed inputs then session.theory.clear else session.theory)
      (clearCommand session text) folder inputs := by
  rcases inputs with _ | ⟨answer | _, rest⟩
  · exact ⟨sound, rfl⟩
  · rw [clearCommand, leaves_question, confirmed]
    cases agrees answer with
    | true => exact ⟨⟨Theory.orderly_clear _, fun _ => rfl, sound.known⟩, rfl⟩
    | false => exact ⟨sound, rfl⟩
  · exact ⟨sound, rfl⟩

/-- The statements of the theory that a file holds, if it can be read. -/
def statementsIn (found : Found) : List Statement :=
  match found.text with
  | .error _ => []
  | .ok content =>
    match Theory.empty.loadDocument content with
    | (other, none) => other.statements
    | (_, some _) => []

theorem statementsIn_eq {found : Found} (orderly : theory.Orderly)
    {now : String} (read : found.text = .ok (theory.document now)) :
    statementsIn found = theory.statements := by
  simp only [statementsIn, read, Theory.loadDocument_document orderly]

def broughtBy (session : Session) (folder : Folder) (text : String) : List Statement :=
  match ((loadArguments text).1.map plainPath).or session.file with
  | none => []
  | some file => statementsIn (folder.look file)

theorem broughtBy_eq (folder : Folder) {file : String}
    {name : Option String} {merge : Bool} (args : loadArguments text = (name, merge))
    (path : (name.map plainPath).or session.file = some file) :
    broughtBy session folder text = statementsIn (folder.look file) := by
  rw [broughtBy, args, path]

/-- What is found is no text, or the document of a theory in order. -/
theorem text_of_look (holds : folder.Holds (Saved tidy)) {path content : String}
    (found : (folder.look path).text = .ok content) : Saved tidy content := by
  cases looked : folder.look path with
  | missing fault | folder =>
    rw [looked] at found
    cases found
  | file text =>
    rcases holds.look looked with ⟨theory, now, orderly, ahead, rfl⟩
    rw [looked, text_of_document orderly] at found
    cases found
    exact ⟨theory, now, orderly, ahead, rfl⟩

/-- What loading does: a merge puts the statements of the file behind the others, and what is not a
merge replaces the theory only if it is empty or with consent. -/
def Loaded (session : Session) (folder : Folder) (inputs : List Input) (text : String)
    (after : Theory) : Prop :=
  if (loadArguments text).2 then
    ∃ stored, after.statements = session.theory.statements ++ stored ∧
      List.Forall₂ Theory.Renamed (broughtBy session folder text) stored
  else session.theory.statements = [] ∨ confirmed inputs = true ∨ after = session.theory

/-- A command to load keeps the counter ahead: it does not merge, or brings in no unused id at or
above the counter. -/
def loadsBelow (session : Session) (folder : Folder) (text : String) : Bool :=
  !(loadArguments text).2 || session.theory.mergesBelow (broughtBy session folder text)

/-- What is known of the theory after a command to load. -/
def LoadedBelow (session : Session) (folder : Folder) (inputs : List Input) (text : String)
    (after : Theory) : Prop :=
  session.theory.isAhead = true -> loadsBelow session folder text = true ->
    Loaded session folder inputs text after

theorem LoadedBelow.unchanged
    (nothing : (loadArguments text).2 = true -> broughtBy session folder text = []) :
    LoadedBelow session folder inputs text session.theory := by
  intro _ _
  rw [Loaded]
  split
  · next merge =>
    rw [nothing merge]
    exact ⟨[], (List.append_nil _).symm, .nil⟩
  · exact .inr (.inr rfl)

theorem mergeFile_leaves (sound : session.Sound tidy) (orderly : theory.Orderly) (now file : String)
    (safe : tidy -> session.theory.mergesBelow theory.statements = true) (folder : Folder)
    (inputs : List Input) :
    Leaves tidy session (fun after => session.theory.isAhead = true ->
      session.theory.mergesBelow theory.statements = true ->
        ∃ stored, after.statements = session.theory.statements ++ stored ∧
          List.Forall₂ Theory.Renamed theory.statements stored)
      (mergeFile session file (theory.document now)) folder inputs := by
  rw [mergeFile, Theory.loadDocument_document orderly now]
  rcases orderly with ⟨counter, numbered⟩
  rcases sound.orderly.merge numbered.isId numbered.plain 0 with
    ⟨merged, count, merges, ends, stored⟩
  have after : (session.withTheory merged).Sound tidy :=
    ⟨ends, fun holds => (stored (sound.ahead holds) (safe holds)).1, sound.known⟩
  dsimp only
  rw [merges]
  dsimp only
  rw [leaves_tell, leaves_tell]
  split
  · exact ⟨after, fun ahead below => (stored ahead below).2⟩
  · exact ⟨after, fun ahead below => (stored ahead below).2⟩

theorem replaceByFile_leaves (sound : session.Sound tidy)
    (saved : Saved tidy text) (any : forall after, wanted after)
    (file : String) (folder : Folder) (inputs : List Input) :
    Leaves tidy session wanted (replaceByFile session file text) folder inputs := by
  rcases saved with ⟨theory, now, ⟨counter, numbered⟩, ahead, rfl⟩
  rw [replaceByFile, Theory.loadDocument_document ⟨counter, numbered⟩ now]
  have loaded : { session.theory with
      statements := theory.statements, nextId := theory.nextId : Theory }.Orderly :=
    ⟨counter, ⟨numbered.next, numbered.isId, numbered.distinct⟩, numbered.plain⟩
  exact ⟨⟨loaded, ahead, sound.known⟩, any _⟩

/-- What follows the question whether the theory may be replaced. -/
theorem mayReplace_leaves {next : Bool -> Action}
    (replace : session.theory.statements = [] ∨ confirmed inputs = true ->
      forall inputs, Leaves tidy session wanted (next true) folder inputs)
    (keep : forall inputs, Leaves tidy session wanted (next false) folder inputs)
    (unanswered : session.Sound tidy ∧ wanted session.theory) :
    Leaves tidy session wanted (mayReplace session >>= next) folder inputs := by
  rw [mayReplace]
  split
  · next empty => exact replace (.inl (List.isEmpty_iff.mp empty)) inputs
  · rcases inputs with _ | ⟨answer | _, rest⟩
    · exact unanswered
    · change Leaves tidy session wanted (next (agrees answer)) folder rest
      cases agreed : agrees answer with
      | true => exact replace (.inr agreed) rest
      | false => exact keep rest
    · exact unanswered

theorem loadFound_leaves (sound : session.Sound tidy) {file : String}
    {name : Option String} {merge : Bool} (args : loadArguments text = (name, merge))
    (path : (name.map plainPath).or session.file = some file)
    (holds : folder.Holds (Saved tidy))
    (safe : tidy -> loadsBelow session folder text = true) (inputs : List Input) :
    Leaves tidy session (LoadedBelow session folder inputs text)
      (loadFound session file merge (folder.look file)) folder inputs := by
  have merges : (loadArguments text).2 = merge := congrArg Prod.snd args
  have brought := broughtBy_eq folder args path
  rw [loadFound]
  split
  · next merging =>
    split
    · next content found =>
      -- The file was saved by a session, so it is read as the theory that was saved.
      rcases text_of_look holds found with ⟨theory, now, orderly, _, rfl⟩
      have same := brought.trans (statementsIn_eq orderly found)
      have below : loadsBelow session folder text =
          session.theory.mergesBelow theory.statements := by
        rw [loadsBelow, merges, merging, Bool.not_true, Bool.false_or, same]
      rw [below] at safe
      have leaves := mergeFile_leaves sound orderly now file safe folder inputs
      refine leaves.mono fun after stored ahead comes => ?_
      rw [Loaded, if_pos (merges.trans merging), same]
      exact stored ahead (below ▸ comes)
    · next fault found =>
      refine ⟨sound, .unchanged fun _ => ?_⟩
      rw [brought, statementsIn, found]
  · next plain =>
    have kept : LoadedBelow session folder inputs text session.theory :=
      .unchanged fun merging => absurd (merges.symm.trans merging) plain
    refine mayReplace_leaves (fun allowed later => ?_) (fun _ => ⟨sound, kept⟩) ⟨sound, kept⟩
    have any (after : Theory) : LoadedBelow session folder inputs text after := by
      intro _ _
      rw [Loaded, if_neg (merges ▸ plain), <- or_assoc]
      exact .inl allowed
    rw [if_pos rfl]
    split
    · next content found =>
      exact replaceByFile_leaves sound (text_of_look holds found) any file folder later
    · exact ⟨⟨sound.orderly, sound.ahead, sound.known⟩, any _⟩

theorem loadCommand_leaves (sound : session.Sound tidy) (text : String)
    (holds : folder.Holds (Saved tidy))
    (safe : tidy -> loadsBelow session folder text = true) (inputs : List Input) :
    Leaves tidy session (LoadedBelow session folder inputs text) (loadCommand session text)
      folder inputs := by
  rw [loadCommand]
  split
  next name merge args =>
    split
    · next path =>
      refine ⟨sound, .unchanged fun _ => ?_⟩
      rw [broughtBy, args, path]
    · next file path =>
      have missing {fault : Fault} (looked : folder.look file = .missing fault) :
          broughtBy session folder text = [] := by
        rw [broughtBy_eq folder args path, looked]
        rfl
      rw [leaves_find]
      split
      · next looked => exact ⟨sound, .unchanged fun _ => missing looked⟩
      · next looked => exact ⟨sound, .unchanged fun _ => missing looked⟩
      · exact loadFound_leaves sound args path holds safe inputs

end Shell
end WeakKleene
