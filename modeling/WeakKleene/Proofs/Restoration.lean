import WeakKleene.Proofs.Persistence

namespace WeakKleene
namespace Theory

/-!
# Theories that are saved and loaded

A theory that was built by its operations, cleared and loaded in any order has a
counter that is ahead of all its ids.  So its document, if it is read as it was
written, gives back the statements and the counter, whatever theory loads it.

What is done to the loaded theory numbers on from that counter.  No id that it
gives is one of those that were loaded, be their statements still there or
retracted since.
-/

open Statement (idOf numberOf)
open Relation (ReflTransGen)

/-- An operation on the statements of a theory, with any adviser or none. -/
inductive Works [Memory] (theory : Theory) : Theory -> Prop where
  | assert (now : String) (sentence formula sign : Json) :
      Works theory (theory.assert now sentence formula sign).1
  | retract (id : Json) : Works theory (theory.retract id).1
  | check (now : String) (adviser : Option Adviser) : Works theory (theory.check now adviser).1
  | infer {now : String} {adviser : Option Adviser} {after : Theory} {added : List Statement}
      (inferred : theory.infer now adviser = .ok (after, added)) : Works theory after

/-- The document of a theory is read as it was written. -/
def Decodes (theory : Theory) (now : String) : Prop :=
  Json.parse? (theory.document now) = some (theory.toJson now)

/-- A theory that the operations lead to, among them the load of a document into any theory. -/
inductive Reached [Memory] : Theory -> Prop where
  | empty : Reached Theory.empty
  | work {theory after : Theory} (before : Reached theory) (works : Works theory after) :
      Reached after
  | clear {theory : Theory} (before : Reached theory) : Reached theory.clear
  | load {saved : Theory} {now : String} (manager : Theory) (written : Reached saved)
      (decodes : saved.Decodes now) : Reached (manager.loadDocument (saved.document now)).1

theorem decodes_of_plain {theory : Theory} {counter : Nat} (counted : theory.Counted counter)
    (plain : forall statement, statement ∈ theory.statements -> statement.Plain) (now : String) :
    theory.Decodes now :=
  Json.parse?_document (Orderly.toJson ⟨counter, counted, plain⟩ now)

theorem Decodes.loadDocument {theory : Theory} {counter : Nat} {now : String}
    (decodes : theory.Decodes now) (counted : theory.Counted counter) (manager : Theory) :
    manager.loadDocument (theory.document now) =
      ({ manager with statements := theory.statements, nextId := theory.nextId }, none) := by
  rw [Theory.loadDocument, decodes]
  exact load_toJson counted now

/-! ## Numbering on -/

/-- What a theory has become since its counter stood at a number. -/
structure GoesOn (theory : Theory) (counter : Nat) (after : Theory) : Prop where
  counted : ∃ later, counter ≤ later ∧ after.Counted later
  ahead : after.isAhead = true
  new : forall statement, statement ∈ after.statements ->
    statement ∈ theory.statements ∨ counter ≤ numberOf statement.id

namespace GoesOn

variable {theory middle after : Theory} {counter : Nat}

theorem refl (counted : theory.Counted counter) (ahead : theory.isAhead = true) :
    theory.GoesOn counter theory :=
  ⟨⟨counter, Nat.le_refl counter, counted⟩, ahead, fun _ => .inl⟩

section

variable (goes : theory.GoesOn counter middle)
include goes

theorem draw {known : Prop} (draw : Draw known middle after) :
    theory.GoesOn counter after := by
  rcases goes.counted with ⟨number, reached, counted⟩
  rcases draw.counted counted with ⟨later, moved, counted, kept⟩
  rcases kept goes.ahead with ⟨ahead, added, last, numbers⟩
  refine ⟨⟨later, Nat.le_trans reached moved, counted⟩, ahead, fun statement member => ?_⟩
  rw [last] at member
  rcases List.mem_append.mp member with old | drawn
  · exact goes.new statement old
  · exact .inr (Nat.le_trans reached (numbers statement drawn))

theorem draws {known : Prop}
    (draws : Draws known middle after) : theory.GoesOn counter after := by
  induction draws with
  | refl => exact goes
  | tail _ last ih => exact ih.draw last

theorem filter (keep : Statement -> Bool) :
    theory.GoesOn counter { middle with statements := middle.statements.filter keep } := by
  rcases goes.counted with ⟨number, reached, counted⟩
  refine ⟨⟨number, reached, counted.filter keep⟩, isAhead_filter goes.ahead keep, ?_⟩
  exact fun statement member => goes.new statement (List.mem_filter.mp member).1

theorem work [Memory] (works : Works middle after) :
    theory.GoesOn counter after := by
  cases works with
  | assert now sentence formula sign => exact goes.draws (middle.draws_assert _ _ _ _)
  | retract id => exact middle.retract_eq id ▸ goes.filter _
  | check now adviser =>
    have draws : Draws False middle (middle.check now adviser).1 :=
      middle.draws_check now False.elim
    exact goes.draws draws
  | infer inferred =>
    have draws : Draws False middle after := draws_infer False.elim False.elim inferred
    exact goes.draws draws

theorem run [Memory] (works : ReflTransGen Works middle after) :
    theory.GoesOn counter after := by
  induction works with
  | refl => exact goes
  | tail _ last ih => exact ih.work last

end

/-- The next id is none of those that were there at first. -/
theorem unused (goes : theory.GoesOn counter after) (counted : theory.Counted counter)
    (ahead : theory.isAhead = true) (letter : Char) :
    ∃ id moved, after.takeId letter = .ok (id, moved) ∧
      .string id ∉ theory.statements.map Statement.id := by
  rcases goes.counted with ⟨later, reached, laterCounted⟩
  refine ⟨_, _, laterCounted.takeId letter, fun member => ?_⟩
  have below := counted.isAhead_iff.mp ahead _ member
  rw [Statement.numberOf_idOf] at below
  exact Nat.lt_irrefl _ (Nat.lt_of_lt_of_le below reached)

/-- A statement that was not there at first has an id of its own. -/
theorem fresh (goes : theory.GoesOn counter after) (counted : theory.Counted counter)
    (ahead : theory.isAhead = true) {statement : Statement}
    (member : statement ∈ after.statements) :
    statement ∈ theory.statements ∨ statement.id ∉ theory.statements.map Statement.id := by
  refine (goes.new statement member).imp_right fun number used => ?_
  exact Nat.lt_irrefl _ (Nat.lt_of_lt_of_le (counted.isAhead_iff.mp ahead _ used) number)

end GoesOn

theorem Reached.counted [Memory] {theory : Theory} (reached : theory.Reached) :
    ∃ counter, theory.Counted counter ∧ theory.isAhead = true := by
  induction reached with
  | empty => exact ⟨1, counted_empty, rfl⟩
  | work _ works ih =>
    rcases ih with ⟨counter, counted, ahead⟩
    have goes := (GoesOn.refl counted ahead).work works
    rcases goes.counted with ⟨later, _, counted⟩
    exact ⟨later, counted, goes.ahead⟩
  | @clear theory => exact ⟨1, theory.counted_clear, rfl⟩
  | load manager _ decodes ih =>
    rcases ih with ⟨counter, counted, ahead⟩
    rw [decodes.loadDocument counted]
    exact ⟨counter, ⟨counted.next, counted.isId, counted.distinct⟩, ahead⟩

/-- A theory that the operations lead to is restored from its document, and no id that is given
afterwards is one of those restored.  The document is read as it was written at least where all
texts are well-formed and no object names a field twice.  Whatever led to a theory, its next id is
not in use. -/
theorem restored_from_document [Memory] {theory : Theory} (reached : theory.Reached)
    (now : String) :
    ((forall statement, statement ∈ theory.statements -> statement.Plain) -> theory.Decodes now) ∧
      (forall manager : Theory, theory.Decodes now ->
        ∃ restored, manager.loadDocument (theory.document now) = (restored, none) ∧
          restored.statements = theory.statements ∧ restored.nextId = theory.nextId ∧
          forall later, ReflTransGen Works restored later ->
            (forall statement, statement ∈ later.statements -> statement ∈ restored.statements ∨
                statement.id ∉ restored.statements.map Statement.id) ∧
            forall letter, ∃ id moved, later.takeId letter = .ok (id, moved) ∧
              .string id ∉ restored.statements.map Statement.id) ∧
      forall letter, ∃ id moved, theory.takeId letter = .ok (id, moved) ∧
        .string id ∉ theory.statements.map Statement.id := by
  rcases reached.counted with ⟨counter, counted, ahead⟩
  refine ⟨fun plain => decodes_of_plain counted plain now, fun manager decodes => ?_,
    (GoesOn.refl counted ahead).unused counted ahead⟩
  let restored : Theory := { manager with statements := theory.statements, nextId := theory.nextId }
  have restoredCounted : restored.Counted counter := ⟨counted.next, counted.isId, counted.distinct⟩
  have restoredAhead : restored.isAhead = true := ahead
  refine ⟨restored, decodes.loadDocument counted manager, rfl, rfl, fun later works => ?_⟩
  have goes := (GoesOn.refl restoredCounted restoredAhead).run works
  exact ⟨fun statement => goes.fresh restoredCounted restoredAhead,
    goes.unused restoredCounted restoredAhead⟩

def retracted : Theory :=
  (((empty.assert "" (.string "P(a)") .null (.string "t")).1.assert "" (.string "Q(a)") .null
    (.string "f")).1.retract (.string "S0001")).1

open scoped Memory

theorem retracted_restored_from_document : retracted.Reached ∧ retracted.Decodes "" ∧
      ∃ restored, empty.loadDocument (retracted.document "") = (restored, none) ∧
        restored.statements.map Statement.id = [.string "S0002"] ∧ restored.nextId = .int 3 ∧
        forall later, ReflTransGen Works restored later ->
          forall letter, ∃ id moved, later.takeId letter = .ok (id, moved) ∧
            .string id ∉ restored.statements.map Statement.id := by
  have reached : retracted.Reached :=
    .work (.work (.work .empty (.assert _ _ _ _)) (.assert _ _ _ _)) (.retract _)
  have orderly : retracted.Orderly := by
    have first := (orderly_empty.assert "" (.string "P(a)") .null (.string "t")).1.orderly
    have second := (first.assert "" (.string "Q(a)") .null (.string "f")).1.orderly
    rw [retracted, retract_eq]
    exact second.filter _
  rcases orderly with ⟨counter, numbered⟩
  have decodes := (restored_from_document reached "").1 numbered.plain
  rcases (restored_from_document reached "").2.1 empty decodes with
    ⟨restored, loaded, same, next, further⟩
  refine ⟨reached, decodes, restored, loaded, ?_, ?_, fun later works => (further later works).2⟩
  · rw [same]
    with_unfolding_all rfl
  · rw [next]
    with_unfolding_all rfl

end Theory
end WeakKleene
