import WeakKleene.Proofs.Document
import WeakKleene.Theory.File

namespace WeakKleene

/-!
# Loads that break off

A load takes over the counter of a file first and then its statements one by
one.  When it breaks off, what it has taken over by then stays.  So a load that
fails leaves the theory as it was exactly if the file tells no counter at all, or
if all that it told by then is what the theory held already.
-/

namespace Statement

/-- The statement that is stored for an entry of a file. -/
def StoredFor (data : Json) (statement : Statement) : Prop :=
  ofJson data = .ok statement ∧ statement.id.isName = true

/-- An entry that cannot be stored: it is no statement, or its id names nothing. -/
inductive Refused : Json -> Fault -> Prop where
  | unreadable {data : Json} {fault : Fault} (read : ofJson data = .error fault) :
      Refused data fault
  | unnamed {data : Json} {statement : Statement} (read : ofJson data = .ok statement)
      (unnamed : statement.id.isName = false) : Refused data (.notName statement.id.kind)

theorem storedFor_or_refused (data : Json) :
    (∃ statement, StoredFor data statement) ∨ ∃ fault, Refused data fault := by
  cases read : ofJson data with
  | error fault => exact .inr ⟨fault, .unreadable read⟩
  | ok statement =>
    cases named : statement.id.isName with
    | false => exact .inr ⟨_, .unnamed read named⟩
    | true => exact .inl ⟨statement, read, named⟩

end Statement

namespace Theory

open Statement (StoredFor Refused)

/-- Statements stored one after the other, a later one in place of an earlier one of its id. -/
def arranged (statements : List Statement) : List Statement :=
  statements.foldl (fun kept statement => putStatement statement kept) []

/-- What a file has told when its load breaks off with a fault: nothing, or its counter and the
statements before the entry that is refused. -/
inductive BreaksOff (text : String) : Option (Json × List Statement) -> Fault -> Prop where
  | unreadable (read : Json.parse? text = none) : BreaksOff text none .notJson
  | uncounted {data : Json} {fault : Fault} (read : Json.parse? text = some data)
      (counted : numbering data = .error fault) : BreaksOff text none fault
  | unlisted {data counter : Json} {fault : Fault} (read : Json.parse? text = some data)
      (counted : numbering data = .ok counter) (listed : statementData data = .error fault) :
      BreaksOff text (some (counter, [])) fault
  | refused {data counter broken : Json} {fault : Fault} {earlier later : List Json}
      {statements : List Statement} (read : Json.parse? text = some data)
      (counted : numbering data = .ok counter)
      (listed : statementData data = .ok (earlier ++ broken :: later))
      (stored : List.Forall₂ StoredFor earlier statements) (refused : Refused broken fault) :
      BreaksOff text (some (counter, statements)) fault

/-- The theory that has taken over what a file told. -/
def takingOver (theory : Theory) : Option (Json × List Statement) -> Theory
  | none => theory
  | some (counter, statements) =>
    { theory with statements := arranged statements, nextId := counter }

/-! ## Entry by entry -/

variable {theory : Theory} {fault : Fault}

theorem loadStatements_stored {data : Json} {statement : Statement}
    (stored : StoredFor data statement) (rest : List Json) :
    theory.loadStatements (data :: rest) = (theory.put statement).loadStatements rest := by
  rw [loadStatements, stored.1]
  simp only [stored.2, if_true]

theorem loadStatements_refused {data : Json} (refused : Refused data fault) (rest : List Json) :
    theory.loadStatements (data :: rest) = (theory, some fault) := by
  cases refused with
  | unreadable read => rw [loadStatements, read]
  | unnamed read unnamed =>
    rw [loadStatements, read]
    simp only [unnamed, Bool.false_eq_true, if_false]

/-- The entries before one that is refused are stored. -/
theorem loadStatements_append {earlier : List Json} {statements : List Statement}
    (stored : List.Forall₂ StoredFor earlier statements) (rest : List Json) :
    theory.loadStatements (earlier ++ rest) =
      (statements.foldl put theory).loadStatements rest := by
  induction stored generalizing theory with
  | nil => rfl
  | cons first _ ih => rw [List.cons_append, loadStatements_stored first, ih, List.foldl_cons]

/-- Statements are refused because of one of them, and those before it are not. -/
theorem exists_refused {items : List Json} (failed : (theory.loadStatements items).2 = some fault) :
    ∃ earlier broken later statements, items = earlier ++ broken :: later ∧
      List.Forall₂ StoredFor earlier statements ∧ Refused broken fault := by
  induction items generalizing theory with
  | nil => cases failed
  | cons data rest ih =>
    rcases Statement.storedFor_or_refused data with ⟨statement, stored⟩ | ⟨cause, refused⟩
    · rw [loadStatements_stored stored] at failed
      rcases ih failed with ⟨earlier, broken, later, statements, rfl, before, refused⟩
      exact ⟨data :: earlier, broken, later, statement :: statements, rfl, .cons stored before,
        refused⟩
    · rw [loadStatements_refused refused] at failed
      cases failed
      exact ⟨[], data, rest, [], rfl, .nil, refused⟩

theorem foldl_put (theory : Theory) (statements : List Statement) :
    statements.foldl put theory = { theory with
      statements := statements.foldl (fun kept statement => putStatement statement kept)
        theory.statements } := by
  induction statements generalizing theory with
  | nil => rfl
  | cons statement rest ih =>
    rw [List.foldl_cons, ih, List.foldl_cons]
    rfl

/-! ## The whole file -/

theorem loadDocument_of_breaksOff {text : String} {told : Option (Json × List Statement)}
    (breaks : BreaksOff text told fault) (theory : Theory) :
    theory.loadDocument text = (theory.takingOver told, some fault) := by
  cases breaks with
  | unreadable read => rw [loadDocument, read]; rfl
  | uncounted read counted =>
    rw [loadDocument, read]
    simp only [load, counted]
    rfl
  | unlisted read counted listed =>
    rw [loadDocument, read]
    simp only [load, counted, listed]
    rfl
  | refused read counted listed stored refused =>
    rw [loadDocument, read]
    simp only [load, counted, listed]
    rw [loadStatements_append stored, loadStatements_refused refused, foldl_put]
    rfl

theorem breaksOff_of_failed {text : String} (failed : (theory.loadDocument text).2 = some fault) :
    ∃ told, BreaksOff text told fault := by
  rw [loadDocument] at failed
  cases read : Json.parse? text with
  | none =>
    rw [read] at failed
    cases failed
    exact ⟨none, .unreadable read⟩
  | some data =>
    simp only [read, load] at failed
    cases counted : numbering data with
    | error cause =>
      simp only [counted] at failed
      cases failed
      exact ⟨none, .uncounted read counted⟩
    | ok counter =>
      simp only [counted] at failed
      cases listed : statementData data with
      | error cause =>
        simp only [listed] at failed
        cases failed
        exact ⟨_, .unlisted read counted listed⟩
      | ok items =>
        simp only [listed] at failed
        rcases exists_refused failed with ⟨earlier, broken, later, statements, rfl, stored, refused⟩
        exact ⟨_, .refused read counted listed stored refused⟩

/-- A load that fails leaves statements and counter as they were exactly if all that the file told
before it broke off is what the theory held already, as it is if the file told nothing. -/
theorem kept_by_failed_load_iff {theory : Theory} {text : String} {fault : Fault}
    (failed : (theory.loadDocument text).2 = some fault) :
    ∃ told, BreaksOff text told fault ∧ (theory.loadDocument text).1 = theory.takingOver told ∧
      (((theory.loadDocument text).1.statements = theory.statements ∧
          (theory.loadDocument text).1.nextId = theory.nextId) ↔
        forall counter statements, told = some (counter, statements) ->
          counter = theory.nextId ∧ arranged statements = theory.statements) := by
  rcases breaksOff_of_failed failed with ⟨told, breaks⟩
  rw [loadDocument_of_breaksOff breaks]
  refine ⟨told, breaks, rfl, ?_⟩
  rcases told with _ | ⟨counter, statements⟩
  · exact ⟨nofun, fun _ => ⟨rfl, rfl⟩⟩
  · constructor
    · rintro ⟨same, next⟩ _ _ ⟨⟩
      exact ⟨next, same⟩
    · intro held
      rcases held counter statements rfl with ⟨next, same⟩
      exact ⟨same, next⟩

def unnamedEntry : Json :=
  .record [
    ("metadata", .record [("next_id", .int 7)]),
    ("statements", .list [
      .record [("id", .string "S0004"), ("natural_language", .string "Q(b)")],
      .record [("natural_language", .string "x")]])]

theorem loadDocument_unnamedEntry (theory : Theory) :
    theory.loadDocument unnamedEntry.document = theory.load unnamedEntry := by
  have plain : unnamedEntry.Plain := by
    have entries : forall entry, entry ∈ [
        Json.record [("id", .string "S0004"), ("natural_language", .string "Q(b)")],
        Json.record [("natural_language", .string "x")]] -> entry.Plain := by
      simp only [List.forall_mem_cons]
      exact ⟨.record (by simp) (by simp [Json.Plain.string]),
        .record (by simp) (by simp [Json.Plain.string]), nofun⟩
    refine .record (by simp) ?_
    simp only [List.forall_mem_cons]
    exact ⟨.record (by simp) (by simp [Json.Plain.int]), .list entries, nofun⟩
  rw [loadDocument, Json.parse?_document plain]

theorem kept_by_failed_load_of_unnamed_entry :
    (empty.loadDocument unnamedEntry.document).2 = some (.missingField "id") ∧
      ∃ told, BreaksOff unnamedEntry.document told (.missingField "id") ∧
        (empty.loadDocument unnamedEntry.document).1 = empty.takingOver told ∧
        (((empty.loadDocument unnamedEntry.document).1.statements = [] ∧
            (empty.loadDocument unnamedEntry.document).1.nextId = .int 1) ↔
          forall counter statements, told = some (counter, statements) ->
            counter = .int 1 ∧ arranged statements = []) :=
  have failed : (empty.loadDocument unnamedEntry.document).2 = some (.missingField "id") := by
    rw [loadDocument_unnamedEntry]
    rfl
  ⟨failed, kept_by_failed_load_iff failed⟩

/-- The one statement of a theory is lost to a load that fails, and another one and another counter
are there instead. -/
theorem failed_load_replaces_statements :
    let asserted := (empty.assert "" (.string "P(a)") .null (.string "t")).1
    let loaded := asserted.loadDocument unnamedEntry.document
    asserted.statements.map Statement.id = [.string "S0001"] ∧ asserted.nextId = .int 2 ∧
      loaded.2 = some (.missingField "id") ∧
      loaded.1.statements.map Statement.id = [.string "S0004"] ∧ loaded.1.nextId = .int 7 := by
  intro asserted loaded
  have loaded_eq : loaded = asserted.load unnamedEntry := loadDocument_unnamedEntry asserted
  rw [loaded_eq]
  exact ⟨by with_unfolding_all rfl, by with_unfolding_all rfl, rfl, rfl, rfl⟩

end Theory
end WeakKleene
