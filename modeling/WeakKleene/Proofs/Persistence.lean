import WeakKleene.Proofs.Numbering
import WeakKleene.Shell.Folder

namespace WeakKleene

/-!
# Theories in files

A theory that is in order is read back from its document: the same statements
in the same order, and the same counter.  Since no two of them share an id, none
takes the place of another while they are stored one by one.
-/

namespace Statement

theorem ofJson_toJson (statement : Statement) : ofJson statement.toJson = .ok statement := rfl

theorem Plain.toJson {statement : Statement} (plain : statement.Plain) :
    statement.toJson.Plain := by
  refine .record (by simp) ?_
  simp only [List.forall_mem_cons]
  exact ⟨plain.id, plain.sentence, plain.formula, plain.sign, plain.inferred, plain.timestamp,
    plain.metadata, nofun⟩

end Statement

variable {theory : Theory}

namespace Theory

open Statement (IsId)

theorem Orderly.toJson (orderly : theory.Orderly) (now : String) :
    (theory.toJson now).Plain := by
  rcases orderly with ⟨counter, numbered⟩
  have statements : (Json.list (theory.statements.map Statement.toJson)).Plain := by
    refine .list fun item listed => ?_
    rcases List.mem_map.mp listed with ⟨statement, member, rfl⟩
    exact (numbered.plain statement member).toJson
  have metadata : (Json.record [("version", .string "1.0"), ("created", .string now),
      ("next_id", theory.nextId)]).Plain := by
    rw [numbered.next]
    exact .record (by simp) (by simp [Json.Plain.string, Json.Plain.int])
  exact .record (by simp) (by simp [metadata, statements])

/-- Statements of different ids are stored one behind the other. -/
theorem loadStatements_toJson {statements : List Statement}
    (isId : forall statement, statement ∈ theory.statements ++ statements -> IsId statement.id)
    (distinct : ((theory.statements ++ statements).map Statement.id).Nodup) :
    theory.loadStatements (statements.map Statement.toJson) =
      ({ theory with statements := theory.statements ++ statements }, none) := by
  induction statements generalizing theory with
  | nil => rw [List.append_nil]; rfl
  | cons statement rest ih =>
    have here := isId statement (List.mem_append_right _ List.mem_cons_self)
    have last : (theory.put statement).statements = theory.statements ++ [statement] := by
      refine putStatement_new fun other member => Bool.eq_false_iff.mpr fun same => ?_
      rw [(isId other (List.mem_append_left _ member)).sameName_iff here] at same
      rw [List.map_append, List.map_cons, List.nodup_append] at distinct
      exact distinct.2.2 _ (List.mem_map_of_mem member) _ List.mem_cons_self same
    have isName : statement.id.isName = true := by
      rcases here with ⟨letter, number, same⟩
      rw [same]
      rfl
    rw [List.map_cons, loadStatements, Statement.ofJson_toJson]
    simp only [isName, if_true]
    rw [List.append_cons, <- last] at isId distinct
    rw [ih isId distinct, last, <- List.append_cons]
    rfl

theorem load_toJson {saved : Theory} {counter : Nat} (counted : saved.Counted counter)
    (now : String) :
    theory.load (saved.toJson now) =
      ({ theory with statements := saved.statements, nextId := saved.nextId }, none) :=
  @loadStatements_toJson { theory with statements := [], nextId := saved.nextId } _
    counted.isId counted.distinct

theorem loadDocument_document {saved : Theory} (orderly : saved.Orderly) (now : String) :
    theory.loadDocument (saved.document now) =
      ({ theory with statements := saved.statements, nextId := saved.nextId }, none) := by
  rw [loadDocument, document, Json.parse?_document (orderly.toJson now)]
  rcases orderly with ⟨counter, numbered⟩
  exact load_toJson numbered.toCounted now

end Theory

namespace Shell

theorem unifiedBreaks_eq_self {text : List Char} (clean : '\r' ∉ text) :
    unifiedBreaks text = text := by
  induction text with
  | nil => rfl
  | cons c rest ih =>
    rw [List.mem_cons, not_or] at clean
    rw [unifiedBreaks, ih clean.2]
    · exact fun _ equal _ => clean.1 equal.symm
    · exact fun equal => clean.1 equal.symm

theorem text_of_document (orderly : theory.Orderly) (now : String) :
    (Found.file (theory.document now)).text = .ok (theory.document now) := by
  rw [Found.text, Theory.document, Json.document,
    unifiedBreaks_eq_self (Json.clean_documentAt (orderly.toJson now) 0), String.ofList_toList]

end Shell
end WeakKleene
