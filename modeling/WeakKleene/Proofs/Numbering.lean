import Mathlib.Data.List.Nodup
import Mathlib.Logic.Relation
import WeakKleene.Proofs.Chaining
import WeakKleene.Proofs.Document
import WeakKleene.Theory.File
import WeakKleene.Theory.Report

namespace WeakKleene

/-!
# Numbers that run ahead

New statements are numbered from one counter, whatever letter their ids start
with.  As long as every id is numbered below the counter, a new id is unused:
the statement goes behind all others and replaces none.

Every operation of a theory but merging keeps the counter ahead.  A merged
statement keeps its id if that is unused, and the counter takes no notice of it.
Where such an id is numbered at or above the counter, the counter will come to
it later, and the statement is replaced.  `isAhead` tells whether the counter is
ahead, and `mergesBelow` tells beforehand that a merge leaves it so.

No operation gives two statements one id, whether the counter is ahead or not.

Asserting, checking and inferring take many ways, but all that they do to the
statements and the counter is a number of draws: the next id is taken, and a
statement is stored under it or not.
-/

open Json (Plain)

/-! ## Ids -/

theorem Json.sameName_string {id : Json} {text : String} :
    id.sameName (.string text) = true ↔ id = .string text := by
  cases id with
  | string other => rw [sameName, beq_iff_eq, Json.string.injEq]
  | _ => simp [sameName, rank?, number?]

variable {letter : Char}

namespace Statement

theorem ofDigitChars_paddedNumber (number : Nat) :
    Nat.ofDigitChars 10 (paddedNumber number).toList 0 = number := by
  have natural : ¬ (number : Int) < 0 := by omega
  simp only [paddedNumber, natural, if_false, List.nil_append, Int.natAbs_natCast,
    String.toList_ofList, Nat.ofDigitChars_append, Nat.ofDigitChars_replicate_zero, Nat.mul_zero,
    Nat.ofDigitChars_ten_toDigits]

theorem toList_idOf (letter : Char) (number : Int) :
    (idOf letter number).toList = letter :: (paddedNumber number).toList := by
  simp [idOf]

/-- A number is written as its sign and its digits, with zeros in between. -/
theorem exists_toList_paddedNumber (number : Int) :
    ∃ zeros, (paddedNumber number).toList = (if number < 0 then ['-'] else []) ++
      (List.replicate zeros '0' ++ Nat.toDigits 10 number.natAbs) := by
  refine ⟨4 - (if number < 0 then ['-'] else []).length -
    (Nat.toDigits 10 number.natAbs).length, ?_⟩
  rw [paddedNumber, String.toList_ofList, List.append_assoc]

theorem paddedNumber_inj {first second : Int} (same : paddedNumber first = paddedNumber second) :
    first = second := by
  have unsigned (zeros number : Nat) :
      '-' ∉ List.replicate zeros '0' ++ Nat.toDigits 10 number := by
    intro member
    rcases List.mem_append.mp member with zero | digit
    · exact absurd (List.eq_of_mem_replicate zero) (by decide)
    · exact absurd (Nat.isDigit_of_mem_toDigits (by decide) (by decide) digit) (by decide)
  have sign (number : Int) : '-' ∈ (paddedNumber number).toList ↔ number < 0 := by
    rcases exists_toList_paddedNumber number with ⟨zeros, written⟩
    rw [written, List.mem_append, or_iff_left (unsigned zeros number.natAbs)]
    split <;> simp_all
  have value (number : Int) :
      Nat.ofDigitChars 10 ((paddedNumber number).toList.filter (· != '-')) 0 = number.natAbs := by
    rcases exists_toList_paddedNumber number with ⟨zeros, written⟩
    have digits : (List.replicate zeros '0' ++ Nat.toDigits 10 number.natAbs).filter (· != '-') =
        List.replicate zeros '0' ++ Nat.toDigits 10 number.natAbs :=
      List.filter_eq_self.mpr fun c member =>
        bne_iff_ne.mpr fun same => unsigned zeros number.natAbs (same ▸ member)
    have signless : (if number < 0 then ['-'] else []).filter (· != '-') = [] := by
      split <;> rfl
    rw [written, List.filter_append, signless, digits, List.nil_append, Nat.ofDigitChars_append,
      Nat.ofDigitChars_replicate_zero, Nat.mul_zero, Nat.ofDigitChars_ten_toDigits]
  have signs : first < 0 ↔ second < 0 := by rw [<- sign first, same, sign second]
  have sizes : first.natAbs = second.natAbs := by rw [<- value first, same, value second]
  omega

theorem idOf_inj {first second : Int}
    (same : idOf letter first = idOf letter second) : first = second := by
  have chars := congrArg String.toList same
  rw [toList_idOf, toList_idOf] at chars
  exact paddedNumber_inj (String.toList_inj.mp (List.cons.inj chars).2)

def numberOf : Json -> Nat
  | .string text => Nat.ofDigitChars 10 (text.toList.drop 1) 0
  | _ => 0

theorem numberOf_idOf (letter : Char) (number : Nat) :
    numberOf (.string (idOf letter number)) = number := by
  rw [numberOf, toList_idOf, List.drop_one, List.tail_cons, ofDigitChars_paddedNumber]

/-- An id of a letter and a number. -/
def IsId (id : Json) : Prop := ∃ letter number, id = .string (idOf letter (number : Nat))

/-- Ids are the same name only if they are the same. -/
theorem IsId.sameName_iff {id other : Json} (isId : IsId id) (isOther : IsId other) :
    id.sameName other = true ↔ id = other := by
  rcases isId with ⟨letter, number, rfl⟩
  rcases isOther with ⟨another, count, rfl⟩
  rw [Json.sameName, beq_iff_eq, Json.string.injEq]

/-- A statement that a document can hold. -/
structure Plain (statement : Statement) : Prop where
  id : statement.id.Plain
  sentence : statement.sentence.Plain
  formula : statement.formula.Plain
  sign : statement.sign.Plain
  inferred : statement.inferred.Plain
  timestamp : statement.timestamp.Plain
  metadata : statement.metadata.Plain

end Statement

namespace Theory

open Statement (IsId idOf numberOf)
open Tableau (exists_of_bind_eq_ok)

/-- The counter is a number, and no two statements share an id. -/
structure Counted (theory : Theory) (counter : Nat) : Prop where
  next : theory.nextId = .int counter
  isId : forall statement, statement ∈ theory.statements -> IsId statement.id
  distinct : (theory.statements.map Statement.id).Nodup

/-- Besides, a document can hold all that the theory holds. -/
structure Numbered (theory : Theory) (counter : Nat) : Prop extends theory.Counted counter where
  plain : forall statement, statement ∈ theory.statements -> statement.Plain

def Orderly (theory : Theory) : Prop := ∃ counter, theory.Numbered counter

/-- Whether every id is numbered below the counter. -/
def isAhead (theory : Theory) : Bool :=
  (theory.statements.map Statement.id).all fun id =>
    theory.nextId.number?.any fun counter => (numberOf id : Int) < counter

/-- A theory that is in order, and that only has new statements behind those of another if the
counter was ahead.  The counter is ahead again. -/
structure Grows (theory after : Theory) : Prop where
  orderly : after.Orderly
  kept : theory.isAhead = true -> after.isAhead = true ∧ theory.statements <+: after.statements

theorem Grows.trans {theory middle after : Theory} (first : theory.Grows middle)
    (second : middle.Grows after) : theory.Grows after := by
  refine ⟨second.orderly, fun ahead => ?_⟩
  rcases first.kept ahead with ⟨ahead, before⟩
  rcases second.kept ahead with ⟨ahead, later⟩
  exact ⟨ahead, before.trans later⟩

theorem Orderly.refl {theory : Theory} (orderly : theory.Orderly) : theory.Grows theory :=
  ⟨orderly, fun ahead => ⟨ahead, List.prefix_refl _⟩⟩

theorem Counted.isAhead_iff {theory : Theory} {counter : Nat} (counted : theory.Counted counter) :
    theory.isAhead = true ↔
      forall id, id ∈ theory.statements.map Statement.id -> numberOf id < counter := by
  rw [isAhead, counted.next, List.all_eq_true]
  refine forall_congr' fun id => forall_congr' fun _ => ?_
  rw [Json.number?, Option.any_some, decide_eq_true_eq, Int.ofNat_lt]

/-! ## Storing -/

variable {statements : List Statement}

theorem putStatement_new {statement : Statement}
    (new : forall other, other ∈ statements -> other.id.sameName statement.id = false) :
    putStatement statement statements = statements ++ [statement] := by
  induction statements with
  | nil => rfl
  | cons first rest ih =>
    rw [putStatement, new first List.mem_cons_self, if_neg Bool.false_ne_true,
      ih fun other member => new other (List.mem_cons_of_mem _ member)]
    rfl

theorem mem_putStatement_self (statement : Statement) (statements : List Statement) :
    statement ∈ putStatement statement statements := by
  induction statements with
  | nil => exact List.mem_cons_self
  | cons first rest ih =>
    rw [putStatement]
    split
    · exact List.mem_cons_self
    · exact List.mem_cons_of_mem first ih

theorem mem_putStatement {statement other : Statement}
    (member : other ∈ putStatement statement statements) :
    other ∈ statements ∨ other = statement := by
  induction statements with
  | nil => exact .inr (List.mem_singleton.mp member)
  | cons first rest ih =>
    rw [putStatement] at member
    split at member
    · rcases List.mem_cons.mp member with same | old
      · exact .inr same
      · exact .inl (List.mem_cons_of_mem first old)
    · rcases List.mem_cons.mp member with rfl | later
      · exact .inl List.mem_cons_self
      · exact (ih later).imp_left (List.mem_cons_of_mem first)

/-- A statement with an id in use takes the place of the one that has it. -/
theorem map_id_putStatement {statement : Statement}
    (isId : forall other, other ∈ statements -> IsId other.id) (isNew : IsId statement.id)
    (used : statement.id ∈ statements.map Statement.id) :
    (putStatement statement statements).map Statement.id = statements.map Statement.id := by
  induction statements with
  | nil => cases used
  | cons first rest ih =>
    have same := (isId first List.mem_cons_self).sameName_iff isNew
    rw [putStatement]
    split
    · next equal => rw [List.map_cons, List.map_cons, same.mp equal]
    · next different =>
      rcases List.mem_cons.mp used with equal | later
      · exact absurd (same.mpr equal.symm) different
      · rw [List.map_cons, List.map_cons, ih
          (fun other member => isId other (List.mem_cons_of_mem first member)) later]

variable {theory : Theory} {counter : Nat} {statement : Statement}

theorem Counted.put_unused (counted : theory.Counted counter) (isId : IsId statement.id)
    (unused : statement.id ∉ theory.statements.map Statement.id) :
    (theory.put statement).statements = theory.statements ++ [statement] := by
  refine putStatement_new fun other member => Bool.eq_false_iff.mpr fun same => ?_
  rw [(counted.isId other member).sameName_iff isId] at same
  exact unused (same ▸ List.mem_map_of_mem member)

theorem Counted.put (counted : theory.Counted counter) (isId : IsId statement.id) :
    (theory.put statement).Counted counter := by
  refine ⟨counted.next, fun other member => ?_, ?_⟩
  · rcases mem_putStatement member with old | rfl
    · exact counted.isId other old
    · exact isId
  · -- The list of ids stays as it is, or the new id is not among them.
    by_cases used : statement.id ∈ theory.statements.map Statement.id
    · rw [Theory.put, map_id_putStatement counted.isId isId used]
      exact counted.distinct
    · rw [counted.put_unused isId used, List.map_append, List.map_singleton, List.nodup_append]
      refine ⟨counted.distinct, List.nodup_singleton _, fun id old new single same => ?_⟩
      rw [List.mem_singleton] at single
      exact used (single ▸ same ▸ old)

theorem Numbered.put (numbered : theory.Numbered counter) (isId : IsId statement.id)
    (plain : statement.Plain) : (theory.put statement).Numbered counter := by
  refine ⟨numbered.toCounted.put isId, fun other member => ?_⟩
  rcases mem_putStatement member with old | rfl
  · exact numbered.plain other old
  · exact plain

section

variable (counted : theory.Counted counter)
include counted

theorem Counted.move :
    { theory with nextId := .int (counter + 1) : Theory }.Counted (counter + 1) where
  next := rfl
  isId := counted.isId
  distinct := counted.distinct

theorem Counted.isAhead_move (ahead : theory.isAhead = true) :
    { theory with nextId := .int (counter + 1) : Theory }.isAhead = true := by
  rw [counted.isAhead_iff] at ahead
  rw [counted.move.isAhead_iff]
  exact fun id member => Nat.lt_succ_of_lt (ahead id member)

theorem Counted.takeId (letter : Char) : theory.takeId letter =
      .ok (idOf letter counter, { theory with nextId := .int (counter + 1) }) := by
  rw [Theory.takeId, nextNumber, counted.next]
  rfl

/-- A statement with an unused number below the counter leaves the counter ahead. -/
theorem Counted.put_below (isId : IsId statement.id)
    (ahead : theory.isAhead = true) (below : numberOf statement.id < counter)
    (unused : statement.id ∉ theory.statements.map Statement.id) :
    (theory.put statement).isAhead = true ∧
      (theory.put statement).statements = theory.statements ++ [statement] := by
  have last := counted.put_unused isId unused
  refine ⟨?_, last⟩
  rw [counted.isAhead_iff] at ahead
  rw [(counted.put isId).isAhead_iff, last, List.map_append, List.map_singleton]
  intro id member
  rcases List.mem_append.mp member with old | new
  · exact ahead id old
  · rw [List.mem_singleton] at new
    exact new ▸ below

theorem Counted.unused (ahead : theory.isAhead = true)
    (letter : Char) : .string (idOf letter counter) ∉ theory.statements.map Statement.id := by
  intro member
  have below := counted.isAhead_iff.mp ahead _ member
  rw [Statement.numberOf_idOf] at below
  exact Nat.lt_irrefl _ below

/-- A statement under the next id goes behind all others, if the counter is ahead. -/
theorem Counted.put_next (next : statement.id = .string (idOf letter counter))
    (ahead : theory.isAhead = true) :
    let after := { theory with nextId := .int (counter + 1) : Theory }.put statement
    after.isAhead = true ∧ after.statements = theory.statements ++ [statement] := by
  refine counted.move.put_below ⟨letter, counter, next⟩ (counted.isAhead_move ahead) ?_ ?_
  · rw [next, Statement.numberOf_idOf]
    exact Nat.lt_succ_self counter
  · rw [next]
    exact counted.unused ahead letter

end

/-! ## Draws -/

/-- One step of an operation: the next id is taken, with or without a statement that is stored under
it, or the time is noted.  Where `known` holds, a document can hold the statement. -/
inductive Draw (known : Prop) (theory : Theory) : Theory -> Prop where
  | skip {letter : Char} {id : String} {after : Theory}
      (taken : theory.takeId letter = .ok (id, after)) : Draw known theory after
  | store {letter : Char} {id : String} {after : Theory} {statement : Statement}
      (taken : theory.takeId letter = .ok (id, after)) (named : statement.id = .string id)
      (plain : known -> statement.Plain) : Draw known theory (after.put statement)
  | retime (timings : Timings) : Draw known theory { theory with timings := timings }

def Draws (known : Prop) : Theory -> Theory -> Prop := Relation.ReflTransGen (Draw known)

variable {known : Prop} {after : Theory}

/-- A draw moves the counter on at most, and puts behind all others what it stores, if the counter
is ahead. -/
theorem Draw.counted (draw : Draw known theory after) (counted : theory.Counted counter) :
    ∃ later, counter ≤ later ∧ after.Counted later ∧
      (theory.isAhead = true -> after.isAhead = true ∧
        ∃ added, after.statements = theory.statements ++ added ∧
          forall statement, statement ∈ added -> counter ≤ numberOf statement.id) := by
  cases draw with
  | @skip letter id _ taken =>
    cases (counted.takeId letter).symm.trans taken
    exact ⟨counter + 1, Nat.le_succ counter, counted.move, fun ahead =>
      ⟨counted.isAhead_move ahead, [], (List.append_nil _).symm, nofun⟩⟩
  | @store letter id _ statement taken named plain =>
    cases (counted.takeId letter).symm.trans taken
    have isId : IsId statement.id := ⟨letter, counter, named⟩
    refine ⟨counter + 1, Nat.le_succ counter, counted.move.put isId, fun ahead => ?_⟩
    rcases counted.put_next named ahead with ⟨further, last⟩
    refine ⟨further, [statement], last, fun other member => ?_⟩
    have same : numberOf other.id = counter := by
      rw [List.mem_singleton.mp member, named, Statement.numberOf_idOf]
    exact Nat.le_of_eq same.symm
  | retime timings =>
    exact ⟨counter, Nat.le_refl counter, ⟨counted.next, counted.isId, counted.distinct⟩,
      fun ahead => ⟨ahead, [], (List.append_nil _).symm, nofun⟩⟩

theorem takeId_eq_ok {id : String} {moved : Theory}
    (taken : theory.takeId letter = .ok (id, moved)) :
    (∃ number, id = Statement.idOf letter number) ∧ moved.statements = theory.statements := by
  rcases exists_of_bind_eq_ok taken with ⟨number, _, same⟩
  cases same
  exact ⟨⟨number, rfl⟩, rfl⟩

theorem Draw.plain (draw : Draw known theory after) (holds : known)
    (plain : forall statement, statement ∈ theory.statements -> statement.Plain) :
    forall statement, statement ∈ after.statements -> statement.Plain := by
  cases draw with
  | skip taken => exact (takeId_eq_ok taken).2 ▸ plain
  | store taken named fits =>
    intro statement member
    rcases mem_putStatement member with old | rfl
    · exact plain statement ((takeId_eq_ok taken).2 ▸ old)
    · exact fits holds
  | retime timings => exact plain

theorem Draw.grows (draw : Draw known theory after) (holds : known) (orderly : theory.Orderly) :
    theory.Grows after := by
  rcases orderly with ⟨counter, numbered⟩
  rcases draw.counted numbered.toCounted with ⟨later, _, counted, kept⟩
  refine ⟨⟨later, counted, draw.plain holds numbered.plain⟩, fun ahead => ?_⟩
  rcases kept ahead with ⟨further, added, last, _⟩
  exact ⟨further, last ▸ List.prefix_append _ _⟩

theorem Draws.grows (draws : Draws known theory after) (holds : known) (orderly : theory.Orderly) :
    theory.Grows after := by
  induction draws with
  | refl => exact orderly.refl
  | tail _ last ih => exact ih.trans (last.grows holds ih.orderly)

/-! ## New statements -/

end Theory

structure Draft.Plain (draft : Draft) : Prop where
  sentence : draft.sentence.Plain
  metadata : (Json.object draft.metadata).Plain

theorem Draft.Plain.statement {draft : Draft} (plain : draft.Plain) (id now : String) :
    (draft.statement id now).Plain where
  id := .string id
  sentence := plain.sentence
  formula := .string draft.formula
  sign := .string draft.sign
  inferred := .bool _
  timestamp := .string now
  metadata := plain.metadata

/-- An adviser that tells nothing about itself, or fields that a document can hold. -/
def Adviser.Plain (adviser : Adviser) : Prop :=
  adviser.info = none ∨ ∃ fields, adviser.info = some (.object fields) ∧ (Json.object fields).Plain

variable {fields : List (FieldName × Json)}

theorem Json.Plain.putAll {known : List (FieldName × Json)} (plain : (Json.object known).Plain)
    (told : (Json.object fields).Plain) :
    (Json.object (fields.foldl (fun known (name, value) => Json.put name value known)
      known)).Plain := by
  cases told with
  | object distinct named all =>
    clear distinct
    induction fields generalizing known with
    | nil => exact plain
    | cons field rest ih =>
      rcases field with ⟨key, value⟩
      rcases named _ List.mem_cons_self with ⟨name, rfl⟩
      exact ih (plain.put name (all _ List.mem_cons_self))
        (fun field member => named field (List.mem_cons_of_mem _ member))
        fun field member => all field (List.mem_cons_of_mem _ member)

variable {metadata : List (FieldName × Json)} {derivations : List Derivation} {updated : Statement}

theorem Adviser.Plain.signed {adviser : Adviser} (plain : adviser.Plain)
    (known : (Json.object metadata).Plain) :
    ∃ fields, adviser.signed metadata = .ok fields ∧ (Json.object fields).Plain := by
  rcases plain with silent | ⟨fields, told, plain⟩
  · exact ⟨metadata, by rw [Adviser.signed, silent]; rfl, known⟩
  · exact ⟨_, by rw [Adviser.signed, told]; rfl, known.putAll plain⟩

theorem Adviser.Plain.of_signed {adviser : Adviser} (plain : adviser.Plain)
    (known : (Json.object metadata).Plain)
    (signed : adviser.signed metadata = .ok fields) : (Json.object fields).Plain := by
  rcases plain.signed known with ⟨others, same, told⟩
  cases signed.symm.trans same
  exact told

namespace Theory

open Statement (IsId idOf numberOf)
open Tableau (exists_of_bind_eq_ok)

variable {theory after : Theory} {known : Prop}

variable {now : String} {draft : Draft} {statement : Statement} {adviser : Adviser}
variable {state next : Theory × List Statement} {derivation : Derivation}
variable {statements : List Statement}

theorem draws_add (plain : known -> draft.Plain)
    (added : theory.add now draft = .ok (after, statement)) :
    Draws known theory after := by
  rcases exists_of_bind_eq_ok added with ⟨⟨id, moved⟩, taken, same⟩
  cases same
  exact .single (.store taken rfl fun holds => (plain holds).statement id now)

theorem draws_addSigned (now : String) (signer : known -> adviser.Plain)
    (plain : known -> draft.Plain) :
    Draws known theory (theory.addSigned now adviser draft).1 := by
  rw [Theory.addSigned]
  split
  · exact .refl
  · next id moved taken =>
    split
    · exact .single (.skip taken)
    · next fields signed =>
      refine .single (.store taken rfl fun holds => ?_)
      have told : { draft with metadata := fields : Draft }.Plain :=
        ⟨(plain holds).sentence, (signer holds).of_signed (plain holds).metadata signed⟩
      exact told.statement id now

theorem Orderly.addSigned (orderly : theory.Orderly) (now : String)
    (known : adviser.Plain) (plain : draft.Plain) :
    theory.Grows (theory.addSigned now adviser draft).1 :=
  (draws_addSigned now (fun _ => known) fun _ => plain).grows trivial orderly

/-- Asserting takes no id, or one for nothing, or one for the statement it returns. -/
theorem assert_cases (theory : Theory) (now : String) (sentence formula sign : Json) :
    (∃ fault, theory.assert now sentence formula sign = (theory, .error fault)) ∨
      ∃ id moved, theory.takeId Origin.asserted.letter = .ok (id, moved) ∧
        ((∃ fault, theory.assert now sentence formula sign = (moved, .error fault)) ∨
          ∃ statement, theory.assert now sentence formula sign =
              (moved.put statement, .ok statement) ∧
            statement.id = .string id ∧ (sentence.Plain -> statement.Plain)) := by
  rw [Theory.assert]
  split
  · exact .inl ⟨_, rfl⟩
  · next sign _ =>
    split
    · exact .inl ⟨_, rfl⟩
    · next id moved taken =>
      refine .inr ⟨id, moved, taken, ?_⟩
      split
      · exact .inl ⟨_, rfl⟩
      · next formula _ =>
        have source : (Json.record [("source", .string "user_assertion")]).Plain :=
          .record (by decide) (by simp [Plain.string])
        refine .inr ⟨_, rfl, rfl, fun plain => ?_⟩
        have draft : Draft.Plain ⟨.asserted, sentence, formula, sign,
            [("source", .string "user_assertion")]⟩ := ⟨plain, source⟩
        exact draft.statement id now

theorem draws_assert (theory : Theory) (now : String) (sentence formula sign : Json) :
    Draws sentence.Plain theory (theory.assert now sentence formula sign).1 := by
  rcases theory.assert_cases now sentence formula sign with
    ⟨fault, same⟩ | ⟨id, moved, taken, ⟨fault, same⟩ | ⟨statement, same, named, plain⟩⟩
  · exact same ▸ .refl
  · exact same ▸ .single (.skip taken)
  · exact same ▸ .single (.store taken named plain)

/-- Asserting stores the statement it returns, behind all others if the counter is ahead. -/
theorem Orderly.assert (orderly : theory.Orderly) (now : String) {sentence : Json}
    (plain : sentence.Plain) (formula sign : Json) :
    theory.Grows (theory.assert now sentence formula sign).1 ∧
      forall statement, (theory.assert now sentence formula sign).2 = .ok statement ->
        statement ∈ (theory.assert now sentence formula sign).1.statements ∧
          (theory.isAhead = true -> (theory.assert now sentence formula sign).1.statements =
            theory.statements ++ [statement]) := by
  refine ⟨(theory.draws_assert now sentence formula sign).grows plain orderly, ?_⟩
  rcases orderly with ⟨counter, numbered⟩
  rcases theory.assert_cases now sentence formula sign with
    ⟨fault, same⟩ | ⟨id, moved, taken, ⟨fault, same⟩ | ⟨stored, same, named, _⟩⟩
  · exact same ▸ nofun
  · exact same ▸ nofun
  · rw [same]
    rintro _ ⟨⟩
    cases (numbered.takeId _).symm.trans taken
    exact ⟨mem_putStatement_self _ _, fun ahead => (numbered.put_next named ahead).2⟩

theorem putStatement_last {earlier : List Statement}
    (others : forall other, other ∈ earlier -> other.id.sameName updated.id = false)
    (same : statement.id.sameName updated.id = true) :
    putStatement updated (earlier ++ [statement]) = earlier ++ [updated] := by
  induction earlier with
  | nil =>
    rw [List.nil_append, putStatement, same]
    rfl
  | cons first rest ih =>
    rw [List.cons_append, putStatement, others first List.mem_cons_self, if_neg Bool.false_ne_true,
      ih fun other member => others other (List.mem_cons_of_mem _ member)]
    rfl

/-- A statement that was stored last may be changed where it stands, if it keeps its id. -/
theorem Grows.put_last (grows : theory.Grows after) (member : statement ∈ after.statements)
    (last : theory.isAhead = true -> after.statements = theory.statements ++ [statement])
    (plain : updated.Plain) (same : updated.id = statement.id) :
    theory.Grows (after.put updated) := by
  have kept := grows.kept
  rcases grows.orderly with ⟨counter, numbered⟩
  have isId : IsId updated.id := same ▸ numbered.isId statement member
  have ids : (after.put updated).statements.map Statement.id = after.statements.map Statement.id :=
    map_id_putStatement numbered.isId isId (same ▸ List.mem_map_of_mem member)
  refine ⟨⟨counter, numbered.put isId plain⟩, fun ahead => ⟨?_, ?_⟩⟩
  · rw [isAhead, ids]
    exact (kept ahead).1
  · have stored := last ahead
    have distinct := numbered.distinct
    rw [stored, List.map_append, List.map_singleton, List.nodup_append] at distinct
    have changed : (after.put updated).statements = theory.statements ++ [updated] := by
      rw [Theory.put, stored]
      refine putStatement_last (fun other old => Bool.eq_false_iff.mpr fun equal => ?_) ?_
      · have inside : other ∈ after.statements := stored ▸ List.mem_append_left _ old
        rw [(numbered.isId other inside).sameName_iff isId, same] at equal
        exact distinct.2.2 _ (List.mem_map_of_mem old) _ List.mem_cons_self equal
      · rw [(same ▸ isId : IsId statement.id).sameName_iff isId, same]
    exact changed ▸ List.prefix_append _ _

/-! ## Checking -/

theorem draws_storeDenials (theory : Theory) (now : String)
    (signer : known -> adviser.Plain) (denials : List (String × String)) :
    Draws known theory (theory.storeDenials now adviser denials).1 := by
  have source : (Json.record [("source", .string "llm_evaluation")]).Plain :=
    .record (by decide) (by simp [Plain.string])
  induction denials generalizing theory with
  | nil => exact .refl
  | cons denial rest ih =>
    rcases denial with ⟨text, sentence⟩
    have draft : Draft.Plain ⟨.evidence, .string sentence, text, "t",
        [("source", .string "llm_evaluation")]⟩ := ⟨.string sentence, source⟩
    have draws : Draws known theory _ := draws_addSigned now signer fun _ => draft
    rw [Theory.storeDenials]
    split
    · next stored _ equal =>
      rw [equal] at draws
      exact draws.trans (ih stored)
    · next stored fault equal =>
      rw [equal] at draws
      exact draws

theorem draws_check [Memory] (theory : Theory) (now : String) {adviser : Option Adviser}
    (signer : known -> forall found, adviser = some found -> found.Plain) :
    Draws known theory (theory.check now adviser).1 := by
  have stored (tableau : Tableau) :
      Draws known theory (theory.storeAdvice now adviser tableau).1 := by
    cases adviser with
    | none => exact .refl
    | some adviser => exact theory.draws_storeDenials now (fun holds => signer holds adviser rfl) _
  rw [Theory.check]
  split
  · exact .refl
  · exact .refl
  · next tableau _ =>
    have draws := stored tableau
    split
    · next equal =>
      rw [equal] at draws
      exact draws
    · next after equal =>
      rw [equal] at draws
      exact draws.tail (.retime _)

theorem Orderly.check [Memory] (orderly : theory.Orderly) (now : String) {adviser : Option Adviser}
    (known : forall found, adviser = some found -> found.Plain) :
    theory.Grows (theory.check now adviser).1 :=
  (theory.draws_check now id).grows known orderly

theorem Orderly.report [Memory] (orderly : theory.Orderly) (now : String) {adviser : Option Adviser}
    (known : forall found, adviser = some found -> found.Plain) :
    theory.Grows (theory.report now adviser).1 := by
  have grows := orderly.check now known
  rw [Theory.report]
  split
  · next equal =>
    rw [equal] at grows
    exact grows
  · next equal =>
    rw [equal] at grows
    exact grows

/-! ## Inferring -/

theorem draws_storeDerivation (plain : known -> derivation.source.Plain)
    (stored : storeDerivation now state derivation = .ok next) : Draws known state.1 next.1 := by
  rcases state with ⟨theory, statements⟩
  rw [storeDerivation] at stored
  split at stored
  · cases stored
    exact .refl
  · rcases exists_of_bind_eq_ok stored with ⟨⟨after, statement⟩, added, same⟩
    cases same
    refine draws_add (fun holds => ⟨.string _, ?_⟩) added
    have metadata : (Json.record [("source", .string "forward_chaining"),
        ("from_rule", derivation.source)]).Plain :=
      .record (by simp) (by simp [Plain.string, plain holds])
    exact metadata

theorem draws_storeFinding {sentence formula sign : String}
    (plain : known -> (Json.object metadata).Plain)
    (stored : storeFinding now sentence formula sign metadata state = .ok next) :
    Draws known state.1 next.1 := by
  rcases exists_of_bind_eq_ok stored with ⟨⟨after, statement⟩, added, same⟩
  cases same
  exact draws_add (fun holds => ⟨.string _, plain holds⟩) added

theorem draws_storeEvidence (signer : known -> adviser.Plain)
    (plain : known -> derivation.source.Plain) {evidence : Evidence}
    (stored : storeEvidence now adviser derivation evidence state = .ok next) :
    Draws known state.1 next.1 := by
  rcases exists_of_bind_eq_ok stored with ⟨shared, signed, stored⟩
  have sides : (Json.record [("positive", .string evidence.positive.letter),
      ("negative", .string evidence.negative.letter)]).Plain :=
    .record (by simp) (by simp [Plain.string])
  have told (holds : known) : (Json.object shared).Plain := by
    have metadata : (Json.record [("source", .string "llm_verification"),
        ("verified_inference", derivation.source), ("bilateral", .record [
          ("positive", .string evidence.positive.letter),
          ("negative", .string evidence.negative.letter)])]).Plain :=
      .record (by simp) (by simp [Plain.string, plain holds, sides])
    exact (signer holds).of_signed metadata signed
  have verdict (text : String) (holds : known) := (told holds).put "verdict" (.string text)
  split at stored
  · exact draws_storeFinding (verdict _) stored
  · exact draws_storeFinding (fun holds => (verdict _ holds).put _ (.string _)) stored
  · rcases exists_of_bind_eq_ok stored with ⟨⟨first, numbered⟩, _, stored⟩
    rcases exists_of_bind_eq_ok stored with ⟨positive, first, stored⟩
    exact (draws_storeFinding (verdict _) first).trans
      (draws_storeFinding (fun holds => (verdict _ holds).put _ (.string _)) stored)
  · exact draws_storeFinding (verdict _) stored
  · cases stored
    exact .refl

theorem draws_verify (now : String) (signer : known -> adviser.Plain)
    (plain : known -> derivation.source.Plain)
    (state : Theory × List Statement) :
    Draws known state.1 (verify now adviser state derivation).1 := by
  rw [verify]
  split
  · exact .refl
  · split
    · split
      · next evidence _ =>
        cases stored : storeEvidence now adviser derivation evidence state with
        | error fault => exact .refl
        | ok next => exact draws_storeEvidence signer plain stored
      · exact .refl
    · exact .refl

theorem draws_storeDerivations
    (plain : known -> forall derivation, derivation ∈ derivations -> derivation.source.Plain)
    (stored : derivations.foldlM (storeDerivation now) state = .ok next) :
    Draws known state.1 next.1 := by
  induction derivations generalizing state with
  | nil =>
    cases stored
    exact .refl
  | cons derivation rest ih =>
    rcases exists_of_bind_eq_ok stored with ⟨middle, first, others⟩
    have draws := draws_storeDerivation
      (fun holds => plain holds derivation List.mem_cons_self) first
    exact draws.trans (ih
      (fun holds derivation member => plain holds derivation (List.mem_cons_of_mem _ member))
      others)

theorem draws_verifyAll (now : String) (signer : known -> adviser.Plain)
    (plain : known -> forall derivation, derivation ∈ derivations -> derivation.source.Plain)
    (state : Theory × List Statement) :
    Draws known state.1 (derivations.foldl (verify now adviser) state).1 := by
  induction derivations generalizing state with
  | nil => exact .refl
  | cons derivation rest ih =>
    have draws := draws_verify now signer
      (fun holds => plain holds derivation List.mem_cons_self) state
    exact draws.trans (ih
      (fun holds derivation member => plain holds derivation (List.mem_cons_of_mem _ member)) _)

theorem draws_infer {adviser : Option Adviser}
    (ids : known -> forall statement, statement ∈ theory.statements -> statement.id.Plain)
    (signer : known -> forall found, adviser = some found -> found.Plain)
    (inferred : theory.infer now adviser = .ok (after, statements)) :
    Draws known theory after := by
  rcases exists_of_bind_eq_ok inferred with ⟨derivations, found, inferred⟩
  rcases exists_of_bind_eq_ok inferred with ⟨chained, stored, same⟩
  have plain (holds : known) (derivation : Derivation) (member : derivation ∈ derivations) :
      derivation.source.Plain := by
    rcases source_of_mem_derivations found member with ⟨statement, stated, same⟩
    exact same ▸ ids holds statement stated
  have chains : Draws known theory chained.1 := draws_storeDerivations plain stored
  cases adviser with
  | none =>
    cases same
    exact chains.tail (.retime _)
  | some adviser =>
    cases same
    exact (chains.trans (draws_verifyAll now (fun holds => signer holds adviser rfl) plain
      chained)).tail (.retime _)

theorem Orderly.infer (orderly : theory.Orderly) {adviser : Option Adviser}
    (known : forall found, adviser = some found -> found.Plain)
    (inferred : theory.infer now adviser = .ok (after, statements)) :
    theory.Grows after := by
  have ids : forall statement, statement ∈ theory.statements -> statement.id.Plain := by
    rcases orderly with ⟨counter, numbered⟩
    exact fun statement stated => (numbered.plain statement stated).id
  exact (draws_infer (fun _ => ids) id inferred).grows known orderly

/-! ## Removing -/

theorem Counted.filter {counter : Nat} (counted : theory.Counted counter)
    (keep : Statement -> Bool) :
    { theory with statements := theory.statements.filter keep : Theory }.Counted counter where
  next := counted.next
  isId := fun statement member => counted.isId statement (List.mem_filter.mp member).1
  distinct := counted.distinct.sublist (List.filter_sublist.map _)

theorem Orderly.filter (orderly : theory.Orderly) (keep : Statement -> Bool) :
    { theory with statements := theory.statements.filter keep : Theory }.Orderly := by
  rcases orderly with ⟨counter, numbered⟩
  refine ⟨counter, numbered.toCounted.filter keep, fun statement member => ?_⟩
  exact numbered.plain statement (List.mem_filter.mp member).1

theorem isAhead_filter (ahead : theory.isAhead = true) (keep : Statement -> Bool) :
    { theory with statements := theory.statements.filter keep : Theory }.isAhead = true := by
  rw [isAhead, List.all_eq_true] at ahead ⊢
  exact fun id member => ahead id ((List.filter_sublist.map _).subset member)

theorem retract_eq (theory : Theory) (id : Json) : (theory.retract id).1 = { theory with
      statements := theory.statements.filter fun statement => !statement.id.sameName id } := by
  rw [Theory.retract]
  split
  · rfl
  · next missing =>
    have none : forall statement, statement ∈ theory.statements ->
        statement.id.sameName id = false := by
      intro statement member
      simp only [find?, Option.not_isSome_iff_eq_none, List.find?_eq_none] at missing
      exact Bool.eq_false_iff.mpr (missing statement member)
    have all : theory.statements.filter (fun statement => !statement.id.sameName id) =
        theory.statements :=
      List.filter_eq_self.mpr fun statement member => by rw [none statement member]; rfl
    rw [all]

theorem counted_clear (theory : Theory) : theory.clear.Counted 1 := ⟨rfl, nofun, List.nodup_nil⟩

theorem counted_empty : Theory.empty.Counted 1 := ⟨rfl, nofun, List.nodup_nil⟩

theorem orderly_clear (theory : Theory) : theory.clear.Orderly := ⟨1, theory.counted_clear, nofun⟩

theorem orderly_empty : Theory.empty.Orderly := ⟨1, counted_empty, nofun⟩

/-! ## Merging -/

/-- Whether a statement to be merged keeps the counter ahead: its id is in use, so that it is
renamed, or numbered below the counter. -/
def comesBelow (theory : Theory) (statement : Statement) : Bool :=
  (theory.find? statement.id).isSome ||
    theory.nextId.number?.any fun counter => (numberOf statement.id : Int) < counter

/-- Whether a merge keeps the counter ahead all along. -/
def mergesBelow (theory : Theory) : List Statement -> Bool
  | [] => true
  | statement :: rest =>
    theory.comesBelow statement && match theory.mergeStatement statement with
      | .ok (merged, _) => merged.mergesBelow rest
      | .error _ => true

/-- A statement as it was, but for its id. -/
def Renamed (statement stored : Statement) : Prop := stored = { statement with id := stored.id }

theorem firstLetter_idOf (letter : Char) (number : Int) :
    firstLetter (.string (idOf letter number)) = .ok letter := by
  rw [firstLetter, Json.text?]
  simp only [Statement.toList_idOf]

/-- Merging a statement never fails, and puts it behind all others if it comes below the counter. -/
theorem Orderly.mergeStatement (orderly : theory.Orderly) (isId : IsId statement.id)
    (plain : statement.Plain) :
    ∃ merged changed, theory.mergeStatement statement = .ok (merged, changed) ∧ merged.Orderly ∧
      (theory.isAhead = true -> theory.comesBelow statement = true ->
        merged.isAhead = true ∧ ∃ stored, merged.statements = theory.statements ++ [stored] ∧
          Renamed statement stored) := by
  rcases orderly with ⟨counter, numbered⟩
  rw [Theory.mergeStatement]
  -- An id in use is replaced by the next of the counter; any other is kept.
  by_cases used : (theory.find? statement.id).isSome = true
  · rcases isId with ⟨letter, number, same⟩
    let renamed : Statement := { statement with id := .string (idOf letter counter) }
    have named : renamed.id = .string (idOf letter counter) := rfl
    have draw : Draw True theory _ :=
      .store (numbered.takeId letter) named fun _ => { plain with id := .string _ }
    refine ⟨_, true, ?_, (draw.grows trivial ⟨counter, numbered⟩).orderly, fun ahead _ =>
      ⟨(numbered.put_next named ahead).1, renamed, (numbered.put_next named ahead).2, rfl⟩⟩
    rw [if_pos used, same, firstLetter_idOf]
    change theory.takeId letter >>= _ = _
    rw [numbered.takeId]
    rfl
  · have unused : statement.id ∉ theory.statements.map Statement.id := by
      intro member
      rcases List.mem_map.mp member with ⟨other, member, same⟩
      simp only [find?, List.find?_isSome, not_exists, not_and] at used
      exact used other member (((numbered.isId other member).sameName_iff isId).mpr same)
    refine ⟨_, false, ?_, ⟨counter, numbered.put isId plain⟩, fun ahead below => ?_⟩
    · rw [if_neg used]
      rfl
    · rw [comesBelow, Bool.eq_false_iff.mpr used, Bool.false_or, numbered.next] at below
      rcases numbered.put_below isId ahead (Int.ofNat_lt.mp (of_decide_eq_true below)) unused
        with ⟨further, last⟩
      exact ⟨further, statement, last, rfl⟩

/-- Merging stores all statements behind those that were there, if they come below the counter. -/
theorem Orderly.merge (orderly : theory.Orderly)
    (isId : forall statement, statement ∈ statements -> IsId statement.id)
    (plain : forall statement, statement ∈ statements -> statement.Plain) (renamed : Nat) :
    ∃ merged count, theory.merge renamed statements = (merged, count, none) ∧ merged.Orderly ∧
      (theory.isAhead = true -> theory.mergesBelow statements = true ->
        merged.isAhead = true ∧ ∃ stored, merged.statements = theory.statements ++ stored ∧
          List.Forall₂ Renamed statements stored) := by
  induction statements generalizing theory renamed with
  | nil =>
    exact ⟨theory, renamed, rfl, orderly,
      fun ahead _ => ⟨ahead, [], (List.append_nil _).symm, .nil⟩⟩
  | cons statement rest ih =>
    rcases orderly.mergeStatement (isId statement List.mem_cons_self)
      (plain statement List.mem_cons_self) with ⟨first, changed, added, ordered, here⟩
    rcases ih ordered (fun statement member => isId statement (List.mem_cons_of_mem _ member))
      (fun statement member => plain statement (List.mem_cons_of_mem _ member))
      (if changed then renamed + 1 else renamed) with ⟨merged, count, merges, ends, later⟩
    refine ⟨merged, count, ?_, ends, fun ahead below => ?_⟩
    · rw [Theory.merge, added]
      exact merges
    · rw [mergesBelow, added, Bool.and_eq_true] at below
      rcases here ahead below.1 with ⟨further, stored, last, same⟩
      rcases later further below.2 with ⟨still, others, all, each⟩
      refine ⟨still, stored :: others, ?_, .cons same each⟩
      rw [all, last, List.append_assoc, List.singleton_append]

end Theory
end WeakKleene
