import WeakKleene.CommandLine.Prover
import WeakKleene.Proofs.InferencePieces

namespace WeakKleene

/-!
# Commas outside all brackets

Three scanners look for the commas outside all brackets.  One cuts an inference
into the pieces between them, one keeps the pieces that are not blank, and one
finds the last of them, where the turnstile goes if there is none.  They agree on
every text, also where brackets are left open or closed too often.
-/

namespace Grammar

/-! ## Brackets -/

def balance (text : List Char) : Int :=
  text.countP (fun c => c == '(' || c == '[') - text.countP fun c => c == ')' || c == ']'

/-- A text falls into two parts at a comma outside all brackets: from the given depth on, as many
are closed in front of it as have been opened. -/
def CutAt (depth : Int) (text front back : List Char) : Prop :=
  text = front ++ ',' :: back ∧ depth + balance front = 0

variable {depth : Int} {c : Char} {text front back piece : List Char}

theorem depthAfter_add_balance (depth : Int) (c : Char) (text : List Char) :
    depthAfter depth c + balance text = depth + balance (c :: text) := by
  have apart : (c == ')' || c == ']') = true -> (c == '(' || c == '[') = false := by
    intro closing
    rcases Bool.or_eq_true_iff.mp closing with same | same <;> rw [eq_of_beq same] <;> decide
  simp only [depthAfter, balance, List.countP_cons]
  cases closing : c == ')' || c == ']' with
  | true =>
    simp only [apart closing, Bool.false_eq_true, if_false, if_true]
    omega
  | false =>
    cases c == '(' || c == '[' <;> simp only [Bool.false_eq_true, if_false, if_true] <;> omega

theorem CutAt.cons (cut : CutAt (depthAfter depth c) text front back) :
    CutAt depth (c :: text) (c :: front) back :=
  ⟨congrArg (c :: ·) cut.1, (depthAfter_add_balance depth c front).symm.trans cut.2⟩

/-- The comma comes first, or the first character stands in front of it. -/
theorem CutAt.of_cons (cut : CutAt depth (c :: text) front back) :
    ((c == ',' && depth == 0) = true ∧ back = text) ∨
      ∃ inner, front = c :: inner ∧ CutAt (depthAfter depth c) text inner back := by
  rcases cut with ⟨whole, outside⟩
  cases front with
  | nil =>
    cases whole
    rw [show depth = 0 from (Int.add_zero depth).symm.trans outside]
    exact .inl ⟨rfl, rfl⟩
  | cons d front =>
    cases whole
    exact .inr ⟨front, rfl, rfl, (depthAfter_add_balance depth c front).trans outside⟩

theorem head_of_uncut (uncut : forall front back, ¬ CutAt depth (c :: text) front back) :
    ¬ (c == ',' && depth == 0) = true := by
  rw [Bool.and_eq_true, beq_iff_eq, beq_iff_eq]
  rintro ⟨rfl, rfl⟩
  exact uncut [] text ⟨rfl, rfl⟩

/-! ## The pieces, joined again -/

theorem topLevelPiecesFrom_eq_nil (none : topLevelPiecesFrom depth piece text = []) :
    text = [] ∧ piece = [] := by
  fun_induction topLevelPiecesFrom depth piece text with
  | case1 _ piece empty => exact ⟨rfl, List.isEmpty_iff.mp empty⟩
  | case2 | case3 => cases none
  | case4 _ _ _ _ _ ih => cases (ih none).2

/-- By the recursion of the scanner.  Between commas nothing is lost, and behind the last one
nothing but an empty piece. -/
theorem joined_topLevelPiecesFrom (depth : Int) (piece text : List Char) :
    ([','].intercalate (topLevelPiecesFrom depth piece text) = piece.reverse ++ text ∧
      forall front, ¬ CutAt depth text front []) ∨
    ∃ front, CutAt depth text front [] ∧
      [','].intercalate (topLevelPiecesFrom depth piece text) = piece.reverse ++ front := by
  fun_induction topLevelPiecesFrom depth piece text with
  | case1 _ piece empty =>
    rw [List.isEmpty_iff.mp empty]
    exact .inl ⟨rfl, fun front cut => by simp [CutAt] at cut⟩
  | case2 => exact .inl ⟨by simp, fun front cut => by simp [CutAt] at cut⟩
  | case3 depth piece c rest comma ih =>
    rw [Bool.and_eq_true, beq_iff_eq, beq_iff_eq] at comma
    rcases comma with ⟨rfl, rfl⟩
    by_cases last : topLevelPiecesFrom 0 [] rest = []
    · rw [last, (topLevelPiecesFrom_eq_nil last).1]
      exact .inr ⟨[], ⟨rfl, rfl⟩, by simp⟩
    · have more : [','].intercalate (piece.reverse :: topLevelPiecesFrom 0 [] rest) =
          piece.reverse ++ ',' :: [','].intercalate (topLevelPiecesFrom 0 [] rest) := by
        rw [List.intercalate_cons_of_ne_nil last, List.append_assoc]
        rfl
      rw [more]
      rcases ih with ⟨joined, untrailed⟩ | ⟨front, cut, joined⟩
      · refine .inl ⟨by rw [joined]; rfl, fun front cut => ?_⟩
        rcases cut.of_cons with ⟨_, rfl⟩ | ⟨inner, _, inside⟩
        · exact last rfl
        · exact untrailed inner inside
      · have behind : CutAt (depthAfter 0 ',') rest front [] := cut
        exact .inr ⟨',' :: front, behind.cons, by rw [joined]; rfl⟩
  | case4 depth piece c rest other ih =>
    rw [List.reverse_cons, List.append_assoc] at ih
    rcases ih with ⟨joined, untrailed⟩ | ⟨front, cut, joined⟩
    · refine .inl ⟨joined, fun front cut => ?_⟩
      rcases cut.of_cons with ⟨comma, _⟩ | ⟨inner, _, inside⟩
      · exact other comma
      · exact untrailed inner inside
    · exact .inr ⟨c :: front, cut.cons, by rw [joined, List.append_assoc]; rfl⟩

/-! ## The turnstile -/

theorem turnstilePiecesFrom_cut (free : TurnstileFree front) (piece back : List Char) :
    turnstilePiecesFrom piece (front ++ ' ' :: '|' :: '-' :: back) =
      (piece.reverse ++ front ++ [' ']) :: turnstilePieces back := by
  induction front generalizing piece with
  | nil =>
    rw [List.append_nil, <- List.reverse_cons]
    rfl
  | cons c front ih =>
    rw [List.cons_append, turnstilePiecesFrom, ih fun inside => free (List.infix_cons inside),
      List.reverse_cons, List.append_assoc piece.reverse]
    · rfl
    · -- A bar in the text is followed by something other than a dash.
      rintro rest rfl dash
      cases front with
      | nil => cases dash
      | cons d front =>
        cases dash
        exact free ⟨[], front, rfl⟩

end Grammar

namespace CommandLine

open Grammar

variable {depth : Int} {text front back piece : List Char}

/-! ## Premises -/

theorem keepPiece_append (piece : List Char) (pieces : List (List Char)) :
    keepPiece piece pieces = keepPiece piece [] ++ pieces := by
  cases blank : (Text.trim piece.reverse).isEmpty <;> simp [keepPiece, blank]

theorem splitPremisesFrom_eq (depth : Int) (piece text : List Char) :
    splitPremisesFrom depth piece text =
      ((topLevelPiecesFrom depth piece text).map Text.trim).filter fun piece => !piece.isEmpty := by
  have kept (piece : List Char) :
      keepPiece piece [] = [Text.trim piece.reverse].filter fun piece => !piece.isEmpty := by
    cases blank : (Text.trim piece.reverse).isEmpty <;> simp [keepPiece, blank]
  fun_induction topLevelPiecesFrom depth piece text with
  | case1 _ piece empty =>
    rw [List.isEmpty_iff.mp empty]
    rfl
  | case2 => exact kept _
  | case3 _ _ _ _ comma ih =>
    rw [splitPremisesFrom, if_pos comma, keepPiece_append, ih, kept, <- List.filter_append]
    rfl
  | case4 _ _ _ _ other ih => rw [splitPremisesFrom, if_neg other, ih]

theorem splitPremisesFrom_cut (cut : CutAt depth text front back) :
    splitPremisesFrom depth piece text =
      splitPremisesFrom depth piece front ++ splitPremises back := by
  rcases cut with ⟨rfl, outside⟩
  induction front generalizing depth piece with
  | nil =>
    cases (Int.add_zero depth).symm.trans outside
    exact keepPiece_append _ _
  | cons c front ih =>
    rw [<- depthAfter_add_balance] at outside
    rw [List.cons_append, splitPremisesFrom, splitPremisesFrom]
    split
    · next comma =>
      rw [Bool.and_eq_true, beq_iff_eq] at comma
      rcases comma with ⟨rfl, _⟩
      have level : depthAfter depth ',' = depth := rfl
      rw [ih (level ▸ outside), keepPiece_append, <- List.append_assoc, <- keepPiece_append]
    · exact ih outside

theorem splitPremisesFrom_uncut (uncut : forall front back, ¬ CutAt depth text front back) :
    splitPremisesFrom depth piece text = keepPiece (text.reverse ++ piece) [] := by
  induction text generalizing depth piece with
  | nil => rfl
  | cons c text ih =>
    rw [splitPremisesFrom, if_neg (head_of_uncut uncut),
      ih fun front back cut => uncut _ _ cut.cons, List.reverse_cons, List.append_assoc]
    rfl

section Blanks

variable {c : Char} (blank : Text.isBlank c = true)
include blank

theorem blank_unmarked : (c == ',') = false ∧ forall depth, depthAfter depth c = depth := by
  have other {mark : Char} (solid : Text.isBlank mark = false) : (c == mark) = false := by
    rw [beq_eq_false_iff_ne]
    rintro rfl
    cases blank.symm.trans solid
  refine ⟨other (by decide), fun depth => ?_⟩
  simp [depthAfter, other (by decide : Text.isBlank '(' = false),
    other (by decide : Text.isBlank '[' = false), other (by decide : Text.isBlank ')' = false),
    other (by decide : Text.isBlank ']' = false)]

theorem splitPremises_cons_blank (text : List Char) :
    splitPremises (c :: text) = splitPremises text := by
  have kept (piece : List Char) (pieces : List (List Char)) :
      keepPiece (piece ++ [c]) pieces = keepPiece piece pieces := by
    rw [keepPiece, List.reverse_append, List.reverse_singleton, List.singleton_append,
      Text.trim_cons_blank blank, keepPiece]
  have behind (depth : Int) (piece : List Char) :
      splitPremisesFrom depth (piece ++ [c]) text = splitPremisesFrom depth piece text := by
    induction text generalizing depth piece with
    | nil => exact kept _ _
    | cons d text ih => rw [splitPremisesFrom, splitPremisesFrom, kept, <- List.cons_append, ih]
  rcases blank_unmarked blank with ⟨solid, level⟩
  rw [splitPremises, splitPremisesFrom, solid, Bool.false_and, if_neg Bool.false_ne_true, level]
  exact behind 0 []

theorem splitPremises_append_blank (text : List Char) :
    splitPremises (text ++ [c]) = splitPremises text := by
  have before (depth : Int) (piece : List Char) :
      splitPremisesFrom depth piece (text ++ [c]) = splitPremisesFrom depth piece text := by
    induction text generalizing depth piece with
    | nil =>
      simp only [List.nil_append, splitPremisesFrom, (blank_unmarked blank).1, Bool.false_and,
        Bool.false_eq_true, if_false, keepPiece, List.reverse_cons, Text.trim_append_blank blank]
    | cons d text ih => rw [List.cons_append, splitPremisesFrom, splitPremisesFrom, ih, ih]
  exact before 0 []

end Blanks

/-- Blanks at the ends of a text are blanks at the ends of its pieces. -/
theorem splitPremises_trim (text : List Char) :
    splitPremises (Text.trim text) = splitPremises text := by
  have dropped (value : List Char -> List (List Char))
      (same : forall c text, Text.isBlank c = true -> value (c :: text) = value text)
      (text : List Char) : value (Text.dropBlanks text) = value text := by
    induction text with
    | nil => rfl
    | cons c text ih =>
      rw [Text.dropBlanks, List.dropWhile_cons]
      split
      · next blank => exact ih.trans (same c text blank).symm
      · rfl
  have atEnd := dropped (fun text => splitPremises text.reverse)
    (fun c text blank => by rw [List.reverse_cons, splitPremises_append_blank blank])
    (Text.dropBlanks text).reverse
  rw [Text.trim, atEnd, List.reverse_reverse]
  exact dropped splitPremises (fun c text blank => splitPremises_cons_blank blank text) text

/-! ## The last comma -/

theorem lastTopLevelComma?_uncut (uncut : forall front back, ¬ CutAt depth text front back)
    (position : Nat) : lastTopLevelComma? position depth text = none := by
  induction text generalizing depth position with
  | nil => rfl
  | cons c text ih =>
    rw [lastTopLevelComma?, if_neg (head_of_uncut uncut),
      ih fun front back cut => uncut _ _ cut.cons]
    rfl

theorem lastTopLevelComma?_cut (cut : CutAt depth text front back)
    (uncut : forall inner rest, ¬ CutAt 0 back inner rest) (position : Nat) :
    lastTopLevelComma? position depth text = some (position + front.length) := by
  rcases cut with ⟨rfl, outside⟩
  induction front generalizing depth position with
  | nil =>
    cases (Int.add_zero depth).symm.trans outside
    rw [List.nil_append, lastTopLevelComma?, show depthAfter 0 ',' = 0 from rfl,
      lastTopLevelComma?_uncut uncut]
    rfl
  | cons c front ih =>
    rw [<- depthAfter_add_balance] at outside
    rw [List.cons_append, lastTopLevelComma?, ih _ outside, Option.some_or, List.length_cons,
      Nat.add_assoc, Nat.add_comm 1]

theorem withTurnstile_cut {text : String} (free : TurnstileFree text.toList)
    (cut : CutAt 0 text.toList front back) (uncut : forall inner rest, ¬ CutAt 0 back inner rest)
    (some : front ≠ []) :
    withTurnstile text true = .ok (String.ofList (Text.trim front) ++ " |- " ++
      String.ofList (Text.trim back)) := by
  rcases List.exists_cons_of_ne_nil some with ⟨c, others, rfl⟩
  have found := lastTopLevelComma?_cut cut uncut 0
  have taken : text.toList.take (others.length + 1) = c :: others := by
    rw [cut.1]
    exact List.take_left' rfl
  have dropped : text.toList.drop (others.length + 2) = back := by
    rw [cut.1, List.append_cons]
    exact List.drop_left' (by simp)
  rw [Nat.zero_add, List.length_cons] at found
  simp only [withTurnstile, hasTurnstile_of_free free, Bool.not_false, Bool.and_self, if_true,
    found, taken, dropped]

/-! ## The scanners together -/

/-- The scanners for commas outside all brackets agree on every text.  The premises are the pieces
that are not blank, trimmed.  The pieces joined by commas are the text, less one such comma at its
end.  And where the last such comma has text in front of it and not only blanks behind it, the
turnstile in its place leaves the premises and the conclusion that stood between the commas. -/
theorem comma_scanners_agree (text : String) :
    splitPremises text.toList =
      ((topLevelPieces text.toList).map Text.trim).filter (fun piece => !piece.isEmpty) ∧
    ([','].intercalate (topLevelPieces text.toList) = text.toList ∧
        (forall front, ¬ CutAt 0 text.toList front []) ∨
      ∃ front, CutAt 0 text.toList front [] ∧
        [','].intercalate (topLevelPieces text.toList) = front) ∧
    forall front back, TurnstileFree text.toList -> CutAt 0 text.toList front back ->
      (forall inner rest, ¬ CutAt 0 back inner rest) -> front ≠ [] -> Text.trim back ≠ [] ->
      ∃ inference premises conclusion, withTurnstile text true = .ok inference ∧
        turnstilePieces inference.toList = [premises, conclusion] ∧
        splitPremises premises ++ [Text.trim conclusion] = splitPremises text.toList ∧
        splitPremises (Text.trim premises) = splitPremises premises := by
  refine ⟨splitPremisesFrom_eq 0 [] text.toList, joined_topLevelPiecesFrom 0 [] text.toList, ?_⟩
  intro front back free cut uncut some nonblank
  have within {inner : List Char} (inside : inner <:+: text.toList) :
      TurnstileFree (Text.trim inner) := free.within ((trim_within inner).trans inside)
  have freeFront := within ⟨[], ',' :: back, cut.1.symm⟩
  have freeBack : TurnstileFree (' ' :: Text.trim back) := by
    rw [TurnstileFree, List.infix_cons_iff, not_or]
    refine ⟨fun starts => by simp at starts, within ⟨front ++ [','], [], ?_⟩⟩
    rw [cut.1, List.append_nil, <- List.append_cons]
  refine ⟨_, Text.trim front ++ [' '], ' ' :: Text.trim back,
    withTurnstile_cut free cut uncut some, ?_, ?_, splitPremises_trim _⟩
  · have chars : (String.ofList (Text.trim front) ++ " |- " ++
        String.ofList (Text.trim back)).toList =
        Text.trim front ++ ' ' :: '|' :: '-' :: ' ' :: Text.trim back := by
      simp
    rw [chars, turnstilePieces, turnstilePiecesFrom_cut freeFront, turnstilePieces,
      turnstilePiecesFrom_free freeBack]
    rfl
  · have solid : (Text.trim back).isEmpty = false := by simpa using nonblank
    have parts : splitPremises text.toList = splitPremises front ++ splitPremises back :=
      splitPremisesFrom_cut cut
    have single : splitPremises back = [Text.trim back] := by
      rw [splitPremises, splitPremisesFrom_uncut uncut, keepPiece]
      simp [solid]
    rw [parts, single, splitPremises_append_blank (by decide), splitPremises_trim,
      Text.trim_cons_blank (by decide), Text.trim_trim]

/-- A bracket that is closed too early hides a comma until one is opened too late. -/
theorem comma_scanners_agree_unbalanced :
    ∃ inference premises conclusion, withTurnstile "P(a, b), q), (r, s" true = .ok inference ∧
      turnstilePieces inference.toList = [premises, conclusion] ∧
      splitPremises premises ++ [Text.trim conclusion] =
        ["P(a, b)".toList, "q), (r".toList, "s".toList] := by
  have uncut : forall inner rest, ¬ CutAt 0 " s".toList inner rest := by
    intro inner rest cut
    have member : ',' ∈ inner ++ ',' :: rest := List.mem_append_right _ List.mem_cons_self
    rw [<- cut.1] at member
    exact absurd member (by decide)
  have free : TurnstileFree "P(a, b), q), (r, s".toList := fun inside =>
    absurd (inside.subset List.mem_cons_self) (by decide)
  rcases (comma_scanners_agree "P(a, b), q), (r, s").2.2 "P(a, b), q), (r".toList " s".toList free
    ⟨rfl, rfl⟩ uncut (by decide) (by decide) with
    ⟨inference, premises, conclusion, turned, cut, same, _⟩
  exact ⟨inference, premises, conclusion, turned, cut, same.trans rfl⟩

end CommandLine
end WeakKleene
