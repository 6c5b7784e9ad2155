import WeakKleene.Consequence

namespace WeakKleene
namespace Tableau

/-!
# A trace does not influence the tableau

The trace is written at each application and read at none.  So every operation
gives the same tableau when the trace is left out, up to the trace: leaving it
out commutes with growing, closing, splitting, applying and running.  A tableau
that was traced has the same branches, models and verdict as one that was not.
-/

variable {tableau : Tableau}

def untraced (tableau : Tableau) : Tableau := { tableau with trace := none }

theorem grow_untraced (parent : Option Nat) (rule : Option String) (signed : Signed) :
    tableau.untraced.grow parent rule signed =
      ((tableau.grow parent rule signed).1.untraced, (tableau.grow parent rule signed).2) := by
  cases parent <;> rfl

theorem close_untraced (branch added present : Nat) : tableau.untraced.close branch added present =
      (tableau.close branch added present).untraced := by
  unfold close
  dsimp only
  rw [show tableau.untraced.opened = tableau.opened from rfl]
  split <;> rfl

theorem register_untraced (id branch : Nat) :
    tableau.untraced.register id branch = (tableau.register id branch).untraced := by
  unfold register
  rw [show tableau.untraced.node? id = tableau.node? id from rfl]
  split <;> rfl

theorem fork_untraced (branch : Nat) : tableau.untraced.fork branch =
      ((tableau.fork branch).1.untraced, (tableau.fork branch).2) := by
  unfold fork
  rw [show tableau.untraced.branch? branch = tableau.branch? branch from rfl]
  dsimp only
  split <;> rfl

theorem record_untraced (before after : Tableau) (source : Nat) (expansion : Expansion) :
    (before.record after source expansion).untraced = after.untraced := by
  unfold record
  split <;> rfl

variable [Memory]

theorem settle_untraced (id branch : Nat) : tableau.untraced.settle id branch =
      ((tableau.settle id branch).1.untraced, (tableau.settle id branch).2) := by
  unfold settle
  rw [show tableau.untraced.node? id = tableau.node? id from rfl,
    show tableau.untraced.branch? branch = tableau.branch? branch from rfl]
  split
  · next node found _ _ =>
    rw [show tableau.untraced.contradicted? found id node.signed =
      tableau.contradicted? found id node.signed from rfl]
    split
    · rw [close_untraced]
    · rw [register_untraced]
  · rfl

theorem grow_settle_untraced (parent : Option Nat) (rule : Option String) (signed : Signed)
    (branch : Nat) :
    (tableau.untraced.grow parent rule signed).1.settle
        (tableau.untraced.grow parent rule signed).2 branch =
      (((tableau.grow parent rule signed).1.settle
          (tableau.grow parent rule signed).2 branch).1.untraced,
        ((tableau.grow parent rule signed).1.settle
          (tableau.grow parent rule signed).2 branch).2) := by
  rw [grow_untraced]
  exact settle_untraced _ _

theorem plant_untraced (previous : Option Nat) (formulas : List Signed) :
    tableau.untraced.plant previous formulas = (tableau.plant previous formulas).map untraced := by
  induction formulas generalizing tableau previous with
  | nil => rfl
  | cons signed rest ih =>
    simp only [plant, grow_settle_untraced]
    rw [show ((tableau.untraced.branch? 0).bind fun branch => tableau.untraced.refusal? branch
        (tableau.untraced.grow previous none signed).2 signed) =
      (tableau.branch? 0).bind fun branch => tableau.refusal? branch
        (tableau.grow previous none signed).2 signed from rfl]
    cases (tableau.branch? 0).bind fun branch =>
        tableau.refusal? branch (tableau.grow previous none signed).2 signed with
    | some fault => rfl
    | none =>
      cases (tableau.grow previous none signed).1.settle
          (tableau.grow previous none signed).2 0 with
      | mk settled closed =>
        cases closed with
        | true => rfl
        | false =>
          rw [grow_untraced]
          exact ih _

theorem extend_untraced (source branch : Nat) (rule : String) (conclusion : List Signed) :
    tableau.untraced.extend source branch rule conclusion =
      ((tableau.extend source branch rule conclusion).1.untraced,
        (tableau.extend source branch rule conclusion).2) := by
  induction conclusion generalizing tableau with
  | nil => rfl
  | cons signed rest ih =>
    simp only [extend, grow_settle_untraced]
    rw [show tableau.untraced.branch? branch = tableau.branch? branch from rfl]
    cases (tableau.branch? branch).any fun found => found.holds signed with
    | true => exact ih
    | false =>
      cases (tableau.grow (some source) (some rule) signed).1.settle
          (tableau.grow (some source) (some rule) signed).2 branch with
      | mk settled closed =>
        cases closed with
        | true => rfl
        | false => exact ih

theorem split_untraced (source branch : Nat) (rule : String) (conclusions : List (List Signed)) :
    tableau.untraced.split source branch rule conclusions =
      (tableau.split source branch rule conclusions).untraced := by
  induction conclusions generalizing tableau with
  | nil => rfl
  | cons conclusion rest ih =>
    simp only [split, fork_untraced, extend_untraced]
    cases (tableau.fork branch).1.extend source (tableau.fork branch).2 rule conclusion with
    | mk grown closed =>
      cases closed with
      | true => exact ih
      | false =>
        exact @ih { grown with opened := grown.opened ++ [(tableau.fork branch).2] }

theorem apply_untraced (source branch : Nat) (expansion : Expansion) :
    tableau.untraced.apply source branch expansion =
      (tableau.apply source branch expansion).untraced := by
  unfold apply
  dsimp only
  rw [show (tableau.untraced.modifyBranch branch fun found =>
      found.mark source expansion.constant) =
    (tableau.modifyBranch branch fun found => found.mark source expansion.constant).untraced
      from rfl]
  generalize (tableau.modifyBranch branch fun found =>
    found.mark source expansion.constant) = marked
  split
  · next conclusion _ =>
    rw [extend_untraced]
    cases marked.extend source branch expansion.name conclusion with
    | mk extended closed =>
      cases closed with
      | true => rfl
      | false => exact (record_untraced tableau extended source expansion).symm
  · have divided := @split_untraced { marked with opened := marked.opened.erase branch } _ source
      branch expansion.name expansion.conclusions
    rw [record_untraced]
    exact congrArg (fun after => tableau.untraced.record after source expansion) divided

/-! ## Runs -/

theorem step?_untraced : tableau.untraced.step? = tableau.step?.map (Option.map untraced) := by
  unfold step?
  rw [show tableau.untraced.next? = tableau.next? from rfl]
  cases tableau.next? with
  | error fault => rfl
  | ok next =>
    cases next with
    | none => rfl
    | some chosen => exact congrArg (fun after => Except.ok (some after)) (apply_untraced _ _ _)

theorem run_untraced (bound : Nat) :
    tableau.untraced.run bound = ((tableau.run bound).1.untraced, (tableau.run bound).2) := by
  induction bound generalizing tableau with
  | zero =>
    rw [run, run, show tableau.untraced.complete = tableau.complete from rfl]
    cases tableau.complete <;> rfl
  | succ bound ih =>
    rw [run, run, step?_untraced]
    cases tableau.step? with
    | error fault => rfl
    | ok result =>
      cases result with
      | none => rfl
      | some after => exact ih

theorem ofFormulas_untraced (logic : Logic) (formulas : List Signed) (traced : Bool) :
    ofFormulas logic formulas false = (ofFormulas logic formulas traced).map untraced := by
  have begun : start logic formulas false = (start logic formulas traced).map untraced := by
    unfold start
    split
    · rfl
    · rw [<- plant_untraced]
      rfl
  unfold ofFormulas
  rw [begun]
  cases start logic formulas traced with
  | error fault => rfl
  | ok initial =>
    show initial.untraced.construct = initial.construct.map untraced
    unfold construct
    rw [run_untraced]
    cases initial.run stepBound with
    | mk finished fault => cases fault <;> rfl

end Tableau

/-- An inference is accepted just when its conclusion follows, traced or not. -/
theorem check_valid_eq_entails [Memory] (premises : List Formula) (conclusion : Formula)
    (traced : Bool) (some_premise : premises ≠ []) :
    (Inference.check ⟨premises, conclusion⟩ traced).map Verdict.valid =
      entails premises conclusion := by
  unfold Inference.check entails
  dsimp only
  rw [if_neg (by rwa [List.isEmpty_iff]), Tableau.ofFormulas_untraced _ _ traced]
  cases Tableau.ofFormulas .standard (refutationStart premises conclusion) traced <;> rfl

end WeakKleene
