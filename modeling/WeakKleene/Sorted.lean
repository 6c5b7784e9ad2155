namespace WeakKleene
namespace Sorted

/-!
Finite sets as ascending lists.

Collections whose members are listed in order of size are kept in that order
from the start, so that reading such a set back needs no further sorting.
-/

variable {α : Type} [LT α] [DecidableLT α] [DecidableEq α]

/-- Put a member into its place.  A member that is there already is not repeated. -/
def insert (x : α) : List α -> List α
  | [] => [x]
  | y :: rest =>
    if x < y then x :: y :: rest
    else if x = y then y :: rest
    else y :: insert x rest

theorem mem_insert_iff {x y : α} {members : List α} :
    x ∈ insert y members ↔ x = y ∨ x ∈ members := by
  induction members with
  | nil => simp only [insert, List.mem_singleton, List.not_mem_nil, or_false]
  | cons z rest ih =>
    unfold insert
    split
    · exact List.mem_cons
    · split
      · next equal =>
        rw [equal, List.mem_cons]
        exact ⟨Or.inr, fun either => either.elim Or.inl id⟩
      · rw [List.mem_cons, List.mem_cons, ih]
        exact or_left_comm

def insertAll (members : List α) (set : List α) : List α :=
  members.foldl (fun collected x => insert x collected) set

theorem mem_insertAll_iff {x : α} {members set : List α} :
    x ∈ insertAll members set ↔ x ∈ members ∨ x ∈ set := by
  induction members generalizing set with
  | nil => simp only [insertAll, List.foldl_nil, List.not_mem_nil, false_or]
  | cons first rest ih =>
    have further : insertAll (first :: rest) set = insertAll rest (insert first set) := rfl
    rw [further, ih, mem_insert_iff, List.mem_cons]
    exact or_left_comm.trans or_assoc.symm

def ofList (members : List α) : List α := insertAll members []

theorem mem_ofList_iff {x : α} {members : List α} : x ∈ ofList members ↔ x ∈ members :=
  mem_insertAll_iff.trans (or_iff_left List.not_mem_nil)

end Sorted
end WeakKleene
