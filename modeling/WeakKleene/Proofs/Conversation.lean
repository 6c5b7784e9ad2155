import WeakKleene.Shell.Dialogue

namespace WeakKleene
namespace Shell

/-!
# What a dialogue ensures

A dialogue is followed through from a folder and the inputs that wait for it.
`Ensures` says that whatever it writes is fit to be in a file, and that it ends
as wanted: with a result, or for want of an answer.  What is said plays no part.

A dialogue sees the folder it started with until it writes; what it may find
after that is left open, since no command looks again.
-/

/-! ## Texts in files -/

namespace Folder

variable {fit : String -> Prop} {folder : Folder}

def Holds (fit : String -> Prop) (folder : Folder) : Prop :=
  forall file, file ∈ folder.files -> fit file.2

variable {text path : String} {spot : Spot}

theorem Holds.put (holds : folder.Holds fit) (place : Place) (new : fit text) :
    (folder.put place text).Holds fit := by
  intro file member
  rcases List.mem_cons.mp member with rfl | old
  · exact new
  · exact holds file (List.mem_filter.mp old).1

theorem Holds.write (holds : folder.Holds fit) (new : fit text)
    {after : Folder} (written : folder.write path text = .ok after) : after.Holds fit := by
  rw [Folder.write] at written
  cases spot : folder.locate path with
  | error fault =>
    rw [spot] at written
    cases written
  | ok found =>
    rw [spot] at written
    cases found with
    | folder place => cases written
    | file place old | vacant place =>
      cases written
      exact holds.put place new

def Listed (folder : Folder) (spot : Spot) : Prop :=
  forall place text, spot = .file place text -> (place, text) ∈ folder.files

theorem listed_of_enter {next : Spot} {part : List Char}
    (entered : folder.enter spot part = .ok next) : folder.Listed next := by
  intro place text same
  subst same
  rw [enter.eq_def] at entered
  split at entered
  · cases entered
  · cases entered
  · next here =>
    dsimp only at entered
    split at entered
    · cases entered
    split at entered
    · cases entered
    split at entered
    · cases entered
    rw [Except.ok.injEq, spotAt] at entered
    split at entered
    · next found =>
      cases entered
      rcases List.lookup_eq_some_iff.mp found with ⟨before, after, files, _⟩
      rw [files]
      exact List.mem_append_right _ List.mem_cons_self
    · split at entered <;> cases entered

theorem listed_of_enterAll {parts : List (List Char)} {last : Spot}
    (listed : folder.Listed spot) (entered : parts.foldlM folder.enter spot = .ok last) :
    folder.Listed last := by
  induction parts generalizing spot with
  | nil =>
    cases entered
    exact listed
  | cons part rest ih =>
    rw [List.foldlM_cons] at entered
    cases first : folder.enter spot part with
    | error fault =>
      rw [first] at entered
      cases entered
    | ok next =>
      rw [first] at entered
      exact ih (listed_of_enter first) entered

theorem listed_of_locate (located : folder.locate path = .ok spot) : folder.Listed spot := by
  rw [locate] at located
  split at located
  · cases located
  split at located
  · cases located
  split at located
  · cases located
  have start : folder.Listed (.folder (Place.startOf path)) := nofun
  exact listed_of_enterAll start located

/-- What is found under a path is the text of a file. -/
theorem Holds.look (holds : folder.Holds fit)
    (found : folder.look path = .file text) : fit text := by
  rw [Folder.look] at found
  split at found
  · cases found
  · cases found
  · cases found
  · next place inside located =>
    cases found
    exact holds _ (listed_of_locate located place text rfl)

end Folder

namespace Dialogue

variable {α β γ : Type} {fit : String -> Prop} {folder : Folder} {inputs : List Input}

/-- What is written is fit to be in a file, and the ending is as wanted. -/
def Ensures (fit : String -> Prop) (post : Ending α -> Prop) :
    Dialogue α -> Folder -> List Input -> Prop
  | done value, _, _ => post (.result value)
  | say _ next, folder, inputs => Ensures fit post next folder inputs
  | ask _ _, _, [] => post .noInput
  | ask _ _, _, .interrupt :: _ => post .interrupted
  | ask _ next, folder, .line answer :: inputs => Ensures fit post (next answer) folder inputs
  | look path next, folder, inputs => Ensures fit post (next (folder.look path)) folder inputs
  | write _ text next, _, inputs =>
    fit text ∧ forall fault folder, Ensures fit post (next fault) folder inputs

variable {dialogue : Dialogue α} {post : Ending β -> Prop}

/-- What a dialogue ensures is so when it is performed. -/
theorem Ensures.perform {post : Ending α -> Prop}
    (ensures : dialogue.Ensures fit post folder inputs) (holds : folder.Holds fit) :
    (dialogue.perform folder inputs).folder.Holds fit ∧
      post (dialogue.perform folder inputs).ending := by
  induction dialogue generalizing folder inputs with
  | done value => exact ⟨holds, ensures⟩
  | say text next ih => exact ih ensures holds
  | ask prompt next ih =>
    rcases inputs with _ | ⟨answer | _, rest⟩
    · exact ⟨holds, ensures⟩
    · exact ih answer ensures holds
    · exact ⟨holds, ensures⟩
  | look path next ih => exact ih _ ensures holds
  | write path text next ih =>
    rw [Dialogue.perform]
    cases written : folder.write path text with
    | error fault => exact ih _ (ensures.2 _ _) holds
    | ok after => exact ih _ (ensures.2 _ _) (holds.write ensures.1 written)

/-! ## Following a dialogue -/

theorem bind_assoc (dialogue : Dialogue α) (next : α -> Dialogue β) (last : β -> Dialogue γ) :
    dialogue >>= next >>= last = dialogue >>= fun value => next value >>= last := by
  induction dialogue with
  | done value => rfl
  | say text rest ih => exact congrArg (say text) ih
  | ask prompt rest ih => exact congrArg (ask prompt) (funext ih)
  | look path rest ih => exact congrArg (look path) (funext ih)
  | write path text rest ih => exact congrArg (write path text) (funext ih)

theorem Ensures.mono {post weaker : Ending α -> Prop}
    (implies : forall ending, post ending -> weaker ending)
    (ensures : dialogue.Ensures fit post folder inputs) :
    dialogue.Ensures fit weaker folder inputs := by
  induction dialogue generalizing folder inputs with
  | done value => exact implies _ ensures
  | say text next ih => exact ih ensures
  | ask prompt next ih =>
    rcases inputs with _ | ⟨answer | _, rest⟩
    · exact implies _ ensures
    · exact ih answer ensures
    · exact implies _ ensures
  | look path next ih => exact ih _ ensures
  | write path text next ih =>
    exact ⟨ensures.1, fun fault folder => ih fault (ensures.2 fault folder)⟩

/-- How the first part of a dialogue has to end: with a result to go on from, or as the whole. -/
def LeadsTo (next : α -> Prop) (post : Ending β -> Prop) : Ending α -> Prop
  | .result value => next value
  | .noInput => post .noInput
  | .interrupted => post .interrupted

/-- A dialogue goes on from whatever its first part ensures. -/
theorem Ensures.bind {next : α -> Dialogue β}
    (ensures : dialogue.Ensures fit (LeadsTo (fun value => forall folder inputs,
      (next value).Ensures fit post folder inputs) post) folder inputs) :
    (dialogue >>= next).Ensures fit post folder inputs := by
  induction dialogue generalizing folder inputs with
  | done value => exact ensures folder inputs
  | say text rest ih => exact ih ensures
  | ask prompt rest ih =>
    rcases inputs with _ | ⟨answer | _, later⟩
    · exact ensures
    · exact ih answer ensures
    · exact ensures
  | look path rest ih => exact ih _ ensures
  | write path text rest ih =>
    exact ⟨ensures.1, fun fault folder => ih fault (ensures.2 fault folder)⟩

theorem ensures_find {path : String} {next : Found -> Dialogue β} :
    (find path >>= next).Ensures fit post folder inputs ↔
      (next (folder.look path)).Ensures fit post folder inputs :=
  Iff.rfl

theorem ensures_tellAll {next : Unit -> Dialogue β} {lines : List String} :
    (tellAll lines >>= next).Ensures fit post folder inputs ↔
      (next ()).Ensures fit post folder inputs := by
  induction lines with
  | nil => exact Iff.rfl
  | cons line rest ih => exact ih

theorem ensures_tellEach {next : Option Fault -> Dialogue β}
    {groups : List (Except Fault (List String))}
    (each : forall fault, (next fault).Ensures fit post folder inputs) :
    (tellEach groups >>= next).Ensures fit post folder inputs := by
  induction groups with
  | nil => exact each none
  | cons group rest ih =>
    cases group with
    | error fault => exact each (some fault)
    | ok lines =>
      rw [tellEach, bind_assoc]
      exact ensures_tellAll.mpr ih

end Dialogue
end Shell
end WeakKleene
