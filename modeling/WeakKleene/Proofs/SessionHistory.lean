import WeakKleene.Proofs.SessionCommands

namespace WeakKleene
namespace Shell

/-!
# What becomes of the statements of a session

A line asks for at most one command, and does what the command does.  Entered
one after the other, lines lead from an empty theory and no files to a history
of sessions.  Its files were all written by it, so each can be read back.

All ids are numbered by one counter.  While it is ahead of all ids that are in
use, a line removes only what it is told to remove.  Only a merge can bring in
an id that the counter has still to reach; an assertion that takes the id then
overwrites the statement that came with it.
-/

open Dialogue

variable {tidy : Prop} {session : Session} {folder : Folder} {inputs : List Input}

theorem Leaves.bind {action : Action}
    (leaves : Leaves tidy session wanted action folder inputs) {next : Session × Status -> Action}
    (same : forall after status, ∃ other, next (after, status) = .done (after, other)) :
    Leaves tidy session wanted (action >>= next) folder inputs := by
  refine (Ensures.mono (fun ending after => ?_) leaves).bind
  cases ending with
  | result value =>
    intro folder inputs
    rcases same value.1 value.2 with ⟨other, equal⟩
    rw [equal]
    exact after
  | noInput => exact after
  | interrupted => exact after

section Sessions

variable [Memory]

/-! ## Lines -/

/-- A name with the arguments behind it, if it names a command. -/
def named? (name text : String) : Option (String × String) :=
  if (command? name).isSome then some (name, text) else none

def slashed? : List Char -> Option (String × String)
  | '/' :: rest =>
    (Text.firstWord rest).bind fun found =>
      named? (String.ofList found.1) (String.ofList (found.2.getD []))
  | _ => none

/-- The name and the arguments of the command that characters ask for. -/
def requestedBy? (chars : List Char) : Option (String × String) :=
  let name := String.ofList (chars.takeWhile isCommandChar)
  (named? name (String.ofList (Text.trim (chars.dropWhile isCommandChar)))).or (slashed? chars)

def requested? (line : String) : Option (String × String) :=
  match Text.trim line.toList with
  | [] => none
  | '!' :: _ => none
  | first :: rest => requestedBy? (if first == '?' then "help ".toList ++ rest else first :: rest)

variable {name line text : String} {wanted : Theory -> Prop} {command : Session -> String -> Action}

theorem named?_of_some (known : command? name = some command) (text : String) :
    named? name text = some (name, text) := by
  rw [named?, known]
  rfl

theorem named?_of_none (unknown : command? name = none) (text : String) :
    named? name text = none := by
  rw [named?, unknown]
  rfl

theorem unknownLine_leaves (sound : session.Sound tidy) {line : List Char}
    (nothing : slashed? line = none -> wanted session.theory)
    (each : forall name text command, slashed? line = some (name, text) ->
      command? name = some command ->
        Leaves tidy session wanted (command session text) folder inputs) :
    Leaves tidy session wanted (unknownLine session (String.ofList line)) folder inputs := by
  rw [unknownLine, String.toList_ofList]
  split
  · next rest =>
    split
    · next first =>
      refine ⟨sound, nothing ?_⟩
      rw [slashed?, first]
      rfl
    · next word args first =>
      dsimp only
      split
      · next command known =>
        refine (each _ _ command ?_ known).bind fun after status => ?_
        · rw [slashed?, first, Option.bind_some, named?_of_some known]
        · cases status with
          | goOn => exact ⟨_, rfl⟩
          | stop => exact ⟨_, rfl⟩
          | failed fault => exact ⟨_, rfl⟩
      · next unknown =>
        refine ⟨sound, nothing ?_⟩
        rw [slashed?, first, Option.bind_some, named?_of_none unknown]
  · next other =>
    have kept : session.Sound tidy ∧ wanted session.theory := by
      refine ⟨sound, nothing ?_⟩
      rw [slashed?]
      exact other
    split
    · exact kept
    · exact kept

/-- A line does what the command does that it asks for, and nothing if it asks for none. -/
theorem execute_leaves (sound : session.Sound tidy)
    (nothing : requested? line = none -> wanted session.theory)
    (each : forall name text command, requested? line = some (name, text) ->
      command? name = some command ->
        Leaves tidy session wanted (command session text) folder inputs) :
    Leaves tidy session wanted (execute session line) folder inputs := by
  rw [execute]
  rw [requested?] at nothing each
  split
  · next empty =>
    rw [empty] at nothing
    exact ⟨sound, nothing rfl⟩
  · next marked =>
    rw [marked] at nothing ⊢
    exact unknownLine_leaves sound (fun _ => nothing rfl) nofun
  · next first rest unmarked start =>
    rw [start] at nothing each ⊢
    simp only at nothing each
    generalize (if (first == '?') = true then "help ".toList ++ rest else first :: rest) =
      chars at nothing each ⊢
    dsimp only
    split
    · next command known =>
      refine each _ _ command ?_ known
      rw [requestedBy?, named?_of_some known, Option.some_or]
    · next unknown =>
      have same : requestedBy? chars = slashed? chars := by
        rw [requestedBy?, named?_of_none unknown, Option.none_or]
      rw [same] at nothing each
      exact unknownLine_leaves sound nothing each

/-! ## Histories -/

/-- What a command may do to the statements: retracting removes those that are meant, clearing
removes all with consent, loading is as said, and every other command adds at most. -/
def Accounted (session : Session) (folder : Folder) (inputs : List Input) (name text : String)
    (after : Theory) : Prop :=
  match name with
  | "retract" => after = retracted session.theory text
  | "clear" => after = if confirmed inputs then session.theory.clear else session.theory
  | "load" => Loaded session folder inputs text after
  | _ => session.theory.statements <+: after.statements

def LineAccounted (session : Session) (folder : Folder) (line : String) (inputs : List Input)
    (after : Theory) : Prop :=
  match requested? line with
  | some (name, text) => Accounted session folder inputs name text after
  | none => after = session.theory

/-- Whether a line keeps the counter ahead: it asks for no merge, or for one that brings in no
unused id at or above the counter. -/
def harmless (session : Session) (folder : Folder) (line : String) : Bool :=
  match requested? line with
  | some (name, text) => name != "load" || loadsBelow session folder text
  | none => true

/-- What each command does to the statements, if it keeps the counter ahead. -/
theorem command_leaves (sound : session.Sound tidy) (holds : folder.Holds (Saved tidy))
    (inputs : List Input) (text : String)
    (safe : tidy -> (name != "load" || loadsBelow session folder text) = true)
    (known : command? name = some command) :
    Leaves tidy session (fun after => session.theory.isAhead = true ->
      (name != "load" || loadsBelow session folder text) = true ->
        Accounted session folder inputs name text after) (command session text) folder inputs := by
  have added {action : Action} {condition : Prop} (adds : Adds tidy session action) :
      Leaves tidy session (fun after => session.theory.isAhead = true -> condition ->
        session.theory.statements <+: after.statements) action folder inputs :=
    (adds.leaves folder inputs).mono fun _ grows ahead _ => (grows.kept ahead).2
  rw [command?.eq_def] at known
  split at known
  · cases known; exact added (adds_assertCommand sound text)
  · cases known
    exact (retractCommand_leaves sound text folder inputs).mono fun _ removed _ _ => removed
  · cases known; exact added (adds_listCommand sound text)
  · cases known; exact added (adds_checkCommand sound text)
  · cases known; exact added (adds_inferCommand sound text)
  · cases known; exact added (adds_reportCommand sound text)
  · cases known
    exact (clearCommand_leaves sound text folder inputs).mono fun _ cleared _ _ => cleared
  · cases known; exact added (adds_saveCommand sound text)
  · cases known
    rw [bne_self_eq_false, Bool.false_or] at safe ⊢
    exact loadCommand_leaves sound text holds safe inputs
  · cases known; exact added (adds_claimCommand sound text)
  · cases known; exact added (adds_evaluateCommand sound text)
  · cases known; exact added (adds_llmCommand sound text)
  · cases known; exact added (adds_helpCommand sound text)
  · cases known; exact added (adds_quitCommand sound text)
  · cases known; exact added (adds_quitCommand sound text)
  · cases known

def entered (session : Session) (folder : Folder) (line : String) (inputs : List Input) :
    Session × Folder :=
  let performance := (execute session line).perform folder inputs
  (session.next performance.ending, performance.folder)

theorem entered_accounted (sound : session.Sound tidy) (holds : folder.Holds (Saved tidy))
    (safe : tidy -> harmless session folder line = true) (inputs : List Input) :
    (entered session folder line inputs).2.Holds (Saved tidy) ∧
      (entered session folder line inputs).1.Sound tidy ∧
      (session.theory.isAhead = true -> harmless session folder line = true ->
        LineAccounted session folder line inputs
          (entered session folder line inputs).1.theory) := by
  have leaves : Leaves tidy session (fun after => session.theory.isAhead = true ->
      harmless session folder line = true -> LineAccounted session folder line inputs after)
      (execute session line) folder inputs := by
    -- A line that asks for no command changes nothing; any other does what its command does.
    refine execute_leaves sound (fun none => ?_) fun name text command found known => ?_
    · intro _ _
      rw [LineAccounted, none]
    · rw [harmless, found] at safe
      refine (command_leaves sound holds inputs text safe known).mono ?_
      intro after accounted ahead careful
      rw [harmless, found] at careful
      rw [LineAccounted, found]
      exact accounted ahead careful
  exact leaves.perform holds

/-- The sessions and folders that allowed lines lead to, from an empty theory and no files.  Time
passes, and a session may be followed by another in the same folder. -/
inductive History (allowed : Session -> Folder -> String -> Bool) : Session -> Folder -> Prop where
  | start (file : Option String) (now : String) (keys : List String) (service : Option Service)
      (folders : List Place) : History allowed (Session.start file now keys service) ⟨folders, []⟩
  | restart {session : Session} {folder : Folder} (before : History allowed session folder)
      (file : Option String) (now : String) (keys : List String) (service : Option Service) :
      History allowed (Session.start file now keys service) folder
  | later {session : Session} {folder : Folder} (before : History allowed session folder)
      (now : String) : History allowed { session with now := now } folder
  | enter {session : Session} {folder : Folder} (before : History allowed session folder)
      (line : String) (inputs : List Input) (allows : allowed session folder line = true) :
      History allowed (entered session folder line inputs).1 (entered session folder line inputs).2

variable {allowed : Session -> Folder -> String -> Bool}

/-- All sessions and files of a history are in order, and if only harmless lines are allowed, then
the counter is ahead in all of them. -/
theorem History.sound (history : History allowed session folder)
    (safe : tidy -> forall session folder line, allowed session folder line = true ->
      harmless session folder line = true) :
    session.Sound tidy ∧ folder.Holds (Saved tidy) := by
  have started (file : Option String) (now : String) (keys : List String)
      (service : Option Service) : (Session.start file now keys service).Sound tidy :=
    ⟨Theory.orderly_empty, fun _ => rfl, nofun⟩
  induction history with
  | start file now keys service folders => exact ⟨started file now keys service, nofun⟩
  | restart _ file now keys service ih => exact ⟨started file now keys service, ih.2⟩
  | later _ now ih =>
    rcases ih with ⟨sound, holds⟩
    exact ⟨⟨sound.orderly, sound.ahead, sound.known⟩, holds⟩
  | enter _ line inputs allows ih =>
    rcases ih with ⟨sound, holds⟩
    rcases entered_accounted sound holds (fun careful => safe careful _ _ _ allows) inputs with
      ⟨holds, sound, _⟩
    exact ⟨sound, holds⟩

/-! ## Merges and assertions -/

def played (session : Session) (folder : Folder) : List (String × List Input) -> Session × Folder
  | [] => (session, folder)
  | (line, inputs) :: rest =>
    played (entered session folder line inputs).1 (entered session folder line inputs).2 rest

theorem harmless_merge (requested : requested? line = some ("load", text))
    (args : loadArguments text = (some name, true)) {saved : Theory} {now : String}
    (found : folder.look (plainPath name) = .file (saved.document now))
    (orderly : saved.Orderly) :
    harmless session folder line = session.theory.mergesBelow saved.statements := by
  have brought : broughtBy session folder text = saved.statements := by
    rw [broughtBy_eq folder args rfl, found, statementsIn_eq orderly (text_of_document orderly now)]
  simp only [harmless, requested, loadsBelow, args, brought, bne_self_eq_false, Bool.not_true,
    Bool.false_or]

theorem entered_merge (load : execute session line = loadCommand session text)
    (args : loadArguments text = (some name, true)) {saved : Theory} {now : String}
    (found : folder.look (plainPath name) = .file (saved.document now)) (orderly : saved.Orderly)
    (inputs : List Input) :
    (entered session folder line inputs).1.theory =
      (session.theory.merge 0 saved.statements).1 := by
  have ensures : (loadCommand session text).Ensures (fun _ => True) (fun ending =>
      (session.next ending).theory = (session.theory.merge 0 saved.statements).1)
      folder inputs := by
    rw [loadCommand, args]
    simp only [Option.map_some, Option.some_or]
    rw [ensures_find, found]
    simp only [loadFound, if_true, text_of_document orderly, mergeFile,
      Theory.loadDocument_document orderly]
    split
    · next equal =>
      rw [equal]
      rfl
    · next equal =>
      rw [equal]
      split
      · rfl
      · rfl
  rw [entered, load]
  exact (ensures.perform fun _ _ => trivial).2

theorem entered_assert {sign sentence : String}
    (assert : execute session line = assertCommand session text) (nonempty : text.isEmpty = false)
    (args : signAndSentence text = (sign, sentence)) (inputs : List Input) :
    (entered session folder line inputs).1.theory =
      (session.theory.assert session.now (.string sentence) .null (.string sign)).1 := by
  have ensures : (assertCommand session text).Ensures (fun _ => True) (fun ending =>
      (session.next ending).theory =
        (session.theory.assert session.now (.string sentence) .null (.string sign)).1)
      folder inputs := by
    rw [assertCommand, nonempty, if_neg Bool.false_ne_true, args]
    dsimp only
    split
    · next fault equal =>
      rw [equal]
      cases fault <;> rfl
    · next equal =>
      rw [equal]
      split
      · rfl
      · rfl
  rw [entered, assert]
  exact (ensures.perform fun _ _ => trivial).2

/-! ## What is lost -/

/-- No two statements ever share an id.  While the counter is ahead, no harmless line loses a
statement that it was not told to remove, and histories of harmless lines keep it ahead. -/
theorem statements_accounted_for (history : History allowed session folder) (line : String)
    (inputs : List Input) :
    ((entered session folder line inputs).1.theory.statements.map Statement.id).Nodup ∧
      (session.theory.isAhead = true -> harmless session folder line = true ->
        LineAccounted session folder line inputs (entered session folder line inputs).1.theory) ∧
      ((forall session folder line, allowed session folder line = true ->
        harmless session folder line = true) -> session.theory.isAhead = true) := by
  rcases history.sound fun none : False => none.elim with ⟨sound, holds⟩
  rcases entered_accounted sound holds nofun inputs with ⟨_, after, accounted⟩
  rcases after.orderly with ⟨counter, numbered⟩
  refine ⟨numbered.distinct, accounted, fun careful => ?_⟩
  exact (history.sound fun _ => careful).1.ahead trivial

end Sessions

open scoped Memory

theorem merge_accounted_for :
    let before := played (Session.start none "" [] none) Folder.empty
      [("assert P(a)", []), ("save a.json", []), ("assert Q(a)", [])]
    let after := entered before.1 before.2 "load a.json --merge" []
    History harmless before.1 before.2 ∧ before.1.theory.isAhead = true ∧
      harmless before.1 before.2 "load a.json --merge" = true ∧
      (after.1.theory.statements.map Statement.id).Nodup ∧
      LineAccounted before.1 before.2 "load a.json --merge" [] after.1.theory := by
  intro before after
  have asserted := (History.start none "" [] none []).enter "assert P(a)" []
    (show harmless _ _ _ = true by decide +kernel)
  have saved := asserted.enter "save a.json" [] (by decide +kernel)
  have history : History harmless before.1 before.2 :=
    saved.enter "assert Q(a)" [] (by decide +kernel)
  have requested : requested? "load a.json --merge" = some ("load", "a.json --merge") := by
    decide +kernel
  have args : loadArguments "a.json --merge" = (some "a.json", true) := by decide +kernel
  have found : before.2.look (plainPath "a.json") = .file ((entered (Session.start none "" [] none)
      Folder.empty "assert P(a)" []).1.theory.document "") := by with_unfolding_all rfl
  have orderly := (asserted.sound fun none : False => none.elim).1.orderly
  have safe : harmless before.1 before.2 "load a.json --merge" = true := by
    rw [harmless_merge requested args found orderly]
    decide +kernel
  rcases statements_accounted_for history "load a.json --merge" [] with
    ⟨distinct, accounted, careful⟩
  have ahead := careful fun _ _ _ harmless => harmless
  exact ⟨history, ahead, safe, distinct, accounted ahead safe⟩

/-- After a theory is saved and cleared, merging the file brings back a statement under the id that
the counter comes to next, and an assertion overwrites it. -/
theorem assertion_overwrites_merged :
    let cleared := played (Session.start none "" [] none) Folder.empty
      [("assert P(a)", []), ("save a.json", []), ("clear", [.line "y"])]
    let merged := entered cleared.1 cleared.2 "load a.json --merge" []
    let asserted := entered merged.1 merged.2 "assert Q(a)" []
    merged.1.theory.statements.map (fun statement =>
        (statement.id.text?, statement.formula.text?)) = [(some "S0001", some "P(a)")] ∧
      asserted.1.theory.statements.map (fun statement =>
        (statement.id.text?, statement.formula.text?)) = [(some "S0001", some "Q(a)")] := by
  intro cleared merged asserted
  have first := (History.start none "" [] none []).enter "assert P(a)" []
    (show harmless _ _ _ = true by decide +kernel)
  have load (session : Session) :
      execute session "load a.json --merge" = loadCommand session "a.json --merge" := by
    with_unfolding_all rfl
  have assert (session : Session) :
      execute session "assert Q(a)" = assertCommand session "Q(a)" := by
    with_unfolding_all rfl
  have args : loadArguments "a.json --merge" = (some "a.json", true) := by decide +kernel
  have signed : signAndSentence "Q(a)" = ("t", "Q(a)") := by decide +kernel
  have found : cleared.2.look (plainPath "a.json") =
        .file ((entered (Session.start none "" [] none) Folder.empty
          "assert P(a)" []).1.theory.document "") := by with_unfolding_all rfl
  have orderly := (first.sound fun none : False => none.elim).1.orderly
  have merges : merged.1.theory = (cleared.1.theory.merge 0 (entered (Session.start none "" [] none)
      Folder.empty "assert P(a)" []).1.theory.statements).1 :=
    entered_merge (load cleared.1) args found orderly []
  have asserts : asserted.1.theory =
      (merged.1.theory.assert merged.1.now (.string "Q(a)") .null (.string "t")).1 :=
    entered_assert (assert merged.1) (by decide +kernel) signed []
  rw [asserts, merges]
  generalize merged.1.now = now
  have empty : cleared.1.theory = Theory.empty := by with_unfolding_all rfl
  rw [empty]
  exact ⟨by with_unfolding_all rfl, by with_unfolding_all rfl⟩

end Shell
end WeakKleene
