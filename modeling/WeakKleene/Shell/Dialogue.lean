import WeakKleene.Shell.Folder

namespace WeakKleene
namespace Shell

/-!
Dialogues: what a command says, asks, reads and writes on its way to a result.

A dialogue describes an exchange without carrying it out.  It can be performed
on prepared input and files, or by an outer layer on real ones.
-/

inductive Dialogue (α : Type) where
  | done (value : α)
  | say (text : String) (next : Dialogue α)
  | ask (prompt : String) (next : String -> Dialogue α)
  | look (path : String) (next : Found -> Dialogue α)
  | write (path text : String) (next : Option Fault -> Dialogue α)

namespace Dialogue

def bind {α β : Type} (continuation : α -> Dialogue β) : Dialogue α -> Dialogue β
  | done value => continuation value
  | say text next => say text (bind continuation next)
  | ask prompt next => ask prompt fun answer => bind continuation (next answer)
  | look path next => look path fun found => bind continuation (next found)
  | write path text next => write path text fun fault => bind continuation (next fault)

instance : Monad Dialogue where
  pure := done
  bind dialogue continuation := bind continuation dialogue

def tell (line : String) : Dialogue Unit := say (line ++ "\n") (done ())

def tellAll (lines : List String) : Dialogue Unit := lines.forM tell

/-- Say groups of lines, up to the first that there is a fault instead of. -/
def tellEach : List (Except Fault (List String)) -> Dialogue (Option Fault)
  | [] => return none
  | .ok lines :: rest => do
      tellAll lines
      tellEach rest
  | .error fault :: _ => return some fault

def question (prompt : String) : Dialogue String := ask prompt done

def find (path : String) : Dialogue Found := look path done

def store (path text : String) : Dialogue (Option Fault) := write path text done

end Dialogue

/-- What comes in at a prompt: a line, or the wish to break off. -/
inductive Input where
  | line (text : String)
  | interrupt
deriving DecidableEq, Repr

/-- How a performance ends: with a result, for want of input, or broken off. -/
inductive Ending (α : Type) where
  | result (value : α)
  | noInput
  | interrupted

structure Performance (α : Type) where
  ending : Ending α
  output : String
  folder : Folder
  inputs : List Input

def Dialogue.perform {α : Type} : Dialogue α -> Folder -> List Input -> Performance α
  | .done value, folder, inputs => ⟨.result value, "", folder, inputs⟩
  | .say text next, folder, inputs =>
    let rest := next.perform folder inputs
    { rest with output := text ++ rest.output }
  | .ask prompt _, folder, [] => ⟨.noInput, prompt, folder, []⟩
  | .ask prompt _, folder, .interrupt :: inputs => ⟨.interrupted, prompt, folder, inputs⟩
  | .ask prompt next, folder, .line answer :: inputs =>
    let rest := (next answer).perform folder inputs
    { rest with output := prompt ++ rest.output }
  | .look path next, folder, inputs => (next (folder.look path)).perform folder inputs
  | .write path text next, folder, inputs =>
    match folder.write path text with
    | .ok written => (next none).perform written inputs
    | .error fault => (next (some fault)).perform folder inputs

end Shell
end WeakKleene
