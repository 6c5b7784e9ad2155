import WeakKleene.Shell.Folder
import WeakKleene.Sorted
import WeakKleene.Text.Replace

namespace WeakKleene
namespace Shell

/-!
Completing the names of files behind the commands save and load.

The unfinished name is a pattern: a star stands for any characters, a question
mark for one, and brackets for one of those listed.
-/

/-- Whether a character is among those listed between brackets, where a hyphen between two
characters stands for all in between. -/
def inClass (c : Char) : List Char -> Bool
  | first :: '-' :: last :: rest => (first <= c && c <= last) || inClass c rest
  | first :: rest => first == c || inClass c rest
  | [] => false

/-- The characters listed after an opening bracket, whether all others are meant instead, and
what follows the closing bracket.  A bracket that is not closed is an ordinary character. -/
def bracketClass? (pattern : List Char) : Option (Bool × List Char × List Char) :=
  let (negated, body) := match pattern with
    | '!' :: rest => (true, rest)
    | body => (false, body)
  let (first, rest) := match body with
    | ']' :: rest => ([']'], rest)
    | body => ([], body)
  match rest.dropWhile (· != ']') with
  | _ :: after => some (negated, first ++ rest.takeWhile (· != ']'), after)
  | [] => none

/-- Whether a name matches a pattern, where the bound is at least the length of both. -/
def matchesWithin : Nat -> List Char -> List Char -> Bool
  | 0, pattern, name => pattern.isEmpty && name.isEmpty
  | _ + 1, [], name => name.isEmpty
  | bound + 1, '*' :: pattern, [] => matchesWithin bound pattern []
  | bound + 1, '*' :: pattern, c :: name =>
    matchesWithin bound pattern (c :: name) || matchesWithin bound ('*' :: pattern) name
  | _ + 1, _, [] => false
  | bound + 1, '?' :: pattern, _ :: name => matchesWithin bound pattern name
  | bound + 1, '[' :: pattern, c :: name =>
    match bracketClass? pattern with
    | some (negated, listed, after) =>
      (inClass c listed != negated) && matchesWithin bound after name
    | none => c == '[' && matchesWithin bound pattern name
  | bound + 1, p :: pattern, c :: name => p == c && matchesWithin bound pattern name

def matchesPattern (pattern name : List Char) : Bool :=
  matchesWithin (pattern.length + name.length + 1) pattern name

def isPattern (part : List Char) : Bool := part.any fun c => c == '*' || c == '?' || c == '['

def isHidden (name : List Char) : Bool := name.head? == some '.'

def leadsToFolder (folder : Folder) (path : String) : Bool := folder.look path matches .folder

/-- Whether a path leads to a file or a folder. -/
def leadsSomewhere (folder : Folder) (path : String) : Bool :=
  !(folder.look path matches .missing _)

/-- The names in the folder of a path that match a pattern.  Hidden names have to be started with
their dot. -/
def matchingNames (folder : Folder) (path : String) (pattern : List Char) : List String :=
  match folder.locate (if path.isEmpty then "." else path) with
  | .ok (.folder place) => (folder.namesIn place).filter fun name =>
    (isHidden pattern || !isHidden name.toList) && matchesPattern pattern name.toList
  | _ => []

/-- The paths to which a part may lead on from the folder of a path. -/
def expandPart (folder : Folder) (part : List Char) (path : String) : List String :=
  if isPattern part then (matchingNames folder path part).map (joinPath path)
  else [joinPath path (String.ofList part)].filter (leadsSomewhere folder)

/-- The paths to which parts may lead on.  All but the last of them lead to folders. -/
def expandParts (folder : Folder) : List (List Char) -> List String -> List String
  | [], paths => paths
  | [part], paths => paths.flatMap (expandPart folder part)
  | part :: rest, paths =>
    expandParts folder rest ((paths.flatMap (expandPart folder part)).filter (leadsToFolder folder))

/-- Characters without the slashes at their end, unless they are all slashes. -/
def withoutEndSlashes (chars : List Char) : List Char :=
  match chars.reverse.dropWhile (· == '/') with
  | [] => chars
  | kept => kept.reverse

/-- An unfinished path, cut behind its last slash. -/
def cutAtSlash (text : String) : List Char × List Char :=
  let back := text.toList.reverse
  (withoutEndSlashes (back.dropWhile (· != '/')).reverse, (back.takeWhile (· != '/')).reverse)

/-- The parts at the start of a path that are no patterns, as they are written, and the other
parts. -/
def cutAtPattern (path : List Char) : String × List (List Char) :=
  let (fixed, rest) := (path.splitOn '/').span fun part => !isPattern part
  let start :=
    if rest.isEmpty then path
    else withoutEndSlashes (fixed.flatMap fun part => part ++ ['/'])
  (String.ofList start, rest.filter fun part => !part.isEmpty)

/-- The paths that an unfinished one may become, each with whether it is a folder. -/
def completions (folder : Folder) (text : String) : Except Fault (List (String × Bool)) :=
  let (path, name) := cutAtSlash text
  let (start, parts) := cutAtPattern path
  if start.toList.contains '\x00' then .error .nullInText
  else
    let found := expandParts folder (parts ++ [name ++ ['*']]) [start]
    .ok ((Sorted.ofList found).map fun path => (path, leadsToFolder folder path))

/-- The name with the usual ending, for one that is started without a dot. -/
def suggestion (text : String) : List String :=
  let name := (cutAtSlash text).2
  if name.isEmpty || name.contains '.' then [] else [String.ofList name ++ ".json"]

def shownPath (entry : String × Bool) : String := if entry.2 then entry.1 ++ "/" else entry.1

/-- The completions behind the command save. -/
def completeSave (folder : Folder) (text : String) : Except Fault (List String) := do
  let found := (<- completions folder text).map shownPath
  return if found.isEmpty then suggestion text else found

/-- Whether an entry is a file with the usual ending. -/
def isUsual (entry : String × Bool) : Bool := !entry.2 && ".json".toList.isSuffixOf entry.1.toList

/-- The start of a line up to an index, which counts from the end if it is negative. -/
def upToIndex (line : String) (index : Int) : List Char :=
  let chars := line.toList
  chars.take (if index < 0 then index + chars.length else index).toNat

/-- The completions behind the command load, for the text from an index of the line on: files with
the usual ending first, the last of them in front.  After a file's name comes the option to
merge. -/
def completeLoad (folder : Folder) (text line : String) (index : Int) :
    Except Fault (List String) :=
  let merging := Text.occursIn "--merge".toList (upToIndex line index)
  if "--".toList.isPrefixOf text.toList then .ok ["--merge"]
  else if !merging && line.toList.contains ' ' && text.isEmpty then .ok ["--merge"]
  else do
    let found <- completions folder text
    let (usual, others) := found.partition isUsual
    let all := usual.reverse.map Prod.fst ++ others.map shownPath
    return if all.isEmpty then suggestion text else all

end Shell
end WeakKleene
