import WeakKleene.Fault
import WeakKleene.Sorted

namespace WeakKleene
namespace Shell

/-!
Files and folders by their paths.

A path is followed part by part.  Parts that are empty or a dot stay where they
are, two dots lead to the folder above, and every other part is a name.  Only
from a folder does a path lead on.
-/

/-! ## Paths in writing -/

/-- The parts of a path that lead somewhere. -/
def pathParts (path : String) : List (List Char) :=
  (path.toList.splitOn '/').filter fun part => !part.isEmpty && part != ['.']

/-- The slashes that a path keeps at its start: two stay two, more become one. -/
def pathRoot (path : String) : String :=
  match (path.toList.takeWhile (· == '/')).length with
  | 0 => ""
  | 2 => "//"
  | _ => "/"

/-- A path without empty parts and without parts that stay where they are. -/
def plainPath (path : String) : String :=
  let plain := pathRoot path ++ String.intercalate "/" ((pathParts path).map String.ofList)
  if plain.isEmpty then "." else plain

/-- A path to a name in the folder of a path. -/
def joinPath (path name : String) : String :=
  if path.isEmpty || path.toList.getLast? == some '/' then path ++ name else path ++ "/" ++ name

/-! ## Places -/

/-- Where names start to lead down from: the root, or so many folders above the present one. -/
inductive Base where
  | root
  | above (levels : Nat)
deriving DecidableEq, Repr

structure Place where
  base : Base
  names : List String
deriving DecidableEq, Repr

namespace Place

def here : Place := ⟨.above 0, []⟩

def below (place : Place) (name : String) : Place := { place with names := place.names ++ [name] }

/-- The folder that a place lies in.  Nothing lies above the root. -/
def parent (place : Place) : Place :=
  match place.names, place.base with
  | [], .root => place
  | [], .above levels => ⟨.above (levels + 1), []⟩
  | names, _ => { place with names := names.dropLast }

def startOf (path : String) : Place := if path.toList.head? == some '/' then ⟨.root, []⟩ else here

end Place

/-! ## Files -/

/-- A text with line feeds for all line breaks. -/
def unifiedBreaks : List Char -> List Char
  | '\r' :: '\n' :: rest => '\n' :: unifiedBreaks rest
  | '\r' :: rest => '\n' :: unifiedBreaks rest
  | c :: rest => c :: unifiedBreaks rest
  | [] => []

inductive Found where
  | missing (fault : Fault)
  | folder
  | file (text : String)
deriving DecidableEq, Repr

def Found.text : Found -> Except Fault String
  | missing fault => .error fault
  | folder => .error .folderGiven
  | file text => .ok (String.ofList (unifiedBreaks text.toList))

/-- Files with their texts, and the folders around them.  The present folder, those above it and
the root need not be listed. -/
structure Folder where
  folders : List Place
  files : List (Place × String)

/-- Where a path has led: to a folder, to a file, or to a place in a folder where nothing is. -/
inductive Spot where
  | folder (place : Place)
  | file (place : Place) (text : String)
  | vacant (place : Place)
deriving DecidableEq, Repr

namespace Folder

def empty : Folder := ⟨[], []⟩

def spotAt (folder : Folder) (place : Place) : Spot :=
  match folder.files.lookup place with
  | some text => .file place text
  | none =>
    if place.names.isEmpty || folder.folders.contains place then .folder place
    else .vacant place

/-- How many bytes a name may have. -/
def nameBound : Nat := 255

/-- How many bytes a path may not reach. -/
def pathBound : Nat := 4096

def enter (folder : Folder) (spot : Spot) (part : List Char) : Except Fault Spot :=
  match spot with
  | .vacant _ => .error .fileNotFound
  | .file _ _ => .error .fileInPath
  | .folder place =>
    let name := String.ofList part
    if part.isEmpty || part == ['.'] then .ok spot
    else if part == ['.', '.'] then .ok (.folder place.parent)
    else if name.utf8ByteSize > nameBound then .error .nameTooLong
    else .ok (folder.spotAt (place.below name))

def locate (folder : Folder) (path : String) : Except Fault Spot :=
  if path.toList.contains '\x00' then .error .nullInText
  else if path.isEmpty then .error .fileNotFound
  else if path.utf8ByteSize >= pathBound then .error .nameTooLong
  else (path.toList.splitOn '/').foldlM folder.enter (.folder (Place.startOf path))

def look (folder : Folder) (path : String) : Found :=
  match folder.locate path with
  | .error fault => .missing fault
  | .ok (.vacant _) => .missing .fileNotFound
  | .ok (.folder _) => .folder
  | .ok (.file _ text) => .file text

def put (folder : Folder) (place : Place) (text : String) : Folder :=
  { folder with files := (place, text) :: folder.files.filter fun file => file.1 != place }

/-- Write a file in a folder that exists. -/
def write (folder : Folder) (path text : String) : Except Fault Folder := do
  match <- folder.locate path with
  | .folder _ => .error .folderGiven
  | .file place _ | .vacant place => return folder.put place text

def placeOf (path : String) : Place :=
  (pathParts path).foldl (fun place part =>
    if part == ['.', '.'] then place.parent else place.below (String.ofList part))
    (Place.startOf path)

/-- Put a file under a path, and with it the folders that it lies in. -/
def provide (folder : Folder) (path text : String) : Folder :=
  let place := placeOf path
  let around := (List.range place.names.length).map fun depth =>
    { place with names := place.names.take depth : Place }
  { folder.put place text with folders := folder.folders ++ around }

def namesIn (folder : Folder) (place : Place) : List String :=
  let places := folder.folders ++ folder.files.map Prod.fst
  Sorted.ofList ((places.filter fun other => other.parent == place).filterMap fun other =>
    other.names.getLast?)

end Folder
end Shell
end WeakKleene
