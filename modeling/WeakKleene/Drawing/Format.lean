import WeakKleene.Drawing.Markup
import WeakKleene.Drawing.Tree
import WeakKleene.Json.Print

namespace WeakKleene
namespace Drawing

/-!
The formats in which the tree of a tableau is shown.
-/

inductive Format where
  | ascii
  | unicode
  | latex
  | json
deriving DecidableEq, Repr

namespace Format

def name : Format -> String
  | ascii => "ascii"
  | unicode => "unicode"
  | latex => "latex"
  | json => "json"

def all : List Format := [ascii, unicode, latex, json]

def ofName? (name : String) : Option Format := all.find? fun format => format.name == name

end Format

def nodeData (node : Node) : Json :=
  .record ([
    ("id", .nat node.id),
    ("formula", .string node.signed.text),
    ("rule", .ofText? node.rule),
    ("closed", .bool node.clash.isSome),
    ("closure_reason", .ofText? (node.clash.map fun clash =>
      "Contradicts node " ++ toString clash.1)),
    ("children", .list (node.children.map Json.nat))] ++
    (node.parent.map fun parent => ("parent", Json.nat parent)).toList)

def data (tableau : Tableau) : Json :=
  .record [
    ("nodes", .list (tableau.nodes.toList.map nodeData)),
    ("open_branches", .nat tableau.opened.length),
    ("closed_branches", .nat tableau.closed.length),
    ("total_nodes", .nat tableau.nodes.size)]

def draw (tableau : Tableau) (showRules : Bool) : Format -> String
  | .ascii => tree shortStrokes showRules tableau
  | .unicode => tree longStrokes showRules tableau
  | .latex => commands tableau
  | .json => (data tableau).document

def drawNamed (tableau : Tableau) (showRules : Bool) (name : String) : Except Fault String :=
  match Format.ofName? name with
  | some format => .ok (draw tableau showRules format)
  | none => .error (.unknownFormat name)

end Drawing
end WeakKleene
