import WeakKleene.Tableau.Basic
import WeakKleene.Text.Replace

namespace WeakKleene
namespace Drawing

/-!
The tree of a tableau as drawing commands of a typesetting system.
-/

/-- A formula with its connectives as commands. -/
def markup (text : String) : String :=
  let commands := [("&", "\\land"), ("|", "\\lor"), ("->", "\\rightarrow"), ("~", "\\neg")]
  String.ofList (commands.foldl (fun text (symbol, command) =>
    Text.replaceAll symbol.toList command.toList text) text.toList)

def nodeName (id : Nat) : String := "n" ++ toString id

def braced (text : String) : String := "\x7b" ++ text ++ "\x7d"

def nodeCommand (node : Node) : String :=
  let place := (node.parent.map fun parent => " [below of=" ++ nodeName parent ++ "]").getD ""
  "  \\node (" ++ nodeName node.id ++ ")" ++ place ++ " " ++
    braced (toString node.id ++ ". " ++ markup node.signed.text) ++ ";"

def edgeCommand? (node : Node) : Option String :=
  node.parent.map fun parent =>
    "  \\draw[->] (" ++ nodeName parent ++ ") -- node[right] " ++ braced (node.rule.getD "") ++
      " (" ++ nodeName node.id ++ ");"

def commands (tableau : Tableau) : String :=
  let opening := [
    "\\begin" ++ braced "tikzpicture" ++ "[",
    "  node distance=1.5cm,",
    "  every node/.style=" ++
      braced "draw, rectangle, minimum width=2cm, text width=3cm, align=center",
    "]"]
  let nodes := tableau.nodes.toList
  String.intercalate "\n" (opening ++ nodes.map nodeCommand ++ nodes.filterMap edgeCommand? ++
    ["\\end" ++ braced "tikzpicture"])

end Drawing
end WeakKleene
