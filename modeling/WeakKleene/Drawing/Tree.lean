import WeakKleene.Tableau.Basic

namespace WeakKleene
namespace Drawing

/-!
The tree of a tableau, drawn with lines.

Each node stands on a line of its own behind lines that lead to its parent.  On
request the rule that produced it follows, aligned in a column to the right of
the widest node.
-/

/-- The strokes of a drawing.  All four have the same width. -/
structure Strokes where
  width : Nat
  lastChild : String
  child : String
  blank : String
  bar : String

def shortStrokes : Strokes := ⟨4, "└── ", "├── ", "    ", "│   "⟩

def longStrokes : Strokes := ⟨5, "└─── ", "├─── ", "     ", "│    "⟩

def paddedNumber (number : Nat) : String :=
  if number < 10 then " " ++ toString number else toString number

/-- The words of a node: its number and formula, and a cross if the node is a leaf that closed a
branch. -/
def label (node : Node) : String :=
  let cross := node.clash.isSome && node.children.isEmpty
  paddedNumber node.id ++ ". " ++ node.signed.text ++ (if cross then "  ×" else "")

/-- The width of the widest node, as measured by its depth in the tree. -/
def widest (strokes : Strokes) (tableau : Tableau) : Nat :=
  tableau.nodes.foldl (fun width node =>
    max width (node.depth * strokes.width + (label node).length)) 0

/-- The rule of a node behind blanks that bring it to the given column, with at least one
blank. -/
def ruleMark (column current : Nat) (node : Node) : String :=
  match node.rule with
  | none => ""
  | some rule =>
    let blanks := String.ofList (List.replicate (max 1 (column + 5 - current)) ' ')
    let origin := (node.parent.map fun parent => ": " ++ toString parent).getD ""
    blanks ++ "[" ++ rule ++ origin ++ "]"

/-- The line of a node behind the lines that come from above. -/
def line (strokes : Strokes) (column : Option Nat) (lead : String) (last : Bool) (node : Node) :
    String :=
  let connector :=
    if lead.isEmpty then ""
    else if last then strokes.lastChild
    else strokes.child
  let current := lead.length + connector.length + (label node).length
  let mark := (column.map fun column => ruleMark column current node).getD ""
  lead ++ connector ++ label node ++ mark

/-- Children, each with whether it is the last one. -/
def withLast : List Nat -> List (Nat × Bool)
  | [] => []
  | id :: rest => (id, rest.isEmpty) :: withLast rest

/-- The lines of the subtree under a node, no deeper than the given depth. -/
def subtree (strokes : Strokes) (column : Option Nat) (tableau : Tableau) :
    Nat -> String -> Bool -> Nat -> List String
  | 0, _, _, _ => []
  | depth + 1, lead, last, id =>
    match tableau.node? id with
    | none => []
    | some node =>
      let below := lead ++ (if last then strokes.blank else strokes.bar)
      line strokes column lead last node :: (withLast node.children).flatMap fun (child, last) =>
          subtree strokes column tableau depth below last child

/-- The drawing of a whole tableau.  Every path in the tree is at most as long as there are
nodes. -/
def tree (strokes : Strokes) (showRules : Bool) (tableau : Tableau) : String :=
  let column := if showRules then some (widest strokes tableau) else none
  String.intercalate "\n" (subtree strokes column tableau tableau.nodes.size "" true 0)

end Drawing
end WeakKleene
