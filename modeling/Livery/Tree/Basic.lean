import Livery.Tree.Widget

/-!
# Trees of widgets

A tree keeps its widgets in the order in which they were added and calls them by their places.
Every widget knows its parent, its children and the siblings beside it.

## Main definitions

* `Tree`, `Tree.Node`: widgets with their links.
* `Tree.add`, `Tree.append`, `Tree.detach`: how a tree grows and changes.
* `Tree.parent?`, `Tree.children`, `Tree.previous?`, `Tree.next?`: the links of a widget. A place
  that is not in the tree has none.
* `Tree.ancestors`: the parents of a widget, from the nearest on.
-/

namespace Livery

/-- A widget and its links. -/
structure Tree.Node where
  widget : Widget
  parent : Option Nat := none
  children : List Nat := []
  next : Option Nat := none
  previous : Option Nat := none
  deriving Repr, DecidableEq, Inhabited

/-- Widgets by their places. -/
structure Tree where
  nodes : List Tree.Node := []
  deriving Repr, DecidableEq, Inhabited

namespace Tree

/-! ## Looking up -/

/-- The number of widgets. -/
def size (t : Tree) : Nat := t.nodes.length

/-- The node at a place. -/
def get? (t : Tree) (i : Nat) : Option Node := t.nodes[i]?

/-- The widget at a place. -/
def widget? (t : Tree) (i : Nat) : Option Widget := (t.get? i).map Node.widget

/-- The parent of a widget. -/
def parent? (t : Tree) (i : Nat) : Option Nat := (t.get? i).bind Node.parent

/-- The children of a widget in their order. -/
def children (t : Tree) (i : Nat) : List Nat := ((t.get? i).map Node.children).getD []

/-- The sibling behind a widget. -/
def next? (t : Tree) (i : Nat) : Option Nat := (t.get? i).bind Node.next

/-- The sibling in front of a widget. -/
def previous? (t : Tree) (i : Nat) : Option Nat := (t.get? i).bind Node.previous

/-- The parents of a widget from the nearest on, at most so many. -/
def ancestors (t : Tree) : Nat → Nat → List Nat
  | 0, _ => []
  | limit + 1, i =>
    match t.parent? i with
    | some parent => parent :: ancestors t limit parent
    | none => []

/-! ## Changes -/

/-- The tree with a change of one node. -/
def modify (t : Tree) (i : Nat) (change : Node → Node) : Tree :=
  ⟨t.nodes.modify i change⟩

/-- The tree with a change of one node, if there is a place to change. -/
def modify? (t : Tree) (i : Option Nat) (change : Node → Node) : Tree :=
  match i with
  | some i => t.modify i change
  | none => t

/-- The tree with a change of one widget. -/
def modifyWidget (t : Tree) (i : Nat) (change : Widget → Widget) : Tree :=
  t.modify i fun node => { node with widget := change node.widget }

/-- Adds a widget without links; its place is the number of widgets before. -/
def add (t : Tree) (w : Widget) : Tree :=
  ⟨t.nodes ++ [{ widget := w }]⟩

/-- Takes a widget out of its place among its siblings; it keeps its children. -/
def detach (t : Tree) (child : Nat) : Tree :=
  match t.get? child with
  | none => t
  | some node =>
    let t := t.modify? node.parent fun parent =>
      { parent with children := parent.children.filter (· != child) }
    let t := t.modify? node.previous fun previous => { previous with next := node.next }
    let t := t.modify? node.next fun next => { next with previous := node.previous }
    t.modify child fun node => { node with parent := none, previous := none, next := none }

/-- Makes a detached widget the last child of a parent. -/
def link (t : Tree) (parent child : Nat) : Tree :=
  let last := (t.children parent).getLast?
  let t := t.modify parent fun node => { node with children := node.children ++ [child] }
  let t := t.modify? last fun node => { node with next := some child }
  t.modify child fun node => { node with parent := some parent, previous := last.or node.previous }

/-- Moves a widget to the end of the children of a parent. Nothing happens if one of them is not in
the tree or both are the same. -/
def append (t : Tree) (parent child : Nat) : Tree :=
  if t.size ≤ parent || t.size ≤ child || parent == child then t
  else (t.detach child).link parent child

/-- Adds a widget at the end of the children of a parent. -/
def addChild (t : Tree) (parent : Nat) (w : Widget) : Tree :=
  (t.add w).append parent t.size

/-- Sets a property of a widget, and tells what it was before. -/
def setProperty (t : Tree) (i : Nat) (name value : String) : Option String × Tree :=
  ((t.widget? i).bind fun w => w.property? name, t.modifyWidget i fun w => w.set name value)

end Tree

end Livery
