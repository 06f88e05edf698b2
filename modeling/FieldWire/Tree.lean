import FieldWire.Sequence

/-!
# Trees

A tree is a sequence whose elements are trees.  The format of trees refers to itself, so it is built
in levels: the format of a level reads and writes trees up to that many levels, and knows nothing
below.  Writing a tree takes as many levels as the tree has, and reading one never takes more levels
than there are bytes left, since every level takes a byte.
-/

set_option autoImplicit false

namespace FieldWire

/-- A sequence of trees. -/
inductive Tree where
  | node (children : Sequence Tree)

namespace Tree

/-- The sequence of subtrees. -/
def children : Tree → Sequence Tree
  | .node children => children

mutual

/-- The number of levels. -/
def depth : Tree → Nat
  | .node ⟨items, _⟩ => depthOfList items + 1

/-- The number of levels of the deepest of some trees. -/
def depthOfList : List Tree → Nat
  | [] => 0
  | tree :: trees => max (depth tree) (depthOfList trees)

end

/-- The tree without subtrees. -/
def leaf : Tree := .node Sequence.empty

/-- A format of sequences of trees as one of trees. -/
def ofSequenceFormat (format : ObjectFormat (Sequence Tree)) : ObjectFormat Tree where
  empty := .node format.empty
  size tree :=
    let (size, children) := format.size tree.children
    (size, .node children)
  encode tree :=
    let (bytes, children) := format.encode tree.children
    (bytes, .node children)
  load := Loader.part children (fun _ children => .node children) format.load
  same left right :=
    let (answer, left, right) := format.same left.children right.children
    (answer, .node left, .node right)

/-- Below the last level there are no trees. -/
def noTrees : ObjectFormat Tree where
  empty := leaf
  size tree := (0, tree)
  encode tree := ([], tree)
  load := throw (.bufferUnderrun 1 0)
  same left right := (false, left, right)

/-- The format of trees of up to `levels` levels. -/
def formatUpTo : Nat → ObjectFormat Tree
  | 0 => noTrees
  | levels + 1 => ofSequenceFormat (Sequence.format (ElementFormat.object (formatUpTo levels)))

/-- The format of trees. -/
def format : ObjectFormat Tree where
  empty := leaf
  size tree := (formatUpTo tree.depth).size tree
  encode tree := (formatUpTo tree.depth).encode tree
  load := fun state => (formatUpTo (state.2.rest.length + 1)).load state
  same left right := (formatUpTo (max left.depth right.depth)).same left right

/-- The number of times that one can step to the first subtree. -/
def leftDepth : Tree → Nat
  | .node ⟨[], _⟩ => 0
  | .node ⟨first :: _, _⟩ => leftDepth first + 1

/-- A tree whose only subtree is the given one. -/
def wrap (tree : Tree) : Tree := .node (Sequence.ofList [tree])

end Tree

end FieldWire
