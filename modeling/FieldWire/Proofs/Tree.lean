import FieldWire.Proofs.Sequence
import FieldWire.Tree

/-!
# Trees

The laws of trees are proved level by level: a level that has the laws gives them to the sequences of
its trees, and these are the trees of the next level.  What a level does with a tree does not depend
on how many more levels there are, and a tree never has more levels than bytes, so that the format
of trees always takes enough of them.
-/

set_option autoImplicit false

namespace FieldWire.Tree

mutual

/-- The tree with nothing remembered. -/
def forget : Tree → Tree
  | .node ⟨items, _⟩ => .node ⟨forgetList items, none⟩

def forgetList : List Tree → List Tree
  | [] => []
  | tree :: trees => forget tree :: forgetList trees

end

mutual

/-- The bytes of the body. -/
def body : Tree → Bytes
  | .node ⟨items, _⟩ => Write.lengthTag items.length .list ++ bodies items

def bodies : List Tree → Bytes
  | [] => []
  | tree :: trees => Write.blob (body tree) ++ bodies trees

end

mutual

/-- Whether every size that is remembered on some level is right. -/
def Exact : Tree → Prop
  | .node ⟨items, memo⟩ =>
    Remembers memo (Write.lengthTag items.length .list ++ bodies items) ∧ ExactList items

def ExactList : List Tree → Prop
  | [] => True
  | tree :: trees => Exact tree ∧ ExactList trees

end

/-- What is seen of a tree: its shape. -/
def view : View Tree where
  Contents := Tree
  contents := forget
  bytes := body
  forget := forget
  Exact := Exact
  Valid _ := True

/-- Trees of up to some number of levels. -/
def viewUpTo (levels : Nat) : View Tree := { view with Valid := fun tree => tree.depth ≤ levels }

/-! ## Lists of trees -/

theorem forgetList_eq_map (trees : List Tree) : forgetList trees = trees.map forget := by
  induction trees with
  | nil => rfl
  | cons tree trees ih => rw [forgetList, ih, List.map_cons]

theorem bodies_eq_flatMap (trees : List Tree) :
    bodies trees = trees.flatMap fun tree => Write.blob (body tree) := by
  induction trees with
  | nil => rfl
  | cons tree trees ih => rw [bodies, ih, List.flatMap_cons]

theorem exactList_iff (trees : List Tree) : ExactList trees ↔ ∀ tree ∈ trees, Exact tree := by
  induction trees with
  | nil => simp [ExactList]
  | cons tree trees ih => simp [ExactList, ih]

theorem depthOfList_le_iff (trees : List Tree) (levels : Nat) :
    depthOfList trees ≤ levels ↔ ∀ tree ∈ trees, tree.depth ≤ levels := by
  induction trees with
  | nil => simp [depthOfList]
  | cons tree trees ih => rw [depthOfList, Nat.max_le, ih, List.forall_mem_cons]

/-! ## A tree as a sequence of trees -/

/-- What is seen of the subtrees of a tree. -/
def childrenView (levels : Nat) : View (Sequence Tree) :=
  Sequence.view .list (viewUpTo levels).spanned

theorem depth_node_le_iff (children : Sequence Tree) (levels : Nat) :
    (node children).depth ≤ levels + 1 ↔ (childrenView levels).Valid children := by
  obtain ⟨items, memo⟩ := children
  rw [depth, Nat.add_le_add_iff_right, depthOfList_le_iff]
  rfl

theorem one_le_depth (tree : Tree) : 1 ≤ tree.depth := by
  obtain ⟨items, memo⟩ := tree
  rw [depth]
  exact Nat.le_add_left _ _

theorem forget_node (children : Sequence Tree) (levels : Nat) :
    forget (node children) = node ((childrenView levels).forget children) := by
  obtain ⟨items, memo⟩ := children
  rw [forget, forgetList_eq_map]
  rfl

theorem forget_node_congr {children later : Sequence Tree}
    (same : later.items.map forget = children.items.map forget) :
    forget (node later) = forget (node children) := by
  rw [forget_node _ 0, forget_node _ 0]
  change node ⟨later.items.map forget, none⟩ = node ⟨children.items.map forget, none⟩
  rw [same]

theorem body_node (children : Sequence Tree) (levels : Nat) :
    body (node children) = (childrenView levels).bytes children := by
  obtain ⟨items, memo⟩ := children
  rw [body, bodies_eq_flatMap]
  rfl

theorem exact_node_iff (children : Sequence Tree) (levels : Nat) :
    Exact (node children) ↔ (childrenView levels).Exact children := by
  obtain ⟨items, memo⟩ := children
  rw [Exact, exactList_iff, bodies_eq_flatMap]
  rfl

theorem alike_node {levels : Nat} {children later : Sequence Tree}
    (alike : (childrenView levels).Alike children later) :
    (viewUpTo (levels + 1)).Alike (node children) (node later) where
  contents := forget_node_congr alike.contents
  bytes := by
    change body (node later) = body (node children)
    rw [body_node _ levels, body_node _ levels, alike.bytes]
  exact exact := by
    have exact : Exact (node children) := exact
    rw [exact_node_iff _ levels] at exact
    exact (exact_node_iff _ levels).mpr (alike.exact exact)
  valid valid := by
    have valid : (node children).depth ≤ levels + 1 := valid
    rw [depth_node_le_iff] at valid
    exact (depth_node_le_iff _ _).mpr (alike.valid valid)

/-! ## Faithful -/

theorem ofSequenceFormat_faithful {levels : Nat} {format : ObjectFormat (Sequence Tree)}
    (children : format.Faithful (childrenView levels)) :
    (ofSequenceFormat format).Faithful (viewUpTo (levels + 1)) where
  afterSize tree valid := by
    obtain ⟨sequence⟩ := tree
    exact alike_node (children.afterSize sequence ((depth_node_le_iff _ _).mp valid))
  afterEncode tree valid := by
    obtain ⟨sequence⟩ := tree
    exact alike_node (children.afterEncode sequence ((depth_node_le_iff _ _).mp valid))
  size_eq tree valid exact := by
    obtain ⟨sequence⟩ := tree
    have size := children.size_eq sequence ((depth_node_le_iff _ _).mp valid)
      ((exact_node_iff _ _).mp exact)
    rw [← body_node] at size
    exact size
  encode_eq tree valid exact := by
    obtain ⟨sequence⟩ := tree
    have encoded := children.encode_eq sequence ((depth_node_le_iff _ _).mp valid)
      ((exact_node_iff _ _).mp exact)
    rw [← body_node] at encoded
    exact encoded
  forgotten tree valid := by
    obtain ⟨sequence⟩ := tree
    obtain ⟨alike, exact⟩ := children.forgotten sequence ((depth_node_le_iff _ _).mp valid)
    have same : (viewUpTo (levels + 1)).forget (node sequence) =
        node ((childrenView levels).forget sequence) := forget_node _ _
    rw [same]
    exact ⟨alike_node alike, (exact_node_iff _ levels).mpr exact⟩

theorem formatUpTo_faithful (levels : Nat) : (formatUpTo levels).Faithful (viewUpTo levels) := by
  induction levels with
  | zero =>
    have none : ∀ tree, ¬(viewUpTo 0).Valid tree := by
      intro tree valid
      have positive := Nat.le_trans (one_le_depth tree) valid
      omega
    exact ⟨fun tree valid => absurd valid (none tree), fun tree valid => absurd valid (none tree),
      fun tree valid => absurd valid (none tree), fun tree valid => absurd valid (none tree),
      fun tree valid => absurd valid (none tree)⟩
  | succ levels ih =>
    exact ofSequenceFormat_faithful (Sequence.faithful (ElementFormat.object_faithful ih))

/-! ## Readable -/

theorem read_of_children {format : ObjectFormat (Sequence Tree)} {cursor after : Cursor}
    {children : Sequence Tree} (ran : format.read cursor = .ok children after) :
    (ofSequenceFormat format).read cursor = .ok (node children) after := by
  have whole : Loader.part Tree.children (fun _ later => node later) format.load
      (node format.empty, cursor) = .ok () (node children, after) :=
    Loader.part_of_ok (ObjectFormat.load_of_read ran)
  exact Loader.toReader_of_ok whole

theorem children_of_read {format : ObjectFormat (Sequence Tree)} {cursor after : Cursor}
    {tree : Tree} (ran : (ofSequenceFormat format).read cursor = .ok tree after) :
    ∃ children, tree = node children ∧ format.read cursor = .ok children after := by
  have whole : Loader.part Tree.children (fun _ later => node later) format.load
      (node format.empty, cursor) = .ok () (tree, after) := ObjectFormat.load_of_read ran
  obtain ⟨children, rfl, inner⟩ := Loader.part_eq_ok whole
  exact ⟨children, rfl, Loader.toReader_of_ok inner⟩

theorem ofSequenceFormat_readable {levels : Nat} {format : ObjectFormat (Sequence Tree)}
    (children : format.Readable (childrenView levels)) :
    (ofSequenceFormat format).Readable (viewUpTo (levels + 1)) := by
  intro limit tree valid within default tail pos
  obtain ⟨sequence⟩ := tree
  have bytes : (viewUpTo (levels + 1)).bytes (node sequence) =
      (childrenView levels).bytes sequence := body_node _ _
  rw [bytes] at within ⊢
  obtain ⟨back, read, same⟩ :=
    children limit sequence ((depth_node_le_iff _ _).mp valid) within default tail pos
  exact ⟨node back, read_of_children read, forget_node_congr same⟩

theorem formatUpTo_readable (levels : Nat) : (formatUpTo levels).Readable (viewUpTo levels) := by
  induction levels with
  | zero =>
    intro limit tree valid
    have positive := Nat.le_trans (one_le_depth tree) valid
    omega
  | succ levels ih =>
    exact ofSequenceFormat_readable (Sequence.readable (ElementFormat.object_readable ih))

mutual

/-- Every level takes a byte. -/
theorem depth_le_length_body : (tree : Tree) → tree.depth ≤ (body tree).length
  | .node ⟨items, memo⟩ => by
    have deeper := depthOfList_le_length_bodies items
    have tag : 1 ≤ (Write.lengthTag items.length .list).length := by
      rw [Write.lengthTag, Varint.length_encode]
      exact LengthTag.size_pos _ _
    rw [depth, body, List.length_append]
    omega

theorem depthOfList_le_length_bodies : (trees : List Tree) →
    depthOfList trees ≤ (bodies trees).length
  | [] => Nat.le_refl 0
  | tree :: trees => by
    have first := depth_le_length_body tree
    have rest := depthOfList_le_length_bodies trees
    have blob := Write.length_le_blob (body tree)
    rw [depthOfList, bodies, List.length_append]
    omega

end

theorem readable : format.Readable view := by
  intro limit tree _ within default tail pos
  have enough : tree.depth ≤ (Write.blob (body tree) ++ tail).length + 1 := by
    have levels := depth_le_length_body tree
    have blob := Write.length_le_blob (body tree)
    rw [List.length_append]
    omega
  exact formatUpTo_readable _ limit tree enough within default tail pos

/-! ## Faithful on every level -/

theorem alike_of_viewUpTo {levels : Nat} {tree later : Tree}
    (alike : (viewUpTo levels).Alike tree later) : view.Alike tree later :=
  ⟨alike.contents, alike.bytes, alike.exact, fun _ => trivial⟩

theorem faithful : format.Faithful view where
  afterSize tree _ :=
    alike_of_viewUpTo ((formatUpTo_faithful tree.depth).afterSize tree (Nat.le_refl _))
  afterEncode tree _ :=
    alike_of_viewUpTo ((formatUpTo_faithful tree.depth).afterEncode tree (Nat.le_refl _))
  size_eq tree _ exact := (formatUpTo_faithful tree.depth).size_eq tree (Nat.le_refl _) exact
  encode_eq tree _ exact := (formatUpTo_faithful tree.depth).encode_eq tree (Nat.le_refl _) exact
  forgotten tree _ := by
    obtain ⟨alike, exact⟩ := (formatUpTo_faithful tree.depth).forgotten tree (Nat.le_refl _)
    exact ⟨alike_of_viewUpTo alike, exact⟩

/-! ## Levels do not matter -/

theorem valuesSize_congr {first second : ElementFormat Tree} {trees : List Tree}
    (scheme : first.scheme = second.scheme)
    (same : ∀ tree ∈ trees, first.size tree = second.size tree) :
    first.valuesSize trees = second.valuesSize trees := by
  have elements : first.elementsSize trees = second.elementsSize trees := by
    induction trees with
    | nil => rfl
    | cons tree trees ih =>
      have here := same tree List.mem_cons_self
      have there := ih fun other member => same other (List.mem_cons_of_mem _ member)
      rw [ElementFormat.elementsSize, ElementFormat.elementsSize, here, there]
  rw [ElementFormat.valuesSize, ElementFormat.valuesSize, scheme, elements]

theorem writeValues_congr {first second : ElementFormat Tree} {trees : List Tree}
    (scheme : first.scheme = second.scheme)
    (same : ∀ tree ∈ trees, first.write tree = second.write tree) :
    first.writeValues trees = second.writeValues trees := by
  rw [ElementFormat.writeValues, ElementFormat.writeValues, scheme, List.map_congr_left same]

theorem sequenceSize_congr {first second : ElementFormat Tree} {children : Sequence Tree}
    (scheme : first.scheme = second.scheme)
    (same : ∀ tree ∈ children.items, first.size tree = second.size tree) :
    children.size first = children.size second := by
  rw [Sequence.size, Sequence.size, valuesSize_congr scheme same]

theorem sequenceEncode_congr {first second : ElementFormat Tree} {children : Sequence Tree}
    (scheme : first.scheme = second.scheme) (sized : children.size first = children.size second)
    (same : ∀ tree ∈ (children.size first).2.items, first.write tree = second.write tree) :
    children.encode first = children.encode second := by
  have parts : ∀ element : ElementFormat Tree, children.encode element =
      (Write.word (LengthTag.span (children.size element).1) ++
          (element.writeValues (children.size element).2.items).1,
        ⟨(element.writeValues (children.size element).2.items).2,
          (children.size element).2.memo⟩) := fun _ => rfl
  rw [parts, parts, ← sized, writeValues_congr scheme same]

/-- Looking at its sizes leaves a tree on the levels it had. -/
theorem valid_sequenceSize {levels : Nat} {children : Sequence Tree}
    (valid : (childrenView levels).Valid children) :
    (childrenView levels).Valid
      (children.size (ElementFormat.object (formatUpTo levels))).2 := by
  have elements := ElementFormat.object_faithful (formatUpTo_faithful levels)
  exact ((Sequence.faithful elements).afterSize children valid).valid valid

/-- Every level that knows a tree does the same with it. -/
theorem formatUpTo_eq {lower upper : Nat} (tree : Tree) (below : tree.depth ≤ lower)
    (within : tree.depth ≤ upper) :
    (formatUpTo lower).size tree = (formatUpTo upper).size tree ∧
      (formatUpTo lower).encode tree = (formatUpTo upper).encode tree := by
  have positive := one_le_depth tree
  induction lower generalizing upper tree with
  | zero => omega
  | succ lower ih =>
    cases upper with
    | zero => omega
    | succ upper =>
      obtain ⟨children⟩ := tree
      rw [depth_node_le_iff] at below within
      let first := ElementFormat.object (formatUpTo lower)
      let second := ElementFormat.object (formatUpTo upper)
      have scheme : first.scheme = second.scheme := rfl
      have sizes : ∀ tree ∈ children.items, first.size tree = second.size tree := by
        intro tree member
        have same := (ih tree (below tree member) (within tree member) (one_le_depth tree)).1
        change ObjectFormat.encodedSize _ tree = ObjectFormat.encodedSize _ tree
        rw [ObjectFormat.encodedSize, ObjectFormat.encodedSize, same]
      have sized := sequenceSize_congr scheme sizes
      have stillBelow := valid_sequenceSize below
      have stillWithin := valid_sequenceSize within
      rw [← sized] at stillWithin
      have writes : ∀ tree ∈ (children.size first).2.items,
          first.write tree = second.write tree := fun tree member =>
        (ih tree (stillBelow tree member) (stillWithin tree member) (one_le_depth tree)).2
      have encoded := sequenceEncode_congr scheme sized writes
      exact ⟨congrArg (fun result => (result.1, node result.2)) sized,
        congrArg (fun result => (result.1, node result.2)) encoded⟩

theorem size_eq_formatUpTo {levels : Nat} {tree : Tree} (below : tree.depth ≤ levels) :
    format.size tree = (formatUpTo levels).size tree :=
  (formatUpTo_eq tree (Nat.le_refl _) below).1

theorem encode_eq_formatUpTo {levels : Nat} {tree : Tree} (below : tree.depth ≤ levels) :
    format.encode tree = (formatUpTo levels).encode tree :=
  (formatUpTo_eq tree (Nat.le_refl _) below).2

/-! ## Measured -/

theorem ofSequenceFormat_measured {levels : Nat} {format : ObjectFormat (Sequence Tree)}
    (children : format.Measured (childrenView levels)) :
    (ofSequenceFormat format).Measured (viewUpTo (levels + 1)) := by
  intro cursor tree after ran
  obtain ⟨sequence, rfl, read⟩ := children_of_read ran
  obtain ⟨weighed, within, length, inside, moved, fits⟩ := children cursor sequence after read
  obtain ⟨written, encoded, bounds⟩ := weighed.bounds
  rw [← body_node] at bounds
  have bounds := bounds.imp (exact_node_iff sequence levels).mpr
  exact ⟨⟨(depth_node_le_iff _ _).mpr weighed.valid, weighed.settled, weighed.small, written,
    encoded, bounds⟩, within, length, inside, moved, fits⟩

theorem formatUpTo_measured (levels : Nat) : (formatUpTo levels).Measured (viewUpTo levels) := by
  induction levels with
  | zero =>
    intro cursor tree after ran
    cases ran
  | succ levels ih =>
    have children := Sequence.measured
      (ElementFormat.object_faithful (formatUpTo_faithful levels)) (ElementFormat.object_measured ih)
    exact ofSequenceFormat_measured children

theorem opensSpan : format.OpensSpan := by
  intro tree cursor error after failed
  obtain ⟨children⟩ := tree
  let format := Sequence.format (ElementFormat.object (formatUpTo cursor.rest.length))
  have stopped : format.load (children, cursor) = .error error (children, after) :=
    Sequence.opensSpan children cursor error after failed
  have whole : Loader.part Tree.children (fun _ later => node later) format.load
      (node children, cursor) = .error error (node children, after) := Loader.part_of_error stopped
  exact whole

theorem measured : format.Measured view := by
  intro cursor tree after ran
  let levels := cursor.rest.length + 1
  have ran : (formatUpTo levels).read cursor = .ok tree after := ran
  obtain ⟨weighed, within, taken⟩ := formatUpTo_measured levels cursor tree after ran
  have below : tree.depth ≤ levels := weighed.valid
  have still := ((formatUpTo_faithful levels).afterSize tree below).valid below
  have size := size_eq_formatUpTo below
  have encode := encode_eq_formatUpTo below
  have later := encode_eq_formatUpTo still
  rw [← size] at within taken
  refine ⟨⟨trivial, ?_, ?_, ?_⟩, within, taken⟩
  · rw [size, later, weighed.settled, encode]
  · rw [size]
    exact weighed.small
  · rw [size, encode]
    exact weighed.bounds

end FieldWire.Tree
