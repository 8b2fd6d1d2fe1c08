import Mathlib.Data.List.Nodup
import Mathlib.Data.List.Perm.Basic
import SyntaxSurvey.Graph.Dot
import SyntaxSurvey.Graph.Sketch

/-! The graph of a tree is the tree. Nodes are told of in the order of reading and numbered in that
order; each but the first is reached by one edge, from a node before it; and the statements give the
sketch of the tree back. -/

namespace SyntaxSurvey.Graph

open Sketch (ofTrees preorder preorders)

section Append

variable (before after : List Statement)

@[simp]
theorem nodes_append : nodes (before ++ after) = nodes before ++ nodes after :=
  List.filterMap_append

@[simp]
theorem edges_append : edges (before ++ after) = edges before ++ edges after :=
  List.filterMap_append

/-- The children that a node is linked with are told in the order of the statements. -/
@[simp]
theorem targets_append (source : Nat) :
    targets (before ++ after) source = targets before source ++ targets after source := by
  simp [targets]

end Append

section Cons

variable (number source target : Nat) (label : String) (shape : Shape)
  (statements : List Statement)

@[simp]
theorem nodes_node :
    nodes (.node number label shape :: statements) = (number, label, shape) :: nodes statements :=
  rfl

@[simp]
theorem nodes_edge : nodes (.edge source target :: statements) = nodes statements :=
  rfl

@[simp]
theorem edges_node : edges (.node number label shape :: statements) = edges statements :=
  rfl

@[simp]
theorem edges_edge : edges (.edge source target :: statements) = (source, target) :: edges statements :=
  rfl

@[simp]
theorem targets_node :
    targets (.node number label shape :: statements) source = targets statements source :=
  rfl

theorem targets_edge (other : Nat) :
    targets (.edge source target :: statements) other
      = if source = other then target :: targets statements other
        else targets statements other := by
  by_cases hSource : source = other <;> simp [targets, hSource]

@[simp]
theorem nodes_nil : nodes [] = [] := rfl

@[simp]
theorem edges_nil : edges [] = [] := rfl

@[simp]
theorem targets_nil : targets [] source = [] := rfl

end Cons

/-- A node is linked with another exactly if there is such an edge. -/
theorem mem_targets {statements : List Statement} {source target : Nat} :
    target ∈ targets statements source ↔ (source, target) ∈ edges statements := by
  simp [targets]

/-- The tree of a child is drawn before the edge to it, and an absent child is passed over. -/
theorem drawBelow_cons (parent next : Nat) (tree : Tree) (trees : List Tree) :
    drawBelow parent next (tree :: trees)
      = drawFrom next tree ++ (if nodeCount tree = 0 then [] else [.edge parent next])
        ++ drawBelow parent (next + nodeCount tree) trees := by
  cases tree with
  | node label children => simp [drawBelow, nodeCount]
  | leaf token => simp [drawBelow, nodeCount]
  | absent => simp [drawBelow, drawFrom, nodeCount]

theorem preorders_append (before after : List Sketch) :
    preorders (before ++ after) = preorders before ++ preorders after := by
  induction before with
  | nil => rfl
  | cons sketch rest ih => simp [preorders, ih]

theorem nodes_link (parent next count : Nat) :
    nodes (if count = 0 then [] else [.edge parent next]) = [] := by
  split <;> rfl

mutual

/-- Nodes are numbered from the given number on, without gaps. -/
theorem numbers_drawFrom (number : Nat) : ∀ tree : Tree,
    (nodes (drawFrom number tree)).map Prod.fst = List.range' number (nodeCount tree)
  | .node label children => by
      have hBelow := numbers_drawBelow number (number + 1) children
      rw [drawFrom, nodes_node, List.map_cons, hBelow, nodeCount, Nat.add_comm 1,
        List.range'_succ]
  | .leaf token => rfl
  | .absent => rfl

/-- The nodes of several trees are numbered on from one to the next. -/
theorem numbers_drawBelow (parent next : Nat) : ∀ trees : List Tree,
    (nodes (drawBelow parent next trees)).map Prod.fst = List.range' next (nodeCounts trees)
  | [] => rfl
  | tree :: trees => by
      have hTree := numbers_drawFrom next tree
      have hRest := numbers_drawBelow parent (next + nodeCount tree) trees
      simp only [drawBelow_cons, nodes_append, nodes_link, List.append_nil, List.map_append, hTree,
        hRest, nodeCounts, List.range'_append_1]

end

mutual

/-- Labels and shapes come in preorder. -/
theorem shown_drawFrom (number : Nat) : ∀ tree : Tree,
    (nodes (drawFrom number tree)).map Prod.snd = preorders (Sketch.ofTree tree)
  | .node label children => by
      have hBelow := shown_drawBelow number (number + 1) children
      rw [drawFrom, nodes_node, List.map_cons, hBelow]
      simp [Sketch.ofTree, preorder, preorders]
  | .leaf token => rfl
  | .absent => rfl

theorem shown_drawBelow (parent next : Nat) : ∀ trees : List Tree,
    (nodes (drawBelow parent next trees)).map Prod.snd = preorders (ofTrees trees)
  | [] => rfl
  | tree :: trees => by
      have hTree := shown_drawFrom next tree
      have hRest := shown_drawBelow parent (next + nodeCount tree) trees
      simp only [drawBelow_cons, nodes_append, nodes_link, List.append_nil, List.map_append, hTree,
        hRest, ofTrees, preorders_append]

end

theorem edges_link (parent next count : Nat) :
    edges (if count = 0 then [] else [.edge parent next])
      = if count = 0 then [] else [(parent, next)] := by
  split <;> rfl

mutual

/-- An edge leads from a node of the tree to a later one. -/
theorem bounds_drawFrom (number : Nat) : ∀ tree : Tree,
    ∀ edge ∈ edges (drawFrom number tree),
      number ≤ edge.1 ∧ edge.1 < edge.2 ∧ edge.2 < number + nodeCount tree
  | .node label children => by
      intro edge hEdge
      have hBelow := bounds_drawBelow (Nat.lt_succ_self number) children edge hEdge
      rw [nodeCount]
      omega
  | .leaf token => fun edge hEdge => absurd hEdge List.not_mem_nil
  | .absent => fun edge hEdge => absurd hEdge List.not_mem_nil

/-- Edges go down to greater numbers, within the range of the trees. -/
theorem bounds_drawBelow {parent next : Nat} (hParent : parent < next) : ∀ trees : List Tree,
    ∀ edge ∈ edges (drawBelow parent next trees),
      (edge.1 = parent ∨ next ≤ edge.1) ∧ edge.1 < edge.2 ∧ next ≤ edge.2
        ∧ edge.2 < next + nodeCounts trees
  | [] => fun edge hEdge => absurd hEdge List.not_mem_nil
  | tree :: trees => by
      intro edge hEdge
      rw [drawBelow_cons, edges_append, edges_append, edges_link] at hEdge
      rw [nodeCounts]
      rcases List.mem_append.mp hEdge with hFirst | hRest
      · rcases List.mem_append.mp hFirst with hTree | hLink
        · have hBounds := bounds_drawFrom next tree edge hTree
          omega
        · split at hLink
          · cases hLink
          · obtain rfl := List.mem_singleton.mp hLink
            refine ⟨Or.inl rfl, ?_⟩
            omega
      · have hBounds := bounds_drawBelow (Nat.lt_add_right (nodeCount tree) hParent) trees edge
          hRest
        omega

end

mutual

/-- The edges of a tree lead to all its nodes but the first, and to each once. -/
theorem reached_drawFrom (number : Nat) : ∀ tree : Tree,
    ((edges (drawFrom number tree)).map Prod.snd).Perm
      (List.range' number (nodeCount tree)).tail
  | .node label children => by
      have hBelow := reached_drawBelow number (number + 1) children
      rwa [drawFrom, edges_node, nodeCount, Nat.add_comm 1, List.range'_succ, List.tail_cons]
  | .leaf token => .nil
  | .absent => .nil

/-- Every node of the trees is reached by one edge. -/
theorem reached_drawBelow (parent next : Nat) : ∀ trees : List Tree,
    ((edges (drawBelow parent next trees)).map Prod.snd).Perm
      (List.range' next (nodeCounts trees))
  | [] => .nil
  | tree :: trees => by
      have hTree := reached_drawFrom next tree
      have hRest := reached_drawBelow parent (next + nodeCount tree) trees
      rw [drawBelow_cons, edges_append, edges_append, edges_link, List.map_append, List.map_append,
        nodeCounts, ← List.range'_append_1]
      refine List.Perm.append ?_ hRest
      by_cases hNone : nodeCount tree = 0
      · simpa [hNone] using hTree
      · obtain ⟨count, hCount⟩ := Nat.exists_eq_succ_of_ne_zero hNone
        rw [hCount, List.range'_succ, List.tail_cons] at hTree
        rw [if_neg hNone, hCount, List.range'_succ]
        exact (hTree.append_right [next]).trans (List.perm_append_singleton next _)

end

theorem lookup_eq_none {statements : List Statement} {number : Nat}
    (hNumber : number ∉ (nodes statements).map Prod.fst) :
    (nodes statements).lookup number = none := by
  rw [List.lookup_eq_none_iff]
  intro node hNode
  have hApart : number ≠ node.1 := fun hEq => hNumber (List.mem_map.mpr ⟨node, hNode, hEq.symm⟩)
  simpa using hApart

theorem targets_eq_nil {statements : List Statement} {source : Nat}
    (hSource : ∀ edge ∈ edges statements, edge.1 ≠ source) : targets statements source = [] := by
  rw [List.eq_nil_iff_forall_not_mem]
  intro target hTarget
  exact hSource _ (mem_targets.mp hTarget) rfl

/-- Statements tell of a node what these tell of it. -/
structure Agrees (statements part : List Statement) (number : Nat) : Prop where
  lookup : (nodes statements).lookup number = (nodes part).lookup number
  targets : targets statements number = targets part number

/-- Statements that are neither about a node nor about an edge from it. -/
structure Silent (statements : List Statement) (number : Nat) : Prop where
  lookup : (nodes statements).lookup number = none
  targets : targets statements number = []

/-- The statements for a tree say nothing of numbers outside its range. -/
theorem silent_drawFrom {number other : Nat} {tree : Tree}
    (hOther : other < number ∨ number + nodeCount tree ≤ other) :
    Silent (drawFrom number tree) other := by
  refine ⟨lookup_eq_none ?_, targets_eq_nil ?_⟩
  · rw [numbers_drawFrom, List.mem_range'_1]
    omega
  · intro edge hEdge hSource
    have hBounds := bounds_drawFrom number tree edge hEdge
    omega

theorem silent_drawBelow {parent next other : Nat} {trees : List Tree} (hParent : parent < next)
    (hOther : other < next ∨ next + nodeCounts trees ≤ other) (hNot : other ≠ parent) :
    Silent (drawBelow parent next trees) other := by
  refine ⟨lookup_eq_none ?_, targets_eq_nil ?_⟩
  · rw [numbers_drawBelow, List.mem_range'_1]
    omega
  · intro edge hEdge hSource
    have hBounds := bounds_drawBelow hParent trees edge hEdge
    omega

theorem silent_link {parent next count other : Nat} (hNot : other ≠ parent) :
    Silent (if count = 0 then [] else [.edge parent next]) other := by
  split
  · exact ⟨rfl, rfl⟩
  · exact ⟨rfl, by simp [targets_edge, hNot.symm]⟩

/-- What comes after may be left out for a number that it says nothing of. -/
theorem agrees_append_left {before after : List Statement} {number : Nat}
    (hAfter : Silent after number) : Agrees (before ++ after) before number :=
  ⟨by simp [List.lookup_append, hAfter.lookup], by simp [hAfter.targets]⟩

theorem agrees_append_right {before after : List Statement} {number : Nat}
    (hBefore : Silent before number) : Agrees (before ++ after) after number :=
  ⟨by simp [List.lookup_append, hBefore.lookup], by simp [hBefore.targets]⟩

theorem Agrees.trans {statements part inner : List Statement} {number : Nat}
    (h : Agrees statements part number) (h' : Agrees part inner number) :
    Agrees statements inner number :=
  ⟨h.lookup.trans h'.lookup, h.targets.trans h'.targets⟩

/-- Of the nodes below the root of a tree, all is said where its children are drawn. -/
theorem agrees_below {number other : Nat} (label : String) (children : List Tree)
    (hOther : number < other) :
    Agrees (drawFrom number (.node label children)) (drawBelow number (number + 1) children)
      other := by
  have hNode : Silent [.node number label .ellipse] other := by
    refine ⟨lookup_eq_none ?_, rfl⟩
    simpa using Nat.ne_of_gt hOther
  exact agrees_append_right hNode

/-- The first child is drawn apart from the others. -/
theorem agrees_first {parent next number : Nat} {tree : Tree} {trees : List Tree}
    (hParent : parent < next) (hLow : next ≤ number) (hHigh : number < next + nodeCount tree) :
    Agrees (drawBelow parent next (tree :: trees)) (drawFrom next tree) number := by
  have hNot : number ≠ parent := by omega
  have hRest : Silent (drawBelow parent (next + nodeCount tree) trees) number :=
    silent_drawBelow (by omega) (by omega) hNot
  rw [drawBelow_cons]
  exact (agrees_append_left hRest).trans (agrees_append_left (silent_link hNot))

/-- The other children are drawn apart from the first. -/
theorem agrees_rest {parent next number : Nat} {tree : Tree} {trees : List Tree}
    (hParent : parent < next) (hLow : next + nodeCount tree ≤ number) :
    Agrees (drawBelow parent next (tree :: trees))
      (drawBelow parent (next + nodeCount tree) trees) number := by
  have hNot : number ≠ parent := by omega
  have hTree : Silent (drawFrom next tree) number := silent_drawFrom (Or.inr hLow)
  rw [drawBelow_cons, List.append_assoc]
  exact (agrees_append_right hTree).trans (agrees_append_right (silent_link hNot))

/-- The parent is linked with the first of its trees, if it is not absent, and then with those of
the others. -/
theorem targets_parent {parent next : Nat} (hParent : parent < next) (tree : Tree)
    (trees : List Tree) :
    targets (drawBelow parent next (tree :: trees)) parent
      = (if nodeCount tree = 0 then [] else [next])
        ++ targets (drawBelow parent (next + nodeCount tree) trees) parent := by
  have hTree : Silent (drawFrom next tree) parent := silent_drawFrom (Or.inl hParent)
  rw [drawBelow_cons, targets_append, targets_append, hTree.targets, List.nil_append]
  split
  · rfl
  · simp [targets_edge]

/-- A tree is absent, or a single sketch is left of it. -/
theorem absent_or_sketch (tree : Tree) :
    tree = .absent ∨ ∃ sketch, Sketch.ofTree tree = [sketch] ∧ nodeCount tree ≠ 0 := by
  cases tree with
  | node label children => exact Or.inr ⟨_, rfl, by simp [nodeCount]⟩
  | leaf token => exact Or.inr ⟨_, rfl, by simp [nodeCount]⟩
  | absent => exact Or.inl rfl

section Reading

variable (statements : List Statement)

mutual

/-- The statements of a tree give its sketch back wherever they stand, if no other statement is
about a node of it. -/
theorem sketchAt?_of_agrees (number depth : Nat) : ∀ tree : Tree, nodeCount tree ≤ depth →
    (∀ other, number ≤ other → other < number + nodeCount tree →
      Agrees statements (drawFrom number tree) other) →
    ∀ sketch ∈ Sketch.ofTree tree, sketchAt? statements depth number = some sketch
  | .node label children => by
      intro hDepth hAgrees sketch hSketch
      rw [nodeCount] at hDepth hAgrees
      obtain rfl := List.mem_singleton.mp hSketch
      obtain ⟨lower, rfl⟩ : ∃ lower, depth = lower + 1 := ⟨depth - 1, by omega⟩
      have hNode := hAgrees number (Nat.le_refl _) (by omega)
      have hLabel : (nodes statements).lookup number = some (label, .ellipse) := by
        rw [hNode.lookup, drawFrom]
        simp
      have hTargets : targets statements number
          = targets (drawBelow number (number + 1) children) number := by
        rw [hNode.targets, drawFrom, targets_node]
      have hBelow := mapM_sketchAt?_of_agrees number (number + 1) lower (Nat.lt_succ_self number)
        children (by omega) fun other hLow hHigh =>
          (hAgrees other (by omega) (by omega)).trans (agrees_below label children hLow)
      rw [sketchAt?, hLabel, hTargets, hBelow]
  | .leaf token => by
      intro hDepth hAgrees sketch hSketch
      rw [nodeCount] at hDepth hAgrees
      obtain rfl := List.mem_singleton.mp hSketch
      obtain ⟨lower, rfl⟩ : ∃ lower, depth = lower + 1 := ⟨depth - 1, by omega⟩
      have hNode := hAgrees number (Nat.le_refl _) (by omega)
      have hLabel : (nodes statements).lookup number = some (caption token, .box) := by
        rw [hNode.lookup, drawFrom]
        simp
      have hTargets : targets statements number = [] := hNode.targets
      rw [sketchAt?, hLabel, hTargets]
      rfl
  | .absent => fun _ _ sketch hSketch => absurd hSketch List.not_mem_nil

/-- From statements that agree with those for some trees, the sketches of these are had back. -/
theorem mapM_sketchAt?_of_agrees (parent next depth : Nat) (hParent : parent < next) :
    ∀ trees : List Tree, nodeCounts trees ≤ depth →
    (∀ other, next ≤ other → other < next + nodeCounts trees →
      Agrees statements (drawBelow parent next trees) other) →
    (targets (drawBelow parent next trees) parent).mapM (sketchAt? statements depth)
      = some (ofTrees trees)
  | [] => fun _ _ => rfl
  | tree :: trees => by
      intro hDepth hAgrees
      rw [nodeCounts] at hDepth hAgrees
      have hTree := sketchAt?_of_agrees next depth tree (by omega) fun other hLow hHigh =>
        (hAgrees other hLow (by omega)).trans (agrees_first hParent hLow hHigh)
      have hRest := mapM_sketchAt?_of_agrees parent (next + nodeCount tree) depth (by omega) trees
        (by omega) fun other hLow hHigh =>
          (hAgrees other (by omega) (by omega)).trans (agrees_rest hParent hLow)
      rw [targets_parent hParent, ofTrees]
      rcases absent_or_sketch tree with rfl | ⟨sketch, hSome, hCount⟩
      · exact hRest
      · have hSketch := hTree sketch (by simp [hSome])
        rw [if_neg hCount, hSome, List.singleton_append, List.mapM_cons, hSketch, hRest]
        rfl

end

end Reading

mutual

/-- The edges that leave a node are in the order of the numbers of its children. -/
theorem ordered_drawFrom (number source : Nat) : ∀ tree : Tree,
    (targets (drawFrom number tree) source).Pairwise (· < ·)
  | .node label children => by
      rw [drawFrom, targets_node]
      exact ordered_drawBelow number (number + 1) source (Nat.lt_succ_self number) children
  | .leaf token => .nil
  | .absent => .nil

/-- Children are linked in the order of their numbers. -/
theorem ordered_drawBelow (parent next source : Nat) (hParent : parent < next) :
    ∀ trees : List Tree, (targets (drawBelow parent next trees) source).Pairwise (· < ·)
  | [] => .nil
  | tree :: trees => by
      have hTree := ordered_drawFrom next source tree
      have hRest := ordered_drawBelow parent (next + nodeCount tree) source (by omega) trees
      by_cases hSource : source = parent
      · subst hSource
        rw [targets_parent hParent, List.pairwise_append]
        refine ⟨by split <;> simp, hRest, ?_⟩
        intro first hFirst other hOther
        have hEdge := bounds_drawBelow (Nat.lt_add_right (nodeCount tree) hParent) trees _
          (mem_targets.mp hOther)
        split at hFirst
        · cases hFirst
        · obtain rfl := List.mem_singleton.mp hFirst
          omega
      · by_cases hLow : source < next
        · rw [(silent_drawBelow hParent (Or.inl hLow) hSource).targets]
          exact .nil
        · by_cases hHigh : source < next + nodeCount tree
          · rwa [(agrees_first hParent (by omega) hHigh).targets]
          · rwa [(agrees_rest hParent (by omega)).targets]

end

theorem toList_nodeName (number : Nat) :
    (nodeName number).toList = "node".toList ++ Nat.toDigits 10 number := by
  have hText : nodeName number = "node" ++ toString number := rfl
  rw [hText, String.toList_append, Nat.toString_eq_ofList_toDigits,
    @String.toList_ofList (Nat.toDigits 10 number)]

/-- Different nodes have different names. -/
theorem nodeName_injective : Function.Injective nodeName := by
  intro number other hName
  have hDigits := congrArg String.toList hName
  rw [toList_nodeName, toList_nodeName, List.append_cancel_left_eq] at hDigits
  rw [← @Nat.ofDigitChars_ten_toDigits number, hDigits, Nat.ofDigitChars_ten_toDigits]

/-- There are at least as many statements as nodes. -/
theorem nodeCount_le_length_drawFrom (number : Nat) (tree : Tree) :
    nodeCount tree ≤ (drawFrom number tree).length := by
  have hNumbers := congrArg List.length (numbers_drawFrom number tree)
  rw [List.length_map, List.length_range'] at hNumbers
  rw [← hNumbers]
  exact List.length_filterMap_le _ _

/-- Statements that are those of a tree. The labelled shapes of its sketch are told of in the order
of reading and numbered in that order, each node but the first ends one edge, which starts at a node
before it, and the sketch can be read back. -/
structure Depicts (tree : Tree) (statements : List Statement) : Prop where
  numbered : (nodes statements).map Prod.fst = List.range (nodeCount tree)
  named : ((nodes statements).map fun node => nodeName node.1).Nodup
  linked : (edges statements).length + 1 = nodeCount tree
  reached : ((edges statements).map Prod.snd).Perm (List.range' 1 (nodeCount tree - 1))
  forward : ∀ edge ∈ edges statements, edge.1 < edge.2
  ordered : ∀ source, (targets statements source).Pairwise (· < ·)
  shown : ∃ sketch, Sketch.ofTree tree = [sketch]
    ∧ (nodes statements).map Prod.snd = sketch.preorder ∧ sketch? statements = some sketch

/-- The statements for a tree that is not absent depict it. -/
theorem depicts_drawFrom {tree : Tree} (hTree : tree ≠ .absent) :
    Depicts tree (drawFrom 0 tree) := by
  obtain ⟨sketch, hSketch, hCount⟩ := (absent_or_sketch tree).resolve_left hTree
  have hNumbers := numbers_drawFrom 0 tree
  have hReached := reached_drawFrom 0 tree
  have hTail : (List.range' 0 (nodeCount tree)).tail = List.range' 1 (nodeCount tree - 1) := by
    simp
  rw [hTail] at hReached
  constructor
  · rw [hNumbers, List.range_eq_range']
  · rw [← Function.comp_def nodeName, ← List.map_map, hNumbers]
    exact (List.nodup_range' 1).map nodeName_injective
  · have hLength := hReached.length_eq
    rw [List.length_map, List.length_range'] at hLength
    omega
  · exact hReached
  · intro edge hEdge
    exact (bounds_drawFrom 0 tree edge hEdge).2.1
  · intro source
    exact ordered_drawFrom 0 source tree
  · refine ⟨sketch, hSketch, ?_, ?_⟩
    · rw [shown_drawFrom, hSketch]
      simp [preorders]
    · exact sketchAt?_of_agrees (drawFrom 0 tree) 0 _ tree (nodeCount_le_length_drawFrom 0 tree)
        (fun _ _ _ => ⟨rfl, rfl⟩) sketch (by simp [hSketch])

/-- The graph of a tree is the tree without its absent parts. The scale decides whether there is a
graph and what its resolution is, and nothing else. -/
theorem graph_depicts_tree {tree : Tree} (hTree : tree ≠ .absent) :
    ∃ statements, Depicts tree statements ∧ ∀ scale, Graph.ofTree tree scale
      = (scale.roundedMultiple baseResolution).map fun resolution => ⟨resolution, statements⟩ := by
  refine ⟨drawFrom 0 tree, depicts_drawFrom hTree, fun scale => ?_⟩
  cases tree with
  | node label children => rfl
  | leaf token => rfl
  | absent => exact absurd rfl hTree

/-- A tree with parts below parts and absent ones among them. -/
def layeredTree : Tree :=
  .node "funcdef"
    [.node "name" [.leaf ⟨"NAME", "f", .first, .first⟩], .absent, .absent,
      .node "suite" [.node "pass_stmt" [], .absent, .leaf ⟨"_NEWLINE", "\n", .first, .first⟩]]

theorem graph_depicts_layered_tree : layeredTree ≠ .absent ∧ ∃ statements,
    Depicts layeredTree statements ∧ ∀ scale, Graph.ofTree layeredTree scale
      = (scale.roundedMultiple baseResolution).map fun resolution => ⟨resolution, statements⟩ :=
  ⟨nofun, graph_depicts_tree nofun⟩

end SyntaxSurvey.Graph
