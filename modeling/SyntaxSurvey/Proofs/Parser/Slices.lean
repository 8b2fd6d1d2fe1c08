import SyntaxSurvey.Proofs.Parser.Stack
import SyntaxSurvey.Proofs.Position

/-! Pieces of the text on a stack. From the bottom of the stack to its top, the tokens in the trees of its
frames are pieces of the text, one after the other. Only frames of layout hold no piece, and no
completed production takes anything from those. -/

namespace SyntaxSurvey.Parser

open Grammar
open SyntaxSurvey.Tree (leavesOf)

/-- A token is the piece of a text at an offset, and its places are those of the piece. -/
structure Slice (cs : List Char) (token : Token) (offset : Nat) : Prop where
  text : (cs.drop offset).take token.text.length = token.text.toList
  nonempty : token.text ≠ ""
  start : token.start = .ofOffset cs offset
  stop : token.stop = .ofOffset cs (offset + token.text.length)

/-- Tokens are pieces of a text between two offsets, each behind the one before. -/
inductive Slices (cs : List Char) : List Token → Nat → Nat → Prop where
  | nil {low high : Nat} (le : low ≤ high) : Slices cs [] low high
  | cons {token : Token} {tokens : List Token} {low offset high : Nat} (le : low ≤ offset)
      (slice : Slice cs token offset) (rest : Slices cs tokens (offset + token.text.length) high) :
      Slices cs (token :: tokens) low high

variable {cs : List Char} {token : Token} {tokens more : List Token} {low middle high : Nat}

theorem Slices.le (slices : Slices cs tokens low high) : low ≤ high := by
  induction slices with
  | nil le => exact le
  | cons le slice rest ih => omega

/-- Pieces stay pieces between offsets that are further apart. -/
theorem Slices.widen (slices : Slices cs tokens low high) {lower higher : Nat} (hLow : lower ≤ low)
    (hHigh : high ≤ higher) : Slices cs tokens lower higher := by
  induction slices generalizing lower with
  | nil le => exact .nil (by omega)
  | cons le slice rest ih => exact .cons (by omega) slice (ih (Nat.le_refl _) hHigh)

/-- Slices in a row can be followed by others behind them. -/
theorem Slices.append (left : Slices cs tokens low middle) (right : Slices cs more middle high) :
    Slices cs (tokens ++ more) low high := by
  induction left with
  | nil le => exact right.widen le (Nat.le_refl _)
  | cons le slice rest ih => exact .cons le slice (ih right)

theorem Slices.single {offset : Nat} (slice : Slice cs token offset) :
    Slices cs [token] offset (offset + token.text.length) :=
  .cons (Nat.le_refl _) slice (.nil (Nat.le_refl _))

theorem leavesOf_append (left right : List Tree) :
    leavesOf (left ++ right) = leavesOf left ++ leavesOf right := by
  induction left with
  | nil => rfl
  | cons tree trees ih => rw [List.cons_append, leavesOf, leavesOf, ih, List.append_assoc]

theorem leavesOf_single (tree : Tree) : leavesOf [tree] = tree.leaves := by
  rw [leavesOf, leavesOf, List.append_nil]

/-- A transparent node has the leaves of its children. -/
theorem leavesOf_spliced (tree : Tree) : leavesOf tree.spliced = tree.leaves := by
  cases tree with
  | node label children => rfl
  | leaf token => exact leavesOf_single _
  | absent => exact leavesOf_single _

/-- The leaves of a tree that is built are those of the trees that are kept, in order. -/
theorem leaves_build (p : Production) (trees : List Tree) :
    (build p trees).leaves = leavesOf (childrenOf p.parts trees) := by
  rw [build]
  split
  · rename_i tree hChildren
    rw [hChildren, leavesOf_single]
  · rfl

/-- A tree holds pieces of the text between two offsets, unless its symbol is of layout. -/
def Holds (cs : List Char) (tree : Tree) (symbol : Symbol) (low high : Nat) : Prop :=
  (∃ kind, symbol = .terminal kind ∧ IsLayout kind) ∧ low ≤ high ∨ Slices cs tree.leaves low high

theorem Holds.le {tree : Tree} {symbol : Symbol} (holds : Holds cs tree symbol low high) :
    low ≤ high := by
  rcases holds with ⟨-, hLe⟩ | hSlices
  · exact hLe
  · exact hSlices.le

theorem Holds.widen {tree : Tree} {symbol : Symbol} (holds : Holds cs tree symbol low high)
    {higher : Nat} (hHigh : high ≤ higher) : Holds cs tree symbol low higher := by
  rcases holds with ⟨hLayout, hLe⟩ | hSlices
  · exact .inl ⟨hLayout, Nat.le_trans hLe hHigh⟩
  · exact .inr (hSlices.widen (Nat.le_refl _) hHigh)

/-- Trees of symbols, from left to right, hold pieces of the text one after the other. -/
inductive Row (cs : List Char) : List Tree → List Symbol → Nat → Nat → Prop where
  | nil {low high : Nat} (le : low ≤ high) : Row cs [] [] low high
  | cons {tree : Tree} {trees : List Tree} {symbol : Symbol} {symbols : List Symbol}
      {low middle high : Nat} (own : Holds cs tree symbol low middle)
      (rest : Row cs trees symbols middle high) : Row cs (tree :: trees) (symbol :: symbols) low high

variable {trees : List Tree} {symbols : List Symbol}

theorem Row.le (row : Row cs trees symbols low high) : low ≤ high := by
  induction row with
  | nil le => exact le
  | cons own rest ih => exact Nat.le_trans own.le ih

/-- A tree may be put behind a row if its leaves are behind those of the row. -/
theorem Row.concat (row : Row cs trees symbols low middle) {tree : Tree} {symbol : Symbol}
    (own : Holds cs tree symbol middle high) :
    Row cs (trees ++ [tree]) (symbols ++ [symbol]) low high := by
  induction row with
  | nil le =>
      refine .cons ?_ (.nil (Nat.le_refl _))
      rcases own with ⟨hLayout, hLe⟩ | hSlices
      · exact .inl ⟨hLayout, Nat.le_trans le hLe⟩
      · exact .inr (hSlices.widen le (Nat.le_refl _))
  | cons first rest ih => exact .cons first (ih own)

/-- The children that the parts of a production make of such trees have only pieces of the text as their
leaves. What is dropped leaves a gap. -/
theorem Row.slices_childrenOf {parts : List Part}
    (hidden : ∀ kind, IsLayout kind → .symbol (.terminal kind) true ∉ parts)
    (row : Row cs trees (parts.filterMap Part.symbol?) low high) :
    Slices cs (leavesOf (childrenOf parts trees)) low high := by
  induction parts generalizing trees low with
  | nil => exact .nil row.le
  | cons part parts ih =>
      have hRest (kind : String) (hKind : IsLayout kind) :
          .symbol (.terminal kind) true ∉ parts := fun hMem =>
        hidden kind hKind (List.mem_cons_of_mem _ hMem)
      cases part with
      | absent =>
          rw [childrenOf, leavesOf]
          exact ih hRest row
      | symbol symbol kept =>
          cases row with
          | @cons tree trees _ _ _ middle _ own rest =>
              have hLater := ih hRest rest
              unfold childrenOf
              rw [leavesOf_append]
              refine Slices.append ?_ hLater
              cases kept with
              | false => exact .nil own.le
              | true =>
                  rcases own with ⟨⟨kind, rfl, hKind⟩, -⟩ | hSlices
                  · exact absurd (List.mem_cons_self ..) (hidden kind hKind)
                  · cases symbol with
                    | terminal kind => rwa [leavesOf_single]
                    | nonterminal name =>
                        dsimp only
                        split
                        · rwa [leavesOf_spliced]
                        · rwa [leavesOf_single]

/-- The frames of a stack, from the bottom to the top, hold pieces of the text one after the other, up to
an offset. -/
inductive Laid (cs : List Char) : Stack → List Symbol → Nat → Prop where
  | nil (high : Nat) : Laid cs [] [] high
  | frame {stack : Stack} {symbols : List Symbol} {frame : Frame} {symbol : Symbol}
      {middle high : Nat} (below : Laid cs stack symbols middle)
      (own : Holds cs frame.tree symbol middle high) :
      Laid cs (frame :: stack) (symbol :: symbols) high

variable {stack top : Stack}

theorem Laid.widen (laid : Laid cs stack symbols low) (le : low ≤ high) :
    Laid cs stack symbols high := by
  cases laid with
  | nil => exact .nil high
  | frame below own => exact .frame below (own.widen le)

/-- The frames on top hold what is behind the frames below. -/
theorem Laid.split {upper lower : List Symbol} (laid : Laid cs stack (upper ++ lower) high) :
    ∃ middle, Laid cs (stack.drop upper.length) lower middle
      ∧ Row cs ((stack.take upper.length).reverse.map (·.tree)) upper.reverse middle high := by
  induction upper generalizing stack high with
  | nil => exact ⟨high, laid, .nil (Nat.le_refl _)⟩
  | cons symbol upper ih =>
      cases laid with
      | frame below own =>
          obtain ⟨middle, hBelow, hRow⟩ := ih below
          refine ⟨middle, hBelow, ?_⟩
          rw [List.length_cons, List.take_succ_cons, List.reverse_cons, List.reverse_cons,
            List.map_append]
          exact hRow.concat own

/-- A stack that has grown over symbols and holds pieces of the text, up to an offset. -/
def Bears (t : Table) (cs : List Char) (stack : Stack) (high : Nat) : Prop :=
  ∃ symbols, Grown t stack symbols ∧ Laid cs stack symbols high

variable {t : Table}

theorem bears_nil (t : Table) (cs : List Char) : Bears t cs [] 0 :=
  ⟨[], .nil, .nil 0⟩

theorem Bears.widen (bears : Bears t cs stack low) (le : low ≤ high) : Bears t cs stack high := by
  obtain ⟨symbols, hGrown, hLaid⟩ := bears
  exact ⟨symbols, hGrown, hLaid.widen le⟩

/-- A completed production takes its pieces of the text from the symbols that it replaces. -/
theorem Bears.complete (fits : Fits t) (bears : Bears t cs stack high) {kind : String}
    {p : Production} (action : t.action? (Stack.state stack) kind = some (.reduce p))
    (completed : complete? t p stack = some top) :
    Bears t cs top high ∧ ∃ frame below low, top = frame :: below
      ∧ Slices cs frame.tree.leaves low high := by
  obtain ⟨symbols, hGrown, hLaid⟩ := bears
  obtain ⟨rest, rfl, hTop, state, rfl⟩ := hGrown.complete fits action completed
  obtain ⟨low, hBelow, hRow⟩ := hLaid.split
  rw [List.length_reverse] at hBelow hRow
  rw [List.reverse_reverse] at hRow
  have hSlices := hRow.slices_childrenOf (fits.hidden action)
  rw [← leaves_build] at hSlices
  exact ⟨⟨_, hTop, .frame hBelow (.inr hSlices)⟩, _, _, low, rfl, hSlices⟩

/-- A reduction keeps the leaves of a stack in order. -/
theorem Bears.reduces (fits : Fits t) (bears : Bears t cs stack high) {kind : String}
    (reduces : Reduces t kind stack top) : Bears t cs top high := by
  induction reduces with
  | refl => exact bears
  | step action completed rest ih => exact ih (bears.complete fits action completed).1

/-- A token that is shifted is the piece of the text behind those on the stack, or of layout. -/
theorem Bears.shifted (fits : Fits t) (bears : Bears t cs stack low)
    (own : Holds cs (.leaf token) (.terminal token.kind) low high)
    (offered : offer t token stack = .shifted top) : Bears t cs top high := by
  have hOffering := offering t token stack
  rw [offered] at hOffering
  cases hOffering with
  | shifted reduces action =>
      obtain ⟨symbols, hGrown, hLaid⟩ := bears.reduces fits reduces
      exact ⟨_, .terminal hGrown action, .frame hLaid own⟩

/-- A token that is refused leaves the leaves of a stack in order. -/
theorem Bears.refused (fits : Fits t) (bears : Bears t cs stack high)
    (offered : offer t token stack = .refused top) : Bears t cs top high := by
  have hOffering := offering t token stack
  rw [offered] at hOffering
  cases hOffering with
  | refused reduces => exact bears.reduces fits reduces

/-- A tree of the whole text is that of a completed production. -/
theorem Bears.accepted (fits : Fits t) (bears : Bears t cs stack high) {tree : Tree}
    (offered : offer t token stack = .accepted tree) : ∃ low, Slices cs tree.leaves low high := by
  have hOffering := offering t token stack
  rw [offered] at hOffering
  cases hOffering with
  | accepted reduces action completed =>
      obtain ⟨-, frame, below, low, hTop, hSlices⟩ :=
        (bears.reduces fits reduces).complete fits action completed
      obtain ⟨rfl, -⟩ := List.cons.inj hTop
      exact ⟨low, hSlices⟩

end SyntaxSurvey.Parser
