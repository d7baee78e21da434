import Flatsheet.Proofs.Items
import Flatsheet.Sheet.Rule

/-!
The rule tree of a sheet. A written sheet gives the tree of its blocks, every token consumed, and
flattening lists the nodes of a tree in the order of their addresses. For tokens that are no written
sheet the tree accounts for all that is consumed: one rule for each opener besides the root, and one
declaration for each statement that heads no block.
-/

namespace Flatsheet.Rule

def statement? : Item → Option Text
  | .declaration statement => some statement
  | .block _ _ => none

/-- The declarations that a block holds itself, with blanks collapsed and each ended. -/
def ownDeclarations (items : List Item) : List Text :=
  (items.filterMap statement?).map fun statement => statement.collapse ++ [';']

/-- Each fragment of the heading combined with each enclosing selector; the enclosing selectors if
there is no heading. -/
def selectorsWithin (enclosing : List Selector) (heading : Option Text) : List Selector :=
  heading.elim enclosing fun heading =>
    heading.splitTopLevel.flatMap fun fragment =>
      enclosing.map fun parent => Selector.combine parent fragment

mutual

def ofBlock? (enclosing : List Selector) : Item → Option Rule
  | .declaration _ => none
  | .block heading items =>
      let selectors := selectorsWithin enclosing heading
      some ⟨selectors, ownDeclarations items, ofBlocks selectors items⟩

/-- The rules of the blocks among the items. -/
def ofBlocks (enclosing : List Selector) : List Item → List Rule
  | [] => []
  | item :: items => (ofBlock? enclosing item).toList ++ ofBlocks enclosing items

end

@[simp] theorem ownDeclarations_declaration (statement : Text) (items : List Item) :
    ownDeclarations (.declaration statement :: items) =
      (statement.collapse ++ [';']) :: ownDeclarations items := rfl

@[simp] theorem ownDeclarations_block (heading : Option Text) (inside items : List Item) :
    ownDeclarations (.block heading inside :: items) = ownDeclarations items := rfl

@[simp] theorem ofBlocks_declaration (enclosing : List Selector) (statement : Text)
    (items : List Item) :
    ofBlocks enclosing (.declaration statement :: items) = ofBlocks enclosing items := rfl

@[simp] theorem ofBlocks_block (enclosing : List Selector) (heading : Option Text)
    (inside items : List Item) :
    ofBlocks enclosing (.block heading inside :: items) =
      ⟨selectorsWithin enclosing heading, ownDeclarations inside,
        ofBlocks (selectorsWithin enclosing heading) inside⟩ :: ofBlocks enclosing items := rfl

@[simp] theorem flattenAll_cons (selectors : List Selector) (declarations : List Text)
    (children rules : List Rule) :
    flattenAll (⟨selectors, declarations, children⟩ :: rules) =
      ⟨selectors, declarations, []⟩ :: (flattenAll children ++ flattenAll rules) := rfl

theorem ownDeclarations_append (items more : List Item) :
    ownDeclarations (items ++ more) = ownDeclarations items ++ ownDeclarations more := by
  simp [ownDeclarations]

theorem ofBlocks_append (enclosing : List Selector) (items more : List Item) :
    ofBlocks enclosing (items ++ more) = ofBlocks enclosing items ++ ofBlocks enclosing more := by
  induction items with
  | nil => rfl
  | cons item items ih => simp [ofBlocks, ih]

theorem flattenAll_append (rules more : List Rule) :
    flattenAll (rules ++ more) = flattenAll rules ++ flattenAll more := by
  induction rules with
  | nil => rfl
  | cons rule rules ih => simp [flattenAll, ih]

theorem ofItems_eq (selectors : List Selector) (items : List Item) :
    ofItems selectors items = ⟨selectors, ownDeclarations items, ofBlocks selectors items⟩ := by
  induction items using Item.block_induction generalizing selectors with
  | nil => rfl
  | declaration statement items ih =>
      rw [ofItems, addItem, ih]
      rfl
  | block heading inside items inner outer =>
      rw [ofItems, addItem, inner, outer]
      cases heading with
      | none => rfl
      | some heading => rfl

theorem flatten_ofItems (selectors : List Selector) (items : List Item) :
    (ofItems selectors items).flatten =
      ⟨selectors, ownDeclarations items, []⟩ :: flattenAll (ofBlocks selectors items) := by
  rw [ofItems_eq, flatten]

theorem ofTokens_eq (selector : Option Text) (tokens : List Token) :
    ofTokens selector tokens =
      (⟨[rootSelector selector], ownDeclarations (Item.read tokens).1,
        ofBlocks [rootSelector selector] (Item.read tokens).1⟩, (Item.read tokens).2) := by
  simp only [ofTokens, ofItems_eq]

theorem flatten_ofTokens (selector : Option Text) (tokens : List Token) :
    (ofTokens selector tokens).1.flatten =
      ⟨[rootSelector selector], ownDeclarations (Item.read tokens).1, []⟩ ::
        flattenAll (ofBlocks [rootSelector selector] (Item.read tokens).1) := by
  rw [ofTokens_eq, flatten]

/-- The node at an address: the child to take at each level, from the root down. -/
def nodeAt? : Rule → List Nat → Option Rule
  | rule, [] => some rule
  | rule, index :: address => rule.children[index]?.bind (nodeAt? · address)

/-- All nodes with their addresses, the nodes ordered by address: a node comes before the nodes
inside it, and these before the later siblings of the node. -/
structure Preorder (tree : Rule) (nodes : List (List Nat × Rule)) : Prop where
  lists : ∀ address node, (address, node) ∈ nodes ↔ tree.nodeAt? address = some node
  ascends : nodes.Pairwise fun first second => first.1 < second.1

mutual

def nodes : Rule → List (List Nat × Rule)
  | ⟨selectors, declarations, children⟩ =>
      ([], ⟨selectors, declarations, children⟩) :: nodesFrom 0 children

/-- The nodes of the children from the one with this index on. -/
def nodesFrom : (index : Nat) → List Rule → List (List Nat × Rule)
  | _, [] => []
  | index, rule :: rules =>
      (nodes rule).map (fun node => (index :: node.1, node.2)) ++ nodesFrom (index + 1) rules

end

mutual

theorem mem_nodes {address : List Nat} {node : Rule} : (rule : Rule) →
    ((address, node) ∈ nodes rule ↔ rule.nodeAt? address = some node)
  | ⟨selectors, declarations, children⟩ => by
      cases address with
      | nil =>
          have below : ([], node) ∉ nodesFrom 0 children := fun listed => by
            obtain ⟨_, _, same, _⟩ := (mem_nodesFrom 0 children).mp listed
            cases same
          simp [nodes, nodeAt?, below, eq_comm]
      | cons index address =>
          simp [nodes, nodeAt?, mem_nodesFrom 0 children]

theorem mem_nodesFrom {address : List Nat} {node : Rule} (index : Nat) : (rules : List Rule) →
    ((address, node) ∈ nodesFrom index rules ↔
      ∃ offset rest, address = (index + offset) :: rest ∧
        rules[offset]?.bind (nodeAt? · rest) = some node)
  | [] => by simp [nodesFrom]
  | rule :: rules => by
      rw [nodesFrom, List.mem_append, List.mem_map]
      constructor
      · rintro (⟨⟨inner, found⟩, listed, same⟩ | later)
        · obtain ⟨rfl, rfl⟩ : index :: inner = address ∧ found = node := by simpa using same
          exact ⟨0, inner, rfl, by simpa using (mem_nodes rule).mp listed⟩
        · obtain ⟨offset, rest, rfl, found⟩ := (mem_nodesFrom (index + 1) rules).mp later
          exact ⟨offset + 1, rest, by rw [Nat.add_assoc, Nat.add_comm 1], by simpa using found⟩
      · rintro ⟨offset, rest, rfl, found⟩
        cases offset with
        | zero => exact .inl ⟨(rest, node), (mem_nodes rule).mpr (by simpa using found), rfl⟩
        | succ offset =>
            refine .inr ((mem_nodesFrom (index + 1) rules).mpr ⟨offset, rest, ?_, ?_⟩)
            · rw [Nat.add_assoc, Nat.add_comm 1]
            · simpa using found

end

mutual

theorem nodes_ascend : (rule : Rule) →
    (nodes rule).Pairwise fun first second => first.1 < second.1
  | ⟨selectors, declarations, children⟩ => by
      rw [nodes]
      refine .cons (fun other listed => ?_) (nodesFrom_ascend 0 children)
      obtain ⟨offset, rest, same, _⟩ := (mem_nodesFrom 0 children).mp listed
      rw [same]
      exact List.nil_lt_cons _ _

theorem nodesFrom_ascend (index : Nat) : (rules : List Rule) →
    (nodesFrom index rules).Pairwise fun first second => first.1 < second.1
  | [] => by simp [nodesFrom]
  | rule :: rules => by
      rw [nodesFrom, List.pairwise_append]
      refine ⟨?_, nodesFrom_ascend (index + 1) rules, ?_⟩
      · refine List.pairwise_map.mpr ((nodes_ascend rule).imp fun before => ?_)
        exact List.cons_lt_cons_iff.mpr (.inr ⟨rfl, before⟩)
      · intro first early second late
        obtain ⟨inner, _, rfl⟩ := List.mem_map.mp early
        obtain ⟨offset, rest, same, _⟩ := (mem_nodesFrom (index + 1) rules).mp late
        rw [same]
        exact List.cons_lt_cons_iff.mpr (.inl (by omega))

end

mutual

theorem flatten_eq_nodes : (rule : Rule) →
    rule.flatten = (nodes rule).map fun node => ⟨node.2.selectors, node.2.declarations, []⟩
  | ⟨selectors, declarations, children⟩ => by
      rw [flatten, nodes, List.map_cons, flattenAll_eq_nodesFrom 0 children]

theorem flattenAll_eq_nodesFrom (index : Nat) : (rules : List Rule) →
    flattenAll rules =
      (nodesFrom index rules).map fun node => ⟨node.2.selectors, node.2.declarations, []⟩
  | [] => by simp [flattenAll, nodesFrom]
  | rule :: rules => by
      rw [flattenAll, nodesFrom, flatten_eq_nodes rule, flattenAll_eq_nodesFrom (index + 1) rules]
      simp

end

theorem preorder_nodes (tree : Rule) : Preorder tree (nodes tree) :=
  ⟨fun _ _ => mem_nodes tree, nodes_ascend tree⟩

/-- A written sheet gives the tree of its blocks, and flattening lists the nodes of that tree in
pre-order, without their children. -/
theorem ofTokens_scan_written {items : List Item} {text : Text} (written : Item.Written items text)
    (selector : Option Text) :
    let root : Selector := ⟨selector.getD [], []⟩
    let tree : Rule := ⟨[root], ownDeclarations items, ofBlocks [root] items⟩
    ofTokens selector (Token.scan text) = (tree, []) ∧
      ∃ nodes, Preorder tree nodes ∧
        tree.flatten = nodes.map fun node => ⟨node.2.selectors, node.2.declarations, []⟩ := by
  intro root tree
  refine ⟨?_, nodes tree, preorder_nodes tree, flatten_eq_nodes tree⟩
  rw [ofTokens_eq, Item.read_scan_written written]
  rfl

theorem ofTokens_scan_written_nested :
    let text := " a:not(b, c),\n d \x7bx:  1 ;\x7b y; \x7d\x7d z;".toList
    let selectors : List Selector := [⟨"a:not(b, c)".toList, []⟩, ⟨"d".toList, []⟩]
    (ofTokens none (Token.scan text)).2 = [] ∧
      (ofTokens none (Token.scan text)).1.flatten.map
          (fun rule => (rule.selectors, rule.declarations)) =
        [([⟨[], []⟩], ["z;".toList]), (selectors, ["x: 1;".toList]),
          (selectors, ["y;".toList])] := by
  intro text selectors
  have innermost : Item.Written [.declaration "y".toList] " y; ".toList :=
    .declaration .space (by decide) .nil (.nil .space)
  have inner : Item.Written [.declaration "x:  1".toList, .block none [.declaration "y".toList]]
      "x:  1 ;\x7b y; \x7d".toList :=
    .declaration .nil (by decide) .space (.anonymous .nil innermost (.nil .nil))
  have last : Item.Written [.declaration "z".toList] " z;".toList :=
    .declaration .space (by decide) .nil (.nil .nil)
  have heading : Token.IsStatement "a:not(b, c),\n d".toList := by decide
  have written : Item.Written _ text := .block .space heading .space inner last
  obtain ⟨read, _⟩ := ofTokens_scan_written written none
  rw [read]
  exact ⟨rfl, by decide +kernel⟩

/-- The statements that no opener follows. -/
def looseStatements : List Token → List Text
  | [] => []
  | .statement text :: tokens =>
      if tokens.head? = some .opening then looseStatements tokens
      else text :: looseStatements tokens
  | _ :: tokens => looseStatements tokens

theorem countP_isBlock_ofTokens (tokens : List Token) :
    (Item.Entry.ofTokens tokens).countP Item.Entry.isBlock = tokens.count .opening := by
  fun_induction Item.Entry.ofTokens tokens with
  | case1 => rfl
  | case2 tokens ih => simp [List.countP_cons, Item.Entry.isBlock, ih]
  | case3 heading tokens ih => simp [List.countP_cons, Item.Entry.isBlock, ih]
  | case4 statement tokens _ ih => simp [Item.Entry.isBlock, ih]
  | case5 token tokens opens _ states ih =>
      cases token with
      | semicolon => simpa using ih
      | closing => simpa using ih
      | opening => exact absurd rfl opens
      | statement text => exact absurd rfl (states text)

theorem filterMap_declared?_ofTokens (tokens : List Token) :
    (Item.Entry.ofTokens tokens).filterMap Item.Entry.declared? = looseStatements tokens := by
  fun_induction Item.Entry.ofTokens tokens with
  | case1 => rfl
  | case2 tokens ih => simpa [looseStatements, List.filterMap_cons, Item.Entry.declared?] using ih
  | case3 heading tokens ih =>
      simpa [looseStatements, List.filterMap_cons, Item.Entry.declared?] using ih
  | case4 statement tokens unopened ih =>
      have loose : tokens.head? ≠ some .opening := by
        intro opens
        obtain ⟨rest, same⟩ := List.head?_eq_some_iff.mp opens
        exact unopened rest same
      simp [looseStatements, Item.Entry.declared?, loose, ih]
  | case5 token tokens opens _ states ih =>
      cases token with
      | semicolon => simpa [looseStatements] using ih
      | closing => simpa [looseStatements] using ih
      | opening => exact absurd rfl opens
      | statement text => exact absurd rfl (states text)

theorem length_flattenAll_ofBlocks (selectors : List Selector) (items : List Item) :
    (flattenAll (ofBlocks selectors items)).length =
      (Item.entriesAll items).countP Item.Entry.isBlock := by
  induction items using Item.block_induction generalizing selectors with
  | nil => rfl
  | declaration statement items ih =>
      simpa [List.countP_cons, Item.Entry.isBlock] using ih selectors
  | block heading inside items inner outer =>
      simp [List.countP_cons, Item.Entry.isBlock, inner, outer]

theorem declarations_perm (selectors : List Selector) (items : List Item) :
    (ownDeclarations items ++ (flattenAll (ofBlocks selectors items)).flatMap declarations).Perm
      (((Item.entriesAll items).filterMap Item.Entry.declared?).map
        fun statement => statement.collapse ++ [';']) := by
  induction items using Item.block_induction generalizing selectors with
  | nil => exact .nil
  | declaration statement items ih =>
      simpa [List.filterMap_cons, Item.Entry.declared?] using ih selectors
  | block heading inside items inner outer =>
      have both := (inner (selectorsWithin selectors heading)).append (outer selectors)
      simp only [ownDeclarations_block, ofBlocks_block, flattenAll_cons, List.flatMap_cons,
        List.flatMap_append, Item.entriesAll_block, List.filterMap_cons, Item.Entry.declared?,
        List.filterMap_append, List.map_append]
      refine List.Perm.trans ?_ both
      simpa only [List.append_assoc] using List.perm_append_comm_assoc (ownDeclarations items)
        (ownDeclarations inside ++
          (flattenAll (ofBlocks (selectorsWithin selectors heading) inside)).flatMap declarations) _

/-- What is left unread is what follows the first closer at which closers outnumber openers. The
flattened tree has one rule for each consumed opener besides the root, and its declarations are,
but for their order, the consumed statements that no opener follows. -/
theorem ofTokens_accounts (selector : Option Text) (tokens : List Token) :
    let consumed := Item.consumedFrom 0 tokens
    let rules := (ofTokens selector tokens).1.flatten
    consumed ++ (ofTokens selector tokens).2 = tokens ∧
      rules.length = 1 + consumed.count .opening ∧
      (rules.flatMap declarations).Perm
        ((looseStatements consumed).map fun statement => statement.collapse ++ [';']) := by
  intro consumed rules
  obtain ⟨split, started⟩ : consumed ++ (Item.read tokens).2 = tokens ∧
      Item.entriesAll (Item.read tokens).1 = Item.Entry.ofTokens consumed :=
    Item.read_entries tokens
  have flattened : rules = _ := flatten_ofTokens selector tokens
  refine ⟨by rw [ofTokens_eq]; exact split, ?_, ?_⟩
  · rw [flattened, List.length_cons, length_flattenAll_ofBlocks, started, countP_isBlock_ofTokens,
      Nat.add_comm]
  · rw [flattened, List.flatMap_cons, ← filterMap_declared?_ofTokens, ← started]
    exact declarations_perm _ _

end Flatsheet.Rule
