import PageTemplates.Proofs.Template.Grammar

/-!
What a template keeps of its source.  The row of actions is entered in a ledger, body by
body: an item belongs to the innermost definition or block around it, or else to the
source itself, and a body is listed when its end comes.  The marks between and behind the
branches of a statement are items too, so a row of items is that of one list of steps only.
The steps and definitions that are left of a tree are the ones with the items of the ledger:
nothing of a source is lost, nothing is there twice, and nothing comes into another branch.
-/

namespace PageTemplates.Template

/-- A step by itself, without its branches, or a mark that parts or ends them. -/
inductive Item where
  | text (content : Text)
  | output (expr : Expr)
  | template (name : Text) (arg : Option Expr)
  | cond (test : Expr)
  | range (subject : Expr) (line : Nat)
  /-- The second branch begins of the last step with branches that has not ended. -/
  | otherwise
  /-- The last step with branches that has not ended ends. -/
  | closes

/-- The items of two branches, with their marks. -/
def branched (first second : List Item) : List Item :=
  first ++ .otherwise :: (second ++ [.closes])

mutual
/-- A step and the steps in its branches, in the order of the source. -/
def Node.items : Node → List Item
  | .text content => [.text content]
  | .output e => [.output e]
  | .template name arg => [.template name arg]
  | .cond test yes no => .cond test :: branched (itemsOf yes) (itemsOf no)
  | .range subject body otherwise line =>
    .range subject line :: branched (itemsOf body) (itemsOf otherwise)
termination_by structural node => node

def itemsOf : List Node → List Item
  | [] => []
  | node :: rest => node.items ++ itemsOf rest
termination_by structural nodes => nodes
end

/-- A statement that is open while actions are entered. -/
inductive Around where
  /-- Its bodies belong to the body that it stands in; `parted` when the second one has begun. -/
  | branches (parted : Bool)
  /-- Its body is one of its own; the body that it stands in has these items so far. -/
  | body (name : Text) (items : List Item)

/-- Actions as they are entered, one by one. -/
structure Ledger where
  /-- The open statements, innermost first. -/
  around : List Around
  /-- The items of the innermost body so far. -/
  items : List Item
  /-- The bodies that have ended, with their names. -/
  definitions : List (Text × List Item)

namespace Ledger

def empty : Ledger :=
  ⟨[], [], []⟩

/-- The ledger with more items in the innermost body and more bodies that have ended. -/
def add (ledger : Ledger) (items : List Item) (definitions : List (Text × List Item)) : Ledger :=
  ⟨ledger.around, ledger.items ++ items, ledger.definitions ++ definitions⟩

/-- Enters one action.  In place of a block stands a call of the template that it defines, on the
current value if no other is given.  A second branch that is missing is entered as an empty one. -/
def enter (ledger : Ledger) : Action → Ledger
  | .whole (.text content) => ledger.add [.text content] []
  | .whole (.output e) => ledger.add [.output e] []
  | .whole (.template name arg) => ledger.add [.template name arg] []
  | .whole _ => ledger
  | .opens (.cond test) =>
    { ledger with
      around := .branches false :: ledger.around
      items := ledger.items ++ [.cond test] }
  | .opens (.range subject line) =>
    { ledger with
      around := .branches false :: ledger.around
      items := ledger.items ++ [.range subject line] }
  | .opens (.block name arg) =>
    let call := Item.template name (some (arg.getD (.field [])))
    { ledger with around := .body name (ledger.items ++ [call]) :: ledger.around, items := [] }
  | .opens (.define name) =>
    { ledger with around := .body name ledger.items :: ledger.around, items := [] }
  | .otherwise =>
    match ledger.around with
    | .branches _ :: outer =>
      { ledger with around := .branches true :: outer, items := ledger.items ++ [.otherwise] }
    | _ => ledger
  | .closes =>
    match ledger.around with
    | [] => ledger
    | .branches parted :: outer =>
      let marks := if parted then [.closes] else [.otherwise, .closes]
      { ledger with around := outer, items := ledger.items ++ marks }
    | .body name items :: outer =>
      ⟨outer, items, ledger.definitions ++ [(name, ledger.items)]⟩

def enterAll (ledger : Ledger) (actions : List Action) : Ledger :=
  actions.foldl enter ledger

theorem add_nil (ledger : Ledger) : ledger.add [] [] = ledger := by
  simp [add]

theorem add_add (ledger : Ledger) (items more : List Item)
    (definitions others : List (Text × List Item)) :
    (ledger.add items definitions).add more others =
      ledger.add (items ++ more) (definitions ++ others) := by
  simp [add]

theorem enterAll_cons (ledger : Ledger) (action : Action) (rest : List Action) :
    ledger.enterAll (action :: rest) = (ledger.enter action).enterAll rest :=
  rfl

theorem enterAll_append (ledger : Ledger) (first second : List Action) :
    ledger.enterAll (first ++ second) = (ledger.enterAll first).enterAll second :=
  List.foldl_append

end Ledger

theorem itemsOf_append (first second : List Node) :
    itemsOf (first ++ second) = itemsOf first ++ itemsOf second := by
  induction first with
  | nil => rfl
  | cons node rest ih => simp only [List.cons_append, itemsOf, ih, List.append_assoc]

/-- Definitions with the items of their bodies. -/
def itemized (definitions : List (Text × List Node)) : List (Text × List Item) :=
  definitions.map fun (name, body) => (name, itemsOf body)

theorem itemized_append (first second : List (Text × List Node)) :
    itemized (first ++ second) = itemized first ++ itemized second :=
  List.map_append

/-! ## What is entered -/

mutual
/-- Entering a statement enters what it leaves in its place and what it defines. -/
theorem Statement.enterAll_actions : ∀ (statement : Statement) (ledger : Ledger),
    ledger.enterAll statement.actions =
      ledger.add (itemsOf statement.nodes) (itemized statement.definitions)
  | .text _, _ | .output _, _ | .template _ _, _ => rfl
  | .cond test yes no, ledger => by
      rw [Statement.actions, Ledger.enterAll_cons, List.append_assoc, Ledger.enterAll_append,
        enterAll_actionsOf yes, enterAll_closedBranch no rfl]
      simp [Ledger.enter, Ledger.add, Statement.nodes, Statement.definitions, itemsOf, Node.items,
        branched, itemized_append]
  | .range subject line body otherwise, ledger => by
      rw [Statement.actions, Ledger.enterAll_cons, List.append_assoc, Ledger.enterAll_append,
        enterAll_actionsOf body, enterAll_closedBranch otherwise rfl]
      simp [Ledger.enter, Ledger.add, Statement.nodes, Statement.definitions, itemsOf, Node.items,
        branched, itemized_append]
  | .block name arg body, ledger => by
      rw [Statement.actions, Ledger.enterAll_cons, Ledger.enterAll_append, enterAll_actionsOf body]
      simp [Ledger.enterAll, Ledger.enter, Ledger.add, Statement.nodes, Statement.definitions,
        itemsOf, Node.items, itemized]
  | .define name body, ledger => by
      rw [Statement.actions, Ledger.enterAll_cons, Ledger.enterAll_append, enterAll_actionsOf body]
      simp [Ledger.enterAll, Ledger.enter, Ledger.add, Statement.nodes, Statement.definitions,
        itemsOf, itemized]
termination_by structural statement => statement

theorem enterAll_actionsOf : ∀ (tree : List Statement) (ledger : Ledger),
    ledger.enterAll (actionsOf tree) =
      ledger.add (itemsOf (nodesOf tree)) (itemized (definitionsOf tree))
  | [], ledger => ledger.add_nil.symm
  | statement :: rest, ledger => by
      rw [actionsOf, Ledger.enterAll_append, statement.enterAll_actions, enterAll_actionsOf rest,
        Ledger.add_add, nodesOf, definitionsOf, itemsOf_append, itemized_append]
termination_by structural tree => tree

/-- Behind the first branch come the marks and the second one, which may be missing. -/
theorem enterAll_closedBranch : ∀ (branch : Option (List Statement)) {ledger : Ledger}
    {outer : List Around}, ledger.around = .branches false :: outer →
    ledger.enterAll (actionsOfBranch branch ++ [.closes]) =
      ⟨outer, ledger.items ++ .otherwise :: (itemsOf (nodesOfBranch branch) ++ [.closes]),
        ledger.definitions ++ itemized (definitionsOfBranch branch)⟩
  | none, ledger, outer, haround => by
      simp [actionsOfBranch, Ledger.enterAll, Ledger.enter, haround, nodesOfBranch,
        definitionsOfBranch, itemsOf, itemized]
  | some body, ledger, outer, haround => by
      rw [actionsOfBranch, List.cons_append, Ledger.enterAll_cons, Ledger.enterAll_append,
        enterAll_actionsOf body]
      simp [Ledger.enterAll, Ledger.enter, Ledger.add, haround, nodesOfBranch,
        definitionsOfBranch]
termination_by structural branch => branch
end

/-! ## What items tell -/

/-- Whether a row of items is at its end or at a mark. -/
def AtMark : List Item → Prop
  | [] | .otherwise :: _ | .closes :: _ => True
  | _ => False

theorem Node.not_atMark_items (node : Node) (rest : List Item) : ¬ AtMark (node.items ++ rest) := by
  cases node <;> simp [Node.items, AtMark]

mutual
/-- The items of a step tell the step, and where they end. -/
theorem Node.eq_of_items : ∀ (node node' : Node) {rest rest' : List Item},
    node.items ++ rest = node'.items ++ rest' → node = node' ∧ rest = rest'
  | .text content, node', rest, rest', h => by cases node' <;> simp_all [Node.items]
  | .output e, node', rest, rest', h => by cases node' <;> simp_all [Node.items]
  | .template name arg, node', rest, rest', h => by cases node' <;> simp_all [Node.items]
  | .cond test yes no, node', rest, rest', h => by
      cases node' with
      | cond test' yes' no' =>
          simp only [Node.items, branched, List.cons_append, List.append_assoc, List.nil_append,
            List.cons.injEq, Item.cond.injEq] at h
          obtain ⟨rfl, hyes⟩ := h
          obtain ⟨rfl, hmarked⟩ := eq_of_itemsOf yes yes' hyes trivial trivial
          have hno := (List.cons.inj hmarked).2
          obtain ⟨rfl, hclosed⟩ := eq_of_itemsOf no no' hno trivial trivial
          exact ⟨rfl, (List.cons.inj hclosed).2⟩
      | _ => simp [Node.items] at h
  | .range subject body otherwise line, node', rest, rest', h => by
      cases node' with
      | range subject' body' otherwise' line' =>
          simp only [Node.items, branched, List.cons_append, List.append_assoc, List.nil_append,
            List.cons.injEq, Item.range.injEq] at h
          obtain ⟨⟨rfl, rfl⟩, hbody⟩ := h
          obtain ⟨rfl, hmarked⟩ := eq_of_itemsOf body body' hbody trivial trivial
          have hotherwise := (List.cons.inj hmarked).2
          obtain ⟨rfl, hclosed⟩ := eq_of_itemsOf otherwise otherwise' hotherwise trivial trivial
          exact ⟨rfl, (List.cons.inj hclosed).2⟩
      | _ => simp [Node.items] at h
termination_by structural node => node

theorem eq_of_itemsOf : ∀ (nodes nodes' : List Node) {rest rest' : List Item},
    itemsOf nodes ++ rest = itemsOf nodes' ++ rest' → AtMark rest → AtMark rest' →
      nodes = nodes' ∧ rest = rest'
  | [], [], rest, rest', h, _, _ => ⟨rfl, h⟩
  | [], node' :: others', rest, rest', h, hmark, _ => by
      have hrest : rest = node'.items ++ (itemsOf others' ++ rest') := by
        simpa [itemsOf] using h
      exact absurd (hrest ▸ hmark) (node'.not_atMark_items _)
  | node :: others, [], rest, rest', h, _, hmark' => by
      have hrest : node.items ++ (itemsOf others ++ rest) = rest' := by
        simpa [itemsOf] using h
      exact absurd (hrest ▸ hmark') (node.not_atMark_items _)
  | node :: others, node' :: others', rest, rest', h, hmark, hmark' => by
      rw [itemsOf, itemsOf, List.append_assoc, List.append_assoc] at h
      obtain ⟨rfl, hothers⟩ := node.eq_of_items node' h
      obtain ⟨rfl, hrest⟩ := eq_of_itemsOf others others' hothers hmark hmark'
      exact ⟨rfl, hrest⟩
termination_by structural nodes => nodes
end

theorem itemsOf_injective : Function.Injective itemsOf := by
  intro nodes nodes' h
  have hrow : itemsOf nodes ++ [] = itemsOf nodes' ++ [] := by rw [h]
  exact (eq_of_itemsOf nodes nodes' hrow trivial trivial).1

theorem itemized_injective : Function.Injective itemized := by
  apply Function.Injective.list_map
  rintro ⟨name, body⟩ ⟨name', body'⟩ h
  obtain ⟨rfl, hbody⟩ := Prod.mk.inj h
  rw [itemsOf_injective hbody]

/-- Reading succeeds exactly when every token is well formed by itself and all of them in a row
spell a tree.  There is one such tree, and what is read is the only body and definitions with the
items of its ledger: all the items of the source, each in the body and the branch it belongs to and
in the order of the source, and the bodies of definitions and blocks in the order in which they
end. -/
theorem parses_iff_spelled (known : Text → Bool) (tokens : List Token) :
    ((∃ parsed, (statements known tokens).map Parsed.ofStatements = .ok parsed) ↔
        ∃ tree, Spells known tree tokens) ∧
      ∀ tree, Spells known tree tokens →
        (statements known tokens).map Parsed.ofStatements =
            .ok ⟨nodesOf tree, definitionsOf tree⟩ ∧
          (∀ other, Spells known other tokens → other = tree) ∧
          Ledger.empty.enterAll (actionsOf tree) =
            ⟨[], itemsOf (nodesOf tree), itemized (definitionsOf tree)⟩ ∧
          ∀ parsed : Parsed,
            Ledger.empty.enterAll (actionsOf tree) =
                ⟨[], itemsOf parsed.body, itemized parsed.definitions⟩ ↔
              (statements known tokens).map Parsed.ofStatements = .ok parsed := by
  constructor
  · simp only [Except.map_eq_ok_iff, statements_eq_ok_iff]
    constructor
    · rintro ⟨_, tree, htree, -⟩
      exact ⟨tree, htree⟩
    · rintro ⟨tree, htree⟩
      exact ⟨_, tree, htree, rfl⟩
  · intro tree htree
    have hread : (statements known tokens).map Parsed.ofStatements =
        .ok ⟨nodesOf tree, definitionsOf tree⟩ := by
      rw [statements_eq_ok_iff.mpr htree]
      rfl
    have hledger : Ledger.empty.enterAll (actionsOf tree) =
        ⟨[], itemsOf (nodesOf tree), itemized (definitionsOf tree)⟩ :=
      enterAll_actionsOf tree .empty
    refine ⟨hread, ?_, hledger, ?_⟩
    · intro other hother
      have hsame := (statements_eq_ok_iff.mpr hother).symm.trans (statements_eq_ok_iff.mpr htree)
      exact Except.ok.inj hsame
    · rintro ⟨body, definitions⟩
      rw [hledger, hread]
      simp only [Ledger.mk.injEq, Except.ok.injEq, Parsed.mk.injEq, true_and,
        itemsOf_injective.eq_iff, itemized_injective.eq_iff]

/-- A block in the second branch of a statement inside a definition: its body ends first. -/
theorem parses_spelled_nested :
    let tokens : List Token := [.action "define \"page\"".toList 1, .action "if .ok".toList 1,
      .text "y".toList, .action "else".toList 1, .action "block \"side\"".toList 2,
      .text "n".toList, .action "end".toList 2, .action "end".toList 3, .action "end".toList 3]
    let tree : List Statement := [.define "page".toList [.cond (.field ["ok".toList])
      [.text "y".toList] (some [.block "side".toList none [.text "n".toList]])]]
    Spells (fun _ => false) tree tokens ∧
      (statements (fun _ => false) tokens).map Parsed.ofStatements =
        .ok ⟨[], [("side".toList, [.text "n".toList]),
          ("page".toList, [.cond (.field ["ok".toList]) [.text "y".toList]
            [.template "side".toList (some (.field []))]])]⟩ := by
  intro tokens tree
  have htree : Spells (fun _ => false) tree tokens := statements_eq_ok_iff.mp (by rfl)
  exact ⟨htree, ((parses_iff_spelled _ tokens).2 tree htree).1⟩

end PageTemplates.Template
