import PageTemplates.Proofs.Template.Calls
import PageTemplates.Proofs.Template.Overriding
import PageTemplates.Proofs.Template.Runs
import PageTemplates.Proofs.Template.SideBySide

/-!
Where unknown functions are refused.  What is read of a source calls only functions that are known
when it is read, in its own steps and in all of its definitions.  A namespace never changes the
functions that it knows and holds only such steps, so no run of it meets a call of no function.
-/

namespace PageTemplates.Template

open Output (Sink)

theorem exists_mem_of_forall₂ {α β : Type} {R : α → β → Prop} {as : List α} {bs : List β}
    (h : List.Forall₂ R as bs) {b : β} (hb : b ∈ bs) : ∃ a ∈ as, R a b := by
  induction h with
  | nil => cases hb
  | cons hfirst _ ih =>
      rcases List.mem_cons.mp hb with rfl | hb
      · exact ⟨_, List.mem_cons_self, hfirst⟩
      · obtain ⟨a, ha, hab⟩ := ih hb
        exact ⟨a, List.mem_cons_of_mem _ ha, hab⟩

variable {known : Text → Bool} {line : Nat}

/-! ## Expressions -/

/-- Whether an expression calls only known functions. -/
def Expr.Known (known : Text → Bool) (e : Expr) : Prop :=
  ∀ name ∈ e.functions, known name = true

/-- Whether what is an expression already calls only known functions; a name becomes a call later. -/
def Operand.Known (known : Text → Bool) : Operand → Prop
  | .name _ => True
  | .expr e => e.Known known

theorem Expr.known_call_iff {name : Text} {args : List Expr} :
    (Expr.call name args line).Known known ↔
      known name = true ∧ ∀ arg ∈ args, arg.Known known := by
  simp only [Known, functions, List.forall_mem_cons, mem_functionsOf_iff]
  constructor
  · rintro ⟨hname, hargs⟩
    exact ⟨hname, fun arg harg inner hinner => hargs inner ⟨arg, harg, hinner⟩⟩
  · rintro ⟨hname, hargs⟩
    exact ⟨hname, fun inner ⟨arg, harg, hinner⟩ => hargs arg harg inner hinner⟩

theorem ArgumentOf.calls_known {operand : Operand} {e : Expr} (h : ArgumentOf known line operand e)
    (hoperand : operand.Known known) : e.Known known := by
  cases h with
  | value => exact hoperand
  | call hname => exact Expr.known_call_iff.mpr ⟨hname, fun _ => List.not_mem_nil.elim⟩

theorem Assembled.calls_known {operands : List Operand} {e : Expr}
    (h : Assembled known line operands e)
    (hoperands : ∀ operand ∈ operands, operand.Known known) : e.Known known := by
  cases h with
  | value => exact hoperands _ List.mem_cons_self
  | call hname hargs =>
      apply Expr.known_call_iff.mpr
      refine ⟨hname, fun arg harg => ?_⟩
      obtain ⟨operand, hoperand, hargument⟩ := exists_mem_of_forall₂ hargs harg
      exact hargument.calls_known (hoperands operand (List.mem_cons_of_mem _ hoperand))

/-- By induction on the words, as a command in parentheses is assembled before the one around it. -/
theorem OperandsOf.calls_known {words : List Word} {operands : List Operand}
    (h : OperandsOf known line words operands) : ∀ operand ∈ operands, operand.Known known := by
  induction h with
  | nil => exact fun _ => List.not_mem_nil.elim
  | name name _ ih => exact List.forall_mem_cons.mpr ⟨trivial, ih⟩
  | field path _ ih => exact List.forall_mem_cons.mpr ⟨fun _ => List.not_mem_nil.elim, ih⟩
  | root path _ ih => exact List.forall_mem_cons.mpr ⟨fun _ => List.not_mem_nil.elim, ih⟩
  | literal value _ ih => exact List.forall_mem_cons.mpr ⟨fun _ => List.not_mem_nil.elim, ih⟩
  | parens _ he _ ihinner ih => exact List.forall_mem_cons.mpr ⟨he.calls_known ihinner, ih⟩

theorem CommandOf.calls_known {words : List Word} {e : Expr} (h : CommandOf known line words e) :
    e.Known known := by
  obtain ⟨operands, hwords, he⟩ := h
  exact he.calls_known hwords.calls_known

/-! ## Steps -/

/-- Whether a step calls only known functions for its value. -/
def Item.Known (known : Text → Bool) (item : Item) : Prop :=
  ∀ e, item.expr? = some e → e.Known known

/-- The step that an action enters in a ledger. -/
def Action.item? : Action → Option Item
  | .whole (.text content) => some (.text content)
  | .whole (.output e) => some (.output e)
  | .whole (.template name arg) => some (.template name arg)
  | .opens (.cond test) => some (.cond test)
  | .opens (.range subject line) => some (.range subject line)
  | .opens (.block name arg) => some (.template name (some (arg.getD (.field []))))
  | _ => none

theorem Item.known_of_expr? {item : Item} {e : Expr} (hitem : item.expr? = some e)
    (he : e.Known known) : item.Known known := by
  intro other hother
  exact Option.some.inj (hitem.symm.trans hother) ▸ he

theorem KeywordActionOf.calls_known {keyword : Keyword} {words : List Word} {action : Action}
    {item : Item} (h : KeywordActionOf known line keyword words action)
    (hitem : action.item? = some item) : item.Known known := by
  cases h with
  | close | otherwise | define => cases hitem
  | cond he | range he =>
      obtain rfl := Option.some.inj hitem
      exact Item.known_of_expr? rfl he.calls_known
  | template name harg =>
      obtain rfl := Option.some.inj hitem
      cases harg with
      | none => exact fun _ => nofun
      | some he => exact Item.known_of_expr? rfl he.calls_known
  | block name harg =>
      obtain rfl := Option.some.inj hitem
      cases harg with
      | none => exact Item.known_of_expr? rfl fun _ => List.not_mem_nil.elim
      | some he => exact Item.known_of_expr? rfl he.calls_known

theorem Token.Reads.calls_known {token : Token} {action : Action} {item : Item}
    (h : token.Reads known action) (hitem : action.item? = some item) : item.Known known := by
  cases h with
  | text content =>
      obtain rfl := Option.some.inj hitem
      exact fun _ => nofun
  | action _ h =>
      cases h with
      | keyword _ h => exact h.calls_known hitem
      | output _ he =>
          obtain rfl := Option.some.inj hitem
          exact Item.known_of_expr? rfl he.calls_known

namespace Ledger

/-- The items so far of the bodies that stand around the innermost one. -/
def itemsAround : List Around → List Item
  | [] => []
  | .branches _ :: outer => itemsAround outer
  | .body _ items :: outer => items ++ itemsAround outer

/-- All items that have been entered. -/
def all (ledger : Ledger) : List Item :=
  ledger.items ++ ledger.definitions.flatMap (·.2) ++ itemsAround ledger.around

/-- No step comes in a ledger but what is entered. -/
theorem mem_all_enter {ledger : Ledger} {action : Action} {item : Item} {e : Expr}
    (hexpr : item.expr? = some e) (h : item ∈ (ledger.enter action).all) :
    item ∈ ledger.all ∨ action.item? = some item := by
  have hmarks : item ≠ .otherwise ∧ item ≠ .closes := by
    constructor <;> rintro rfl <;> cases hexpr
  revert h
  fun_cases enter ledger action <;> grind [all, add, itemsAround, Action.item?]

theorem mem_all_enterAll {actions : List Action} {item : Item} {e : Expr}
    (hexpr : item.expr? = some e) :
    ∀ {ledger : Ledger}, item ∈ (ledger.enterAll actions).all →
      item ∈ ledger.all ∨ ∃ action ∈ actions, action.item? = some item := by
  induction actions with
  | nil => exact fun h => .inl h
  | cons action rest ih =>
      intro ledger h
      rcases ih h with h | ⟨later, hlater, hitem⟩
      · apply (mem_all_enter hexpr h).imp_right
        exact fun hitem => ⟨action, List.mem_cons_self, hitem⟩
      · exact .inr ⟨later, List.mem_cons_of_mem _ hlater, hitem⟩

end Ledger

/-- The items of a source, with those of its definitions. -/
def Parsed.items (p : Parsed) : List Item :=
  itemsOf p.body ++ (itemized p.definitions).flatMap (·.2)

/-- What is read of a source calls only known functions. -/
theorem known_of_parse {source : Text} {p : Parsed} (h : parse known source = .ok p) :
    ∀ item ∈ p.items, item.Known known := by
  simp only [parse, Except.map_eq_ok_iff, Except.bind_eq_ok_iff, statements_eq_ok_iff] at h
  obtain ⟨tree, ⟨tokens, -, htree⟩, rfl⟩ := h
  intro item hitem e hexpr
  have hentered : item ∈ (Ledger.empty.enterAll (actionsOf tree)).all := by
    rw [enterAll_actionsOf]
    simpa [Ledger.all, Ledger.add, Ledger.empty, Ledger.itemsAround, Parsed.items,
      Parsed.ofStatements] using hitem
  rcases Ledger.mem_all_enterAll hexpr hentered with hnone | ⟨action, haction, hentry⟩
  · cases hnone
  · obtain ⟨token, -, hreads⟩ := exists_mem_of_forall₂ htree.reads haction
    exact hreads.calls_known hentry e hexpr

/-! ## Namespaces -/

/-- All names of functions that are called in some steps, at any depth. -/
def functionsIn (nodes : List Node) : List Text :=
  ((itemsOf nodes).filterMap Item.expr?).flatMap Expr.functions

/-- Whether some steps call only known functions. -/
def KnownIn (known : Text → Bool) (nodes : List Node) : Prop :=
  ∀ item ∈ itemsOf nodes, item.Known known

theorem knownIn_iff {nodes : List Node} :
    KnownIn known nodes ↔ ∀ name ∈ functionsIn nodes, known name = true := by
  simp only [KnownIn, Item.Known, Expr.Known, functionsIn, List.mem_flatMap, List.mem_filterMap]
  constructor
  · rintro h name ⟨e, ⟨item, hitem, he⟩, hname⟩
    exact h item hitem e he name hname
  · intro h item hitem e he name hname
    exact h name ⟨e, ⟨item, hitem, he⟩, hname⟩

namespace Namespace

/-- Whether some steps are the main template of a namespace or one of its named ones. -/
def HasBody (ns : Namespace) (nodes : List Node) : Prop :=
  ns.main = some nodes ∨ ∃ name, ns.templates.get? name = some nodes

theorem hasBody_add {ns : Namespace} {p : Parsed} {nodes : List Node}
    (h : (ns.add p).HasBody nodes) :
    ns.HasBody nodes ∨ nodes = p.body ∨ ∃ name, (name, nodes) ∈ p.definitions := by
  rcases h with hmain | ⟨name, hname⟩
  · rw [main_add] at hmain
    split at hmain
    · exact .inl (.inl hmain)
    · exact .inr (.inl (Option.some.inj hmain).symm)
  · rw [get?_add, Option.or_eq_some_iff] at hname
    rcases hname with hlast | ⟨-, hname⟩
    · obtain ⟨before, after, hdefinitions, -⟩ := List.lookup_eq_some_iff.mp hlast
      refine .inr (.inr ⟨name, List.mem_reverse.mp ?_⟩)
      simp [hdefinitions]
    · exact .inl (.inr ⟨name, hname⟩)

/-- Whether all templates of a namespace call only functions that it knows. -/
def CallsKnown (ns : Namespace) : Prop :=
  ∀ nodes, ns.HasBody nodes → KnownIn ns.funcs.knows nodes

theorem callsKnown_empty (funcs : FunctionMap) : (empty funcs).CallsKnown := by
  rintro nodes (hmain | ⟨name, hname⟩)
  · cases hmain
  · cases hname

theorem CallsKnown.offer {ns : Namespace} (h : ns.CallsKnown) (source : Text) :
    (ns.offer source).CallsKnown := by
  cases hp : Template.parse ns.funcs.knows source with
  | error e => rwa [ns.offer_of_error hp]
  | ok p =>
      rw [ns.offer_of_ok hp]
      have hitems := known_of_parse hp
      intro nodes hnodes item hitem
      rcases hasBody_add hnodes with hbefore | rfl | ⟨name, hname⟩
      · exact h nodes hbefore item hitem
      · exact hitems item (List.mem_append_left _ hitem)
      · refine hitems item (List.mem_append_right _ (List.mem_flatMap.mpr ⟨(name, itemsOf nodes), ?_, hitem⟩))
        exact List.mem_map_of_mem hname

theorem callsKnown_built (funcs : FunctionMap) (sources : List Text) :
    (built funcs sources).CallsKnown := by
  have hoffers : ∀ ns : Namespace, ns.CallsKnown → (sources.foldl Namespace.offer ns).CallsKnown := by
    induction sources with
    | nil => exact fun _ h => h
    | cons source rest ih => exact fun ns h => ih _ (h.offer source)
  exact hoffers _ (callsKnown_empty funcs)

end Namespace

/-! ## Runs -/

/-- A failure that is no function's, or that has a reason which the function gives. -/
def Explained (scope : Scope) (error : RunError) : Prop :=
  ∀ line name reason, error = .function line name reason → GivenBy scope name reason

theorem GivenBy.knows {scope : Scope} {name : Text} {reason : String}
    (h : GivenBy scope name reason) : scope.funcs.knows name = true := by
  cases h with
  | safe hname => simp [FunctionMap.knows, hname]
  | own hname => simp [FunctionMap.knows, Table.contains, hname]
  | builtin _ hname => simp [FunctionMap.knows, hname]

variable {σ : Type} {sink : Sink σ} {scope : Scope} {templates : Table (List Node)}

theorem explained_runNodes {calls : Calls σ} {nodes : List Node}
    (hnodes : KnownIn scope.funcs.knows nodes)
    (hcalls : ∀ name v, FailsOnly (Explained scope) (calls name v)) (dot : Value) :
    FailsOnly (Explained scope) (runNodes sink scope calls nodes dot) := by
  refine failsOnly_runNodes (fun _ _ _ _ _ => nofun) (fun _ _ _ _ => nofun) ?_ ?_ dot
  · intro item hitem e dot error he herror
    obtain ⟨line, name, reason, rfl, hname, hreason⟩ := e.exists_function_of_error herror
    have hknown : scope.funcs.knows name = true := hnodes item hitem e he name hname
    rintro _ _ _ ⟨⟩
    apply hreason.resolve_right
    simp [hknown]
  · exact fun _ _ name v _ => hcalls name v

theorem explained_callTemplate
    (htemplates : ∀ name body, templates.get? name = some body → KnownIn scope.funcs.knows body)
    (depth : Nat) (name : Text) (v : Value) :
    FailsOnly (Explained scope) (callTemplate sink scope templates depth name v) := by
  induction depth generalizing name v with
  | zero =>
      cases hname : templates.get? name with
      | none =>
          rw [callTemplate_of_none hname]
          exact failsOnly_failed fun _ _ _ => nofun
      | some body =>
          rw [callTemplate_zero hname]
          exact failsOnly_failed fun _ _ _ => nofun
  | succ depth ih =>
      cases hname : templates.get? name with
      | none =>
          rw [callTemplate_of_none hname]
          exact failsOnly_failed fun _ _ _ => nofun
      | some body =>
          rw [callTemplate_succ hname]
          exact explained_runNodes (htemplates name body hname) ih v

theorem explained_runBody
    (htemplates : ∀ name body, templates.get? name = some body → KnownIn scope.funcs.knows body)
    {nodes : List Node} (hnodes : KnownIn scope.funcs.knows nodes) (depth : Nat) (dot : Value) :
    FailsOnly (Explained scope) (runBody sink scope templates depth nodes dot) :=
  explained_runNodes hnodes (explained_callTemplate htemplates depth) dot

namespace Namespace

variable {ns : Namespace}

theorem CallsKnown.explained_execute (h : ns.CallsKnown) (data : Value) :
    FailsOnly (Explained ⟨ns.funcs, data⟩) (ns.execute sink data) := by
  refine failsOnly_execute (fun _ _ _ => nofun) ?_
  intro body hmain
  exact explained_runBody (fun name body hname => h body (.inr ⟨name, hname⟩)) (h body (.inl hmain))
    maxDepth data

theorem CallsKnown.explained_executeTemplate (h : ns.CallsKnown) (name : Text) (data : Value) :
    FailsOnly (Explained ⟨ns.funcs, data⟩) (ns.executeTemplate sink name data) := by
  refine failsOnly_executeTemplate (fun _ _ _ => nofun) ?_
  intro body hbody
  exact explained_runBody (fun name body hname => h body (.inr ⟨name, hname⟩))
    (h body (.inr ⟨name, hbody⟩)) maxDepth data

end Namespace

/-- Unknown functions never come to a run.  Whatever sources a namespace has been offered, all calls
in its templates, at any depth, are of `safe`, of built-in functions or of functions of the map.  And
when a run of its main template or of a named one fails in a function, on any data and wherever it
writes, the function is a known one and the reason is its own, not that there is no such function. -/
theorem built_calls_known (funcs : FunctionMap) (sources : List Text) :
    (∀ nodes, (Namespace.built funcs sources).HasBody nodes → ∀ name ∈ functionsIn nodes,
      name = safeName ∨ (builtin? name).isSome = true ∨ funcs.contains name = true) ∧
    ∀ (sink : Sink σ) (data : Value) (s : σ) (line : Nat) (name : Text) (reason : String),
      (((Namespace.built funcs sources).execute sink data s).2 =
          .error (.function line name reason) ∨
        ∃ template, ((Namespace.built funcs sources).executeTemplate sink template data s).2 =
          .error (.function line name reason)) →
      funcs.knows name = true ∧ GivenBy ⟨funcs, data⟩ name reason := by
  have hknown := Namespace.callsKnown_built funcs sources
  have hfuncs := Namespace.funcs_built funcs sources
  constructor
  · intro nodes hnodes name hname
    have hcall : funcs.knows name = true := hfuncs ▸ knownIn_iff.mp (hknown nodes hnodes) name hname
    simp only [FunctionMap.knows, Bool.or_eq_true, beq_iff_eq] at hcall
    tauto
  · intro sink data s line name reason hfails
    have hgiven : GivenBy ⟨funcs, data⟩ name reason := by
      rw [← hfuncs]
      rcases hfails with hmain | ⟨template, hnamed⟩
      · exact hknown.explained_execute data s _ hmain line name reason rfl
      · exact hknown.explained_executeTemplate template data s _ hnamed line name reason rfl
    exact ⟨hgiven.knows, hgiven⟩

/-- A source with a function of the map inside a built-in one, a source that calls a function of no
such name, and a run that the function of the map ends. -/
theorem built_calls_known_up :
    let up : Function := fun _ _ => .error "no"
    let funcs : FunctionMap := Table.ofList [("up".toList, up)]
    let page := "\x7b\x7bif not (up .a)\x7d\x7dyes\x7b\x7bend\x7d\x7d".toList
    let wrong := "\x7b\x7bdown\x7d\x7d".toList
    let ns := Namespace.built funcs [page, wrong]
    (Template.parse funcs.knows wrong).isOk = false ∧
      (∃ nodes, ns.HasBody nodes ∧ functionsIn nodes = ["not".toList, "up".toList] ∧
        ∀ name ∈ functionsIn nodes,
          name = safeName ∨ (builtin? name).isSome = true ∨ funcs.contains name = true) ∧
      (ns.execute Output.buffer .null #[]).2 = .error (.function 1 "up".toList "no") ∧
      GivenBy ⟨funcs, .null⟩ "up".toList "no" := by
  intro up funcs page wrong ns
  have hmain : ns.main.map functionsIn = some ["not".toList, "up".toList] := by decide +kernel
  have hends : (ns.execute Output.buffer .null #[]).2 = .error (.function 1 "up".toList "no") := by
    have hreason : (match (ns.execute Output.buffer .null #[]).2 with
        | .error (.function line name reason) => some (line, name, reason)
        | _ => none) = some (1, "up".toList, "no") := by decide +kernel
    split at hreason
    · next hfails =>
      simp only [Option.some.injEq, Prod.mk.injEq] at hreason
      obtain ⟨rfl, rfl, rfl⟩ := hreason
      exact hfails
    · cases hreason
  obtain ⟨hcalls, hruns⟩ := built_calls_known funcs [page, wrong]
  obtain ⟨nodes, hnodes, hnames⟩ := Option.map_eq_some_iff.mp hmain
  exact ⟨by decide +kernel, ⟨nodes, .inl hnodes, hnames, hcalls nodes (.inl hnodes)⟩, hends,
    (hruns Output.buffer .null #[] 1 "up".toList "no" (.inl hends)).2⟩

end PageTemplates.Template
