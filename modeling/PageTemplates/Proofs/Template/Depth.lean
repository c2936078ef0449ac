import Mathlib.Data.Finset.Card
import Mathlib.Logic.Relation
import PageTemplates.Proofs.Template.Calls
import PageTemplates.Proofs.Template.Runs
import PageTemplates.Proofs.Template.SideBySide

/-!
How deep templates call each other.  The limit only ever ends a run: with one call more around
it, a run does the same or is cut off at the limit.  A counter of the calls around a run is back
where it was whenever the run ends.  Templates that do not call each other in a circle never come
to the limit when there are no more of them than it allows.
-/

namespace PageTemplates.Output

variable {σ : Type}

/-- Whether a sink can come from one state to another by writes alone. -/
def Sink.Continues (sink : Sink σ) : σ → σ → Prop :=
  Relation.ReflTransGen fun s t => ∃ bytes, t = (sink.write bytes s).1

/-- What a buffer holds is never taken back. -/
theorem bytes_prefix_of_continues {s t : Buffer} (h : buffer.Continues s t) :
    s.bytes <+: t.bytes := by
  induction h with
  | refl => exact List.prefix_rfl
  | tail _ hwrite ih =>
      obtain ⟨bytes, rfl⟩ := hwrite
      apply ih.trans
      simp [buffer, Buffer.bytes]

/-- The state of a sink, and how many calls of templates there are around what writes to it. -/
structure Counted (σ : Type) where
  depth : Nat
  state : σ

/-- A sink beside the counter of calls, which writes leave alone. -/
def Sink.counted (sink : Sink σ) : Sink (Counted σ) where
  write bytes s := (⟨s.depth, (sink.write bytes s.state).1⟩, (sink.write bytes s.state).2)

end PageTemplates.Output

namespace PageTemplates.Template

open Output (Counted Sink)

variable {σ : Type} {sink : Sink σ} {scope : Scope} {templates : Table (List Node)}

/-- A run of some steps with so many calls of templates around it. -/
def runInside (sink : Sink σ) (scope : Scope) (templates : Table (List Node)) (depth : Nat)
    (nodes : List Node) (dot : Value) (s : σ) : Outcome σ :=
  runBody sink scope templates (maxDepth - depth) nodes dot s

/-! ## One call more -/

/-- How a run ends on a sink where another one may go deeper: it is the same run, or it ends at the
limit and the other one only writes more. -/
def CutOff (sink : Sink σ) (cut whole : Outcome σ) : Prop :=
  cut = whole ∨ (cut.2 = .error (.tooDeep maxDepth) ∧ sink.Continues cut.1 whole.1)

/-- Whether the first of two runs is the second or is cut short, and the second one only writes. -/
def CutsShort (sink : Sink σ) (cut whole : σ → Outcome σ) : Prop :=
  ∀ s, CutOff sink (cut s) (whole s) ∧ sink.Continues s (whole s).1

theorem CutsShort.refl {run : σ → Outcome σ} (hrun : ∀ s, sink.Continues s (run s).1) :
    CutsShort sink run run :=
  fun s => ⟨.inl rfl, hrun s⟩

theorem cutsShort_failed (error : RunError) : CutsShort sink (.failed error) (.failed error) :=
  .refl fun _ => .refl

theorem Outcome.andThen_of_error {first : Outcome σ} {error : RunError}
    (herror : first.2 = .error error) (next : σ → Outcome σ) : first.andThen next = first := by
  obtain ⟨s, result⟩ := first
  obtain rfl : result = .error error := herror
  rfl

theorem continues_andThen {next : σ → Outcome σ} (hnext : ∀ s, sink.Continues s (next s).1) :
    ∀ first : Outcome σ, sink.Continues first.1 (first.andThen next).1
  | (s, .ok ()) => hnext s
  | (_, .error _) => .refl

theorem CutsShort.andThen {first second first' second' : σ → Outcome σ}
    (hfirst : CutsShort sink first first') (hsecond : CutsShort sink second second') :
    CutsShort sink (fun s => (first s).andThen second) fun s => (first' s).andThen second' := by
  intro s
  obtain ⟨hcut, hwrites⟩ := hfirst s
  have hmore := continues_andThen (fun t => (hsecond t).2) (first' s)
  refine ⟨?_, hwrites.trans hmore⟩
  rcases hcut with hsame | ⟨herror, hrest⟩
  · simp only [hsame]
    cases first' s with
    | mk t result =>
        cases result with
        | ok => exact (hsecond t).1
        | error => exact .inl rfl
  · simp only [Outcome.andThen_of_error herror]
    exact .inr ⟨herror, hrest.trans hmore⟩

theorem paired_cutsShort : Paired sink sink (CutsShort sink) where
  done := .refl fun _ => .refl
  notIterable line v := cutsShort_failed (.notIterable line v)
  writeText t := by
    apply CutsShort.refl
    intro s
    rw [writeText]
    apply Relation.ReflTransGen.single
    refine ⟨Utf8.encode t, ?_⟩
    cases sink.write (Utf8.encode t) s with
    | mk s failure => cases failure <;> rfl
  andThen := CutsShort.andThen

theorem cutsShort_runNodes {calls deeper : Calls σ}
    (hcalls : ∀ name v, CutsShort sink (calls name v) (deeper name v)) (nodes : List Node)
    (dot : Value) :
    CutsShort sink (runNodes sink scope calls nodes dot) (runNodes sink scope deeper nodes dot) :=
  paired_cutsShort.run_nodes nodes dot fun item _ => item.covered_of_calls cutsShort_failed hcalls

/-- By induction on how much deeper the second run may go. -/
theorem cutsShort_callTemplate {cut depth : Nat} (hcut : cut ≤ depth) (name : Text) (v : Value) :
    CutsShort sink (callTemplate sink scope templates cut name v)
      (callTemplate sink scope templates depth name v) := by
  induction depth generalizing cut name v with
  | zero =>
      obtain rfl : cut = 0 := by omega
      cases hname : templates.get? name with
      | none =>
          rw [callTemplate_of_none hname]
          exact cutsShort_failed (.unknownTemplate name)
      | some body =>
          rw [callTemplate_zero hname]
          exact cutsShort_failed (.tooDeep maxDepth)
  | succ depth ih =>
      cases hname : templates.get? name with
      | none =>
          rw [callTemplate_of_none hname, callTemplate_of_none hname]
          exact cutsShort_failed (.unknownTemplate name)
      | some body =>
          cases cut with
          | zero =>
              rw [callTemplate_zero hname, callTemplate_succ hname]
              intro s
              have hwrites : sink.Continues s
                  (runNodes sink scope (callTemplate sink scope templates depth) body v s).1 :=
                (cutsShort_runNodes (ih le_rfl) body v s).2
              exact ⟨.inr ⟨rfl, hwrites⟩, hwrites⟩
          | succ cut =>
              rw [callTemplate_succ hname, callTemplate_succ hname]
              apply cutsShort_runNodes
              exact ih (by omega)

theorem cutOff_runInside (depth : Nat) (nodes : List Node) (dot : Value) (s : σ) :
    CutOff sink (runInside sink scope templates (depth + 1) nodes dot s)
      (runInside sink scope templates depth nodes dot s) := by
  apply (cutsShort_runNodes _ nodes dot s).1
  exact cutsShort_callTemplate (by omega)

/-! ## The counter -/

/-- Calls that count: each one looks up its template, fails when there are as many calls around it as
the limit allows, and otherwise runs the template with the counter one up and then puts it back. -/
def CountsCalls (sink : Sink σ) (scope : Scope) (templates : Table (List Node))
    (calls : Calls (Counted σ)) : Prop :=
  ∀ name dot s, calls name dot s =
    match templates.get? name with
    | none => .failed (.unknownTemplate name) s
    | some body =>
      if maxDepth ≤ s.depth then .failed (.tooDeep maxDepth) s
      else
        let ended := runNodes sink.counted scope calls body dot { s with depth := s.depth + 1 }
        ({ ended.1 with depth := ended.1.depth - 1 }, ended.2)

/-- Whether the second of two runs is the first one beside a counter that it leaves where it is. -/
def Beside (depth : Nat) (run : σ → Outcome σ) (counted : Counted σ → Outcome (Counted σ)) : Prop :=
  ∀ s, counted ⟨depth, s⟩ = (⟨depth, (run s).1⟩, (run s).2)

theorem paired_beside (depth : Nat) : Paired sink sink.counted (Beside depth) where
  done _ := rfl
  notIterable _ _ _ := rfl
  writeText t := by
    intro s
    simp only [writeText, Sink.counted]
    cases sink.write (Utf8.encode t) s with
    | mk s failure => cases failure <;> rfl
  andThen {first second first' second'} hfirst hsecond := by
    intro s
    simp only [hfirst s]
    cases first s with
    | mk t result =>
        cases result with
        | ok => exact hsecond t
        | error => rfl

theorem beside_runNodes {depth : Nat} {calls : Calls σ} {counting : Calls (Counted σ)}
    (hcalls : ∀ name v, Beside depth (calls name v) (counting name v)) (nodes : List Node)
    (dot : Value) :
    Beside depth (runNodes sink scope calls nodes dot)
      (runNodes sink.counted scope counting nodes dot) :=
  (paired_beside depth).run_nodes nodes dot fun item _ =>
    item.covered_of_calls (fun _ _ => rfl) hcalls

/-- Calls that count run templates beside the counter, with as many levels as it leaves them. -/
theorem CountsCalls.beside_callTemplate {calls : Calls (Counted σ)}
    (hcalls : CountsCalls sink scope templates calls) {depth left : Nat}
    (hleft : maxDepth - depth = left) (name : Text) (v : Value) :
    Beside depth (callTemplate sink scope templates left name v) (calls name v) := by
  intro s
  rw [hcalls]
  induction left generalizing depth name v s with
  | zero =>
      cases hname : templates.get? name with
      | none => rw [callTemplate_of_none hname]; rfl
      | some body =>
          rw [callTemplate_zero hname]
          exact if_pos (Nat.sub_eq_zero_iff_le.mp hleft)
  | succ left ih =>
      cases hname : templates.get? name with
      | none => rw [callTemplate_of_none hname]; rfl
      | some body =>
          have hroom : ¬ maxDepth ≤ depth := by omega
          have hbody : Beside (depth + 1)
              (runNodes sink scope (callTemplate sink scope templates left) body v)
              (runNodes sink.counted scope calls body v) := by
            apply beside_runNodes
            intro inner w t
            rw [hcalls]
            exact ih (by omega) inner w t
          simp only [callTemplate_succ hname, if_neg hroom, hbody s, Nat.add_sub_cancel]

/-- The calls that find from the counter how many levels are left. -/
def countedCalls (sink : Sink σ) (scope : Scope) (templates : Table (List Node)) :
    Calls (Counted σ) :=
  fun name dot s =>
    match callTemplate sink scope templates (maxDepth - s.depth) name dot s.state with
    | (state, result) => (⟨s.depth, state⟩, result)

theorem countsCalls_countedCalls :
    CountsCalls sink scope templates (countedCalls sink scope templates) := by
  rintro name dot ⟨depth, s⟩
  rw [countedCalls]
  cases hname : templates.get? name with
  | none => rw [callTemplate_of_none hname]; rfl
  | some body =>
      dsimp only
      split
      next hfull =>
        rw [Nat.sub_eq_zero_of_le hfull, callTemplate_zero hname]
        rfl
      next hroom =>
        have hleft : maxDepth - depth = maxDepth - (depth + 1) + 1 := by omega
        have hbody : Beside (depth + 1)
            (runNodes sink scope (callTemplate sink scope templates (maxDepth - (depth + 1))) body dot)
            (runNodes sink.counted scope (countedCalls sink scope templates) body dot) := by
          apply beside_runNodes
          exact fun _ _ _ => rfl
        rw [hleft, callTemplate_succ hname, hbody s]
        rfl

/-- Calls that count are determined by that. -/
theorem existsUnique_countsCalls : ∃! calls, CountsCalls sink scope templates calls := by
  refine ⟨_, countsCalls_countedCalls, ?_⟩
  intro calls hcalls
  funext name v ⟨depth, s⟩
  exact hcalls.beside_callTemplate rfl name v s

theorem CountsCalls.beside_runInside {calls : Calls (Counted σ)}
    (hcalls : CountsCalls sink scope templates calls) (depth : Nat) (nodes : List Node)
    (dot : Value) :
    Beside depth (runInside sink scope templates depth nodes dot)
      (runNodes sink.counted scope calls nodes dot) :=
  beside_runNodes (hcalls.beside_callTemplate rfl) nodes dot

/-! ## Templates without circles -/

/-- Whether somewhere in the body of the first template there is a call of the second one. -/
def CallsDirectly (templates : Table (List Node)) (outer inner : Text) : Prop :=
  ∃ body, templates.get? outer = some body ∧ inner ∈ (itemsOf body).filterMap Item.callee?

/-- Whether no template comes to call itself, directly or through others. -/
def Acyclic (templates : Table (List Node)) : Prop :=
  ∀ name, ¬ Relation.TransGen (CallsDirectly templates) name name

/-- Templates that only call templates of a lower rank. -/
theorem acyclic_of_rank (rank : Text → Nat)
    (hrank : ∀ entry ∈ templates.entries, ∀ inner ∈ (itemsOf entry.2).filterMap Item.callee?,
      rank inner < rank entry.1) : Acyclic templates := by
  have hcall : ∀ {outer inner}, CallsDirectly templates outer inner → rank inner < rank outer := by
    rintro outer inner ⟨body, hbody, hinner⟩
    obtain ⟨before, after, hentries, -⟩ := List.lookup_eq_some_iff.mp hbody
    apply hrank (outer, body) _ inner hinner
    simp [hentries]
  intro name hcircle
  have hless : ∀ {last}, Relation.TransGen (CallsDirectly templates) name last →
      rank last < rank name := by
    intro last hpath
    induction hpath with
    | single hlast => exact hcall hlast
    | tail _ hlast ih => exact (hcall hlast).trans ih
  exact lt_irrefl _ (hless hcircle)

/-- Any failure but the one at the limit. -/
def NotTooDeep (error : RunError) : Prop :=
  ∀ limit, error ≠ .tooDeep limit

/-- A run does not come to the limit when the calls in its steps do not. -/
theorem notTooDeep_runNodes {calls : Calls σ} {nodes : List Node}
    (hcalls : ∀ name ∈ (itemsOf nodes).filterMap Item.callee?, ∀ v,
      FailsOnly NotTooDeep (calls name v)) (dot : Value) :
    FailsOnly NotTooDeep (runNodes sink scope calls nodes dot) := by
  refine failsOnly_runNodes (fun _ _ _ => RunError.noConfusion) (fun _ _ => RunError.noConfusion)
    ?_ ?_ dot
  · intro _ _ e dot error _ herror
    obtain ⟨line, name, reason, rfl, -⟩ := e.exists_function_of_error herror
    exact fun _ => RunError.noConfusion
  · intro item hitem name v hname
    exact hcalls name (List.mem_filterMap.mpr ⟨item, hitem, hname⟩) v

/-- By induction on what a template may come to call: that is less for each template that it calls,
since no template comes to call itself. -/
theorem Acyclic.notTooDeep_callTemplate (hacyclic : Acyclic templates) {below : Finset Text}
    {name : Text}
    (hbelow : ∀ inner, Relation.ReflTransGen (CallsDirectly templates) name inner →
      inner ∈ templates.names → inner ∈ below)
    {depth : Nat} (hdepth : below.card ≤ depth) (v : Value) :
    FailsOnly NotTooDeep (callTemplate sink scope templates depth name v) := by
  induction below using Finset.strongInduction generalizing name depth v with
  | H below ih =>
      cases hname : templates.get? name with
      | none =>
          rw [callTemplate_of_none hname]
          exact failsOnly_failed fun _ => RunError.noConfusion
      | some body =>
          have hmem : name ∈ below := hbelow name .refl (Table.mem_names_iff.mpr ⟨body, hname⟩)
          have hcard : (below.erase name).card + 1 = below.card := Finset.card_erase_add_one hmem
          obtain ⟨left, rfl⟩ : ∃ left, depth = left + 1 := ⟨depth - 1, by omega⟩
          rw [callTemplate_succ hname]
          apply notTooDeep_runNodes
          intro inner hinner w
          have hcall : CallsDirectly templates name inner := ⟨body, hname, hinner⟩
          apply ih _ (Finset.erase_ssubset hmem) _ (by omega)
          intro last hlast hdefined
          refine Finset.mem_erase.mpr ⟨?_, hbelow last (.head hcall hlast) hdefined⟩
          rintro rfl
          exact hacyclic last (.head' hcall hlast)

theorem Acyclic.notTooDeep_runBody (hacyclic : Acyclic templates)
    (hsize : templates.size ≤ maxDepth) (nodes : List Node) (dot : Value) :
    FailsOnly NotTooDeep (runBody sink scope templates maxDepth nodes dot) := by
  apply notTooDeep_runNodes
  intro name _
  apply hacyclic.notTooDeep_callTemplate (fun inner _ hinner => List.mem_toFinset.mpr hinner)
  calc templates.names.toFinset.card
      ≤ templates.names.length := List.toFinset_card_le templates.names
    _ = templates.size := List.length_map _
    _ ≤ maxDepth := hsize

/-- The limit only cuts runs off.  With one call more around it, a run of any steps is the same run, or
it fails at the limit and what it leaves is a beginning of what the other run leaves.  A run with a
counter of calls, of which there is one, leaves the counter where it was, however it ends.  And when
templates do not call each other in a circle and there are at most a hundred, no page of them fails
at the limit. -/
theorem limit_only_cuts (sink : Sink σ) (ns : Namespace) (data : Value) :
    (∀ depth nodes dot s,
      let cut := runInside sink ⟨ns.funcs, data⟩ ns.templates (depth + 1) nodes dot s
      let whole := runInside sink ⟨ns.funcs, data⟩ ns.templates depth nodes dot s
      cut = whole ∨ (cut.2 = .error (.tooDeep maxDepth) ∧ sink.Continues cut.1 whole.1)) ∧
    (∀ depth nodes dot s,
      let cut := runInside Output.buffer ⟨ns.funcs, data⟩ ns.templates (depth + 1) nodes dot s
      let whole := runInside Output.buffer ⟨ns.funcs, data⟩ ns.templates depth nodes dot s
      cut = whole ∨ (cut.2 = .error (.tooDeep maxDepth) ∧ cut.1.bytes <+: whole.1.bytes)) ∧
    (∃! calls, CountsCalls sink ⟨ns.funcs, data⟩ ns.templates calls) ∧
    (∀ calls, CountsCalls sink ⟨ns.funcs, data⟩ ns.templates calls → ∀ depth nodes dot s,
      let ended := runInside sink ⟨ns.funcs, data⟩ ns.templates depth nodes dot s
      runNodes sink.counted ⟨ns.funcs, data⟩ calls nodes dot ⟨depth, s⟩ =
        (⟨depth, ended.1⟩, ended.2)) ∧
    (Acyclic ns.templates → ns.templates.size ≤ 100 → ∀ s limit,
      (ns.execute sink data s).2 ≠ .error (.tooDeep limit) ∧
        ∀ name, (ns.executeTemplate sink name data s).2 ≠ .error (.tooDeep limit)) := by
  refine ⟨cutOff_runInside, ?_, existsUnique_countsCalls, ?_, ?_⟩
  · intro depth nodes dot s
    apply (cutOff_runInside depth nodes dot s).imp id
    exact And.imp_right Output.bytes_prefix_of_continues
  · intro calls hcalls depth
    exact hcalls.beside_runInside depth
  · intro hacyclic hsize s limit
    have hbody : ∀ body, FailsOnly NotTooDeep
        (runBody sink ⟨ns.funcs, data⟩ ns.templates maxDepth body data) :=
      fun body => hacyclic.notTooDeep_runBody hsize body data
    constructor
    · intro herror
      exact Namespace.failsOnly_execute (fun _ => RunError.noConfusion) (fun body _ => hbody body)
        s _ herror limit rfl
    · intro name herror
      exact Namespace.failsOnly_executeTemplate (fun _ => RunError.noConfusion)
        (fun body _ => hbody body) s _ herror limit rfl

/-- A template that calls itself, cut off one and two calls from the limit, and two templates of which
one calls the other. -/
theorem limit_only_cuts_tail_side :
    let nodes : List Node := [.text "x".toList, .template "tail".toList none]
    let circle : Namespace := ⟨Table.empty, some nodes, Table.ofList [("tail".toList, nodes)]⟩
    let chain : Namespace := ⟨Table.empty, some [.template "page".toList none], Table.ofList
      [("page".toList, [.template "side".toList none]), ("side".toList, [.text "x".toList])]⟩
    let inside := runInside Output.buffer ⟨circle.funcs, .null⟩ circle.templates
    ((inside 99 nodes .null #[]).2 = .error (.tooDeep maxDepth) ∧
        (inside 99 nodes .null #[]).1.bytes <+: (inside 98 nodes .null #[]).1.bytes) ∧
      (∃ calls, CountsCalls Output.buffer ⟨circle.funcs, .null⟩ circle.templates calls ∧
        (runNodes Output.buffer.counted ⟨circle.funcs, .null⟩ calls nodes .null ⟨99, #[]⟩).1.depth =
          99) ∧
      (Acyclic chain.templates ∧ chain.templates.size ≤ 100 ∧
        (chain.execute Output.buffer .null #[]).2 ≠ .error (.tooDeep maxDepth)) := by
  intro nodes circle chain inside
  refine ⟨?_, ?_, ?_⟩
  · have hends := (limit_only_cuts Output.buffer circle .null).2.1 98 nodes .null #[]
    apply hends.resolve_left
    intro hsame
    exact absurd (congrArg (fun ended => ended.1.size) hsame) (by decide)
  · refine ⟨_, countsCalls_countedCalls, ?_⟩
    have hended := (limit_only_cuts Output.buffer circle .null).2.2.2.1 _ countsCalls_countedCalls
      99 nodes .null #[]
    exact congrArg (fun ended => ended.1.depth) hended
  · have hacyclic : Acyclic chain.templates :=
      acyclic_of_rank (fun name => if name = "page".toList then 1 else 0) (by decide)
    have hsize : chain.templates.size ≤ 100 := by decide
    exact ⟨hacyclic, hsize,
      ((limit_only_cuts Output.buffer chain .null).2.2.2.2 hacyclic hsize #[] maxDepth).1⟩

end PageTemplates.Template
