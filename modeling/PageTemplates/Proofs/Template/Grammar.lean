import PageTemplates.Proofs.Template.Actions

/-!
The grammar of templates.  A tree of statements is written as a row of actions, with
the marks that open, part and close its bodies; tokens spell the tree when they read
as that row, one by one, and definitions stand outside everything else.  Reading with
a stack accepts exactly the tokens that spell a tree, and gives this tree.
-/

namespace PageTemplates.Template

/-! ## Trees in a row -/

mutual
/-- The actions that a statement is written as. -/
def Statement.actions : Statement → List Action
  | .text content => [.whole (.text content)]
  | .output e => [.whole (.output e)]
  | .template name arg => [.whole (.template name arg)]
  | .cond test yes no => .opens (.cond test) :: (actionsOf yes ++ actionsOfBranch no ++ [.closes])
  | .range subject line body otherwise =>
    .opens (.range subject line) :: (actionsOf body ++ actionsOfBranch otherwise ++ [.closes])
  | .block name arg body => .opens (.block name arg) :: (actionsOf body ++ [.closes])
  | .define name body => .opens (.define name) :: (actionsOf body ++ [.closes])
termination_by structural statement => statement

def actionsOf : List Statement → List Action
  | [] => []
  | statement :: rest => statement.actions ++ actionsOf rest
termination_by structural statements => statements

/-- The actions of a second branch, with the mark that begins it. -/
def actionsOfBranch : Option (List Statement) → List Action
  | none => []
  | some body => .otherwise :: actionsOf body
termination_by structural branch => branch
end

mutual
/-- Whether no definition stands inside another statement; `outermost` when the statement itself
stands in none. -/
def Statement.Placed : Statement → (outermost : Bool) → Prop
  | .text _, _ | .output _, _ | .template _ _, _ => True
  | .cond _ yes no, _ => PlacedAll yes false ∧ PlacedBranch no
  | .range _ _ body otherwise, _ => PlacedAll body false ∧ PlacedBranch otherwise
  | .block _ _ body, _ => PlacedAll body false
  | .define _ body, outermost => outermost = true ∧ PlacedAll body false
termination_by structural statement => statement

def PlacedAll : List Statement → (outermost : Bool) → Prop
  | [], _ => True
  | statement :: rest, outermost => statement.Placed outermost ∧ PlacedAll rest outermost
termination_by structural statements => statements

def PlacedBranch : Option (List Statement) → Prop
  | none => True
  | some body => PlacedAll body false
termination_by structural branch => branch
end

/-- Tokens that read, one by one, as the actions of a tree of statements. -/
structure Spells (known : Text → Bool) (tree : List Statement) (tokens : List Token) : Prop where
  reads : List.Forall₂ (Token.Reads known) tokens (actionsOf tree)
  placed : PlacedAll tree true

theorem actionsOf_append (first second : List Statement) :
    actionsOf (first ++ second) = actionsOf first ++ actionsOf second := by
  induction first with
  | nil => rfl
  | cons statement rest ih => simp only [List.cons_append, actionsOf, ih, List.append_assoc]

theorem placedAll_iff {tree : List Statement} {outermost : Bool} :
    PlacedAll tree outermost ↔ ∀ statement ∈ tree, statement.Placed outermost := by
  induction tree with
  | nil => simp [PlacedAll]
  | cons statement rest ih => simp [PlacedAll, ih]

/-! ## What is spelled is read -/

section Steps

variable {known : Text → Bool} {token : Token}

theorem statementsFrom_whole {statement : Statement} (hreads : token.Reads known (.whole statement))
    (frames : List Frame) (done : List Statement) (rest : List Token) :
    statementsFrom known frames done (token :: rest) =
      statementsFrom known frames (statement :: done) rest := by
  cases token with
  | text content =>
      cases hreads
      rw [statementsFrom]
  | action body line =>
      have hread : readAction known line frames.isEmpty body = .ok (.whole statement) :=
        readAction_eq_ok_iff.mpr ⟨hreads, trivial⟩
      rw [statementsFrom.eq_def]
      simp only [hread]

theorem statementsFrom_opens {head : Head} {frames : List Frame}
    (hreads : token.Reads known (.opens head))
    (hstands : (Action.opens head).Stands frames.isEmpty) :
    ∃ line, ∀ done rest, statementsFrom known frames done (token :: rest) =
      statementsFrom known (⟨head, line, done, none⟩ :: frames) [] rest := by
  cases token with
  | text content => cases hreads
  | action body line =>
      have hread : readAction known line frames.isEmpty body = .ok (.opens head) :=
        readAction_eq_ok_iff.mpr ⟨hreads, hstands⟩
      refine ⟨line, fun done rest => ?_⟩
      rw [statementsFrom.eq_def]
      simp only [hread]

theorem statementsFrom_otherwise {head : Head} (hreads : token.Reads known .otherwise)
    (hbranches : head.branches = true) (line : Nat) (before : List Statement)
    (outer : List Frame) (done : List Statement) (rest : List Token) :
    statementsFrom known (⟨head, line, before, none⟩ :: outer) done (token :: rest) =
      statementsFrom known (⟨head, line, before, some done.reverse⟩ :: outer) [] rest := by
  cases token with
  | text content => cases hreads
  | action body line' =>
      have hread : readAction known line' false body = .ok .otherwise :=
        readAction_eq_ok_iff.mpr ⟨hreads, trivial⟩
      rw [statementsFrom, List.isEmpty_cons, hread]
      simp [hbranches]

theorem statementsFrom_closes (hreads : token.Reads known .closes) (frame : Frame)
    (outer : List Frame) (done : List Statement) (rest : List Token) :
    statementsFrom known (frame :: outer) done (token :: rest) =
      statementsFrom known outer (frame.head.close frame.first done.reverse :: frame.before) rest := by
  cases token with
  | text content => cases hreads
  | action body line =>
      have hread : readAction known line false body = .ok .closes :=
        readAction_eq_ok_iff.mpr ⟨hreads, trivial⟩
      rw [statementsFrom, List.isEmpty_cons, hread]

end Steps

section Completeness

/-- Tokens that read as one row after another are the tokens of the one and those of the other. -/
theorem exists_append_of_reads {known : Text → Bool} {tokens : List Token}
    {first second : List Action}
    (hreads : List.Forall₂ (Token.Reads known) tokens (first ++ second)) :
    ∃ before after, tokens = before ++ after ∧ List.Forall₂ (Token.Reads known) before first ∧
      List.Forall₂ (Token.Reads known) after second :=
  ⟨_, _, (List.take_append_drop first.length tokens).symm,
    List.forall₂_take_append tokens first second hreads,
    List.forall₂_drop_append tokens first second hreads⟩

variable (known : Text → Bool)

/-- Reading tokens that are written as `actions` adds the tree, whatever is open around it. -/
def Adds (actions : List Action) (tree : List Statement) (frames : List Frame) : Prop :=
  ∀ (tokens : List Token) (done : List Statement) (rest : List Token),
    List.Forall₂ (Token.Reads known) tokens actions →
      statementsFrom known frames done (tokens ++ rest) =
        statementsFrom known frames (tree.reverse ++ done) rest

/-- Reading tokens that are written as `actions` ends the statement that was opened last, as `closed`;
before them its only body so far is `body`. -/
def Ends (actions : List Action) (head : Head) (body : List Statement) (closed : Statement) : Prop :=
  ∀ (tokens : List Token) (line : Nat) (before : List Statement) (outer : List Frame)
    (rest : List Token), List.Forall₂ (Token.Reads known) tokens actions →
      statementsFrom known (⟨head, line, before, none⟩ :: outer) body.reverse (tokens ++ rest) =
        statementsFrom known outer (closed :: before) rest

variable {known}

theorem adds_nil (frames : List Frame) : Adds known [] [] frames := by
  rintro _ done rest ⟨⟩
  rfl

theorem adds_whole (statement : Statement) (frames : List Frame) :
    Adds known [.whole statement] [statement] frames := by
  rintro _ done rest (_ | ⟨hreads, ⟨⟩⟩)
  exact statementsFrom_whole hreads frames done rest

theorem Adds.append {first second : List Action} {tree more : List Statement} {frames : List Frame}
    (hfirst : Adds known first tree frames) (hsecond : Adds known second more frames) :
    Adds known (first ++ second) (tree ++ more) frames := by
  intro tokens done rest hreads
  obtain ⟨before, after, rfl, hbefore, hafter⟩ := exists_append_of_reads hreads
  rw [List.append_assoc, hfirst before _ _ hbefore, hsecond after _ _ hafter, List.reverse_append,
    List.append_assoc]

/-- A statement with a body: its head, the body, and what ends it. -/
theorem adds_opens {head : Head} {actions ending : List Action} {body : List Statement}
    {closed : Statement} {frames : List Frame}
    (hstands : (Action.opens head).Stands frames.isEmpty)
    (hbody : ∀ frame outer, Adds known actions body (frame :: outer))
    (hending : Ends known ending head body closed) :
    Adds known (.opens head :: (actions ++ ending)) [closed] frames := by
  rintro _ done rest (_ | ⟨hreads, hmore⟩)
  obtain ⟨before, after, rfl, hbefore, hafter⟩ := exists_append_of_reads hmore
  obtain ⟨line, hopens⟩ := statementsFrom_opens hreads hstands
  rw [List.cons_append, hopens, List.append_assoc, hbody _ _ before _ _ hbefore, List.append_nil,
    hending after line done frames rest hafter]
  rfl

theorem ends_closes (head : Head) (body : List Statement) :
    Ends known [.closes] head body (head.close none body) := by
  rintro _ line before outer rest (_ | ⟨hreads, ⟨⟩⟩)
  have hcloses := statementsFrom_closes hreads ⟨head, line, before, none⟩ outer body.reverse rest
  rwa [List.reverse_reverse] at hcloses

theorem ends_otherwise {head : Head} (hbranches : head.branches = true) {actions : List Action}
    (body : List Statement) {last : List Statement}
    (hlast : ∀ frame outer, Adds known actions last (frame :: outer)) :
    Ends known (.otherwise :: (actions ++ [.closes])) head body (head.close (some body) last) := by
  rintro _ line before outer rest (_ | ⟨hreads, hmore⟩)
  obtain ⟨inner, ending, rfl, hinner, hending⟩ := exists_append_of_reads hmore
  rw [List.cons_append, statementsFrom_otherwise hreads hbranches, List.append_assoc,
    hlast _ _ inner _ _ hinner, List.append_nil, List.reverse_reverse]
  obtain _ | ⟨hcloses, ⟨⟩⟩ := hending
  rw [List.singleton_append, statementsFrom_closes hcloses, List.reverse_reverse]

/-- The statement with this head, a first body, and a second one if there is one. -/
def Head.closed (head : Head) (body : List Statement) : Option (List Statement) → Statement
  | none => head.close none body
  | some last => head.close (some body) last

theorem Head.closed_cond (test : Expr) (yes : List Statement) (no : Option (List Statement)) :
    (Head.cond test).closed yes no = .cond test yes no := by
  cases no <;> rfl

theorem Head.closed_range (subject : Expr) (line : Nat) (body : List Statement)
    (otherwise : Option (List Statement)) :
    (Head.range subject line).closed body otherwise = .range subject line body otherwise := by
  cases otherwise <;> rfl

mutual
/-- Reading the tokens of a statement adds it, where its definitions may stand. -/
theorem Statement.adds : ∀ (statement : Statement) (frames : List Frame),
    statement.Placed frames.isEmpty → Adds known statement.actions [statement] frames
  | .text _, frames, _ | .output _, frames, _ | .template _ _, frames, _ => adds_whole _ frames
  | .cond test yes no, frames, ⟨hyes, hno⟩ => by
      rw [Statement.actions, List.append_assoc]
      have hending := endsBranch no hno (.cond test) rfl yes
      rw [Head.closed_cond] at hending
      exact adds_opens trivial (fun frame outer => addsAll yes (frame :: outer) hyes) hending
  | .range subject line body otherwise, frames, ⟨hbody, hotherwise⟩ => by
      rw [Statement.actions, List.append_assoc]
      have hending := endsBranch otherwise hotherwise (.range subject line) rfl body
      rw [Head.closed_range] at hending
      exact adds_opens trivial (fun frame outer => addsAll body (frame :: outer) hbody) hending
  | .block name arg body, frames, hbody =>
      adds_opens trivial (fun frame outer => addsAll body (frame :: outer) hbody)
        (ends_closes (.block name arg) body)
  | .define name body, frames, ⟨houtermost, hbody⟩ =>
      adds_opens houtermost (fun frame outer => addsAll body (frame :: outer) hbody)
        (ends_closes (.define name) body)
termination_by structural statement => statement

theorem addsAll : ∀ (tree : List Statement) (frames : List Frame),
    PlacedAll tree frames.isEmpty → Adds known (actionsOf tree) tree frames
  | [], frames, _ => adds_nil frames
  | statement :: rest, frames, ⟨hfirst, hrest⟩ =>
      (statement.adds frames hfirst).append (addsAll rest frames hrest)
termination_by structural tree => tree

/-- A second branch, if there is one, and the end of the statement. -/
theorem endsBranch : ∀ (branch : Option (List Statement)), PlacedBranch branch →
    ∀ (head : Head), head.branches = true → ∀ body,
      Ends known (actionsOfBranch branch ++ [.closes]) head body (head.closed body branch)
  | none, _, _, _, body => ends_closes _ body
  | some last, hlast, _, hbranches, body =>
      ends_otherwise hbranches body fun frame outer => addsAll last (frame :: outer) hlast
termination_by structural branch => branch
end

end Completeness

/-! ## What is read is spelled -/

/-- The actions that have been read, where `frames` are the open statements, innermost first, and
`done` the statements of the innermost body so far, last to first. -/
inductive OpenTree : List Frame → List Statement → List Action → Prop
  | outermost {done} (hdone : PlacedAll done.reverse true) :
      OpenTree [] done (actionsOf done.reverse)
  | first {outer before actions head line done} (houter : OpenTree outer before actions)
      (hhead : (Action.opens head).Stands outer.isEmpty) (hdone : PlacedAll done.reverse false) :
      OpenTree (⟨head, line, before, none⟩ :: outer) done
        (actions ++ .opens head :: actionsOf done.reverse)
  | second {outer before actions head line body done} (houter : OpenTree outer before actions)
      (hbranches : head.branches = true) (hbody : PlacedAll body false)
      (hdone : PlacedAll done.reverse false) :
      OpenTree (⟨head, line, before, some body⟩ :: outer) done
        (actions ++ .opens head :: (actionsOf body ++ .otherwise :: actionsOf done.reverse))

section Soundness

theorem actions_close_none (head : Head) (body : List Statement) :
    (head.close none body).actions = .opens head :: (actionsOf body ++ [.closes]) := by
  cases head <;> simp [Head.close, Statement.actions, actionsOfBranch]

theorem placed_close_none {head : Head} {body : List Statement} {outermost : Bool}
    (hhead : (Action.opens head).Stands outermost) (hbody : PlacedAll body false) :
    (head.close none body).Placed outermost := by
  cases head with
  | cond test => exact ⟨hbody, trivial⟩
  | range subject line => exact ⟨hbody, trivial⟩
  | block name arg => exact hbody
  | define name => exact ⟨hhead, hbody⟩

theorem actions_close_some {head : Head} (hbranches : head.branches = true)
    (body last : List Statement) :
    (head.close (some body) last).actions =
      .opens head :: (actionsOf body ++ .otherwise :: actionsOf last ++ [.closes]) := by
  cases head with
  | cond test => rfl
  | range subject line => rfl
  | block name arg => cases hbranches
  | define name => cases hbranches

theorem placed_close_some {head : Head} (hbranches : head.branches = true)
    {body last : List Statement} (hbody : PlacedAll body false) (hlast : PlacedAll last false)
    (outermost : Bool) : (head.close (some body) last).Placed outermost := by
  cases head with
  | cond test => exact ⟨hbody, hlast⟩
  | range subject line => exact ⟨hbody, hlast⟩
  | block name arg => cases hbranches
  | define name => cases hbranches

theorem placedAll_reverse_cons {statement : Statement} {done : List Statement} {outermost : Bool}
    (hstatement : statement.Placed outermost) (hdone : PlacedAll done.reverse outermost) :
    PlacedAll (statement :: done).reverse outermost := by
  rw [placedAll_iff] at hdone ⊢
  simpa [or_imp, forall_and, hstatement] using hdone

theorem actionsOf_reverse_cons (statement : Statement) (done : List Statement) :
    actionsOf (statement :: done).reverse = actionsOf done.reverse ++ statement.actions := by
  rw [List.reverse_cons, actionsOf_append, actionsOf, actionsOf, List.append_nil]

namespace OpenTree

variable {frames outer : List Frame} {done before : List Statement} {actions : List Action}

theorem statement {statement : Statement} (h : OpenTree frames done actions)
    (hplaced : statement.Placed frames.isEmpty) :
    OpenTree frames (statement :: done) (actions ++ statement.actions) := by
  cases h with
  | outermost hdone =>
      rw [← actionsOf_reverse_cons]
      exact outermost (placedAll_reverse_cons hplaced hdone)
  | first houter hhead hdone =>
      rw [List.append_assoc, List.cons_append, ← actionsOf_reverse_cons]
      exact first houter hhead (placedAll_reverse_cons hplaced hdone)
  | second houter hbranches hbody hdone =>
      rw [List.append_assoc, List.cons_append, List.append_assoc, List.cons_append,
        ← actionsOf_reverse_cons]
      exact second houter hbranches hbody (placedAll_reverse_cons hplaced hdone)

theorem opens {head : Head} (h : OpenTree frames done actions)
    (hhead : (Action.opens head).Stands frames.isEmpty) (line : Nat) :
    OpenTree (⟨head, line, done, none⟩ :: frames) [] (actions ++ [.opens head]) :=
  first h hhead trivial

theorem otherwise {frame : Frame} (h : OpenTree (frame :: outer) done actions)
    (hbranches : frame.head.branches = true) (hfirst : frame.first = none) :
    OpenTree ({ frame with first := some done.reverse } :: outer) [] (actions ++ [.otherwise]) := by
  cases h with
  | first houter _ hdone =>
      rw [List.append_assoc, List.cons_append]
      exact second houter hbranches hdone trivial
  | second => cases hfirst

theorem closes {frame : Frame} (h : OpenTree (frame :: outer) done actions) :
    OpenTree outer (frame.head.close frame.first done.reverse :: frame.before)
      (actions ++ [.closes]) := by
  cases h with
  | first houter hhead hdone =>
      rw [List.append_assoc, List.cons_append, ← actions_close_none]
      exact houter.statement (placed_close_none hhead hdone)
  | second houter hbranches hbody hdone =>
      rw [List.append_assoc, List.cons_append, ← actions_close_some hbranches]
      exact houter.statement (placed_close_some hbranches hbody hdone _)

end OpenTree

variable {known : Text → Bool}

/-- What is a statement by itself is written as it was read. -/
theorem actions_of_reads_whole {token : Token} {statement : Statement}
    (hreads : token.Reads known (.whole statement)) : statement.actions = [.whole statement] := by
  cases hreads with
  | text content => rfl
  | action _ h =>
      cases h with
      | keyword keyword h => cases h; rfl
      | output _ _ => rfl

theorem placed_of_reads_whole {token : Token} {statement : Statement}
    (hreads : token.Reads known (.whole statement)) (outermost : Bool) :
    statement.Placed outermost := by
  cases hreads with
  | text content => trivial
  | action _ h =>
      cases h with
      | keyword keyword h => cases h; trivial
      | output _ _ => trivial

/-- The tree is written as these actions and then as the tokens read. -/
def Continues (known : Text → Bool) (actions : List Action) (tokens : List Token)
    (tree : List Statement) : Prop :=
  PlacedAll tree true ∧
    ∃ more, List.Forall₂ (Token.Reads known) tokens more ∧ actionsOf tree = actions ++ more

theorem Continues.cons {actions : List Action} {action : Action} {token : Token}
    {rest : List Token} {tree : List Statement} (hreads : token.Reads known action)
    (h : Continues known (actions ++ [action]) rest tree) :
    Continues known actions (token :: rest) tree := by
  obtain ⟨hplaced, more, hrest, htree⟩ := h
  refine ⟨hplaced, action :: more, .cons hreads hrest, ?_⟩
  rw [htree, List.append_assoc, List.singleton_append]

theorem statementsFrom_sound {frames : List Frame} {done : List Statement} {tokens : List Token}
    {tree : List Statement} (h : statementsFrom known frames done tokens = .ok tree)
    {actions : List Action} (hopen : OpenTree frames done actions) :
    Continues known actions tokens tree := by
  fun_induction statementsFrom known frames done tokens generalizing actions with
  | case1 done =>
      obtain ⟨hdone⟩ := hopen
      obtain rfl := Except.ok.inj h
      exact ⟨hdone, [], .nil, (List.append_nil _).symm⟩
  | case3 frames done content rest ih =>
      exact (ih h (hopen.statement trivial)).cons (.text content)
  | case5 frames done body line rest statement hread ih =>
      obtain ⟨hreads, -⟩ := readAction_eq_ok_iff.mp hread
      have hmore := hopen.statement (placed_of_reads_whole hreads frames.isEmpty)
      rw [actions_of_reads_whole hreads] at hmore
      exact (ih h hmore).cons hreads
  | case6 frames done body line rest head hread ih =>
      obtain ⟨hreads, hhead⟩ := readAction_eq_ok_iff.mp hread
      exact (ih h (hopen.opens hhead line)).cons hreads
  | case10 done body line rest frame outer hbranches hfirst hread ih =>
      obtain ⟨hreads, -⟩ := readAction_eq_ok_iff.mp hread
      have hbranches : frame.head.branches = true := by simpa using hbranches
      have hfirst : frame.first = none := by simpa using hfirst
      exact (ih h (hopen.otherwise hbranches hfirst)).cons hreads
  | case12 done body line rest frame outer hread ih =>
      obtain ⟨hreads, -⟩ := readAction_eq_ok_iff.mp hread
      exact (ih h hopen.closes).cons hreads
  -- In all other cases a fault is reported.
  | case2 | case4 | case7 | case8 | case9 | case11 => cases h

end Soundness

/-- Reading accepts exactly the tokens that spell a tree, and gives this tree. -/
theorem statements_eq_ok_iff {known : Text → Bool} {tokens : List Token} {tree : List Statement} :
    statements known tokens = .ok tree ↔ Spells known tree tokens := by
  constructor
  · intro h
    obtain ⟨hplaced, more, hreads, htree⟩ := statementsFrom_sound h (.outermost trivial)
    exact ⟨by rwa [htree], hplaced⟩
  · rintro ⟨hreads, hplaced⟩
    have hread := addsAll tree [] hplaced tokens [] [] hreads
    rw [List.append_nil, List.append_nil, statementsFrom, List.reverse_reverse] at hread
    exact hread

end PageTemplates.Template
