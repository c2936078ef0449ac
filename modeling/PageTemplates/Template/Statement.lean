import PageTemplates.Template.Command
import PageTemplates.Template.Source

/-!
Statements: the concrete tree that the tokens of a source make, and what a template keeps of it.  The
tree is built in one pass with a stack of the statements that are still open.
-/

namespace PageTemplates.Template

/-- A statement as it stands in a source. -/
inductive Statement where
  | text (content : Text)
  | output (expr : Expr)
  | template (name : Text) (arg : Option Expr)
  | cond (test : Expr) (yes : List Statement) (no : Option (List Statement))
  | range (subject : Expr) (line : Nat) (body : List Statement) (otherwise : Option (List Statement))
  | block (name : Text) (arg : Option Expr) (body : List Statement)
  | define (name : Text) (body : List Statement)
deriving Inhabited

/-- The head of a statement that has a body. -/
inductive Head where
  | cond (test : Expr)
  | range (subject : Expr) (line : Nat)
  | block (name : Text) (arg : Option Expr)
  | define (name : Text)

namespace Head

def keyword : Head → Keyword
  | cond _ => .cond
  | range _ _ => .range
  | block _ _ => .block
  | define _ => .define

/-- Whether a statement can have a second branch. -/
def branches : Head → Bool
  | cond _ | range _ _ => true
  | block _ _ | define _ => false

/-- The statement with this head, the body before `else` if there was one, and the last body. -/
def close (head : Head) (first : Option (List Statement)) (last : List Statement) : Statement :=
  match head, first with
  | cond test, none => .cond test last none
  | cond test, some yes => .cond test yes (some last)
  | range subject line, none => .range subject line last none
  | range subject line, some body => .range subject line body (some last)
  | block name arg, _ => .block name arg last
  | define name, _ => .define name last

end Head

/-- What an action does to the tree. -/
inductive Action where
  /-- It is a statement by itself. -/
  | whole (statement : Statement)
  /-- It begins a statement. -/
  | opens (head : Head)
  /-- It begins the second branch. -/
  | otherwise
  /-- It ends a statement. -/
  | closes

/-- The name of a template after a keyword, and the words after the name. -/
def templateName (keyword : Keyword) : List Word → Except ParseFault (Text × List Word)
  | .literal (.text name) :: rest => .ok (name, rest)
  | _ => .error (.missingName keyword)

/-- Refuses words where a keyword takes none. -/
def noMore (keyword : Keyword) (words : List Word) : Except ParseFault Unit :=
  if words.isEmpty then .ok () else .error (.extraArguments keyword)

/-- The action of a keyword and the words after it; `outermost` outside every other statement. -/
def keywordAction (known : Text → Bool) (line : Nat) (outermost : Bool) (keyword : Keyword)
    (rest : List Word) : Except ParseFault Action :=
  match keyword with
  | .close => (noMore .close rest).map fun _ => .closes
  | .otherwise => (noMore .otherwise rest).map fun _ => .otherwise
  | .define =>
    if outermost then
      (templateName .define rest).bind fun (name, rest) =>
        (noMore .define rest).map fun _ => .opens (.define name)
    else .error .nestedDefine
  | .block =>
    (templateName .block rest).bind fun (name, rest) =>
      (command? known line rest).map fun arg => .opens (.block name arg)
  | .template =>
    (templateName .template rest).bind fun (name, rest) =>
      (command? known line rest).map fun arg => .whole (.template name arg)
  | .cond => (command known line rest).map fun test => .opens (.cond test)
  | .range => (command known line rest).map fun subject => .opens (.range subject line)

/-- The action of some words: that of the keyword they begin with, or the output of a command. -/
def actionOf (known : Text → Bool) (line : Nat) (outermost : Bool) (words : List Word) :
    Except ParseFault Action :=
  match words with
  | [] => .error .missingValue
  | .name word :: rest =>
    match Keyword.ofWord? word with
    | some keyword => keywordAction known line outermost keyword rest
    | none => (command known line words).map fun e => .whole (.output e)
  | _ => (command known line words).map fun e => .whole (.output e)

def readAction (known : Text → Bool) (line : Nat) (outermost : Bool) (body : Text) :
    Except ParseError Action :=
  ((words body).bind (actionOf known line outermost)).mapError (⟨line, ·⟩)

/-- A statement that is still open. -/
structure Frame where
  head : Head
  line : Nat
  /-- The statements before it, last to first. -/
  before : List Statement
  /-- Its first branch, once the second has begun. -/
  first : Option (List Statement)

/-- The statements of the tokens, where `frames` are the open statements, innermost first, and `done`
the statements of the innermost body so far, last to first. -/
def statementsFrom (known : Text → Bool) :
    List Frame → List Statement → List Token → Except ParseError (List Statement)
  | [], done, [] => .ok done.reverse
  | frame :: _, _, [] => .error ⟨frame.line, .unclosedStatement frame.head.keyword⟩
  | frames, done, .text content :: rest => statementsFrom known frames (.text content :: done) rest
  | frames, done, .action body line :: rest =>
    match readAction known line frames.isEmpty body with
    | .error e => .error e
    | .ok (.whole statement) => statementsFrom known frames (statement :: done) rest
    | .ok (.opens head) => statementsFrom known (⟨head, line, done, none⟩ :: frames) [] rest
    | .ok .otherwise =>
      match frames with
      | [] => .error ⟨line, .unexpectedElse⟩
      | frame :: outer =>
        if !frame.head.branches then .error ⟨line, .elseInside frame.head.keyword⟩
        else if frame.first.isSome then .error ⟨line, .secondElse frame.head.keyword⟩
        else statementsFrom known ({ frame with first := some done.reverse } :: outer) [] rest
    | .ok .closes =>
      match frames with
      | [] => .error ⟨line, .unexpectedEnd⟩
      | frame :: outer =>
        statementsFrom known outer (frame.head.close frame.first done.reverse :: frame.before) rest

def statements (known : Text → Bool) (tokens : List Token) : Except ParseError (List Statement) :=
  statementsFrom known [] [] tokens

mutual
/-- The steps that a statement leaves in its place: a block is run there, a definition is not. -/
def Statement.nodes : Statement → List Node
  | .text content => [.text content]
  | .output e => [.output e]
  | .template name arg => [.template name arg]
  | .cond test yes no => [.cond test (nodesOf yes) (nodesOfBranch no)]
  | .range subject line body otherwise => [.range subject (nodesOf body) (nodesOfBranch otherwise) line]
  | .block name arg _ => [.template name (some (arg.getD (.field [])))]
  | .define _ _ => []
termination_by structural statement => statement

def nodesOf : List Statement → List Node
  | [] => []
  | statement :: rest => statement.nodes ++ nodesOf rest
termination_by structural statements => statements

/-- The steps of a second branch, none when it is missing. -/
def nodesOfBranch : Option (List Statement) → List Node
  | none => []
  | some body => nodesOf body
termination_by structural branch => branch
end

mutual
/-- The templates that a statement defines, in the order in which they end. -/
def Statement.definitions : Statement → List (Text × List Node)
  | .text _ | .output _ | .template _ _ => []
  | .cond _ yes no => definitionsOf yes ++ definitionsOfBranch no
  | .range _ _ body otherwise => definitionsOf body ++ definitionsOfBranch otherwise
  | .block name _ body => definitionsOf body ++ [(name, nodesOf body)]
  | .define name body => definitionsOf body ++ [(name, nodesOf body)]
termination_by structural statement => statement

def definitionsOf : List Statement → List (Text × List Node)
  | [] => []
  | statement :: rest => statement.definitions ++ definitionsOf rest
termination_by structural statements => statements

def definitionsOfBranch : Option (List Statement) → List (Text × List Node)
  | none => []
  | some body => definitionsOf body
termination_by structural branch => branch
end

/-- A source that has been read: its own steps and the templates that it defines. -/
structure Parsed where
  body : List Node
  definitions : List (Text × List Node)

/-- What is left of some statements. -/
def Parsed.ofStatements (statements : List Statement) : Parsed :=
  ⟨nodesOf statements, definitionsOf statements⟩

/-- A source, read with the functions that it may call. -/
def parse (known : Text → Bool) (source : Text) : Except ParseError Parsed :=
  ((tokenize source).bind (statements known)).map Parsed.ofStatements

end PageTemplates.Template
