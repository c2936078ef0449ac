import PageTemplates.Site.Cache

/-!
Pages bound to their data, and their writing.  A buffered page is written only when all of it could be
made; a streamed page is written as it is made.
-/

namespace PageTemplates.Site

open Output (Sink)
open Template (Namespace)

def htmlType : String := "text/html; charset=utf-8"

/-- A page bound to its data, or the reason why there is none. -/
inductive Rendered where
  | ready (name : Text) (view : Namespace) (data : Value) (stream : Bool)
  | failed (name : Text) (error : PageError)
deriving Inhabited

namespace Rendered

variable {σ : Type}

def name : Rendered → Text
  | ready name _ _ _ | failed name _ => name

def isReady : Rendered → Bool
  | ready _ _ _ _ => true
  | failed _ _ => false

def isStreamed : Rendered → Bool
  | ready _ _ _ stream => stream
  | failed _ _ => false

def contentType? (r : Rendered) : Option String :=
  if r.isReady then some htmlType else none

/-- What is left of a run in the sink, with its failure named after the page. -/
def named (name : Text) (outcome : Template.Outcome σ) : σ × Except PageError Unit :=
  (outcome.1, outcome.2.mapError (.execute name))

def render (sink : Sink σ) (r : Rendered) (s : σ) : σ × Except PageError Unit :=
  match r with
  | failed name error => (s, .error (.render name error))
  | ready name view data true => named name (view.execute sink data s)
  | ready name view data false =>
    match view.execute Output.buffer data #[] with
    | (_, .error e) => (s, .error (.execute name e))
    | (out, .ok ()) =>
      match sink.write out.toList s with
      | (s, none) => (s, .ok ())
      | (s, some reason) => (s, .error (.execute name (.write reason)))

end Rendered
end PageTemplates.Site
