import PageTemplates.Output.Chunks
import PageTemplates.Site.Rendered

/-!
Responses to requests for pages.  A streamed page is sent in chunks while it is written, or collected
first when there is nothing that could send it meanwhile; a failure then ends the body early and leaves the
status.  A buffered page that fails is an error of the server.
-/

namespace PageTemplates.Site

open Utf8 (Bytes)

/-- A response: its status, the kind of its content, and its body in chunks, none of them empty. -/
structure Response where
  status : Nat
  contentType : Option String
  chunks : List Bytes
deriving Repr, DecidableEq

namespace Response

/-- The response to what is not there. -/
def serverError : Response :=
  ⟨500, none, []⟩

def whole (body : Bytes) : Response :=
  ⟨200, some htmlType, if body = [] then [] else [body]⟩

def body (r : Response) : Bytes :=
  r.chunks.flatten

/-- What a client sees that reads at most `n` chunks. -/
def take (n : Nat) (r : Response) : Response :=
  { r with chunks := r.chunks.take n }

end Response

/-- The response to a request for a page; `sending` when chunks can be sent while the page is
written. -/
def Rendered.respond (sending : Bool) (r : Rendered) : Response :=
  match r with
  | failed _ _ => .serverError
  | ready _ _ _ true =>
    if sending then
      let (chunks, _) := r.render Output.chunked .empty
      ⟨200, some htmlType, chunks.flush.toList⟩
    else
      let (out, _) := r.render Output.buffer #[]
      .whole out.toList
  | ready _ _ _ false =>
    match r.render Output.buffer #[] with
    | (out, .ok ()) => .whole out.toList
    | (_, .error _) => .serverError

end PageTemplates.Site
