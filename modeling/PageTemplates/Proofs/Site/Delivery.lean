import PageTemplates.Proofs.Output.Channel
import PageTemplates.Proofs.Template.Oblivious
import PageTemplates.Site.Response

/-!
How a page gets to its reader.  A streamed page is written while it is made and a
buffered one when it is made; a response sends it as a whole or in chunks.  Each of
these ways is compared with one run of the page into an empty buffer.
-/

namespace PageTemplates

open Output (Buffer Chunks Limited Sink limited)
open Template (Namespace Outcome)

/-- All that a namespace writes for some data, and how it ends. -/
def Template.Namespace.page (ns : Namespace) (data : Value) : Outcome Buffer :=
  ns.execute Output.buffer data #[]

namespace Site

variable {σ : Type}

/-! ## Sinks -/

namespace Rendered

variable {name : Text} {view : Namespace} {data : Value}

theorem render_buffered_of_error {e : Template.RunError} (hpage : (view.page data).2 = .error e)
    (sink : Sink σ) (s : σ) :
    (ready name view data false).render sink s = (s, .error (.execute name e)) := by
  have hwhole : view.execute Output.buffer data #[] = ((view.page data).1, .error e) :=
    Prod.ext rfl hpage
  simp only [render, hwhole]

theorem render_buffered_of_ok (hpage : (view.page data).2 = .ok ()) (sink : Sink σ) (s : σ) :
    (ready name view data false).render sink s =
      named name (Outcome.replay sink ([(view.page data).1.toList], (view.page data).2) s) := by
  have hwhole : view.execute Output.buffer data #[] = ((view.page data).1, .ok ()) :=
    Prod.ext rfl hpage
  simp only [render, hwhole, hpage, Outcome.replay, Sink.feed_singleton]
  cases sink.write (view.page data).1.toList s with
  | mk t failure => cases failure <;> rfl

/-- A page in a sink with limited room.  A streamed page leaves as much of itself as there
is room for, and fails with the sink when that is not all.  A buffered page that fails
leaves nothing; another leaves what the streamed one leaves.  So a page that can be made
is written in both ways alike, here and, as the last part says, in every sink that is
`Seamless`: one that takes writes in a row as it takes all their bytes in one write.  The
streamed page comes in many writes and the buffered one in a single write, so a sink that
can tell them apart may fail between two writes of the first and take the second. -/
theorem render_limited (name : Text) (view : Namespace) (data : Value) (room : Nat) :
    view.execute limited data ⟨room, #[]⟩ = (view.page data).cutOff room ∧
      (∀ template, view.executeTemplate limited template data ⟨room, #[]⟩ =
        (view.executeTemplate Output.buffer template data #[]).cutOff room) ∧
      (ready name view data true).render limited ⟨room, #[]⟩ =
        named name ((view.page data).cutOff room) ∧
      (ready name view data false).render limited ⟨room, #[]⟩ =
        (match (view.page data).2 with
        | .ok () => named name ((view.page data).cutOff room)
        | .error e => (⟨room, #[]⟩, .error (.execute name e))) ∧
      ((view.page data).2 = .ok () →
        (ready name view data true).render limited ⟨room, #[]⟩ =
            (ready name view data false).render limited ⟨room, #[]⟩ ∧
          ∀ (σ : Type) (sink : Sink σ), sink.Seamless → ∀ s,
            (ready name view data true).render sink s =
              (ready name view data false).render sink s) := by
  have hexecute : view.execute limited data ⟨room, #[]⟩ = (view.page data).cutOff room :=
    (view.oblivious_execute data).run_limited room
  have hsame : (view.page data).2 = .ok () → ∀ (σ : Type) (sink : Sink σ), sink.Seamless →
      ∀ s, (ready name view data true).render sink s =
        (ready name view data false).render sink s := by
    intro hpage σ sink hsink s
    rw [render_buffered_of_ok hpage]
    exact congrArg (named name) ((view.oblivious_execute data).run_seamless hsink s)
  refine ⟨hexecute, ?_, congrArg (named name) hexecute, ?_, fun hpage => ⟨?_, hsame hpage⟩⟩
  · intro template
    exact (view.oblivious_executeTemplate template data).run_limited room
  · cases hpage : (view.page data).2 with
    | ok => rw [render_buffered_of_ok hpage, Template.replay_limited]
    | error e => rw [render_buffered_of_error hpage]
  · exact hsame hpage Limited limited Output.seamless_limited _

/-- The room ends in the middle of the second write of a page that can be made. -/
theorem render_limited_within_write :
    ∃ view : Namespace, (view.page .null).2 = .ok () ∧
      (view.page .null).1.toList = Utf8.encode "<p>&lt;</p>".toList ∧
      (ready [] view .null true).render limited ⟨5, #[]⟩ =
        (ready [] view .null false).render limited ⟨5, #[]⟩ ∧
      (ready [] view .null false).render limited ⟨5, #[]⟩ =
        (⟨0, (Utf8.encode "<p>&l".toList).toArray⟩, .error (.execute [] (.write "sink full"))) := by
  let view : Namespace := ⟨Table.empty, some [.text "<p>".toList,
    .output (.literal (.text "<".toList)), .text "</p>".toList], Table.empty⟩
  have hpage : view.page .null = ((Utf8.encode "<p>&lt;</p>".toList).toArray, .ok ()) := by rfl
  have hend : (view.page .null).2 = .ok () := by rw [hpage]
  obtain ⟨-, -, -, hbuffered, hsame⟩ := render_limited [] view .null 5
  refine ⟨view, hend, by rw [hpage], (hsame hend).1, ?_⟩
  rw [hbuffered, hpage]
  rfl

/-- A sink that takes one write and is closed by it. -/
def onceOnly : Sink (Option Utf8.Bytes) where
  write
    | bytes, none => (some bytes, none)
    | _, some kept => (some kept, some "closed")

-- `onceOnly` is not seamless: a page of two writes ends in it as it is streamed, and fits buffered.
example :
    let view : Namespace := ⟨Table.empty, some [.text ['a'], .text ['b']], Table.empty⟩
    (view.page .null).2 = .ok () ∧
      (ready [] view .null true).render onceOnly none =
        (some (Utf8.encode ['a']), .error (.execute [] (.write "closed"))) ∧
      (ready [] view .null false).render onceOnly none =
        (some (Utf8.encode ['a', 'b']), .ok ()) :=
  ⟨rfl, rfl, rfl⟩

end Rendered

/-! ## Responses -/

/-- A response that brings a page, or as much of it as could be made. -/
structure Response.Carries (r : Response) (page : Buffer) : Prop where
  status : r.status = 200
  contentType : r.contentType = some htmlType
  body : r.body = page.toList

theorem carries_whole (page : Buffer) : (Response.whole page.toList).Carries page where
  status := rfl
  contentType := rfl
  body := by
    rw [Response.whole, Response.body]
    split
    · next hempty => exact hempty.symm
    · simp

namespace Rendered

theorem carries_streamed (name : Text) (view : Namespace) (data : Value) (sending : Bool) :
    ((ready name view data true).respond sending).Carries (view.page data).1 := by
  cases sending with
  | true =>
      refine ⟨rfl, rfl, ?_⟩
      have hchunks := ((view.oblivious_execute data).run_chunked .empty).1
      rw [Chunks.bytes_empty, List.nil_append] at hchunks
      exact (Chunks.flatten_flush _).trans hchunks
  | false => exact carries_whole (view.page data).1

theorem carries_buffered (name : Text) {view : Namespace} {data : Value}
    (hpage : (view.page data).2 = .ok ()) (sending : Bool) :
    ((ready name view data false).respond sending).Carries (view.page data).1 := by
  have hwrite : Output.buffer.write (view.page data).1.toList #[] = ((view.page data).1, none) := by
    simp [Output.buffer]
  have hrender : (ready name view data false).render Output.buffer #[] =
      ((view.page data).1, .ok ()) := by
    rw [render_buffered_of_ok hpage, Outcome.replay, Sink.feed_singleton, hpage, hwrite]
    rfl
  simp only [respond, hrender]
  exact carries_whole (view.page data).1

theorem respond_buffered_of_error (name : Text) {view : Namespace} {data : Value}
    {e : Template.RunError} (hpage : (view.page data).2 = .error e) (sending : Bool) :
    (ready name view data false).respond sending = .serverError := by
  simp only [respond, render_buffered_of_error hpage]

/-- Every way of sending brings the same page.  A page that is not there is an error of the
server.  A streamed page is brought as far as it could be made, in chunks or as a whole; a
buffered page is brought when it could be made, and else it is an error of the server. -/
theorem respond_carries (r : Rendered) (sending : Bool) :
    match r with
    | failed _ _ => r.respond sending = ⟨500, none, []⟩
    | ready _ view data true => (r.respond sending).Carries (view.page data).1
    | ready _ view data false =>
      match view.page data with
      | (page, .ok ()) => (r.respond sending).Carries page
      | (_, .error _) => r.respond sending = ⟨500, none, []⟩ := by
  match r with
  | failed name error => rfl
  | ready name view data true => exact carries_streamed name view data sending
  | ready name view data false =>
      dsimp only
      rcases hpage : view.page data with ⟨page, e | _⟩
      · exact respond_buffered_of_error name (congrArg Prod.snd hpage) sending
      · have hcarries := carries_buffered name (congrArg Prod.snd hpage) sending
        rwa [hpage] at hcarries

/-! ## Readers who take their time -/

/-- A streamed page is sent in the chunks of its writes. -/
theorem chunks_streamed (name : Text) (view : Namespace) (data : Value) :
    ((ready name view data true).respond true).chunks =
      (Output.chunked.feed (view.execute Output.log data []).1 .empty).1.flush.toList := by
  have htaken := (Output.feed_chunked (view.execute Output.log data []).1 .empty).1
  have hrun : (view.execute Output.chunked data .empty).1 =
      (Output.chunked.feed (view.execute Output.log data []).1 .empty).1 :=
    congrArg Prod.fst ((view.oblivious_execute data _ Output.chunked .empty).trans
      (Outcome.replay_of_taken htaken))
  exact congrArg (·.flush.toList) hrun

/-- At any moment a reader has what is seen of the response by a client that reads so many chunks, whether
or not it has left; and while it is there, it can still get all of them. -/
theorem received_streamed (name : Text) (view : Namespace) (data : Value)
    (events : List Output.Channel.Event) :
    let response := (ready name view data true).respond true
    let writes := (view.execute Output.log data []).1
    let ch := (Output.Channel.start Output.maxWaiting writes).run events
    ch.received = (response.take ch.received.length).chunks ∧
      (ch.left = false → ∃ more, (ch.run more).received = response.chunks) := by
  intro response writes ch
  have hbrings := (Output.Channel.brings_start Output.maxWaiting writes).run events
  have hmost : 0 < ch.most := by
    rw [Output.Channel.most_run]
    exact (by decide : 0 < Output.maxWaiting)
  rw [Response.take, chunks_streamed]
  exact ⟨hbrings.received_eq_take, hbrings.exists_run_received_eq hmost⟩

end Rendered
end Site
end PageTemplates
