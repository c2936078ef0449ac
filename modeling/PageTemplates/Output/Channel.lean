import PageTemplates.Output.Chunks

/-!
Chunks on their way to a reader.  A few of them may wait until the reader takes them; with more to send
the writer stands still.  The reader may leave at any time: then what waits is lost, and the next chunk
ends the writing.
-/

namespace PageTemplates.Output

open Utf8 (Bytes)

/-- What a writer of chunks can be asked to do. -/
inductive Call where
  | write (bytes : Bytes)
  | flush

namespace Chunks

def perform (c : Chunks) : Call → Chunks
  | .write bytes => c.write bytes
  | .flush => c.flush

/-- The chunks that a call sends. -/
def sentBy (c : Chunks) (call : Call) : List Bytes :=
  (c.perform call).toList.drop c.toList.length

end Chunks

/-- How many chunks of a response may wait for its reader. -/
def maxWaiting : Nat := 4

/-- A writer and a reader at one moment, and what is between them. -/
structure Channel where
  /-- How many chunks may wait. -/
  most : Nat
  /-- What the writer is still to do, first to last. -/
  calls : List Call
  writer : Chunks
  /-- The chunks that were sent and not yet taken, first to last. -/
  waiting : List Bytes
  /-- The chunks that the reader has taken, first to last. -/
  received : List Bytes
  /-- Whether the reader has left. -/
  left : Bool

namespace Channel

/-- Before some writes and the flush after them. -/
def start (most : Nat) (writes : List Bytes) : Channel :=
  ⟨most, writes.map .write ++ [.flush], .empty, [], [], false⟩

/-- Something that may happen next. -/
inductive Event where
  /-- The writer does the next of its calls. -/
  | call
  /-- The reader takes a chunk. -/
  | take
  | leave

/-- The next call of the writer.  When it sends a chunk and the reader has left, it fails and is the last;
when too many chunks are waiting, nothing is done yet. -/
def call (ch : Channel) : Channel :=
  match ch.calls with
  | [] => ch
  | next :: rest =>
    let sent := ch.writer.sentBy next
    let after := { ch with calls := rest, writer := ch.writer.perform next }
    if sent.isEmpty then after
    else if ch.left then { after with calls := [] }
    else if ch.most ≤ ch.waiting.length then ch
    else { after with waiting := ch.waiting ++ sent }

/-- The first of the waiting chunks given to the reader. -/
def take (ch : Channel) : Channel :=
  match ch.waiting with
  | [] => ch
  | chunk :: rest => { ch with waiting := rest, received := ch.received ++ [chunk] }

def leave (ch : Channel) : Channel :=
  { ch with waiting := [], left := true }

def step (ch : Channel) : Event → Channel
  | .call => ch.call
  | .take => ch.take
  | .leave => ch.leave

/-- The channel after some events, first to last. -/
def run (ch : Channel) (events : List Event) : Channel :=
  events.foldl step ch

end Channel
end PageTemplates.Output
