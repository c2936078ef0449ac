import PageTemplates.Output.Sink

/-!
Bytes sent in chunks.  Writes are collected, and after a write that brings the collected bytes to the size
of a chunk they are sent; the rest is sent at the end.
-/

namespace PageTemplates.Output

open Utf8 (Bytes)

/-- How many collected bytes make a chunk. -/
def chunkSize : Nat := 8192

/-- What was sent and what is collected. -/
structure Chunks where
  /-- The chunks that were sent, first to last. -/
  sent : Array Buffer
  /-- How many bytes they have. -/
  sentBytes : Nat
  /-- The bytes that are not yet sent. -/
  pending : Buffer
deriving Inhabited

namespace Chunks

def empty : Chunks :=
  ⟨#[], 0, #[]⟩

def send (c : Chunks) : Chunks :=
  ⟨c.sent.push c.pending, c.sentBytes + c.pending.size, #[]⟩

def write (bytes : Bytes) (c : Chunks) : Chunks :=
  let c := { c with pending := c.pending ++ bytes }
  if chunkSize ≤ c.pending.size then c.send else c

/-- The rest sent, if there is any. -/
def flush (c : Chunks) : Chunks :=
  if c.pending.isEmpty then c else c.send

def toList (c : Chunks) : List Bytes :=
  c.sent.toList.map Array.toList

end Chunks

/-- The sink that sends in chunks to a reader who is there to the end. -/
def chunked : Sink Chunks where
  write bytes c := (c.write bytes, none)

end PageTemplates.Output
