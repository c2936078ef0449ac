import PageTemplates.Text.Utf8

/-!
Sinks: where the bytes of a page go, one write after the other.  A write that fails may still have
taken some of its bytes, so the state after it is part of the answer.
-/

namespace PageTemplates.Output

open Utf8 (Bytes)

/-- A place for bytes, with states `σ`.  A write answers the state after it, and the reason when it
fails. -/
structure Sink (σ : Type) where
  write : Bytes → σ → σ × Option String

/-- Bytes kept in the order in which they were written. -/
abbrev Buffer := Array UInt8

def Buffer.bytes (buffer : Buffer) : Bytes :=
  buffer.toList

def buffer : Sink Buffer where
  write bytes kept := (kept ++ bytes, none)

/-- A buffer that takes a limited number of bytes. -/
structure Limited where
  /-- How many more bytes it takes. -/
  room : Nat
  kept : Buffer
deriving Inhabited

/-- The sink that takes as many bytes as there is room for.  The write that goes beyond fails after
filling the room; an empty one never fails. -/
def limited : Sink Limited where
  write bytes s :=
    (⟨s.room - bytes.length, s.kept ++ bytes.take s.room⟩,
      if bytes.length ≤ s.room then none else some "sink full")

/-- The sink that keeps each write as it came. -/
def log : Sink (List Bytes) where
  write bytes writes := (writes ++ [bytes], none)

end PageTemplates.Output
