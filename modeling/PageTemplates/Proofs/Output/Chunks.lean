import PageTemplates.Output.Chunks
import PageTemplates.Proofs.Output.Writes

/-!
What is sent in chunks and what is collected are together what was written, in the
same order.  After a flush all of it is sent.
-/

namespace PageTemplates.Output

open Utf8 (Bytes)

namespace Chunks

/-- All bytes so far: those that were sent, and then those that are collected. -/
def bytes (c : Chunks) : Bytes :=
  c.toList.flatten ++ c.pending.toList

theorem bytes_empty : empty.bytes = [] := rfl

theorem bytes_send (c : Chunks) : c.send.bytes = c.bytes := by
  simp [bytes, send, toList]

theorem bytes_write (written : Bytes) (c : Chunks) :
    (c.write written).bytes = c.bytes ++ written := by
  have hcollect : bytes { c with pending := c.pending ++ written } = c.bytes ++ written := by
    simp [bytes, toList]
  rw [write]
  split
  · rw [bytes_send, hcollect]
  · exact hcollect

theorem pending_flush (c : Chunks) : c.flush.pending = #[] := by
  rw [flush]
  split
  · next hempty => exact Array.isEmpty_iff.mp hempty
  · rfl

theorem bytes_flush (c : Chunks) : c.flush.bytes = c.bytes := by
  rw [flush]
  split
  · rfl
  · exact bytes_send c

theorem flatten_flush (c : Chunks) : c.flush.toList.flatten = c.bytes := by
  rw [← bytes_flush, bytes, pending_flush]
  exact (List.append_nil _).symm

end Chunks

/-- The sink of chunks takes all writes. -/
theorem feed_chunked (writes : List Bytes) (c : Chunks) :
    (chunked.feed writes c).2 = none ∧
      (chunked.feed writes c).1.bytes = c.bytes ++ writes.flatten := by
  induction writes generalizing c with
  | nil => exact ⟨rfl, (List.append_nil _).symm⟩
  | cons written rest ih =>
      obtain ⟨htaken, hbytes⟩ := ih (c.write written)
      refine ⟨htaken, hbytes.trans ?_⟩
      rw [Chunks.bytes_write, List.append_assoc, List.flatten_cons]

end PageTemplates.Output
