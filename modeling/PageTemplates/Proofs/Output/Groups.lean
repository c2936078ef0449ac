import Mathlib.Data.List.Flatten
import Mathlib.Data.List.Infix
import PageTemplates.Proofs.Output.Chunks

/-!
Which writes make up which chunk.  Chunks are cut between writes and never inside one:
each is a group of writes in a row, closed by the first write that brings it to the size
of a chunk.  What is collected is the group that is still open, and a flush closes it.
-/

namespace PageTemplates.Output

open Utf8 (Bytes)

variable {writes current : List Bytes} {c : Chunks} {closed : List (List Bytes)}

namespace Chunks

theorem toList_send (c : Chunks) : c.send.toList = c.toList ++ [c.pending.toList] := by
  simp [toList, send]

/-- The bytes are counted when they are sent. -/
def Counted (c : Chunks) : Prop :=
  c.sentBytes = c.toList.flatten.length

theorem Counted.send (h : c.Counted) : c.send.Counted := by
  have hcount : c.send.sentBytes = c.sentBytes + c.pending.size := rfl
  have hpending : c.pending.toList.length = c.pending.size := Array.length_toList
  rw [Counted, toList_send, List.flatten_concat, List.length_append, hpending, ← h, hcount]

theorem Counted.write (h : c.Counted) (bytes : Bytes) : (c.write bytes).Counted := by
  have hcollect : Counted { c with pending := c.pending ++ bytes } := h
  rw [Chunks.write]
  split
  · exact hcollect.send
  · exact hcollect

theorem Counted.flush (h : c.Counted) : c.flush.Counted := by
  rw [Chunks.flush]
  split
  · exact h
  · exact h.send

end Chunks

/-! ## The open group -/

/-- What a writer of chunks has made of some writes: the closed groups were sent, and the open one is
collected. -/
structure Collects (writes : List Bytes) (c : Chunks) (closed : List (List Bytes))
    (current : List Bytes) : Prop where
  covers : writes = closed.flatten ++ current
  sent : c.toList = closed.map List.flatten
  pending : c.pending.toList = current.flatten
  pending_lt : c.pending.size < chunkSize
  full : ∀ group ∈ closed, chunkSize ≤ group.flatten.length
  short : ∀ group ∈ closed, group.dropLast.flatten.length < chunkSize

theorem collects_empty : Collects [] .empty [] [] where
  covers := rfl
  sent := rfl
  pending := rfl
  pending_lt := by decide
  full := List.forall_mem_nil _
  short := List.forall_mem_nil _

namespace Collects

theorem length_current (h : Collects writes c closed current) :
    current.flatten.length < chunkSize := by
  rw [← h.pending, Array.length_toList]
  exact h.pending_lt

/-- One more write joins the open group, and closes it when that is large enough. -/
theorem write (h : Collects writes c closed current) (bytes : Bytes) :
    ∃ closed current, Collects (writes ++ [bytes]) (c.write bytes) closed current := by
  have hcovers : writes ++ [bytes] = closed.flatten ++ (current ++ [bytes]) := by
    rw [h.covers, List.append_assoc]
  have hpending : (c.pending ++ bytes).toList = (current ++ [bytes]).flatten := by
    simp [h.pending]
  rw [Chunks.write]
  split
  · next hfull =>
    have hsize : chunkSize ≤ (current ++ [bytes]).flatten.length := by
      rwa [← hpending, Array.length_toList]
    refine ⟨closed ++ [current ++ [bytes]], [], ?_, ?_, rfl, Nat.zero_lt_succ _, ?_, ?_⟩
    · rw [hcovers, List.flatten_concat, List.append_nil]
    · rw [Chunks.toList_send, List.map_append, List.map_singleton, ← hpending, ← h.sent]
      rfl
    · exact List.forall_mem_append.mpr ⟨h.full, List.forall_mem_singleton.mpr hsize⟩
    · refine List.forall_mem_append.mpr ⟨h.short, List.forall_mem_singleton.mpr ?_⟩
      rw [List.dropLast_concat]
      exact h.length_current
  · next hfull =>
    exact ⟨closed, current ++ [bytes], hcovers, h.sent, hpending, Nat.lt_of_not_le hfull,
      h.full, h.short⟩

end Collects

/-- All writes are taken, one after the other. -/
theorem feed_chunked_eq (writes : List Bytes) (c : Chunks) :
    chunked.feed writes c = (writes.foldl (fun c bytes => c.write bytes) c, none) := by
  induction writes generalizing c with
  | nil => rfl
  | cons bytes rest ih => exact ih (c.write bytes)

/-- What holds before all writes, and of one write more when it holds before it, holds after any. -/
theorem feed_chunked_induction {motive : List Bytes → Chunks → Prop}
    (hempty : motive [] .empty)
    (hwrite : ∀ writes c bytes, motive writes c → motive (writes ++ [bytes]) (c.write bytes))
    (writes : List Bytes) : motive writes (chunked.feed writes .empty).1 := by
  rw [feed_chunked_eq]
  induction writes using List.reverseRecOn with
  | nil => exact hempty
  | append_singleton writes bytes ih =>
      rw [List.foldl_concat]
      exact hwrite writes _ bytes ih

theorem counted_feed (writes : List Bytes) : (chunked.feed writes .empty).1.Counted :=
  feed_chunked_induction (motive := fun _ c => c.Counted) rfl
    (fun _ _ bytes h => h.write bytes) writes

theorem collects_feed (writes : List Bytes) :
    ∃ closed current, Collects writes (chunked.feed writes .empty).1 closed current := by
  refine feed_chunked_induction (motive := fun writes c =>
    ∃ closed current, Collects writes c closed current) ⟨[], [], collects_empty⟩ ?_ writes
  rintro writes c bytes ⟨closed, current, h⟩
  exact h.write bytes

/-! ## The chunks at the end -/

/-- How some writes are put together to chunks: each chunk is a group of writes in a row, and none is
left but empty ones.  Without its last write a group is smaller than a chunk; with it, it is not, except
that the last group may be. -/
structure GroupedInto (writes chunks : List Bytes) (groups : List (List Bytes)) : Prop where
  chunks : chunks = groups.map List.flatten
  covers : ∃ rest, writes = groups.flatten ++ rest ∧ rest.flatten = []
  ne_nil : ∀ group ∈ groups, group.flatten ≠ []
  full : ∀ group ∈ groups.dropLast, chunkSize ≤ group.flatten.length
  short : ∀ group ∈ groups, group.dropLast.flatten.length < chunkSize

theorem Collects.flush (h : Collects writes c closed current) :
    ∃ groups, GroupedInto writes c.flush.toList groups := by
  have hne : ∀ group ∈ closed, group.flatten ≠ [] := by
    intro group hgroup hnil
    have hfull := h.full group hgroup
    rw [hnil] at hfull
    exact absurd hfull (by decide)
  rw [Chunks.flush]
  split
  · next hempty =>
    have hrest : current.flatten = [] := by
      rw [← h.pending, Array.isEmpty_iff.mp hempty]
    exact ⟨closed, h.sent, ⟨current, h.covers, hrest⟩, hne,
      fun group hgroup => h.full group (List.mem_of_mem_dropLast hgroup), h.short⟩
  · next hsome =>
    refine ⟨closed ++ [current], ?_, ⟨[], by simp [h.covers], rfl⟩, ?_, ?_, ?_⟩
    · rw [Chunks.toList_send, h.sent, h.pending, List.map_append, List.map_singleton]
    · refine List.forall_mem_append.mpr ⟨hne, List.forall_mem_singleton.mpr ?_⟩
      rw [← h.pending]
      simpa using hsome
    · rw [List.dropLast_concat]
      exact h.full
    · refine List.forall_mem_append.mpr ⟨h.short, List.forall_mem_singleton.mpr ?_⟩
      exact Nat.lt_of_le_of_lt (List.dropLast_sublist current).flatten.length_le h.length_current

theorem GroupedInto.chunk_ne_nil {chunks : List Bytes} {groups : List (List Bytes)}
    (h : GroupedInto writes chunks groups) : ∀ chunk ∈ chunks, chunk ≠ [] := by
  rw [h.chunks, List.forall_mem_map]
  exact h.ne_nil

end PageTemplates.Output
