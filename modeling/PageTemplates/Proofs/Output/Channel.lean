import PageTemplates.Output.Channel
import PageTemplates.Proofs.Output.Groups

/-!
What a reader gets of a page that is sent in chunks.  Whatever the order in which writer
and reader act, and however often the writer has to wait, the reader takes the first of
the chunks that are sent to a reader who stays; and one who stays can take them all.
-/

namespace PageTemplates.Output

open Utf8 (Bytes)

/-! ## What calls send -/

namespace Chunks

/-- The writer after some calls, first to last. -/
def performAll (c : Chunks) (calls : List Call) : Chunks :=
  calls.foldl perform c

theorem toList_prefix_write (c : Chunks) (bytes : Bytes) : c.toList <+: (c.write bytes).toList := by
  rw [write]
  split
  · rw [toList_send]
    exact List.prefix_append _ _
  · exact List.prefix_rfl

theorem toList_prefix_flush (c : Chunks) : c.toList <+: c.flush.toList := by
  rw [flush]
  split
  · exact List.prefix_rfl
  · rw [toList_send]
    exact List.prefix_append _ _

theorem toList_prefix_perform (c : Chunks) (call : Call) :
    c.toList <+: (c.perform call).toList := by
  cases call with
  | write bytes => exact c.toList_prefix_write bytes
  | flush => exact c.toList_prefix_flush

theorem toList_append_sentBy (c : Chunks) (call : Call) :
    c.toList ++ c.sentBy call = (c.perform call).toList :=
  (List.prefix_append_drop (c.toList_prefix_perform call)).symm

/-- What was sent stays sent. -/
theorem toList_prefix_performAll (c : Chunks) (calls : List Call) :
    c.toList <+: (c.performAll calls).toList := by
  induction calls generalizing c with
  | nil => exact List.prefix_rfl
  | cons call rest ih => exact (c.toList_prefix_perform call).trans (ih (c.perform call))

theorem performAll_writes (writes : List Bytes) :
    Chunks.empty.performAll (writes.map .write ++ [.flush]) =
      (chunked.feed writes .empty).1.flush := by
  rw [feed_chunked_eq, performAll, List.foldl_concat, List.foldl_map]
  rfl

end Chunks

/-! ## One event -/

namespace Channel

variable {ch : Channel} {chunks : List Bytes}

/-- What the next call can come to: nothing yet, a call without a chunk, the failure of the writer, or a
chunk that waits. -/
theorem call_cases (ch : Channel) :
    ch.call = ch ∨ ∃ next rest, ch.calls = next :: rest ∧
      let after := { ch with calls := rest, writer := ch.writer.perform next }
      (ch.writer.sentBy next = [] ∧ ch.call = after) ∨
        (ch.left = true ∧ ch.call = { after with calls := [] }) ∨
        (ch.left = false ∧ ch.call = { after with waiting := ch.waiting ++ ch.writer.sentBy next }) := by
  cases hcalls : ch.calls with
  | nil =>
      left
      simp only [call, hcalls]
  | cons next rest =>
      simp only [call, hcalls]
      split
      · next hnone => exact .inr ⟨next, rest, rfl, .inl ⟨List.isEmpty_iff.mp hnone, rfl⟩⟩
      · split
        · next hleft => exact .inr ⟨next, rest, rfl, .inr (.inl ⟨hleft, rfl⟩)⟩
        · next hleft =>
          split
          · exact .inl rfl
          · exact .inr ⟨next, rest, rfl, .inr (.inr ⟨Bool.eq_false_iff.mpr hleft, rfl⟩)⟩

/-- Whether a channel brings some chunks: those that were taken and those that wait are the first of them.
While the reader is there they are all that was sent, and the calls to come send the others. -/
structure Brings (ch : Channel) (chunks : List Bytes) : Prop where
  ahead : ch.received ++ ch.waiting <+: chunks
  sent : ch.left = false → ch.received ++ ch.waiting = ch.writer.toList
  toCome : ch.left = false → (ch.writer.performAll ch.calls).toList = chunks

theorem brings_start (most : Nat) (writes : List Bytes) :
    (start most writes).Brings (chunked.feed writes .empty).1.flush.toList where
  ahead := List.nil_prefix
  sent _ := rfl
  toCome _ := congrArg Chunks.toList (Chunks.performAll_writes writes)

namespace Brings

theorem call (h : ch.Brings chunks) : ch.call.Brings chunks := by
  rcases ch.call_cases with hcall | ⟨next, rest, hcalls, hcases⟩
  · rwa [hcall]
  · have hsent := ch.writer.toList_append_sentBy next
    have htoCome : ch.left = false →
        ((ch.writer.perform next).performAll rest).toList = chunks := by
      intro hleft
      rw [← h.toCome hleft, hcalls]
      rfl
    rcases hcases with ⟨hnone, hcall⟩ | ⟨hleft, hcall⟩ | ⟨hleft, hcall⟩
    · rw [hcall]
      refine ⟨h.ahead, fun hleft => ?_, htoCome⟩
      rw [hnone, List.append_nil] at hsent
      exact (h.sent hleft).trans hsent
    · -- The reader is not there, so nothing is said of what is sent.
      rw [hcall]
      exact ⟨h.ahead, fun hthere => absurd (hleft.symm.trans hthere) nofun,
        fun hthere => absurd (hleft.symm.trans hthere) nofun⟩
    · rw [hcall]
      have hall : ch.received ++ (ch.waiting ++ ch.writer.sentBy next) =
          (ch.writer.perform next).toList := by
        rw [← List.append_assoc, h.sent hleft, hsent]
      refine ⟨?_, fun _ => hall, htoCome⟩
      change ch.received ++ (ch.waiting ++ ch.writer.sentBy next) <+: chunks
      rw [hall, ← htoCome hleft]
      exact Chunks.toList_prefix_performAll _ rest

theorem take (h : ch.Brings chunks) : ch.take.Brings chunks := by
  unfold Channel.take
  split
  · exact h
  · next chunk rest hwaiting =>
    have hsame : ch.received ++ [chunk] ++ rest = ch.received ++ ch.waiting := by
      rw [hwaiting, List.append_assoc, List.singleton_append]
    exact ⟨hsame ▸ h.ahead, fun hleft => hsame.trans (h.sent hleft), h.toCome⟩

theorem leave (h : ch.Brings chunks) : ch.leave.Brings chunks where
  ahead := by
    change ch.received ++ [] <+: chunks
    rw [List.append_nil]
    exact (List.prefix_append _ _).trans h.ahead
  sent := nofun
  toCome := nofun

theorem step (h : ch.Brings chunks) (event : Event) : (ch.step event).Brings chunks := by
  cases event with
  | call => exact h.call
  | take => exact h.take
  | leave => exact h.leave

/-! ## All events -/

theorem run (h : ch.Brings chunks) (events : List Event) : (ch.run events).Brings chunks := by
  induction events generalizing ch with
  | nil => exact h
  | cons event rest ih => exact ih (h.step event)

theorem received_eq_take (h : ch.Brings chunks) :
    ch.received = chunks.take ch.received.length :=
  List.prefix_iff_eq_take.mp ((List.prefix_append _ _).trans h.ahead)

/-- When nothing is left to do for writer and reader, all chunks have been taken. -/
theorem received_eq (h : ch.Brings chunks) (hleft : ch.left = false) (hcalls : ch.calls = [])
    (hwaiting : ch.waiting = []) : ch.received = chunks := by
  have hsent := h.sent hleft
  have htoCome := h.toCome hleft
  rw [hwaiting, List.append_nil] at hsent
  rw [hcalls] at htoCome
  exact hsent.trans htoCome

end Brings

theorem most_step (ch : Channel) (event : Event) : (ch.step event).most = ch.most := by
  cases event with
  | call =>
      change ch.call.most = ch.most
      rcases ch.call_cases with hcall | ⟨_, _, _, ⟨_, hcall⟩ | ⟨_, hcall⟩ | ⟨_, hcall⟩⟩
      all_goals rw [hcall]
  | take =>
      unfold Channel.step take
      dsimp only
      split
      · rfl
      · rfl
  | leave => rfl

theorem most_run (ch : Channel) (events : List Event) : (ch.run events).most = ch.most := by
  induction events generalizing ch with
  | nil => rfl
  | cons event rest ih => exact (ih (ch.step event)).trans (ch.most_step event)

theorem run_append (ch : Channel) (events more : List Event) :
    ch.run (events ++ more) = (ch.run events).run more :=
  List.foldl_append

/-- The reader can take all that waits. -/
theorem exists_run_taken (ch : Channel) : ∃ events,
    ch.run events = { ch with waiting := [], received := ch.received ++ ch.waiting } := by
  obtain ⟨most, calls, writer, waiting, received, left⟩ := ch
  induction waiting generalizing received with
  | nil => exact ⟨[], by simp [run]⟩
  | cons chunk rest ih =>
      obtain ⟨events, hevents⟩ := ih (received ++ [chunk])
      refine ⟨.take :: events, hevents.trans ?_⟩
      simp

/-- Where a chunk may wait and none does, the writer does its next call. -/
theorem calls_call {next : Call} {rest : List Call} (hcalls : ch.calls = next :: rest)
    (hmost : 0 < ch.most) (hleft : ch.left = false) (hwaiting : ch.waiting = []) :
    ch.call.calls = rest ∧ ch.call.most = ch.most ∧ ch.call.left = false := by
  have hroom : ¬ ch.most ≤ ch.waiting.length := by
    rw [hwaiting]
    exact Nat.not_le.mpr hmost
  unfold call
  simp only [hcalls, hleft, if_neg hroom]
  split
  · exact ⟨rfl, rfl, rfl⟩
  · exact ⟨rfl, rfl, rfl⟩

/-- While the reader is there, writer and reader can come to an end. -/
theorem exists_run_finished (ch : Channel) (hmost : 0 < ch.most) (hleft : ch.left = false) :
    ∃ events, (ch.run events).left = false ∧ (ch.run events).calls = [] ∧
      (ch.run events).waiting = [] := by
  generalize hcalls : ch.calls = calls
  induction calls generalizing ch with
  | nil =>
      obtain ⟨events, hevents⟩ := ch.exists_run_taken
      refine ⟨events, ?_⟩
      rw [hevents]
      exact ⟨hleft, hcalls, rfl⟩
  | cons next rest ih =>
      obtain ⟨events, hevents⟩ := ch.exists_run_taken
      obtain ⟨hrest, hsame, hthere⟩ : (ch.run events).call.calls = rest ∧
          (ch.run events).call.most = ch.most ∧ (ch.run events).call.left = false := by
        rw [hevents]
        exact calls_call hcalls hmost hleft rfl
      obtain ⟨more, hmore⟩ := ih (ch.run events).call (hsame ▸ hmost) hthere hrest
      refine ⟨events ++ .call :: more, ?_⟩
      rw [run_append]
      exact hmore

/-- One who stays can take all. -/
theorem Brings.exists_run_received_eq (h : ch.Brings chunks) (hmost : 0 < ch.most)
    (hleft : ch.left = false) : ∃ more, (ch.run more).received = chunks := by
  obtain ⟨more, hthere, hcalls, hwaiting⟩ := ch.exists_run_finished hmost hleft
  exact ⟨more, (h.run more).received_eq hthere hcalls hwaiting⟩

/-! ## After the reader has left -/

/-- Whether the reader has left, and with it what was on its way. -/
def Over (ch : Channel) : Prop :=
  ch.left = true ∧ ch.waiting = []

theorem over_leave (ch : Channel) : ch.leave.Over :=
  ⟨rfl, rfl⟩

theorem Over.step (h : ch.Over) (event : Event) :
    (ch.step event).Over ∧ (ch.step event).received = ch.received := by
  cases event with
  | call =>
      change ch.call.Over ∧ ch.call.received = ch.received
      rcases ch.call_cases with
        hcall | ⟨_, _, _, ⟨_, hcall⟩ | ⟨_, hcall⟩ | ⟨hleft, hcall⟩⟩
      · rw [hcall]
        exact ⟨h, rfl⟩
      · rw [hcall]
        exact ⟨h, rfl⟩
      · rw [hcall]
        exact ⟨h, rfl⟩
      · exact absurd (h.1.symm.trans hleft) nofun
  | take =>
      unfold Channel.step take
      dsimp only
      rw [h.2]
      exact ⟨h, rfl⟩
  | leave => exact ⟨over_leave ch, rfl⟩

/-- A reader who has left receives nothing more. -/
theorem Over.received_run (h : ch.Over) (events : List Event) :
    (ch.run events).received = ch.received := by
  induction events generalizing ch with
  | nil => rfl
  | cons event rest ih => exact (ih (h.step event).1).trans (h.step event).2

end Channel

/-! ## The stream -/

/-- Some writes sent in chunks to a reader who stays: the chunks are the writes put together, none of
them empty, and the counter tells their bytes; between two writes less than a chunk is collected.  However
many chunks may wait, a reader who takes some and leaves has taken the first of these and gets no more;
and where any may wait, one who stays can take all. -/
theorem chunks_preserve_stream (writes : List Bytes) :
    let chunks := (chunked.feed writes .empty).1.flush.toList
    chunks.flatten = writes.flatten ∧
      (∀ chunk ∈ chunks, chunk ≠ []) ∧
      (∃ groups, GroupedInto writes chunks groups) ∧
      (∀ n, (chunked.feed (writes.take n) .empty).1.pending.size < chunkSize) ∧
      (chunked.feed writes .empty).1.flush.sentBytes = chunks.flatten.length ∧
      ∀ most events, let ch := (Channel.start most writes).run events
        ch.received = chunks.take ch.received.length ∧
          (∀ later, (ch.leave.run later).received = ch.received) ∧
          (0 < most → ch.left = false → ∃ more, (ch.run more).received = chunks) := by
  obtain ⟨closed, current, hcollects⟩ := collects_feed writes
  obtain ⟨groups, hgroups⟩ := hcollects.flush
  refine ⟨?_, hgroups.chunk_ne_nil, ⟨groups, hgroups⟩, fun n => ?_, (counted_feed writes).flush,
    fun most events => ?_⟩
  · rw [Chunks.flatten_flush, (feed_chunked writes .empty).2, Chunks.bytes_empty, List.nil_append]
  · obtain ⟨_, _, hbetween⟩ := collects_feed (writes.take n)
    exact hbetween.pending_lt
  · have hbrings := (Channel.brings_start most writes).run events
    exact ⟨hbrings.received_eq_take, fun later => (Channel.over_leave _).received_run later,
      fun hmost => hbrings.exists_run_received_eq ((Channel.most_run _ events).symm ▸ hmost)⟩

end PageTemplates.Output
