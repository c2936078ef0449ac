import PageTemplates.Proofs.Output.Chunks
import PageTemplates.Proofs.Template.Runs

/-!
What a template writes does not depend on where it goes.  A run on any sink is the
same run on a log with its writes made over again: they are the same writes, and the
end is the same unless the sink fails before.  So a run on a seamless sink is one
write of all that the run leaves in a buffer.
-/

namespace PageTemplates.Template

open Output (Buffer Chunks Limited Sink limited)
open Utf8 (Bytes)

variable {σ : Type}

/-- The writes of a run made over again on a sink, and then the end of the run; the sink
can fail before. -/
def Outcome.replay (sink : Sink σ) (record : Outcome (List Bytes)) (s : σ) : Outcome σ :=
  match sink.feed record.1 s with
  | (s, none) => (s, record.2)
  | (s, some reason) => .failed (.write reason) s

theorem Outcome.replay_of_taken {sink : Sink σ} {record : Outcome (List Bytes)} {s : σ}
    (htaken : (sink.feed record.1 s).2 = none) :
    record.replay sink s = ((sink.feed record.1 s).1, record.2) := by
  have hfeed : sink.feed record.1 s = ((sink.feed record.1 s).1, none) := Prod.ext rfl htaken
  rw [replay, hfeed]

/-- A run that does not see its sink, except that it ends when the sink fails. -/
def Oblivious (run : Run) : Prop :=
  ∀ (σ : Type) (sink : Sink σ) (s : σ), run σ sink s = (run _ Output.log []).replay sink s

/-! ## The parts of a run -/

theorem oblivious_done : Oblivious fun _ _ => .done :=
  fun _ _ _ => rfl

theorem oblivious_failed (e : RunError) : Oblivious fun _ _ => .failed e :=
  fun _ _ _ => rfl

theorem oblivious_writeText (t : Text) : Oblivious fun _ sink => writeText sink t := by
  intro σ sink s
  change writeText sink t s = Outcome.replay sink ([Utf8.encode t], .ok ()) s
  rw [writeText, Outcome.replay, Sink.feed_singleton]
  cases sink.write (Utf8.encode t) s with
  | mk s failure => cases failure <;> rfl

/-- On the log an oblivious run goes on from what is there. -/
theorem Oblivious.run_log {run : Run} (hrun : Oblivious run) (writes : List Bytes) :
    run _ Output.log writes =
      (writes ++ (run _ Output.log []).1, (run _ Output.log []).2) := by
  rw [hrun, Outcome.replay, Output.feed_log]

theorem Oblivious.andThen {first second : Run} (hfirst : Oblivious first)
    (hsecond : Oblivious second) :
    Oblivious fun σ sink s => (first σ sink s).andThen (second σ sink) := by
  intro σ sink s
  change (first σ sink s).andThen (second σ sink) =
    ((first _ Output.log []).andThen (second _ Output.log)).replay sink s
  rw [hfirst σ sink s]
  obtain ⟨writes, result⟩ := first _ Output.log []
  cases result with
  | error e =>
      simp only [Outcome.andThen, Outcome.replay]
      cases sink.feed writes s with
      | mk t failure => cases failure <;> rfl
  | ok =>
      -- The second run finds the writes of the first on the log and adds its own to them.
      simp only [Outcome.andThen, Outcome.replay, hsecond.run_log writes, Sink.feed_append]
      cases sink.feed writes s with
      | mk t failure =>
          cases failure with
          | none => exact hsecond σ sink t
          | some reason => rfl

/-- A run is oblivious when its parts are. -/
theorem composable_oblivious : Composable Oblivious where
  done := oblivious_done
  failed := oblivious_failed
  andThen := Oblivious.andThen

namespace Namespace

theorem oblivious_execute (ns : Namespace) (data : Value) :
    Oblivious fun _ sink => ns.execute sink data :=
  composable_oblivious.execute fun _ _ t _ _ => oblivious_writeText t

theorem oblivious_executeTemplate (ns : Namespace) (name : Text) (data : Value) :
    Oblivious fun _ sink => ns.executeTemplate sink name data :=
  composable_oblivious.executeTemplate fun _ _ t _ _ => oblivious_writeText t

end Namespace

/-! ## All at once -/

/-- What a run leaves in an empty buffer, and how it ends there. -/
def Run.whole (run : Run) : Outcome Buffer :=
  run _ Output.buffer #[]

theorem Oblivious.whole {run : Run} (hrun : Oblivious run) :
    run.whole = ((run _ Output.log []).1.flatten.toArray, (run _ Output.log []).2) := by
  rw [Run.whole, hrun, Outcome.replay, Output.seamless_buffer.feed]
  simp [Output.buffer]

/-- In chunks a run sends and collects what it leaves in a buffer, and ends as there. -/
theorem Oblivious.run_chunked {run : Run} (hrun : Oblivious run) (c : Chunks) :
    (run _ Output.chunked c).1.bytes = c.bytes ++ run.whole.1.toList ∧
      (run _ Output.chunked c).2 = run.whole.2 := by
  obtain ⟨htaken, hbytes⟩ := Output.feed_chunked (run _ Output.log []).1 c
  rw [hrun, hrun.whole, Outcome.replay_of_taken htaken]
  exact ⟨hbytes, rfl⟩

/-- A run on a seamless sink is one write of all that it leaves in a buffer. -/
theorem Oblivious.run_seamless {run : Run} (hrun : Oblivious run) {sink : Sink σ}
    (hsink : sink.Seamless) (s : σ) :
    run σ sink s = Outcome.replay sink ([run.whole.1.toList], run.whole.2) s := by
  rw [hrun, hrun.whole, Outcome.replay, Outcome.replay, hsink.feed, Sink.feed_singleton]

/-- What is left of a run when no more than `room` bytes of it are taken. -/
def Outcome.cutOff (room : Nat) (whole : Outcome Buffer) : Outcome Limited :=
  if whole.1.size ≤ room then (⟨room - whole.1.size, whole.1⟩, whole.2)
  else (⟨0, whole.1.take room⟩, .error (.write "sink full"))

theorem replay_limited (room : Nat) (whole : Outcome Buffer) :
    Outcome.replay limited ([whole.1.toList], whole.2) ⟨room, #[]⟩ = whole.cutOff room := by
  rw [Outcome.replay, Sink.feed_singleton, Outcome.cutOff]
  by_cases hroom : whole.1.size ≤ room
  · rw [if_pos hroom, Output.limited_write_of_le hroom]
    simp
  · rw [if_neg hroom, Output.limited_write_of_lt (Nat.lt_of_not_le hroom)]
    have htaken : (#[] : Buffer) ++ whole.1.toList.take room = whole.1.take room := by
      apply Array.toList_inj.mp
      simp
    simp only [htaken]
    rfl

theorem Oblivious.run_limited {run : Run} (hrun : Oblivious run) (room : Nat) :
    run _ limited ⟨room, #[]⟩ = run.whole.cutOff room := by
  rw [hrun.run_seamless Output.seamless_limited, replay_limited]

end PageTemplates.Template
