import PageTemplates.Output.Sink

/-!
Several writes in a row.  A sink is seamless when it cannot tell one write from the
same bytes in several writes; it then takes any writes as it takes all their bytes at
once.  The buffer is seamless, and so is a buffer with limited room, wherever the room
ends.
-/

namespace PageTemplates.Output

open Utf8 (Bytes)

variable {σ : Type}

/-- Several writes one after the other, up to the first that fails. -/
def Sink.feed (sink : Sink σ) : List Bytes → σ → σ × Option String
  | [], s => (s, none)
  | bytes :: rest, s =>
      match sink.write bytes s with
      | (s, none) => sink.feed rest s
      | (s, some reason) => (s, some reason)

/-- A sink that takes the same bytes in the same way in however many writes they come. -/
structure Sink.Seamless (sink : Sink σ) : Prop where
  empty : ∀ s, sink.write [] s = (s, none)
  append : ∀ first second s, sink.write (first ++ second) s = sink.feed [first, second] s

namespace Sink

theorem feed_append (sink : Sink σ) (first second : List Bytes) (s : σ) :
    sink.feed (first ++ second) s =
      match sink.feed first s with
      | (t, none) => sink.feed second t
      | (t, some reason) => (t, some reason) := by
  induction first generalizing s with
  | nil => rfl
  | cons bytes rest ih =>
      rw [List.cons_append, feed, feed]
      cases sink.write bytes s with
      | mk t failure =>
          cases failure with
          | none => exact ih t
          | some reason => rfl

theorem feed_singleton (sink : Sink σ) (bytes : Bytes) (s : σ) :
    sink.feed [bytes] s = sink.write bytes s := by
  rw [feed]
  cases sink.write bytes s with
  | mk t failure => cases failure <;> rfl

theorem Seamless.feed {sink : Sink σ} (hsink : sink.Seamless) (writes : List Bytes) (s : σ) :
    sink.feed writes s = sink.write writes.flatten s := by
  induction writes generalizing s with
  | nil => exact (hsink.empty s).symm
  | cons bytes rest ih =>
      rw [List.flatten_cons, hsink.append, Sink.feed, Sink.feed]
      cases sink.write bytes s with
      | mk t failure =>
          cases failure with
          | none => exact (ih t).trans (sink.feed_singleton _ t).symm
          | some reason => rfl

end Sink

theorem feed_log (writes kept : List Bytes) :
    log.feed writes kept = (kept ++ writes, none) := by
  induction writes generalizing kept with
  | nil =>
      rw [List.append_nil]
      rfl
  | cons bytes rest ih =>
      change log.feed rest (kept ++ [bytes]) = _
      rw [ih, List.append_assoc, List.singleton_append]

theorem Buffer.append_bytes_append (kept : Buffer) (first second : Bytes) :
    kept ++ (first ++ second) = kept ++ first ++ second := by
  apply Array.toList_inj.mp
  simp

theorem seamless_buffer : buffer.Seamless where
  empty kept := by simp [buffer]
  append first second kept := congrArg (·, none) (kept.append_bytes_append first second)

theorem limited_write_of_le {bytes : Bytes} {s : Limited} (hroom : bytes.length ≤ s.room) :
    limited.write bytes s = (⟨s.room - bytes.length, s.kept ++ bytes⟩, none) := by
  simp [limited, hroom, List.take_of_length_le hroom]

theorem limited_write_of_lt {bytes : Bytes} {s : Limited} (hroom : s.room < bytes.length) :
    limited.write bytes s = (⟨0, s.kept ++ bytes.take s.room⟩, some "sink full") := by
  simp [limited, hroom, Nat.sub_eq_zero_of_le (Nat.le_of_lt hroom)]

theorem seamless_limited : limited.Seamless where
  empty s := by simp [limited]
  append first second s := by
    rcases Nat.lt_or_ge s.room first.length with hfirst | hfirst
    · have hboth : s.room < (first ++ second).length := by
        rw [List.length_append]
        omega
      rw [Sink.feed, limited_write_of_lt hfirst, limited_write_of_lt hboth,
        List.take_append_of_le_length (Nat.le_of_lt hfirst)]
    · rw [Sink.feed, limited_write_of_le hfirst]
      -- The first write fits, so the second decides about both.
      change _ = limited.feed [second] ⟨s.room - first.length, s.kept ++ first⟩
      rw [Sink.feed_singleton]
      rcases Nat.lt_or_ge (s.room - first.length) second.length with hsecond | hsecond
      · have hboth : s.room < (first ++ second).length := by
          rw [List.length_append]
          omega
        rw [limited_write_of_lt hboth, limited_write_of_lt hsecond, List.take_append,
          List.take_of_length_le hfirst, Buffer.append_bytes_append]
      · have hboth : (first ++ second).length ≤ s.room := by
          rw [List.length_append]
          omega
        rw [limited_write_of_le hboth, limited_write_of_le hsecond, List.length_append,
          Nat.sub_add_eq, Buffer.append_bytes_append]

end PageTemplates.Output
