import BallotProof.NonceStream.Basic

/-!
# Several nonce streams at once

A growing list of streams, each with a position of its own, and calls on them one after the other.

* `Streams.step` answers one call, `Streams.run` a list of calls.
* `Streams.step_getElem?_of_ne` : a call leaves all other streams where they are.
-/

namespace BallotProof

/-- What can be asked of a stream. -/
inductive NonceCall where
  /-- The next entry. -/
  | next
  /-- The entry at a position; the stream stays where it is. -/
  | get (index : UInt64)
  /-- The next `n` entries. -/
  | take (n : Nat)
  /-- The entry behind the next `n`. -/
  | nth (n : Nat)
  /-- The first `n` entries; the stream stays where it is. -/
  | draw (n : Nat)
  /-- Another stream that starts where this one stands. -/
  | clone
deriving DecidableEq

/-- The answer to a call. -/
inductive NonceAnswer where
  /-- One entry. -/
  | entry (x : Scalar)
  /-- Several entries. -/
  | entries (xs : List Scalar)
  /-- The index of a new stream. -/
  | stream (index : Nat)
deriving DecidableEq

/-- The streams, in the order in which they were made. -/
abbrev Streams := List NonceStream

namespace Streams

variable (H : HashFunction) (G : SchnorrGroup)

/-- The answer of one stream, and where the call leaves it. -/
def answer (s : NonceStream) (newIndex : Nat) : NonceCall → NonceAnswer × NonceStream
  | .next => let (x, s) := s.next H G; (.entry x, s)
  | .get index => (.entry (s.get H G index), s)
  | .take n => let (xs, s) := s.take H G n; (.entries xs, s)
  | .nth n => let (x, s) := s.nth H G n; (.entry x, s)
  | .draw n => (.entries (s.draw H G n), s)
  | .clone => (.stream newIndex, s)

/-- Calls the stream with index `on`; `none` if there is no such stream. -/
def step (streams : Streams) (on : Nat) (call : NonceCall) : Option (NonceAnswer × Streams) := do
  let s ← streams[on]?
  let (reply, moved) := answer H G s streams.length call
  let streams := streams.set on moved
  return (reply, if call = .clone then streams ++ [s] else streams)

/-- The answers to a list of calls, each with the index of its stream. -/
def run (streams : Streams) : List (Nat × NonceCall) → Option (List NonceAnswer)
  | [] => some []
  | (on, call) :: calls => do
    let (reply, streams) ← step H G streams on call
    let replies ← run streams calls
    return reply :: replies

variable {H G}

/-- A call leaves all other streams where they are. -/
theorem step_getElem?_of_ne {streams streams' : Streams} {on i : Nat} {call : NonceCall}
    {reply : NonceAnswer} (h : step H G streams on call = some (reply, streams'))
    (hi : i < streams.length) (hne : i ≠ on) : streams'[i]? = streams[i]? := by
  simp only [step, Option.bind_eq_bind, Option.bind_eq_some_iff] at h
  obtain ⟨s, -, h⟩ := h
  simp only [Option.pure_def, Option.some.injEq, Prod.mk.injEq] at h
  obtain ⟨-, rfl⟩ := h
  split
  · rw [List.getElem?_append_left (by simpa using hi), List.getElem?_set_ne (Ne.symm hne)]
  · rw [List.getElem?_set_ne (Ne.symm hne)]

end Streams

end BallotProof
