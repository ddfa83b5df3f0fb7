import Packetizer.Log
import Packetizer.Stream.Error

/-!
# `Packetizer.Stream.Sink`: where bytes go

A `Sink` takes some of the bytes it is offered, or fails. It may be
interrupted, and its `patience` bounds how often, so that `writeAll`
ends: it offers what is left until everything is taken.
-/

set_option autoImplicit false

namespace Packetizer

/-- What one write gave: the number of bytes taken or a failure, and
the sink after it. -/
structure Writing (κ : Type) where
  outcome : Except StreamError Nat
  sink : κ

/-- A sink of bytes. -/
class Sink (κ : Type) where
  /-- One write. The bytes taken are the first ones offered. -/
  write : κ → List UInt8 → Writing κ
  /-- A bound on the interruptions before the next success or failure. -/
  patience : κ → Nat
  /-- A write takes no more than it is offered. -/
  accepted_le : ∀ k bs n, (write k bs).outcome = .ok n → n ≤ bs.length
  /-- An interruption uses up patience. -/
  patience_lt : ∀ k bs, (write k bs).outcome = .error .interrupted →
    patience (write k bs).sink < patience k

/-- What writing all bytes gave, and the writes that took some. -/
structure Written (κ : Type) where
  outcome : Except StreamError Unit
  sink : κ
  events : List Event

namespace Sink

variable {κ : Type} [Sink κ]

/-- Writes all bytes, in as many writes as it takes, and repeats a
write that was interrupted. A sink that takes nothing has failed. -/
def writeAll (k : κ) (bs : List UInt8) : Written κ :=
  if bs = [] then ⟨.ok (), k, []⟩
  else
    match _h : write k bs with
    | ⟨.ok 0, rest⟩ => ⟨.error .nothingAccepted, rest, []⟩
    | ⟨.ok (n + 1), rest⟩ =>
        let more := writeAll rest (bs.drop (n + 1))
        ⟨more.outcome, more.sink, .wrote (bs.take (n + 1)) :: more.events⟩
    | ⟨.error .interrupted, rest⟩ => writeAll rest bs
    | ⟨.error e, rest⟩ => ⟨.error e, rest, []⟩
termination_by (bs.length, patience k)
decreasing_by
  -- A write that takes something leaves less to write. An interruption
  -- leaves as much, but costs patience.
  · refine Prod.Lex.left _ _ ?_
    have := List.length_pos_iff.mpr ‹bs ≠ []›
    rw [List.length_drop]
    omega
  · refine Prod.Lex.right _ ?_
    have := patience_lt k bs (by rw [_h])
    rwa [_h] at this

end Sink

end Packetizer
