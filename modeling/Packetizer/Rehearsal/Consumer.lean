import Packetizer.Encoder.QuantumBuffer

/-!
# `Packetizer.Rehearsal.Consumer`: a consumer of quanta that misbehaves

A rehearsed consumer keeps what it is given, may overwrite the whole
working buffer with one sample, and may fail at a call of its choice.
-/

set_option autoImplicit false

namespace Packetizer.Rehearsal

/-- A consumer of quanta and what it has been given. -/
structure Consumer where
  /-- The call that fails, counted from zero. -/
  failAt : Option Nat
  /-- The sample that the working buffer is overwritten with. -/
  scribble : Option Sample
  seen : Array (List Sample)

namespace Consumer

/-- Takes a quantum: keeps it, overwrites it, and only then fails. -/
def consume (c : Consumer) (quantum : List Sample) : Consumed Consumer :=
  let call := c.seen.size
  let left := match c.scribble with
    | some sample => quantum.map fun _ => sample
    | none => quantum
  let outcome := if c.failAt = some call then .error (.coding call (-1)) else .ok ()
  ⟨outcome, left, { c with seen := c.seen.push quantum }⟩

end Consumer

end Packetizer.Rehearsal
