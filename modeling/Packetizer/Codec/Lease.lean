import Packetizer.Codec.Basic

/-!
# `Packetizer.Codec.Lease`: a session that is released once

Releasing a codec session twice is an error, so sessions are held in
a `Lease`: it gives the session out while it is held and releases it
the first time it is asked to. What is left of a released session
stays in the lease but is given to nobody.
-/

set_option autoImplicit false

namespace Packetizer

/-- A session that is held or has been released. -/
inductive Lease (σ : Type) where
  | held (session : σ)
  | released (remains : σ)

namespace Lease

variable {σ : Type}

/-- The session, while it is held. -/
def get : Lease σ → Option σ
  | held session => some session
  | released _ => none

/-- Whether the session is held. -/
def isHeld : Lease σ → Bool
  | held _ => true
  | released _ => false

/-- Releases the session if it is held. The events tell whether it
was: a lease that was released before causes none. -/
def close [CodecSession σ] : Lease σ → Lease σ × List Event
  | held session => (released (CodecSession.close session), [.logged .releasing, .released])
  | released remains => (released remains, [])

end Lease

end Packetizer
