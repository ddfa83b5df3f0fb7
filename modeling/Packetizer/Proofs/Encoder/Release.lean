import Packetizer.Proofs.Encoder.Session
import Packetizer.Rehearsal.Devices
import Packetizer.Rehearsal.ScriptedCodec

/-!
# `Packetizer.Proofs.Encoder.Release`: a session is released exactly once

`Encoder.life` collects the events of an encoder from its start to the
moment when nobody needs it any more. In between any operations may be
made, `close` among them, as often as one likes and at any place. A
session that was opened is released once in such a life, also when the
start of the encoder rejects it, and the state of an encoder tells
whether that has happened.

That the events tell of one release at most is in `Encoder.Holds`. What
is left here is the start and the end of a life.
-/

set_option autoImplicit false

namespace Packetizer.Encoder

variable {σ η κ γ : Type}

/-- The session is given out while it is held. -/
theorem isSome_session (e : Encoder σ η) : e.session.isSome = e.writer.lease.isHeld := by
  unfold session
  cases e.writer.lease <;> rfl

variable [CodecSession σ]

/-- At the end an encoder releases the session that it still holds. -/
theorem releases_discard (e : Encoder σ η) :
    releases e.discard.2 = if e.writer.lease.isHeld then 1 else 0 := by
  unfold discard
  cases e.writer.lease <;> rfl

/-- An encoder holds its session as long as it is not closed. -/
theorem Holds.isHeld_iff {s : σ} {events : List Event} {e : Encoder σ η}
    (h : Holds s events e) : e.writer.lease.isHeld = true ↔ e.state ≠ .closed := by
  by_cases hclosed : e.state = .closed
  · rw [h.released hclosed]
    exact ⟨nofun, fun hopen => absurd hclosed hopen⟩
  · rw [h.held hclosed]
    exact ⟨fun _ => hclosed, fun _ => rfl⟩

/-- What is left of an encoder in the end is its session, released after all the
calls that the events tell of. -/
theorem Holds.lease_discard {s : σ} {events : List Event} {e : Encoder σ η}
    (h : Holds s events e) :
    e.discard.1 = .released (CodecSession.close (replay s events).session) := by
  unfold discard
  by_cases hclosed : e.state = .closed
  · rw [h.released hclosed]
    rfl
  · rw [h.held hclosed]
    rfl

variable [Codec γ σ] [RemapHook η] [Sink κ]

/-- The events from the start of an encoder to its end. The life of an
encoder whose start fails is short. -/
def life (codec : γ) (settings : Settings) (hook : Option η) (k : κ)
    (ops : List (Operation η κ)) : List Event :=
  match (start codec settings hook : Opening σ η) with
  | .refused _ => []
  | .rejected _ _ events => events
  | .ready first opening =>
      let r := first.run k ops
      opening ++ r.events ++ r.encoder.discard.2

/-- The codec session is released once if it was opened at all, and in
between the state of the encoder says whether it has been. What is released
is the session itself: as it was opened, when the start rejects it, and
otherwise as all calls of the codec have left it. -/
theorem session_released_once (codec : γ) (settings : Settings) (hook : Option η) (k : κ)
    (ops : List (Operation η κ)) :
    (∀ fault, Codec.openSession codec (Codec.complete codec settings) = .error fault →
      releases (life codec settings hook k ops) = 0) ∧
    (∀ s log, Codec.openSession codec (Codec.complete codec settings) = .ok (s, log) →
      releases (life codec settings hook k ops) = 1 ∧
      (∀ fault (remains : Lease σ) events,
        (start codec settings hook : Opening σ η) = .rejected fault remains events →
        remains = .released (CodecSession.close s)) ∧
      ∀ (first : Encoder σ η) (opening : List Event),
        start codec settings hook = .ready first opening →
        let r := first.run k ops
        let remains := Lease.released (CodecSession.close (replay s (opening ++ r.events)).session)
        (r.encoder.state = .closed → r.encoder.writer.lease = remains) ∧
          r.encoder.discard.1 = remains) ∧
    ∀ (first : Encoder σ η) (opening : List Event),
      start codec settings hook = .ready first opening →
      let r := first.run k ops
      let count := releases (opening ++ r.events)
      (r.encoder.state ≠ .closed ↔ count = 0 ∧ r.encoder.session.isSome) ∧
        (r.encoder.state = .closed ↔ count = 1 ∧ r.encoder.session = none) := by
  refine ⟨fun fault hopen => ?_, fun s log hopen => ?_, fun first opening hstart => ?_⟩
  · rw [life, start_refused hopen]
    rfl
  · rcases start_opened hopen hook with ⟨fault, hstart⟩ | ⟨first, opened, hstart, hfresh⟩
    · -- The start itself releases a session that it finds useless.
      refine ⟨?_, fun fault remains events hrejected => ?_, fun first opening hready => ?_⟩
      · rw [life, hstart]
        dsimp only
        rw [releases_append, releases_ofLog]
        rfl
      · rw [hstart] at hrejected
        cases hrejected
        rfl
      · rw [hstart] at hready
        cases hready
    · have hholds := hfresh.holds_run (log ++ [opened]) k ops
      refine ⟨?_, fun fault remains events hrejected => ?_, fun first opening hready => ?_⟩
      case refine_2 =>
        rw [hstart] at hrejected
        cases hrejected
      case refine_3 =>
        rw [hstart] at hready
        cases hready
        exact ⟨hholds.released, hholds.lease_discard⟩
      rw [life, hstart]
      dsimp only
      rw [releases_append, hholds.counted, releases_discard]
      -- The state tells which of the two releases happened.
      by_cases hclosed : (first.run k ops).encoder.state = .closed
      · have hgone := mt hholds.isHeld_iff.mp (not_not_intro hclosed)
        rw [if_pos hclosed, if_neg hgone]
      · rw [if_neg hclosed, if_pos (hholds.isHeld_iff.mpr hclosed)]
  · obtain ⟨s, log, rfl, hfresh⟩ := fresh_of_start hstart
    have hholds := hfresh.holds_run log k ops
    have hheld := hholds.isHeld_iff
    intro r count
    have hcount : count = if r.encoder.state = .closed then 1 else 0 := hholds.counted
    rw [← isSome_session] at hheld
    by_cases hclosed : r.encoder.state = .closed
    · have hnone : r.encoder.session = none := by
        rw [← Option.not_isSome_iff_eq_none, hheld]
        exact not_not_intro hclosed
      rw [if_pos hclosed] at hcount
      simp [hclosed, hcount, hnone]
    · have hsome : r.encoder.session.isSome := hheld.mpr hclosed
      have hne : r.encoder.session ≠ none := Option.isSome_iff_ne_none.mp hsome
      rw [if_neg hclosed] at hcount
      simp [hclosed, hcount, hsome]

open Rehearsal in
/-- A codec that fails, a session that is found useless and one that is
never opened: however often the encoder is closed, the first two are
released once and the last one never. The first has made its one call by
then. -/
theorem session_released_once_scripted :
    let k : ScriptedSink := ⟨[.fail]⟩
    let ops : List (Operation Hook ScriptedSink) :=
      [.encode [⟨1⟩, ⟨2⟩, ⟨3⟩, ⟨4⟩], .flush, .close, .encode [⟨5⟩], .close]
    releases (life (⟨⟨2⟩, 8, none, [-1]⟩ : ScriptedCodec) {} none k ops) = 1 ∧
      releases (life (⟨⟨2⟩, 0, none, [-1]⟩ : ScriptedCodec) {} none k ops) = 1 ∧
      releases (life (⟨⟨2⟩, 8, some "busy", []⟩ : ScriptedCodec) {} none k ops) = 0 ∧
      ∃ (first : Encoder ScriptedSession Hook) (opening : List Event),
        start (⟨⟨2⟩, 8, none, [-1]⟩ : ScriptedCodec) {} none = .ready first opening ∧
          (first.run k ops).encoder.writer.lease = .released ⟨⟨2⟩, 8, [], 1⟩ := by
  intro k ops
  have hstart : start (⟨⟨2⟩, 8, none, [-1]⟩ : ScriptedCodec) {} (none : Option Hook)
      = .ready _ _ := rfl
  obtain ⟨hone, -, hlease⟩ :=
    (session_released_once (⟨⟨2⟩, 8, none, [-1]⟩ : ScriptedCodec) {} none k ops).2.1 _ _ rfl
  refine ⟨hone, ?_, ?_, _, _, hstart, ?_⟩
  · exact ((session_released_once _ _ _ _ _).2.1 _ _ rfl).1
  · exact (session_released_once _ _ _ _ _).1 _ rfl
  · exact ((hlease _ _ hstart).1 (by cbv)).trans (by cbv)

end Packetizer.Encoder
