import Packetizer.Proofs.Stream.Counting
import Packetizer.Proofs.Stream.Stopping
import Packetizer.Proofs.Stream.Writing
import Packetizer.Rehearsal.Devices

/-!
# `Packetizer.Proofs.Rehearsal.Devices`: scripts without failures

A rehearsed sink whose script only takes pieces and interrupts never
fails (`ScriptedSink.neverFails`), and a rehearsed source with such a
script delivers all its bytes (`ScriptedSource.delivers`). When the script
does not stop it either, it keeps running.
-/

set_option autoImplicit false

namespace Packetizer.Rehearsal

/-- The sink takes a piece or is interrupted. -/
def WriteCue.IsPatient : WriteCue → Prop
  | .accept most => 0 < most
  | .interrupt => True
  | .fail => False

instance : DecidablePred WriteCue.IsPatient
  | .accept most => inferInstanceAs (Decidable (0 < most))
  | .interrupt => inferInstanceAs (Decidable True)
  | .fail => inferInstanceAs (Decidable False)

/-- The source delivers a piece or is interrupted. -/
def ReadCue.IsPatient : ReadCue → Prop
  | .deliver most _ => 0 < most
  | .interrupt => True
  | .fail => False
  | .pause => False

instance : DecidablePred ReadCue.IsPatient
  | .deliver most _ => inferInstanceAs (Decidable (0 < most))
  | .interrupt => inferInstanceAs (Decidable True)
  | .fail => inferInstanceAs (Decidable False)
  | .pause => inferInstanceAs (Decidable False)

/-- The source is not told to stop. -/
def ReadCue.GoesOn : ReadCue → Prop
  | .deliver _ running => running ≠ some false
  | .interrupt => True
  | .fail => True
  | .pause => True

instance : DecidablePred ReadCue.GoesOn
  | .deliver _ running => inferInstanceAs (Decidable (running ≠ some false))
  | .interrupt => inferInstanceAs (Decidable True)
  | .fail => inferInstanceAs (Decidable True)
  | .pause => inferInstanceAs (Decidable True)

namespace ScriptedSink

/-- A write keeps what is left of a patient script patient. -/
theorem patient_later {k k' : ScriptedSink} (h : Sink.Later k k')
    (hpatient : ∀ cue ∈ k.script, cue.IsPatient) : ∀ cue ∈ k'.script, cue.IsPatient := by
  induction h with
  | refl => exact hpatient
  | @step k' writes bs ih =>
      show ∀ cue ∈ (k'.write bs).sink.script, cue.IsPatient
      intro cue hcue
      unfold write at hcue
      split at hcue
      · exact ih cue hcue
      all_goals
        rename_i hs
        exact ih cue (hs ▸ List.mem_cons_of_mem _ hcue)

/-- A sink with a patient script never fails. -/
theorem neverFails {k : ScriptedSink} (h : ∀ cue ∈ k.script, cue.IsPatient) :
    Sink.NeverFails k := by
  intro k' hlater bs hbs
  have hpatient := patient_later hlater h
  have hlen : 0 < bs.length := List.length_pos_iff.mpr hbs
  have hpiece : ∀ n : Nat, 0 < n → ∃ m, (.ok n : Except StreamError Nat) = .ok (m + 1) :=
    fun n hn => ⟨n - 1, congrArg _ (Nat.sub_add_cancel hn).symm⟩
  show (∃ n, (k'.write bs).outcome = .ok (n + 1)) ∨ (k'.write bs).outcome = .error .interrupted
  unfold write
  split
  next => exact .inl (hpiece bs.length hlen)
  next most script hs =>
    have hmost : 0 < most := hpatient (.accept most) (hs ▸ List.mem_cons_self)
    exact .inl (hpiece (min bs.length most) (by omega))
  next => exact .inr rfl
  next script hs => exact (hpatient .fail (hs ▸ List.mem_cons_self)).elim

end ScriptedSink

namespace ScriptedSource

/-- What some reads took and what is left are all the bytes, and the
script stays patient. -/
theorem patient_reads {s s' : ScriptedSource} {taken : List UInt8}
    (h : Source.Reads s taken s') (hpatient : ∀ cue ∈ s.script, cue.IsPatient) :
    s.left = taken ++ s'.left ∧ ∀ cue ∈ s'.script, cue.IsPatient := by
  -- One read: what it delivers is gone from what is left.
  have hone : ∀ {s' : ScriptedSource} {n : Nat}, (∀ cue ∈ s'.script, cue.IsPatient) →
      s'.left = ((s'.read n).outcome.toOption.getD []) ++ (s'.read n).source.left ∧
        ∀ cue ∈ (s'.read n).source.script, cue.IsPatient := by
    intro s' n hpatient
    unfold read
    split
    · exact ⟨(List.take_append_drop n s'.left).symm, hpatient⟩
    all_goals
      rename_i hs
      rw [hs] at hpatient
    · exact ⟨(List.take_append_drop _ s'.left).symm,
        fun cue hcue => hpatient cue (List.mem_cons_of_mem _ hcue)⟩
    all_goals exact ⟨rfl, fun cue hcue => hpatient cue (List.mem_cons_of_mem _ hcue)⟩
  induction h with
  | refl => exact ⟨rfl, hpatient⟩
  | @got bs piece s' n reads asked delivered ih =>
      obtain ⟨hleft, hscript⟩ := hone (n := n) ih.2
      have hpiece : (s'.read n).outcome = .ok piece := delivered
      rw [hpiece] at hleft
      refine ⟨?_, hscript⟩
      rw [ih.1, List.append_assoc]
      exact congrArg (bs ++ ·) hleft
  | @again bs s' n reads asked interrupted ih =>
      obtain ⟨hleft, hscript⟩ := hone (n := n) ih.2
      have hno : (s'.read n).outcome = .error .interrupted := interrupted
      rw [hno] at hleft
      refine ⟨?_, hscript⟩
      rw [ih.1]
      exact congrArg (bs ++ ·) hleft

/-- A source with a patient script delivers all its bytes. -/
theorem delivers {s : ScriptedSource} (h : ∀ cue ∈ s.script, cue.IsPatient) :
    Source.Delivers s s.left := by
  intro taken s' hreads n hn
  obtain ⟨hleft, hpatient⟩ := patient_reads hreads h
  -- A piece of the bytes that are left is empty only if they are.
  have hpiece : ∀ most, 0 < most →
      s.left = taken ++ s'.left.take most ++ s'.left.drop most ∧
        (s'.left.take most = [] → s'.left.drop most = []) := by
    intro most hmost
    constructor
    · rw [hleft, List.append_assoc, List.take_append_drop]
    · intro hnone
      rcases List.take_eq_nil_iff.mp hnone with hzero | hempty
      · omega
      · rw [hempty, List.drop_nil]
  show (s'.read n).outcome = .error .interrupted ∨
    ∃ piece rest, (s'.read n).outcome = .ok piece ∧ _
  unfold read
  split
  next => exact .inr ⟨_, _, rfl, hpiece n hn⟩
  next most running script hs =>
    have hmost : 0 < most := hpatient (.deliver most running) (hs ▸ List.mem_cons_self)
    exact .inr ⟨_, _, rfl, hpiece (min n most) (by omega)⟩
  next => exact .inl rfl
  next script hs => exact (hpatient .fail (hs ▸ List.mem_cons_self)).elim
  next script hs => exact (hpatient .pause (hs ▸ List.mem_cons_self)).elim

/-- A script does not lose any bytes, and a failure takes none. -/
theorem bytesLeft : Source.BytesLeft fun s : ScriptedSource => s.left.length := by
  refine ⟨fun {s n bs} hok => ?_, fun {s n error} herror => ?_⟩
  · change (s.read n).outcome = .ok bs at hok
    show (s.read n).source.left.length + bs.length = s.left.length
    unfold read at hok ⊢
    split at hok
    · exact (deliver_spec s n hok).2.2
    · exact (deliver_spec _ _ hok).2.2
    · cases hok
    · cases hok
    · cases hok
      rfl
  · change (s.read n).outcome = .error error at herror
    show (s.read n).source.left.length ≤ s.left.length
    unfold read at herror ⊢
    split at herror
    · cases herror
    · cases herror
    all_goals exact Nat.le_refl _

/-- A source that runs and has no stop in its script keeps running. -/
theorem keepsRunning {s : ScriptedSource} (hrunning : s.running = true)
    (h : ∀ cue ∈ s.script, cue.GoesOn) : Switched.KeepsRunning s := by
  intro s' hlater
  suffices hboth : s'.running = true ∧ ∀ cue ∈ s'.script, cue.GoesOn from hboth.1
  induction hlater with
  | refl => exact ⟨hrunning, h⟩
  | @step s' reads n ih =>
      obtain ⟨hruns, hscript⟩ := ih
      show (s'.read n).source.running = true ∧ ∀ cue ∈ (s'.read n).source.script, cue.GoesOn
      unfold read
      split
      · exact ⟨hruns, hscript⟩
      all_goals
        rename_i hs
        rw [hs] at hscript
      · have hcue := hscript _ List.mem_cons_self
        refine ⟨?_, fun cue hcue => hscript cue (List.mem_cons_of_mem _ hcue)⟩
        rename_i running script
        show running.getD s'.running = true
        cases running with
        | none => exact hruns
        | some running =>
            cases running with
            | true => rfl
            | false => exact absurd rfl hcue
      all_goals exact ⟨hruns, fun cue hcue => hscript cue (List.mem_cons_of_mem _ hcue)⟩

end ScriptedSource

end Packetizer.Rehearsal
