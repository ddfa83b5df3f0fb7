import Packetizer.Proofs.Encoder.Chunking

/-!
# `Packetizer.Proofs.Encoder.Layout`: the layout is for the hook alone

The speakers in the settings decide the layout of a stream, and the hook
is the only one to look at it. So without a hook, encoders that differ in
their settings and their layout alone do the same: `relayout` changes both
where no hook can see it, before a step or after it (`encode_relayout`,
`flush_relayout`).

A writer that has a hook keeps its layout under `relayout`. With that the
change commutes with every call of the codec, and no lemma has to say that
there is no hook.
-/

set_option autoImplicit false

namespace Packetizer

variable {σ η κ : Type}

namespace PacketWriter

/-- The writer with another layout, unless a hook would see it. -/
def relayout (layout : StreamLayout) (w : PacketWriter σ η) : PacketWriter σ η :=
  match w.hook with
  | none => { w with layout := layout }
  | some _ => w

variable {layout : StreamLayout} {w : PacketWriter σ η}

theorem relayout_of_some {hook : η} (h : w.hook = some hook) : w.relayout layout = w := by
  rw [relayout, h]

@[simp] theorem packets_relayout (layout : StreamLayout) (w : PacketWriter σ η) :
    (w.relayout layout).packets = w.packets := by
  unfold relayout
  split <;> rfl

@[simp] theorem bytes_relayout (layout : StreamLayout) (w : PacketWriter σ η) :
    (w.relayout layout).bytes = w.bytes := by
  unfold relayout
  split <;> rfl

/-- Delivery does not look at the layout. -/
theorem deliver_relayout [Sink κ] (layout : StreamLayout) (w : PacketWriter σ η) (k : κ)
    (given : List Sample) (code : Int32) :
    (w.relayout layout).deliver k given code
      = { w.deliver k given code with
          writer := (w.deliver k given code).writer.relayout layout } := by
  obtain ⟨lease, frame, layout', hook, packets, bytes⟩ := w
  cases hook
  all_goals
    unfold deliver relayout isBadCode
    dsimp only
    split
    · rfl
    · split
      · rfl
      · split <;> rfl

variable [CodecSession σ] [RemapHook η] [Sink κ]

omit [CodecSession σ] [Sink κ] in
/-- Without a hook the codec gets the samples as they are. -/
theorem remap_of_none (h : w.hook = none) (samples : List Sample) :
    w.remap samples = (samples, w, []) := by
  rw [remap, h]
  split <;> rfl

/-- Neither does a call of the codec. -/
theorem emit_relayout (layout : StreamLayout) (w : PacketWriter σ η) (k : κ)
    (samples : List Sample) :
    (w.relayout layout).emit k samples
      = { w.emit k samples with writer := (w.emit k samples).writer.relayout layout } := by
  cases hhook : w.hook with
  | some hook =>
      -- A call leaves a writer that has a hook with a hook.
      obtain ⟨hook', hstill⟩ : ∃ hook', (w.emit k samples).writer.hook = some hook' := by
        rw [(w.hook_emit k samples).1, remap]
        split
        · exact ⟨hook, hhook⟩
        · rw [hhook]
          exact ⟨_, rfl⟩
      rw [relayout_of_some hhook, relayout_of_some hstill]
  | none =>
      obtain ⟨lease, frame, layout', hook, packets, bytes⟩ := w
      obtain rfl : hook = none := hhook
      have hthis :
          (⟨lease, frame, layout', none, packets, bytes⟩ : PacketWriter σ η).relayout layout
            = ⟨lease, frame, layout, none, packets, bytes⟩ := rfl
      rw [hthis]
      unfold emit
      rw [remap_of_none rfl, remap_of_none rfl]
      cases lease with
      | released remains => rfl
      | held session =>
          dsimp only
          have hdelivered := deliver_relayout layout
            (⟨.held (CodecSession.encodeQuantum session frame samples).session,
              (CodecSession.encodeQuantum session frame samples).frame, layout', none, packets,
              bytes⟩ : PacketWriter σ η) k samples
            (CodecSession.encodeQuantum session frame samples).code
          change deliver ⟨_, _, layout, none, packets, bytes⟩ _ _ _ = _ at hdelivered
          rw [hdelivered]

/-- Neither do the calls that drain it. -/
theorem drain_relayout (layout : StreamLayout) (w : PacketWriter σ η) (k : κ) :
    (w.relayout layout).drain k
      = { w.drain k with writer := (w.drain k).writer.relayout layout } := by
  fun_induction drain w k with
  | case1 w k n buffer w' k' events h rest ih =>
      have hthis := emit_relayout layout w k []
      rw [h] at hthis
      rw [drain_eq, hthis]
      dsimp only
      rw [ih]
  | case2 w k hlast =>
      rw [drain_eq, emit_relayout]
      dsimp only
      split
      next hok => exact (hlast _ _ _ _ _ (by rw [← hok])).elim
      next => rfl

theorem emitAll_relayout (layout : StreamLayout) (w : PacketWriter σ η) (k : κ)
    (samples : List Sample) :
    (w.relayout layout).emitAll k samples
      = { w.emitAll k samples with writer := (w.emitAll k samples).writer.relayout layout } := by
  unfold emitAll
  rw [emit_relayout]
  obtain ⟨outcome, buffer, w', k', events⟩ := w.emit k samples
  match outcome with
  | .ok (n + 1) =>
      dsimp only
      rw [drain_relayout]
  | .ok 0 => rfl
  | .error error => rfl

end PacketWriter

namespace Encoder

/-- The encoder with other settings, and with another layout unless a hook
would see it. -/
def relayout (settings : Settings) (layout : StreamLayout) (e : Encoder σ η) : Encoder σ η :=
  { e with settings := settings, writer := e.writer.relayout layout }

variable [CodecSession σ] [RemapHook η] [Sink κ]

/-- Encoding a block looks at neither the settings nor the layout. -/
theorem encode_relayout (settings : Settings) (layout : StreamLayout) (e : Encoder σ η)
    (samples : List Sample) (k : κ) :
    (e.relayout settings layout).encode samples k
      = { e.encode samples k with
          encoder := (e.encode samples k).encoder.relayout settings layout } := by
  have hpush := QuantumBuffer.push_map Output.consume Output.consume
    (fun o : Output σ η κ => { o with writer := o.writer.relayout layout })
    (fun o quantum => by
      show Output.consume (⟨o.writer.relayout layout, o.sink, o.events⟩ : Output σ η κ) quantum = _
      unfold Output.consume
      rw [PacketWriter.emit_relayout])
    e.gatherer samples ⟨e.writer, k, #[]⟩
  unfold encode
  have hready : (e.relayout settings layout).requireReady = e.requireReady := rfl
  rw [hready]
  cases e.requireReady with
  | error error => rfl
  | ok _ =>
      dsimp only [relayout]
      rw [hpush]
      dsimp only
      split
      · unfold fail
        split <;> rfl
      · rfl

/-- Neither does the flush. -/
theorem flush_relayout (settings : Settings) (layout : StreamLayout) (e : Encoder σ η) (k : κ) :
    (e.relayout settings layout).flush k
      = { e.flush k with encoder := (e.flush k).encoder.relayout settings layout } := by
  have hall := PacketWriter.emitAll_relayout layout e.writer k e.gatherer.pending
  have hready : (e.relayout settings layout).requireReady = e.requireReady := rfl
  unfold flush
  rw [hready]
  cases e.requireReady with
  | error error => rfl
  | ok _ =>
      dsimp only [relayout, QuantumBuffer.takePending]
      rw [hall]
      dsimp only
      split
      · unfold fail
        split <;> rfl
      · unfold packets bytes
        dsimp only
        rw [PacketWriter.packets_relayout, PacketWriter.bytes_relayout]

/-- Nor do both in a row. -/
theorem encode_flush_relayout (settings : Settings) (layout : StreamLayout) (e : Encoder σ η)
    (samples : List Sample) (k : κ) :
    ((e.relayout settings layout).encode samples k).andThen (fun e k => e.flush k)
      = let s := (e.encode samples k).andThen fun e k => e.flush k
        { s with encoder := s.encoder.relayout settings layout } := by
  rw [encode_relayout]
  obtain ⟨outcome, e', k', events⟩ := e.encode samples k
  cases outcome with
  | error error => rfl
  | ok _ =>
      show ((e'.relayout settings layout).flush k').after events = _
      rw [flush_relayout]
      rfl

end Encoder

end Packetizer
