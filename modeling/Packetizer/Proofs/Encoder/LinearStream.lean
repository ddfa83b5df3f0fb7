import Packetizer.Proofs.Codec.Linear16
import Packetizer.Proofs.Encoder.Chunking
import Packetizer.Proofs.Encoder.Delivery
import Packetizer.Proofs.Rehearsal.Devices

/-!
# `Packetizer.Proofs.Encoder.LinearStream`: a stream of 16-bit audio

An encoder for 16-bit audio writes two bytes for each sample and nothing
else, in A/52 order if the hook asks for that, and neither the size of a
packet nor the cut into blocks can be told from what it writes.

The invariant is `Packs`: the session answers every call with the bytes
of its samples, and the frame buffer has room for a quantum. A batch of
calls then writes the bytes of its quanta, each arranged by itself. A
quantum is whole frames, and the arrangement works frame by frame, so
that this is the arrangement of all the quanta together. What is carried
over needs no such argument: it is arranged with what comes behind it.
-/

set_option autoImplicit false

namespace Packetizer

open Linear16 (IsLinear)

/-- The samples as the hook for A/52 order leaves them. -/
def A52Order.arrange (hook : Option A52Order) (layout : StreamLayout) (samples : List Sample) :
    List Sample :=
  match hook with
  | none => samples
  | some .a52Order => layout.toA52 samples

namespace A52Order

variable (hook : Option A52Order) (layout : StreamLayout)

@[simp] theorem arrange_nil : arrange hook layout [] = [] := by
  cases hook with
  | none => rfl
  | some hook => exact layout.toA52_nil

@[simp] theorem length_arrange (samples : List Sample) :
    (arrange hook layout samples).length = samples.length := by
  cases hook with
  | none => rfl
  | some hook => exact layout.length_toA52 samples

/-- Whole frames are arranged as if they stood alone. -/
theorem arrange_append {xs : List Sample} (h : xs.length % layout.channels.toNat = 0)
    (ys : List Sample) :
    arrange hook layout (xs ++ ys) = arrange hook layout xs ++ arrange hook layout ys := by
  cases hook with
  | none => rfl
  | some hook => exact layout.toA52_append h ys

/-- Quanta of whole frames are arranged one by one or all together. -/
theorem arrange_flatten {quanta : List (List Sample)}
    (h : ∀ quantum ∈ quanta, quantum.length % layout.channels.toNat = 0) :
    arrange hook layout quanta.flatten = quanta.flatMap (arrange hook layout) := by
  induction quanta with
  | nil => simp
  | cons quantum quanta ih =>
      rw [List.flatten_cons, arrange_append hook layout (h quantum List.mem_cons_self),
        ih fun q hq => h q (List.mem_cons_of_mem _ hq), List.flatMap_cons]

end A52Order

variable {σ κ : Type} [CodecSession σ] [Sink κ]

/-! ### Calls of the codec -/

/-- The writer holds a session of 16-bit audio and has room for the
packet of `most` samples. -/
structure PacketWriter.Packs (most : Nat) (s : σ) (w : PacketWriter σ A52Order) : Prop where
  lease : w.lease = .held s
  room : 2 * most ≤ w.frame.size

namespace PacketWriter

omit [CodecSession σ] in
theorem remap_a52 (w : PacketWriter σ A52Order) (samples : List Sample) :
    (w.remap samples).1 = A52Order.arrange w.hook w.layout samples ∧
      (w.remap samples).2.1.hook = w.hook := by
  obtain ⟨lease, frame, layout, hook, packets, bytes⟩ := w
  by_cases hempty : samples.isEmpty
  · rw [remap, if_pos hempty, List.isEmpty_iff.mp hempty, A52Order.arrange_nil]
    exact ⟨rfl, rfl⟩
  · rw [remap, if_neg hempty]
    cases hook <;> exact ⟨rfl, rfl⟩

variable {most : Nat} {s : σ} {w : PacketWriter σ A52Order} {k : κ} {samples : List Sample}

/-- A call with up to `most` samples writes their bytes. -/
theorem Packs.emit (h : w.Packs most s) (hs : IsLinear most s) (hk : Sink.NeverFails k)
    (hlen : samples.length ≤ most) :
    (∃ n, (w.emit k samples).outcome = .ok n) ∧
      bytesTaken (w.emit k samples).events
        = Linear16.encode (A52Order.arrange w.hook w.layout samples) ∧
      (w.emit k samples).writer.Packs most s ∧
      (w.emit k samples).writer.hook = w.hook ∧
      (w.emit k samples).writer.layout = w.layout ∧
      Sink.NeverFails (w.emit k samples).sink := by
  obtain ⟨hgiven, hhook⟩ := w.remap_a52 samples
  obtain ⟨hhook', hlayout⟩ := w.hook_emit k samples
  obtain ⟨hsink, htaken⟩ := emit_of_neverFails hk w samples
  have hreports := reports_emit h.lease k samples
  rw [hgiven] at hreports
  obtain ⟨hsession, hsound, hpacket⟩ := hs.answer w.frame
    (A52Order.arrange w.hook w.layout samples) (hreports.length_given ▸ hlen) h.room
  have hpacks : (w.emit k samples).writer.Packs most s := by
    constructor
    · rw [hreports.lease, hsession]
    · rw [hreports.frame, CodecSession.size_frame]
      exact h.room
  -- The answer fits a packet and the sink takes it, which leaves one case.
  cases hreports.settled with
  | refused failure => exact absurd failure hsound
  | torn packet sound error rest outcome => exact absurd outcome (htaken error)
  | written sound outcome taken =>
      rw [hpacket] at taken
      exact ⟨⟨_, outcome⟩, taken, hpacks, hhook'.trans hhook, hlayout, hsink⟩

end PacketWriter

/-- A batch writes the bytes of its quanta and does not fail. -/
theorem Batch.packs {most : Nat} {s : σ} {w w' : PacketWriter σ A52Order} {k k' : κ}
    {quanta : List (List Sample)} {outcome : Except EncodeError Unit} {events : List Event}
    (h : Batch w k quanta outcome w' k' events) (hw : w.Packs most s) (hs : IsLinear most s)
    (hk : Sink.NeverFails k) (hlen : ∀ quantum ∈ quanta, quantum.length ≤ most) :
    outcome = .ok () ∧
      bytesTaken events
        = Linear16.encode (quanta.flatMap (A52Order.arrange w.hook w.layout)) ∧
      w'.Packs most s ∧ w'.hook = w.hook ∧ w'.layout = w.layout ∧ Sink.NeverFails k' := by
  induction h with
  | nil => exact ⟨rfl, rfl, hw, rfl, rfl, hk⟩
  | @broken w k quantum error failed =>
      obtain ⟨⟨n, hok⟩, -⟩ := hw.emit hs hk (hlen quantum List.mem_cons_self)
      rw [hok] at failed
      cases failed
  | @cons w w' k k' quantum quanta outcome events n made rest ih =>
      obtain ⟨-, htaken, hpacks, hhook, hlayout, hsink⟩ :=
        hw.emit hs hk (hlen quantum List.mem_cons_self)
      have hmore := ih hpacks hsink fun q hq => hlen q (List.mem_cons_of_mem _ hq)
      rw [hhook, hlayout] at hmore
      obtain ⟨hok, htaken', hpacks', hhook', hlayout', hsink'⟩ := hmore
      refine ⟨hok, ?_, hpacks', hhook', hlayout', hsink'⟩
      rw [bytesTaken_append, htaken, htaken', List.flatMap_cons, Linear16.encode_append]

namespace Encoder

/-! ### Blocks -/

/-- The encoder is ready, its session is one of 16-bit audio, and its
frames are those of the layout. -/
structure Packs (s : σ) (hook : Option A52Order) (layout : StreamLayout)
    (e : Encoder σ A52Order) : Prop where
  state : e.state = .ready
  fits : e.gatherer.Fits
  channels : e.channels = layout.channels.toNat
  linear : IsLinear e.quantum s
  writer : e.writer.Packs e.quantum s
  hook : e.writer.hook = hook
  layout : e.writer.layout = layout

variable {s : σ} {hook : Option A52Order} {layout : StreamLayout} {e : Encoder σ A52Order} {k : κ}

/-- Encoding a block writes the bytes of the quanta that it fills. With
what is carried over afterwards they are what was carried before and
the block. -/
theorem Packs.encode (h : e.Packs s hook layout) (hk : Sink.NeverFails k) {block : List Sample}
    (hwhole : block.length % e.channels = 0) :
    (e.encode block k).outcome = .ok () ∧ (e.encode block k).encoder.Packs s hook layout ∧
      Sink.NeverFails (e.encode block k).sink ∧
      ∀ more, bytesTaken (e.encode block k).events
          ++ Linear16.encode (A52Order.arrange hook layout
            ((e.encode block k).encoder.gatherer.pending ++ more))
        = Linear16.encode (A52Order.arrange hook layout
            (e.gatherer.pending ++ block ++ more)) := by
  rcases encode_cases h.state h.fits hwhole k with
    ⟨quanta, b, w, k', events, before, after, hgathers, hbatch, heq⟩ |
    ⟨quanta, error, b, w, k', events, before, after, hlens, -, -, hbatch, -⟩
  · have hquantum : b.quantum = e.quantum := congrArg Geometry.quantum hgathers.geometry
    have hchannels : b.channels = e.channels := congrArg Geometry.channels hgathers.geometry
    have hlens : ∀ quantum ∈ quanta, quantum.length ≤ e.quantum :=
      fun q hq => Nat.le_of_eq (hgathers.full q hq)
    obtain ⟨-, htaken, hpacks, hhook, hlayout, hsink⟩ :=
      hbatch.packs h.writer h.linear hk hlens
    rw [heq]
    refine ⟨rfl, ?_, hsink, ?_⟩
    · have hlinear := h.linear
      rw [← hquantum] at hpacks hlinear
      exact ⟨h.state, hgathers.fits, hchannels.trans h.channels, hlinear, hpacks,
        hhook.trans h.hook, hlayout.trans h.layout⟩
    · intro more
      -- A quantum is whole frames.
      have hframes : ∀ quantum ∈ quanta, quantum.length % layout.channels.toNat = 0 := by
        intro q hq
        rw [hgathers.full q hq, ← h.channels]
        exact Nat.mul_mod_left _ _
      show bytesTaken (Event.ofLog before ++ events ++ Event.ofLog after)
        ++ Linear16.encode (A52Order.arrange hook layout (b.pending ++ more)) = _
      rw [bytesTaken_logged, htaken, h.hook, h.layout, ← A52Order.arrange_flatten _ _ hframes,
        ← Linear16.encode_append, ← A52Order.arrange_append _ _ (whole_flatten hframes),
        ← List.append_assoc, hgathers.conserved]
  · -- No call fails, so no batch ends that way.
    obtain ⟨hok, -⟩ := hbatch.packs h.writer h.linear hk fun q hq => Nat.le_of_eq (hlens q hq)
    cases hok

/-- The flush writes the bytes of what is carried over. -/
theorem Packs.flush (h : e.Packs s hook layout) (hk : Sink.NeverFails k) :
    (e.flush k).outcome = .ok () ∧ Sink.NeverFails (e.flush k).sink ∧
      bytesTaken (e.flush k).events
        = Linear16.encode (A52Order.arrange hook layout e.gatherer.pending) := by
  obtain ⟨n, hbatch⟩ := e.writer.batch_emitAll k e.gatherer.pending
  have hlens : ∀ quantum ∈ e.gatherer.pending :: List.replicate n [],
      quantum.length ≤ e.quantum := by
    intro q hq
    rcases List.mem_cons.mp hq with rfl | hmem
    · rw [h.fits.length_pending]
      exact Nat.le_of_lt h.fits.carried_lt
    · rw [List.eq_of_mem_replicate hmem]
      exact Nat.zero_le _
  obtain ⟨hok, htaken, -, -, -, hsink⟩ := hbatch.packs h.writer h.linear hk hlens
  -- The calls that drain the session have no samples and write nothing.
  have hdrain : (List.replicate n ([] : List Sample)).flatMap (A52Order.arrange hook layout)
      = [] := by
    refine List.flatMap_eq_nil_iff.mpr fun q hq => ?_
    rw [List.eq_of_mem_replicate hq, A52Order.arrange_nil]
  rw [h.hook, h.layout, List.flatMap_cons, hdrain, List.append_nil] at htaken
  rw [flush_of_ready h.state]
  dsimp only
  cases hout : (e.writer.emitAll k e.gatherer.pending).outcome with
  | error error =>
      rw [hout] at hok
      cases hok
  | ok m =>
      refine ⟨rfl, hsink, ?_⟩
      dsimp only
      rw [bytesTaken_logged]
      exact htaken

/-- Blocks and the flush behind them write the bytes of what is carried
over and of the blocks. -/
theorem Packs.encodeBlocks (h : e.Packs s hook layout) (hk : Sink.NeverFails k)
    {blocks : List (List Sample)} (hwhole : ∀ block ∈ blocks, block.length % e.channels = 0) :
    (e.encodeBlocks k blocks).outcome = .ok () ∧ Sink.NeverFails (e.encodeBlocks k blocks).sink ∧
      bytesTaken (e.encodeBlocks k blocks).events
        = Linear16.encode (A52Order.arrange hook layout
            (e.gatherer.pending ++ blocks.flatten)) := by
  induction blocks generalizing e k with
  | nil =>
      rw [List.flatten_nil, List.append_nil]
      exact h.flush hk
  | cons block blocks ih =>
      obtain ⟨hok, hpacks, hsink, htaken⟩ := h.encode hk (hwhole block List.mem_cons_self)
      have hchannels := hpacks.channels.trans h.channels.symm
      obtain ⟨hok', hsink', htaken'⟩ := ih hpacks hsink fun b hb => by
        rw [hchannels]
        exact hwhole b (List.mem_cons_of_mem _ hb)
      rw [Encoder.encodeBlocks, Step.andThen_of_ok _ hok]
      refine ⟨hok', hsink', ?_⟩
      show bytesTaken ((e.encode block k).events ++ _) = _
      rw [bytesTaken_append, htaken', htaken, List.flatten_cons, List.append_assoc]

/-! ### Whole streams -/

/-- An encoder that begins with a session of 16-bit audio packs. -/
theorem packs_ofSession {settings : Settings} {g : Geometry} {size : Nat}
    (hchannels : g.channels = settings.channels.toNat) (hlinear : IsLinear g.quantum s)
    (hroom : 2 * g.quantum ≤ size) (hook : Option A52Order) :
    (ofSession settings s g size hook).Packs s hook settings.layout :=
  ⟨rfl, QuantumBuffer.fits_of_carried rfl, hchannels, hlinear, ⟨rfl, hroom⟩, rfl, rfl⟩

/-- An encoder that was started for 16-bit audio packs. -/
theorem packs_of_start {settings : Settings} {hook : Option A52Order}
    {first : Encoder Linear16.Session A52Order} {opening : List Event}
    (hstart : start Linear16.linear16 settings hook = .ready first opening)
    (hcode : 2 * ((settings.framesPerPacket.getD Linear16.defaultFrames).toNat
      * settings.channels.toNat) ≤ Linear16.maxCode) :
    ∃ s, first.Packs s hook settings.fillLayout.layout ∧
      first.channels = settings.channels.toNat ∧ first.gatherer.pending = [] := by
  obtain ⟨s, log, g, hopen, hchannels, hframes, rfl⟩ := ofSession_of_start hstart
  obtain ⟨hsettings, -, hlayout⟩ := Linear16.complete_eq settings
  have hfits : 2 * g.quantum ≤ Linear16.maxCode := by
    rw [Geometry.quantum, hframes, hchannels, hsettings, Linear16.openSession_eq hopen]
    exact hcode
  obtain ⟨hquantum, hsize⟩ := Linear16.quantum_of_openSession hopen hchannels hframes
    (Nat.lt_of_le_of_lt hfits (by decide))
  refine ⟨s, ?_, hchannels.trans (congrArg UInt8.toNat hsettings), rfl⟩
  rw [← hlayout]
  exact packs_ofSession hchannels (Linear16.Session.isLinear hquantum hfits)
    (Nat.le_of_eq hsize.symm) hook

/-- What a sink holds in the end: the packets of a stream are its bytes
one behind the other, for any size of a packet and any blocks. -/
theorem taken_encodeBlocks_of_start {settings : Settings} {n : Option FrameCount}
    {hook : Option A52Order} {first : Encoder Linear16.Session A52Order} {opening : List Event}
    (hstart : start Linear16.linear16 { settings with framesPerPacket := n } hook
      = .ready first opening)
    (hcode : 2 * ((n.getD Linear16.defaultFrames).toNat * settings.channels.toNat)
      ≤ Linear16.maxCode)
    {k : κ} (hk : Sink.NeverFails k) {blocks : List (List Sample)}
    (hwhole : ∀ block ∈ blocks, block.length % settings.channels.toNat = 0) :
    let s := first.encodeBlocks (⟨k, []⟩ : Recorded κ) blocks
    first.writer.layout = settings.fillLayout.layout ∧ s.outcome = .ok () ∧
      s.sink.taken
        = Linear16.encode (A52Order.arrange hook settings.fillLayout.layout blocks.flatten) := by
  obtain ⟨s, hpacks, hchannels, hpending⟩ := packs_of_start hstart hcode
  rw [Linear16.layout_withPacket] at hpacks
  have hwhole' : ∀ block ∈ blocks, block.length % first.channels = 0 := by
    rw [hchannels]
    exact hwhole
  obtain ⟨hok, -, htaken⟩ := hpacks.encodeBlocks (hk.recorded []) hwhole'
  obtain ⟨accepted, hmoves⟩ := moves_encodeBlocks hpacks.fits (⟨k, []⟩ : Recorded κ) blocks
  refine ⟨hpacks.layout, hok, ?_⟩
  rw [hmoves.taken, htaken, hpending]
  rfl

/-- A stream of 16-bit audio is the two bytes of each sample, the high
one first, after the change of channel order if there is one. All calls
succeed, and neither the size of a packet nor the cut into blocks makes
a difference. -/
theorem linear16_stream {settings : Settings} {n : Option FrameCount} {hook : Option A52Order}
    {first : Encoder Linear16.Session A52Order} {opening : List Event}
    (hstart : start Linear16.linear16 { settings with framesPerPacket := n } hook
      = .ready first opening)
    (hcode : 2 * ((n.getD Linear16.defaultFrames).toNat * settings.channels.toNat)
      ≤ Linear16.maxCode)
    {k : κ} (hk : Sink.NeverFails k) {blocks : List (List Sample)}
    (hwhole : ∀ block ∈ blocks, block.length % settings.channels.toNat = 0) :
    let s := first.encodeBlocks (⟨k, []⟩ : Recorded κ) blocks
    (s.outcome = .ok () ∧
      s.sink.taken = (A52Order.arrange hook first.writer.layout blocks.flatten).flatMap
        (fun sample => bigEndian16 sample.toLinear16) ∧
      s.sink.taken.length = 2 * blocks.flatten.length) ∧
    ∀ {κ' : Type} [Sink κ'] {n' : Option FrameCount}
      {first' : Encoder Linear16.Session A52Order} {opening' : List Event} {k' : κ'}
      {blocks' : List (List Sample)},
      start Linear16.linear16 { settings with framesPerPacket := n' } hook
        = .ready first' opening' →
      2 * ((n'.getD Linear16.defaultFrames).toNat * settings.channels.toNat)
        ≤ Linear16.maxCode →
      Sink.NeverFails k' →
      (∀ block ∈ blocks', block.length % settings.channels.toNat = 0) →
      blocks'.flatten = blocks.flatten →
      (first'.encodeBlocks (⟨k', []⟩ : Recorded κ') blocks').sink.taken = s.sink.taken := by
  obtain ⟨hlayout, hok, htaken⟩ := taken_encodeBlocks_of_start hstart hcode hk hwhole
  intro s
  refine ⟨⟨hok, ?_, ?_⟩, ?_⟩
  · rw [hlayout]
    exact htaken
  · rw [htaken, Linear16.length_encode, A52Order.length_arrange]
  · intro κ' _ n' first' opening' k' blocks' hstart' hcode' hk' hwhole' hsame
    obtain ⟨-, -, htaken'⟩ := taken_encodeBlocks_of_start hstart' hcode' hk' hwhole'
    rw [htaken', htaken, hsame]

open Rehearsal in
/-- Two frames of six channels, in packets of one frame and in one packet
that they do not fill. The first sink takes a packet in pieces. -/
theorem linear16_stream_scripted :
    ∃ (first first' : Encoder Linear16.Session A52Order) (opening opening' : List Event),
      start Linear16.linear16 { channels := 6, framesPerPacket := some ⟨1⟩ } (some .a52Order)
        = .ready first opening ∧
      start Linear16.linear16 { channels := 6, framesPerPacket := some ⟨5⟩ } (some .a52Order)
        = .ready first' opening' ∧
      let k : ScriptedSink := ⟨[.accept 3, .interrupt, .accept 1]⟩
      let front : List Sample := [⟨0⟩, ⟨0x3F800000⟩, ⟨0xBF800000⟩, ⟨0⟩, ⟨0x3F000000⟩, ⟨0⟩]
      let back : List Sample := List.replicate 6 ⟨0xBF000000⟩
      (first.encodeBlocks (⟨k, []⟩ : Recorded ScriptedSink) [front, back]).sink.taken
        = [0, 0, 128, 1, 127, 255, 64, 0, 0, 0, 0, 0] ++ [192, 0, 192, 0, 192, 0, 192, 0, 192, 0,
          192, 0] ∧
      (first'.encodeBlocks (⟨⟨[]⟩, []⟩ : Recorded ScriptedSink) [[], front ++ back]).sink.taken
        = (first.encodeBlocks (⟨k, []⟩ : Recorded ScriptedSink) [front, back]).sink.taken := by
  have hstart : start Linear16.linear16
      { ({ channels := 6 } : Settings) with framesPerPacket := some ⟨1⟩ } (some A52Order.a52Order)
      = .ready _ _ := rfl
  have hstart' : start Linear16.linear16
      { ({ channels := 6 } : Settings) with framesPerPacket := some ⟨5⟩ } (some A52Order.a52Order)
      = .ready _ _ := rfl
  refine ⟨_, _, _, _, hstart, hstart', ?_⟩
  intro k front back
  have hk : Sink.NeverFails k := ScriptedSink.neverFails (by decide)
  have hk' : Sink.NeverFails (⟨[]⟩ : ScriptedSink) := ScriptedSink.neverFails (by decide)
  have hwhole : ∀ block ∈ [front, back], block.length % 6 = 0 := by decide
  have hwhole' : ∀ block ∈ [[], front ++ back], block.length % 6 = 0 := by decide
  obtain ⟨⟨-, htaken, -⟩, hsame⟩ := linear16_stream hstart (by decide) hk hwhole
  constructor
  · -- The channels first, and then the arithmetic of the samples.
    have harrange : A52Order.arrange (some .a52Order) ⟨6, .float, some .front3rear2, true⟩
        [front, back].flatten
        = [⟨0⟩, ⟨0xBF800000⟩, ⟨0x3F800000⟩, ⟨0x3F000000⟩, ⟨0⟩, ⟨0⟩] ++ back := by cbv
    refine htaken.trans ((congrArg Linear16.encode harrange).trans ?_)
    decide +kernel
  · exact hsame hstart' (by decide) hk' hwhole' (by decide)

end Encoder

end Packetizer
