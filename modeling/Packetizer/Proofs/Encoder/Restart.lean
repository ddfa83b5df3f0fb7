import Packetizer.Codec.Escape
import Packetizer.Codec.Kind
import Packetizer.Proofs.Encoder.Run
import Packetizer.Proofs.Settings
import Packetizer.Rehearsal.Devices
import Packetizer.Rehearsal.ScriptedCodec

/-!
# `Packetizer.Proofs.Encoder.Restart`: encoders from the settings of others

Codecs complete settings by filling the layout and, at most, the size of a
packet (`Codec.Fills`), and both are done once. The settings of an encoder are
complete and no operation changes them, so an encoder that is started from them
has the same (`start_again`).
-/

set_option autoImplicit false

namespace Packetizer

/-! ### Codecs that fill settings -/

/-- The codec completes settings by filling the layout and, at most, the size
of a packet. -/
def Codec.Fills {γ σ : Type} [Codec γ σ] (codec : γ) : Prop :=
  (∀ s, Codec.complete codec s = s.fillLayout) ∨
    ∃ n, ∀ s, Codec.complete codec s = s.fillLayout.fillPacket n

theorem Linear16.fills : Codec.Fills linear16 := .inr ⟨defaultFrames, fun _ => rfl⟩

theorem Lossless.fills [LosslessCoder] : Codec.Fills lossless := .inr ⟨defaultFrames, fun _ => rfl⟩

/-- The codec that is chosen fills settings. -/
theorem CodecKind.fills [LosslessCoder] (kind : CodecKind) : Codec.Fills kind := by
  cases kind with
  | lossless => exact Lossless.fills
  | linear16 => exact Linear16.fills

section
variable {γ σ : Type} [Codec γ σ] {codec : γ}

/-- Completing settings again changes nothing. -/
theorem Codec.Fills.complete_complete (h : Codec.Fills codec) (s : Settings) :
    Codec.complete codec (Codec.complete codec s) = Codec.complete codec s := by
  rcases h with hlayout | ⟨n, hpacket⟩
  · rw [hlayout, hlayout, Settings.fillLayout_fillLayout]
  · rw [hpacket, hpacket, Settings.fillLayout_fillPacket, Settings.fillLayout_fillLayout,
      Settings.fillPacket_fillPacket]

/-- Completing settings keeps the channels. -/
theorem Codec.Fills.channels_complete (h : Codec.Fills codec) (s : Settings) :
    (Codec.complete codec s).channels = s.channels := by
  rcases h with hlayout | ⟨n, hpacket⟩
  · rw [hlayout, Settings.channels_fillLayout]
  · rw [hpacket, Settings.fillPacket]
    exact Settings.channels_fillLayout s

end

/-! ### Starting again -/

section
variable {σ η κ : Type} [CodecSession σ] [RemapHook η] [Sink κ]

/-- A move keeps the settings. -/
theorem Move.settings {e e' : Encoder σ η} {k k' : κ} {accepted : List Sample}
    {events : List Event} (h : Move e k accepted events e' k') : e'.settings = e.settings := by
  cases h <;> rfl

/-- A run keeps the settings. -/
theorem Encoder.settings_run {e : Encoder σ η} (hfits : e.gatherer.Fits) (k : κ)
    (ops : List (Operation η κ)) : (e.run k ops).encoder.settings = e.settings := by
  have hI : Run.Invariant fun _ _ (e' : Encoder σ η) => e'.settings = e.settings :=
    ⟨fun h hmove => hmove.settings.trans h, fun h => h⟩
  exact @invariant_run σ η κ _ _ _ _ hI e [] hfits rfl k ops

end

namespace Encoder

variable {γ σ η : Type} [Codec γ σ] [CodecSession σ] {codec : γ} {settings : Settings}
  {hook : Option η} {first : Encoder σ η} {opening : List Event}

/-- Whether an encoder starts, and with what settings, is not up to the hook. -/
theorem start_hook (h : start codec settings hook = .ready first opening) (hook' : Option η) :
    ∃ first' opening', start codec settings hook' = .ready first' opening' ∧
      first'.settings = first.settings := by
  cases hopen : Codec.openSession codec (Codec.complete codec settings) with
  | error fault =>
      rw [start_refused hopen] at h
      cases h
  | ok opened =>
      obtain ⟨s, log⟩ := opened
      rcases start_cases hopen hook with ⟨-, fault, heq⟩ |
        ⟨g, message, hchannels, hframes, hsize, heq⟩
      · rw [heq] at h
        cases h
      · rw [heq] at h
        cases h
        obtain ⟨opening', hstart⟩ := start_ready hopen hchannels hframes hsize hook'
        exact ⟨_, opening', hstart, rfl⟩

/-- Complete settings start an encoder as they did before they were completed. -/
theorem start_complete (hcodec : Codec.Fills codec) :
    start codec (Codec.complete codec settings) hook = start codec settings hook := by
  unfold start
  rw [hcodec.complete_complete]

/-- The settings of an encoder, whatever was done with it, start one with the
same settings. -/
theorem start_again [RemapHook η] (hcodec : Codec.Fills codec) {e : Encoder σ η}
    (h : Reachable codec e) (hook : Option η) :
    ∃ e' opening, start codec e.settings hook = .ready e' opening ∧ e'.settings = e.settings := by
  obtain ⟨κ, _, settings, hook', first, opening, k, ops, hstart, rfl⟩ := h
  obtain ⟨s, log, -, hfresh⟩ := fresh_of_start hstart
  have hfits : first.gatherer.Fits := QuantumBuffer.fits_of_carried hfresh.carried
  obtain ⟨s, log, g, -, -, -, hfirst⟩ := ofSession_of_start hstart
  have hsettings : first.settings = Codec.complete codec settings := by
    rw [hfirst]
    rfl
  rw [settings_run hfits, hsettings, start_complete hcodec, ← hsettings]
  exact start_hook hstart hook

end Encoder

namespace Settings

/-- Filling the layout changes the mode and the LFE only. It leaves both as they
are, or decides both so that they add up to the channels and keeps what was
given; a mask that decides alone has a speaker for each channel. Doing it again
changes nothing, so every codec that completes settings this way completes them
once, and an encoder can be started from the settings of another and has the
same. The codecs of the library do, whatever codes the lossless packets. -/
theorem layout_filled_once [LosslessCoder] (s : Settings) :
    let filled := s.fillLayout
    (filled = { s with mode := filled.mode, lfe := filled.lfe } ∧
      (filled = s ∨ ∃ mode lfe, filled.mode = some mode ∧ filled.lfe = some lfe ∧
        CodingMode.Fits s.channels s.mode s.lfe mode lfe) ∧
      (∀ mask mode, s.speakers = some mask → s.mode = none → s.lfe = none →
        filled.mode = some mode →
        (waveOrder mask).length = s.channels.toNat ∧
          filled.lfe = some (mask &&& CodingMode.lfeSpeaker != 0)) ∧
      filled.fillLayout = filled) ∧
    (Codec.Fills Linear16.linear16 ∧ Codec.Fills Lossless.lossless ∧
      ∀ kind : CodecKind, Codec.Fills kind) ∧
    ∀ {γ σ : Type} [Codec γ σ] (codec : γ), Codec.Fills codec →
      Codec.complete codec (Codec.complete codec s) = Codec.complete codec s ∧
      ∀ {η : Type} [CodecSession σ] [RemapHook η] (e : Encoder σ η), e.Reachable codec →
        ∀ hook : Option η, ∃ e' opening,
          Encoder.start codec e.settings hook = .ready e' opening ∧ e'.settings = e.settings := by
  refine ⟨⟨s.fillLayout_eq, ?_, ?_, s.fillLayout_fillLayout⟩, ⟨Linear16.fills, Lossless.fills,
    CodecKind.fills⟩, ?_⟩
  · cases h : s.fittingLayout with
    | none => exact .inl (fillLayout_of_none h)
    | some layout =>
        rw [fillLayout_of_fitting h]
        exact .inr ⟨_, _, rfl, rfl, fits_of_fitting h⟩
  · intro mask mode hmask hmode hlfe hset
    cases h : s.fittingLayout with
    | none =>
        -- Nothing fits, so the mode would still be open.
        rw [fillLayout_of_none h, hmode] at hset
        cases hset
    | some layout =>
        obtain ⟨hcount, hbit⟩ := fitting_of_mask hmask hmode hlfe h
        rw [fillLayout_of_fitting h, hbit]
        exact ⟨hcount, rfl⟩
  · intro γ σ _ codec hcodec
    refine ⟨hcodec.complete_complete s, ?_⟩
    intro η _ _ e hreach hook
    exact Encoder.start_again hcodec hreach hook

open Rehearsal in
/-- Six speakers give a mode with an LFE. An encoder that was started with them
and then closed starts another one, with a hook this time. -/
theorem layout_filled_once_six :
    let s : Settings := { channels := 6, speakers := some 0x60F }
    s.fillLayout = { s with mode := some .front3rear2, lfe := some true } ∧
      (waveOrder 0x60F).length = 6 ∧
      ∃ (e : Encoder Linear16.Session Hook) (e' : Encoder Linear16.Session Hook)
        (opening : List Event),
        e.Reachable Linear16.linear16 ∧ e.state = .closed ∧
        e.settings = s.fillLayout.fillPacket Linear16.defaultFrames ∧
        Encoder.start Linear16.linear16 e.settings (some Hook.a52) = .ready e' opening ∧
        e'.settings = e.settings := by
  intro s
  have hstart : Encoder.start Linear16.linear16 { channels := 6, speakers := some 0x60F }
      (none : Option Hook) = .ready _ _ := rfl
  have hreach := Encoder.reachable_run hstart (⟨[]⟩ : ScriptedSink) [.close]
  obtain ⟨⟨-, -, hmask, -⟩, ⟨hcodec, -, -⟩, hcodecs⟩ := layout_filled_once s
  obtain ⟨e', opening, hagain, hsame⟩ := (hcodecs _ hcodec).2 _ hreach (some Hook.a52)
  have hfill : s.fillLayout = { s with mode := some .front3rear2, lfe := some true } := by decide
  exact ⟨hfill, (hmask 0x60F .front3rear2 rfl rfl rfl (by rw [hfill])).1, _, e', opening, hreach,
    rfl, rfl, hagain, hsame⟩

end Settings

end Packetizer
