import Packetizer.Proofs.Audio.Speakers
import Packetizer.Settings

/-!
# `Packetizer.Proofs.Settings`: filling a layout once is enough

Both ways to decide a layout, from a channel count and from a speaker mask,
are one (`CodingMode.settle`) with different tables. What is settled adds up
to the channels and keeps what was given (`Fits`). A layout that fits is
settled as it is, whatever the table says, so filling a layout a second time
changes nothing (`fillLayout_fillLayout`).

Filling touches the mode and the LFE and reads neither of the settings that a
codec looks at, so it leaves what a codec thinks of them (`fillLayout_eq` and
the lemmas behind it).
-/

set_option autoImplicit false

namespace Packetizer

namespace CodingMode

/-! ### Settling a mode and an LFE -/

/-- The mode and the LFE fit the channels and keep what is given of them. -/
structure Fits (channels : UInt8) (given : Option CodingMode) (givenLfe : Option Bool)
    (mode : CodingMode) (lfe : Bool) : Prop where
  sum : mode.channels.toNat + lfe.toNat = channels.toNat
  mode : ∀ m ∈ given, m = mode
  lfe : ∀ l ∈ givenLfe, l = lfe

/-- The mode and the LFE of some channels, where a guess decides about the LFE
and a table about the mode if they are not given. -/
def settle (channels : UInt8) (given : Option CodingMode) (givenLfe : Option Bool)
    (guess : Bool) (table : Bool → UInt8 → Option CodingMode) : Option (CodingMode × Bool) :=
  match fullChannels channels (givenLfe.getD guess) with
  | none => none
  | some full =>
      match given with
      | some mode => if mode.channels = full then some (mode, givenLfe.getD guess) else none
      | none => (table (givenLfe.getD guess) full).map (·, givenLfe.getD guess)

theorem ofCount_eq_settle (channels : UInt8) (given : Option CodingMode)
    (givenLfe : Option Bool) :
    ofCount channels given givenLfe
      = settle channels given givenLfe (channels = 6) fun _ => ofFull? := rfl

theorem ofMask_eq_settle (channels : UInt8) (mask : UInt32) (given : Option CodingMode)
    (givenLfe : Option Bool) :
    ofMask channels mask given givenLfe
      = settle channels given givenLfe (mask &&& lfeSpeaker != 0) fun lfe =>
          ofSpeakers? (if lfe then mask &&& ~~~ lfeSpeaker else mask) := rfl

/-- A table of modes by their channels. -/
def IsTable (table : Bool → UInt8 → Option CodingMode) : Prop :=
  ∀ (lfe : Bool) (full : UInt8) (mode : CodingMode),
    table lfe full = some mode → mode.channels = full

theorem isTable_ofFull : IsTable fun _ => ofFull? := by
  intro lfe full mode h
  replace h : ofFull? full = some mode := h
  unfold ofFull? at h
  split at h
  case h_6 => cases h
  all_goals
    rename_i hfull
    cases h
    rw [← UInt8.ofNat_toNat (x := full), hfull]
    rfl

theorem isTable_ofSpeakers (mask : Bool → UInt32) : IsTable fun lfe => ofSpeakers? (mask lfe) := by
  intro lfe full mode h
  have hrows : ∀ row ∈ maskRows, row.2.2.channels = row.2.1 := by decide
  exact hrows _ (mem_maskRows h)

/-- The full-bandwidth channels are those of the mode exactly when the mode and
the LFE add up to the channels. -/
theorem fullChannels_eq_channels_iff {channels : UInt8} {mode : CodingMode} {lfe : Bool} :
    fullChannels channels lfe = some mode.channels ↔
      mode.channels.toNat + lfe.toNat = channels.toNat := by
  have hsum : (addLfe mode.channels lfe).toNat = mode.channels.toNat + lfe.toNat := by
    cases mode <;> cases lfe <;> rfl
  constructor
  · intro h
    rw [← hsum, addLfe_of_fullChannels h]
  · intro h
    rw [← hsum] at h
    rw [← UInt8.toNat_inj.mp h]
    cases mode <;> cases lfe <;> rfl

section
variable {channels : UInt8} {given : Option CodingMode} {givenLfe : Option Bool}
  {guess : Bool} {table : Bool → UInt8 → Option CodingMode} {mode : CodingMode} {lfe : Bool}

/-- What is settled fits. -/
theorem fits_of_settle (htable : IsTable table)
    (h : settle channels given givenLfe guess table = some (mode, lfe)) :
    Fits channels given givenLfe mode lfe := by
  unfold settle at h
  have hkept : ∀ l ∈ givenLfe, l = givenLfe.getD guess := by
    intro l hl
    rw [Option.mem_def.mp hl, Option.getD_some]
  split at h
  case h_1 => cases h
  case h_2 full hfull =>
    -- A mode that was given must have the channels that are left; one that comes
    -- out of the table has them anyway.
    cases given with
    | some m =>
        dsimp only at h
        split at h
        case isFalse => cases h
        case isTrue hsame =>
          cases h
          rw [← hsame] at hfull
          refine ⟨fullChannels_eq_channels_iff.mp hfull, ?_, hkept⟩
          intro m hm
          exact (Option.some.inj hm).symm
    | none =>
        obtain ⟨found, hfound, heq⟩ := Option.map_eq_some_iff.mp h
        cases heq
        rw [← htable _ _ _ hfound] at hfull
        exact ⟨fullChannels_eq_channels_iff.mp hfull, nofun, hkept⟩

/-- A layout that adds up is settled as it is. -/
theorem settle_of_sum (h : mode.channels.toNat + lfe.toNat = channels.toNat) :
    settle channels (some mode) (some lfe) guess table = some (mode, lfe) := by
  rw [settle, Option.getD_some, fullChannels_eq_channels_iff.mpr h]
  simp

end

end CodingMode

namespace Settings

/-! ### Filling the layout -/

/-- Settings are filled as one of the tables settles them. -/
theorem fittingLayout_cases (s : Settings) :
    ∃ (guess : Bool) (table : Bool → UInt8 → Option CodingMode), CodingMode.IsTable table ∧
      ∀ mode lfe, { s with mode := mode, lfe := lfe : Settings }.fittingLayout
        = CodingMode.settle s.channels mode lfe guess table := by
  cases hspeakers : s.speakers with
  | none =>
      refine ⟨s.channels = 6, fun _ => CodingMode.ofFull?, CodingMode.isTable_ofFull, ?_⟩
      intro mode lfe
      exact CodingMode.ofCount_eq_settle _ _ _
  | some mask =>
      refine ⟨mask &&& CodingMode.lfeSpeaker != 0, _, CodingMode.isTable_ofSpeakers
        fun lfe => if lfe then mask &&& ~~~ CodingMode.lfeSpeaker else mask, ?_⟩
      intro mode lfe
      exact CodingMode.ofMask_eq_settle _ _ _ _

/-- The layout that fits is filled in, if there is one. -/
theorem fillLayout_of_fitting {s : Settings} {mode : CodingMode} {lfe : Bool}
    (h : s.fittingLayout = some (mode, lfe)) :
    s.fillLayout = { s with mode := some mode, lfe := some lfe } := by
  rw [fillLayout, h]

theorem fillLayout_of_none {s : Settings} (h : s.fittingLayout = none) : s.fillLayout = s := by
  rw [fillLayout, h]

/-- A layout that is filled in fits. -/
theorem fits_of_fitting {s : Settings} {mode : CodingMode} {lfe : Bool}
    (h : s.fittingLayout = some (mode, lfe)) :
    CodingMode.Fits s.channels s.mode s.lfe mode lfe := by
  obtain ⟨guess, table, htable, hsettle⟩ := s.fittingLayout_cases
  rw [← show { s with mode := s.mode, lfe := s.lfe : Settings } = s from rfl, hsettle] at h
  exact CodingMode.fits_of_settle htable h

/-- Filling the layout again changes nothing. -/
@[simp] theorem fillLayout_fillLayout (s : Settings) : s.fillLayout.fillLayout = s.fillLayout := by
  cases h : s.fittingLayout with
  | none => rw [fillLayout_of_none h, fillLayout_of_none h]
  | some layout =>
      obtain ⟨mode, lfe⟩ := layout
      obtain ⟨guess, table, -, hsettle⟩ := s.fittingLayout_cases
      rw [fillLayout_of_fitting h]
      refine fillLayout_of_fitting ?_
      -- The same table is asked again, but with both given it has no say.
      rw [hsettle]
      exact CodingMode.settle_of_sum (fits_of_fitting h).sum

/-- Filling the layout decides about the mode and the LFE only. -/
theorem fillLayout_eq (s : Settings) :
    s.fillLayout = { s with mode := s.fillLayout.mode, lfe := s.fillLayout.lfe } := by
  cases h : s.fittingLayout with
  | none => simp only [fillLayout_of_none h]
  | some layout => simp only [fillLayout_of_fitting h]

@[simp] theorem channels_fillLayout (s : Settings) : s.fillLayout.channels = s.channels := by
  rw [fillLayout_eq]

@[simp] theorem framesPerPacket_fillLayout (s : Settings) :
    s.fillLayout.framesPerPacket = s.framesPerPacket := by
  rw [fillLayout_eq]

@[simp] theorem requireFixedRate_fillLayout (s : Settings) (codec : String) :
    s.fillLayout.requireFixedRate codec = s.requireFixedRate codec := by
  rw [fillLayout_eq]
  rfl

/-- The size of a packet plays no part in the layout. -/
theorem fillLayout_withPacket (s : Settings) (n : Option FrameCount) :
    { s with framesPerPacket := n : Settings }.fillLayout
      = { s.fillLayout with framesPerPacket := n } := by
  have hsame : { s with framesPerPacket := n : Settings }.fittingLayout = s.fittingLayout := rfl
  cases h : s.fittingLayout with
  | none => rw [fillLayout_of_none h, fillLayout_of_none (hsame.trans h)]
  | some layout => rw [fillLayout_of_fitting h, fillLayout_of_fitting (hsame.trans h)]

theorem fillLayout_fillPacket (s : Settings) (n : FrameCount) :
    (s.fillPacket n).fillLayout = s.fillLayout.fillPacket n := by
  simp [fillPacket, fillLayout_withPacket]

@[simp] theorem fillPacket_fillPacket (s : Settings) (n : FrameCount) :
    (s.fillPacket n).fillPacket n = s.fillPacket n := rfl

/-- A mask that decides alone has a speaker for each channel, and decides about
the LFE by its bit. -/
theorem fitting_of_mask {s : Settings} {mask : UInt32} (hmask : s.speakers = some mask)
    (hmode : s.mode = none) (hlfe : s.lfe = none) {mode : CodingMode} {lfe : Bool}
    (h : s.fittingLayout = some (mode, lfe)) :
    (waveOrder mask).length = s.channels.toNat ∧ lfe = (mask &&& CodingMode.lfeSpeaker != 0) := by
  rw [fittingLayout, hmask, hmode, hlfe] at h
  obtain ⟨hbit, speakers, full, hrow, heq, hchannels⟩ := CodingMode.ofMask_cases h
  refine ⟨?_, hbit⟩
  rw [heq, hchannels]
  exact (CodingMode.orders_of_row _ hrow lfe).1

end Settings

end Packetizer
