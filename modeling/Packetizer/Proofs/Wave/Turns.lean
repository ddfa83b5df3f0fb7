import Packetizer.Proofs.Wave.Bounds
import Packetizer.Proofs.Wave.Truncation

/-!
# `Packetizer.Proofs.Wave.Turns`: a header is read in so many turns

The chunks of a header are read one after the other, and each says itself how
long it is. `Guarded.readHeader` reads as `readHeader` does, with two guards:
it gives up when it has used up its turns, one for each chunk, and when a size
that is calculated is negative or does not fit a word of 64 bits.

Neither guard is ever needed (`readHeader_guarded`). A chunk has a name and a
size of four bytes each, so a turn that is completed takes eight bytes at least,
and a source with `n` bytes has no more than `n / 8` such turns. The sizes are
numbers of 32 bits.

Within a turn the source may be read many times, in short pieces or interrupted.
How often is counted by `Counted`, and `Part.Thrifty` bounds it for each part of
a header.
-/

set_option autoImplicit false

namespace Packetizer

namespace Wave

/-! ### A reading with guards -/

/-- Why a guarded reading gives up. -/
inductive Stop where
  | outOfTurns
  /-- A number is negative or does not fit a word of 64 bits. -/
  | outOfRange
  /-- Reading fails without guards, too. -/
  | refused (error : Error)
  deriving DecidableEq

/-- A sum that fits a word of 64 bits. -/
def plus? (a b : Nat) : Option Nat := if a + b < 1 <<< 64 then some (a + b) else none

/-- What is read behind a chunk. -/
inductive AfterChunk where
  /-- The body of the data. The header is complete. -/
  | data (header : Header)
  /-- More chunks, with the format that is known by then. -/
  | chunks (known : Option Format)
  deriving DecidableEq

namespace Guarded

variable {ρ α β : Type}

/-- A reading without guards. -/
def bare (x : Reading Error ρ α) : Reading Stop ρ α := x.mapError .refused

/-- A number that was calculated, unless that was not possible. -/
def calculated (r : ρ) (n : Option Nat) : Reading Stop ρ Nat :=
  match n with
  | some n => ⟨.ok n, [], r⟩
  | none => ⟨.error .outOfRange, [], r⟩

variable [Source ρ]

/-- Reads the extension of an extensible format. -/
def readExtension (r : ρ) (tag channels rest : Nat) : Reading Stop ρ (Nat × Nat × Nat) :=
  if tag = extensibleTag ∧ extensionBytes ≤ rest then
    (bare (field r 4)).andThen fun _ r =>
    (bare (field r 4)).andThen fun mask r =>
    (bare (field r 2)).andThen fun tag r =>
    (calculated r (minus? rest extensionBytes)).andThen fun rest r =>
      let speakers := if mask = 0 then defaultSpeakers channels else mask
      bare (answer r (tag, speakers, rest))
  else bare (answer r (tag, defaultSpeakers channels, rest))

/-- Reads the body of a `fmt ` chunk with its padding. -/
def readFormat (r : ρ) (size : Nat) : Reading Stop ρ Format :=
  if size < 16 then bare (refuse r (.invalidFormat .shortChunk))
  else
    (bare (field r 2)).andThen fun tag r =>
    (bare (field r 2)).andThen fun channels r =>
    (bare (field r 4)).andThen fun rate r =>
    (bare (field r 4)).andThen fun _ r =>
    (bare (field r 2)).andThen fun blockAlign r =>
    (bare (field r 2)).andThen fun bits r =>
    (calculated r (minus? size 16)).andThen fun rest r =>
      if channels = 0 then bare (refuse r (.invalidFormat .noChannels))
      else if rate = 0 then bare (refuse r (.invalidFormat .noRate))
      else if blockAlign = 0 ∨ blockAlign % channels ≠ 0 then
        bare (refuse r (.invalidFormat .blockAlign))
      else
        (readExtension r tag channels rest).andThen fun (tag, speakers, rest) r =>
        (calculated r (plus? rest (size % 2))).andThen fun bytes r =>
        (bare (dropBytes r bytes)).andThen fun _ r =>
          match Encoding.ofTag? tag (blockAlign / channels) with
          | some encoding => bare (answer r ⟨encoding, channels, rate, blockAlign, speakers⟩)
          | none => bare (refuse r (.unsupportedFormat tag bits))

/-- Reads a chunk in front of the data. -/
def readBody (r : ρ) (known : Option Format) (name : List UInt8) (size : Nat) :
    Reading Stop ρ (Option Format) :=
  if name = chunkName "fmt " then (readFormat r size).map some
  else
    (calculated r (plus? size (size % 2))).andThen fun bytes r =>
      (bare (dropBytes r bytes)).map fun _ => known

/-- One turn: reads a chunk, the one with the data up to its body. -/
def readChunk (r : ρ) (known : Option Format) : Reading Stop ρ AfterChunk :=
  (bare (readChunkHead r)).andThen fun (name, size) r =>
    if name = chunkName "data" then
      match known with
      | none => bare (refuse r .missingFormat)
      | some format =>
          let header := headerOf format size
          ⟨.ok (.data header), [header.message], r⟩
    else (readBody r known name size).map .chunks

/-- Reads chunks up to the body of the data, in so many turns at most. -/
def readChunks : Nat → ρ → Option Format → Reading Stop ρ Header
  | 0, r, _ => ⟨.error .outOfTurns, [], r⟩
  | turns + 1, r, known =>
      (readChunk r known).andThen fun behind r =>
        match behind with
        | .data header => ⟨.ok header, [], r⟩
        | .chunks known => readChunks turns r known

/-- Reads a header with so many turns for its chunks. -/
def readHeader (turns : Nat) (r : ρ) : Reading Stop ρ Header :=
  (bare (nameField r)).andThen fun name r =>
  if name ≠ chunkName "RIFF" then bare (refuse r .notRiff)
  else
    (bare (field r 4)).andThen fun _ r =>
    (bare (nameField r)).andThen fun name r =>
      if name ≠ chunkName "WAVE" then bare (refuse r .notWave)
      else readChunks turns r none

/-! ### The guards are not needed -/

omit [Source ρ] in
/-- What goes on without guards has none. -/
theorem bare_andThen (x : Reading Error ρ α) (f : α → ρ → Reading Error ρ β) :
    bare (x.andThen f) = (bare x).andThen fun a r => bare (f a r) :=
  Reading.mapError_andThen x f Stop.refused

omit [Source ρ] in
theorem bare_map (x : Reading Error ρ α) (f : α → β) : bare (x.map f) = (bare x).map f :=
  Reading.mapError_map x f Stop.refused

omit [Source ρ] in
/-- A guard that lets a number pass makes no difference. -/
theorem calculated_some (r : ρ) (n : Nat) (f : Nat → ρ → Reading Stop ρ β) :
    (calculated r (some n)).andThen f = f n r := rfl

theorem readExtension_eq (r : ρ) (tag channels rest : Nat) :
    readExtension r tag channels rest = bare (Wave.readExtension r tag channels rest) := by
  unfold readExtension Wave.readExtension
  split
  next hroom =>
    simp only [bare_andThen, minus?, if_pos hroom.2, calculated_some]
  next => rfl

/-- An extension leaves no more of the chunk than there was. -/
theorem rest_of_readExtension {r : ρ} {tag channels rest tag' speakers rest' : Nat}
    (h : (Wave.readExtension r tag channels rest).outcome = .ok (tag', speakers, rest')) :
    rest' ≤ rest := by
  unfold Wave.readExtension at h
  split at h
  · obtain ⟨-, -, h⟩ := Reading.ok_of_andThen h
    obtain ⟨mask, -, h⟩ := Reading.ok_of_andThen h
    obtain ⟨tag, -, h⟩ := Reading.ok_of_andThen h
    cases h
    exact Nat.sub_le _ _
  · cases h
    exact Nat.le_refl _

/-- Numbers of 32 bits and a byte of padding have a sum of 64 bits. -/
theorem plus?_padding {size rest : Nat} (hsize : size < 1 <<< 32) (hrest : rest ≤ size) :
    plus? rest (size % 2) = some (rest + size % 2) := by
  unfold plus?
  rw [if_pos]
  simp only [Nat.shiftLeft_eq, Nat.one_mul] at *
  omega

theorem readFormat_eq (r : ρ) {size : Nat} (hsize : size < 1 <<< 32) :
    readFormat r size = bare (Wave.readFormat r size) := by
  unfold readFormat Wave.readFormat
  split
  next => rfl
  next hlong =>
    have hminus : minus? size 16 = some (size - 16) := if_pos (Nat.le_of_not_lt hlong)
    simp only [bare_andThen, hminus, calculated_some, readExtension_eq]
    apply Reading.andThen_congr; intro tag _
    apply Reading.andThen_congr; intro channels _
    apply Reading.andThen_congr; intro rate _
    apply Reading.andThen_congr; intro _ _
    apply Reading.andThen_congr; intro blockAlign _
    apply Reading.andThen_congr; intro bits _
    simp only [apply_ite bare, bare_andThen]
    apply ite_congr rfl (fun _ => rfl); intro _
    apply ite_congr rfl (fun _ => rfl); intro _
    apply ite_congr rfl (fun _ => rfl); intro _
    apply Reading.andThen_congr
    rintro ⟨tag', speakers, rest⟩ hextension
    have hrest : rest ≤ size := by
      have hle := rest_of_readExtension (Reading.ok_of_mapError hextension)
      omega
    simp only [plus?_padding hsize hrest, calculated_some]
    apply Reading.andThen_congr; intro _ _
    cases Encoding.ofTag? tag' (blockAlign / channels) <;> rfl

theorem readBody_eq (r : ρ) (known : Option Format) (name : List UInt8) {size : Nat}
    (hsize : size < 1 <<< 32) :
    readBody r known name size = bare (Wave.readBody r known name size) := by
  unfold readBody Wave.readBody
  simp only [apply_ite bare, bare_map, readFormat_eq r hsize,
    plus?_padding hsize (Nat.le_refl size), calculated_some]

/-- One turn and those behind it read what the chunks are without guards. -/
theorem readChunks_turn (r : ρ) (known : Option Format) :
    bare (Wave.readChunks r known) = (readChunk r known).andThen fun behind r =>
      match behind with
      | .data header => ⟨.ok header, [], r⟩
      | .chunks known => bare (Wave.readChunks r known) := by
  rw [Part.readChunks_eq, bare_andThen, readChunk, Reading.andThen_assoc]
  apply Reading.andThen_congr
  rintro ⟨name, size⟩ hhead
  have hsize := readChunkHead_lt (Reading.ok_of_mapError hhead)
  unfold Part.behindHead
  dsimp only
  split
  next hdata => cases known <;> rfl
  next hother => rw [readBody_eq _ known name hsize, bare_andThen, Reading.map_andThen]

/-! ### Eight bytes a turn -/

section
open Source (BytesLeft Later)

variable {left : ρ → Nat} {r : ρ} {known : Option Format} {behind : AfterChunk} {turns : Nat}

/-- The head of a chunk takes eight bytes. -/
theorem left_readChunkHead (hleft : BytesLeft left) {head : List UInt8 × Nat}
    (h : (readChunkHead r).outcome = .ok head) :
    left (readChunkHead r).source + 8 ≤ left r := by
  obtain ⟨name, hname, h⟩ := Reading.ok_of_andThen h
  obtain ⟨size, hsize, -⟩ := Reading.ok_of_andThen h
  have hfront := hleft.exactly (Reading.ok_of_mapError hname)
  obtain ⟨bs, hexactly, -⟩ := Reading.ok_of_map (Reading.ok_of_mapError hsize)
  have hback := hleft.exactly hexactly
  have hsource : (readChunkHead r).source = (Source.exactly (nameField r).source 4).source := by
    rw [readChunkHead, Reading.andThen_of_ok hname, Reading.source_after,
      Reading.andThen_of_ok hsize]
    rfl
  have hname : left (nameField r).source + 4 ≤ left r := hfront
  rw [hsource]
  omega

/-- A turn takes eight bytes. -/
theorem left_readChunk (hleft : BytesLeft left) (h : (readChunk r known).outcome = .ok behind) :
    left (readChunk r known).source + 8 ≤ left r := by
  obtain ⟨⟨name, size⟩, hhead, -⟩ := Reading.ok_of_andThen h
  have hok := Reading.ok_of_mapError hhead
  have htaken := left_readChunkHead hleft hok
  have hbody := hleft.later (later_readBody (readChunkHead r).source known name size)
  have hsize := readChunkHead_lt hok
  unfold readChunk
  rw [Reading.andThen_of_ok hhead, Reading.source_after]
  dsimp only
  split
  next => cases known <;> exact htaken
  next =>
    rw [readBody_eq _ known name hsize]
    exact Nat.le_trans (Nat.add_le_add_right hbody 8) htaken

/-- With a turn for every eight bytes and one more there are always turns left. -/
theorem readChunks_guarded (hleft : BytesLeft left) (h : left r / 8 < turns) :
    readChunks turns r known = bare (Wave.readChunks r known) := by
  induction turns generalizing r known with
  | zero => omega
  | succ turns ih =>
      rw [readChunks_turn, readChunks]
      apply Reading.andThen_congr
      intro behind hturn
      cases behind with
      | data header => rfl
      | chunks known =>
          have htaken := left_readChunk hleft hturn
          exact ih (by omega)

theorem readHeader_guarded (hleft : BytesLeft left) (h : left r / 8 < turns) :
    readHeader turns r = bare (Wave.readHeader r) := by
  unfold readHeader Wave.readHeader
  simp only [bare_andThen, apply_ite bare]
  apply Reading.andThen_congr; intro riff _
  apply ite_congr rfl (fun _ => rfl); intro _
  apply Reading.andThen_congr; intro size _
  apply Reading.andThen_congr; intro wave _
  apply ite_congr rfl (fun _ => rfl); intro _
  -- The fields in front of the chunks add nothing to the bytes that are left.
  have hlater := (later_nameField r).trans ((later_field _ 4).trans (later_nameField _))
  exact readChunks_guarded hleft
    (Nat.lt_of_le_of_lt (Nat.div_le_div_right (hleft.later hlater)) h)

end

end Guarded

/-! ### How often the source is read -/

namespace Part

variable {α β : Type}

/-- The part is read alike from a source that counts, and each read of it but
an idle one brings the end nearer. -/
structure Thrifty (p : Part α) : Prop where
  agrees : ∀ {ρ : Type} [Source ρ] (c : Counted ρ), c.Agrees (p ρ c.inner) (p (Counted ρ) c)

theorem Thrifty.andThen {p : Part α} {q : α → Part β} (hp : p.Thrifty)
    (hq : ∀ a, (q a).Thrifty) : Thrifty fun ρ _ r => (p ρ r).andThen fun a r => q a ρ r :=
  ⟨fun c => (hp.agrees c).andThen fun a _ => (hq a).agrees _⟩

theorem Thrifty.map {p : Part α} (hp : p.Thrifty) (f : α → β) :
    Thrifty fun ρ _ r => (p ρ r).map f :=
  ⟨fun c => (hp.agrees c).map f⟩

theorem Thrifty.ite {c : Prop} [Decidable c] {p q : Part α} (hp : p.Thrifty) (hq : q.Thrifty) :
    Thrifty fun ρ _ r => if c then p ρ r else q ρ r := by
  by_cases hc : c
  · simp only [if_pos hc]
    exact hp
  · simp only [if_neg hc]
    exact hq

theorem thrifty_answer (a : α) : Thrifty fun _ _ r => answer r a :=
  ⟨fun c => .still c _ _⟩

theorem thrifty_refuse (e : Error) : Thrifty fun _ _ r => (refuse r e : Reading Error _ α) :=
  ⟨fun c => .still c _ _⟩

theorem thrifty_nameField : Thrifty fun _ _ r => nameField r :=
  ⟨fun c => (c.exactly 4).mapError Error.stream⟩

theorem thrifty_field (width : Nat) : Thrifty fun _ _ r => field r width :=
  ⟨fun c => ((c.exactly width).map littleEndian).mapError Error.stream⟩

theorem thrifty_dropBytes (n : Nat) : Thrifty fun _ _ r => dropBytes r n :=
  ⟨fun c => (c.skip n).mapError Error.stream⟩

theorem thrifty_readExtension (tag channels rest : Nat) :
    Thrifty fun _ _ r => readExtension r tag channels rest := by
  refine Thrifty.ite ?_ (thrifty_answer _)
  apply Thrifty.andThen (thrifty_field 4); intro _
  apply Thrifty.andThen (thrifty_field 4); intro mask
  apply Thrifty.andThen (thrifty_field 2); intro tag
  exact thrifty_answer _

theorem thrifty_readFormat (size : Nat) : Thrifty fun _ _ r => readFormat r size := by
  apply Thrifty.ite (thrifty_refuse _)
  apply Thrifty.andThen (thrifty_field 2); intro tag
  apply Thrifty.andThen (thrifty_field 2); intro channels
  apply Thrifty.andThen (thrifty_field 4); intro rate
  apply Thrifty.andThen (thrifty_field 4); intro _
  apply Thrifty.andThen (thrifty_field 2); intro blockAlign
  apply Thrifty.andThen (thrifty_field 2); intro bits
  apply Thrifty.ite (thrifty_refuse _)
  apply Thrifty.ite (thrifty_refuse _)
  apply Thrifty.ite (thrifty_refuse _)
  apply Thrifty.andThen (thrifty_readExtension tag channels _); rintro ⟨tag, speakers, rest⟩
  apply Thrifty.andThen (thrifty_dropBytes _); intro _
  cases Encoding.ofTag? tag (blockAlign / channels) with
  | none => exact thrifty_refuse _
  | some encoding => exact thrifty_answer _

theorem thrifty_readBody (known : Option Format) (name : List UInt8) (size : Nat) :
    Thrifty fun _ _ r => readBody r known name size :=
  .ite ((thrifty_readFormat size).map some) ((thrifty_dropBytes _).map fun _ => known)

theorem thrifty_readChunkHead : Thrifty fun _ _ r => readChunkHead r := by
  apply Thrifty.andThen thrifty_nameField; intro name
  apply Thrifty.andThen (thrifty_field 4); intro size
  exact thrifty_answer (name, size)

/-- Chunk after chunk. The source becomes smaller with every one of them. -/
theorem thrifty_readChunks (known : Option Format) :
    Thrifty fun _ _ r => readChunks r known := by
  constructor
  intro ρ _ c
  induction hn : Source.size c.inner using Nat.strongRecOn generalizing c known with
  | _ n ih =>
      subst hn
      rw [readChunks_eq, readChunks_eq]
      have hhead := thrifty_readChunkHead.agrees c
      apply hhead.andThen
      intro head hok
      have hsmaller := size_readChunkHead_lt c.inner hok
      rw [← hhead.inner] at hsmaller
      generalize (readChunkHead c).source = behind at hsmaller
      unfold behindHead
      split
      next hdata => cases known <;> exact .still behind _ _
      next hother =>
        have hbody := (thrifty_readBody known head.1 head.2).agrees behind
        have hsize := size_readBody_le behind.inner known head.1 head.2
        apply hbody.andThen
        intro format _
        rw [← hbody.inner] at hsize
        exact ih _ (Nat.lt_of_le_of_lt hsize hsmaller) format _ rfl

theorem thrifty_readHeader : Thrifty fun _ _ r => readHeader r := by
  apply Thrifty.andThen thrifty_nameField; intro riff
  apply Thrifty.ite (thrifty_refuse _)
  apply Thrifty.andThen (thrifty_field 4); intro _
  apply Thrifty.andThen thrifty_nameField; intro wave
  exact .ite (thrifty_refuse _) (thrifty_readChunks none)

end Part

/-! ### Every header -/

/-- Whatever its bytes are and however the source delivers them, a header is
read or refused. It takes a turn for every eight bytes that are left and one more
at most, and no size is calculated that is negative or too large, so the guards
make no difference. Every turn that is completed takes eight bytes. All the
reads together are no more than the source has in it, and one that fails. -/
theorem header_within_turns {ρ : Type} [Source ρ] {left : ρ → Nat}
    (hleft : Source.BytesLeft left) (r : ρ) :
    Guarded.readHeader (left r / 8 + 1) r = Guarded.bare (readHeader r) ∧
      (∀ r' known behind, (Guarded.readChunk r' known).outcome = .ok behind →
        left (Guarded.readChunk r' known).source + 8 ≤ left r') ∧
      let counted := readHeader (⟨r, 0⟩ : Counted ρ)
      counted.outcome = (readHeader r).outcome ∧
        counted.source.inner = (readHeader r).source ∧
        counted.source.reads ≤ Source.size r + 1 := by
  have hcounted := Part.thrifty_readHeader.agrees (⟨r, 0⟩ : Counted ρ)
  refine ⟨Guarded.readHeader_guarded hleft (Nat.lt_succ_self _),
    fun r' known behind hturn => Guarded.left_readChunk hleft hturn,
    hcounted.outcome, hcounted.inner, ?_⟩
  have hreads := hcounted.reads
  have hidle : (readHeader r).idle ≤ 1 := by
    unfold Reading.idle
    split <;> omega
  dsimp only at hreads
  omega

open Rehearsal in
/-- An empty chunk, and then one that claims to be as long as can be told and is
cut off behind three bytes. -/
theorem header_within_turns_scripted :
    let chunks : List UInt8 := chunkName "LIST" ++ [0, 0, 0, 0]
      ++ chunkName "LIST" ++ [0xFF, 0xFF, 0xFF, 0xFF] ++ [1, 2, 3]
    let script : List ReadCue := [.deliver 1 none, .interrupt, .deliver 2 none, .interrupt]
    let r : ScriptedSource :=
      ⟨chunkName "RIFF" ++ [0, 0, 0, 0] ++ chunkName "WAVE" ++ chunks, script, true, 0⟩
    let behind : ScriptedSource := ⟨chunks, script, true, 12⟩
    Guarded.readHeader 4 r = Guarded.bare (readHeader r) ∧
      (readHeader r).outcome = .error (.stream .truncatedChunk) ∧
      (Guarded.readChunk behind none).outcome = .ok (.chunks none) ∧
      (Guarded.readChunk behind none).source.left.length + 8 ≤ 19 ∧
      (readHeader (⟨r, 0⟩ : Counted ScriptedSource)).source.reads ≤ 31 + 4 + 1 := by
  intro chunks script r behind
  obtain ⟨hguarded, hturns, -, -, hreads⟩ := header_within_turns ScriptedSource.bytesLeft r
  have hbytes : r.left.length = 31 := by decide +kernel
  have hchunks : behind.left.length = 19 := by decide +kernel
  have hsize : Source.size r = 31 + 4 := by
    show r.left.length + script.length = 31 + 4
    rw [hbytes]
    rfl
  have hturn : (Guarded.readChunk behind none).outcome = .ok (.chunks none) := by decide +kernel
  have htaken := hturns behind none _ hturn
  rw [hchunks] at htaken
  rw [hbytes] at hguarded
  rw [hsize] at hreads
  exact ⟨hguarded, by decide +kernel, hturn, htaken, hreads⟩

end Wave

end Packetizer
