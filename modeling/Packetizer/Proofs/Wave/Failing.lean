import Mathlib.Algebra.GroupWithZero.Nat
import Packetizer.Proofs.Wave.Decoding

/-!
# `Packetizer.Proofs.Wave.Failing`: reading on after a failure

A reader whose source fails may be called again. What the failed call has
taken is gone by then: it is in no frame, and it was not taken off what
remains of the data.

So every byte is in a frame or was dropped, and the frames of a call begin
as far from a whole number of frames as the calls before it have dropped.
The bytes taken go beyond the stated size by no more than the failed calls
took, and a run at the end shows that both can happen. The invariant is
`Behind`, with `Behind.attempt` for one call and `Behind.attempts` for any
number of them.

The bytes are counted by `Tapped`, a source that keeps what it delivers.
Nothing else changes with it (`answers_attempts`).
-/

set_option autoImplicit false

namespace Packetizer

/-! ### A source that keeps what it delivers -/

/-- A source and the bytes that it has delivered. -/
structure Tapped (ρ : Type) where
  inner : ρ
  bytes : List UInt8

namespace Tapped

variable {ρ : Type} [Source ρ]

instance : Source (Tapped ρ) where
  read t n :=
    let x := Source.read t.inner n
    ⟨x.outcome, x.log, ⟨x.source, t.bytes ++ x.outcome.toOption.getD []⟩⟩
  size t := Source.size t.inner
  length_read t n := Source.length_read t.inner n
  size_read_le t n := Source.size_read_le t.inner n
  size_lt_of_ok t n := Source.size_lt_of_ok t.inner n
  size_lt_of_interrupted t n := Source.size_lt_of_interrupted t.inner n

/-- Filling gets what the source inside gives. The bytes it took are kept,
also when it failed. -/
theorem fill (t : Tapped ρ) (n : Nat) :
    let x := Source.fill t.inner n
    ∃ taken, Source.fill t n = ⟨x.outcome, x.log, ⟨x.source, t.bytes ++ taken⟩⟩ ∧
      taken.length ≤ n ∧ ∀ bs, x.outcome = .ok bs → taken = bs := by
  obtain ⟨r, bytes⟩ := t
  dsimp only
  -- A read of the tapped source is one of the source inside.
  have hread : ∀ {r : ρ} {n : Nat} {outcome : Except StreamError (List UInt8)}
      {log : List Message} {rest : ρ} (bytes : List UInt8), Source.read r n = ⟨outcome, log, rest⟩ →
      Source.read (⟨r, bytes⟩ : Tapped ρ) n
        = ⟨outcome, log, ⟨rest, bytes ++ outcome.toOption.getD []⟩⟩ := by
    intro r n outcome log rest bytes h
    show Reading.mk (Source.read r n).outcome (Source.read r n).log _ = _
    rw [h]
  fun_induction Source.fill r n generalizing bytes with
  | case1 r =>
      refine ⟨[], ?_, Nat.zero_le _, fun bs h => by cases h; rfl⟩
      rw [Source.fill, if_pos rfl, List.append_nil]
  | case2 r n hn log rest hr =>
      refine ⟨[], ?_, Nat.zero_le _, fun bs h => by cases h; rfl⟩
      rw [Source.fill, if_neg hn]
      split <;> rename_i hthis <;> rw [hread bytes hr] at hthis <;> cases hthis
      rfl
  | case3 r n hn b bs log rest hr ih =>
      obtain ⟨taken, hfill, hlen, hok⟩ := ih (bytes ++ (b :: bs))
      have hpiece : (b :: bs).length ≤ n := Source.length_read r n _ (by rw [hr])
      refine ⟨b :: bs ++ taken, ?_, ?_, fun all hall => ?_⟩
      · rw [Source.fill, if_neg hn]
        split <;> rename_i hthis <;> rw [hread bytes hr] at hthis <;> cases hthis
        rw [show (.ok (b :: bs) : Except StreamError (List UInt8)).toOption.getD [] = b :: bs
          from rfl, hfill, ← List.append_assoc]
        rfl
      · rw [List.length_append, List.length_cons] at *
        omega
      · obtain ⟨more, hmore, rfl⟩ := Reading.ok_of_map hall
        rw [hok more hmore]
  | case4 r n hn log rest hr ih =>
      obtain ⟨taken, hfill, hlen, hok⟩ := ih bytes
      refine ⟨taken, ?_, hlen, hok⟩
      rw [Source.fill, if_neg hn]
      split <;> rename_i hthis <;> rw [hread bytes hr] at hthis <;> cases hthis
      · rw [show (.error .interrupted : Except StreamError (List UInt8)).toOption.getD [] = []
          from rfl, List.append_nil, hfill]
        rfl
      · contradiction
  | case5 r n hn error log rest hne hr =>
      refine ⟨[], ?_, Nat.zero_le _, fun bs h => by cases h⟩
      rw [Source.fill, if_neg hn]
      split <;> rename_i hthis <;> rw [hread bytes hr] at hthis <;> cases hthis
      · exact absurd rfl hne
      · rfl

end Tapped

namespace Wave

/-! ### Calls that may fail -/

/-- A call of a reader: the bytes of the data that were taken before it,
those that it took, and its answer. -/
structure Attempt where
  start : Nat
  taken : List UInt8
  answer : Except StreamError (Nat × List Sample)

namespace Attempt

/-- The frames that the call answers. -/
def frames (a : Attempt) : Nat :=
  match a.answer with
  | .ok (n, _) => n
  | .error _ => 0

/-- The bytes that the call took and that are in no frame. -/
def dropped (align : Nat) (a : Attempt) : Nat := a.taken.length - a.frames * align

/-- The bytes that the call did not take off what remains of the data. -/
def uncounted (a : Attempt) : Nat :=
  match a.answer with
  | .ok _ => 0
  | .error _ => a.taken.length

/-- The frames of the call are the whole ones among the bytes that it
took. -/
def Decodes (header : Header) (a : Attempt) : Prop :=
  ∀ n out, a.answer = .ok (n, out) → n = a.taken.length / header.format.blockAlign ∧
    out.take (n * header.format.channels)
      = header.format.encoding.samples (a.taken.take (n * header.format.blockAlign))

/-- Every byte that a call takes is in a frame or is dropped. -/
theorem Decodes.conserved {header : Header} {a : Attempt} (h : a.Decodes header) :
    a.taken.length
      = a.frames * header.format.blockAlign + a.dropped header.format.blockAlign := by
  have hle : a.frames * header.format.blockAlign ≤ a.taken.length := by
    unfold frames
    split
    next n out hok => exact (h n out hok).1 ▸ Nat.div_mul_le_self _ _
    next => simp
  exact (Nat.add_sub_cancel' hle).symm

end Attempt

namespace Reader

variable {ρ : Type} [Source ρ]

/-- The answers of calls with some buffers, one after the other, also when
some of them fail. -/
def answers (w : Reader ρ) : List (List Sample) → List (Except StreamError (Nat × List Sample))
  | [] => []
  | buffer :: buffers => (w.readInto buffer).outcome :: (w.readInto buffer).source.answers buffers

/-- One call, with the bytes that it takes. -/
def attempt (w : Reader (Tapped ρ)) (buffer : List Sample) : Attempt :=
  let x := w.readInto buffer
  ⟨w.source.bytes.length, x.source.source.bytes.drop w.source.bytes.length, x.outcome⟩

/-- The calls with the bytes that they take. -/
def attempts (w : Reader (Tapped ρ)) : List (List Sample) → List Attempt
  | [] => []
  | buffer :: buffers => w.attempt buffer :: (w.readInto buffer).source.attempts buffers

/-- The reader with nothing kept of what its source delivers. -/
def untapped (w : Reader (Tapped ρ)) : Reader ρ := ⟨w.source.inner, w.header, w.remaining⟩

variable {header : Header} {w : Reader (Tapped ρ)}

/-- Nobody can tell that a source is tapped. -/
theorem readInto_untapped (w : Reader (Tapped ρ)) (buffer : List Sample) :
    (w.readInto buffer).outcome = (w.untapped.readInto buffer).outcome ∧
      (w.readInto buffer).source.untapped = (w.untapped.readInto buffer).source := by
  obtain ⟨taken, hfill, -⟩ := w.source.fill (w.wanted buffer.length)
  have hwanted : w.untapped.wanted buffer.length = w.wanted buffer.length := rfl
  have hsource : w.untapped.source = w.source.inner := rfl
  unfold readInto next
  rw [hfill, hwanted, hsource]
  cases houtcome : (Source.fill w.source.inner (w.wanted buffer.length)).outcome with
  | error error =>
      simp only [houtcome]
      exact ⟨rfl, rfl⟩
  | ok bytes =>
      simp only [houtcome]
      exact ⟨rfl, rfl⟩

theorem answers_attempts (w : Reader (Tapped ρ)) (buffers : List (List Sample)) :
    (w.attempts buffers).map Attempt.answer = w.untapped.answers buffers := by
  induction buffers generalizing w with
  | nil => rfl
  | cons buffer buffers ih =>
      obtain ⟨houtcome, hsource⟩ := w.readInto_untapped buffer
      rw [attempts, answers, List.map_cons, ih, hsource]
      exact congrArg (· :: _) houtcome

/-- One call takes no more than it wants. It fails, and then what remains
of the data is as before, or it answers the whole frames among the bytes
that it took. -/
theorem readInto_tapped (hfixed : w.header = header) (hs : header.format.Sound)
    (buffer : List Sample) :
    let x := w.readInto buffer
    ∃ taken : List UInt8, x.source.source.bytes = w.source.bytes ++ taken ∧
      taken.length ≤ w.wanted buffer.length ∧ x.source.header = header ∧
      ((∃ error, x.outcome = .error error) ∧ x.source.remaining = w.remaining ∨
        (∃ out, x.outcome = .ok (taken.length / header.format.blockAlign, out) ∧
          out.take (taken.length / header.format.blockAlign * header.format.channels)
            = header.format.encoding.samples
              (taken.take (taken.length / header.format.blockAlign * header.format.blockAlign))) ∧
        x.source.remaining = w.remaining.map (· - taken.length)) := by
  obtain ⟨taken, hfill, hlen, hok⟩ := w.source.fill (w.wanted buffer.length)
  refine ⟨taken, ?_⟩
  unfold readInto next
  rw [hfill]
  cases houtcome : (Source.fill w.source.inner (w.wanted buffer.length)).outcome with
  | error error =>
      dsimp only
      exact ⟨rfl, hlen, hfixed, .inl ⟨⟨error, rfl⟩, rfl⟩⟩
  | ok bytes =>
      obtain rfl := hok bytes houtcome
      have hcount := length_decode hfixed hs taken
      have hchannels : w.channels = header.format.channels := by rw [channels, hfixed]
      dsimp only
      refine ⟨rfl, hlen, hfixed,
        .inr ⟨⟨w.decode taken ++ buffer.drop (w.decode taken).length, ?_, ?_⟩, rfl⟩⟩
      · show Except.ok ((w.decode taken).length / w.channels, _) = _
        rw [hcount, hchannels, Nat.mul_div_cancel _ hs.channels_pos]
      · rw [← hcount, List.take_left, decode_eq hfixed hs]

/-- The reader has taken so many bytes of the data, of which it did not
count those that are `lost`. What it counted is gone from what remains. -/
structure Behind (header : Header) (stated counted lost : Nat) (w : Reader (Tapped ρ)) :
    Prop where
  fixed : w.header = header
  taken : w.source.bytes.length = counted + lost
  remaining : w.remaining = some (stated - counted)
  inside : counted ≤ stated

variable {stated counted lost : Nat}

/-- One call counts what it takes, unless it fails. -/
theorem Behind.attempt (h : Behind header stated counted lost w) (hs : header.format.Sound)
    (buffer : List Sample) :
    let a := w.attempt buffer
    a.Decodes header ∧ a.start = counted + lost ∧
      ∃ more, a.taken.length = more + a.uncounted ∧
        Behind header stated (counted + more) (lost + a.uncounted)
          (w.readInto buffer).source := by
  obtain ⟨taken, hbytes, hlen, hfixed, hcall⟩ := readInto_tapped h.fixed hs buffer
  have hroom : taken.length ≤ stated - counted := by
    rw [wanted, h.remaining] at hlen
    exact Nat.le_trans hlen (Nat.min_le_right _ _)
  have hinside := h.inside
  have htaken : (w.attempt buffer).taken = taken := by
    show ((w.readInto buffer).source.source.bytes).drop _ = _
    rw [hbytes, List.drop_left]
  have hlength : (w.readInto buffer).source.source.bytes.length
      = counted + lost + taken.length := by
    rw [hbytes, List.length_append, h.taken]
  intro a
  rcases hcall with ⟨⟨error, herror⟩, hremaining⟩ | ⟨⟨out, hok, hout⟩, hremaining⟩
  · have hanswer : a.answer = .error error := herror
    have huncounted : a.uncounted = taken.length := by
      rw [Attempt.uncounted, hanswer]
      exact congrArg List.length htaken
    refine ⟨?_, h.taken, 0, by rw [huncounted, Nat.zero_add, htaken], ?_⟩
    · intro n out hok
      rw [hanswer] at hok
      cases hok
    · exact ⟨hfixed, by rw [huncounted, hlength]; omega, by rw [hremaining, h.remaining]; rfl,
        hinside⟩
  · have hanswer : a.answer = .ok (taken.length / header.format.blockAlign, out) := hok
    have huncounted : a.uncounted = 0 := by rw [Attempt.uncounted, hanswer]
    refine ⟨?_, h.taken, taken.length, by rw [huncounted, htaken]; rfl, ?_⟩
    · intro n out' hok'
      rw [hanswer] at hok'
      cases hok'
      rw [htaken]
      exact ⟨rfl, hout⟩
    · refine ⟨hfixed, by rw [huncounted, hlength]; omega, ?_, by omega⟩
      rw [hremaining, h.remaining, Option.map_some]
      congr 1
      omega

/-- Any number of calls: each of them begins behind all that the earlier
ones took, and has taken no more than the data and what was not counted. -/
theorem Behind.attempts (h : Behind header stated counted lost w) (hs : header.format.Sound)
    {buffers : List (List Sample)} {earlier later : List Attempt} {a : Attempt}
    (hsplit : w.attempts buffers = earlier ++ a :: later) :
    (∀ b ∈ earlier ++ [a], b.Decodes header) ∧
      a.start = counted + lost + (earlier.map fun b => b.taken.length).sum ∧
      a.start + a.taken.length
        ≤ stated + lost + ((earlier ++ [a]).map Attempt.uncounted).sum := by
  induction buffers generalizing w counted lost earlier with
  | nil => simp [Reader.attempts] at hsplit
  | cons buffer buffers ih =>
      obtain ⟨hdecodes, hstart, more, hmore, hnext⟩ := h.attempt hs buffer
      rw [Reader.attempts] at hsplit
      cases earlier with
      | nil =>
          obtain ⟨rfl, -⟩ := List.cons.inj hsplit
          have hinside := hnext.inside
          simp only [List.nil_append, List.mem_singleton, List.map_nil, List.map_cons,
            List.sum_nil, List.sum_cons]
          exact ⟨fun b hb => hb ▸ hdecodes, hstart, by omega⟩
      | cons first earlier =>
          obtain ⟨rfl, hrest⟩ := List.cons.inj hsplit
          obtain ⟨hall, hbehind, hbound⟩ := ih hnext hrest
          simp only [List.cons_append, List.mem_cons, List.map_cons, List.sum_cons]
          refine ⟨?_, by omega, by omega⟩
          rintro b (rfl | hb)
          · exact hdecodes
          · exact hall b hb

/-! ### Whole runs -/

/-- Calls go on after some that failed. Each one answers the whole frames
among the bytes that it takes. It begins behind the frames answered so far
and behind the bytes that the earlier calls have dropped. The data are
overrun by no more than the bytes that failed calls have taken. -/
theorem bytes_accounted {r : ρ} (hread : (readHeader r).outcome = .ok header)
    (hstated : header.dataBytes = some stated) (buffers : List (List Sample)) :
    let w := ofHeader header (⟨(readHeader r).source, []⟩ : Tapped ρ)
    let align := header.format.blockAlign
    (w.attempts buffers).map Attempt.answer
        = (ofHeader header (readHeader r).source).answers buffers ∧
      ∀ earlier a later, w.attempts buffers = earlier ++ a :: later →
        a.Decodes header ∧
        a.start = (earlier.map Attempt.frames).sum * align
          + (earlier.map (Attempt.dropped align)).sum ∧
        a.start + a.taken.length
          ≤ stated + ((earlier ++ [a]).map Attempt.uncounted).sum := by
  intro w align
  have hs := readHeader_sound hread
  have hstart : Behind header stated 0 0 w := ⟨rfl, rfl, hstated, Nat.zero_le _⟩
  refine ⟨w.answers_attempts buffers, fun earlier a later hsplit => ?_⟩
  obtain ⟨hdecodes, hbehind, hbound⟩ := hstart.attempts hs.format hsplit
  refine ⟨hdecodes a (by simp), ?_, hbound⟩
  rw [hbehind, Nat.add_zero, Nat.zero_add]
  clear hsplit hbehind hbound
  induction earlier with
  | nil => simp
  | cons b earlier ih =>
      have hb : b.taken.length = b.frames * align + b.dropped align :=
        (hdecodes b (by simp)).conserved
      have hmore := ih fun c hc => hdecodes c (List.mem_cons_of_mem b hc)
      simp only [List.map_cons, List.sum_cons, Nat.add_mul]
      rw [hb, hmore]
      omega

open Rehearsal in
/-- The first call fails behind the sixth byte and the second one goes on
from there. -/
theorem bytes_accounted_scripted :
    let head : List UInt8 := chunkName "RIFF" ++ [0, 0, 0, 0] ++ chunkName "WAVE"
      ++ chunkName "fmt " ++ [16, 0, 0, 0]
      ++ [1, 0, 2, 0, 0x80, 0xBB, 0, 0, 0, 0xEE, 2, 0, 4, 0, 16, 0]
      ++ chunkName "data" ++ [12, 0, 0, 0]
    let body : List UInt8 := [1, 0, 2, 0, 3, 0, 4, 0, 5, 0, 6, 0] ++ chunkName "LIST"
    let r : ScriptedSource := ⟨head ++ body,
      List.replicate 13 (.deliver 100 none) ++ [.deliver 6 none, .fail], true, 0⟩
    let header : Header := ⟨⟨.s16, 2, 48000, 4, 3⟩, some 12⟩
    let buffers : List (List Sample) := [List.replicate 6 ⟨7⟩, List.replicate 6 ⟨7⟩]
    let w := ofHeader header (⟨(readHeader r).source, []⟩ : Tapped ScriptedSource)
    (readHeader r).outcome = .ok header ∧
      ∃ first second : Attempt, w.attempts buffers = [first, second] ∧
        first.dropped 4 = 6 ∧ second.start = 6 ∧ second.Decodes header ∧
        second.start + second.taken.length ≤ 12 + (first.uncounted + second.uncounted) := by
  intro head body r header buffers w
  have hread : (readHeader r).outcome = .ok header := by decide +kernel
  obtain ⟨-, hcalls⟩ := bytes_accounted hread rfl buffers
  have hsplit : w.attempts buffers = [w.attempt (List.replicate 6 ⟨7⟩)]
      ++ (w.readInto (List.replicate 6 ⟨7⟩)).source.attempt (List.replicate 6 ⟨7⟩) :: [] := rfl
  obtain ⟨hdecodes, hstart, hbound⟩ := hcalls _ _ _ hsplit
  refine ⟨hread, _, _, hsplit, by decide +kernel, ?_, hdecodes, ?_⟩
  · rw [hstart]
    decide +kernel
  · simpa using hbound

open Rehearsal in
/-- On the same run the second call answers two frames. They do not begin
between two frames, and the last of them ends behind the data. -/
theorem shifted_and_beyond :
    let head : List UInt8 := chunkName "RIFF" ++ [0, 0, 0, 0] ++ chunkName "WAVE"
      ++ chunkName "fmt " ++ [16, 0, 0, 0]
      ++ [1, 0, 2, 0, 0x80, 0xBB, 0, 0, 0, 0xEE, 2, 0, 4, 0, 16, 0]
      ++ chunkName "data" ++ [12, 0, 0, 0]
    let body : List UInt8 := [1, 0, 2, 0, 3, 0, 4, 0, 5, 0, 6, 0] ++ chunkName "LIST"
    let r : ScriptedSource := ⟨head ++ body,
      List.replicate 13 (.deliver 100 none) ++ [.deliver 6 none, .fail], true, 0⟩
    let header : Header := ⟨⟨.s16, 2, 48000, 4, 3⟩, some 12⟩
    let w := ofHeader header (⟨(readHeader r).source, []⟩ : Tapped ScriptedSource)
    (readHeader r).outcome = .ok header ∧
      ∃ a ∈ w.attempts [List.replicate 6 ⟨7⟩, List.replicate 6 ⟨7⟩],
        0 < a.frames ∧ a.start % 4 ≠ 0 ∧ 12 < a.start + a.frames * 4 := by
  decide +kernel

end Reader

end Wave

end Packetizer
