import Packetizer.Proofs.Stream.Reading
import Packetizer.Stream.Stoppable

/-!
# `Packetizer.Proofs.Stream.Stopping`: no stop inside a frame

A `Stoppable` source goes on or stops by a flag. Somebody else sets the
flag, at any time and in both directions: `Signalled` sets it anew before
every read, as a list without end of flags says.

`GivesFrames` is what a reader of whole frames needs of a source. Filling
takes whole frames off the front, as long as the bytes that it could get
are whole frames, and leaves a source of the same kind. A source that
delivers its bytes is of that kind (`givesFrames_delivers`), and so is one
that stands between two frames and may be told to stop
(`Signalled.givesFrames`). The induction of the second one is on the reads
of one filling, in `Signalled.Holds.fill`: with the bytes delivered before
it, what can still be got is whole frames, and every read keeps that.
-/

set_option autoImplicit false

namespace Packetizer

variable {ρ : Type} [Source ρ]

/-! ### Sources of whole frames -/

/-- From a source in the state `P`, with some bytes left, filling takes
whole frames of `size` bytes and leaves it in that state. It takes fewer
bytes than it was asked for at the end of the bytes, or because of a stop,
if there can be one. -/
structure Source.GivesFrames (size : Nat) (stops : Prop) (P : ρ → List UInt8 → Prop) : Prop where
  fill : ∀ {r : ρ} {left : List UInt8} {n : Nat}, P r left → min n left.length % size = 0 →
    ∃ front back, left = front ++ back ∧ (Source.fill r n).outcome = .ok front ∧
      P (Source.fill r n).source back ∧ front.length ≤ n ∧ front.length % size = 0 ∧
      (front.length < n → back = [] ∨ stops)

/-- A source that delivers its bytes is never stopped. -/
theorem Source.givesFrames_delivers (size : Nat) :
    GivesFrames size False (Delivers : ρ → List UInt8 → Prop) where
  fill := by
    intro r left n h hwhole
    obtain ⟨hok, hrest⟩ := h.fill n
    refine ⟨_, _, (List.take_append_drop n left).symm, hok, hrest, List.length_take_le n left,
      ?_, ?_⟩
    · rw [List.length_take]
      exact hwhole
    · intro hshort
      rw [List.length_take] at hshort
      exact .inl (List.drop_of_length_le (by omega))

/-! ### The missing part of a frame -/

namespace Stoppable

variable {ρ : Type} {s : Stoppable ρ}

/-- Nothing is missing of a frame just between two frames. -/
theorem missing_eq_zero (hsize : 0 < s.frameBytes) :
    s.missing = 0 ↔ s.delivered % s.frameBytes = 0 := by
  have hlt := Nat.mod_lt s.delivered hsize
  rw [missing]
  rcases Nat.eq_zero_or_pos (s.delivered % s.frameBytes) with hzero | hpos
  · simp [hzero]
  · rw [Nat.mod_eq_of_lt (by omega)]
    omega

/-- What is missing does not reach past a frame boundary. -/
theorem delivered_add_missing (hsize : 0 < s.frameBytes) {frames : Nat}
    (h : s.delivered ≤ frames * s.frameBytes) :
    s.delivered + s.missing ≤ frames * s.frameBytes := by
  have hlt := Nat.mod_lt s.delivered hsize
  rw [missing]
  rcases Nat.eq_zero_or_pos (s.delivered % s.frameBytes) with hzero | hpos
  · rw [hzero, Nat.sub_zero, Nat.mod_self]
    exact h
  · -- The frame that has begun is one of the frames.
    have hinside : s.delivered ≠ frames * s.frameBytes := by
      intro hwhole
      rw [hwhole, Nat.mul_mod_left] at hpos
      exact absurd hpos (Nat.lt_irrefl 0)
    have hbegun : s.delivered / s.frameBytes + 1 ≤ frames :=
      (Nat.div_lt_iff_lt_mul hsize).mpr (Nat.lt_of_le_of_ne h hinside)
    have hall := Nat.mul_le_mul_right s.frameBytes hbegun
    have hsplit := Nat.div_add_mod' s.delivered s.frameBytes
    rw [Nat.succ_mul] at hall
    rw [Nat.mod_eq_of_lt (by omega)]
    omega

end Stoppable

/-! ### Flags -/

/-- A source with a flag that says whether to go on. -/
structure Switchable (ρ : Type) where
  source : ρ
  running : Bool

instance : Switched (Switchable ρ) where
  read s n :=
    let x := Source.read s.source n
    ⟨x.outcome, x.log, { s with source := x.source }⟩
  size s := Source.size s.source
  length_read s n := Source.length_read s.source n
  size_read_le s n := Source.size_read_le s.source n
  size_lt_of_ok s n := Source.size_lt_of_ok s.source n
  size_lt_of_interrupted s n := Source.size_lt_of_interrupted s.source n
  isRunning s := s.running

/-- A stoppable source whose flag is set before every read. `flags` says
to what, from the first read on, and `reads` counts the reads. -/
structure Signalled (ρ : Type) where
  reader : Stoppable (Switchable ρ)
  flags : Nat → Bool
  reads : Nat

namespace Signalled

/-- The source inside. -/
def source (s : Signalled ρ) : ρ := s.reader.inner.source

/-- The stoppable source as the next read finds it. -/
def signalled (s : Signalled ρ) : Stoppable (Switchable ρ) :=
  { s.reader with inner := { s.reader.inner with running := s.flags s.reads } }

instance : Source (Signalled ρ) where
  read s n :=
    let x := Source.read s.signalled n
    ⟨x.outcome, x.log, { s with reader := x.source, reads := s.reads + 1 }⟩
  size s := Source.size s.source
  length_read s n := Source.length_read s.signalled n
  size_read_le s n := Source.size_read_le s.signalled n
  size_lt_of_ok s n := Source.size_lt_of_ok s.signalled n
  size_lt_of_interrupted s n := Source.size_lt_of_interrupted s.signalled n

/-- The source inside delivers the bytes that are left, and `delivered`
of its bytes were read since the frames of `size` bytes were set. -/
structure Holds (size delivered : Nat) (s : Signalled ρ) (left : List UInt8) : Prop where
  frameBytes : s.reader.frameBytes = size
  delivered : s.reader.delivered = delivered
  source : Source.Delivers s.source left

variable {s : Signalled ρ} {size delivered n : Nat} {left : List UInt8}

/-- What a read of a source comes to that holds `left`: a piece of that, or
an interruption. Nothing is got at the end, or when the source is stopped,
and that is between two frames. -/
def Progress (size delivered : Nat) (left : List UInt8)
    (x : Reading StreamError (Signalled ρ) (List UInt8)) : Prop :=
  (x.outcome = .error .interrupted ∧ x.source.Holds size delivered left) ∨
  ∃ piece rest, x.outcome = .ok piece ∧ left = piece ++ rest ∧
    x.source.Holds size (delivered + piece.length) rest ∧
    (piece = [] → rest = [] ∨ delivered % size = 0)

/-- A read that is passed on, for `m` bytes, makes progress. -/
theorem Holds.pass (h : s.Holds size delivered left) {m : Nat} (hm : 0 < m)
    {x : Reading StreamError (Signalled ρ) (List UInt8)} {log : List Message}
    (hx : x = ⟨(s.signalled.pass m).outcome, log,
      { s with reader := (s.signalled.pass m).source, reads := s.reads + 1 }⟩) :
    Progress size delivered left x := by
  have hinner : Source.read s.signalled.inner m
      = ⟨(Source.read s.source m).outcome, (Source.read s.source m).log,
        ⟨(Source.read s.source m).source, s.flags s.reads⟩⟩ := rfl
  rw [Stoppable.pass, hinner] at hx
  rcases h.source.read hm with ⟨hno, hrest⟩ | ⟨piece, rest, hpiece, hleft, hend, hrest⟩
  · left
    rw [hno] at hx
    rw [hx]
    exact ⟨rfl, h.frameBytes, h.delivered, hrest⟩
  · right
    rw [hpiece] at hx
    refine ⟨piece, rest, by rw [hx], hleft, ?_, fun hnone => .inl (hend hnone)⟩
    rw [hx]
    exact ⟨h.frameBytes, congrArg (· + piece.length) h.delivered, hrest⟩

/-- Nothing is missing of a frame just between two frames. -/
theorem Holds.missing (h : s.Holds size delivered left) (hsize : 0 < size) :
    s.signalled.missing = 0 ↔ delivered % size = 0 := by
  rw [← h.frameBytes, ← h.delivered]
  exact Stoppable.missing_eq_zero (h.frameBytes.symm ▸ hsize)

/-- A read makes progress, whatever its flag says. -/
theorem Holds.read (h : s.Holds size delivered left) (hsize : 0 < size) (hn : 0 < n) :
    Progress size delivered left (Source.read s n) := by
  have hread : Source.read s n = ⟨(s.signalled.read n).outcome, (s.signalled.read n).log,
      { s with reader := (s.signalled.read n).source, reads := s.reads + 1 }⟩ := rfl
  unfold Stoppable.read at hread
  split at hread
  next => exact h.pass hn hread
  next =>
    split at hread
    next hwhole =>
      refine .inr ⟨[], left, by rw [hread], rfl, ?_, fun _ => .inr ((h.missing hsize).mp hwhole)⟩
      rw [hread]
      exact ⟨h.frameBytes, h.delivered, h.source⟩
    next hinside =>
      exact h.pass (Nat.lt_min.mpr ⟨hn, Nat.pos_of_ne_zero hinside⟩) hread

/-- Filling gets whole frames, together with what was delivered before,
if all that it can get is that. -/
theorem Holds.fill (h : s.Holds size delivered left) (hsize : 0 < size)
    (hwhole : (delivered + min n left.length) % size = 0) :
    let x := Source.fill s n
    ∃ front back, left = front ++ back ∧ x.outcome = .ok front ∧
      x.source.Holds size (delivered + front.length) back ∧ front.length ≤ n ∧
      (delivered + front.length) % size = 0 := by
  fun_induction Source.fill s n generalizing delivered left with
  | case1 s =>
      rw [Nat.zero_min] at hwhole
      exact ⟨[], left, rfl, rfl, h, Nat.le_refl _, hwhole⟩
  | case2 s n hn log rest hr =>
      rcases h.read hsize (Nat.pos_of_ne_zero hn) with
        ⟨hno, -⟩ | ⟨piece, back, hpiece, hleft, hrest, hend⟩
      · rw [hr] at hno
        cases hno
      · rw [hr] at hpiece hrest
        cases hpiece
        refine ⟨[], back, hleft, rfl, hrest, Nat.zero_le _, ?_⟩
        -- At the end there is nothing to get.
        rcases hend rfl with rfl | hbetween
        · rw [hleft] at hwhole
          simpa using hwhole
        · exact hbetween
  | case3 s n hn b bs log rest hr ih =>
      rcases h.read hsize (Nat.pos_of_ne_zero hn) with
        ⟨hno, -⟩ | ⟨piece, left, hpiece, rfl, hrest, -⟩
      · rw [hr] at hno
        cases hno
      · rw [hr] at hpiece hrest
        cases hpiece
        have hlen : (b :: bs).length ≤ n := Source.length_read s n _ (by rw [hr])
        rw [← List.length_cons (a := b)] at ih ⊢
        obtain ⟨front, back, hsplit, hok, hback, hle, hframes⟩ := ih hrest (by
          rw [← hwhole, List.length_append]
          congr 1
          omega)
        refine ⟨b :: bs ++ front, back, ?_, ?_, ?_, ?_, ?_⟩
        · rw [hsplit, List.append_assoc]
        · rw [Reading.outcome_after, Reading.outcome_map, hok]
          rfl
        · rw [List.length_append, ← Nat.add_assoc]
          exact hback
        · rw [List.length_append]
          omega
        · rw [List.length_append, ← Nat.add_assoc]
          exact hframes
  | case4 s n hn log rest hr ih =>
      rcases h.read hsize (Nat.pos_of_ne_zero hn) with ⟨-, hrest⟩ | ⟨piece, back, hpiece, -⟩
      · rw [hr] at hrest
        exact ih hrest hwhole
      · rw [hr] at hpiece
        cases hpiece
  | case5 s n hn error log rest hne hr =>
      rcases h.read hsize (Nat.pos_of_ne_zero hn) with ⟨hno, -⟩ | ⟨piece, back, hpiece, -⟩
      · rw [hr] at hno
        cases hno
        exact absurd rfl hne
      · rw [hr] at hpiece
        cases hpiece

end Signalled

/-! ### Sources that are not stopped -/

/-- The source is never told to stop, however much is read from it. -/
def Switched.KeepsRunning {ρ : Type} [Switched ρ] (r : ρ) : Prop :=
  ∀ r', Source.Later r r' → Switched.isRunning r' = true

theorem Switched.KeepsRunning.later {ρ : Type} [Switched ρ] {r r' : ρ} (h : KeepsRunning r)
    (hlater : Source.Later r r') : KeepsRunning r' :=
  fun _ hmore => h _ (hlater.trans hmore)

namespace Stoppable

variable {ρ : Type} [Switched ρ] {s s' : Stoppable ρ}

/-- Reads of a stoppable source are reads of the one inside. -/
theorem later_inner (h : Source.Later s s') : Source.Later s.inner s'.inner := by
  induction h with
  | refl => exact .refl _
  | @step s' reads n ih =>
      show Source.Later s.inner (s'.read n).source.inner
      unfold read
      split
      · exact .step ih n
      · split
        · exact ih
        · exact .step ih _

/-- While the source inside runs, a read is passed on as it is. -/
theorem read_of_running (h : Switched.isRunning s.inner = true) (n : Nat) :
    (Source.read s n).outcome = (Source.read s.inner n).outcome ∧
      (Source.read s n).source.inner = (Source.read s.inner n).source := by
  have hread : Source.read s n = s.pass n := if_pos h
  rw [hread]
  exact ⟨rfl, rfl⟩

/-- A stoppable source that is not stopped delivers what the source inside
delivers, whatever its frames are. -/
theorem delivers_iff (h : Switched.KeepsRunning s.inner) {bytes : List UInt8} :
    Source.Delivers s bytes ↔ Source.Delivers s.inner bytes := by
  constructor
  · intro hs
    refine hs.simulate (R := fun s r => s.inner = r ∧ Switched.KeepsRunning r) ?_ ⟨rfl, h⟩
    rintro s r ⟨rfl, hrunning⟩ n
    obtain ⟨houtcome, hinner⟩ := read_of_running (hrunning _ (.refl _)) n
    exact ⟨houtcome, hinner, hrunning.later (.step (.refl _) n)⟩
  · intro hr
    refine hr.simulate (R := fun r s => s.inner = r ∧ Switched.KeepsRunning r) ?_ ⟨rfl, h⟩
    rintro r s ⟨rfl, hrunning⟩ n
    obtain ⟨houtcome, hinner⟩ := read_of_running (hrunning _ (.refl _)) n
    exact ⟨houtcome.symm, hinner, hrunning.later (.step (.refl _) n)⟩

/-- So it makes no difference to set its frames. -/
theorem delivers_setFrameBytes (h : Switched.KeepsRunning s.inner) (size : Nat)
    {bytes : List UInt8} :
    Source.Delivers (s.setFrameBytes size) bytes ↔ Source.Delivers s bytes :=
  (delivers_iff (s := s.setFrameBytes size) h).trans (delivers_iff h).symm

end Stoppable

end Packetizer
