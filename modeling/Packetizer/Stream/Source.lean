import Packetizer.Log
import Packetizer.Stream.Error

/-!
# `Packetizer.Stream.Source`: where bytes come from

A `Source` answers a read of `n` bytes with up to `n` bytes, with none
at its end, or with a failure. It may deliver less than asked for and
may be interrupted, and its `size` bounds how often it can still do
either, so reading on always ends. `fill` reads until it has enough,
`exactly` insists on it, and `skip` reads bytes that nobody wants.
-/

set_option autoImplicit false

namespace Packetizer

/-- What reading gave: bytes or something made of them, or a failure;
what was logged; and the source after it. -/
structure Reading (ε ρ α : Type) where
  outcome : Except ε α
  log : List Message
  source : ρ

/-- A source of bytes. -/
class Source (ρ : Type) where
  /-- One read of up to so many bytes. No bytes mean the end. -/
  read : ρ → Nat → Reading StreamError ρ (List UInt8)
  /-- A bound on the reads that deliver something or are interrupted. -/
  size : ρ → Nat
  /-- A read delivers no more than it was asked for. -/
  length_read : ∀ r n bs, (read r n).outcome = .ok bs → bs.length ≤ n
  /-- A read never moves the end away. -/
  size_read_le : ∀ r n, size (read r n).source ≤ size r
  /-- A read that delivers bytes brings the end nearer. -/
  size_lt_of_ok : ∀ r n b bs, (read r n).outcome = .ok (b :: bs) →
    size (read r n).source < size r
  /-- So does an interruption. -/
  size_lt_of_interrupted : ∀ r n, (read r n).outcome = .error .interrupted →
    size (read r n).source < size r

/-- A source that somebody may want to stop. -/
class Switched (ρ : Type) extends Source ρ where
  /-- Whether the source is to go on. -/
  isRunning : ρ → Bool

namespace Reading

variable {ε ρ α β : Type}

/-- The same reading with more in front of its log. -/
def after (log : List Message) (x : Reading ε ρ α) : Reading ε ρ α :=
  { x with log := log ++ x.log }

/-- The same reading with its bytes made into something else. -/
def map (f : α → β) (x : Reading ε ρ α) : Reading ε ρ β :=
  ⟨x.outcome.map f, x.log, x.source⟩

/-- Goes on reading with what was read, unless reading failed. -/
def andThen (x : Reading ε ρ α) (f : α → ρ → Reading ε ρ β) : Reading ε ρ β :=
  match x.outcome with
  | .ok a => (f a x.source).after x.log
  | .error e => ⟨.error e, x.log, x.source⟩

/-- The same reading with its failure put in other words. -/
def mapError {ε₂ : Type} (f : ε → ε₂) (x : Reading ε ρ α) : Reading ε₂ ρ α :=
  ⟨x.outcome.mapError f, x.log, x.source⟩

@[simp] theorem source_after (log : List Message) (x : Reading ε ρ α) :
    (x.after log).source = x.source := rfl

@[simp] theorem outcome_after (log : List Message) (x : Reading ε ρ α) :
    (x.after log).outcome = x.outcome := rfl

@[simp] theorem source_map (f : α → β) (x : Reading ε ρ α) :
    (x.map f).source = x.source := rfl

@[simp] theorem outcome_map (f : α → β) (x : Reading ε ρ α) :
    (x.map f).outcome = x.outcome.map f := rfl

end Reading

namespace Source

variable {ρ : Type} [Source ρ]

/-- Reads until there are `n` bytes or the source is at its end, and
repeats a read that was interrupted. On a failure the bytes already
taken are lost. -/
def fill (r : ρ) (n : Nat) : Reading StreamError ρ (List UInt8) :=
  if n = 0 then ⟨.ok [], [], r⟩
  else
    match _h : read r n with
    | ⟨.ok [], log, rest⟩ => ⟨.ok [], log, rest⟩
    | ⟨.ok (b :: bs), log, rest⟩ =>
        ((fill rest (n - (bs.length + 1))).map ((b :: bs) ++ ·)).after log
    | ⟨.error .interrupted, log, rest⟩ => (fill rest n).after log
    | ⟨.error e, log, rest⟩ => ⟨.error e, log, rest⟩
termination_by size r
decreasing_by
  · have := size_lt_of_ok r n b bs (by rw [_h])
    rwa [_h] at this
  · have := size_lt_of_interrupted r n (by rw [_h])
    rwa [_h] at this

/-- Reads `n` bytes, no fewer. -/
def exactly (r : ρ) (n : Nat) : Reading StreamError ρ (List UInt8) :=
  (fill r n).andThen fun bs rest =>
    ⟨if bs.length < n then .error .endInsideField else .ok bs, [], rest⟩

/-- Reads a number of `width` bytes, the low one first. -/
def word (r : ρ) (width : Nat) : Reading StreamError ρ Nat :=
  (exactly r width).map littleEndian

/-- The bytes that one read of `skip` asks for at most. -/
def skipBlock : Nat := 8192

/-- Reads `n` bytes and drops them, a block at a time. -/
def skip (r : ρ) (n : Nat) : Reading StreamError ρ Unit :=
  if n = 0 then ⟨.ok (), [], r⟩
  else
    match _h : read r (min n skipBlock) with
    | ⟨.ok [], log, rest⟩ => ⟨.error .truncatedChunk, log, rest⟩
    | ⟨.ok (_ :: bs), log, rest⟩ => (skip rest (n - (bs.length + 1))).after log
    | ⟨.error .interrupted, log, rest⟩ => (skip rest n).after log
    | ⟨.error e, log, rest⟩ => ⟨.error e, log, rest⟩
termination_by size r
decreasing_by
  · have := size_lt_of_ok r (min n skipBlock) _ bs (by rw [_h])
    rwa [_h] at this
  · have := size_lt_of_interrupted r (min n skipBlock) (by rw [_h])
    rwa [_h] at this

/-- Filling delivers no more than was asked for. -/
theorem length_fill (r : ρ) (n : Nat) {bs : List UInt8}
    (h : (fill r n).outcome = .ok bs) : bs.length ≤ n := by
  fun_induction fill r n generalizing bs with
  | case1 => cases h; exact Nat.zero_le _
  | case2 => cases h; exact Nat.zero_le _
  | case3 r n hn b cs log rest hr ih =>
      -- The read keeps to its limit, and filling the rest to what is missing.
      have hlen := length_read r n (b :: cs) (by rw [hr])
      cases hf : (fill rest (n - (cs.length + 1))).outcome with
      | error e => simp [hf, Except.map] at h
      | ok ds =>
          simp only [Reading.outcome_after, Reading.outcome_map, hf, Except.map,
            Except.ok.injEq] at h
          have := ih hf
          simp only [List.length_cons] at hlen
          rw [← h, List.length_append, List.length_cons]
          omega
  | case4 r n _ log rest hr ih => exact ih h
  | case5 => cases h

/-- Filling never moves the end away. -/
theorem size_fill_le (r : ρ) (n : Nat) : size (fill r n).source ≤ size r := by
  fun_induction fill r n with
  | case1 => exact Nat.le_refl _
  | case2 r n _ log rest hr =>
      have := size_read_le r n
      rwa [hr] at this
  | case3 r n _ b bs log rest hr ih =>
      have := size_read_le r n
      rw [hr] at this
      exact Nat.le_trans ih this
  | case4 r n _ log rest hr ih =>
      have := size_read_le r n
      rw [hr] at this
      exact Nat.le_trans ih this
  | case5 r n _ e log rest _ hr =>
      have := size_read_le r n
      rwa [hr] at this

/-- Filling that delivers bytes brings the end nearer. -/
theorem size_fill_lt (r : ρ) (n : Nat) {b : UInt8} {bs : List UInt8}
    (h : (fill r n).outcome = .ok (b :: bs)) : size (fill r n).source < size r := by
  fun_induction fill r n generalizing b bs with
  | case1 => cases h
  | case2 => cases h
  | case3 r n _ c cs log rest hr _ =>
      -- The first read has brought the end nearer, and no later one moves it.
      have := size_lt_of_ok r n c cs (by rw [hr])
      rw [hr] at this
      exact Nat.lt_of_le_of_lt (size_fill_le rest _) this
  | case4 r n _ log rest hr ih =>
      have := size_read_le r n
      rw [hr] at this
      exact Nat.lt_of_lt_of_le (ih h) this
  | case5 => cases h

/-- What `exactly` delivers has the length asked for, and what it
leaves of the source is what filling leaves. -/
theorem exactly_eq (r : ρ) (n : Nat) :
    (exactly r n).source = (fill r n).source ∧
      ∀ bs, (exactly r n).outcome = .ok bs → (fill r n).outcome = .ok bs ∧ bs.length = n := by
  unfold exactly Reading.andThen
  cases hf : (fill r n).outcome with
  | error e => exact ⟨rfl, fun bs h => by cases h⟩
  | ok cs =>
      refine ⟨rfl, fun bs h => ?_⟩
      have hle := length_fill r n hf
      simp only [Reading.outcome_after] at h
      split at h
      · cases h
      · cases h
        exact ⟨rfl, by omega⟩

/-- Reading a field never moves the end away. -/
theorem size_word_le (r : ρ) (width : Nat) : size (word r width).source ≤ size r := by
  rw [word, Reading.source_map, (exactly_eq r width).1]
  exact size_fill_le r width

/-- Reading a field that takes bytes brings the end nearer. -/
theorem size_exactly_lt (r : ρ) {n : Nat} (hn : 0 < n) {bs : List UInt8}
    (h : (exactly r n).outcome = .ok bs) : size (exactly r n).source < size r := by
  obtain ⟨hsource, hok⟩ := exactly_eq r n
  obtain ⟨hfill, hlen⟩ := hok bs h
  rw [hsource]
  match bs, hfill with
  | [], _ => simp at hlen; omega
  | b :: bs, hfill => exact size_fill_lt r n hfill

/-- Skipping never moves the end away. -/
theorem size_skip_le (r : ρ) (n : Nat) : size (skip r n).source ≤ size r := by
  fun_induction skip r n with
  | case1 => exact Nat.le_refl _
  | case2 r n _ log rest hr =>
      have := size_read_le r (min n skipBlock)
      rwa [hr] at this
  | case3 r n _ b bs log rest hr ih =>
      have := size_read_le r (min n skipBlock)
      rw [hr] at this
      exact Nat.le_trans ih this
  | case4 r n _ log rest hr ih =>
      have := size_read_le r (min n skipBlock)
      rw [hr] at this
      exact Nat.le_trans ih this
  | case5 r n _ e log rest _ hr =>
      have := size_read_le r (min n skipBlock)
      rwa [hr] at this

end Source

end Packetizer
