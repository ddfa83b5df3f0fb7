import Packetizer.Proofs.Stream.Reading

/-!
# `Packetizer.Proofs.Stream.Counting`: how much is read, and how often

The bytes that a source still has are a number that every read lowers by what
it delivers (`Source.BytesLeft`). A field takes its width off that number, and
no read adds to it.

How often a source is read is counted by `Counted`, a source that nobody can
tell from the one inside. A read that delivers something or is interrupted
brings the end of the source nearer, and any other read is the last one of a
reading that fails. So a reading costs no more reads than it brings the end
nearer, and one more when it fails. `Counted.Agrees` is this law, and
`Counted.Agrees.andThen` carries it along readings in a row.
-/

set_option autoImplicit false

namespace Packetizer

/-! ### The bytes that are left -/

namespace Source

variable {ρ : Type} [Source ρ]

/-- The number of bytes that a source still has. A read takes off what it
delivers, and a failure adds nothing. -/
structure BytesLeft (left : ρ → Nat) : Prop where
  delivered : ∀ {r : ρ} {n : Nat} {bs : List UInt8}, (read r n).outcome = .ok bs →
    left (read r n).source + bs.length = left r
  failed : ∀ {r : ρ} {n : Nat} {error : StreamError}, (read r n).outcome = .error error →
    left (read r n).source ≤ left r

namespace BytesLeft

variable {left : ρ → Nat} {r r' : ρ} {n : Nat} {bs : List UInt8}

theorem read_le (h : BytesLeft left) (r : ρ) (n : Nat) : left (read r n).source ≤ left r := by
  cases hread : (read r n).outcome with
  | ok bs =>
      have hbs := h.delivered hread
      omega
  | error error => exact h.failed hread

/-- Nothing is added by any reads. -/
theorem later (h : BytesLeft left) (hlater : Later r r') : left r' ≤ left r := by
  induction hlater with
  | refl => exact Nat.le_refl _
  | step reads n ih => exact Nat.le_trans (h.read_le _ n) ih

/-- Filling takes off what it gets. -/
theorem fill (h : BytesLeft left) (hok : (Source.fill r n).outcome = .ok bs) :
    left (Source.fill r n).source + bs.length ≤ left r := by
  fun_induction Source.fill r n generalizing bs with
  | case1 =>
      cases hok
      exact Nat.le_refl _
  | case2 r n _ log rest hr =>
      cases hok
      have hread := h.read_le r n
      rwa [hr] at hread
  | case3 r n _ b piece log rest hr ih =>
      have hread : left rest + (b :: piece).length = left r := by
        have hdelivered := h.delivered (congrArg Reading.outcome hr)
        rwa [hr] at hdelivered
      obtain ⟨more, hmore, rfl⟩ := Reading.ok_of_map hok
      have hrest := ih hmore
      show left (Source.fill rest _).source + ((b :: piece) ++ more).length ≤ left r
      rw [List.length_append]
      omega
  | case4 r n _ log rest hr ih =>
      have hread := h.read_le r n
      rw [hr] at hread
      exact Nat.le_trans (ih hok) hread
  | case5 => cases hok

/-- A field takes off its width. -/
theorem exactly (h : BytesLeft left) (hok : (Source.exactly r n).outcome = .ok bs) :
    left (Source.exactly r n).source + n ≤ left r := by
  obtain ⟨hsource, hfill⟩ := exactly_eq r n
  obtain ⟨hbytes, hlen⟩ := hfill bs hok
  rw [hsource, ← hlen]
  exact hlen.symm ▸ h.fill hbytes

end BytesLeft

end Source

/-! ### Reads that are counted -/

namespace Source

variable {ρ : Type} [Source ρ] {n : Nat}

/-- Filling goes on by what a read gave. -/
theorem fill_step (r : ρ) (hn : ¬ n = 0) :
    fill r n = match read r n with
      | ⟨.ok [], log, rest⟩ => ⟨.ok [], log, rest⟩
      | ⟨.ok (b :: bs), log, rest⟩ =>
          ((fill rest (n - (bs.length + 1))).map ((b :: bs) ++ ·)).after log
      | ⟨.error .interrupted, log, rest⟩ => (fill rest n).after log
      | ⟨.error error, log, rest⟩ => ⟨.error error, log, rest⟩ := by
  rw [fill, if_neg hn]
  split
  next hread => rw [hread]
  next hread => rw [hread]
  next hread => rw [hread]
  next error _ _ hne hread =>
    rw [hread]
    cases error <;> first | rfl | exact absurd rfl hne

/-- So does skipping. -/
theorem skip_step (r : ρ) (hn : ¬ n = 0) :
    skip r n = match read r (min n skipBlock) with
      | ⟨.ok [], log, rest⟩ => ⟨.error .truncatedChunk, log, rest⟩
      | ⟨.ok (_ :: bs), log, rest⟩ => (skip rest (n - (bs.length + 1))).after log
      | ⟨.error .interrupted, log, rest⟩ => (skip rest n).after log
      | ⟨.error error, log, rest⟩ => ⟨.error error, log, rest⟩ := by
  rw [skip, if_neg hn]
  split
  next hread => rw [hread]
  next hread => rw [hread]
  next hread => rw [hread]
  next error _ _ hne hread =>
    rw [hread]
    cases error <;> first | rfl | exact absurd rfl hne

end Source

/-- A source and how often it was read. -/
structure Counted (ρ : Type) where
  inner : ρ
  reads : Nat

/-- The reads that a reading may make for nothing: the last one, when it
fails. -/
def Reading.idle {ε ρ α : Type} (x : Reading ε ρ α) : Nat :=
  match x.outcome with
  | .ok _ => 0
  | .error _ => 1

namespace Reading

variable {ε ε' ρ α β : Type}

@[simp] theorem idle_after (x : Reading ε ρ α) (log : List Message) :
    (x.after log).idle = x.idle := rfl

@[simp] theorem idle_map (x : Reading ε ρ α) (f : α → β) : (x.map f).idle = x.idle := by
  unfold idle
  rw [outcome_map]
  cases x.outcome <;> rfl

@[simp] theorem idle_mapError (x : Reading ε ρ α) (f : ε → ε') : (x.mapError f).idle = x.idle := by
  unfold idle mapError
  cases x.outcome <;> rfl

end Reading

namespace Counted

variable {ρ : Type} [Source ρ]

instance : Source (Counted ρ) where
  read c n :=
    let x := Source.read c.inner n
    ⟨x.outcome, x.log, ⟨x.source, c.reads + 1⟩⟩
  size c := Source.size c.inner
  length_read c n := Source.length_read c.inner n
  size_read_le c n := Source.size_read_le c.inner n
  size_lt_of_ok c n := Source.size_lt_of_ok c.inner n
  size_lt_of_interrupted c n := Source.size_lt_of_interrupted c.inner n

/-- A reading from a counted source, `y`, and the same one from the source
inside, `x`. Nobody can tell them apart, and each read but an idle one brings
the end nearer. -/
structure Agrees {ε α : Type} (c : Counted ρ) (x : Reading ε ρ α) (y : Reading ε (Counted ρ) α) :
    Prop where
  outcome : y.outcome = x.outcome
  log : y.log = x.log
  inner : y.source.inner = x.source
  reads : y.source.reads + Source.size x.source ≤ c.reads + Source.size c.inner + x.idle

namespace Agrees

variable {ε ε' α β : Type} {c : Counted ρ} {x : Reading ε ρ α} {y : Reading ε (Counted ρ) α}

/-- An answer or a refusal without any read. -/
theorem still (c : Counted ρ) (outcome : Except ε α) (log : List Message) :
    Agrees c ⟨outcome, log, c.inner⟩ ⟨outcome, log, c⟩ :=
  ⟨rfl, rfl, rfl, Nat.le_add_right _ _⟩

theorem map (h : Agrees c x y) (f : α → β) : Agrees c (x.map f) (y.map f) where
  outcome := congrArg (Except.map f) h.outcome
  log := h.log
  inner := h.inner
  reads := (x.idle_map f).symm ▸ h.reads

theorem mapError (h : Agrees c x y) (f : ε → ε') : Agrees c (x.mapError f) (y.mapError f) where
  outcome := congrArg (Except.mapError f) h.outcome
  log := h.log
  inner := h.inner
  reads := (x.idle_mapError f).symm ▸ h.reads

/-- Readings in a row agree when each of them does. Only the last one may have
been idle. -/
theorem andThen (h : Agrees c x y) {f : α → ρ → Reading ε ρ β}
    {g : α → Counted ρ → Reading ε (Counted ρ) β}
    (hf : ∀ a, x.outcome = .ok a → Agrees y.source (f a y.source.inner) (g a y.source)) :
    Agrees c (x.andThen f) (y.andThen g) := by
  have hreads := h.reads
  cases hx : x.outcome with
  | error error =>
      unfold Reading.andThen
      rw [h.outcome, hx]
      rw [Reading.idle, hx] at hreads
      exact ⟨rfl, h.log, h.inner, hreads⟩
  | ok a =>
      have hrest := hf a hx
      have hmore := hrest.reads
      rw [Reading.idle, hx] at hreads
      rw [h.inner] at hrest hmore
      rw [Reading.andThen_of_ok hx, Reading.andThen_of_ok (h.outcome.trans hx), h.log]
      refine ⟨hrest.outcome, congrArg (x.log ++ ·) hrest.log, hrest.inner, ?_⟩
      simp only [Reading.source_after, Reading.idle_after]
      dsimp only at hreads
      omega

end Agrees

/-- A read that brings the end nearer, in front of what agrees. -/
theorem Agrees.behindRead {ε α : Type} {r rest : ρ} {reads : Nat} {x : Reading ε ρ α}
    {y : Reading ε (Counted ρ) α} (h : Agrees ⟨rest, reads + 1⟩ x y)
    (hsize : Source.size rest < Source.size r) (log : List Message) :
    Agrees ⟨r, reads⟩ (x.after log) (y.after log) := by
  refine ⟨h.outcome, congrArg (log ++ ·) h.log, h.inner, ?_⟩
  have hreads := h.reads
  simp only [Reading.source_after, Reading.idle_after] at *
  omega

/-- One read after which a reading fails. -/
theorem Agrees.failing {ε α : Type} {r rest : ρ} {reads : Nat} {error : ε} {log : List Message}
    (hsize : Source.size rest ≤ Source.size r) :
    Agrees ⟨r, reads⟩ (⟨.error error, log, rest⟩ : Reading ε ρ α)
      ⟨.error error, log, ⟨rest, reads + 1⟩⟩ := by
  refine ⟨rfl, rfl, rfl, ?_⟩
  show reads + 1 + Source.size rest ≤ reads + Source.size r + 1
  omega

/-- A read of a counted source is one of the source inside. -/
theorem read_eq {r : ρ} {n : Nat} {outcome : Except StreamError (List UInt8)}
    {log : List Message} {rest : ρ} (reads : Nat) (h : Source.read r n = ⟨outcome, log, rest⟩) :
    Source.read (⟨r, reads⟩ : Counted ρ) n = ⟨outcome, log, ⟨rest, reads + 1⟩⟩ := by
  show Reading.mk (Source.read r n).outcome (Source.read r n).log _ = _
  rw [h]

/-- Filling makes an idle read only when it gets less than was asked for. -/
theorem fill (r : ρ) (reads n : Nat) :
    let x := Source.fill r n
    ∃ more, Source.fill (⟨r, reads⟩ : Counted ρ) n
        = ⟨x.outcome, x.log, ⟨x.source, reads + more⟩⟩ ∧
      more + Source.size x.source ≤ Source.size r + 1 ∧
      ∀ bs, x.outcome = .ok bs → bs.length = n → more + Source.size x.source ≤ Source.size r := by
  fun_induction Source.fill r n generalizing reads with
  | case1 r =>
      refine ⟨0, by rw [Source.fill, if_pos rfl]; rfl, ?_, fun bs _ _ => ?_⟩
      · show 0 + Source.size r ≤ Source.size r + 1
        omega
      · show 0 + Source.size r ≤ Source.size r
        omega
  | case2 r n hn log rest hr =>
      have hsize : Source.size rest ≤ Source.size r := by
        have hread := Source.size_read_le r n
        rwa [hr] at hread
      refine ⟨1, ?_, ?_, fun bs hbs hlen => ?_⟩
      · rw [Source.fill_step (⟨r, reads⟩ : Counted ρ) hn, read_eq reads hr]
      · show 1 + Source.size rest ≤ Source.size r + 1
        omega
      · cases hbs
        exact absurd hlen.symm hn
  | case3 r n hn b bs log rest hr ih =>
      have hsize : Source.size rest < Source.size r := by
        have hread := Source.size_lt_of_ok r n b bs (congrArg Reading.outcome hr)
        rwa [hr] at hread
      have hpiece := Source.length_read r n _ (congrArg Reading.outcome hr)
      obtain ⟨more, hfill, hall, hfull⟩ := ih (reads + 1)
      simp only [Reading.source_after, Reading.source_map] at *
      refine ⟨1 + more, ?_, by omega, fun out hout hlen => ?_⟩
      · rw [Source.fill_step (⟨r, reads⟩ : Counted ρ) hn, read_eq reads hr, ← Nat.add_assoc]
        simp only [hfill]
        rfl
      · obtain ⟨tail, htail, rfl⟩ := Reading.ok_of_map hout
        rw [List.length_append, List.length_cons] at *
        have hrest := hfull tail htail (by omega)
        omega
  | case4 r n hn log rest hr ih =>
      have hsize : Source.size rest < Source.size r := by
        have hread := Source.size_lt_of_interrupted r n (congrArg Reading.outcome hr)
        rwa [hr] at hread
      obtain ⟨more, hfill, hall, hfull⟩ := ih (reads + 1)
      simp only [Reading.source_after] at *
      refine ⟨1 + more, ?_, by omega, fun out hout hlen => ?_⟩
      · rw [Source.fill_step (⟨r, reads⟩ : Counted ρ) hn, read_eq reads hr, ← Nat.add_assoc]
        simp only [hfill]
        rfl
      · have hrest := hfull out hout hlen
        omega
  | case5 r n hn error log rest hne hr =>
      have hsize : Source.size rest ≤ Source.size r := by
        have hread := Source.size_read_le r n
        rwa [hr] at hread
      refine ⟨1, ?_, ?_, fun bs hbs => by cases hbs⟩
      · rw [Source.fill_step (⟨r, reads⟩ : Counted ρ) hn, read_eq reads hr]
        cases error <;> first | rfl | contradiction
      · show 1 + Source.size rest ≤ Source.size r + 1
        omega

/-- A field that gets less than its width fails. -/
theorem exactly (c : Counted ρ) (n : Nat) :
    Agrees c (Source.exactly c.inner n) (Source.exactly c n) := by
  obtain ⟨more, hfill, hall, hfull⟩ := fill c.inner c.reads n
  have hle : ∀ bs, (Source.fill c.inner n).outcome = .ok bs → bs.length ≤ n :=
    fun _ => Source.length_fill c.inner n
  unfold Source.exactly Reading.andThen
  rw [hfill]
  cases hok : (Source.fill c.inner n).outcome with
  | error error =>
      refine ⟨rfl, rfl, rfl, ?_⟩
      simp only [Reading.idle]
      omega
  | ok bs =>
      by_cases hshort : bs.length < n
      · simp only [if_pos hshort]
        refine ⟨rfl, rfl, rfl, ?_⟩
        show c.reads + more + _ ≤ c.reads + Source.size c.inner + 1
        simp only [Reading.source_after]
        omega
      · have hexact := hfull bs hok (Nat.le_antisymm (hle bs hok) (Nat.le_of_not_lt hshort))
        simp only [if_neg hshort]
        refine ⟨rfl, rfl, rfl, ?_⟩
        show c.reads + more + _ ≤ c.reads + Source.size c.inner + 0
        simp only [Reading.source_after]
        omega

/-- Every read of skipping brings the end nearer, until one fails or meets the
end. -/
theorem skip (c : Counted ρ) (n : Nat) : Agrees c (Source.skip c.inner n) (Source.skip c n) := by
  obtain ⟨r, reads⟩ := c
  dsimp only
  fun_induction Source.skip r n generalizing reads with
  | case1 r =>
      have hskip : Source.skip (⟨r, reads⟩ : Counted ρ) 0 = ⟨.ok (), [], ⟨r, reads⟩⟩ := by
        rw [Source.skip, if_pos rfl]
      rw [hskip]
      exact .still ⟨r, reads⟩ _ _
  | case2 r n hn log rest hr =>
      have hsize := Source.size_read_le r (min n Source.skipBlock)
      rw [hr] at hsize
      rw [Source.skip_step (⟨r, reads⟩ : Counted ρ) hn, read_eq reads hr]
      exact .failing hsize
  | case3 r n hn b bs log rest hr ih =>
      have hsize := Source.size_lt_of_ok r _ b bs (congrArg Reading.outcome hr)
      rw [hr] at hsize
      rw [Source.skip_step (⟨r, reads⟩ : Counted ρ) hn, read_eq reads hr]
      exact (ih (reads + 1)).behindRead hsize log
  | case4 r n hn log rest hr ih =>
      have hsize := Source.size_lt_of_interrupted r _ (congrArg Reading.outcome hr)
      rw [hr] at hsize
      rw [Source.skip_step (⟨r, reads⟩ : Counted ρ) hn, read_eq reads hr]
      exact (ih (reads + 1)).behindRead hsize log
  | case5 r n hn error log rest hne hr =>
      have hsize := Source.size_read_le r (min n Source.skipBlock)
      rw [hr] at hsize
      rw [Source.skip_step (⟨r, reads⟩ : Counted ρ) hn, read_eq reads hr]
      cases error <;> first | exact .failing hsize | contradiction

end Counted

end Packetizer
