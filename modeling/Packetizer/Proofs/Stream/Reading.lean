import Packetizer.Stream.Source

/-!
# `Packetizer.Proofs.Stream.Reading`: what reading takes from a source

A source may deliver its bytes in pieces of any length and be
interrupted in between, and `Delivers` says which bytes they are all
together. The pieces cannot be seen any more once a buffer is filled
from the source: `Delivers.fill` gets the bytes at the front, as many as
fit or as there are, and leaves a source that delivers the others. Fields
and skipped bytes are taken off the front in the same way, and
`Reading.Gives` puts such readings in a row.
-/

set_option autoImplicit false

namespace Packetizer

namespace Source

variable {ρ : Type} [Source ρ]

/-- A source, the bytes that some reads took from it, and the source as
they leave it. Every read asked for something. -/
inductive Reads (r : ρ) : List UInt8 → ρ → Prop where
  | refl : Reads r [] r
  | got {bs piece : List UInt8} {r' : ρ} {n : Nat} (reads : Reads r bs r') (asked : 0 < n)
      (delivered : (read r' n).outcome = .ok piece) : Reads r (bs ++ piece) (read r' n).source
  | again {bs : List UInt8} {r' : ρ} {n : Nat} (reads : Reads r bs r') (asked : 0 < n)
      (interrupted : (read r' n).outcome = .error .interrupted) :
      Reads r bs (read r' n).source

/-- The source delivers these bytes and then is at its end, whatever it
is asked for. A read takes the next ones or is interrupted, and none are
taken only when none are left. -/
def Delivers (r : ρ) (bytes : List UInt8) : Prop :=
  ∀ taken r', Reads r taken r' → ∀ n, 0 < n →
    (read r' n).outcome = .error .interrupted ∨
    ∃ piece rest, (read r' n).outcome = .ok piece ∧ bytes = taken ++ piece ++ rest ∧
      (piece = [] → rest = [])

variable {r r' : ρ} {n : Nat} {bytes taken : List UInt8}

/-- A read in front of some reads. -/
theorem Reads.front {piece : List UInt8} (hn : 0 < n) (hpiece : (read r n).outcome = .ok piece)
    (h : Reads (read r n).source taken r') : Reads r (piece ++ taken) r' := by
  induction h with
  | refl =>
      rw [List.append_nil, ← List.nil_append piece]
      exact .got .refl hn hpiece
  | got reads asked delivered ih =>
      rw [← List.append_assoc]
      exact .got ih asked delivered
  | again reads asked interrupted ih => exact .again ih asked interrupted

/-- An interruption in front of some reads. -/
theorem Reads.afterInterruption (hn : 0 < n)
    (hpiece : (read r n).outcome = .error .interrupted)
    (h : Reads (read r n).source taken r') : Reads r taken r' := by
  induction h with
  | refl => exact .again .refl hn hpiece
  | got reads asked delivered ih => exact .got ih asked delivered
  | again reads asked interrupted ih => exact .again ih asked interrupted

/-- One read takes a piece off the front of the bytes, or is interrupted
and takes nothing. -/
theorem Delivers.read (h : Delivers r bytes) (hn : 0 < n) :
    ((read r n).outcome = .error .interrupted ∧ Delivers (read r n).source bytes) ∨
    ∃ piece rest, (Source.read r n).outcome = .ok piece ∧ bytes = piece ++ rest ∧
      (piece = [] → rest = []) ∧ Delivers (Source.read r n).source rest := by
  rcases h [] r .refl n hn with hinterrupted | ⟨piece, rest, hpiece, hbytes, hend⟩
  · refine .inl ⟨hinterrupted, fun taken r' hreads => ?_⟩
    exact h taken r' (hreads.afterInterruption hn hinterrupted)
  · refine .inr ⟨piece, rest, hpiece, hbytes, hend, ?_⟩
    intro taken r' hreads m hm
    rcases h _ r' (hreads.front hn hpiece) m hm with hinterrupted | ⟨more, left, hmore, hall, hend'⟩
    · exact .inl hinterrupted
    · refine .inr ⟨more, left, hmore, ?_, hend'⟩
      -- Both ways of taking the bytes apart begin with the same piece.
      rw [hbytes, List.nil_append, List.append_assoc, List.append_assoc] at hall
      rw [List.append_cancel_left hall, List.append_assoc]

/-- A read that went well took a piece off the front, which is empty only at
the end. -/
theorem Delivers.of_ok {piece : List UInt8} {log : List Message} {rest : ρ} (h : Delivers r bytes)
    (hn : 0 < n) (hr : Source.read r n = ⟨.ok piece, log, rest⟩) :
    ∃ left, bytes = piece ++ left ∧ (piece = [] → left = []) ∧ Delivers rest left := by
  rcases h.read hn with ⟨hno, -⟩ | ⟨piece', left, hpiece, hbytes, hend, hrest⟩
  · rw [hr] at hno
    cases hno
  · rw [hr] at hpiece hrest
    cases hpiece
    exact ⟨left, hbytes, hend, hrest⟩

/-- An interruption takes nothing, and there is no other failure. -/
theorem Delivers.of_error {error : StreamError} {log : List Message} {rest : ρ}
    (h : Delivers r bytes) (hn : 0 < n) (hr : Source.read r n = ⟨.error error, log, rest⟩) :
    error = .interrupted ∧ Delivers rest bytes := by
  rcases h.read hn with ⟨herr, hrest⟩ | ⟨piece, left, hpiece, -⟩
  · rw [hr] at herr hrest
    exact ⟨Except.error.inj herr, hrest⟩
  · rw [hr] at hpiece
    cases hpiece

/-- Filling takes the bytes at the front, as many as were asked for or
as are left, and leaves the others. -/
theorem Delivers.fill (h : Delivers r bytes) (n : Nat) :
    (fill r n).outcome = .ok (bytes.take n) ∧ Delivers (fill r n).source (bytes.drop n) := by
  fun_induction Source.fill r n generalizing bytes with
  | case1 r => exact ⟨rfl, h⟩
  | case2 r n hn log rest hr =>
      -- The end of the source is the end of the bytes.
      obtain ⟨left, rfl, hend, hrest⟩ := h.of_ok (Nat.pos_of_ne_zero hn) hr
      rw [hend rfl] at hrest ⊢
      rw [List.take_nil, List.drop_nil]
      exact ⟨rfl, hrest⟩
  | case3 r n hn b bs log rest hr ih =>
      obtain ⟨left, rfl, -, hrest⟩ := h.of_ok (Nat.pos_of_ne_zero hn) hr
      -- The piece is no longer than what was asked for, and `ih` fills up the rest.
      have hlen : (b :: bs).length ≤ n := length_read r n _ (by rw [hr])
      obtain ⟨hmore, hleft⟩ := ih hrest
      rw [← List.length_cons (a := b)] at hmore hleft
      constructor
      · rw [Reading.outcome_after, Reading.outcome_map, ← List.length_cons (a := b), hmore,
          List.take_append, List.take_of_length_le hlen]
        rfl
      · rw [Reading.source_after, Reading.source_map, ← List.length_cons (a := b),
          List.drop_append, List.drop_of_length_le hlen]
        exact hleft
  | case4 r n hn log rest hr ih => exact ih (h.of_error (Nat.pos_of_ne_zero hn) hr).2
  | case5 r n hn error log rest hne hr =>
      exact absurd (h.of_error (Nat.pos_of_ne_zero hn) hr).1 hne

/-- A source delivers one sequence of bytes. -/
theorem Delivers.unique {bytes' : List UInt8} (h : Delivers r bytes) (h' : Delivers r bytes') :
    bytes = bytes' := by
  have hfill := (h.fill (bytes.length + bytes'.length)).1
  rw [(h'.fill _).1, List.take_of_length_le (Nat.le_add_left _ _),
    List.take_of_length_le (Nat.le_add_right _ _)] at hfill
  exact (Except.ok.inj hfill).symm

/-- Skipping takes bytes off the front, whatever they are, and fails if there
are too few. -/
theorem Delivers.skip_eq (h : Delivers r bytes) (n : Nat) :
    (skip r n).outcome = (if n ≤ bytes.length then .ok () else .error .truncatedChunk) ∧
      Delivers (skip r n).source (bytes.drop n) := by
  -- A block is never empty while there is something to skip.
  have hblock : ∀ {n : Nat}, ¬ n = 0 → 0 < min n skipBlock := fun hpos =>
    Nat.lt_min.mpr ⟨Nat.pos_of_ne_zero hpos, by decide⟩
  fun_induction Source.skip r n generalizing bytes with
  | case1 r => exact ⟨(if_pos (Nat.zero_le _)).symm, h⟩
  | case2 r n hpos log rest hr =>
      obtain ⟨left, rfl, hend, hrest⟩ := h.of_ok (hblock hpos) hr
      rw [hend rfl] at hrest ⊢
      rw [List.drop_nil]
      exact ⟨(if_neg fun hle => hpos (Nat.le_zero.mp hle)).symm, hrest⟩
  | case3 r n hpos b bs log rest hr ih =>
      obtain ⟨left, rfl, -, hrest⟩ := h.of_ok (hblock hpos) hr
      have hlen : (b :: bs).length ≤ min n skipBlock := length_read r _ _ (by rw [hr])
      obtain ⟨hmore, hleft⟩ := ih hrest
      rw [← List.length_cons (a := b)] at hmore hleft
      have hroom : n - (b :: bs).length ≤ left.length ↔ n ≤ (b :: bs ++ left).length := by
        rw [List.length_append]
        omega
      rw [Reading.outcome_after, Reading.source_after, ← List.length_cons (a := b),
        List.drop_append, List.drop_of_length_le (Nat.le_trans hlen (Nat.min_le_left _ _))]
      simp only [hroom] at hmore
      exact ⟨hmore, hleft⟩
  | case4 r n hpos log rest hr ih => exact ih (h.of_error (hblock hpos) hr).2
  | case5 r n hpos error log rest hne hr => exact absurd (h.of_error (hblock hpos) hr).1 hne

/-- Bytes that are there can be skipped. -/
theorem Delivers.skip {front back : List UInt8} (h : Delivers r (front ++ back)) :
    (skip r front.length).outcome = .ok () ∧ Delivers (skip r front.length).source back := by
  obtain ⟨hok, hrest⟩ := h.skip_eq front.length
  rw [List.length_append, if_pos (Nat.le_add_right _ _)] at hok
  rw [List.drop_left] at hrest
  exact ⟨hok, hrest⟩

/-- What two sources deliver is the same when every read gets the same from
both, and that is kept by `R`. -/
theorem Delivers.simulate {ρ' : Type} [Source ρ'] {R : ρ → ρ' → Prop}
    (hR : ∀ {r : ρ} {r' : ρ'}, R r r' → ∀ n,
      (Source.read r n).outcome = (Source.read r' n).outcome ∧
        R (Source.read r n).source (Source.read r' n).source)
    {r' : ρ'} (h : Delivers r bytes) (hrel : R r r') : Delivers r' bytes := by
  have hreads : ∀ taken s', Reads r' taken s' → ∃ s, Reads r taken s ∧ R s s' := by
    intro taken s' hreads
    induction hreads with
    | refl => exact ⟨r, .refl, hrel⟩
    | got reads asked delivered ih =>
        obtain ⟨s, hs, hrel⟩ := ih
        exact ⟨_, .got hs asked ((hR hrel _).1.trans delivered), (hR hrel _).2⟩
    | again reads asked interrupted ih =>
        obtain ⟨s, hs, hrel⟩ := ih
        exact ⟨_, .again hs asked ((hR hrel _).1.trans interrupted), (hR hrel _).2⟩
  intro taken s' hs' n hn
  obtain ⟨s, hs, hrel⟩ := hreads taken s' hs'
  rw [← (hR hrel n).1]
  exact h taken s hs n hn

/-! ### Any reads -/

/-- A source as some reads leave it, whatever came of them. -/
inductive Later : ρ → ρ → Prop where
  | refl (r : ρ) : Later r r
  | step {r r' : ρ} (reads : Later r r') (n : Nat) : Later r (read r' n).source

theorem Later.trans {r r' r'' : ρ} (h : Later r r') (h' : Later r' r'') : Later r r'' := by
  induction h' with
  | refl => exact h
  | step reads n ih => exact .step ih n

/-- A read in front of some reads. -/
theorem Later.front {r r' : ρ} {n : Nat} (h : Later (read r n).source r') : Later r r' :=
  (Later.step (.refl r) n).trans h

theorem later_fill (r : ρ) (n : Nat) : Later r (Source.fill r n).source := by
  fun_induction Source.fill r n with
  | case1 r => exact .refl r
  | case2 r n _ log rest hr =>
      have hstep := Later.step (.refl r) n
      rwa [hr] at hstep
  | case3 r n _ b bs log rest hr ih =>
      refine .front (n := n) ?_
      rw [hr]
      exact ih
  | case4 r n _ log rest hr ih =>
      refine .front (n := n) ?_
      rw [hr]
      exact ih
  | case5 r n _ error log rest _ hr =>
      have hstep := Later.step (.refl r) n
      rwa [hr] at hstep

theorem later_skip (r : ρ) (n : Nat) : Later r (Source.skip r n).source := by
  fun_induction Source.skip r n with
  | case1 r => exact .refl r
  | case2 r n _ log rest hr =>
      have hstep := Later.step (.refl r) (min n skipBlock)
      rwa [hr] at hstep
  | case3 r n _ b bs log rest hr ih =>
      refine .front (n := min n skipBlock) ?_
      rw [hr]
      exact ih
  | case4 r n _ log rest hr ih =>
      refine .front (n := min n skipBlock) ?_
      rw [hr]
      exact ih
  | case5 r n _ error log rest _ hr =>
      have hstep := Later.step (.refl r) (min n skipBlock)
      rwa [hr] at hstep

theorem later_exactly (r : ρ) (n : Nat) : Later r (Source.exactly r n).source := by
  rw [(exactly_eq r n).1]
  exact later_fill r n

end Source

/-- Readings in a row leave a source as their reads leave it. -/
theorem Reading.later_andThen {ε ρ α β : Type} [Source ρ] {r : ρ} {x : Reading ε ρ α}
    {f : α → ρ → Reading ε ρ β} (hx : Source.Later r x.source)
    (hf : ∀ a r', Source.Later r' (f a r').source) : Source.Later r (x.andThen f).source := by
  unfold andThen
  cases x.outcome with
  | error error => exact hx
  | ok a => exact hx.trans (hf a x.source)

/-! ### Readings in a row -/

namespace Reading

variable {ε ε' ρ α β γ : Type} {x : Reading ε ρ α} {f g : α → ρ → Reading ε ρ β} {a : α}

theorem andThen_of_ok (h : x.outcome = .ok a) : x.andThen f = (f a x.source).after x.log := by
  rw [andThen, h]

/-- Two readings that go on alike with what was read are the same. -/
theorem andThen_congr (h : ∀ a, x.outcome = .ok a → f a x.source = g a x.source) :
    x.andThen f = x.andThen g := by
  unfold andThen
  cases hx : x.outcome with
  | error error => rfl
  | ok a => exact congrArg (after x.log) (h a hx)

theorem andThen_assoc (x : Reading ε ρ α) (f : α → ρ → Reading ε ρ β)
    (g : β → ρ → Reading ε ρ γ) :
    (x.andThen f).andThen g = x.andThen fun a r => (f a r).andThen g := by
  unfold andThen
  cases x.outcome with
  | error error => rfl
  | ok a =>
      simp only [outcome_after, source_after]
      cases (f a x.source).outcome <;> simp [after]

theorem map_andThen (x : Reading ε ρ α) (f : α → β) (g : β → ρ → Reading ε ρ γ) :
    (x.map f).andThen g = x.andThen fun a r => g (f a) r := by
  unfold andThen map
  cases x.outcome <;> rfl

/-- The failure of a row is put in other words by doing so in each part. -/
theorem mapError_andThen (x : Reading ε ρ α) (f : α → ρ → Reading ε ρ β) (words : ε → ε') :
    (x.andThen f).mapError words
      = (x.mapError words).andThen fun a r => (f a r).mapError words := by
  unfold andThen mapError
  cases x.outcome <;> rfl

theorem mapError_map (x : Reading ε ρ α) (f : α → β) (words : ε → ε') :
    (x.map f).mapError words = (x.mapError words).map f := by
  unfold map mapError
  cases x.outcome <;> rfl

end Reading

/-! ### Readings that end well -/

/-- Two parts that were read well were each read well. -/
theorem Reading.ok_of_andThen {ε ρ α β : Type} {x : Reading ε ρ α} {f : α → ρ → Reading ε ρ β}
    {b : β} (h : (x.andThen f).outcome = .ok b) :
    ∃ a, x.outcome = .ok a ∧ (f a x.source).outcome = .ok b := by
  unfold andThen at h
  cases hx : x.outcome with
  | error e =>
      rw [hx] at h
      cases h
  | ok a =>
      rw [hx] at h
      exact ⟨a, rfl, h⟩

/-- What is made of something that was read was read. -/
theorem Reading.ok_of_map {ε ρ α β : Type} {x : Reading ε ρ α} {f : α → β} {b : β}
    (h : (x.map f).outcome = .ok b) : ∃ a, x.outcome = .ok a ∧ f a = b := by
  change x.outcome.map f = .ok b at h
  cases hx : x.outcome with
  | error e =>
      rw [hx] at h
      cases h
  | ok a =>
      rw [hx] at h
      exact ⟨a, rfl, Except.ok.inj h⟩

/-- A failure in other words is no success. -/
theorem Reading.ok_of_mapError {ε ε' ρ α : Type} {x : Reading ε ρ α} {f : ε → ε'} {a : α}
    (h : (x.mapError f).outcome = .ok a) : x.outcome = .ok a := by
  change x.outcome.mapError f = .ok a at h
  cases hx : x.outcome with
  | error e =>
      rw [hx] at h
      cases h
  | ok b =>
      rw [hx] at h
      cases h
      rfl

/-- A reading answers `a` and leaves a source that delivers `left`. -/
structure Reading.Gives {ε ρ α : Type} [Source ρ] (x : Reading ε ρ α) (a : α)
    (left : List UInt8) : Prop where
  outcome : x.outcome = .ok a
  source : Source.Delivers x.source left

namespace Reading.Gives

variable {ε ρ α β : Type} [Source ρ] {x : Reading ε ρ α} {a : α} {left : List UInt8}

/-- What comes before it in the log makes no difference. -/
theorem after (h : x.Gives a left) (log : List Message) : (x.after log).Gives a left :=
  ⟨h.outcome, h.source⟩

theorem map (h : x.Gives a left) (f : α → β) : (x.map f).Gives (f a) left :=
  ⟨by rw [outcome_map, h.outcome]; rfl, h.source⟩

theorem mapError {ε' : Type} (h : x.Gives a left) (f : ε → ε') : (x.mapError f).Gives a left :=
  ⟨by show x.outcome.mapError f = _; rw [h.outcome]; rfl, h.source⟩

/-- Reading goes on with what the first part gives. -/
theorem andThen (h : x.Gives a left) {f : α → ρ → Reading ε ρ β} {b : β} {left' : List UInt8}
    (hf : ∀ r, Source.Delivers r left → (f a r).Gives b left') : (x.andThen f).Gives b left' := by
  rw [Reading.andThen, h.outcome]
  exact (hf x.source h.source).after x.log

end Reading.Gives

namespace Source.Delivers

variable {ρ : Type} [Source ρ] {r : ρ} {front back : List UInt8}

/-- The bytes at the front are read as a field of their length. -/
theorem exactly (h : Delivers r (front ++ back)) :
    (Source.exactly r front.length).Gives front back := by
  obtain ⟨hbytes, hrest⟩ := h.fill front.length
  rw [List.take_left] at hbytes
  rw [List.drop_left] at hrest
  refine Reading.Gives.andThen ⟨hbytes, hrest⟩ fun r hr => ⟨?_, hr⟩
  exact if_neg (Nat.lt_irrefl _)

/-- They are read as a number, too. -/
theorem word (h : Delivers r (front ++ back)) :
    (Source.word r front.length).Gives (littleEndian front) back :=
  h.exactly.map littleEndian

end Source.Delivers

end Packetizer
