import Packetizer.Encoder.QuantumBuffer

/-!
# `Packetizer.Proofs.Encoder.Gathering`: what gathering hands to a consumer

`QuantumBuffer.gather` overwrites one working buffer again and again
and lets its consumer scribble over it. Seen from outside there is
only the list of samples carried over: `gather_cases` says that the
consumer is given full quanta, that those and what is carried
afterwards make up what was carried before and the samples, and that
a consumer that fails ends it there.

`gather_append` is the law behind everything about cutting a stream
into blocks: gathering two blocks one after the other is gathering
them in one, down to the scratch behind the samples carried over.
Both laws ask that the buffer `Fits`, which every operation keeps: a
buffer that carries a full quantum would hand it out at the next push,
even at a push of nothing.
-/

set_option autoImplicit false

namespace Packetizer

/-- The consumer takes some quanta, one after the other. -/
inductive Takes {α : Type} (consume : α → List Sample → Consumed α) :
    α → List (List Sample) → α → Prop where
  | nil (c : α) : Takes consume c [] c
  | cons {c last : α} {quantum : List Sample} {quanta : List (List Sample)}
      (taken : (consume c quantum).outcome = .ok ())
      (rest : Takes consume (consume c quantum).consumer quanta last) :
      Takes consume c (quantum :: quanta) last

namespace QuantumBuffer

/-! ### The samples carried over -/

/-- What is carried over is there, and is no full quantum. -/
structure Fits (b : QuantumBuffer) : Prop where
  carried_le : b.carried ≤ b.buffer.length
  carried_lt : b.carried < b.quantum

/-- A buffer that carries nothing fits. -/
theorem fits_of_carried {b : QuantumBuffer} (h : b.carried = 0) : b.Fits :=
  ⟨by omega, by rw [h]; exact b.geometry.quantum_pos⟩

/-- A buffer that a consumer has left fits. -/
theorem fits_leave (b : QuantumBuffer) (buffer : List Sample) : (b.leave buffer).Fits :=
  fits_of_carried rfl

/-- The samples carried over are as many as the count says. -/
theorem Fits.length_pending {b : QuantumBuffer} (h : b.Fits) :
    b.pending.length = b.carried := by
  rw [pending, List.length_take, Nat.min_eq_left h.carried_le]

/-- Samples that are placed stand behind those carried over. -/
theorem pending_place {b : QuantumBuffer} (h : b.Fits) (samples : List Sample) :
    (b.place samples).pending = b.pending ++ samples := by
  show (b.pending ++ samples ++ _).take (b.carried + samples.length) = _
  refine List.take_left' ?_
  rw [List.length_append, h.length_pending]

/-- Placing nothing changes nothing. -/
theorem place_nil (b : QuantumBuffer) : b.place [] = b := by
  simp [place, pending]

/-- Placing twice is placing all at once: the scratch that the first
placing leaves is overwritten by the second as far as both reach. -/
theorem place_place {b : QuantumBuffer} (h : b.Fits) (xs ys : List Sample) :
    (b.place xs).place ys = b.place (xs ++ ys) := by
  have hpending := pending_place h xs
  have hlen : (b.pending ++ xs).length = b.carried + xs.length := by
    rw [List.length_append, h.length_pending]
  rw [place, hpending, place, place]
  dsimp only
  congr 1
  · rw [List.drop_append, List.drop_eq_nil_of_le (by omega), List.drop_drop, hlen,
      List.length_append, List.nil_append, List.append_assoc b.pending]
    congr 2
    omega
  · rw [List.length_append]
    omega

/-! ### One round of gathering -/

/-- Too few samples for a quantum are placed. -/
theorem gather_short {α : Type} (consume : α → List Sample → Consumed α) {b : QuantumBuffer}
    {samples : List Sample} (h : samples.length < b.needed) (c : α) (n : Nat) :
    gather consume b samples c n = (.ok n, b.place samples, c) := by
  rw [gather, dif_pos (by rw [List.length_take]; omega)]

/-- Enough samples for a quantum fill it, and the consumer decides
whether the rest is gathered. -/
theorem gather_full {α : Type} (consume : α → List Sample → Consumed α) {b : QuantumBuffer}
    {samples : List Sample} (h : b.needed ≤ samples.length) (c : α) (n : Nat) :
    gather consume b samples c n =
      let consumed := consume c (b.pending ++ samples.take b.needed)
      match consumed.outcome with
      | .error e => (.error e, b.leave consumed.buffer, consumed.consumer)
      | .ok () =>
          gather consume (b.leave consumed.buffer) (samples.drop b.needed)
            consumed.consumer (n + 1) := by
  have hfull : ¬ (samples.take b.needed).length < b.needed := by
    rw [List.length_take]
    omega
  rw [gather]
  exact dif_neg hfull

/-- What fills up a quantum makes a full one. -/
theorem length_pending_take {b : QuantumBuffer} (h : b.Fits) {samples : List Sample}
    (hfull : b.needed ≤ samples.length) :
    (b.pending ++ samples.take b.needed).length = b.quantum := by
  have := h.carried_lt
  rw [List.length_append, h.length_pending, List.length_take, Nat.min_eq_left hfull, needed]
  omega

/-! ### Whole gatherings -/

/-- Samples became some full quanta and what is carried afterwards. -/
structure Gathers (b : QuantumBuffer) (samples : List Sample) (quanta : List (List Sample))
    (b' : QuantumBuffer) : Prop where
  geometry : b'.geometry = b.geometry
  conserved : quanta.flatten ++ b'.pending = b.pending ++ samples
  full : ∀ quantum ∈ quanta, quantum.length = b.quantum
  fits : b'.Fits

/-- All of gathering. Either the consumer takes every quantum that the
samples fill, or it takes some and fails on the next. -/
theorem gather_cases {α : Type} (consume : α → List Sample → Consumed α) (b : QuantumBuffer)
    (h : b.Fits) (samples : List Sample) (c : α) (n : Nat) :
    (∃ quanta b' last,
      gather consume b samples c n = (.ok (n + quanta.length), b', last) ∧
      Takes consume c quanta last ∧ Gathers b samples quanta b') ∨
    (∃ quanta quantum e last,
      gather consume b samples c n =
        (.error e, b.leave (consume last quantum).buffer, (consume last quantum).consumer) ∧
      Takes consume c quanta last ∧ (consume last quantum).outcome = .error e ∧
      (∀ q ∈ quanta ++ [quantum], q.length = b.quantum) ∧
      (quanta ++ [quantum]).flatten <+: b.pending ++ samples) := by
  fun_induction gather consume b samples c n with
  | case1 b samples c n hshort =>
      have hlt : samples.length < b.needed := by
        rw [List.length_take] at hshort
        omega
      -- Nothing is handed out, and everything is placed.
      refine .inl ⟨[], _, _, rfl, .nil c, rfl, pending_place h samples, by simp, ?_⟩
      constructor
      · show b.carried + samples.length ≤ (b.pending ++ samples ++ _).length
        simp only [List.length_append, h.length_pending]
        omega
      · show b.carried + samples.length < b.quantum
        rw [needed] at hlt
        omega
  | case2 b samples c n hfull consumed e herr =>
      have hle : b.needed ≤ samples.length := by
        rw [List.length_take] at hfull
        omega
      -- The first quantum is the one that the consumer fails on.
      refine .inr ⟨[], _, e, c, rfl, .nil c, herr, ?_, ?_⟩
      · simp only [List.nil_append, List.mem_singleton, forall_eq]
        exact length_pending_take h hle
      · rw [List.nil_append, List.flatten_singleton]
        exact (List.prefix_append_right_inj _).mpr (List.take_prefix _ _)
  | case3 b samples c n hfull consumed hok ih =>
      have hle : b.needed ≤ samples.length := by
        rw [List.length_take] at hfull
        omega
      have hlen := length_pending_take h hle
      -- The quantum and the samples left over are what there was.
      have hsplit : b.pending ++ samples
          = (b.pending ++ samples.take b.needed) ++ samples.drop b.needed := by
        rw [List.append_assoc, List.take_append_drop]
      rcases ih (fits_leave _ _) with
        ⟨quanta, b', last, heq, htakes, hgathers⟩ |
        ⟨quanta, quantum, e, last, heq, htakes, herr, hlens, hpre⟩
      · refine .inl ⟨_ :: quanta, b', last, ?_, .cons hok htakes, hgathers.geometry, ?_, ?_,
          hgathers.fits⟩
        · rw [heq, List.length_cons, Nat.add_right_comm, Nat.add_assoc]
        · rw [List.flatten_cons, List.append_assoc, hgathers.conserved, hsplit]
          rfl
        · simp only [List.mem_cons, forall_eq_or_imp]
          exact ⟨hlen, hgathers.full⟩
      · refine .inr ⟨_ :: quanta, quantum, e, last, heq, .cons hok htakes, herr, ?_, ?_⟩
        · simp only [List.cons_append, List.mem_cons, forall_eq_or_imp]
          exact ⟨hlen, hlens⟩
        · rw [List.cons_append, List.flatten_cons, hsplit]
          exact (List.prefix_append_right_inj _).mpr hpre

/-- Gathering keeps the shape of a quantum. -/
theorem geometry_gather {α : Type} (consume : α → List Sample → Consumed α)
    (b : QuantumBuffer) (samples : List Sample) (c : α) (n : Nat) :
    (gather consume b samples c n).2.1.geometry = b.geometry := by
  fun_induction gather consume b samples c n with
  | case1 => rfl
  | case2 => rfl
  | case3 b samples c n hfull consumed hok ih => exact ih

/-- Gathering two blocks one after the other is gathering them in one.
The first block may leave the quantum short, and then both sides place
or fill it with the same samples. -/
theorem gather_append {α : Type} (consume : α → List Sample → Consumed α) (b : QuantumBuffer)
    (h : b.Fits) (xs ys : List Sample) (c : α) (n : Nat) :
    gather consume b (xs ++ ys) c n =
      match gather consume b xs c n with
      | (.error e, b', last) => (.error e, b', last)
      | (.ok m, b', last) => gather consume b' ys last m := by
  fun_induction gather consume b xs c n with
  | case1 b xs c n hshort =>
      have hlt : xs.length < b.needed := by
        rw [List.length_take] at hshort
        omega
      have hneeded : (b.place xs).needed = b.needed - xs.length := by
        show b.quantum - (b.carried + xs.length) = b.quantum - b.carried - xs.length
        omega
      dsimp only
      -- The second block may still be too short, or it fills the quantum that
      -- the first has begun.
      by_cases hys : ys.length < b.needed - xs.length
      · rw [gather_short consume (by rw [List.length_append]; omega),
          gather_short consume (by omega), place_place h]
      · rw [gather_full consume (by rw [List.length_append]; omega),
          gather_full consume (by omega), hneeded, pending_place h, List.take_append,
          List.drop_append, List.take_of_length_le (Nat.le_of_lt hlt),
          List.drop_eq_nil_of_le (Nat.le_of_lt hlt), List.nil_append, List.append_assoc]
        rfl
  | case2 b xs c n hfull consumed e herr =>
      have hle : b.needed ≤ xs.length := by
        rw [List.length_take] at hfull
        omega
      rw [gather_full consume (by rw [List.length_append]; omega),
        List.take_append_of_le_length hle]
      dsimp only
      rw [herr]
  | case3 b xs c n hfull consumed hok ih =>
      have hle : b.needed ≤ xs.length := by
        rw [List.length_take] at hfull
        omega
      -- The first quantum is inside the first block on both sides.
      rw [gather_full consume (by rw [List.length_append]; omega),
        List.take_append_of_le_length hle, List.drop_append_of_le_length hle]
      dsimp only
      rw [hok]
      exact ih (fits_leave _ _)

/-- The count that gathering starts from is only added to. -/
theorem gather_completed {α : Type} (consume : α → List Sample → Consumed α)
    (b : QuantumBuffer) (samples : List Sample) (c : α) (m n : Nat) :
    gather consume b samples c (m + n) =
      let g := gather consume b samples c n
      (g.1.map (m + ·), g.2) := by
  fun_induction gather consume b samples c n with
  | case1 b samples c n hshort => rw [gather, dif_pos hshort]; rfl
  | case2 b samples c n hfull consumed e herr =>
      rw [gather, dif_neg hfull]
      dsimp only
      rw [herr]
      rfl
  | case3 b samples c n hfull consumed hok ih =>
      rw [gather, dif_neg hfull]
      dsimp only
      rw [hok, Nat.add_assoc]
      exact ih

/-- A consumer that is the image of another one gathers the same, and is the
image of what the other becomes. -/
theorem gather_map {α β : Type} (consume : α → List Sample → Consumed α)
    (consume' : β → List Sample → Consumed β) (f : α → β)
    (hf : ∀ c quantum, consume' (f c) quantum =
      ⟨(consume c quantum).outcome, (consume c quantum).buffer, f (consume c quantum).consumer⟩)
    (b : QuantumBuffer) (samples : List Sample) (c : α) (n : Nat) :
    gather consume' b samples (f c) n =
      let g := gather consume b samples c n
      (g.1, g.2.1, f g.2.2) := by
  fun_induction gather consume b samples c n with
  | case1 b samples c n hshort => rw [gather, dif_pos hshort]
  | case2 b samples c n hfull consumed e herr =>
      rw [gather, dif_neg hfull, hf]
      dsimp only
      rw [herr]
  | case3 b samples c n hfull consumed hok ih =>
      rw [gather, dif_neg hfull, hf]
      dsimp only
      rw [hok]
      exact ih

/-! ### Pushes -/

/-- A block that is no whole number of frames changes nothing. -/
theorem push_ragged {α : Type} (consume : α → List Sample → Consumed α) {b : QuantumBuffer}
    {samples : List Sample} (h : samples.length % b.channels ≠ 0) (c : α) :
    push consume b samples c = ⟨.error (.ragged samples.length b.channels), b, c, [], []⟩ := by
  cases samples with
  | nil => exact absurd (Nat.zero_mod _) h
  | cons x rest =>
      rw [push, requireWholeFrames, if_pos h]
      rfl

/-- A block of whole frames is gathered. A block of nothing is not even
looked at, which comes to the same. -/
theorem push_whole {α : Type} (consume : α → List Sample → Consumed α) {b : QuantumBuffer}
    (hfits : b.Fits) {samples : List Sample} (h : samples.length % b.channels = 0) (c : α) :
    ∃ before after, push consume b samples c =
      let g := gather consume b samples c 0
      ⟨g.1, g.2.1, g.2.2, before, after⟩ := by
  cases samples with
  | nil =>
      have hneeded : ([] : List Sample).length < b.needed := by
        have := hfits.carried_lt
        rw [needed, List.length_nil]
        omega
      refine ⟨[], [], ?_⟩
      rw [gather_short consume hneeded, place_nil]
      rfl
  | cons x rest =>
      rw [push, requireWholeFrames, if_neg (not_not_intro h)]
      dsimp only [List.isEmpty_cons]
      rw [if_neg Bool.false_ne_true]
      rcases gather consume b (x :: rest) c 0 with ⟨_ | completed, b', last⟩
      · exact ⟨_, _, rfl⟩
      · exact ⟨_, _, rfl⟩

/-- Pushes go along with images of consumers as gathering does. -/
theorem push_map {α β : Type} (consume : α → List Sample → Consumed α)
    (consume' : β → List Sample → Consumed β) (f : α → β)
    (hf : ∀ c quantum, consume' (f c) quantum =
      ⟨(consume c quantum).outcome, (consume c quantum).buffer, f (consume c quantum).consumer⟩)
    (b : QuantumBuffer) (samples : List Sample) (c : α) :
    push consume' b samples (f c) =
      let g := push consume b samples c
      ⟨g.outcome, g.buffer, f g.consumer, g.before, g.after⟩ := by
  unfold push
  split
  · rfl
  · cases b.requireWholeFrames samples with
    | error e => rfl
    | ok a =>
        dsimp only
        rw [gather_map consume consume' f hf]
        rcases gather consume b samples c 0 with ⟨_ | completed, b', last⟩ <;> rfl

end QuantumBuffer

end Packetizer
