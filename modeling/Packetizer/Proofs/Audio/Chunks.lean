import Packetizer.Audio.ChannelOrder

/-!
# `Packetizer.Proofs.Audio.Chunks`: cutting whole pieces off the front

A list whose length is a multiple of `n` is some pieces of `n` elements,
and `whole_induction` is induction over those. From it follow the laws
of `chunks` for such lists: what is behind them is cut as if it stood
alone (`chunks_append`), every piece is full, and their number and their
places are known.

The change of channel order works on every frame by itself, so it goes
along with appending whole frames (`toA52_append`).
-/

set_option autoImplicit false

namespace Packetizer

section
variable {α : Type} {n : Nat}

/-- Multiples of `n` add up to one. -/
theorem whole_append {xs ys : List α} (hxs : xs.length % n = 0) (hys : ys.length % n = 0) :
    (xs ++ ys).length % n = 0 := by
  rw [List.length_append, Nat.add_mod, hxs, hys, Nat.zero_add, Nat.zero_mod]

/-- One piece is a multiple of `n`. -/
theorem whole_of_length {xs : List α} (h : xs.length = n) : xs.length % n = 0 := by
  rw [h, Nat.mod_self]

/-- What holds of nothing, and of a piece in front of whole pieces of
which it holds, holds of all whole pieces. -/
theorem whole_induction {motive : (xs : List α) → xs.length % n = 0 → Prop}
    (nil : motive [] (Nat.zero_mod n))
    (piece : ∀ (front rest : List α) (_ : 0 < n) (hfront : front.length = n)
      (hrest : rest.length % n = 0), motive rest hrest →
      motive (front ++ rest) (whole_append (whole_of_length hfront) hrest))
    (xs : List α) (h : xs.length % n = 0) : motive xs h := by
  induction hlen : xs.length using Nat.strongRecOn generalizing xs with
  | _ m ih =>
    by_cases hempty : xs.length = 0
    · obtain rfl := List.eq_nil_of_length_eq_zero hempty
      exact nil
    · have hn : 0 < n := by
        rcases Nat.eq_zero_or_pos n with rfl | hn
        · rw [Nat.mod_zero] at h
          exact absurd h hempty
        · exact hn
      have hle : n ≤ xs.length := Nat.le_of_dvd (by omega) (Nat.dvd_of_mod_eq_zero h)
      obtain ⟨front, rest, rfl, hfront⟩ : ∃ front rest, xs = front ++ rest ∧ front.length = n :=
        ⟨xs.take n, xs.drop n, (List.take_append_drop n xs).symm,
          List.length_take_of_le hle⟩
      rw [List.length_append] at hlen
      have hrest : rest.length % n = 0 := by
        rw [List.length_append, hfront, Nat.add_mod_left] at h
        exact h
      exact piece front rest hn hfront hrest (ih _ (by omega) rest hrest rfl)

/-- A full piece is cut off the front. -/
theorem chunks_piece (hn : 0 < n) {front : List α} (h : front.length = n) (rest : List α) :
    chunks n (front ++ rest) = front :: chunks n rest := by
  cases front with
  | nil =>
      rw [List.length_nil] at h
      omega
  | cons x tail =>
      have htail : tail.length = n - 1 := by
        rw [List.length_cons] at h
        omega
      rw [List.cons_append, chunks_cons, List.take_left' htail, List.drop_left' htail]

/-- Whole pieces are cut off the front. -/
theorem chunks_append {xs : List α} (h : xs.length % n = 0) (ys : List α) :
    chunks n (xs ++ ys) = chunks n xs ++ chunks n ys := by
  induction xs, h using whole_induction with
  | nil => rw [chunks_nil, List.nil_append, List.nil_append]
  | piece front rest hn hfront hrest ih =>
      rw [List.append_assoc, chunks_piece hn hfront, chunks_piece hn hfront, ih,
        List.cons_append]

/-- A list of whole pieces is that many of them, and each is full. -/
theorem length_chunks {xs : List α} (h : xs.length % n = 0) :
    n * (chunks n xs).length = xs.length ∧ ∀ piece ∈ chunks n xs, piece.length = n := by
  induction xs, h using whole_induction with
  | nil => simp
  | piece front rest hn hfront hrest ih =>
      obtain ⟨hcount, hfull⟩ := ih
      rw [chunks_piece hn hfront]
      constructor
      · rw [List.length_cons, List.length_append, Nat.mul_succ, hcount, hfront, Nat.add_comm]
      · intro piece hpiece
        rcases List.mem_cons.mp hpiece with rfl | hmem
        · exact hfront
        · exact hfull piece hmem

/-- The pieces of a list of whole pieces, by their positions. -/
theorem chunks_eq_map_range {n k : Nat} (hn : 0 < n) {xs : List α} (h : xs.length = k * n) :
    chunks n xs = (List.range k).map fun i => (xs.drop (i * n)).take n := by
  induction k generalizing xs with
  | zero =>
      rw [Nat.zero_mul] at h
      rw [List.eq_nil_of_length_eq_zero h, chunks_nil, List.range_zero, List.map_nil]
  | succ k ih =>
      rw [Nat.succ_mul] at h
      have hfront : (xs.take n).length = n := List.length_take_of_le (by omega)
      have hlen : (xs.drop n).length = k * n := by
        rw [List.length_drop]
        omega
      have hrest := ih hlen
      have hcut := chunks_piece hn hfront (xs.drop n)
      rw [List.take_append_drop] at hcut
      -- The positions in the rest are those behind the first piece.
      have hshift : ∀ i, (xs.drop n).drop (i * n) = xs.drop ((i + 1) * n) := by
        intro i
        rw [List.drop_drop, Nat.succ_mul, Nat.add_comm]
      rw [hcut, hrest, List.range_succ_eq_map, List.map_cons, List.map_map, Nat.zero_mul,
        List.drop_zero]
      simp only [hshift]
      rfl

end

namespace StreamLayout

variable {α : Type} (layout : StreamLayout)

/-- Nothing is in order. -/
@[simp] theorem toA52_nil : layout.toA52 ([] : List α) = [] := by
  rw [toA52, chunks_nil]
  rfl

/-- Whole frames are reordered as if they stood alone. -/
theorem toA52_append {xs : List α} (h : xs.length % layout.channels.toNat = 0) (ys : List α) :
    layout.toA52 (xs ++ ys) = layout.toA52 xs ++ layout.toA52 ys := by
  rw [toA52, chunks_append h, List.flatMap_append]
  rfl

end StreamLayout

end Packetizer
