import Mathlib.Algebra.Group.End
import Mathlib.Data.List.Perm.Basic
import Packetizer.Proofs.Audio.Chunks

/-!
# `Packetizer.Proofs.Audio.Positions`: one permutation for every frame

The change of channel order fills each position of a frame from a fixed
position, `StreamLayout.origin`, which depends on the layout and not on the
samples. `getElem?_toA52` says so of every complete frame of a buffer, and
`drop_toA52` that an incomplete last one stays.

Everything else follows from the positions. Changing a buffer `k` times fills
the positions from the `k`-th iterate of `origin` (`getElem?_iterate_toA52`),
so how often a change has to be made to undo itself is a question about
numbers below six: an exchange and a cycle of three.
-/

set_option autoImplicit false

namespace Packetizer

/-! ### Positions in one frame -/

/-- Where `swapCentre` takes the sample of each position from. -/
def centreOrigin : Nat → Nat
  | 1 => 2
  | 2 => 1
  | p => p

/-- Where `centreAndLfe` takes the sample of each position from. -/
def centreAndLfeOrigin : Nat → Nat
  | 1 => 2
  | 2 => 1
  | 3 => 4
  | 4 => 5
  | 5 => 3
  | p => p

theorem centreOrigin_two : ∀ p, centreOrigin^[2] p = p
  | 0 | 1 | 2 => rfl
  | _ + 3 => rfl

theorem centreAndLfeOrigin_six (p : Nat) : centreAndLfeOrigin^[6] p = p := by
  match p with
  | 0 | 1 | 2 | 3 | 4 | 5 => rfl
  | p + 6 =>
      have hfixed : centreAndLfeOrigin (p + 6) = p + 6 := rfl
      exact Function.iterate_fixed hfixed 6

section
variable {α : Type}

theorem getElem?_swapCentre {frame : List α} (h : 3 ≤ frame.length) (p : Nat) :
    (swapCentre frame)[p]? = frame[centreOrigin p]? := by
  match frame, h with
  | a :: b :: c :: rest, _ =>
      match p with
      | 0 | 1 | 2 => rfl
      | p + 3 => rfl

theorem getElem?_centreAndLfe {frame : List α} (h : frame.length = 6) (p : Nat) :
    (centreAndLfe frame)[p]? = frame[centreAndLfeOrigin p]? := by
  match frame, h with
  | [left, right, centre, lfe, leftRear, rightRear], _ =>
      match p with
      | 0 | 1 | 2 | 3 | 4 | 5 => rfl
      | p + 6 => rfl

theorem perm_swapCentre (frame : List α) : (swapCentre frame).Perm frame := by
  unfold swapCentre
  split
  · exact (List.Perm.swap _ _ _).cons _
  · exact .refl _

theorem perm_centreAndLfe (frame : List α) : (centreAndLfe frame).Perm frame := by
  unfold centreAndLfe
  split
  next left right centre lfe leftRear rightRear =>
    -- The LFE goes past both surrounds.
    have hlfe : [leftRear, rightRear, lfe].Perm [lfe, leftRear, rightRear] :=
      ((List.Perm.swap _ _ _).cons _).trans (.swap _ _ _)
    exact ((List.Perm.swap _ _ _).trans ((hlfe.cons _).cons _)).cons _
  next => exact .refl _

/-! ### Pieces of a list -/

/-- Cutting a list loses nothing. -/
theorem flatten_chunks (n : Nat) (xs : List α) : (chunks n xs).flatten = xs := by
  induction hlen : xs.length using Nat.strongRecOn generalizing xs with
  | _ m ih =>
    cases xs with
    | nil => rw [chunks_nil, List.flatten_nil]
    | cons x rest =>
        have hless : (rest.drop (n - 1)).length < m := by
          simp only [List.length_cons] at hlen
          simp only [List.length_drop]
          omega
        rw [chunks_cons, List.flatten_cons, ih _ hless _ rfl, List.cons_append,
          List.take_append_drop]

/-- A list that is long enough has a front of any length. -/
theorem exists_front {n : Nat} {samples : List α} (h : n ≤ samples.length) :
    ∃ front rest, samples = front ++ rest ∧ front.length = n :=
  ⟨samples.take n, samples.drop n, (List.take_append_drop n samples).symm,
    List.length_take_of_le h⟩

end

namespace StreamLayout

variable (layout : StreamLayout)

/-- The position from which the change of channel order fills a position. -/
def origin (p : Nat) : Nat :=
  if layout.channels ≤ 3 then p
  else if layout.mode = some .front2rear1 ∨ layout.mode = some .front2rear2 then p
  else if layout.channels = 6 then centreAndLfeOrigin p
  else centreOrigin p

section
variable {layout} {α : Type} {frame : List α}

theorem getElem?_frameToA52 (h : frame.length = layout.channels.toNat) (p : Nat) :
    (layout.frameToA52 frame)[p]? = frame[layout.origin p]? := by
  unfold frameToA52 origin
  split
  · rfl
  next hmore =>
    rw [UInt8.le_iff_toNat_le, ← h] at hmore
    have hthree : 3 < frame.length := Nat.lt_of_not_le hmore
    split
    · rfl
    · split
      next hsix => exact getElem?_centreAndLfe (by rw [h, hsix]; rfl) p
      next => exact getElem?_swapCentre (Nat.le_of_lt hthree) p

theorem perm_frameToA52 (layout : StreamLayout) (frame : List α) :
    (layout.frameToA52 frame).Perm frame := by
  unfold frameToA52
  split
  · exact .refl _
  · split
    · exact .refl _
    · split
      · exact perm_centreAndLfe frame
      · exact perm_swapCentre frame

end

/-- A position of the frame is filled from a position of the frame. -/
theorem origin_lt {p : Nat} (h : p < layout.channels.toNat) :
    layout.origin p < layout.channels.toNat := by
  unfold origin
  split
  · exact h
  next hmore =>
    rw [UInt8.le_iff_toNat_le] at hmore
    have hthree : 3 < layout.channels.toNat := Nat.lt_of_not_le hmore
    split
    · exact h
    · split
      next hsix =>
        rw [hsix] at h ⊢
        revert p
        decide
      next =>
        unfold centreOrigin
        split <;> omega

/-- The three ways in which a layout can fill its positions. -/
theorem origin_cases : layout.origin = id ∨
    (layout.channels ≠ 6 ∧ layout.origin = centreOrigin) ∨
    (layout.channels = 6 ∧ layout.origin = centreAndLfeOrigin) := by
  unfold origin
  split
  · exact .inl rfl
  · split
    · exact .inl rfl
    · split
      next hsix => exact .inr (.inr ⟨hsix, rfl⟩)
      next hsix => exact .inr (.inl ⟨hsix, rfl⟩)

/-- An exchange undoes itself, and only six channels have more than that. -/
theorem iterate_origin_two (h : layout.channels ≠ 6) (p : Nat) : layout.origin^[2] p = p := by
  rcases layout.origin_cases with horigin | ⟨-, horigin⟩ | ⟨hsix, -⟩
  · rw [horigin, Function.iterate_id, id]
  · rw [horigin]
    exact centreOrigin_two p
  · exact absurd hsix h

/-- Six is a multiple of two and of three, the lengths of the cycles. -/
theorem iterate_origin_six (p : Nat) : layout.origin^[6] p = p := by
  rcases layout.origin_cases with horigin | ⟨hsix, -⟩ | ⟨-, horigin⟩
  · rw [horigin, Function.iterate_id, id]
  · have htwo : layout.origin^[2] = id := funext (layout.iterate_origin_two hsix)
    rw [show 6 = 2 * 3 from rfl, Function.iterate_mul, htwo, Function.iterate_id, id]
  · rw [horigin]
    exact centreAndLfeOrigin_six p

/-- Iterates stay among the positions of the frame. -/
theorem iterate_origin_lt (k : Nat) {p : Nat} (h : p < layout.channels.toNat) :
    layout.origin^[k] p < layout.channels.toNat := by
  induction k generalizing p with
  | zero => exact h
  | succ k ih => exact ih (layout.origin_lt h)

/-- The positions of a frame, each to the one that it is filled from. -/
def order : Equiv.Perm (Fin layout.channels.toNat) where
  toFun p := ⟨layout.origin p, layout.origin_lt p.isLt⟩
  invFun p := ⟨layout.origin^[5] p, layout.iterate_origin_lt 5 p.isLt⟩
  left_inv p := Fin.ext (layout.iterate_origin_six p)
  right_inv p := Fin.ext ((Function.iterate_succ_apply' layout.origin 5 p).symm.trans
    (layout.iterate_origin_six p))

/-! ### Positions in a buffer -/

variable {layout} {α : Type} {samples : List α}

/-- A frame alone is changed as a frame. -/
theorem toA52_frame {frame : List α} (h : frame.length = layout.channels.toNat)
    (hpos : 0 < layout.channels.toNat) : layout.toA52 frame = layout.frameToA52 frame := by
  have hone : chunks layout.channels.toNat frame = [frame] := by
    rw [← List.append_nil frame, chunks_piece hpos h, chunks_nil, List.append_nil]
  rw [toA52, hone, List.flatMap_singleton, if_pos h]

/-- Less than a frame stays as it is. So does anything without channels. -/
theorem toA52_short (h : samples.length < layout.channels.toNat ∨ layout.channels.toNat = 0) :
    layout.toA52 samples = samples := by
  have hsame : ∀ frame ∈ chunks layout.channels.toNat samples,
      (if frame.length = layout.channels.toNat then layout.frameToA52 frame else frame)
        = frame := by
    intro frame hframe
    rcases h with hless | hnone
    · have hle := (List.sublist_flatten_of_mem hframe).length_le
      rw [flatten_chunks] at hle
      exact if_neg (by omega)
    · have hfew : layout.channels ≤ 3 := by
        rw [UInt8.le_iff_toNat_le, hnone]
        exact Nat.zero_le _
      rw [frameToA52, if_pos hfew, ite_self]
  rw [toA52, List.flatMap_congr hsame, List.flatMap_id', flatten_chunks]

/-- The samples of a complete frame are filled from its own positions. -/
theorem getElem?_toA52 {q p : Nat} (hp : p < layout.channels.toNat)
    (hq : (q + 1) * layout.channels.toNat ≤ samples.length) :
    (layout.toA52 samples)[q * layout.channels.toNat + p]?
      = samples[q * layout.channels.toNat + layout.origin p]? := by
  have horigin := layout.origin_lt hp
  induction q generalizing samples with
  | zero =>
      obtain ⟨front, rest, rfl, hfront⟩ :=
        exists_front (show layout.channels.toNat ≤ samples.length by omega)
      rw [toA52_append layout (whole_of_length hfront), toA52_frame hfront (by omega),
        Nat.zero_mul, Nat.zero_add, Nat.zero_add,
        List.getElem?_append_left (by rw [length_frameToA52]; omega),
        List.getElem?_append_left (by omega), getElem?_frameToA52 hfront]
  | succ q ih =>
      rw [Nat.succ_mul] at hq
      obtain ⟨front, rest, rfl, hfront⟩ :=
        exists_front (show layout.channels.toNat ≤ samples.length by omega)
      -- The frame is one further from the front of the rest.
      have hshift : ∀ i, (q + 1) * layout.channels.toNat + i
          = front.length + (q * layout.channels.toNat + i) := by
        intro i
        rw [hfront, Nat.succ_mul]
        omega
      rw [List.length_append, hfront] at hq
      rw [toA52_append layout (whole_of_length hfront), hshift, hshift,
        List.getElem?_append_right (by rw [length_toA52]; omega),
        List.getElem?_append_right (by omega), length_toA52, Nat.add_sub_cancel_left,
        Nat.add_sub_cancel_left]
      exact ih (by omega)

/-- What is behind the last complete frame stays. -/
theorem drop_toA52 (layout : StreamLayout) (samples : List α) :
    let whole := samples.length / layout.channels.toNat * layout.channels.toNat
    (layout.toA52 samples).drop whole = samples.drop whole := by
  intro whole
  have hfront : (samples.take whole).length = whole :=
    List.length_take_of_le (Nat.div_mul_le_self _ _)
  have htail : (samples.drop whole).length < layout.channels.toNat ∨ layout.channels.toNat = 0 := by
    rw [List.length_drop]
    rcases Nat.eq_zero_or_pos layout.channels.toNat with hnone | hsome
    · exact .inr hnone
    · left
      have hmod := Nat.mod_lt samples.length hsome
      have hsplit := Nat.div_add_mod' samples.length layout.channels.toNat
      omega
  have hchange : layout.toA52 samples
      = layout.toA52 (samples.take whole) ++ samples.drop whole := by
    have happend := layout.toA52_append (by rw [hfront, Nat.mul_mod_left]) (samples.drop whole)
    rwa [List.take_append_drop, toA52_short htail] at happend
  rw [hchange, List.drop_left' ((length_toA52 _ _).trans hfront)]

/-- The samples of a buffer are all there, each as often as before. -/
theorem perm_toA52 (layout : StreamLayout) (samples : List α) :
    (layout.toA52 samples).Perm samples := by
  have hpieces := List.Perm.flatMap_left (chunks layout.channels.toNat samples)
    (f := fun frame =>
      if frame.length = layout.channels.toNat then layout.frameToA52 frame else frame)
    (g := id) fun frame _ => by
      split
      · exact layout.perm_frameToA52 frame
      · exact .refl _
  rw [List.flatMap_id, flatten_chunks] at hpieces
  exact hpieces

/-! ### Several changes -/

@[simp] theorem length_iterate_toA52 (layout : StreamLayout) (k : Nat) (samples : List α) :
    (layout.toA52^[k] samples).length = samples.length := by
  induction k generalizing samples with
  | zero => rfl
  | succ k ih => rw [Function.iterate_succ_apply, ih, length_toA52]

/-- Changing a buffer `k` times goes `k` times from position to position. -/
theorem getElem?_iterate_toA52 (k : Nat) {q p : Nat} (hp : p < layout.channels.toNat)
    (hq : (q + 1) * layout.channels.toNat ≤ samples.length) :
    (layout.toA52^[k] samples)[q * layout.channels.toNat + p]?
      = samples[q * layout.channels.toNat + layout.origin^[k] p]? := by
  induction k generalizing samples with
  | zero => rfl
  | succ k ih =>
      have hlen : (q + 1) * layout.channels.toNat ≤ (layout.toA52 samples).length := by
        rwa [length_toA52]
      rw [Function.iterate_succ_apply, ih hlen, Function.iterate_succ_apply',
        getElem?_toA52 (layout.iterate_origin_lt k hp) hq]

theorem drop_iterate_toA52 (layout : StreamLayout) (k : Nat) (samples : List α) :
    let whole := samples.length / layout.channels.toNat * layout.channels.toNat
    (layout.toA52^[k] samples).drop whole = samples.drop whole := by
  intro whole
  induction k with
  | zero => rfl
  | succ k ih =>
      have hdrop := layout.drop_toA52 (layout.toA52^[k] samples)
      rw [length_iterate_toA52] at hdrop
      rw [Function.iterate_succ_apply']
      exact hdrop.trans ih

/-- Positions that are back where they were bring every buffer back. -/
theorem iterate_toA52_of_origin {k : Nat} (h : ∀ p, layout.origin^[k] p = p)
    (samples : List α) : layout.toA52^[k] samples = samples := by
  refine List.ext_getElem? fun i => ?_
  have htail := layout.drop_iterate_toA52 k samples
  dsimp only at htail
  by_cases hi : i < samples.length / layout.channels.toNat * layout.channels.toNat
  · have hpos : 0 < layout.channels.toNat := Nat.pos_of_mul_pos_left (Nat.zero_lt_of_lt hi)
    have hframe : (i / layout.channels.toNat + 1) * layout.channels.toNat ≤ samples.length :=
      Nat.le_trans (Nat.mul_le_mul_right _ ((Nat.div_lt_iff_lt_mul hpos).mpr hi))
        (Nat.div_mul_le_self _ _)
    have hmove := getElem?_iterate_toA52 k (Nat.mod_lt i hpos) hframe
    rwa [h, Nat.div_add_mod'] at hmove
  · have hsame := congrArg (·[i - samples.length / layout.channels.toNat
      * layout.channels.toNat]?) htail
    rwa [List.getElem?_drop, List.getElem?_drop, Nat.add_sub_cancel' (Nat.le_of_not_lt hi)]
      at hsame

/-- Every layout has one permutation of its channels, and the change of
channel order moves the samples of each complete frame by it, whatever the
buffer. An incomplete last frame stays. So no sample is lost and no two
buffers are confused, and buffers may be cut between frames. Six changes in a
row undo themselves, and two do unless there are six channels. -/
theorem permutes_frames (layout : StreamLayout) :
    let n := layout.channels.toNat
    ∃ order : Equiv.Perm (Fin n), (∀ p, (order p : Nat) = layout.origin p) ∧
      (∀ {α : Type} (samples : List α),
        (∀ (q : Nat) (p : Fin n), (q + 1) * n ≤ samples.length →
          (layout.toA52 samples)[q * n + p]? = samples[q * n + order p]?) ∧
        (layout.toA52 samples).drop (samples.length / n * n)
          = samples.drop (samples.length / n * n) ∧
        (layout.toA52 samples).length = samples.length ∧
        (layout.toA52 samples).Perm samples) ∧
      (∀ {α : Type}, Function.Injective (layout.toA52 (α := α))) ∧
      (∀ {α : Type} (xs ys : List α), xs.length % n = 0 →
        layout.toA52 (xs ++ ys) = layout.toA52 xs ++ layout.toA52 ys) ∧
      (∀ {α : Type} (samples : List α), layout.toA52^[6] samples = samples) ∧
      (layout.channels ≠ 6 → ∀ {α : Type} (samples : List α),
        layout.toA52^[2] samples = samples) := by
  intro n
  have hsix : ∀ {α : Type} (samples : List α), layout.toA52^[6] samples = samples :=
    fun samples => iterate_toA52_of_origin layout.iterate_origin_six samples
  refine ⟨layout.order, fun p => rfl, ?_, ?_, ?_, hsix, ?_⟩
  · intro α samples
    exact ⟨fun q p hq => getElem?_toA52 p.isLt hq, layout.drop_toA52 samples,
      layout.length_toA52 samples, layout.perm_toA52 samples⟩
  · -- Five more changes are an inverse.
    intro α
    exact Function.LeftInverse.injective (g := layout.toA52^[5]) hsix
  · intro α xs ys hxs
    exact layout.toA52_append hxs ys
  · intro hchannels α samples
    exact iterate_toA52_of_origin (layout.iterate_origin_two hchannels) samples

/-- Two frames of six channels and two samples of a third. The LFE of the second
frame goes last, the two samples stay, and cutting behind a frame makes no
difference. With five channels two changes undo themselves. -/
theorem permutes_frames_six :
    let six : StreamLayout := ⟨6, .float, some .front3rear2, true⟩
    let five : StreamLayout := ⟨5, .float, some .front3rear2, false⟩
    (six.toA52 (List.range 14))[11]? = some 9 ∧
      (six.toA52 (List.range 14)).drop 12 = [12, 13] ∧
      six.toA52 (List.range 6 ++ [6, 7]) = six.toA52 (List.range 6) ++ six.toA52 [6, 7] ∧
      five.toA52^[2] (List.range 7) = List.range 7 := by
  intro six five
  obtain ⟨order, horder, hsix, -, hcut, -⟩ := permutes_frames six
  obtain ⟨-, -, -, -, -, -, htwo⟩ := permutes_frames five
  obtain ⟨hframe, htail, -⟩ := hsix (List.range 14)
  have hwhole : (List.range 14).length / six.channels.toNat * six.channels.toNat = 12 := by decide
  rw [hwhole] at htail
  let last : Fin six.channels.toNat := ⟨5, by decide⟩
  have hlast : (order last : Nat) = 3 := horder last
  have hmove := hframe 1 last (by decide)
  rw [hlast] at hmove
  exact ⟨hmove, htail, hcut (List.range 6) [6, 7] (by decide), htwo (by decide) (List.range 7)⟩

end StreamLayout

end Packetizer
