/-!
# `Packetizer.Audio.Chunks`: a list cut into equal pieces

`chunks n xs` cuts `xs` into pieces of `n` elements, the last one
possibly shorter. Interleaved samples are cut into frames and bytes
into words this way.
-/

set_option autoImplicit false

namespace Packetizer

/-- The pieces of `xs`, each of `n` elements but for the last. A size
of zero cuts like a size of one. -/
def chunks {α : Type} (n : Nat) (xs : List α) : List (List α) :=
  go xs #[]
where
  go (xs : List α) (cut : Array (List α)) : List (List α) :=
    match xs with
    | [] => cut.toList
    | x :: rest => go (rest.drop (n - 1)) (cut.push (x :: rest.take (n - 1)))
  termination_by xs.length
  decreasing_by simp only [List.length_drop, List.length_cons]; omega

/-- The pieces already cut stand in front of the rest. -/
theorem chunks_go {α : Type} (n : Nat) (xs : List α) (cut : Array (List α)) :
    chunks.go n xs cut = cut.toList ++ chunks.go n xs #[] := by
  induction h : xs.length using Nat.strongRecOn generalizing xs cut with
  | _ m ih =>
    cases xs with
    | nil => simp [chunks.go]
    | cons x rest =>
        -- Both sides cut the same first piece and go on with a shorter list.
        have hlt : (rest.drop (n - 1)).length < m := by
          simp only [List.length_cons] at h
          simp only [List.length_drop]
          omega
        rw [chunks.go.eq_def n (x :: rest) cut, chunks.go.eq_def n (x :: rest) #[]]
        dsimp only
        rw [ih _ hlt _ (cut.push _) rfl, ih _ hlt _ (#[].push _) rfl]
        simp

/-- Nothing has no pieces. -/
@[simp] theorem chunks_nil {α : Type} (n : Nat) : chunks n ([] : List α) = [] := by
  simp [chunks, chunks.go]

/-- The first piece, and the pieces of the rest. -/
theorem chunks_cons {α : Type} (n : Nat) (x : α) (rest : List α) :
    chunks n (x :: rest) = (x :: rest.take (n - 1)) :: chunks n (rest.drop (n - 1)) := by
  rw [chunks, chunks.go.eq_def]
  dsimp only
  rw [chunks_go, chunks]
  simp

end Packetizer
