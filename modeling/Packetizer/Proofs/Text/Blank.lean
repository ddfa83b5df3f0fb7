import Mathlib.Data.List.DropRight
import Packetizer.Text.Blank

/-!
# `Packetizer.Proofs.Text.Blank`: what trimming leaves

A text without the white space at its two ends, said with no function: it
stands between two pieces of white space and neither begins nor ends with any
(`Framed`). Every text has such a part (`exists_framed`), trimming finds it
(`Framed.trim_eq`), and so there is only one (`trim_eq_iff`).
-/

set_option autoImplicit false

namespace Packetizer.Text

/-- `core` stands between white space and has none at its own ends. Inside of
it white space may stand. -/
structure Framed (before core behind : List Char) : Prop where
  before : ∀ c ∈ before, isBlank c
  first : ∀ c ∈ core.head?, ¬ isBlank c
  last : ∀ c ∈ core.getLast?, ¬ isBlank c
  behind : ∀ c ∈ behind, isBlank c

/-- Nothing is dropped where the first character stays. -/
theorem dropWhile_of_head {p : Char → Bool} {cs : List Char} (h : ∀ c ∈ cs.head?, ¬ p c) :
    cs.dropWhile p = cs := by
  cases cs with
  | nil => rfl
  | cons c rest => exact List.dropWhile_cons_of_neg (h c rfl)

/-- A part without white space is framed by any white space. -/
theorem framed_of_solid {before core behind : List Char} (hbefore : ∀ c ∈ before, isBlank c)
    (hcore : ∀ c ∈ core, ¬ isBlank c) (hbehind : ∀ c ∈ behind, isBlank c) :
    Framed before core behind where
  before := hbefore
  first := fun c hc => hcore c (List.mem_of_head? hc)
  last := fun c hc => hcore c (List.mem_of_getLast? hc)
  behind := hbehind

/-- Trimming takes away the frame and nothing else. -/
theorem Framed.trim_eq {before core behind : List Char} (h : Framed before core behind) :
    trim (before ++ core ++ behind) = core := by
  have hfront :
      (before ++ core ++ behind).dropWhile isBlank = (core ++ behind).dropWhile isBlank := by
    rw [List.append_assoc]
    exact List.dropWhile_append_of_pos h.before
  rw [trim, hfront]
  cases hcore : core with
  | nil =>
    -- Without a core, the white space behind is dropped from the front.
    have hnone : behind.dropWhile isBlank = [] := List.dropWhile_eq_nil_iff.2 h.behind
    rw [List.nil_append, hnone]
    rfl
  | cons c rest =>
    rw [← hcore]
    have hstays : (core ++ behind).dropWhile isBlank = core ++ behind := by
      refine dropWhile_of_head ?_
      intro d hd
      refine h.first d ?_
      rwa [hcore] at hd ⊢
    have hback : (core ++ behind).reverse.dropWhile isBlank = core.reverse := by
      rw [List.reverse_append, List.dropWhile_append_of_pos]
      · refine dropWhile_of_head ?_
        rw [List.head?_reverse]
        exact h.last
      · intro d hd
        exact h.behind d (List.mem_reverse.1 hd)
    rw [hstays, hback, List.reverse_reverse]

/-- Every text is what trimming leaves, with white space around it. -/
theorem exists_framed (cs : List Char) :
    ∃ before behind, cs = before ++ trim cs ++ behind ∧ Framed before (trim cs) behind := by
  have htrim : trim cs = (cs.dropWhile isBlank).rdropWhile isBlank := rfl
  have hcore : (cs.dropWhile isBlank).rdropWhile isBlank ++
      (cs.dropWhile isBlank).rtakeWhile isBlank = cs.dropWhile isBlank :=
    List.rdropWhile_append_rtakeWhile
  refine ⟨cs.takeWhile isBlank, (cs.dropWhile isBlank).rtakeWhile isBlank, ?_, ?_⟩
  · rw [htrim, List.append_assoc, hcore, List.takeWhile_append_dropWhile]
  · rw [htrim]
    constructor
    case before =>
      intro c hc
      exact List.mem_takeWhile_imp hc
    case first =>
      -- The first character that is left was already first before the end was cut.
      intro c hc
      have hhead : (cs.dropWhile isBlank).head? = some c := by
        rw [← hcore, List.head?_append, hc]
        rfl
      have hnot := List.head?_dropWhile_not isBlank cs
      rw [hhead] at hnot
      exact Bool.eq_false_iff.1 hnot
    case last =>
      intro c hc
      have hne : (cs.dropWhile isBlank).rdropWhile isBlank ≠ [] :=
        List.ne_nil_of_mem (List.mem_of_getLast? hc)
      rw [List.getLast?_eq_some_getLast hne] at hc
      cases hc
      exact List.rdropWhile_last_not _ _ hne
    case behind =>
      intro c hc
      exact List.mem_rtakeWhile_imp hc

/-- Trimming answers the one part of a text that white space frames. -/
theorem trim_eq_iff {cs core : List Char} :
    trim cs = core ↔
      ∃ before behind, cs = before ++ core ++ behind ∧ Framed before core behind := by
  constructor
  · rintro rfl
    exact exists_framed cs
  · rintro ⟨before, behind, rfl, hframed⟩
    exact hframed.trim_eq

end Packetizer.Text
