import Packetizer.Proofs.Events
import Packetizer.Stream.File

/-!
# `Packetizer.Proofs.Stream.Writing`: what writing all bytes leaves in a sink

A sink may take bytes in small pieces, be interrupted in between, take
nothing or fail. `bytesTaken_writeAll` says what is left of that: all
bytes are taken, in order, or writing failed and a part of them is
missing at the end.

A sink that `NeverFails` takes something of what it is offered or is
interrupted, now and after any writes, and then writing ends well. Of
the files that have been opened it is those on a device with room.

`Recorded` wraps a sink and writes down what the sink takes, so that
the contents of a sink can be spoken of without asking the events.
`taken_writeAll` says that both tell the same.
-/

set_option autoImplicit false

namespace Packetizer

/-- A sink and the bytes that it has taken. -/
structure Recorded (κ : Type) where
  sink : κ
  taken : List UInt8

namespace Recorded

variable {κ : Type} [Sink κ]

/-- Passes a write on and writes down what was taken. -/
def write (k : Recorded κ) (bs : List UInt8) : Writing (Recorded κ) :=
  let w := Sink.write k.sink bs
  let count := match w.outcome with
    | .ok n => n
    | .error _ => 0
  ⟨w.outcome, w.sink, k.taken ++ bs.take count⟩

instance : Sink (Recorded κ) where
  write := write
  patience k := Sink.patience k.sink
  accepted_le k bs n h := Sink.accepted_le k.sink bs n h
  patience_lt k bs h := Sink.patience_lt k.sink bs h

end Recorded

namespace Sink

variable {κ : Type} [Sink κ]

/-- Writing calls no codec and releases no session. -/
theorem quiet_writeAll (k : κ) (bs : List UInt8) :
    codecCalls (writeAll k bs).events = [] ∧ releases (writeAll k bs).events = 0 := by
  fun_induction writeAll k bs with
  | case1 => exact ⟨rfl, rfl⟩
  | case2 => exact ⟨rfl, rfl⟩
  | case3 _ _ _ _ _ _ more ih => exact ih
  | case4 _ _ _ _ _ ih => exact ih
  | case5 => exact ⟨rfl, rfl⟩

/-- Nor does it call the hook. -/
theorem hookCalls_writeAll (k : κ) (bs : List UInt8) : hookCalls (writeAll k bs).events = [] := by
  fun_induction writeAll k bs with
  | case1 => rfl
  | case2 => rfl
  | case3 _ _ _ _ _ _ more ih => exact ih
  | case4 _ _ _ _ _ ih => exact ih
  | case5 => rfl

/-- Either all bytes are taken, or writing fails and bytes are left. -/
theorem bytesTaken_writeAll (k : κ) (bs : List UInt8) :
    ((writeAll k bs).outcome = .ok () ∧ bytesTaken (writeAll k bs).events = bs) ∨
    ∃ e rest, (writeAll k bs).outcome = .error e ∧ rest ≠ [] ∧
      bytesTaken (writeAll k bs).events ++ rest = bs := by
  fun_induction writeAll k bs with
  | case1 => exact .inl ⟨rfl, rfl⟩
  | case2 k bs hne rest h => exact .inr ⟨_, bs, rfl, hne, rfl⟩
  | case3 k bs hne n rest h more ih =>
      -- The first write took the front, and the rest is what `ih` speaks of.
      have hfront : ∀ tail : List UInt8, bytesTaken (.wrote (bs.take (n + 1)) :: more.events)
          ++ tail = bs.take (n + 1) ++ (bytesTaken more.events ++ tail) := by
        intro tail
        rw [← List.append_assoc]
        rfl
      rcases ih with ⟨hok, htaken⟩ | ⟨e, left, herr, hleft, htaken⟩
      · refine .inl ⟨hok, ?_⟩
        have := hfront []
        rw [List.append_nil, List.append_nil] at this
        rw [this, htaken, List.take_append_drop]
      · refine .inr ⟨e, left, herr, hleft, ?_⟩
        rw [hfront, htaken, List.take_append_drop]
  | case4 k bs hne rest h ih => exact ih
  | case5 k bs hne e rest he h => exact .inr ⟨e, bs, rfl, hne, rfl⟩

/-- A sink as some writes leave it. -/
inductive Later : κ → κ → Prop where
  | refl (k : κ) : Later k k
  | step {k k' : κ} (writes : Later k k') (bs : List UInt8) : Later k (write k' bs).sink

/-- The sink takes a part of whatever it is offered, or is interrupted,
however much is written to it. -/
def NeverFails (k : κ) : Prop :=
  ∀ k', Later k k' → ∀ bs, bs ≠ [] →
    (∃ n, (write k' bs).outcome = .ok (n + 1)) ∨ (write k' bs).outcome = .error .interrupted

theorem Later.after {k k' : κ} {bs : List UInt8} (h : Later (write k bs).sink k') :
    Later k k' := by
  induction h with
  | refl => exact .step (.refl k) bs
  | step writes cs ih => exact .step ih cs

theorem Later.trans {k k' k'' : κ} (h : Later k k') (h' : Later k' k'') : Later k k'' := by
  induction h' with
  | refl => exact h
  | step writes bs ih => exact .step ih bs

/-- Writing is some writes, whatever comes of them. -/
theorem later_writeAll (k : κ) (bs : List UInt8) : Later k (writeAll k bs).sink := by
  fun_induction writeAll k bs with
  | case1 k => exact .refl k
  | case2 k bs hne rest h =>
      have hone := Later.step (.refl k) bs
      rwa [h] at hone
  | case3 k bs hne n rest h more ih =>
      have hrest : Later (write k bs).sink more.sink := by
        rw [h]
        exact ih
      exact hrest.after
  | case4 k bs hne rest h ih =>
      have hrest : Later (write k bs).sink (writeAll rest bs).sink := by
        rw [h]
        exact ih
      exact hrest.after
  | case5 k bs hne e rest he h =>
      have hone := Later.step (.refl k) bs
      rwa [h] at hone

theorem NeverFails.write {k : κ} (h : NeverFails k) (bs : List UInt8) :
    NeverFails (write k bs).sink :=
  fun k' hlater => h k' hlater.after

theorem NeverFails.later {k k' : κ} (h : NeverFails k) (hlater : Later k k') : NeverFails k' :=
  fun k'' hmore => h k'' (hlater.trans hmore)

/-- All bytes get through to a sink that never fails. -/
theorem NeverFails.writeAll {k : κ} (h : NeverFails k) (bs : List UInt8) :
    (writeAll k bs).outcome = .ok () ∧ NeverFails (writeAll k bs).sink := by
  fun_induction Sink.writeAll k bs with
  | case1 k => exact ⟨rfl, h⟩
  | case2 k bs hne rest hw =>
      have hfine := h k (.refl k) bs hne
      simp [hw] at hfine
  | case3 k bs hne n rest hw more ih =>
      have hrest := h.write bs
      rw [hw] at hrest
      exact ih hrest
  | case4 k bs hne rest hw ih =>
      have hrest := h.write bs
      rw [hw] at hrest
      exact ih hrest
  | case5 k bs hne e rest he hw =>
      have hfine := h k (.refl k) bs hne
      rw [hw] at hfine
      rcases hfine with ⟨n, hn⟩ | hn
      · cases hn
      · cases hn
        exact absurd rfl he

/-- The sink takes all of whatever it is offered, however much is written
to it. -/
def TakesAll (k : κ) : Prop :=
  ∀ k', Later k k' → ∀ bs, bs ≠ [] → (write k' bs).outcome = .ok bs.length

theorem TakesAll.later {k k' : κ} (h : TakesAll k) (hlater : Later k k') : TakesAll k' :=
  fun k'' hmore => h k'' (hlater.trans hmore)

/-- Writing to a sink that takes all it is offered is one write. -/
theorem TakesAll.writeAll {k : κ} (h : TakesAll k) {bs : List UInt8} (hbs : bs ≠ []) :
    writes (writeAll k bs).events = [bs] := by
  have hall := h k (.refl k) bs hbs
  obtain ⟨n, hn⟩ := Nat.exists_eq_succ_of_ne_zero (mt List.eq_nil_of_length_eq_zero hbs)
  rw [hn] at hall
  rw [Sink.writeAll, if_neg hbs]
  split
  next heq =>
    rw [heq] at hall
    cases hall
  next m rest heq =>
    rw [heq] at hall
    cases hall
    rw [List.drop_of_length_le (Nat.le_of_eq hn), List.take_of_length_le (Nat.le_of_eq hn),
      Sink.writeAll, if_pos rfl]
    rfl
  next heq =>
    rw [heq] at hall
    cases hall
  next heq =>
    rw [heq] at hall
    cases hall

/-- The writes put some packets into the sink, one after the other, each
in some pieces. A sink that takes all it is offered has each packet in one
write. -/
structure PutsIn (k : κ) (packets writes : List (List UInt8)) : Prop where
  pieces : ∃ pieces : List (List (List UInt8)),
    pieces.map List.flatten = packets ∧ pieces.flatten = writes
  whole : TakesAll k → writes = packets

theorem PutsIn.nil (k : κ) : PutsIn k [] [] := ⟨⟨[], rfl, rfl⟩, fun _ => rfl⟩

theorem PutsIn.append {k k' : κ} {packets writes packets' writes' : List (List UInt8)}
    (h : PutsIn k packets writes) (hlater : Later k k') (h' : PutsIn k' packets' writes') :
    PutsIn k (packets ++ packets') (writes ++ writes') := by
  obtain ⟨pieces, hpackets, hwrites⟩ := h.pieces
  obtain ⟨pieces', hpackets', hwrites'⟩ := h'.pieces
  constructor
  · refine ⟨pieces ++ pieces', ?_, ?_⟩
    · rw [List.map_append, hpackets, hpackets']
    · rw [List.flatten_append, hwrites, hwrites']
  · intro hall
    rw [h.whole hall, h'.whole (hall.later hlater)]

/-- A packet is put into a sink that never fails by writing it. -/
theorem NeverFails.putsIn {k : κ} (h : NeverFails k) {bs : List UInt8} (hbs : bs ≠ []) :
    PutsIn k [bs] (writes (Sink.writeAll k bs).events) := by
  constructor
  · refine ⟨[writes (Sink.writeAll k bs).events], ?_, List.append_nil _⟩
    rcases bytesTaken_writeAll k bs with ⟨-, htaken⟩ | ⟨e, rest, herr, -⟩
    · rw [List.map_singleton, flatten_writes, htaken]
    · rw [(h.writeAll bs).1] at herr
      cases herr
  · exact fun hall => hall.writeAll hbs

/-- Keeping record does not make a sink fail. -/
theorem NeverFails.recorded {k : κ} (h : NeverFails k) (taken : List UInt8) :
    NeverFails (⟨k, taken⟩ : Recorded κ) := by
  have hlater : ∀ {r r' : Recorded κ}, Later r r' → Later r.sink r'.sink := by
    intro r r' hlater
    induction hlater with
    | refl => exact .refl _
    | step writes bs ih => exact .step ih bs
  exact fun r' hr' => h r'.sink (hlater hr')

/-- The record of a sink grows by the bytes that the events tell. -/
theorem taken_writeAll (k : Recorded κ) (bs : List UInt8) :
    (writeAll k bs).sink.taken = k.taken ++ bytesTaken (writeAll k bs).events := by
  -- One write: the record grows by the bytes that were taken.
  have hone : ∀ (k rest : Recorded κ) (bs : List UInt8) (outcome : Except StreamError Nat),
      write k bs = ⟨outcome, rest⟩ →
      rest.taken = k.taken ++ bs.take (outcome.toOption.getD 0) := by
    intro k rest bs outcome h
    have hsink := congrArg (fun w => w.sink.taken) h
    have houtcome := congrArg Writing.outcome h
    dsimp only at hsink houtcome
    rw [← hsink, ← houtcome]
    show k.taken ++ bs.take _ = k.taken ++ bs.take ((write k.sink bs).outcome.toOption.getD 0)
    cases (write k.sink bs).outcome <;> rfl
  fun_induction writeAll k bs with
  | case1 k => rw [show bytesTaken [] = [] from rfl, List.append_nil]
  | case2 k bs hne rest h => exact hone k rest bs _ h
  | case3 k bs hne n rest h more ih =>
      rw [show more.sink.taken = _ from ih, hone k rest bs _ h, List.append_assoc]
      rfl
  | case4 k bs hne rest h ih =>
      rw [ih, hone k rest bs _ h]
      simp [Except.toOption]
  | case5 k bs hne e rest he h => exact hone k rest bs _ h

end Sink

/-- A file never fails when there is room on the device behind it. -/
theorem OutputFile.neverFails_iff {f : OutputFile} : Sink.NeverFails f ↔ f.isFull = false := by
  constructor
  · intro h
    -- Enough bytes for the buffer alone are passed on at once.
    have hsome : List.replicate bufferSize (0 : UInt8) ≠ [] :=
      List.ne_nil_of_length_pos (by rw [List.length_replicate]; decide)
    have hwrite := h f (.refl f) (List.replicate bufferSize 0) hsome
    cases hfull : f.isFull with
    | false => rfl
    | true =>
        have hrefused : (Sink.write f (List.replicate bufferSize 0)).outcome
            = .error (.system .storageFull) := by
          show (f.write _).outcome = _
          simp [write, overflows, hfull]
        rw [hrefused] at hwrite
        rcases hwrite with ⟨n, hok⟩ | hinterrupted
        · cases hok
        · cases hinterrupted
  · intro h f' hlater bs hbs
    have hroom : f'.isFull = false := by
      induction hlater with
      | refl => exact h
      | @step f' writes bs ih =>
          show (f'.write bs).sink.isFull = false
          unfold write
          split <;> exact ih
    left
    obtain ⟨n, hn⟩ := Nat.exists_eq_succ_of_ne_zero (mt List.eq_nil_of_length_eq_zero hbs)
    refine ⟨n, ?_⟩
    show (f'.write bs).outcome = _
    rw [write, hroom]
    exact congrArg Except.ok hn

end Packetizer
