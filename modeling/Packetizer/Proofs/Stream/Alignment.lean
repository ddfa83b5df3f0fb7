import Packetizer.Proofs.Stream.Stopping
import Packetizer.Rehearsal.Devices

/-!
# `Packetizer.Proofs.Stream.Alignment`: a stoppable source under any control

`Signalled` is a stoppable source that is told to stop and then read in
whole frames. This module makes no assumption on who reads it and how: a
run is any row of reads, of flags set and of frames set anew, and the
source inside may fail at any read (`Control`). It is `Observed`, so that
what a run got can be compared with what the source inside delivered.

Three facts hold of every run. No byte is lost, made up or moved
(`bytes_run`). The count of `delivered` bytes is the number of bytes got
since the frames were set (`count_run`), so an end that the source inside
was not asked for is between two frames. And while the flag is down, the
bytes got do not reach past the next frame boundary (`boundary_run`). Each
is an induction on the run, with one lemma for a single operation.
-/

set_option autoImplicit false

namespace Packetizer

/-! ### Records of reads -/

/-- A read: the bytes asked for, and what came of it. -/
structure ReadCall where
  asked : Nat
  outcome : Except StreamError (List UInt8)

/-- The bytes that a read delivered. One that failed delivered none. -/
def ReadCall.bytes (c : ReadCall) : List UInt8 :=
  match c.outcome with
  | .ok bs => bs
  | .error _ => []

/-- The bytes that some reads delivered. -/
def bytesRead (calls : List ReadCall) : List UInt8 := calls.flatMap ReadCall.bytes

@[simp] theorem bytesRead_append (front back : List ReadCall) :
    bytesRead (front ++ back) = bytesRead front ++ bytesRead back := List.flatMap_append

@[simp] theorem bytesRead_singleton (c : ReadCall) : bytesRead [c] = c.bytes :=
  List.flatMap_singleton _ _

/-- A source that keeps a record of its reads. -/
structure Observed (ρ : Type) where
  source : ρ
  calls : List ReadCall

variable {ρ : Type} [Source ρ]

instance : Source (Observed ρ) where
  read s n :=
    let x := Source.read s.source n
    ⟨x.outcome, x.log, ⟨x.source, s.calls ++ [⟨n, x.outcome⟩]⟩⟩
  size s := Source.size s.source
  length_read s n := Source.length_read s.source n
  size_read_le s n := Source.size_read_le s.source n
  size_lt_of_ok s n := Source.size_lt_of_ok s.source n
  size_lt_of_interrupted s n := Source.size_lt_of_interrupted s.source n

/-! ### Runs -/

/-- What can be done to a stoppable source. -/
inductive Control where
  | read (n : Nat)
  | signal (running : Bool)
  | setFrameBytes (n : Nat)

namespace Control

/-- The source after an operation. -/
def perform (op : Control) (s : Stoppable (Switchable (Observed ρ))) :
    Stoppable (Switchable (Observed ρ)) :=
  match op with
  | read n => (Source.read s n).source
  | signal running => { s with inner := { s.inner with running := running } }
  | setFrameBytes n => s.setFrameBytes n

/-- The reads in an operation, with what came of them. -/
def calls (op : Control) (s : Stoppable (Switchable (Observed ρ))) : List ReadCall :=
  match op with
  | read n => [⟨n, (Source.read s n).outcome⟩]
  | signal _ | setFrameBytes _ => []

/-- Operations among which no frames are set. -/
def KeepFrames (ops : List Control) : Prop := ∀ n, setFrameBytes n ∉ ops

theorem KeepFrames.head {op : Control} {ops : List Control} (h : KeepFrames (op :: ops)) :
    ∀ n, op ≠ setFrameBytes n :=
  fun n hop => h n (hop ▸ List.mem_cons_self)

theorem KeepFrames.tail {op : Control} {ops : List Control} (h : KeepFrames (op :: ops)) :
    KeepFrames ops :=
  fun n hmem => h n (List.mem_cons_of_mem op hmem)

/-- Frames of `size` bytes are set by the last one of some operations.
Before the first one they are single bytes. -/
inductive Sets : List Control → Nat → Prop where
  | start : Sets [] 1
  | set (ops : List Control) (n : Nat) : Sets (ops ++ [setFrameBytes n]) (max n 1)

end Control

namespace Stoppable

/-- The source after some operations. -/
def run (s : Stoppable (Switchable (Observed ρ))) (ops : List Control) :
    Stoppable (Switchable (Observed ρ)) :=
  ops.foldl (fun s op => op.perform s) s

/-- The reads in a run. -/
def calls (s : Stoppable (Switchable (Observed ρ))) : List Control → List ReadCall
  | [] => []
  | op :: ops => op.calls s ++ (op.perform s).calls ops

/-- The reads that the source inside has answered. -/
def passed (s : Stoppable (Switchable (Observed ρ))) : List ReadCall := s.inner.source.calls

/-- Every read of a run begins with the flag down. -/
def ReadsStopped (s : Stoppable (Switchable (Observed ρ))) : List Control → Prop
  | [] => True
  | op :: ops =>
      (∀ n, op = .read n → s.inner.running = false) ∧ (op.perform s).ReadsStopped ops

variable {s : Stoppable (Switchable (Observed ρ))}

theorem run_append (s : Stoppable (Switchable (Observed ρ))) (front back : List Control) :
    s.run (front ++ back) = (s.run front).run back := List.foldl_append

/-! ### One operation -/

/-- What a read comes to. With the flag down and no frame begun it is the
end, and the source inside is not asked. Otherwise it is passed on, with
the flag down for no more than is missing. -/
theorem read_cases (s : Stoppable (Switchable (Observed ρ))) (n : Nat) :
    (s.inner.running = false ∧ s.missing = 0 ∧ (Source.read s n).outcome = .ok [] ∧
      (Source.read s n).source = s) ∨
    ((s.inner.running = false → s.missing ≠ 0) ∧
      ∃ m, (s.inner.running = false → m ≤ s.missing) ∧
        (Source.read s n).outcome = (s.pass m).outcome ∧
        (Source.read s n).source = (s.pass m).source) := by
  have hread : Source.read s n = s.read n := rfl
  rw [Stoppable.read] at hread
  split at hread
  next hrunning =>
    have hup : s.inner.running ≠ false := by
      rw [show s.inner.running = true from hrunning]
      nofun
    rw [hread]
    exact .inr ⟨fun hdown => absurd hdown hup, n, fun hdown => absurd hdown hup, rfl, rfl⟩
  next hstopped =>
    have hdown : s.inner.running = false := Bool.eq_false_iff.mpr hstopped
    split at hread
    next hwhole =>
      rw [hread]
      exact .inl ⟨hdown, hwhole, rfl, rfl⟩
    next hinside =>
      rw [hread]
      exact .inr ⟨fun _ => hinside, _, fun _ => Nat.min_le_right _ _, rfl, rfl⟩

/-- A read that is passed on is recorded inside. -/
theorem passed_pass (s : Stoppable (Switchable (Observed ρ))) (m : Nat) :
    (s.pass m).source.passed = s.passed ++ [⟨m, (s.pass m).outcome⟩] := rfl

/-- It is counted by the bytes that it delivers. -/
theorem delivered_pass (s : Stoppable (Switchable (Observed ρ))) (m : Nat) :
    (s.pass m).source.delivered
      = s.delivered + (ReadCall.bytes ⟨m, (s.pass m).outcome⟩).length := by
  have hcount : ∀ x : Except StreamError (List UInt8),
      (match x with
        | .ok bs => bs.length
        | .error _ => 0) = (ReadCall.bytes ⟨m, x⟩).length := by
    rintro (error | bs) <;> rfl
  exact congrArg (s.delivered + ·) (hcount _)

/-- And those are no more than it asks for. -/
theorem length_pass (s : Stoppable (Switchable (Observed ρ))) (m : Nat) :
    (ReadCall.bytes ⟨m, (s.pass m).outcome⟩).length ≤ m := by
  cases h : (s.pass m).outcome with
  | error error => exact Nat.zero_le m
  | ok bs => exact Source.length_read s.inner m bs h

end Stoppable

namespace Control

variable {s : Stoppable (Switchable (Observed ρ))}

/-- An operation gets the bytes that the source inside delivers in it. -/
theorem bytes_perform (op : Control) (s : Stoppable (Switchable (Observed ρ))) :
    bytesRead (op.perform s).passed = bytesRead s.passed ++ bytesRead (op.calls s) := by
  cases op with
  | signal | setFrameBytes => exact (List.append_nil _).symm
  | read n =>
      rcases s.read_cases n with ⟨-, -, hnone, hsame⟩ | ⟨-, m, -, houtcome, hsource⟩
      · -- An end that is made up has no bytes, here and inside.
        rw [perform, calls, hnone, hsame]
        exact (List.append_nil _).symm
      · rw [perform, calls, houtcome, hsource, Stoppable.passed_pass, bytesRead_append,
          bytesRead_singleton, bytesRead_singleton]
        rfl

/-- An operation that sets no frames counts the bytes that it gets. -/
theorem count_perform {op : Control} (hkeeps : ∀ n, op ≠ setFrameBytes n)
    (s : Stoppable (Switchable (Observed ρ))) :
    (op.perform s).frameBytes = s.frameBytes ∧
      (op.perform s).delivered = s.delivered + (bytesRead (op.calls s)).length := by
  cases op with
  | setFrameBytes n => exact absurd rfl (hkeeps n)
  | signal => exact ⟨rfl, rfl⟩
  | read n =>
      rcases s.read_cases n with ⟨-, -, hnone, hsame⟩ | ⟨-, m, -, houtcome, hsource⟩
      · rw [perform, calls, hnone, hsame]
        exact ⟨rfl, rfl⟩
      · rw [perform, calls, houtcome, hsource, bytesRead_singleton]
        exact ⟨rfl, s.delivered_pass m⟩

/-- With the flag down it does not go past a frame boundary. -/
theorem boundary_perform {op : Control} (hkeeps : ∀ n, op ≠ setFrameBytes n)
    (hdown : ∀ n, op = read n → s.inner.running = false) (hsize : 0 < s.frameBytes)
    {frames : Nat} (h : s.delivered ≤ frames * s.frameBytes) :
    (op.perform s).delivered ≤ frames * s.frameBytes := by
  cases op with
  | setFrameBytes n => exact absurd rfl (hkeeps n)
  | signal => exact h
  | read n =>
      rcases s.read_cases n with ⟨-, -, -, hsame⟩ | ⟨-, m, hm, -, hsource⟩
      · rw [perform, hsame]
        exact h
      · -- No more is asked for than is missing, and no more is got than is asked for.
        have hmissing := hm (hdown n rfl)
        have hgot := s.length_pass m
        have hbound := Stoppable.delivered_add_missing hsize h
        rw [perform, hsource, Stoppable.delivered_pass]
        omega

end Control

/-! ### Runs of operations -/

namespace Stoppable

variable {s : Stoppable (Switchable (Observed ρ))} {op : Control} {ops : List Control}

/-- A run gets the bytes that the source inside delivers in it, in order. -/
theorem bytes_run (s : Stoppable (Switchable (Observed ρ))) (ops : List Control) :
    bytesRead (s.run ops).passed = bytesRead s.passed ++ bytesRead (s.calls ops) := by
  induction ops generalizing s with
  | nil => exact (List.append_nil _).symm
  | cons op ops ih =>
      have hrest := ih (op.perform s)
      rw [op.bytes_perform s, List.append_assoc, ← bytesRead_append] at hrest
      exact hrest

/-- While no frames are set, `delivered` counts what a run gets. -/
theorem count_run (hkeeps : Control.KeepFrames ops) (s : Stoppable (Switchable (Observed ρ))) :
    (s.run ops).frameBytes = s.frameBytes ∧
      (s.run ops).delivered = s.delivered + (bytesRead (s.calls ops)).length := by
  induction ops generalizing s with
  | nil => exact ⟨rfl, rfl⟩
  | cons op ops ih =>
      obtain ⟨hframes, hcount⟩ := Control.count_perform hkeeps.head s
      obtain ⟨hrest, hmore⟩ := ih hkeeps.tail (op.perform s)
      refine ⟨hrest.trans hframes, hmore.trans ?_⟩
      rw [hcount, calls, bytesRead_append, List.length_append, Nat.add_assoc]

/-- While the flag is down, a run does not go past a frame boundary. -/
theorem boundary_run (hkeeps : Control.KeepFrames ops) (hdown : s.ReadsStopped ops)
    (hsize : 0 < s.frameBytes) {frames : Nat} (h : s.delivered ≤ frames * s.frameBytes) :
    (s.run ops).delivered ≤ frames * s.frameBytes := by
  induction ops generalizing s with
  | nil => exact h
  | cons op ops ih =>
      obtain ⟨hframes, -⟩ := Control.count_perform hkeeps.head s
      have hhere := Control.boundary_perform hkeeps.head hdown.1 hsize h
      rw [← hframes] at hhere hsize ⊢
      exact ih hkeeps.tail hdown.2 hsize hhere

/-- Behind the last operation that sets frames, they are what it says and
nothing of them is delivered. -/
theorem run_of_sets {size : Nat} (h : Control.Sets ops size) (r : Switchable (Observed ρ)) :
    ((ofSource r).run ops).frameBytes = size ∧ ((ofSource r).run ops).delivered = 0 ∧
      0 < size := by
  cases h with
  | start => exact ⟨rfl, rfl, Nat.one_pos⟩
  | set ops n =>
      rw [run_append]
      exact ⟨rfl, rfl, Nat.lt_of_lt_of_le Nat.one_pos (Nat.le_max_right n 1)⟩

/-- With the flag down, a read finds the end without asking the source
inside just when it stands between two frames. -/
theorem read_between_iff (hdown : s.inner.running = false) (hsize : 0 < s.frameBytes) (n : Nat) :
    ((Source.read s n).outcome = .ok [] ∧ (Source.read s n).source.passed = s.passed) ↔
      s.delivered % s.frameBytes = 0 := by
  rw [← missing_eq_zero hsize]
  rcases s.read_cases n with ⟨-, hbetween, hnone, hsame⟩ | ⟨hinside, m, -, -, hsource⟩
  · exact ⟨fun _ => hbetween, fun _ => ⟨hnone, congrArg passed hsame⟩⟩
  · constructor
    · rintro ⟨-, hpassed⟩
      rw [hsource, passed_pass] at hpassed
      exact absurd (List.append_right_eq_self.mp hpassed) (List.cons_ne_nil _ _)
    · exact fun hbetween => absurd hbetween (hinside hdown)

/-- What does not reach past the next frame boundary, from anywhere, is
less than a frame. -/
theorem lt_of_boundary {delivered more size : Nat} (hpos : 0 < size)
    (h : ∀ frames, delivered ≤ frames * size → delivered + more ≤ frames * size) :
    more < size := by
  have hsplit := Nat.div_add_mod' delivered size
  have hlt := Nat.mod_lt delivered hpos
  rcases Nat.eq_zero_or_pos (delivered % size) with hbetween | hinside
  · -- Between two frames nothing more is got at all.
    have hnone := h (delivered / size) (by omega)
    omega
  · have hrest := h (delivered / size + 1) (by rw [Nat.succ_mul]; omega)
    rw [Nat.succ_mul] at hrest
    omega

/-- However it is read, told to stop and given frames, and whatever the
source inside does, a stoppable source hands on the bytes of the source
inside, in order. It makes up an end only between frames, and always there
while the flag is down. And while the flag is down for every read, the
bytes that are still got are fewer than a frame and reach no further than
the next frame boundary.

A source ends some time, but no bound is set on when: what an endless one
does in a run is what a source does that ends behind the run. -/
theorem frame_aligned (r : ρ) (running : Bool) :
    let s : Stoppable (Switchable (Observed ρ)) := ofSource ⟨⟨r, []⟩, running⟩
    (∀ ops, bytesRead (s.calls ops) = bytesRead (s.run ops).passed) ∧
    ∀ before after size, Control.Sets before size → Control.KeepFrames after →
      let start := s.run before
      let now := start.run after
      let delivered := (bytesRead (start.calls after)).length
      (now.inner.running = false → ∀ n,
        ((Source.read now n).outcome = .ok [] ∧ (Source.read now n).source.passed = now.passed ↔
          delivered % size = 0)) ∧
      ∀ stretch, Control.KeepFrames stretch → now.ReadsStopped stretch →
        let more := (bytesRead (now.calls stretch)).length
        more < size ∧
        ∀ frames, delivered ≤ frames * size → delivered + more ≤ frames * size := by
  intro s
  refine ⟨fun ops => (s.bytes_run ops).symm, ?_⟩
  intro before after size hsets hkeeps start now delivered
  obtain ⟨hsize, hzero, hpos⟩ := run_of_sets hsets (⟨⟨r, []⟩, running⟩ : Switchable (Observed ρ))
  obtain ⟨hframes, hcount⟩ := count_run hkeeps start
  have hframes : now.frameBytes = size := hframes.trans hsize
  have hcount : now.delivered = delivered := by
    rw [hcount, show start.delivered = 0 from hzero, Nat.zero_add]
  subst hframes
  refine ⟨fun hdown n => ?_, fun stretch hstretch hdown => ?_⟩
  · rw [← hcount]
    exact read_between_iff hdown hpos n
  · intro more
    have hboundary : ∀ frames, delivered ≤ frames * now.frameBytes →
        delivered + more ≤ frames * now.frameBytes := by
      intro frames hbefore
      rw [← hcount] at hbefore ⊢
      have hafter := boundary_run hstretch hdown hpos hbefore
      rw [(count_run hstretch now).2] at hafter
      exact hafter
    exact ⟨lt_of_boundary hpos hboundary, hboundary⟩

open Rehearsal in
/-- Frames of eight bytes are set behind three bytes, and the source is
told to stop behind five more. A failed read and a short one later, the
frame is complete and the end is made up. -/
theorem frame_aligned_scripted :
    let r : ScriptedSource := ⟨List.replicate 40 7,
      [.deliver 3 none, .deliver 5 none, .fail, .deliver 2 none], true, 0⟩
    let s := ofSource (⟨⟨r, []⟩, true⟩ : Switchable (Observed ScriptedSource))
    let before : List Control := [.read 8, .setFrameBytes 8]
    let after : List Control := [.read 16, .signal false]
    let stretch : List Control := [.read 16, .read 16, .read 16, .read 16]
    let now := (s.run before).run after
    Control.Sets before 8 ∧ Control.KeepFrames after ∧ now.inner.running = false ∧
      Control.KeepFrames stretch ∧ now.ReadsStopped stretch ∧
      (bytesRead (now.calls stretch)).length = 3 ∧
      (∀ frames, 5 ≤ frames * 8 → 5 + 3 ≤ frames * 8) ∧
      ¬ ((Source.read now 16).outcome = .ok [] ∧
        (Source.read now 16).source.passed = now.passed) := by
  intro r s before after stretch now
  have hsets : Control.Sets before 8 := .set [.read 8] 8
  have hafter : Control.KeepFrames after := by
    intro n
    simp [after]
  have hstretch : Control.KeepFrames stretch := by
    intro n
    simp [stretch]
  have hdown : now.ReadsStopped stretch := by
    refine ⟨fun _ _ => ?_, fun _ _ => ?_, fun _ _ => ?_, fun _ _ => ?_, trivial⟩
    all_goals decide +kernel
  obtain ⟨-, halong⟩ := frame_aligned r true
  obtain ⟨hend, hbounds⟩ := halong before after 8 hsets hafter
  obtain ⟨-, hboundary⟩ := hbounds stretch hstretch hdown
  have hgot : (bytesRead ((s.run before).calls after)).length = 5 := by decide +kernel
  have hmore : (bytesRead (now.calls stretch)).length = 3 := by decide +kernel
  refine ⟨hsets, hafter, rfl, hstretch, hdown, hmore, ?_, ?_⟩
  · intro frames hbefore
    rw [← hgot] at hbefore
    have hbehind := hboundary frames hbefore
    rwa [hgot, hmore] at hbehind
  · rw [hend rfl 16, hgot]
    decide

end Stoppable

end Packetizer
