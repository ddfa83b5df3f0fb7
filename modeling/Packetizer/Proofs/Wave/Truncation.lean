import Mathlib.Control.Monad.Basic
import Packetizer.Proofs.Rehearsal.Devices
import Packetizer.Proofs.Wave.Header

/-!
# `Packetizer.Proofs.Wave.Truncation`: files that are cut off or go on

A header is decided by the bytes that are taken to read it. With anything
behind them it is the same header, and a file that ends before the last of
them ends too early: no other fault is found in it.

`Part.Consumes` says this of a part of a header, and `Part.IsLocal` says that
a part is never read in another way. The law goes along with reading parts
in a row (`Consumes.andThen`), since a file that is cut off is cut off either
in the first part, or behind it and in the second. So it holds of every field,
of every chunk, and by induction on the chunks of the whole header
(`header_decided_by_front`).
-/

set_option autoImplicit false

namespace Packetizer

/-! ### Sources that end too early -/

namespace Source.Delivers

variable {ρ : Type} [Source ρ] {r : ρ} {bytes : List UInt8} {n : Nat}

/-- A field that is longer than what is left ends too early. -/
theorem exactly_short (h : Delivers r bytes) (hshort : bytes.length < n) :
    (Source.exactly r n).outcome = .error .endInsideField := by
  have hfill := (h.fill n).1
  rw [List.take_of_length_le (Nat.le_of_lt hshort)] at hfill
  rw [Source.exactly, Reading.andThen, hfill]
  exact if_pos hshort

theorem word_short (h : Delivers r bytes) (hshort : bytes.length < n) :
    (Source.word r n).outcome = .error .endInsideField := by
  rw [Source.word, Reading.outcome_map, h.exactly_short hshort]
  rfl

/-- More than what is left cannot be skipped. -/
theorem skip_short (h : Delivers r bytes) (hshort : bytes.length < n) :
    (Source.skip r n).outcome = .error .truncatedChunk := by
  rw [(h.skip_eq n).1, if_neg (Nat.not_le_of_lt hshort)]

end Source.Delivers

namespace Wave

open Source (Delivers)

variable {α β : Type}

/-- The reading failed because its source was at its end. -/
def EndsShort {ρ : Type} (x : Reading Error ρ α) : Prop :=
  ∃ failure, x.outcome = .error (.stream failure) ∧ failure.kind = .unexpectedEnd

/-- The failure of a source that was at its end, in other words. -/
theorem EndsShort.of_stream {ρ : Type} {x : Reading StreamError ρ α} {failure : StreamError}
    (h : x.outcome = .error failure) (hkind : failure.kind = .unexpectedEnd) :
    EndsShort (x.mapError .stream) := by
  refine ⟨failure, ?_, hkind⟩
  show x.outcome.mapError Error.stream = _
  rw [h]
  rfl

/-! ### Parts of a header -/

/-- A part of a header, which can be read from any source. -/
abbrev Part (α : Type) : Type 1 := (ρ : Type) → [Source ρ] → ρ → Reading Error ρ α

namespace Part

/-- The part is read from these bytes. What comes behind them is left in the
source, and a source that ends before the last of them ends too early. -/
structure Consumes (p : Part α) (front : List UInt8) (a : α) : Prop where
  gives : ∀ {ρ : Type} [Source ρ] {r : ρ} {back : List UInt8},
    Delivers r (front ++ back) → (p ρ r).Gives a back
  short : ∀ {ρ : Type} [Source ρ] {r : ρ} {cut lost : List UInt8},
    front = cut ++ lost → lost ≠ [] → Delivers r cut → EndsShort (p ρ r)

/-- Whenever the part is read, it is from bytes at the front. -/
structure IsLocal (p : Part α) : Prop where
  consumes : ∀ {ρ : Type} [Source ρ] {r : ρ} {bytes : List UInt8} {a : α}, Delivers r bytes →
    (p ρ r).outcome = .ok a → ∃ front back, bytes = front ++ back ∧ p.Consumes front a

/-! ### Parts in a row -/

/-- Two parts in a row are read from the bytes of both. -/
theorem Consumes.andThen {p : Part α} {q : α → Part β} {front more : List UInt8} {a : α} {b : β}
    (hp : p.Consumes front a) (hq : (q a).Consumes more b) :
    Consumes (fun ρ _ r => (p ρ r).andThen fun a r => q a ρ r) (front ++ more) b where
  gives hr := by
    rw [List.append_assoc] at hr
    exact (hp.gives hr).andThen fun r hr => hq.gives hr
  short {ρ _ r cut lost} hsplit hlost hr := by
    -- When the first part is there, the second one ends too early.
    have hbehind : ∀ cut', Delivers r (front ++ cut') → more = cut' ++ lost →
        EndsShort ((p ρ r).andThen fun a r => q a ρ r) := by
      intro cut' hr hmore
      obtain ⟨hok, hrest⟩ := hp.gives hr
      obtain ⟨failure, herr, hkind⟩ := hq.short hmore hlost hrest
      refine ⟨failure, ?_, hkind⟩
      rw [Reading.andThen, hok]
      exact herr
    rcases List.append_eq_append_iff.mp hsplit with ⟨cut', rfl, hmore⟩ | ⟨lost', hfront, hlost'⟩
    · exact hbehind cut' hr hmore
    cases lost' with
    | nil =>
        rw [List.append_nil] at hfront
        exact hbehind [] (by rwa [List.append_nil, hfront]) hlost'.symm
    | cons b lost' =>
        obtain ⟨failure, herr, hkind⟩ := hp.short hfront (List.cons_ne_nil b lost') hr
        refine ⟨failure, ?_, hkind⟩
        rw [Reading.andThen, herr]

theorem IsLocal.andThen {p : Part α} {q : α → Part β} (hp : p.IsLocal)
    (hq : ∀ a, (q a).IsLocal) : IsLocal fun ρ _ r => (p ρ r).andThen fun a r => q a ρ r := by
  refine ⟨fun hr hok => ?_⟩
  obtain ⟨a, hfirst, hsecond⟩ := Reading.ok_of_andThen hok
  obtain ⟨front, back, rfl, hfront⟩ := hp.consumes hr hfirst
  obtain ⟨more, back, rfl, hmore⟩ := (hq a).consumes (hfront.gives hr).source hsecond
  exact ⟨front ++ more, back, (List.append_assoc front more back).symm, hfront.andThen hmore⟩

theorem IsLocal.map {p : Part α} (hp : p.IsLocal) (f : α → β) :
    IsLocal fun ρ _ r => (p ρ r).map f := by
  refine ⟨fun hr hok => ?_⟩
  obtain ⟨a, ha, rfl⟩ := Reading.ok_of_map hok
  obtain ⟨front, back, hbytes, hfront⟩ := hp.consumes hr ha
  refine ⟨front, back, hbytes, fun hr => (hfront.gives hr).map f, fun hsplit hlost hr => ?_⟩
  obtain ⟨failure, herr, hkind⟩ := hfront.short hsplit hlost hr
  refine ⟨failure, ?_, hkind⟩
  rw [Reading.outcome_map, herr]
  rfl

theorem IsLocal.ite {c : Prop} [Decidable c] {p q : Part α} (hp : p.IsLocal) (hq : q.IsLocal) :
    IsLocal fun ρ _ r => if c then p ρ r else q ρ r := by
  by_cases hc : c
  · simp only [if_pos hc]
    exact hp
  · simp only [if_neg hc]
    exact hq

/-! ### The parts of a header -/

/-- A part that only answers takes no bytes, and may write to the log. -/
theorem consumes_nothing (a : α) (log : List Message) :
    Consumes (fun _ _ r => ⟨.ok a, log, r⟩) [] a where
  gives hr := ⟨rfl, hr⟩
  short hsplit hlost _ := absurd (List.append_eq_nil_iff.mp hsplit.symm).2 hlost

theorem isLocal_answer (a : α) : IsLocal fun _ _ r => answer r a := by
  refine ⟨fun {ρ _ r bytes b} hr hok => ?_⟩
  cases hok
  exact ⟨[], bytes, rfl, consumes_nothing a []⟩

theorem isLocal_refuse (e : Error) : IsLocal fun _ _ r => (refuse r e : Reading Error _ α) :=
  ⟨nofun⟩

/-- A part that takes a fixed number of bytes, whatever they are. -/
theorem isLocal_of_width {p : Part α} (n : Nat) (value : List UInt8 → α)
    (hgives : ∀ {ρ : Type} [Source ρ] {r : ρ} {front back : List UInt8}, front.length = n →
      Delivers r (front ++ back) → (p ρ r).Gives (value front) back)
    (hshort : ∀ {ρ : Type} [Source ρ] {r : ρ} {cut : List UInt8}, cut.length < n →
      Delivers r cut → EndsShort (p ρ r)) : p.IsLocal := by
  refine ⟨fun {ρ _ r bytes a} hr hok => ?_⟩
  have hlen : n ≤ bytes.length := by
    refine Nat.le_of_not_lt fun hless => ?_
    obtain ⟨failure, herr, -⟩ := hshort hless hr
    rw [hok] at herr
    cases herr
  have hfront : (bytes.take n).length = n := List.length_take_of_le hlen
  rw [← List.take_append_drop n bytes] at hr
  have hvalue := (hgives hfront hr).outcome
  rw [hok] at hvalue
  cases hvalue
  refine ⟨_, _, (List.take_append_drop n bytes).symm, hgives hfront, ?_⟩
  intro ρ _ r cut lost hsplit hlost hr
  refine hshort ?_ hr
  rw [← hfront, hsplit, List.length_append]
  exact Nat.lt_add_of_pos_right (List.length_pos_iff.mpr hlost)

theorem isLocal_nameField : IsLocal fun _ _ r => nameField r := by
  refine isLocal_of_width 4 id (fun hlen hr => ?_) fun hless hr => ?_
  · have hexactly := hr.exactly.mapError Error.stream
    rw [hlen] at hexactly
    exact hexactly
  · exact .of_stream (hr.exactly_short hless) rfl

theorem isLocal_field (width : Nat) : IsLocal fun _ _ r => field r width := by
  refine isLocal_of_width width littleEndian (fun hlen hr => ?_) fun hless hr => ?_
  · have hword := hr.word.mapError Error.stream
    rw [hlen] at hword
    exact hword
  · exact .of_stream (hr.word_short hless) rfl

theorem isLocal_dropBytes (n : Nat) : IsLocal fun _ _ r => dropBytes r n := by
  refine isLocal_of_width n (fun _ => ()) (fun hlen hr => ?_) fun hless hr => ?_
  · obtain ⟨hok, hrest⟩ := hr.skip
    rw [hlen] at hok hrest
    exact Reading.Gives.mapError ⟨hok, hrest⟩ Error.stream
  · exact .of_stream (hr.skip_short hless) rfl

theorem isLocal_readExtension (tag channels rest : Nat) :
    IsLocal fun _ _ r => readExtension r tag channels rest := by
  refine IsLocal.ite ?_ (isLocal_answer _)
  refine IsLocal.andThen (isLocal_field 4) fun _ => ?_
  refine IsLocal.andThen (isLocal_field 4) fun mask => ?_
  exact IsLocal.andThen (isLocal_field 2) fun tag => isLocal_answer _

theorem isLocal_readFormat (size : Nat) : IsLocal fun _ _ r => readFormat r size := by
  refine IsLocal.ite (isLocal_refuse _) ?_
  refine IsLocal.andThen (isLocal_field 2) fun tag => ?_
  refine IsLocal.andThen (isLocal_field 2) fun channels => ?_
  refine IsLocal.andThen (isLocal_field 4) fun rate => ?_
  refine IsLocal.andThen (isLocal_field 4) fun _ => ?_
  refine IsLocal.andThen (isLocal_field 2) fun blockAlign => ?_
  refine IsLocal.andThen (isLocal_field 2) fun bits => ?_
  refine IsLocal.ite (isLocal_refuse _) ?_
  refine IsLocal.ite (isLocal_refuse _) ?_
  refine IsLocal.ite (isLocal_refuse _) ?_
  refine IsLocal.andThen (isLocal_readExtension tag channels _) fun ⟨tag, speakers, rest⟩ => ?_
  refine IsLocal.andThen (isLocal_dropBytes _) fun _ => ?_
  cases Encoding.ofTag? tag (blockAlign / channels) with
  | none => exact isLocal_refuse _
  | some encoding => exact isLocal_answer _

theorem isLocal_readBody (known : Option Format) (name : List UInt8) (size : Nat) :
    IsLocal fun _ _ r => readBody r known name size :=
  .ite ((isLocal_readFormat size).map some) ((isLocal_dropBytes _).map fun _ => known)

theorem isLocal_readChunkHead : IsLocal fun _ _ r => readChunkHead r := by
  refine IsLocal.andThen isLocal_nameField fun name => ?_
  exact IsLocal.andThen (isLocal_field 4) fun size => isLocal_answer (name, size)

/-! ### Chunk after chunk -/

/-- What is read behind the head of a chunk. -/
def behindHead (known : Option Format) (head : List UInt8 × Nat) : Part Header :=
  fun _ _ r =>
    if head.1 = chunkName "data" then
      match known with
      | none => refuse r .missingFormat
      | some format =>
          ⟨.ok (headerOf format head.2), [(headerOf format head.2).message], r⟩
    else (readBody r known head.1 head.2).andThen fun format r => readChunks r format

/-- Chunks are read as a head and what is behind it. -/
theorem readChunks_eq {ρ : Type} [Source ρ] (r : ρ) (known : Option Format) :
    readChunks r known = (readChunkHead r).andThen fun head r => behindHead known head ρ r := by
  rw [readChunks]
  split
  next error log rest hhead => rw [Reading.andThen, hhead]
  next name size log body hhead =>
    rw [Reading.andThen, hhead]
    unfold behindHead
    dsimp only
    split
    next hname =>
      cases known with
      | none => simp only [refuse, Reading.after, List.append_nil]
      | some format => simp only [Reading.after]
    next hname =>
      split
      next error more rest hbody =>
        rw [Reading.andThen, hbody]
        rfl
      next format more rest hbody =>
        rw [Reading.andThen, hbody]
        simp only [Reading.after, List.append_assoc]

/-- The head of a chunk and what is behind it make the chunks. -/
theorem Consumes.chunks {known : Option Format} {head : List UInt8 × Nat}
    {front more : List UInt8} {header : Header}
    (hhead : Consumes (fun _ _ r => readChunkHead r) front head)
    (hbehind : (behindHead known head).Consumes more header) :
    Consumes (fun _ _ r => readChunks r known) (front ++ more) header := by
  simp only [readChunks_eq]
  exact hhead.andThen hbehind

theorem isLocal_readChunks (known : Option Format) : IsLocal fun _ _ r => readChunks r known := by
  refine ⟨fun {ρ _ r bytes header} hr hok => ?_⟩
  -- The chunks are those of the source at hand, and what `ih` gives holds of every source.
  fun_induction readChunks r known generalizing bytes with
  | case1 => cases hok
  | case2 => cases hok
  | case3 r size log body format made =>
      rename_i hread
      have hfirst : (readChunkHead r).outcome = .ok (chunkName "data", size) := by rw [hread]
      obtain ⟨front, back, hbytes, hhead⟩ := isLocal_readChunkHead.consumes hr hfirst
      have hdata : (behindHead (some format) (chunkName "data", size)).Consumes [] made :=
        consumes_nothing made [made.message]
      have hmade : made = header := Except.ok.inj hok
      rw [← hmade]
      refine ⟨front, back, hbytes, ?_⟩
      rw [← List.append_nil front]
      exact hhead.chunks hdata
  | case4 => cases hok
  | case5 r known name size log body hread hname format more rest hbody ih =>
      have hfirst : (readChunkHead r).outcome = .ok (name, size) := by rw [hread]
      obtain ⟨front, back, rfl, hhead⟩ := isLocal_readChunkHead.consumes hr hfirst
      have hsecond : (readBody body known name size).outcome = .ok format := by rw [hbody]
      have hrest := (hhead.gives hr).source
      rw [hread] at hrest
      obtain ⟨middle, back, rfl, hmiddle⟩ :=
        (isLocal_readBody known name size).consumes hrest hsecond
      have hleft := (hmiddle.gives hrest).source
      rw [hbody] at hleft
      obtain ⟨last, back, rfl, hlast⟩ := ih hleft hok
      have hother : (behindHead known (name, size)).Consumes (middle ++ last) header := by
        unfold behindHead
        simp only [if_neg hname]
        exact hmiddle.andThen hlast
      refine ⟨front ++ (middle ++ last), back, ?_, hhead.chunks hother⟩
      rw [List.append_assoc, List.append_assoc]

theorem isLocal_readHeader : IsLocal fun _ _ r => readHeader r := by
  refine IsLocal.andThen isLocal_nameField fun riff => ?_
  refine IsLocal.ite (isLocal_refuse _) ?_
  refine IsLocal.andThen (isLocal_field 4) fun _ => ?_
  refine IsLocal.andThen isLocal_nameField fun wave => ?_
  exact IsLocal.ite (isLocal_refuse _) (isLocal_readChunks none)

end Part

/-- A header that is read ends at a place of its own. On every source whose
bytes are the same up to there it is the same header and ends there, too.
A source that ends before that place ends too early, and nothing else is
found wrong with it. -/
theorem header_decided_by_front {ρ : Type} [Source ρ] {r : ρ} {bytes : List UInt8}
    (hr : Delivers r bytes) {header : Header} (h : (readHeader r).outcome = .ok header) :
    ∃ p, p ≤ bytes.length ∧ Delivers (readHeader r).source (bytes.drop p) ∧
      (∀ {ρ' : Type} [Source ρ'] {r' : ρ'} {bytes' : List UInt8}, Delivers r' bytes' →
        bytes'.take p = bytes.take p → (readHeader r').outcome = .ok header ∧
          Delivers (readHeader r').source (bytes'.drop p)) ∧
      ∀ {ρ' : Type} [Source ρ'] {r' : ρ'} {n : Nat}, n < p → Delivers r' (bytes.take n) →
        ∃ failure, (readHeader r').outcome = .error (.stream failure) ∧
          failure.kind = .unexpectedEnd := by
  obtain ⟨front, back, rfl, hfront⟩ := Part.isLocal_readHeader.consumes hr h
  refine ⟨front.length, ?_, ?_, ?_, ?_⟩
  · rw [List.length_append]
    exact Nat.le_add_right _ _
  · rw [List.drop_left]
    exact (hfront.gives hr).source
  · intro ρ' _ r' bytes' hr' hsame
    rw [List.take_left] at hsame
    rw [← List.take_append_drop front.length bytes', hsame] at hr'
    obtain ⟨hok, hrest⟩ := hfront.gives hr'
    exact ⟨hok, hrest⟩
  · intro ρ' _ r' n hn hr'
    rw [List.take_append_of_le_length (Nat.le_of_lt hn)] at hr'
    refine hfront.short (List.take_append_drop n front).symm ?_ hr'
    rw [← List.length_pos_iff, List.length_drop]
    exact Nat.sub_pos_of_lt hn

open Rehearsal in
/-- A file with a padded chunk in front of its format. Its header ends where
the data begin, whatever they are, and is cut off in the padding of the
first chunk and in a field of the format. -/
theorem header_decided_by_front_scripted :
    let head : List UInt8 := chunkName "RIFF" ++ [48, 0, 0, 0] ++ chunkName "WAVE"
      ++ chunkName "LIST" ++ [3, 0, 0, 0] ++ [7, 7, 7, 0]
      ++ chunkName "fmt " ++ [16, 0, 0, 0]
      ++ [1, 0, 2, 0, 0x40, 0x1F, 0, 0, 0, 0x7D, 0, 0, 4, 0, 16, 0]
      ++ chunkName "data" ++ [9, 0, 0, 0]
    let header : Header := ⟨⟨.s16, 2, 8000, 4, 3⟩, some 9⟩
    let r : ScriptedSource :=
      ⟨head ++ [1, 2, 3], [.deliver 1 none, .interrupt, .deliver 2 none], true, 0⟩
    let other : ScriptedSource := ⟨head ++ [4, 4, 4, 4], [.interrupt], true, 0⟩
    let cut (n : Nat) : ScriptedSource := ⟨(head ++ [1, 2, 3]).take n, [.deliver 3 none], true, 0⟩
    (readHeader r).outcome = .ok header ∧ (readHeader other).outcome = .ok header ∧
      Source.Delivers (readHeader other).source [4, 4, 4, 4] ∧
      ∀ n ∈ [23, 41], ∃ failure, (readHeader (cut n)).outcome = .error (.stream failure) ∧
        failure.kind = .unexpectedEnd := by
  intro head header r other cut
  have hread : (readHeader r).outcome = .ok header := by decide +kernel
  have hbody : Source.Delivers (readHeader r).source [1, 2, 3] := by
    have hleft : (readHeader r).source.left = [1, 2, 3] := by decide +kernel
    rw [← hleft]
    exact ScriptedSource.delivers (by decide +kernel)
  obtain ⟨p, hp, hrest, hsame, hshort⟩ :=
    header_decided_by_front (ScriptedSource.delivers (by decide)) hread
  -- What is left behind the header tells where it ends.
  have hend : p = 56 := by
    have hlen := congrArg List.length (hrest.unique hbody)
    rw [List.length_drop] at hlen
    change p ≤ 59 at hp
    change 59 - p = 3 at hlen
    omega
  subst hend
  have hcue : ReadCue.IsPatient (.deliver 3 none) := by decide
  have hlonger : Source.Delivers other (head ++ [4, 4, 4, 4]) :=
    ScriptedSource.delivers (by decide)
  obtain ⟨hother, hleft⟩ := hsame hlonger rfl
  refine ⟨hread, hother, hleft, fun n hn => hshort ?_ (ScriptedSource.delivers ?_)⟩
  · revert n
    decide
  · exact List.forall_mem_singleton.mpr hcue

end Wave

end Packetizer
