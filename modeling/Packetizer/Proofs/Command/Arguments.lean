import Mathlib.Data.List.Nodup
import Packetizer.Command.Arguments
import Packetizer.Proofs.Text.Numeral

/-!
# `Packetizer.Proofs.Command.Arguments`: options are read as they are spelled

A setting is spelled as its option and, for an option with a value, the value
behind it (`Setting.spelled`). `sort_spelled` says that settings spelled in front
of names are sorted into just these settings and names, whatever the values are.
The induction is on the settings, and a step reads one option.

What the settings amount to depends on which of them there are, and not on their
order, as long as no option is there twice (`Given.Once`, `Once.job_perm`). So
`Request.parse_spelled` needs them in one order only, in which `job_of_numbers`
looks the numbers up.
-/

set_option autoImplicit false

namespace Packetizer.Command

/-! ### Spelling -/

/-- An option as it is written. -/
def Flag.spelled : Flag → String
  | codec => "-c"
  | frames => "-f"
  | level => "-d"
  | rate => "-r"
  | channels => "-n"
  | raw => "--raw"
  | keepOrder => "--no-remap"
  | help => "--help"

/-- A setting as arguments. An option without a value has none behind it. -/
def Setting.spelled (s : Setting) : List String :=
  if s.flag.takesValue then [s.flag.spelled, s.value] else [s.flag.spelled]

/-- A name does not begin with a dash, or is only one. -/
def IsName (name : String) : Prop := name = "-" ∨ name.toList.head? ≠ some '-'

/-! ### Sorting -/

/-- An option with a value takes the next argument, whatever it looks like. -/
theorem sort_of_takesValue {flag : Flag} (h : flag.takesValue = true) (value : String)
    (rest : List String) :
    sort (flag.spelled :: value :: rest)
      = (sort rest).map fun g => { g with settings := ⟨flag, value⟩ :: g.settings } := by
  cases flag with
  | raw => cases h
  | keepOrder => cases h
  | help => cases h
  | codec => rfl
  | frames => rfl
  | level => rfl
  | rate => rfl
  | channels => rfl

/-- An option without a value stands alone. -/
theorem sort_of_not_takesValue {flag : Flag} (h : flag.takesValue = false)
    (rest : List String) :
    sort (flag.spelled :: rest)
      = (sort rest).map fun g => { g with settings := ⟨flag, ""⟩ :: g.settings } := by
  cases flag with
  | raw => rfl
  | keepOrder => rfl
  | help => rfl
  | codec => cases h
  | frames => cases h
  | level => cases h
  | rate => cases h
  | channels => cases h

/-- A name is sorted among the names. -/
theorem sort_of_isName {name : String} (h : IsName name) (rest : List String) :
    sort (name :: rest) = (sort rest).map fun g => { g with names := name :: g.names } := by
  rcases h with rfl | h
  · rfl
  have hdashes : name ≠ "--" := by
    rintro rfl
    exact h rfl
  have hword : ¬ isWord name.toList = true := by
    intro hword
    unfold isWord at hword
    split at hword
    next heq => exact h (by rw [heq]; rfl)
    · cases hword
  have hletters : lettersOf? name.toList = none := by
    unfold lettersOf?
    split
    next heq => exact absurd (by rw [heq]; rfl) h
    · rfl
  rw [sort, if_neg hdashes, if_neg hword, hletters]

/-- Settings that are spelled in front of names are sorted into these. -/
theorem sort_spelled {settings : List Setting} {names : List String}
    (hvalues : ∀ s ∈ settings, s.flag.takesValue = false → s.value = "")
    (hnames : ∀ name ∈ names, IsName name) :
    sort (settings.flatMap Setting.spelled ++ names) = some ⟨settings, names⟩ := by
  induction settings with
  | nil =>
      rw [List.flatMap_nil, List.nil_append]
      induction names with
      | nil => rfl
      | cons name names ih =>
          rw [sort_of_isName (hnames name List.mem_cons_self),
            ih fun n hn => hnames n (List.mem_cons_of_mem _ hn)]
          rfl
  | cons s settings ih =>
      have hsorted := ih fun t ht => hvalues t (List.mem_cons_of_mem _ ht)
      obtain ⟨flag, value⟩ := s
      rw [List.flatMap_cons, List.append_assoc, Setting.spelled]
      cases hflag : flag.takesValue with
      | true =>
          show sort (flag.spelled :: value :: (settings.flatMap Setting.spelled ++ names)) = _
          rw [sort_of_takesValue hflag, hsorted]
          rfl
      | false =>
          obtain rfl : value = "" := hvalues ⟨flag, value⟩ List.mem_cons_self hflag
          show sort (flag.spelled :: (settings.flatMap Setting.spelled ++ names)) = _
          rw [sort_of_not_takesValue hflag, hsorted]
          rfl

/-! ### Looking up -/

namespace Given

variable {g : Given}

/-- The options are given once each. -/
def Once (g : Given) : Prop := (g.settings.map Setting.flag).Nodup

theorem Once.isRepeated (h : g.Once) : g.isRepeated = false := by
  rw [Given.isRepeated, List.any_eq_false]
  intro s _
  have hcount := List.nodup_iff_count_le_one.mp h s.flag
  rw [List.count, List.countP_map, List.countP_eq_length_filter] at hcount
  rw [decide_eq_true_eq, Nat.not_lt]
  exact hcount

/-- A setting that was given once is found by its option. -/
theorem Once.find? (h : g.Once) {s : Setting} (hs : s ∈ g.settings) :
    g.settings.find? (fun t => t.flag = s.flag) = some s := by
  obtain ⟨settings, names⟩ := g
  -- A setting in front of this one has another option and is passed over.
  induction settings with
  | nil => cases hs
  | cons t settings ih =>
      obtain ⟨hother, hrest⟩ := List.nodup_cons.mp (h : ((t :: settings).map Setting.flag).Nodup)
      rcases List.mem_cons.mp hs with rfl | hmem
      · exact List.find?_cons_of_pos (decide_eq_true rfl)
      · have hne : t.flag ≠ s.flag := by
          intro heq
          exact hother (heq ▸ List.mem_map_of_mem hmem)
        simpa [List.find?_cons, hne] using ih hrest hmem

theorem find?_of_not_mem {flag : Flag} (h : flag ∉ g.settings.map Setting.flag) :
    g.settings.find? (fun t => t.flag = flag) = none := by
  rw [List.find?_eq_none]
  intro s hs heq
  exact h (of_decide_eq_true heq ▸ List.mem_map_of_mem hs)

/-- The order of the options does not matter. -/
theorem Once.find?_perm (h : g.Once) {g' : Given} (hperm : g.settings.Perm g'.settings)
    (flag : Flag) :
    g.settings.find? (fun s => s.flag = flag) = g'.settings.find? (fun s => s.flag = flag) := by
  have h' : g'.Once := (hperm.map Setting.flag).nodup_iff.mp h
  by_cases hflag : flag ∈ g.settings.map Setting.flag
  · obtain ⟨s, hs, rfl⟩ := List.mem_map.mp hflag
    rw [h.find? hs, h'.find? (hperm.mem_iff.mp hs)]
  · have hflag' : flag ∉ g'.settings.map Setting.flag :=
      fun hmem => hflag ((hperm.map Setting.flag).mem_iff.mpr hmem)
    rw [find?_of_not_mem hflag, find?_of_not_mem hflag']

theorem Once.job_perm (h : g.Once) {g' : Given} (hperm : g.settings.Perm g'.settings)
    (input output : String) : g.job input output = g'.job input output := by
  have hhas : ∀ flag, g.has flag = g'.has flag := fun _ => hperm.any_eq
  simp only [Given.job, Given.number, Given.value, h.find?_perm hperm, hhas]

/-- A number that was given is the one that is used. -/
theorem Once.number (h : g.Once) {flag : Flag} {n : Nat}
    (hs : ⟨flag, toString n⟩ ∈ g.settings) (default : Nat) {limit : Nat} (hn : n < limit) :
    g.number flag default limit = some n := by
  -- A blank value would count as zero, but there is a digit in this one.
  have hsolid : ¬ (toString n).toList.all Text.isBlank = true := by
    rw [Nat.toString_eq_ofList_toDigits, String.toList_ofList]
    obtain ⟨c, rest, hdigits⟩ := List.exists_cons_of_ne_nil (Numeral.spells_toDigits n).nonempty
    rw [hdigits, List.all_cons, Bool.and_eq_true]
    rintro ⟨hblank, -⟩
    refine Numeral.not_isBlank_of_isDigit ?_ hblank
    exact (Numeral.spells_toDigits n).digits c (hdigits ▸ List.mem_cons_self)
  rw [Given.number, h.find? hs]
  dsimp only
  rw [if_neg hsolid, Numeral.read_toString hn]
  rfl

/-- The numbers of a job are looked up one by one. -/
theorem job_of_numbers {frames level rate channels : Nat}
    (hframes : g.number .frames 0 UInt64.size = some frames)
    (hlevel : g.number .level 2 UInt64.size = some level)
    (hrate : g.number .rate 48000 UInt32.size = some rate)
    (hchannels : g.number .channels 2 UInt8.size = some channels) (input output : String) :
    g.job input output = some
      { codec := g.value .codec "alac"
        frames, level, rate, channels
        raw := g.has .raw
        keepOrder := g.has .keepOrder
        input, output } := by
  rw [job, hframes, hlevel, hrate, hchannels]
  rfl

end Given

/-! ### Requests -/

/-- Settings without help, in any order in front of two names, are a request to
encode. -/
theorem Request.parse_spelled {settings : List Setting} {g : Given} {input output : String}
    (hperm : settings.Perm g.settings)
    (hvalues : ∀ s ∈ g.settings, s.flag.takesValue = false → s.value = "")
    (honce : g.Once) (hhelp : g.has .help = false)
    (hinput : IsName input) (houtput : IsName output) :
    Request.parse (settings.flatMap Setting.spelled ++ [input, output])
      = (g.job input output).map .encode := by
  have hnames : ∀ name ∈ [input, output], IsName name := by simp [hinput, houtput]
  have hsorted := sort_spelled (fun s hs => hvalues s (hperm.mem_iff.mp hs)) hnames
  -- What was sorted has the same settings as `g`, in the order of the line.
  have honce' : Given.Once ⟨settings, [input, output]⟩ :=
    (hperm.map Setting.flag).nodup_iff.mpr honce
  have hasked : Given.has ⟨settings, [input, output]⟩ .help = false := hperm.any_eq.trans hhelp
  rw [Request.parse, hsorted, ← honce'.job_perm hperm]
  simp [honce'.isRepeated, hasked]

end Packetizer.Command
