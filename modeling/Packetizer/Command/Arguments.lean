import Packetizer.Text.Blank
import Packetizer.Text.Numeral

/-!
# `Packetizer.Command.Arguments`: the arguments of the command line

Options come in any order among the names of the input and the output,
short ones also joined to each other or to their value, and `--` ends
them. An argument that begins with a dash but has white space in it is a
name, save where `lettersOf?` and `isWord` allow the white space.
`Request.parse` answers what is asked for, and nothing when the arguments
are wrong: an unknown or repeated option, a missing value, a value for an
option without one, a number that does not fit or another number of names
than two.
-/

set_option autoImplicit false

namespace Packetizer.Command

/-- An option of the command line. -/
inductive Flag where
  | codec | frames | level | rate | channels | raw | keepOrder | help
  deriving DecidableEq

namespace Flag

/-- Whether an option has a value. -/
def takesValue : Flag → Bool
  | codec => true
  | frames => true
  | level => true
  | rate => true
  | channels => true
  | raw => false
  | keepOrder => false
  | help => false

/-- The option of one letter. -/
def ofLetter? : Char → Option Flag
  | 'c' => some codec
  | 'f' => some frames
  | 'd' => some level
  | 'r' => some rate
  | 'n' => some channels
  | 'h' => some help
  | _ => none

/-- The option of a word. -/
def ofWord? : String → Option Flag
  | "--raw" => some raw
  | "--no-remap" => some keepOrder
  | "--help" => some help
  | _ => none

end Flag

/-- An option that was given, with its value, empty for one that has
none. -/
structure Setting where
  flag : Flag
  value : String

/-- The arguments by their kind. -/
structure Given where
  settings : List Setting
  names : List String

/-- Whether no character is white space. -/
def isSolid (cs : List Char) : Bool := cs.all fun c => !Text.isBlank c

/-- The letters behind a single dash, when an argument has this form. The
first may be any character but another dash, white space too; none of the
others may be white space. -/
def lettersOf? : List Char → Option (List Char)
  | '-' :: c :: rest => if c ≠ '-' ∧ isSolid rest then some (c :: rest) else none
  | _ => none

/-- Whether a value stands behind an equals sign. It may hold white space,
but no line feed. -/
def isAssigned : List Char → Bool
  | '=' :: value => !value.isEmpty && !value.contains '\n'
  | _ => false

/-- Whether an argument is a word behind two dashes. White space in it must
come after an equals sign that is not the word's first character. -/
def isWord : List Char → Bool
  | '-' :: '-' :: c :: rest =>
      !Text.isBlank c && (isSolid rest || (List.range rest.length).any fun n =>
        isSolid (rest.take n) && isAssigned (rest.drop n))
  | _ => false

/-- The options of joined letters. All that follows a letter with a value
is the value; when nothing does, the next argument is wanted for it. -/
def letters : List Char → Option (List Setting × Option Flag)
  | [] => some ([], none)
  | c :: rest =>
      match Flag.ofLetter? c with
      | none => none
      | some flag =>
          if flag.takesValue then
            if rest.isEmpty then some ([], some flag)
            else some ([⟨flag, String.ofList rest⟩], none)
          else (letters rest).map fun (settings, wanting) => (⟨flag, ""⟩ :: settings, wanting)

/-- Sorts the arguments by their kind. -/
def sort : List String → Option Given
  | [] => some ⟨[], []⟩
  | argument :: rest =>
      -- Two dashes alone end the options, whatever follows.
      if argument = "--" then some ⟨[], rest⟩
      else if isWord argument.toList then
        match Flag.ofWord? argument with
        | none => none
        | some flag => (sort rest).map fun g => { g with settings := ⟨flag, ""⟩ :: g.settings }
      else
        match lettersOf? argument.toList with
        -- Anything else is a name, a single dash too.
        | none => (sort rest).map fun g => { g with names := argument :: g.names }
        | some cs =>
            match letters cs, rest with
            | none, _ => none
            | some (settings, none), rest =>
                (sort rest).map fun g => { g with settings := settings ++ g.settings }
            | some (_, some _), [] => none
            | some (settings, some flag), value :: rest =>
                (sort rest).map fun g =>
                  { g with settings := settings ++ ⟨flag, value⟩ :: g.settings }

/-- What an encoding is asked to do. -/
structure Job where
  codec : String
  /-- Zero leaves the choice to the codec. -/
  frames : Nat
  level : Nat
  rate : Nat
  channels : Nat
  raw : Bool
  keepOrder : Bool
  input : String
  output : String

/-- What is asked for. -/
inductive Request where
  | help
  | encode (job : Job)

namespace Given

/-- Whether an option was given. -/
def has (g : Given) (flag : Flag) : Bool := g.settings.any fun s => s.flag = flag

/-- Whether an option was given more than once. -/
def isRepeated (g : Given) : Bool :=
  g.settings.any fun s => 1 < (g.settings.filter fun t => t.flag = s.flag).length

/-- The value of an option. -/
def value (g : Given) (flag : Flag) (default : String) : String :=
  match g.settings.find? fun s => s.flag = flag with
  | some s => s.value
  | none => default

/-- The number that an option is set to, below a limit. A blank value
is zero. -/
def number (g : Given) (flag : Flag) (default limit : Nat) : Option Nat :=
  match g.settings.find? fun s => s.flag = flag with
  | none => some default
  | some s =>
      if s.value.toList.all Text.isBlank then some 0
      else (Numeral.read limit s.value).toOption

/-- The encoding that is asked for. -/
def job (g : Given) (input output : String) : Option Job := do
  let frames ← g.number .frames 0 UInt64.size
  let level ← g.number .level 2 UInt64.size
  let rate ← g.number .rate 48000 UInt32.size
  let channels ← g.number .channels 2 UInt8.size
  return {
    codec := g.value .codec "alac"
    frames := frames
    level := level
    rate := rate
    channels := channels
    raw := g.has .raw
    keepOrder := g.has .keepOrder
    input := input
    output := output }

end Given

/-- Reads the arguments. Help stands alone or wins over everything that
would be a right request. -/
def Request.parse (arguments : List String) : Option Request := do
  let given ← sort arguments
  if given.isRepeated then none
  else
    match given.names with
    | [] => if given.has .help ∧ given.settings.length = 1 then some .help else none
    | [input, output] =>
        if given.has .help then some .help
        else (given.job input output).map .encode
    | _ => none

end Packetizer.Command
