import Packetizer.Log

/-!
# `Packetizer.Proofs.Events`: what events tell about the outside

The events of an operation are read in six ways. `effects` leaves out
the log and keeps the rest in order. `codecCalls` lists the calls of
the codec and `hookCalls` those of the hook. `writes` are the writes that
sinks took, `bytesTaken` the bytes of all of them in a row, and `releases`
counts how often the session was released.

All of them go along with appending, and none of them sees the log.
-/

set_option autoImplicit false

namespace Packetizer

/-- A call of the codec: the samples as they were gathered, as the hook
left them, and the result code. -/
structure CodecCall where
  gathered : List Sample
  given : List Sample
  code : Int32

namespace Event

/-- Whether an event is more than a line of the log. -/
def isEffect : Event → Bool
  | logged _ => false
  | _ => true

/-- The call of the codec that an event is, if any. -/
def call? : Event → Option CodecCall
  | coded gathered given code => some ⟨gathered, given, code⟩
  | _ => none

/-- The call of the hook that an event is, if any: the layout and the
samples that it was given. -/
def hookCall? : Event → Option (StreamLayout × List Sample)
  | remapped layout samples => some (layout, samples)
  | _ => none

/-- The write that an event is, if any. -/
def write? : Event → Option (List UInt8)
  | wrote bytes => some bytes
  | _ => none

/-- The bytes that a sink took. -/
def taken : Event → List UInt8
  | wrote bytes => bytes
  | _ => []

/-- Whether the session was released. -/
def isRelease : Event → Bool
  | released => true
  | _ => false

end Event

/-- What was done to the outside. -/
def effects (events : List Event) : List Event := events.filter Event.isEffect

/-- The calls of the codec. -/
def codecCalls (events : List Event) : List CodecCall := events.filterMap Event.call?

/-- The calls of the hook. -/
def hookCalls (events : List Event) : List (StreamLayout × List Sample) :=
  events.filterMap Event.hookCall?

/-- The writes that sinks took. -/
def writes (events : List Event) : List (List UInt8) := events.filterMap Event.write?

/-- The bytes that sinks took. -/
def bytesTaken (events : List Event) : List UInt8 := events.flatMap Event.taken

/-- How often the session was released. -/
def releases (events : List Event) : Nat := events.countP Event.isRelease

variable (log before after : List Message) (events more : List Event)

/-! ### Appending -/

@[simp] theorem effects_append :
    effects (events ++ more) = effects events ++ effects more :=
  List.filter_append ..

@[simp] theorem codecCalls_append :
    codecCalls (events ++ more) = codecCalls events ++ codecCalls more :=
  List.filterMap_append ..

@[simp] theorem hookCalls_append :
    hookCalls (events ++ more) = hookCalls events ++ hookCalls more :=
  List.filterMap_append ..

@[simp] theorem writes_append : writes (events ++ more) = writes events ++ writes more :=
  List.filterMap_append ..

@[simp] theorem bytesTaken_append :
    bytesTaken (events ++ more) = bytesTaken events ++ bytesTaken more :=
  List.flatMap_append ..

@[simp] theorem releases_append :
    releases (events ++ more) = releases events + releases more :=
  List.countP_append ..

/-! ### The log -/

@[simp] theorem effects_ofLog : effects (Event.ofLog log) = [] := by
  simp [effects, Event.ofLog, Event.isEffect]

@[simp] theorem codecCalls_ofLog : codecCalls (Event.ofLog log) = [] := by
  simp [codecCalls, Event.ofLog, Event.call?]

@[simp] theorem hookCalls_ofLog : hookCalls (Event.ofLog log) = [] := by
  simp [hookCalls, Event.ofLog, Event.hookCall?]

@[simp] theorem writes_ofLog : writes (Event.ofLog log) = [] := by
  simp [writes, Event.ofLog, Event.write?]

@[simp] theorem bytesTaken_ofLog : bytesTaken (Event.ofLog log) = [] := by
  simp [bytesTaken, Event.ofLog, Event.taken]

@[simp] theorem releases_ofLog : releases (Event.ofLog log) = 0 := by
  simp [releases, Event.ofLog, Event.isRelease, List.countP_map]

/-! ### Writes -/

/-- The bytes that sinks took are those of the writes. -/
theorem flatten_writes : (writes events).flatten = bytesTaken events := by
  induction events with
  | nil => rfl
  | cons event events ih =>
      cases event with
      | wrote bytes => exact congrArg (bytes ++ ·) ih
      | logged | remapped | coded | released => exact ih

/-! ### Between lines of the log -/

theorem effects_logged :
    effects (Event.ofLog before ++ events ++ Event.ofLog after) = effects events := by
  rw [effects_append, effects_append, effects_ofLog, effects_ofLog, List.nil_append,
    List.append_nil]

theorem codecCalls_logged :
    codecCalls (Event.ofLog before ++ events ++ Event.ofLog after) = codecCalls events := by
  rw [codecCalls_append, codecCalls_append, codecCalls_ofLog, codecCalls_ofLog, List.nil_append,
    List.append_nil]

theorem hookCalls_logged :
    hookCalls (Event.ofLog before ++ events ++ Event.ofLog after) = hookCalls events := by
  rw [hookCalls_append, hookCalls_append, hookCalls_ofLog, hookCalls_ofLog, List.nil_append,
    List.append_nil]

theorem writes_logged :
    writes (Event.ofLog before ++ events ++ Event.ofLog after) = writes events := by
  rw [writes_append, writes_append, writes_ofLog, writes_ofLog, List.nil_append,
    List.append_nil]

theorem bytesTaken_logged :
    bytesTaken (Event.ofLog before ++ events ++ Event.ofLog after) = bytesTaken events := by
  rw [bytesTaken_append, bytesTaken_append, bytesTaken_ofLog, bytesTaken_ofLog, List.nil_append,
    List.append_nil]

/-! ### A call of the codec -/

variable (gathered given : List Sample) (code : Int32)

@[simp] theorem codecCalls_coded :
    codecCalls (.coded gathered given code :: events)
      = ⟨gathered, given, code⟩ :: codecCalls events := rfl

@[simp] theorem bytesTaken_coded :
    bytesTaken (.coded gathered given code :: events) = bytesTaken events := rfl

@[simp] theorem releases_coded :
    releases (.coded gathered given code :: events) = releases events := by
  simp [releases, Event.isRelease]

end Packetizer
