import Packetizer.Codec.Lossless

/-!
# `Packetizer.Codec.Escape`: lossless packets in escape form

A lossless packet is a row of elements, each with one channel, a
channel pair or the LFE, and an end mark. Here every element is written
in its escape form, which holds the 16-bit levels as they are, so a
packet is never longer than its samples and the headers. That makes the
simplest coder of lossless packets, and the one to run with.
-/

set_option autoImplicit false

namespace Packetizer.Escape

/-- The shape of the packets of a stream. -/
structure Shape where
  framesPerPacket : FrameCount
  channels : Nat

/-- The bytes of the headers at most. -/
def maxHeaderBytes : Nat := 40

/-- The parts of a packet. -/
inductive Element where
  | single
  | pair
  | lfe
  deriving DecidableEq

/-- The mark of an element in three bits. -/
def Element.tag : Element → Nat
  | .single => 0
  | .pair => 1
  | .lfe => 3

/-- The channels of an element. -/
def Element.channels : Element → Nat
  | .single => 1
  | .pair => 2
  | .lfe => 1

/-- The mark that ends a packet. -/
def endTag : Nat := 7

/-- The elements of a packet with so many channels. -/
def elements : Nat → List Element
  | 1 => [.single]
  | 2 => [.pair]
  | 3 => [.single, .pair]
  | 4 => [.single, .pair, .single]
  | 5 => [.single, .pair, .pair]
  | 6 => [.single, .pair, .pair, .lfe]
  | 7 => [.single, .pair, .pair, .single, .lfe]
  | 8 => [.single, .pair, .pair, .pair, .lfe]
  | _ => []

/-- The `width` low bits of `n`, the highest first. -/
def bits (width n : Nat) : List Bool :=
  (List.range width).reverse.map n.testBit

/-- The byte of up to eight bits, filled up with zeros. -/
def byteOfBits (bs : List Bool) : UInt8 :=
  UInt8.ofNat ((bs ++ List.replicate (8 - bs.length) false).foldl
    (fun n b => 2 * n + b.toNat) 0)

/-- Bits as bytes, the last byte filled up with zeros. -/
def packBits (bs : List Bool) : List UInt8 := (chunks 8 bs).map byteOfBits

/-- The bits in front of the levels of an element: its mark, which of
its kind it is, twelve unused bits, whether the packet is a short one,
no shifted bytes, the escape mark and the frames of a short packet. -/
def elementHeader (element : Element) (instanceNumber : Nat) (partialFrames : Option Nat) :
    List Bool :=
  bits 3 element.tag ++ bits 4 instanceNumber ++ bits 12 0 ++ [partialFrames.isSome] ++
    bits 2 0 ++ [true] ++ ((partialFrames.map (bits 32)).getD [])

/-- The elements of a packet, given its frames and the number of
elements of each kind before them. -/
def elementBits (partialFrames : Option Nat) (frames : List (List Int16)) :
    List Element → (singles pairs lfes first : Nat) → List Bool
  | [], _, _, _, _ => []
  | element :: rest, singles, pairs, lfes, first =>
      let width := element.channels
      let levels := frames.flatMap fun frame => (frame.drop first).take width
      let body := levels.flatMap fun level => bits 16 level.toUInt16.toNat
      let number := match element with
        | .single => singles
        | .pair => pairs
        | .lfe => lfes
      elementHeader element number partialFrames ++ body ++
        elementBits partialFrames frames rest
          (if element = .single then singles + 1 else singles)
          (if element = .pair then pairs + 1 else pairs)
          (if element = .lfe then lfes + 1 else lfes) (first + width)

/-- The packet of some interleaved levels. -/
def packet (s : Shape) (levels : List Int16) : List UInt8 :=
  let frames := chunks s.channels levels
  -- Only a short packet states its length.
  let partialFrames :=
    if frames.length = s.framesPerPacket.toNat then none else some frames.length
  packBits (elementBits partialFrames frames (elements s.channels) 0 0 0 0 ++ bits 3 endTag)

/-- Packets in escape form. Nothing is remembered from one packet to the
next, and a packet that does not fit is not written. -/
instance : LosslessCoder where
  State := Shape
  maxHeaderBytes := maxHeaderBytes
  begin _ frames channels := ⟨frames, channels⟩
  encode s frame levels :=
    let bytes := packet s levels
    ⟨bytes.length, if frame.size < bytes.length then frame else frame.overwrite bytes, s⟩
  size_frame s frame levels := by
    dsimp only
    split <;> rfl

end Packetizer.Escape
