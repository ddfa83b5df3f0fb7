/-!
# `Packetizer.Command.Usage`: the help text of the command line
-/

set_option autoImplicit false

namespace Packetizer.Command

/-- The help text, as it is printed. -/
def usage : String :=
  "Usage:
    frame_encoder [options] <input> <output>
    frame_encoder (-h | --help)

Options:
    -c CODEC      Output codec, alac or pcm [default: alac]
    -f FRAMES     Frames per packet, 0 uses the codec default [default: 0]
    -d LEVEL      Debug level (0 = silent, 5 = trace) [default: 2]
    -r RATE       Sample rate of raw input [default: 48000]
    -n CHANNELS   Channel count of raw input [default: 2]
    --raw         Input is headerless little-endian 32-bit float
    --no-remap    Keep WAVE channel order instead of A/52 order
    -h, --help    Print this help and exit

Use - as <input> or <output> for stdin and stdout.
"

end Packetizer.Command
