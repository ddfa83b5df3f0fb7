import Packetizer.Main
import Packetizer.Codec.Escape
import Packetizer.Proofs.Encoder.Gathering
import Packetizer.Proofs.Stream.Writing
import Packetizer.Rehearsal.Consumer
import Packetizer.Rehearsal.Devices
import Packetizer.Rehearsal.FileTree
import Packetizer.Rehearsal.ScriptedCodec
import Packetizer.Proofs.Encoder.Emission
import Packetizer.Proofs.Encoder.Move
import Packetizer.Proofs.Encoder.Run
import Packetizer.Proofs.Encoder.Chunking
import Packetizer.Proofs.Encoder.Conservation
import Packetizer.Proofs.Encoder.Session
import Packetizer.Proofs.Encoder.Release
import Packetizer.Proofs.Encoder.Delivery
import Packetizer.Proofs.Encoder.Finished
import Packetizer.Proofs.Audio.Chunks
import Packetizer.Proofs.Codec.Linear16
import Packetizer.Proofs.Encoder.LinearStream
import Packetizer.Proofs.Rehearsal.Devices
import Packetizer.Proofs.Encoder.FromSource
import Packetizer.Proofs.Wave.Header
import Packetizer.Proofs.Wave.Decoding
import Packetizer.Proofs.Wave.File
import Packetizer.Proofs.Wave.Failing
import Packetizer.Proofs.Stream.Stopping
import Packetizer.Proofs.Encoder.Stopped
import Packetizer.Proofs.Command.FileLoop
import Packetizer.Proofs.Command.Stopped
import Packetizer.Proofs.Encoder.Layout
import Packetizer.Proofs.Codec.Kind
import Packetizer.Proofs.Command.RawAndFile
import Packetizer.Proofs.Encoder.Recovery
import Packetizer.Proofs.Stream.Alignment
import Packetizer.Proofs.Encoder.Answers
import Packetizer.Proofs.Encoder.FirstFailure
import Packetizer.Proofs.Encoder.Draining
import Packetizer.Proofs.Encoder.Pending
import Packetizer.Proofs.Encoder.Refusal
import Packetizer.Proofs.Wave.Truncation
import Packetizer.Proofs.Audio.Duration
import Packetizer.Proofs.Audio.Speakers
import Packetizer.Proofs.Encoder.Restart
import Packetizer.Rehearsal.Repetition
import Packetizer.Proofs.Rehearsal.Repetition
import Packetizer.Proofs.Audio.Positions
import Packetizer.Proofs.Wave.Bounds
import Packetizer.Proofs.Stream.Counting
import Packetizer.Proofs.Wave.Turns
import Packetizer.Proofs.Command.Reports
import Packetizer.Proofs.Text.Blank
import Packetizer.Proofs.Text.Numeral
import Packetizer.Proofs.Audio.SampleRate
