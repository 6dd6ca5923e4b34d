import MinSeq.Core.BinaryFormat
import MinSeq.Core.ByteBits
import MinSeq.Core.CppTypes
import MinSeq.Core.Cyclic
import MinSeq.Core.Fifo
import MinSeq.Core.LittleEndian
import MinSeq.Core.Memory
import MinSeq.Core.Rounding
import MinSeq.Core.Runs
import MinSeq.Core.Steps
import MinSeq.Serialization.Canonical
import MinSeq.Serialization.Exchange
import MinSeq.Serialization.Format
import MinSeq.Serialization.History
import MinSeq.Serialization.Message
import MinSeq.Serialization.ReadOnly
import MinSeq.Serialization.Reading
import MinSeq.Serialization.SelfDelimiting
import MinSeq.Serialization.Serializers
import MinSeq.Serialization.SizeCount
import MinSeq.Serialization.StdString
import MinSeq.TextIO.CursorRange
import MinSeq.TextIO.DirtyFlag
import MinSeq.TextIO.DrawMenu
import MinSeq.TextIO.ListSelection
import MinSeq.TextIO.Vt100
import MinSeq.TextIO.Window
import MinSeq.Errors.Defer
import MinSeq.Errors.ValOrErr
import MinSeq.Floats.AlmostEqual
import MinSeq.Floats.Double
import MinSeq.Floats.FastAbs
import MinSeq.Floats.FastSin
import MinSeq.Floats.FloatArguments
import MinSeq.Floats.FloatToInt
import MinSeq.Floats.FloorCeilTrunc
import MinSeq.Floats.SignTests
import MinSeq.Floats.Single
import MinSeq.Containers.DynamicBitset
import MinSeq.Cubeb.ArrayQueue
import MinSeq.Cubeb.AudioRingBuffer
import MinSeq.Cubeb.AutoArray
import MinSeq.Cubeb.DelayLine
import MinSeq.Cubeb.DuplexResampler
import MinSeq.Cubeb.OpenslInput
import MinSeq.Cubeb.PassthroughResampler
import MinSeq.Cubeb.RingBuffer
import MinSeq.Cubeb.RingBufferThreads
import MinSeq.Cubeb.Strings
import MinSeq.Editor.LinuxInput
import MinSeq.Editor.Main
