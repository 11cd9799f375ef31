import Tinyalsa.Lib.CInt
import Tinyalsa.Lib.ByteMemory
import Tinyalsa.Lib.ByteFile
import Tinyalsa.Lib.Hoare
import Tinyalsa.Lib.Ledger
import Tinyalsa.Lib.Loop
import Tinyalsa.Lib.ObjHeap
import Tinyalsa.Lib.OptionScan
import Tinyalsa.Lib.OptionLine
import Tinyalsa.Lib.RingBuffer
import Tinyalsa.Lib.Run
import Tinyalsa.Lib.Scale
import Tinyalsa.Lib.Snprintf
import Tinyalsa.Lib.Tiles
import Tinyalsa.Pcm.Params
import Tinyalsa.Pcm.ParamsText
import Tinyalsa.Pcm.Handle
import Tinyalsa.Pcm.Config
import Tinyalsa.Pcm.Coherence
import Tinyalsa.Pcm.Account
import Tinyalsa.Pcm.Start
import Tinyalsa.Pcm.Underrun
import Tinyalsa.Pcm.Waiting
import Tinyalsa.Pcm.Copies
import Tinyalsa.Pcm.Recovery
import Tinyalsa.Pcm.Unwind
import Tinyalsa.Pcm.Mapping
import Tinyalsa.Pcm.Distance
import Tinyalsa.Pcm.Timestamp
import Tinyalsa.Pcm.Fifo
import Tinyalsa.Pcm.ByteOffsets
import Tinyalsa.Pcm.Delivery
import Tinyalsa.Pcm.MappedRun
import Tinyalsa.Plugin.Params
import Tinyalsa.Plugin.Refine
import Tinyalsa.Plugin.Ranges
import Tinyalsa.Plugin.Formats
import Tinyalsa.Plugin.Protocol
import Tinyalsa.Plugin.Sizes
import Tinyalsa.Plugin.Stack
import Tinyalsa.Mixer.Group
import Tinyalsa.Mixer.Opening
import Tinyalsa.Mixer.PlugOpen
import Tinyalsa.Mixer.Resources
import Tinyalsa.Mixer.Lookup
import Tinyalsa.Mixer.Extend
import Tinyalsa.Mixer.Values
import Tinyalsa.Mixer.Stored
import Tinyalsa.Mixer.PlugCalls
import Tinyalsa.Mixer.CallSafety
import Tinyalsa.Mixer.Percent
import Tinyalsa.Mixer.Rounding
import Tinyalsa.Mixer.EnumNames
import Tinyalsa.Mixer.EnumByName
import Tinyalsa.Mixer.Names
import Tinyalsa.Mixer.Events
import Tinyalsa.Mixer.Notifier
import Tinyalsa.Utils.Optparse
import Tinyalsa.Utils.OptionTable
import Tinyalsa.Utils.Numbers
import Tinyalsa.Pcm.OpenByName
import Tinyalsa.Utils.CommandLine
import Tinyalsa.Utils.TinyplayMain
import Tinyalsa.Utils.TinymixMain
import Tinyalsa.Utils.TinycapMain
import Tinyalsa.Utils.Tinycap
import Tinyalsa.Utils.CaptureHeader
import Tinyalsa.Utils.CaptureStream
import Tinyalsa.Utils.Tinyplay
import Tinyalsa.Utils.PlaySample
import Tinyalsa.Utils.PlayStream
import Tinyalsa.Utils.WaveChunks
import Tinyalsa.Utils.Tinywavinfo
import Tinyalsa.Utils.Playback
import Tinyalsa.Utils.Recording
import Tinyalsa.Utils.Tinymix
import Tinyalsa.Utils.TinymixSet
import Tinyalsa.Utils.TinymixText
import Tinyalsa.Utils.TinymixEnum
import Tinyalsa.Utils.TinymixList
import Tinyalsa.Utils.Tinypcminfo
