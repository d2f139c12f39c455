import FoloGameboy.Core.Ime
import FoloGameboy.Core.Mbc1
import FoloGameboy.Core.Schedule
import FoloGameboy.Core.Idle
import FoloGameboy.Port.FrameSkip
import FoloGameboy.Port.Streaming
import FoloGameboy.Tools.Verified
import FoloGameboy.Web.FailClosed
import FoloGameboy.Web.Cleanup
import FoloGameboy.Web.Stale
import FoloGameboy.Web.UrlDecode
import FoloGameboy.Game.Leave
import FoloGameboy.Port.Playable
import FoloGameboy.Storage.Space
import FoloGameboy.Tools.NameRules
import FoloGameboy.Pad.Revision
import FoloGameboy.Pad.Ownership
import FoloGameboy.Pad.Buffer
import FoloGameboy.Game.Screens
import FoloGameboy.Display.Incremental
import FoloGameboy.Display.Canvas
import FoloGameboy.Iine.Driven
import FoloGameboy.Iine.Detect
import FoloGameboy.Iine.Reports
import FoloGameboy.Ble.Isolation
import FoloGameboy.Ble.ReportMap
import FoloGameboy.Core.Stat
import FoloGameboy.Core.Bcd
import FoloGameboy.Core.Rtc
import FoloGameboy.Core.ClockWrites
import FoloGameboy.Core.Sprites
import FoloGameboy.Port.Bounds
import FoloGameboy.Apu.Wave
import FoloGameboy.Port.Sound
import FoloGameboy.Audio.Order
import FoloGameboy.Port.Memory
import FoloGameboy.Port.Banks
import FoloGameboy.Core.ColorLine
