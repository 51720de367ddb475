import CarLocator.Gps.Satellites
import CarLocator.Gps.Fix
import CarLocator.Gps.Init
import CarLocator.Gps.Reader
import CarLocator.Gps.Isolation
import CarLocator.Gps.GsvSafety
import CarLocator.Gps.Position
import CarLocator.Gps.Clock
import CarLocator.Gps.Scales
import CarLocator.Gps.PositionLog
import CarLocator.Gps.CommaPos
import CarLocator.Gps.Display
import CarLocator.A9g.Receive
import CarLocator.A9g.UrcBounds
import CarLocator.A9g.Dispatch
import CarLocator.A9g.Retry
import CarLocator.A9g.Cleanup
import CarLocator.A9g.ParseTargets
import CarLocator.A9g.Resolve
import CarLocator.A9g.Send
import CarLocator.A9g.Netdev
import CarLocator.A9g.SetInfoAtomic
import CarLocator.A9g.InitThread
import CarLocator.A9g.Registration
import CarLocator.A9g.Established
import CarLocator.A9g.Connect
import CarLocator.A9g.Attribution
import CarLocator.Aliot.Socket
import CarLocator.Rc522.Poll
import CarLocator.Lcd.Line
import CarLocator.Lcd.Char
import CarLocator.Lcd.Number
import CarLocator.Gps.Thread
import CarLocator.At.Getchar
import CarLocator.At.Exchange
import CarLocator.At.RecvPkt
import CarLocator.At.Socket
import CarLocator.At.Descriptors
import CarLocator.A9g.Stream
import CarLocator.Serial.RxDma
import CarLocator.At.DmaGetchar
import CarLocator.Kernel.Mutex
import CarLocator.Kernel.MutexPriority
import CarLocator.Sal.Socket
import CarLocator.Kernel.HeapRuns
