import GameLift.Accounting
import GameLift.AsyncReceive
import GameLift.BufferQueue
import GameLift.ClientRequests
import GameLift.ClientSend
import GameLift.Delivery
import GameLift.DummyGame
import GameLift.FastSpinlock
import GameLift.FrameBoundary
import GameLift.GameEnd
import GameLift.GameSessionLife
import GameLift.HalfCapacity
import GameLift.HeardPlayers
import GameLift.IniFile
import GameLift.JobQueue
import GameLift.ObjectPool
import GameLift.Overruns
import GameLift.PlayerPairing
import GameLift.ReceiveEnd
import GameLift.RefCount
import GameLift.Scheduler
import GameLift.SendPipeline
import GameLift.SendStream
import GameLift.SessionPolling
import GameLift.Settings
import GameLift.SilentQueries
import GameLift.SocketClose
import GameLift.TcpClient
import GameLift.TerminateOnce
import GameLift.TextFields
import GameLift.TimerDelay
import GameLift.WindowsBroadcast
import GameLift.WindowsLocks
