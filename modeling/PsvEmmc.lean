import PsvEmmc.Lib.Words
import PsvEmmc.Lib.Memory
import PsvEmmc.Lib.Runs
import PsvEmmc.Lib.Stream
import PsvEmmc.Lib.Slice
import PsvEmmc.Lib.Ledger
import PsvEmmc.Lib.Slots
import PsvEmmc.Lib.Filling
import PsvEmmc.Lib.Cyclic
import PsvEmmc.Lib.Loops
import PsvEmmc.Lib.Sorting
import PsvEmmc.Lib.Windows
import PsvEmmc.Protocol
import PsvEmmc.Pool
import PsvEmmc.Driver
import PsvEmmc.Driver.PoolSize
import PsvEmmc.Driver.Lifetime
import PsvEmmc.Driver.SharedPool
import PsvEmmc.Driver.SendCommand
import PsvEmmc.Driver.Log
import PsvEmmc.Driver.LogBuffer
import PsvEmmc.Driver.VfsHooks
import PsvEmmc.Driver.VfsRuns
import PsvEmmc.Driver.Hooks
import PsvEmmc.Driver.DeviceInits
import PsvEmmc.Driver.Net
import PsvEmmc.Driver.NetThreads
import PsvEmmc.Driver.NetLifetime
import PsvEmmc.Server
import PsvEmmc.Server.Pools
import PsvEmmc.Server.PoolSafety
import PsvEmmc.Server.PoolErrors
import PsvEmmc.Server.Sessions
import PsvEmmc.Server.Requests
import PsvEmmc.Server.Replies
import PsvEmmc.Server.Dispatch
import PsvEmmc.Server.Restarts
import PsvEmmc.Server.Process
import PsvEmmc.Server.Screen
import PsvEmmc.Server.ScreenText
import PsvEmmc.Client
import PsvEmmc.Client.Calls
import PsvEmmc.Client.Network
import PsvEmmc.Client.Device
import PsvEmmc.Client.Served
import PsvEmmc.Client.Main
import PsvEmmc.Client.ExitCode
import PsvEmmc.Client.Receive
import PsvEmmc.Link
import PsvEmmc.Link.PoolRequests
import PsvEmmc.Link.Reads
import PsvEmmc.Link.Dump
import PsvEmmc.SegmentTable
import PsvEmmc.SegmentTable.Contents
import PsvEmmc.SegmentTable.Rebuild
import PsvEmmc.SegmentTable.Find
import PsvEmmc.ErrorLogger.Hooks
import PsvEmmc.Driver.Trackers
import PsvEmmc.Driver.TrackerRuns
import PsvEmmc.Qsort
import PsvEmmc.Qsort.Bytes
import PsvEmmc.SegmentTable.Sorted
import PsvEmmc.ErrorLogger.HandOver
import PsvEmmc.ErrorLogger.Log
import PsvEmmc.ErrorLogger.StackTrace
import PsvEmmc.ErrorLogger.Lifetime
import PsvEmmc.Driver.StackTrace
import PsvEmmc.ErrorLogger.Allocations
