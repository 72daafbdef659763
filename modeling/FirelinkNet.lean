import FirelinkNet.Lib.Prog
import FirelinkNet.Lib.Threads
import FirelinkNet.Lib.Product
import FirelinkNet.Lib.Keyed
import FirelinkNet.Lib.Text
import FirelinkNet.Lib.Numeral
import FirelinkNet.Lib.Atomic
import FirelinkNet.Lib.Casts
import FirelinkNet.Lib.Lifo
import FirelinkNet.Lib.Inevitable
import FirelinkNet.Types
import FirelinkNet.Endpoint
import FirelinkNet.Sockaddr
import FirelinkNet.InetText
import FirelinkNet.InetParse
import FirelinkNet.SockaddrText
import FirelinkNet.Disconnect
import FirelinkNet.Parting
import FirelinkNet.Calls
import FirelinkNet.World
import FirelinkNet.WinIOCore
import FirelinkNet.WinSocket
import FirelinkNet.System
import FirelinkNet.CoreResources
import FirelinkNet.Rollback
import FirelinkNet.Naming
import FirelinkNet.Tame
import FirelinkNet.Closing
import FirelinkNet.SelfWait
import FirelinkNet.Release
import FirelinkNet.Lifecycle
import FirelinkNet.Ownership
import FirelinkNet.Accounts
import FirelinkNet.Delivery
import FirelinkNet.Delivered
import FirelinkNet.Kept
import FirelinkNet.Exclusive
import FirelinkNet.Lifetime
import FirelinkNet.Closures
import FirelinkNet.Posting
import FirelinkNet.Lengths
import FirelinkNet.Receiving
import FirelinkNet.Routine
import FirelinkNet.RunStop
import FirelinkNet.RunReturns
import FirelinkNet.Serial
import FirelinkNet.Sockets
import FirelinkNet.Representation
import FirelinkNet.Handles
import FirelinkNet.BoundFlag
import FirelinkNet.NullIo
import FirelinkNet.FailedAccept
import FirelinkNet.Objects
import FirelinkNet.Echo
import FirelinkNet.EchoEnds
