import DynamicRPC.AccessControl
import DynamicRPC.AesCbc
import DynamicRPC.AesCipher
import DynamicRPC.ArgumentAcceptance
import DynamicRPC.ArgumentPassing
import DynamicRPC.ArgumentTrip
import DynamicRPC.ArgumentView
import DynamicRPC.Array
import DynamicRPC.ArrayClaims
import DynamicRPC.ArrayCount
import DynamicRPC.ArrayFields
import DynamicRPC.ArrayMap
import DynamicRPC.ArraySet
import DynamicRPC.AssertionFree
import DynamicRPC.CString
import DynamicRPC.Call
import DynamicRPC.CallClient
import DynamicRPC.CallFailure
import DynamicRPC.CallOwnership
import DynamicRPC.CallPrepare
import DynamicRPC.CallRepack
import DynamicRPC.CallSync
import DynamicRPC.CallVerdict
import DynamicRPC.CalleeRun
import DynamicRPC.ClientAssertions
import DynamicRPC.ClientChannel
import DynamicRPC.ClientLifetime
import DynamicRPC.ClientSync
import DynamicRPC.Codec
import DynamicRPC.ContainerFree
import DynamicRPC.ContainerHeap
import DynamicRPC.ContainerOwnership
import DynamicRPC.ContainerRuns
import DynamicRPC.Copy
import DynamicRPC.Decode
import DynamicRPC.DecodeArray
import DynamicRPC.DecodedCounts
import DynamicRPC.Delivery
import DynamicRPC.Deque
import DynamicRPC.DequeOps
import DynamicRPC.DequePush
import DynamicRPC.DequeRep
import DynamicRPC.DequeRuns
import DynamicRPC.DqueueIo
import DynamicRPC.Element
import DynamicRPC.Encode
import DynamicRPC.ExecutorReplies
import DynamicRPC.ExecutorSafety
import DynamicRPC.FfiSlots
import DynamicRPC.FinalDrain
import DynamicRPC.FnAccounting
import DynamicRPC.FnLifecycle
import DynamicRPC.FrameSafety
import DynamicRPC.FunctionTable
import DynamicRPC.HandleCall
import DynamicRPC.HandleClient
import DynamicRPC.Handshake
import DynamicRPC.Hashtable
import DynamicRPC.HashtableMap
import DynamicRPC.HashtableProbe
import DynamicRPC.HashtableRuns
import DynamicRPC.HashtableSet
import DynamicRPC.HashtableSpec
import DynamicRPC.KeyAgreement
import DynamicRPC.Library.Assoc
import DynamicRPC.Library.BlockChaining
import DynamicRPC.Library.CyclicSearch
import DynamicRPC.Library.Ieee
import DynamicRPC.Library.LittleEndian
import DynamicRPC.Library.Memory
import DynamicRPC.Library.Outcome
import DynamicRPC.Library.OwnedHeap
import DynamicRPC.Library.Paged
import DynamicRPC.Library.Quad
import DynamicRPC.Library.Runs
import DynamicRPC.Library.ThreadLog
import DynamicRPC.Library.WordHash
import DynamicRPC.Library.WriteBuffer
import DynamicRPC.Mailbox
import DynamicRPC.MailboxAck
import DynamicRPC.MailboxFetch
import DynamicRPC.MailboxLoss
import DynamicRPC.MessageMemory
import DynamicRPC.MessageRecord
import DynamicRPC.NativeReturn
import DynamicRPC.PasswordHash
import DynamicRPC.Protocol
import DynamicRPC.ProxyBody
import DynamicRPC.ProxyCall
import DynamicRPC.ProxyTables
import DynamicRPC.ProxyTermination
import DynamicRPC.Queue
import DynamicRPC.QueueDrain
import DynamicRPC.QueueRefinement
import DynamicRPC.RecordBuffer
import DynamicRPC.ReplyPairing
import DynamicRPC.ReplyRepack
import DynamicRPC.ReplySync
import DynamicRPC.ReturnDqueue
import DynamicRPC.ReturnIs
import DynamicRPC.ReturnTrip
import DynamicRPC.RoundTrip
import DynamicRPC.ScalarPassing
import DynamicRPC.ServerRuns
import DynamicRPC.Sparse
import DynamicRPC.StringSync
import DynamicRPC.Struct
import DynamicRPC.StructMap
import DynamicRPC.StructRuns
import DynamicRPC.Tcp
import DynamicRPC.TcpCall
import DynamicRPC.TcpStream
import DynamicRPC.TransferLoop
import DynamicRPC.Types
import DynamicRPC.UnsupportedType
import DynamicRPC.WireDecode
import DynamicRPC.WireFormat
import DynamicRPC.ScalarArrival
