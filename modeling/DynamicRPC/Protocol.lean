import DynamicRPC.Element
import DynamicRPC.Queue

namespace DynamicRPC

/-- `enum drpc_protocol`, and the other values that a `uint8_t` off the wire has. -/
inductive DrpcProtocol
  | call | return | servername | auth | mailboxRecv | mailboxSend | disconnect | ping
  | notfound | bad | ok | eperm
  | unknown (type : UInt8)
  deriving DecidableEq

structure DrpcMessage where
  messageType : DrpcProtocol
  message : Option (DStruct Element)

/-- `enum drpc_client_errors`. -/
inductive DrpcClientErrors
  | ok | bad | enetwork | clientstopped | badreply
  deriving DecidableEq

/-- What comes of sending a message over an `io` and waiting for the reply. A frame
that `drpc_recv_message` does not survive is a fault. -/
inductive Exchange
  | sendFails
  | recvFails
  | recvFaults (fault : Fault)
  | reply (recv : DrpcMessage)

/-- `struct drpc_client`, with what its `io` answers to each message. -/
structure DrpcClient where
  clientStop : Int
  io : DrpcMessage → Exchange

/-- The string behind a `d_str` element. -/
def Element.asStr : Element → Outcome CString
  | .str block => CString.read block
  | _ => .error .outside

/-- The queue behind a `d_queue` element. -/
def Element.asQueue : Element → Outcome DQueue
  | .queue q => pure q
  | _ => .error .outside

end DynamicRPC
