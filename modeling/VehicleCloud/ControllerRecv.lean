import VehicleCloud.Packer

namespace VehicleCloud

open ByteStream

def EINTR : Nat := 4
def EAGAIN : Nat := 11
def EWOULDBLOCK : Nat := 11

inductive RecvResult where
  | data (bytes : List UInt8)
  | shutdown
  | error (errno : Nat)

/-- One round of the receive loop: the value of `stopped` it reads, the result of `recv`, and
what the stack held where the decoded message is built. -/
structure Poll where
  stopped : Bool
  result : RecvResult
  raw : Raw

namespace Controller

/-- `on_cloud2veh_inh_res` calls made by the handler; the other overloads only print. -/
def on_unpack (callback : Bool) : Call → List Cloud2VehInhRes
  | .res m => if callback then [m] else []
  | .header _ => []
  | .inh _ => []
  | .state _ => []

/-- The handler calls of a receive thread. Its buffer is reused: the bytes behind a result are
those of earlier ones. -/
def sock_recv_thread (buf : Mem) : List Poll → List Call
  | [] => []
  | p :: rest =>
    if p.stopped then []
    else match p.result with
      | .shutdown => []
      | .error errno =>
        if errno = EAGAIN ∨ errno = EWOULDBLOCK ∨ errno = EINTR then sock_recv_thread buf rest
        else []
      | .data bytes =>
        let buf' := Mem.ofBytes bytes buf
        (Packer.unpack p.raw false (UInt64.ofNat bytes.length) buf' 0).value ++
          sock_recv_thread buf' rest

def up_sock_recv_thread : Mem → List Poll → List Call := sock_recv_thread

def down_sock_recv_thread : Mem → List Poll → List Call := sock_recv_thread

end Controller

end VehicleCloud
