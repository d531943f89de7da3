import VehicleCloud.Client

namespace VehicleCloud

/-- How the system calls of `Client::open` come out, up to the first that fails, with the
descriptor and the timer that are created. -/
inductive OpenResult where
  | noSocket
  | badAddress (fd : Nat) -- `inet_pton` fails
  | notConnected (fd : Nat)
  | noTimer (fd : Nat) -- `timer_create` fails
  | notSet (fd id : Nat) -- `timer_settime` fails
  | opened (fd id : Nat)
  deriving DecidableEq

namespace OpenResult

def fd : OpenResult → Option Nat
  | noSocket => none
  | badAddress fd => some fd
  | notConnected fd => some fd
  | noTimer fd => some fd
  | notSet fd _ => some fd
  | opened fd _ => some fd

def timer : OpenResult → Option Nat
  | notSet _ id => some id
  | opened _ id => some id
  | _ => none

/-- The timer that runs from now on. -/
def armed : OpenResult → Option Nat
  | opened _ id => some id
  | _ => none

def connected : OpenResult → Bool
  | noTimer _ => true
  | notSet _ _ => true
  | opened _ _ => true
  | _ => false

def code : OpenResult → Int
  | opened _ _ => 0
  | _ => -1

end OpenResult

/-- A `socketlib::Client` with its descriptor, `none` standing for -1, and its timer id. Before
the first `open` they are what memory held. -/
structure Socket extends Client where
  sockfd : Option Nat
  timer : Nat
  deriving DecidableEq

/-- A failing call leaves behind what it has created and stored. -/
def Socket.open (c : Socket) (r : OpenResult) : Socket :=
  { c with
    sockfd := r.fd
    timer := r.timer.getD c.timer
    established := r.connected
    shut := false }

def Socket.listen (c : Socket) (tcpi_state : UInt8) : Socket :=
  { c with toClient := (c.toClient.listen tcpi_state).1 }

def Socket.close (c : Socket) : Socket := { c with toClient := c.toClient.close }

end VehicleCloud
