import Mathlib.Tactic.Common

namespace VehicleCloud

inductive ConnectState where
  | CLOSED
  | CONNECTED
  | LOST
  deriving DecidableEq, Inhabited

def TCP_ESTABLISHED : UInt8 := 1
def TCP_CLOSING : UInt8 := 11

/-- A `socketlib::Client`: the state it believes in, whether a callback is set, and its socket. -/
structure Client where
  state : ConnectState
  callback : Bool
  established : Bool -- the peer may still send on the connection
  shut : Bool -- `shutdown` was called on the socket
  deriving DecidableEq

namespace Client

/-- What `listen` makes of the kernel's TCP state; nothing when it returns early. -/
def examine (state : ConnectState) (tcpi_state : UInt8) : Option ConnectState :=
  if tcpi_state ≤ TCP_CLOSING then
    if tcpi_state = TCP_ESTABLISHED then some .CONNECTED else some .LOST
  else if state = .CLOSED then some .CONNECTED -- first time after open
  else none

/-- A tick of the listen timer, with the notification it sends. Without a callback the state
stays as it is. -/
def listen (c : Client) (tcpi_state : UInt8) : Client × Option ConnectState :=
  match examine c.state tcpi_state with
  | none => (c, none)
  | some state =>
    if state ≠ c.state ∧ c.callback = true then ({ c with state := state }, some state)
    else (c, none)

/-- A client that believes to be closed leaves its socket alone. -/
def close (c : Client) : Client :=
  if c.state = .CLOSED then c else { c with state := .CLOSED, shut := true }

/-- A `recv` with no data at hand blocks. -/
def recvBlocks (c : Client) : Bool := c.established && !c.shut

/-- A `send` that the peer leaves no room for blocks. -/
def sendBlocks (c : Client) : Bool := c.established && !c.shut

theorem listen_recvBlocks (c : Client) (tcpi_state : UInt8) :
    (c.listen tcpi_state).1.recvBlocks = c.recvBlocks := by
  unfold listen
  split
  next => rfl
  next => split <;> rfl

theorem close_of_closed {c : Client} (h : c.state = .CLOSED) : c.close = c := if_pos h

theorem close_recvBlocks {c : Client} (h : c.state ≠ .CLOSED) : c.close.recvBlocks = false := by
  simp [close, h, recvBlocks]

end Client

end VehicleCloud
