import VehicleCloud.Client
import VehicleCloud.ControllerSend
import VehicleCloud.Printf
import VehicleCloud.Timer

namespace VehicleCloud

open ByteStream Printf

def COMM_TYPE_4G : UInt8 := 0
def TIME_SYNC_GNSS : UInt8 := 2
def GNSS_TYPE_GCJ02 : UInt8 := 0

inductive VehicleTimer where
  | g_hb_timer
  | g_state_timer
  | g_inh_timer
  deriving DecidableEq

/-- Where a run of a timer's handler stands. -/
inductive Tick where
  | entered (o : VehicleTimer)
  | passed -- past the test of `g_inh_count`
  | sent -- past `send`, before `g_inh_count++`
  | loaded (count : UInt64) -- has read `g_inh_count`, and not written it
  deriving DecidableEq

/-- What a handler finds when it makes a message: the results of `get_utc_timestamp_ms`, and what
memory holds around it. -/
structure Moment where
  now : UInt64
  gnss_now : UInt64
  past : Veh2CloudInh.Past
  points : Nat → Position2D
  stack : Mem

namespace Moment

/-- The argument of `g_controller.send`. -/
def outgoing (m : Moment) (message : Call) : Outgoing := ⟨message, m.past, m.points, m.stack⟩

def inh (m : Moment) : Veh2CloudInh := Veh2CloudInh.ofArgs {
  version := 0x01
  timestamp := m.now
  ctrl := 0xFC
  vehicle_id := utf8 "Q1001"
  sw_ver := utf8 "sw_v1.0"
  hw_ver := utf8 "hw_v1.0"
  ad_ver := utf8 "ad_v1.0"
  com_type := COMM_TYPE_4G
  pos_confidence := 15
  time_sync := TIME_SYNC_GNSS
  gnss_type := GNSS_TYPE_GCJ02
  user_data := utf8 "VEH2CLOUD_INH" }

def state (m : Moment) : Veh2CloudState := Veh2CloudState.ofArgs {
  version := 0x01
  timestamp := m.now
  ctrl := 0xFC
  vehicle_id := utf8 "Q1001"
  message_id := [1]
  gnss_timestamp := m.gnss_now
  gnss_velocity := 4000
  position := ⟨90, 90, 700⟩
  heading := 100000
  gear := 31
  steering_angle := 200000
  velocity := 4100
  acc_lon := 500
  acc_lat := 400
  acc_ver := 300
  yaw_rate := 200
  accel_pos := 500
  engine_speed := 3000
  engine_torque := 50000
  break_flag := 1
  break_pos := 500
  break_pressure := 20000
  fuel_consume := 1000
  drive_mode := 1
  dest_location := ⟨80, 80⟩
  pass_pos := [] }

def hb (m : Moment) : MessageHeader := MessageHeader.ofArgs 0 HEARTBEAT 0x01 m.now 0xFC

/-- The message that a handler sends at this point. -/
def message (m : Moment) : Tick → Option Call
  | .entered .g_hb_timer => some (.header m.hb)
  | .entered .g_state_timer => some (.state m.state)
  | .passed => some (.inh m.inh)
  | .entered .g_inh_timer | .sent | .loaded _ => none

end Moment

/-- The globals of the example, the runs of timer handlers that are under way, and what was handed
to `g_controller.send`. -/
structure Vehicle where
  timers : Timers VehicleTimer
  g_inh_res : Bool
  g_inh_count : UInt64
  ticks : List Tick
  sent : List Outgoing

inductive VehicleEvent where
  | up (state : ConnectState) (inh status : TimerStart)
  | down (state : ConnectState) (hb : TimerStart)
  | res -- the cloud has answered the registration
  | expire (o : VehicleTimer) (id : Nat)
  | tick (k : Tick) (m : Moment)

namespace Vehicle

def stopTimers : Timers VehicleTimer → List VehicleTimer → Option (Timers VehicleTimer)
  | x, [] => some x
  | x, o :: os => (x.step (.stop o)).bind (stopTimers · os)

/-- The other branch of the two connection callbacks, up to `g_controller.stop()`. -/
def lost (s : Vehicle) (order : List VehicleTimer) : Option Vehicle :=
  (stopTimers s.timers order).map fun timers =>
    { s with timers := timers, g_inh_res := false, g_inh_count := 0 }

def on_up_connect_state (s : Vehicle) (state : ConnectState) (inh status : TimerStart) :
    Option Vehicle :=
  if state = .CONNECTED then
    ((s.timers.step (.start .g_inh_timer inh)).bind (·.step (.start .g_state_timer status))).map
      fun timers => { s with timers := timers }
  else s.lost [.g_hb_timer, .g_inh_timer, .g_state_timer]

def on_down_connect_state (s : Vehicle) (state : ConnectState) (hb : TimerStart) : Option Vehicle :=
  if state = .CONNECTED then
    (s.timers.step (.start .g_hb_timer hb)).map fun timers => { s with timers := timers }
  else s.lost [.g_hb_timer, .g_state_timer, .g_inh_timer]

def on_cloud2veh_inh_res (s : Vehicle) : Option Vehicle :=
  (s.timers.step (.stop .g_inh_timer)).map fun timers =>
    { s with timers := timers, g_inh_res := true }

/-- The next statement of a handler. -/
def handler (s : Vehicle) : Tick → Option Vehicle
  | .entered .g_inh_timer =>
    if 3 ≤ s.g_inh_count then
      (s.timers.step (.stop .g_inh_timer)).map fun timers => { s with timers := timers }
    else some { s with ticks := .passed :: s.ticks }
  | .passed => some { s with ticks := .sent :: s.ticks }
  | .sent => some { s with ticks := .loaded s.g_inh_count :: s.ticks }
  | .loaded count => some { s with g_inh_count := count + 1 }
  | .entered .g_state_timer | .entered .g_hb_timer => some s

/-- A callback, the expiry of a live timer, or a step of a handler. A handler that has been entered
runs to its end, whatever becomes of its timer. Each of the three callbacks is one atomic step: the
handlers of the timers do not come between its statements. -/
def step (s : Vehicle) : VehicleEvent → Option Vehicle
  | .up state inh status => s.on_up_connect_state state inh status
  | .down state hb => s.on_down_connect_state state hb
  | .res => s.on_cloud2veh_inh_res
  | .expire o id =>
    if id ∈ s.timers.ledger.held o then some { s with ticks := .entered o :: s.ticks } else none
  | .tick k m =>
    if k ∈ s.ticks then
      handler { s with ticks := s.ticks.erase k,
                       sent := s.sent ++ ((m.message k).map m.outgoing).toList } k
    else none

/-- As `main` starts. -/
structure Initial (s : Vehicle) : Prop where
  timers : s.timers.New
  count : s.g_inh_count = 0
  ticks : s.ticks = []
  sent : s.sent = []

end Vehicle

end VehicleCloud
