import VehicleCloud.RecvStream
import VehicleCloud.SendOrder

namespace VehicleCloud

open ByteStream

/-- A receive thread between two rounds of its loop. -/
structure Receiver where
  buf : Mem
  running : Bool
  calls : List Call

namespace Poll

/-- The bytes that the round takes off the socket. -/
def data (p : Poll) : List UInt8 :=
  if p.stopped then []
  else match p.result with
    | .data bytes => bytes
    | .shutdown | .error _ => []

theorem result_of_data {p : Poll} (h : p.data ≠ []) :
    p.stopped = false ∧ p.result = .data p.data := by
  unfold data at h ⊢
  by_cases hs : p.stopped = true
  · simp [hs] at h
  · cases hr : p.result with
    | data bytes => simp [hs]
    | _ => simp [hs, hr] at h

end Poll

namespace Receiver

/-- One round of the loop of `up_sock_recv_thread` and `down_sock_recv_thread`. -/
def poll (r : Receiver) (p : Poll) : Receiver :=
  if p.stopped then { r with running := false }
  else match p.result with
    | .shutdown => { r with running := false }
    | .error errno =>
      if errno = EAGAIN ∨ errno = EWOULDBLOCK ∨ errno = EINTR then r else { r with running := false }
    | .data bytes =>
      let buf := Mem.ofBytes bytes r.buf
      { r with buf := buf,
               calls := r.calls ++ (Packer.unpack p.raw false (UInt64.ofNat bytes.length) buf 0).value }

/-- The rounds until the thread has gone. -/
def polls : Receiver → List Poll → Receiver
  | r, [] => r
  | r, p :: rest => if r.running then polls (r.poll p) rest else r

theorem polls_of_gone {r : Receiver} (h : r.running = false) (ps : List Poll) : r.polls ps = r := by
  cases ps with
  | nil => rfl
  | cons p rest => simp [polls, h]

/-- Round by round the thread makes the calls of the whole loop. -/
theorem polls_calls {r : Receiver} (h : r.running = true) (ps : List Poll) :
    (r.polls ps).calls = r.calls ++ Controller.sock_recv_thread r.buf ps := by
  induction ps generalizing r with
  | nil => simp [polls, Controller.sock_recv_thread]
  | cons p rest ih =>
    simp only [polls, h, ↓reduceIte, Controller.sock_recv_thread]
    by_cases hs : p.stopped = true
    · have hgone : r.poll p = { r with running := false } := by simp [poll, hs]
      rw [hgone, polls_of_gone rfl, if_pos hs, List.append_nil]
    · rw [if_neg hs]
      cases hr : p.result with
      | shutdown =>
        have hgone : r.poll p = { r with running := false } := by simp [poll, hs, hr]
        rw [hgone, polls_of_gone rfl, List.append_nil]
      | error errno =>
        by_cases he : errno = EAGAIN ∨ errno = EWOULDBLOCK ∨ errno = EINTR
        · have hsame : r.poll p = r := by simp [poll, hs, hr, he]
          rw [hsame, ih h]
          simp only [he, ↓reduceIte]
        · have hgone : r.poll p = { r with running := false } := by simp [poll, hs, hr, he]
          rw [hgone, polls_of_gone rfl]
          simp only [he, ↓reduceIte, List.append_nil]
      | data bytes =>
        have hnext : (r.poll p).running = true := by simp [poll, hs, hr, h]
        rw [ih hnext]
        simp [poll, hs, hr]

/-- Nothing but received bytes makes a call. -/
theorem poll_calls_of_nil {p : Poll} (h : p.data = []) (r : Receiver) :
    (r.poll p).calls = r.calls := by
  unfold Poll.data at h
  unfold poll
  by_cases hs : p.stopped = true
  · rw [if_pos hs]
  · rw [if_neg hs] at h ⊢
    cases hr : p.result with
    | shutdown => rfl
    | error errno => by_cases he : errno = EAGAIN ∨ errno = EWOULDBLOCK ∨ errno = EINTR <;> simp [he]
    | data bytes =>
      have hz : bytes = [] := by simpa [hr] using h
      simp [hz, Packer.unpack]

theorem poll_calls_of_frame {p : Poll} {f : Frame} {rest : List UInt8}
    (h : p.data = f.bytes ++ rest) (hsize : p.data.length ≤ 4096) (r : Receiver) :
    (r.poll p).calls = r.calls ++ [f.message] := by
  have hlen := f.bytes_length
  have hne : p.data ≠ [] := by
    rw [h]
    exact List.append_ne_nil_of_left_ne_nil (List.ne_nil_of_length_pos (by omega)) rest
  obtain ⟨hs, hr⟩ := Poll.result_of_data hne
  have hm := (holds_append.mp (holds_ofBytes (f.bytes ++ rest) r.buf)).1
  have hfit : f.bytes.length ≤ (UInt64.ofNat (f.bytes ++ rest).length).toNat := by
    rw [h] at hsize
    rw [UInt64.toNat_ofNat']
    simp only [List.length_append] at hsize ⊢
    omega
  simp only [poll, hs, hr, h, unpack_of_frame p.raw hm hfit, Bool.false_eq_true, ↓reduceIte]

end Receiver

/-- One direction of a connection: the send thread at one end, the bytes its socket has accepted
and the other end has not read, and the receive thread at the other end. -/
structure Link where
  loop : SendLoop
  wire : List UInt8
  receiver : Receiver

inductive LinkEvent where
  | sender (e : SendEvent)
  | recv (p : Poll)
  | reconnect (buf : Mem) -- the connection is lost, and another receive thread is started

namespace Link

def initial (buf : Mem) : Link := ⟨.initial, [], ⟨buf, true, []⟩⟩

/-- What an event of the send thread adds to the stream. -/
def transmitted : SendPhase → SendEvent → List UInt8
  | .holding p, .send r => p.bytes.take r.count
  | _, _ => []

/-- `recv` returns at most `sizeof(buf)` of the bytes that have been sent and not read. -/
def step (s : Link) : LinkEvent → Option Link
  | .sender e =>
    (s.loop.step e).map fun loop =>
      { s with loop := loop, wire := s.wire ++ transmitted s.loop.phase e }
  | .recv p =>
    if s.receiver.running = true ∧ p.data.length ≤ 4096 ∧ p.data <+: s.wire then
      some { s with wire := s.wire.drop p.data.length, receiver := s.receiver.poll p }
    else none
  | .reconnect buf => some { s with wire := [], receiver := ⟨buf, true, s.receiver.calls⟩ }

end Link

end VehicleCloud
