import VehicleCloud.ControllerRecv
import VehicleCloud.Frame

namespace VehicleCloud

open ByteStream

theorem unpack_calls_le_one (raw : Raw) (size : UInt64) (mem : Mem) :
    (Packer.unpack raw false size mem 0).value.length ≤ 1 := by
  by_cases hz : size = 0
  · simp [Packer.unpack, hz]
  by_cases hid : mem 0 = 0xF2
  swap
  · simp [Packer.unpack_of_no_identifier raw hz hid]
  cases hk : overloadOf (mem 5) with
  | none => simp [Packer.unpack_of_unknown raw hz hid hk]
  | some k =>
    by_cases hs : size.toNat < 16
    · obtain ⟨c, _, hv, _⟩ := Packer.unpack_of_short raw hz hid hk hs
      simp [hv]
    · by_cases hd : size.toNat < 16 + declaredLength mem
      · obtain ⟨h, hm⟩ := MessageHeader.exists_header mem true
        simp [Packer.unpack_of_truncated raw hid hk hm (by omega) hd]
      · obtain ⟨c, rfl, hc, hm⟩ := exists_call hk
        rw [Packer.unpack_of_layout raw hid hk hc hm (by omega)]
        simp

namespace Controller

/-- However the stream is cut, a result of `recv` gives rise to at most one handler call. -/
theorem sock_recv_thread_calls_le (buf : Mem) (polls : List Poll) :
    (sock_recv_thread buf polls).length ≤ polls.length := by
  induction polls generalizing buf with
  | nil => exact Nat.le_refl 0
  | cons p rest ih =>
    simp only [sock_recv_thread]
    split
    next => exact Nat.zero_le _
    next =>
      split
      next => exact Nat.zero_le _
      next errno _ =>
        split
        next => exact Nat.le_succ_of_le (ih buf)
        next => exact Nat.zero_le _
      next bytes _ =>
        have hone := unpack_calls_le_one p.raw (UInt64.ofNat bytes.length) (Mem.ofBytes bytes buf)
        have hrest := ih (Mem.ofBytes bytes buf)
        simp only [List.length_append, List.length_cons]
        omega

/-- A round of a running receive thread in which `recv` returned `bytes`. -/
def arrival (raw : Raw) (bytes : List UInt8) : Poll := ⟨false, .data bytes, raw⟩

/-- A result that begins with a whole frame: one call for it, and the rest of it is dropped. -/
theorem sock_recv_thread_frame {f : Frame} {rest : List UInt8}
    (hsize : (f.bytes ++ rest).length ≤ 4096) (raw : Raw) (buf : Mem) (polls : List Poll) :
    sock_recv_thread buf (arrival raw (f.bytes ++ rest) :: polls) =
      f.message :: sock_recv_thread (Mem.ofBytes (f.bytes ++ rest) buf) polls := by
  have hm : Holds (Mem.ofBytes (f.bytes ++ rest) buf) 0 f.bytes :=
    (holds_append.mp (holds_ofBytes (f.bytes ++ rest) buf)).1
  have hs : f.bytes.length ≤ (UInt64.ofNat (f.bytes ++ rest).length).toNat := by
    rw [UInt64.toNat_ofNat']
    simp only [List.length_append] at hsize ⊢
    omega
  simp only [sock_recv_thread, arrival, Bool.false_eq_true, ↓reduceIte, unpack_of_frame raw hm hs,
    List.singleton_append]

theorem sock_recv_thread_frames (buf : Mem) (parts : List (Raw × Frame × List UInt8))
    (hsize : ∀ p ∈ parts, (p.2.1.bytes ++ p.2.2).length ≤ 4096) :
    sock_recv_thread buf (parts.map fun p => arrival p.1 (p.2.1.bytes ++ p.2.2)) =
      parts.map fun p => p.2.1.message := by
  induction parts generalizing buf with
  | nil => rfl
  | cons p rest ih =>
    simp only [List.map_cons]
    rw [sock_recv_thread_frame (hsize p (by simp)) p.1 buf,
      ih _ (fun q hq => hsize q (List.mem_cons_of_mem p hq))]

/-- The receive threads decode each result of `recv` by itself, from its first byte: never more
than one call for a result, and the leading frame's message for a result that holds one. -/
theorem recv_threads_deliver_leading_frames (buf : Mem) :
    (∀ polls, (up_sock_recv_thread buf polls).length ≤ polls.length ∧
      (down_sock_recv_thread buf polls).length ≤ polls.length) ∧
    ∀ parts : List (Raw × Frame × List UInt8),
      (∀ p ∈ parts, (p.2.1.bytes ++ p.2.2).length ≤ 4096) →
      up_sock_recv_thread buf (parts.map fun p => arrival p.1 (p.2.1.bytes ++ p.2.2)) =
        parts.map (fun p => p.2.1.message) ∧
      down_sock_recv_thread buf (parts.map fun p => arrival p.1 (p.2.1.bytes ++ p.2.2)) =
        parts.map (fun p => p.2.1.message) := by
  refine ⟨fun polls => ?_, fun parts hsize => ?_⟩
  · exact ⟨sock_recv_thread_calls_le buf polls, sock_recv_thread_calls_le buf polls⟩
  · exact ⟨sock_recv_thread_frames buf parts hsize, sock_recv_thread_frames buf parts hsize⟩

def heartbeat : Frame where
  message := .header { data_len := 0, data_type := HEARTBEAT, version := 1, timestamp := 0, ctrl := 0xFC }
  valid := ⟨rfl, by decide, trivial, by decide⟩
  slack := []
  length := rfl

theorem recv_threads_deliver_heartbeat :
    up_sock_recv_thread (fun _ => 0) [arrival default (heartbeat.bytes ++ heartbeat.bytes)] =
      [heartbeat.message] := by
  have h := (recv_threads_deliver_leading_frames fun _ => 0).2
    [(default, heartbeat, heartbeat.bytes)] (by decide)
  exact h.1

/-- Two frames in one result: the second one is lost. -/
theorem coalesced_frames_dropped :
    ¬ ∀ (buf : Mem) (frames : List Frame) (results : List (List UInt8)),
      (∀ r ∈ results, 1 ≤ r.length ∧ r.length ≤ 4096) →
      results.flatten = frames.flatMap Frame.bytes →
      up_sock_recv_thread buf (results.map (arrival default)) = frames.map Frame.message := by
  intro h
  have hlost := h (fun _ => 0) [heartbeat, heartbeat] [heartbeat.bytes ++ heartbeat.bytes]
    (by decide) (by decide)
  revert hlost
  decide

end Controller

end VehicleCloud
