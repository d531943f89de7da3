import Mathlib.Data.Set.List
import VehicleCloud.PrefixCode
import VehicleCloud.RecvStream
import VehicleCloud.SendOrder

namespace VehicleCloud

open ByteStream Transition

namespace Frame

/-- The handler calls for a piece of a stream that is unpacked by itself. -/
def decoded (bs : List UInt8) : List Call :=
  (Packer.unpack default false (UInt64.ofNat bs.length) (Mem.ofBytes bs fun _ => 0) 0).value

theorem decoded_bytes (f : Frame) : decoded f.bytes = [f.message] := by
  have hd := f.message.head.data_len.toNat_lt
  refine unpack_of_frame default (holds_ofBytes _ _) ?_
  rw [UInt64.toNat_ofNat', f.bytes_length]
  omega

theorem flatMap_decoded (fs : List Frame) : (fs.map bytes).flatMap decoded = fs.map message := by
  induction fs with
  | nil => rfl
  | cons f fs ih =>
    rw [List.map_cons, List.flatMap_cons, decoded_bytes, ih]
    rfl

/-- The length field lies within the sixteen bytes that every frame has. -/
theorem eq_of_prefix {f g : Frame} (h : f.bytes <+: g.bytes) : f.bytes = g.bytes := by
  obtain ⟨rest, hr⟩ := h
  have hg := holds_ofBytes g.bytes fun _ => 0
  have hf : Holds (Mem.ofBytes g.bytes fun _ => 0) 0 f.bytes := by
    rw [← hr] at hg ⊢
    exact (holds_append.mp hg).1
  have hd := (header_data_len (holds_head hf)).symm.trans (header_data_len (holds_head hg))
  have hlen : f.bytes.length = g.bytes.length := by rw [bytes_length, bytes_length, hd]
  exact List.IsPrefix.eq_of_length ⟨rest, hr⟩ hlen

theorem prefixCode : PrefixCode bytes where
  nonempty f := List.ne_nil_of_length_pos (by rw [bytes_length]; omega)
  free _ _ := eq_of_prefix

theorem messages_grow {fs gs : List Frame} (h : fs.map bytes <+: gs.map bytes) :
    fs.map message <+: gs.map message := by
  obtain ⟨rest, hr⟩ := h
  rw [← flatMap_decoded fs, ← flatMap_decoded gs, ← hr, List.flatMap_append]
  exact List.prefix_append _ _

/-- A stream that begins with frames, and is cut off anywhere, has no two readings: a longer one
only adds messages. -/
theorem frame_streams_agree {fs gs : List Frame} {r s : List UInt8}
    (h : fs.flatMap bytes ++ r = gs.flatMap bytes ++ s) :
    fs.map message <+: gs.map message ∨ gs.map message <+: fs.map message := by
  rcases prefixCode.comparable h with hp | hp
  · exact Or.inl (messages_grow hp)
  · exact Or.inr (messages_grow hp)

theorem frame_streams_agree_heartbeats :
    [Controller.heartbeat.message] <+: [Controller.heartbeat.message, Controller.heartbeat.message] ∨
      [Controller.heartbeat.message, Controller.heartbeat.message] <+: [Controller.heartbeat.message] := by
  have h : [Controller.heartbeat].flatMap bytes ++ Controller.heartbeat.bytes =
      [Controller.heartbeat, Controller.heartbeat].flatMap bytes ++ [] := rfl
  exact frame_streams_agree h

end Frame

def IsFrame (bs : List UInt8) : Prop := ∃ f : Frame, f.bytes = bs

theorem exists_frames {bss : List (List UInt8)} (h : ∀ bs ∈ bss, IsFrame bs) :
    ∃ fs : List Frame, fs.map Frame.bytes = bss := by
  have hall : bss ∈ Set.range (List.map Frame.bytes) := by
    rw [Set.range_list_map]
    exact h
  exact hall

def beat : MessageBuffer := ⟨16, Controller.heartbeat.bytes⟩

theorem beat_framed : IsFrame (MessageBuffer.frame (some beat)) := ⟨Controller.heartbeat, rfl⟩

namespace SendLoop

/-- The messages that the buffers put so far carry. -/
def messages (s : SendLoop) : List Call := s.puts.flatMap fun p => Frame.decoded (MessageBuffer.frame p)

/-- Whatever a peer reads off the connection, at any moment and frame by frame, are the first of the
messages put, as long as each call of `::send` takes its whole buffer and each wakeup finds one. -/
theorem accepted_reads_as_put {es : List SendEvent} {s : SendLoop}
    (hrun : Run step (fun s e => s.SendsWhole e ∧ s.WakesOnItem e) initial es s)
    (hputs : ∀ p ∈ s.puts, IsFrame (MessageBuffer.frame p))
    {gs : List Frame} {r : List UInt8} (h : s.accepted = gs.flatMap Frame.bytes ++ r) :
    gs.map Frame.message <+: s.messages := by
  obtain ⟨hsound, hs⟩ := run_invariants hrun
  have horder := (delivered_of_invariants hsound.queued hs).in_order
  have hall : ∀ bs ∈ s.puts.map MessageBuffer.frame, IsFrame bs := List.forall_mem_map.mpr hputs
  obtain ⟨fs, hfs⟩ := exists_frames hall
  have hmessages : s.messages = fs.map Frame.message := by
    rw [← Frame.flatMap_decoded, hfs, List.flatMap_map, messages]
  rw [List.flatMap_def, ← hfs, ← List.flatMap_def, h] at horder
  have hpart := (List.prefix_append _ _).trans horder
  rw [hmessages]
  exact Frame.messages_grow (Frame.prefixCode.map_isPrefix hpart)

/-- The first of two heartbeats has been accepted. -/
theorem accepted_reads_as_put_heartbeats :
    ∃ s : SendLoop, s.accepted = beat.bytes ∧ s.messages.length = 2 ∧
      [Controller.heartbeat.message] <+: s.messages := by
  have hrun : Run step (fun s e => s.SendsWhole e ∧ s.WakesOnItem e) initial
      [.start, .put (some beat), .put (some beat), .test false, .take, .send (.sent 16)]
      ⟨⟨[some beat, some beat]⟩, .sent beat, [some beat, some beat], [(beat, .sent 16)], []⟩ :=
    run_of_exec (by decide)
  have hread : beat.bytes.take 16 ++ [] = [Controller.heartbeat].flatMap Frame.bytes ++ [] := by decide
  refine ⟨_, ?_, ?_, accepted_reads_as_put hrun ?_ hread⟩
  · decide
  · decide
  · intro p hp
    have hb : p = some beat := by simpa using hp
    rw [hb]
    exact beat_framed

end SendLoop

end VehicleCloud
