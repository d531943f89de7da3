import Mathlib.Data.List.Flatten
import VehicleCloud.Channel
import VehicleCloud.FrameStream
import VehicleCloud.Link

namespace VehicleCloud

open ByteStream Transition

namespace SendLoop

/-- The buffers of the queue that `::send` was not yet called on. -/
def unsent (s : SendLoop) : List (Option MessageBuffer) :=
  s.queue.items.drop (unreturned s.phase).length

def offers : SendEvent → List (Option MessageBuffer)
  | .put p => [p]
  | _ => []

def sends : SendPhase → SendEvent → List (Option MessageBuffer)
  | .holding p, .send _ => [some p]
  | _, _ => []

theorem unsent_of_idle {s : SendLoop} (h : unreturned s.phase = []) : s.unsent = s.queue.items := by
  rw [unsent, h]
  rfl

theorem unsent_wake (s : SendLoop) : s.wake.unsent = s.unsent := by
  rw [unsent, unsent, wake_queue, wake_congr unreturned rfl]

theorem unsent_taken {s : SendLoop} (h : unreturned s.phase = [])
    (t : BlockQueue.Taken (Option MessageBuffer)) : (s.taken t).unsent = s.unsent := by
  rw [unsent_of_idle h]
  cases t with
  | waits => rfl
  | undefined => rfl
  | front a => cases a <;> rfl

theorem taken_puts (s : SendLoop) (t : BlockQueue.Taken (Option MessageBuffer)) :
    (s.taken t).puts = s.puts := by
  cases t with
  | waits => rfl
  | undefined => rfl
  | front a => cases a <;> rfl

/-- Each buffer becomes unsent by `put` and ceases to be by `::send`. -/
theorem step_unsent {s t : SendLoop} {e : SendEvent} (hq : s.Queued) (h : s.step e = some t) :
    t.puts = s.puts ++ offers e ∧ s.unsent ++ offers e = sends s.phase e ++ t.unsent := by
  cases e with
  | put p =>
    cases Option.some.inj h
    refine ⟨by simp [offers], ?_⟩
    rw [unsent_wake]
    have hle : (unreturned s.phase).length ≤ s.queue.items.length := by
      cases hp : s.phase with
      | sent q =>
        obtain ⟨rest, hitems⟩ := hq.sent_head hp
        simp [hitems, unreturned]
      | _ => exact Nat.zero_le _
    have hsends : sends s.phase (.put p) = [] := by cases s.phase <;> rfl
    simp only [unsent, offers, hsends, BlockQueue.put_items, List.nil_append,
      List.drop_append_of_le_length hle]
  | notify =>
    cases Option.some.inj h
    have hsends : sends s.phase .notify = [] := by cases s.phase <;> rfl
    simp [offers, hsends, unsent_wake]
  | spurious =>
    obtain ⟨hp, rfl⟩ := of_guard h
    simp [offers, hp, sends, unsent_wake]
  | start =>
    obtain ⟨hp, rfl⟩ := of_guard h
    simp [offers, hp, sends, unsent, unreturned]
  | test stopped =>
    obtain ⟨hp, rfl⟩ := of_guard h
    cases stopped <;> simp [offers, hp, sends, unsent, unreturned]
  | take =>
    obtain ⟨hp, rfl⟩ := of_guard h
    have hidle : unreturned s.phase = [] := by rw [hp]; rfl
    simp [offers, hp, sends, unsent_taken hidle, taken_puts]
  | resume =>
    obtain ⟨hp, rfl⟩ := of_guard h
    have hidle : unreturned s.phase = [] := by rw [hp]; rfl
    simp [offers, hp, sends, unsent_taken hidle, taken_puts]
  | garbage p =>
    obtain ⟨hp, rfl⟩ := of_guard h
    have hidle : unreturned s.phase = [] := by rw [hp]; rfl
    simp [offers, hp, sends, unsent_taken hidle, taken_puts]
  | send r =>
    obtain ⟨p, hp, _, rfl⟩ := of_step_send h
    obtain ⟨rest, hitems⟩ := List.head?_eq_some_iff.mp (hq.front p (by rw [hp]; rfl))
    simp [offers, hp, sends, unsent, unreturned, hitems]
  | pull =>
    obtain ⟨p, hp, rfl⟩ := of_step_pull h
    obtain ⟨rest, hitems⟩ := hq.sent_head hp
    simp [offers, hp, sends, unsent, unreturned, hitems, BlockQueue.pull_cons hitems]

end SendLoop

def LinkEvent.offers : LinkEvent → List (Option MessageBuffer)
  | .sender e => SendLoop.offers e
  | .recv _ | .reconnect _ => []

namespace Link

theorem step_puts {s t : Link} {e : LinkEvent} (hq : s.loop.Queued) (h : s.step e = some t) :
    t.loop.puts = s.loop.puts ++ e.offers := by
  cases e with
  | sender e =>
    obtain ⟨loop, hl, rfl⟩ := Option.map_eq_some_iff.mp h
    exact (SendLoop.step_unsent hq hl).1
  | recv p =>
    obtain ⟨_, rfl⟩ := of_guard h
    exact (List.append_nil _).symm
  | reconnect buf =>
    cases Option.some.inj h
    exact (List.append_nil _).symm

/-- Every wakeup of the send thread finds an item in its queue. -/
def Wakes (s : Link) : LinkEvent → Prop
  | .sender e => s.loop.WakesOnItem e
  | .recv _ | .reconnect _ => True

theorem step_sound {s t : Link} {e : LinkEvent} (hs : s.loop.Sound) (hok : s.Wakes e)
    (h : s.step e = some t) : t.loop.Sound := by
  cases e with
  | sender e =>
    obtain ⟨loop, hl, rfl⟩ := Option.map_eq_some_iff.mp h
    exact SendLoop.step_sound hs hok hl
  | recv p =>
    obtain ⟨_, rfl⟩ := of_guard h
    exact hs
  | reconnect buf =>
    cases Option.some.inj h
    exact hs

/-- What is put is a frame, a call of `::send` takes all of it or nothing, and a result of `recv`
ends where a frame does. -/
def Framed (s : Link) : LinkEvent → Prop
  | .sender (.put p) => IsFrame (MessageBuffer.frame p)
  | .sender (.send r) => r.count = 0 ∨ ∀ p ∈ SendLoop.inHand s.loop.phase, r.count = p.size.toNat
  | .recv p => p.data = [] ∨ ∃ (f : Frame) (fs : List Frame), p.data = f.bytes ++ fs.flatMap Frame.bytes
  | _ => True

/-- No call of `::send` fails, no two frames come in one result, and the connection lasts. -/
def Lossless (s : Link) : LinkEvent → Prop
  | .sender e => s.loop.SendsWhole e
  | .recv p => p.data = [] ∨ IsFrame p.data
  | .reconnect _ => False

/-- The link as a channel of frames. -/
structure Refines (s : Link) (c : Channel (List UInt8)) : Prop where
  sound : s.loop.Sound
  offered : c.offered = s.loop.puts.map MessageBuffer.frame
  queued : c.queued = s.loop.unsent.map MessageBuffer.frame
  flying : s.wire = c.flying.flatten
  frames : ∀ bs ∈ c.flying ++ c.queued, IsFrame bs
  delivered : s.receiver.calls = c.delivered.flatMap Frame.decoded

theorem initial_refines (buf : Mem) : (initial buf).Refines Channel.initial :=
  ⟨SendLoop.initial_sound, rfl, rfl, rfl, nofun, rfl⟩

/-- A result that ends where a frame does is made of the words that are flying. -/
theorem flying_of_data {flying : List (List UInt8)} (hframes : ∀ bs ∈ flying, IsFrame bs)
    {fs : List Frame} (h : fs.flatMap Frame.bytes <+: flying.flatten) :
    ∃ rest, flying = fs.map Frame.bytes ++ rest := by
  obtain ⟨gs, rfl⟩ := exists_frames hframes
  rw [← List.flatMap_def] at h
  obtain ⟨rest, hr⟩ := Frame.prefixCode.map_isPrefix h
  exact ⟨rest, hr.symm⟩

theorem transmitted_of_not_send {q : SendPhase} {e : SendEvent} (h : SendLoop.sends q e = []) :
    transmitted q e = [] := by
  cases q <;> cases e <;> first | rfl | cases h

/-- A step of the send thread with no part in the transfer. -/
theorem quiet_refines {s : Link} {c : Channel (List UInt8)} {loop : SendLoop} {e : SendEvent}
    (hs : s.Refines c) (ho : SendLoop.offers e = []) (hn : SendLoop.sends s.loop.phase e = [])
    (hw : s.loop.WakesOnItem e) (h : s.loop.step e = some loop) :
    Refines { s with loop := loop, wire := s.wire ++ transmitted s.loop.phase e } c := by
  obtain ⟨hputs, hunsent⟩ := SendLoop.step_unsent hs.sound.queued h
  rw [ho, List.append_nil] at hputs
  rw [ho, hn, List.append_nil, List.nil_append] at hunsent
  constructor
  · exact SendLoop.step_sound hs.sound hw h
  · exact hs.offered.trans (by rw [hputs])
  · exact hs.queued.trans (by rw [hunsent])
  · simpa only [transmitted_of_not_send hn, List.append_nil] using hs.flying
  · exact hs.frames
  · exact hs.delivered

theorem put_refines {s : Link} {c : Channel (List UInt8)} {loop : SendLoop}
    {p : Option MessageBuffer} (hs : s.Refines c) (hp : IsFrame (MessageBuffer.frame p))
    (h : s.loop.step (.put p) = some loop) :
    Refines { s with loop := loop, wire := s.wire ++ transmitted s.loop.phase (.put p) }
      { c with offered := c.offered ++ [MessageBuffer.frame p],
               queued := c.queued ++ [MessageBuffer.frame p] } := by
  obtain ⟨hputs, hunsent⟩ := SendLoop.step_unsent hs.sound.queued h
  have hn : SendLoop.sends s.loop.phase (.put p) = [] := by cases s.loop.phase <;> rfl
  rw [hn, List.nil_append] at hunsent
  constructor
  · exact SendLoop.step_sound hs.sound (by rintro (he | he) <;> cases he) h
  · simp [hputs, hs.offered, SendLoop.offers]
  · simp [← hunsent, hs.queued, SendLoop.offers]
  · simpa only [transmitted_of_not_send hn, List.append_nil] using hs.flying
  · intro bs hbs
    rw [← List.append_assoc] at hbs
    rcases List.mem_append.mp hbs with hold | hnew
    · exact hs.frames bs hold
    · rw [List.mem_singleton] at hnew
      rw [hnew]
      exact hp
  · exact hs.delivered

/-- A call of `::send` moves the next frame to the connection, or off the queue only. -/
theorem send_refines {s : Link} {c : Channel (List UInt8)} {loop : SendLoop} {r : SendResult}
    (hs : s.Refines c) (hok : s.Framed (.sender (.send r)))
    (h : s.loop.step (.send r) = some loop) :
    ∃ e d, c.step e = some d ∧ (s.Lossless (.sender (.send r)) → c.Keeps e) ∧
      Refines { s with loop := loop, wire := s.wire ++ transmitted s.loop.phase (.send r) } d := by
  obtain ⟨hputs, hunsent⟩ := SendLoop.step_unsent hs.sound.queued h
  obtain ⟨p, hp, _, _⟩ := SendLoop.of_step_send h
  have hsends : SendLoop.sends s.loop.phase (.send r) = [some p] := by rw [hp]; rfl
  have hsent : transmitted s.loop.phase (.send r) = p.bytes.take r.count := by rw [hp]; rfl
  have ho : SendLoop.offers (.send r) = [] := rfl
  rw [ho, List.append_nil] at hputs
  rw [ho, hsends, List.append_nil, List.singleton_append] at hunsent
  have hqueued : c.queued = p.bytes :: loop.unsent.map MessageBuffer.frame := by
    rw [hs.queued, hunsent]
    rfl
  have hmem : ∀ bs ∈ loop.unsent.map MessageBuffer.frame, bs ∈ c.queued := by
    intro bs hbs
    rw [hqueued]
    exact List.mem_cons_of_mem _ hbs
  have hrest : ∀ bs ∈ c.flying ++ loop.unsent.map MessageBuffer.frame, IsFrame bs := by
    intro bs hbs
    rcases List.mem_append.mp hbs with hf | hq
    · exact hs.frames bs (List.mem_append_left _ hf)
    · exact hs.frames bs (List.mem_append_right _ (hmem bs hq))
  have hsound := SendLoop.step_sound hs.sound (by rintro (he | he) <;> cases he) h
  by_cases hwhole : r.count = p.size.toNat
  · refine ⟨.transmit, ⟨c.offered, loop.unsent.map MessageBuffer.frame, c.flying ++ [p.bytes],
      c.delivered⟩, ?_, fun _ => trivial, ?_⟩
    · simp only [Channel.step, hqueued]
    · rw [hsent, SendLoop.take_bytes hwhole]
      refine ⟨hsound, hs.offered.trans (by rw [hputs]), rfl, ?_, ?_, hs.delivered⟩
      · simp [hs.flying]
      · intro bs hbs
        rw [List.append_assoc] at hbs
        apply hs.frames
        rw [hqueued]
        exact hbs
  · have hinHand : p ∈ SendLoop.inHand s.loop.phase := by rw [hp]; rfl
    have hzero : r.count = 0 := hok.resolve_right fun hall => hwhole (hall p hinHand)
    refine ⟨.drop, { c with queued := loop.unsent.map MessageBuffer.frame }, ?_, ?_, ?_⟩
    · simp only [Channel.step, hqueued]
    · intro hall
      exact absurd (hall p hinHand) hwhole
    · rw [hsent, hzero, List.take_zero, List.append_nil]
      exact ⟨hsound, hs.offered.trans (by rw [hputs]), rfl, hs.flying, hrest, hs.delivered⟩

/-- The first frame of a result is delivered, and those behind it are lost. -/
theorem recv_refines {s : Link} {c : Channel (List UInt8)} {p : Poll} {f : Frame} {fs : List Frame}
    (hs : s.Refines c) (hdata : p.data = f.bytes ++ fs.flatMap Frame.bytes)
    (hsize : p.data.length ≤ 4096) (hwire : p.data <+: s.wire) :
    ∃ d, c.step (.deliver fs.length) = some d ∧
      Refines { s with wire := s.wire.drop p.data.length, receiver := s.receiver.poll p } d := by
  have hwords : (f :: fs).flatMap Frame.bytes <+: c.flying.flatten := by
    rw [List.flatMap_cons, ← hdata, ← hs.flying]
    exact hwire
  obtain ⟨rest, hrest⟩ := flying_of_data
    (fun bs hbs => hs.frames bs (List.mem_append_left _ hbs)) hwords
  have hflying : c.flying = f.bytes :: (fs.map Frame.bytes ++ rest) := by
    rw [hrest, List.map_cons, List.cons_append]
  have hdrop : (fs.map Frame.bytes ++ rest).drop fs.length = rest := by
    rw [← List.length_map Frame.bytes, List.drop_left]
  refine ⟨⟨c.offered, c.queued, rest, c.delivered ++ [f.bytes]⟩, ?_, ?_⟩
  · simp only [Channel.step, hflying, hdrop]
  · refine ⟨hs.sound, hs.offered, hs.queued, ?_, ?_, ?_⟩
    · have hall : s.wire = p.data ++ rest.flatten := by
        rw [hs.flying, hflying, hdata]
        simp [List.flatMap_def]
      simp only [hall, List.drop_left]
    · intro bs hbs
      apply hs.frames
      rw [hflying]
      rcases List.mem_append.mp hbs with hr | hq
      · exact List.mem_append_left _ (List.mem_cons_of_mem _ (List.mem_append_right _ hr))
      · exact List.mem_append_right _ hq
    · simp only [Receiver.poll_calls_of_frame hdata hsize, hs.delivered, List.flatMap_append,
        List.flatMap_singleton, Frame.decoded_bytes]

/-- One frame is not two. -/
theorem no_more_of_isFrame {f : Frame} {fs : List Frame}
    (h : f.bytes ++ fs.flatMap Frame.bytes = [] ∨ IsFrame (f.bytes ++ fs.flatMap Frame.bytes)) :
    fs.length = 0 := by
  rcases h with hnil | ⟨g, hg⟩
  · exact absurd (List.append_eq_nil_iff.mp hnil).1 (Frame.prefixCode.nonempty f)
  · have hwords : (f :: fs).flatMap Frame.bytes ++ [] = [g].flatMap Frame.bytes := by
      rw [List.append_nil, List.flatMap_cons, ← hg, List.flatMap_singleton]
    have hlen := (Frame.prefixCode.map_isPrefix ⟨[], hwords⟩).length_le
    simp only [List.map_cons, List.length_cons, List.length_map, List.map_nil, List.length_nil] at hlen
    omega

theorem reconnect_refines {s : Link} {c : Channel (List UInt8)} (hs : s.Refines c) (buf : Mem) :
    Refines { s with wire := [], receiver := ⟨buf, true, s.receiver.calls⟩ }
      { c with flying := [] } := by
  refine ⟨hs.sound, hs.offered, hs.queued, rfl, fun bs hbs => ?_, hs.delivered⟩
  exact hs.frames bs (List.mem_append_right _ hbs)

/-- What the channel may do for a step of the link. -/
theorem step_refines {s t : Link} {c : Channel (List UInt8)} {e : LinkEvent} (hs : s.Refines c)
    (hok : s.Framed e) (hwakes : s.Wakes e) (h : s.step e = some t) :
    ∃ fs d, AnyRun Channel.step c fs d ∧ (s.Lossless e → Run Channel.step Channel.Keeps c fs d) ∧
      t.Refines d := by
  cases e with
  | sender e =>
    obtain ⟨loop, hl, rfl⟩ := Option.map_eq_some_iff.mp h
    have hquiet (ho : SendLoop.offers e = []) (hn : SendLoop.sends s.loop.phase e = []) :=
      quiet_refines hs ho hn hwakes hl
    cases e with
    | put p =>
      exact ⟨[.put _], _, Run.single trivial rfl, fun _ => Run.single trivial rfl,
        put_refines hs hok hl⟩
    | send r =>
      obtain ⟨e, d, hstep, hkeeps, hd⟩ := send_refines hs hok hl
      exact ⟨[e], d, Run.single trivial hstep, fun hall => Run.single (hkeeps hall) hstep, hd⟩
    | _ => exact ⟨[], c, Run.refl c, fun _ => Run.refl c, hquiet rfl (by cases s.loop.phase <;> rfl)⟩
  | recv p =>
    obtain ⟨⟨_, hsize, hwire⟩, rfl⟩ := of_guard h
    rcases hok with hnil | ⟨f, fs, hdata⟩
    · refine ⟨[], c, Run.refl c, fun _ => Run.refl c, ?_⟩
      refine ⟨hs.sound, hs.offered, hs.queued, ?_, hs.frames, ?_⟩
      · simpa only [hnil, List.length_nil, List.drop_zero] using hs.flying
      · rw [Receiver.poll_calls_of_nil hnil]
        exact hs.delivered
    · obtain ⟨d, hstep, hd⟩ := recv_refines hs hdata hsize hwire
      refine ⟨[.deliver fs.length], d, Run.single trivial hstep, fun hall => ?_, hd⟩
      have halone : p.data = [] ∨ IsFrame p.data := hall
      rw [hdata] at halone
      exact Run.single (no_more_of_isFrame halone) hstep
  | reconnect buf =>
    cases Option.some.inj h
    exact ⟨[.cut], _, Run.single trivial rfl, False.elim, reconnect_refines hs buf⟩

theorem framed_refines {buf : Mem} {es : List LinkEvent} {s : Link}
    (hrun : Run step (fun s e => s.Framed e ∧ s.Wakes e) (initial buf) es s) :
    ∃ fs c, AnyRun Channel.step Channel.initial fs c ∧ s.Refines c := by
  apply hrun.simulate (R := Refines) _ (initial_refines buf)
  intro s e t c hs hok h
  obtain ⟨fs, d, hrun, _, hd⟩ := step_refines hs hok.1 hok.2 h
  exact ⟨fs, d, hrun, hd⟩

theorem lossless_refines {buf : Mem} {es : List LinkEvent} {s : Link}
    (hrun : Run step (fun s e => (s.Framed e ∧ s.Lossless e) ∧ s.Wakes e) (initial buf) es s) :
    ∃ fs c, Run Channel.step Channel.Keeps Channel.initial fs c ∧ s.Refines c := by
  apply hrun.simulate (R := Refines) _ (initial_refines buf)
  intro s e t c hs hok h
  obtain ⟨fs, d, _, hkeeps, hd⟩ := step_refines hs hok.1.1 hok.2 h
  exact ⟨fs, d, hkeeps hok.1.2, hd⟩

theorem Refines.offered_messages {s : Link} {c : Channel (List UInt8)} (hs : s.Refines c) :
    s.loop.messages = c.offered.flatMap Frame.decoded := by
  rw [hs.offered, SendLoop.messages, List.flatMap_map]

/-- What is on its way, by frames, and what the channel carries, by messages. -/
theorem Refines.exists_pending {s : Link} {c : Channel (List UInt8)} (hs : s.Refines c) :
    ∃ fs : List Frame, s.wire = fs.flatMap Frame.bytes ∧
      c.carried.flatMap Frame.decoded = s.receiver.calls ++ (fs.map Frame.message ++
        s.loop.unsent.flatMap fun p => Frame.decoded (MessageBuffer.frame p)) := by
  obtain ⟨fs, hfs⟩ := exists_frames fun bs hbs => hs.frames bs (List.mem_append_left _ hbs)
  refine ⟨fs, ?_, ?_⟩
  · rw [hs.flying, ← hfs, List.flatMap_def]
  · rw [hs.delivered, Channel.carried, List.flatMap_append, List.flatMap_append, ← hfs,
      Frame.flatMap_decoded, hs.queued, List.flatMap_map]

/-- Sender, stream and receiver together are a channel of frames that may lose some: the receiver
gets messages that were put, each at most once and in their order, as long as every wakeup of the
sender finds an item. -/
theorem link_delivers_in_order {buf : Mem} {es : List LinkEvent} {s : Link}
    (hrun : Run step (fun s e => s.Framed e ∧ s.Wakes e) (initial buf) es s) :
    (∃ fs c, AnyRun Channel.step Channel.initial fs c ∧ s.Refines c) ∧
      s.receiver.calls.Sublist s.loop.messages := by
  obtain ⟨fs, c, hc, hs⟩ := framed_refines hrun
  refine ⟨⟨fs, c, hc, hs⟩, ?_⟩
  have hcarried := Channel.carried_sublist hc
  rw [hs.delivered, hs.offered_messages]
  exact ((List.sublist_append_left _ _).trans hcarried).flatMap _

theorem send_beat {s : SendLoop} (hp : s.phase = .holding beat) : s.SendsWhole (.send (.sent 16)) := by
  intro p hm
  rw [hp] at hm
  cases Option.some.inj hm
  rfl

/-- Two heartbeats are read in one go, and the second one is lost. -/
def coalesced : List LinkEvent :=
  [.sender .start, .sender (.put (some beat)), .sender (.put (some beat)), .sender (.test false),
    .sender .take, .sender (.send (.sent 16)), .sender .pull, .sender (.test false), .sender .take,
    .sender (.send (.sent 16)),
    .recv (Controller.arrival default (beat.bytes ++ beat.bytes))]

theorem link_delivers_in_order_coalesced :
    ∃ s : Link, s.receiver.calls.length = 1 ∧ s.loop.messages.length = 2 ∧
      s.receiver.calls.Sublist s.loop.messages := by
  have hrun : ∃ s, Run step Framed (initial fun _ => 0) coalesced s ∧
      s.receiver.calls.length = 1 ∧ s.loop.messages.length = 2 := by
    refine ⟨_, Run.cons trivial rfl (Run.cons beat_framed rfl (Run.cons beat_framed rfl
      (Run.cons trivial rfl (Run.cons trivial rfl (Run.cons (Or.inr (send_beat rfl)) rfl
        (Run.cons trivial rfl (Run.cons trivial rfl (Run.cons trivial rfl
          (Run.cons (Or.inr (send_beat rfl)) rfl (Run.cons ?_ rfl (Run.refl _))))))))))), ?_, ?_⟩
    · exact Or.inr ⟨Controller.heartbeat, [Controller.heartbeat], rfl⟩
    · decide
    · decide
  obtain ⟨s, hrun, hone, htwo⟩ := hrun
  have hwakes : ∀ e ∈ coalesced, ∀ s : Link, s.Wakes e := by
    simp [coalesced, Wakes, SendLoop.WakesOnItem]
  exact ⟨s, hone, htwo, (link_delivers_in_order (hrun.and Wakes hwakes)).2⟩

/-- As long as nothing fails, what was put and has not arrived is on the wire or in the queue. -/
theorem lossless_link_accounts_for_all {buf : Mem} {es : List LinkEvent} {s : Link}
    (hrun : Run step (fun s e => (s.Framed e ∧ s.Lossless e) ∧ s.Wakes e) (initial buf) es s) :
    ∃ fs : List Frame, s.wire = fs.flatMap Frame.bytes ∧
      s.loop.messages = s.receiver.calls ++ (fs.map Frame.message ++
        s.loop.unsent.flatMap fun p => Frame.decoded (MessageBuffer.frame p)) := by
  obtain ⟨_, c, hc, hs⟩ := lossless_refines hrun
  obtain ⟨fs, hwire, hpending⟩ := hs.exists_pending
  refine ⟨fs, hwire, ?_⟩
  rw [hs.offered_messages, ← Channel.carried_all hc, hpending]

/-- One heartbeat has arrived and another one is queued. -/
theorem lossless_link_accounts_for_all_heartbeats :
    ∃ s : Link, s.receiver.calls.length = 1 ∧ ∃ fs : List Frame, s.wire = fs.flatMap Frame.bytes ∧
      s.loop.messages = s.receiver.calls ++ (fs.map Frame.message ++
        s.loop.unsent.flatMap fun p => Frame.decoded (MessageBuffer.frame p)) := by
  have hrun : ∃ s, Run step (fun s e => s.Framed e ∧ s.Lossless e) (initial fun _ => 0)
      [.sender .start, .sender (.put (some beat)), .sender (.put (some beat)),
        .sender (.test false), .sender .take, .sender (.send (.sent 16)),
        .recv (Controller.arrival default beat.bytes)] s ∧ s.receiver.calls.length = 1 := by
    refine ⟨_, Run.cons ⟨trivial, trivial⟩ rfl (Run.cons ⟨beat_framed, trivial⟩ rfl
      (Run.cons ⟨beat_framed, trivial⟩ rfl (Run.cons ⟨trivial, trivial⟩ rfl
        (Run.cons ⟨trivial, trivial⟩ rfl
          (Run.cons ⟨Or.inr (send_beat rfl), send_beat rfl⟩ rfl (Run.cons ⟨?_, ?_⟩ rfl (Run.refl _))))))),
      ?_⟩
    · exact Or.inr ⟨Controller.heartbeat, [], rfl⟩
    · exact Or.inr ⟨Controller.heartbeat, rfl⟩
    · decide
  obtain ⟨s, hrun, hone⟩ := hrun
  have hwakes := hrun.and Wakes (by simp [Wakes, SendLoop.WakesOnItem])
  exact ⟨s, hone, lossless_link_accounts_for_all hwakes⟩

end Link

end VehicleCloud
