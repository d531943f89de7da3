import VehicleCloud.LinkChannel
import VehicleCloud.SendProgress

namespace VehicleCloud

open ByteStream Transition

namespace Link

/-- A step of one of the two threads with nothing in its way: the one is not told to stop, and the
other receives a frame. -/
def Serves (s : Link) : LinkEvent → Prop
  | .sender e => s.loop.Works e ∧ s.loop.SendsWhole e
  | .recv p => IsFrame p.data
  | .reconnect _ => False

theorem framed_of_serves {s : Link} {e : LinkEvent} (h : s.Serves e) :
    (s.Framed e ∧ s.Wakes e) ∧ s.Lossless e ∧ e.offers = [] := by
  cases e with
  | sender e =>
    have hwakes := SendLoop.works_wakesOnItem h.1
    cases e with
    | put p => exact h.1.elim
    | send r => exact ⟨⟨Or.inr h.2, hwakes⟩, h.2, rfl⟩
    | _ => exact ⟨⟨trivial, hwakes⟩, h.2, rfl⟩
  | recv p =>
    obtain ⟨f, hf⟩ := h
    exact ⟨⟨Or.inr ⟨f, [], by simp [hf]⟩, trivial⟩, Or.inr ⟨f, hf⟩, rfl⟩
  | reconnect buf => exact h.elim

theorem isFrame_ne_nil {bs : List UInt8} (h : IsFrame bs) : bs ≠ [] := by
  obtain ⟨f, rfl⟩ := h
  exact Frame.prefixCode.nonempty f

/-- What holds of both ends, and of the channel that they are, whatever is lost. -/
structure Flows (s : Link) (c : Channel (List UInt8)) : Prop where
  loop : s.loop.Regular
  frames : ∀ p ∈ s.loop.puts, IsFrame (MessageBuffer.frame p)
  channel : s.Refines c
  carried : c.carried.Sublist c.offered

theorem initial_flows (buf : Mem) : (initial buf).Flows Channel.initial :=
  ⟨SendLoop.initial_regular, fun _ hp => absurd hp List.not_mem_nil, initial_refines buf,
    List.Sublist.refl []⟩

theorem frames_of_offers {s : Link} {e : LinkEvent} (hok : s.Framed e) :
    ∀ p ∈ e.offers, IsFrame (MessageBuffer.frame p) := by
  cases e with
  | sender e =>
    cases e with
    | put p =>
      intro q hq
      cases List.mem_singleton.mp hq
      exact hok
    | _ => exact fun _ hp => absurd hp List.not_mem_nil
  | recv p => exact fun _ hp => absurd hp List.not_mem_nil
  | reconnect buf => exact fun _ hp => absurd hp List.not_mem_nil

theorem step_regular {s t : Link} {e : LinkEvent} (hs : s.loop.Regular) (hwakes : s.Wakes e)
    (h : s.step e = some t) : t.loop.Regular := by
  cases e with
  | sender e =>
    obtain ⟨loop, hl, rfl⟩ := Option.map_eq_some_iff.mp h
    exact SendLoop.step_regular hs hwakes hl
  | recv p =>
    obtain ⟨_, rfl⟩ := of_guard h
    exact hs
  | reconnect buf =>
    cases Option.some.inj h
    exact hs

theorem step_flows {s t : Link} {c : Channel (List UInt8)} {e : LinkEvent} (hs : s.Flows c)
    (hok : s.Framed e ∧ s.Wakes e) (h : s.step e = some t) :
    ∃ fs d, AnyRun Channel.step c fs d ∧ (s.Lossless e → Run Channel.step Channel.Keeps c fs d) ∧
      t.Flows d := by
  obtain ⟨hframed, hwakes⟩ := hok
  have hputs := step_puts hs.loop.queued h
  obtain ⟨fs, d, hany, hkeeps, hd⟩ := step_refines hs.channel hframed hwakes h
  refine ⟨fs, d, hany, hkeeps, step_regular hs.loop hwakes h, ?_, hd, ?_⟩
  · rw [hputs]
    exact List.forall_mem_append.mpr ⟨hs.frames, frames_of_offers hframed⟩
  · exact hany.invariant (I := fun c => c.carried.Sublist c.offered) hs.carried
      fun _ _ _ hc _ h => Channel.step_carried hc h

/-- Both threads are alive, and `words` are the frames that have arrived or still may. A result of
`recv` has room for each of them. -/
structure Live (words : List (List UInt8)) (s : Link) : Prop where
  flows : ∃ c, s.Flows c ∧ c.carried = words
  alive : s.loop.phase ≠ .exited
  running : s.receiver.running = true
  small : ∀ bs ∈ words, bs.length ≤ 4096

/-- A frame is no null pointer. -/
theorem working_of_live {words : List (List UInt8)} {s : Link} (hs : s.Live words) :
    s.loop.Working := by
  obtain ⟨c, hc, _⟩ := hs.flows
  refine ⟨hc.loop, hs.alive, fun hnull => ?_⟩
  have hput : none ∈ s.loop.puts := by
    rw [hc.loop.queued.split]
    exact List.mem_append_right _ hnull
  exact isFrame_ne_nil (hc.frames none hput) rfl

theorem calls_le {words : List (List UInt8)} {s : Link} (hs : s.Live words) :
    s.receiver.calls.length ≤ (words.flatMap Frame.decoded).length := by
  obtain ⟨c, hc, hwords⟩ := hs.flows
  rw [← hwords, hc.channel.delivered, Channel.carried, List.flatMap_append, List.length_append]
  exact Nat.le_add_right _ _

/-- What the two threads have to do, at the most. -/
def work (words : List (List UInt8)) (s : Link) : Nat :=
  s.loop.work + ((words.flatMap Frame.decoded).length - s.receiver.calls.length)

/-- Without a new buffer, and without a loss, the same frames are carried. -/
theorem step_carried {words : List (List UInt8)} {s t : Link} {e : LinkEvent} (hs : s.Live words)
    (hok : s.Serves e) (h : s.step e = some t) : ∃ d, t.Flows d ∧ d.carried = words := by
  obtain ⟨hframed, hlossless, hoffers⟩ := framed_of_serves hok
  obtain ⟨c, hc, hwords⟩ := hs.flows
  obtain ⟨fs, d, _, hkeeps, hd⟩ := step_flows hc hframed h
  have hputs := step_puts hc.loop.queued h
  obtain ⟨new, hoffered, hcarried⟩ := Channel.run_keeps (hkeeps hlossless)
  rw [hd.channel.offered, hc.channel.offered, hputs, hoffers, List.append_nil] at hoffered
  have hnew : new = [] := List.append_cancel_left (hoffered.symm.trans (List.append_nil _).symm)
  exact ⟨d, hd, by rw [hcarried, hnew, List.append_nil, hwords]⟩

theorem step_live {words : List (List UInt8)} {s t : Link} {e : LinkEvent} (hs : s.Live words)
    (hok : s.Serves e) (h : s.step e = some t) : t.Live words ∧ t.work words + 1 ≤ s.work words := by
  have hflows := step_carried hs hok h
  cases e with
  | sender e =>
    obtain ⟨loop, hl, rfl⟩ := Option.map_eq_some_iff.mp h
    obtain ⟨hwork, _, halive, _⟩ := SendLoop.step_work (working_of_live hs) hok.1 hl
    refine ⟨⟨hflows, halive, hs.running, hs.small⟩, ?_⟩
    simp only [work]
    omega
  | recv p =>
    obtain ⟨⟨_, hsize, _⟩, rfl⟩ := of_guard h
    obtain ⟨f, hf⟩ := hok
    have hdata : p.data = f.bytes ++ [] := by rw [List.append_nil, hf]
    have hcalls := Receiver.poll_calls_of_frame hdata hsize s.receiver
    obtain ⟨hstopped, hresult⟩ := Poll.result_of_data (isFrame_ne_nil ⟨f, hf⟩)
    have hrunning : (s.receiver.poll p).running = true := by
      simp [Receiver.poll, hstopped, hresult, hs.running]
    have hlive : Live words { s with
        wire := s.wire.drop p.data.length, receiver := s.receiver.poll p } :=
      ⟨hflows, hs.alive, hrunning, hs.small⟩
    have hle := calls_le hlive
    refine ⟨hlive, ?_⟩
    simp only [hcalls, List.length_append, List.length_singleton] at hle
    simp only [work, hcalls, List.length_append, List.length_singleton]
    omega
  | reconnect buf => exact hok.elim

/-- Something is left to do until everything has arrived. -/
theorem serves_on {words : List (List UInt8)} {s : Link} (hs : s.Live words)
    (hn : s.receiver.calls ≠ words.flatMap Frame.decoded) : ∃ e t, s.Serves e ∧ s.step e = some t := by
  by_cases hw : s.loop.phase = .waiting
  · obtain ⟨c, hc, hwords⟩ := hs.flows
    have hqueued : c.queued = [] := by
      rw [hc.channel.queued, SendLoop.unsent, hc.loop.waits hw, List.drop_nil, List.map_nil]
    cases hf : c.flying with
    | nil =>
      refine absurd ?_ hn
      rw [hc.channel.delivered, ← hwords, Channel.carried, hqueued, hf, List.append_nil,
        List.append_nil]
    | cons bs rest =>
      have hmem : bs ∈ c.flying := by rw [hf]; exact List.mem_cons_self
      have hframe := hc.channel.frames bs (List.mem_append_left _ hmem)
      have hsmall : bs.length ≤ 4096 := by
        apply hs.small
        rw [← hwords, Channel.carried]
        exact List.mem_append_right _ (List.mem_append_left _ hmem)
      have hwire : bs <+: s.wire := by
        rw [hc.channel.flying, hf, List.flatten_cons]
        exact List.prefix_append _ _
      exact ⟨.recv (Controller.arrival default bs), _, hframe, if_pos ⟨hs.running, hsmall, hwire⟩⟩
  · obtain ⟨e, loop, hworks, hwhole, h⟩ := SendLoop.goes_on (working_of_live hs) hw
    exact ⟨.sender e, _, ⟨hworks, hwhole⟩, by rw [step, h]; rfl⟩

theorem run_flows {buf : Mem} {es : List LinkEvent} {s : Link}
    (hrun : Run step (fun s e => s.Framed e ∧ s.Wakes e) (initial buf) es s) : ∃ c, s.Flows c := by
  obtain ⟨_, c, _, hc⟩ : ∃ fs c, AnyRun Channel.step Channel.initial fs c ∧ s.Flows c := by
    apply hrun.simulate (R := Flows) _ (initial_flows buf)
    intro s e t c hs hok h
    obtain ⟨fs, d, hany, _, hd⟩ := step_flows hs hok h
    exact ⟨fs, d, hany, hd⟩
  exact ⟨c, hc⟩

/-- Whatever was lost before, with a working connection the two threads have a step to take until
everything has been delivered that is on its way or in the queue, and there is an end to their
steps: four for each buffer in the queue, one for each of these messages, and three more. -/
theorem link_recovers {buf : Mem} {es fs : List LinkEvent} {s t : Link}
    (hrun : Run step (fun s e => s.Framed e ∧ s.Wakes e) (initial buf) es s)
    (halive : s.loop.phase ≠ .exited) (hrunning : s.receiver.running = true)
    (hsmall : ∀ p ∈ s.loop.puts, (MessageBuffer.frame p).length ≤ 4096)
    (hrest : Run step Serves s fs t) :
    ∃ pending : List Call,
      (∃ gs : List Frame, s.wire = gs.flatMap Frame.bytes ∧ pending = gs.map Frame.message ++
        s.loop.unsent.flatMap fun p => Frame.decoded (MessageBuffer.frame p)) ∧
      fs.length ≤ 4 * s.loop.queue.items.length + 3 + pending.length ∧
      ((∃ e u, t.Serves e ∧ t.step e = some u) ∨ t.receiver.calls = s.receiver.calls ++ pending) := by
  obtain ⟨c, hc⟩ := run_flows hrun
  obtain ⟨gs, hwire, hpending⟩ := hc.channel.exists_pending
  refine ⟨_, ⟨gs, hwire, rfl⟩, ?_⟩
  rw [← hpending]
  have hs : s.Live c.carried := by
    refine ⟨⟨c, hc, rfl⟩, halive, hrunning, fun bs hbs => ?_⟩
    have hoffered := hc.carried.subset hbs
    rw [hc.channel.offered] at hoffered
    obtain ⟨p, hp, rfl⟩ := List.mem_map.mp hoffered
    exact hsmall p hp
  constructor
  · have hcount : fs.countP (fun _ => true) + t.work c.carried ≤ s.work c.carried :=
      hrest.count_le (I := Live c.carried) hs fun _ _ _ hs hok h => step_live hs hok h
    have hlag := SendLoop.lag_le s.loop.phase
    have htotal := congrArg List.length hpending
    rw [List.countP_true] at hcount
    rw [List.length_append] at htotal
    simp only [work, SendLoop.work] at hcount
    omega
  · have ht : t.Live c.carried :=
      hrest.invariant hs fun _ _ _ hs hok h => (step_live hs hok h).1
    by_cases hn : t.receiver.calls = c.carried.flatMap Frame.decoded
    · exact Or.inr hn
    · exact Or.inl (serves_on ht hn)

/-- A heartbeat is lost with its connection, and the next one arrives. -/
theorem link_recovers_heartbeat :
    ∃ s t : Link, s.loop.messages.length = 2 ∧ t.receiver.calls.length = 1 ∧
      ∃ pending : List Call,
        (∃ gs : List Frame, s.wire = gs.flatMap Frame.bytes ∧ pending = gs.map Frame.message ++
          s.loop.unsent.flatMap fun p => Frame.decoded (MessageBuffer.frame p)) ∧
        4 ≤ 4 * s.loop.queue.items.length + 3 + pending.length ∧
        ((∃ e u, t.Serves e ∧ t.step e = some u) ∨
          t.receiver.calls = s.receiver.calls ++ pending) := by
  let lost : Link := ⟨⟨⟨[some beat]⟩, .test, [some beat, some beat], [(beat, .sent 16)], [some beat]⟩,
    [], ⟨fun _ => 0, true, []⟩⟩
  have hrun : Run step (fun s e => s.Framed e ∧ s.Wakes e) (initial fun _ => 0)
      [.sender .start, .sender (.put (some beat)), .sender (.test false), .sender .take,
        .sender (.send (.sent 16)), .sender .pull, .reconnect (fun _ => 0),
        .sender (.put (some beat))] lost := by
    refine Run.and Wakes (Run.cons trivial rfl (Run.cons beat_framed rfl (Run.cons trivial rfl
      (Run.cons trivial rfl (Run.cons (Or.inr (send_beat rfl)) rfl (Run.cons trivial rfl
        (Run.cons trivial rfl (Run.single beat_framed rfl)))))))) ?_
    simp [Wakes, SendLoop.WakesOnItem]
  have hrest : ∃ t, Run step Serves lost [.sender (.test false), .sender .take,
      .sender (.send (.sent 16)), .recv (Controller.arrival default beat.bytes)] t ∧
      t.receiver.calls.length = 1 := by
    refine ⟨_, Run.cons ⟨rfl, trivial⟩ rfl (Run.cons ⟨trivial, trivial⟩ rfl
      (Run.cons ⟨trivial, send_beat rfl⟩ rfl (Run.single beat_framed rfl))), ?_⟩
    decide
  obtain ⟨t, hrest, hone⟩ := hrest
  have hsmall : ∀ p ∈ [some beat, some beat], (MessageBuffer.frame p).length ≤ 4096 := by decide
  exact ⟨lost, t, by decide, hone, link_recovers hrun (by simp [lost]) rfl hsmall hrest⟩

end Link

end VehicleCloud
