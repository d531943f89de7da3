import VehicleCloud.QueueWakeup
import VehicleCloud.SendTally

namespace VehicleCloud

open Transition

namespace SendLoop

def accepted (s : SendLoop) : List UInt8 := s.calls.flatMap fun c => c.1.bytes.take c.2.count

/-- Nothing is skipped, and what has left the queue has been accepted. -/
structure Delivered (s : SendLoop) : Prop where
  in_order : s.accepted <+: s.puts.flatMap MessageBuffer.frame
  pulled : s.pulled.flatMap MessageBuffer.frame <+: s.accepted

/-- A call of `::send` takes the whole buffer. -/
def SendsWhole (s : SendLoop) : SendEvent → Prop
  | .send r => ∀ p ∈ inHand s.phase, r.count = p.size.toNat
  | _ => True

instance (s : SendLoop) (e : SendEvent) : Decidable (s.SendsWhole e) :=
  match e with
  | .send _ => inferInstanceAs (Decidable (∀ p ∈ inHand s.phase, _))
  | .put _ | .notify | .spurious | .start | .test _ | .take | .resume | .garbage _ | .pull =>
    .isTrue trivial

def unpulled : SendPhase → List UInt8
  | .sent p => p.bytes
  | _ => []

/-- What the socket accepted is what was pulled and the buffer about to be. -/
def AllSent (s : SendLoop) : Prop :=
  s.accepted = s.pulled.flatMap MessageBuffer.frame ++ unpulled s.phase

theorem AllSent.accepted_eq {s : SendLoop} (hs : s.AllSent) {bs : List UInt8}
    (hu : unpulled s.phase = bs) :
    s.accepted = s.pulled.flatMap MessageBuffer.frame ++ bs := by
  rw [← hu]
  exact hs

theorem allSent_iff {s : SendLoop} :
    s.AllSent ↔ s.Tallies (fun c => c.1.bytes.take c.2.count) MessageBuffer.frame := by
  have hu : (unreturned s.phase).flatMap MessageBuffer.frame = unpulled s.phase := by
    cases s.phase <;> simp [unreturned, unpulled, MessageBuffer.frame]
  rw [AllSent, Tallies, accepted, List.flatMap_append, hu]

theorem accepted_send (s : SendLoop) (p : MessageBuffer) (r : SendResult) (q : SendPhase) :
    { s with phase := q, calls := s.calls ++ [(p, r)] }.accepted =
      s.accepted ++ p.bytes.take r.count := by
  simp [accepted]

theorem take_bytes {p : MessageBuffer} {n : Nat} (h : n = p.size.toNat) :
    p.bytes.take n = p.bytes := by
  rw [h, MessageBuffer.bytes, List.take_take, Nat.min_self]

theorem step_allSent (s : SendLoop) (e : SendEvent) (t : SendLoop) (hq : s.Queued)
    (hs : s.AllSent) (hok : s.SendsWhole e) (h : s.step e = some t) : t.AllSent := by
  rw [allSent_iff] at hs ⊢
  refine step_tallies hq hs (fun p r hp he => ?_) h
  subst he
  exact take_bytes (hok p (by rw [hp]; rfl))

/-- What holds as long as every wakeup finds an item: `take` returns the front of the queue. -/
structure Sound (s : SendLoop) : Prop where
  queued : s.Queued
  supplied : s.Supplied

theorem initial_sound : initial.Sound := ⟨initial_queued, initial_supplied⟩

theorem step_sound {s t : SendLoop} {e : SendEvent} (hs : s.Sound) (hok : s.WakesOnItem e)
    (h : s.step e = some t) : t.Sound :=
  ⟨step_queued s e t hs.queued hs.supplied.defined h, step_supplied s e t hs.supplied hok h⟩

theorem run_invariants {es : List SendEvent} {s : SendLoop}
    (hrun : Run step (fun s e => s.SendsWhole e ∧ s.WakesOnItem e) initial es s) :
    s.Sound ∧ s.AllSent := by
  apply hrun.invariant (I := fun s => s.Sound ∧ s.AllSent) ⟨initial_sound, rfl⟩
  rintro s e t ⟨hsound, hs⟩ ⟨hwhole, hwakes⟩ h
  exact ⟨step_sound hsound hwakes h, step_allSent s e t hsound.queued hs hwhole h⟩

theorem delivered_of_invariants {s : SendLoop} (hq : s.Queued) (hs : s.AllSent) : s.Delivered := by
  refine ⟨?_, ?_⟩
  · rw [hs.accepted_eq rfl, hq.split, List.flatMap_append]
    apply List.prefix_append_right_inj _ |>.mpr
    cases hp : s.phase with
    | sent p =>
      obtain ⟨rest, hitems⟩ := hq.sent_head hp
      rw [hitems, List.flatMap_cons]
      exact List.prefix_append _ _
    | _ => exact List.nil_prefix
  · rw [hs.accepted_eq rfl]
    exact List.prefix_append _ _

/-- After a short or failed `::send` the rest of the buffer is pulled unsent. -/
theorem not_delivered_of_short_send {s t : SendLoop} {p : MessageBuffer} {r : SendResult}
    (hq : s.Queued) (hs : s.AllSent) (hp : s.phase = .holding p)
    (hdata : p.size.toNat ≤ p.data.length) (hshort : r.count ≠ p.size.toNat)
    (h : s.step (.send r) = some t) : ∃ u, t.step .pull = some u ∧ ¬u.Delivered := by
  have hqt := step_queued s _ t hq (by rw [hp]; simp) h
  obtain ⟨q, hheld, hle, rfl⟩ := of_step_send h
  cases SendPhase.holding.inj (hp.symm.trans hheld)
  refine ⟨_, rfl, fun hd => ?_⟩
  have hlen := hd.pulled.length_le
  have hbytes : p.bytes.length = p.size.toNat := by
    rw [MessageBuffer.bytes, List.length_take]
    omega
  rw [pull_head hqt rfl] at hlen
  have hacc : s.accepted = _ ++ [] := hs.accepted_eq (by rw [hp]; rfl)
  have hsent := accepted_send s p r .test
  simp only [accepted] at hlen hsent hacc
  simp only [hsent, hacc, List.flatMap_append, List.flatMap_singleton, MessageBuffer.frame,
    List.length_append, List.length_take, List.length_nil, hbytes] at hlen
  omega

/-- After a wakeup on nothing the thread sends what `front()` makes of the empty queue. -/
theorem not_delivered_of_empty_wakeup {s t : SendLoop} {e : SendEvent} (hq : s.Queued)
    (hs : s.AllSent) (hn : ¬s.WakesOnItem e) (h : s.step e = some t) :
    ∃ fs u, Run step SendsWhole t fs u ∧ ¬u.Delivered := by
  obtain ⟨hempty, hresume⟩ := resume_of_empty_wakeup hn h
  let p : MessageBuffer := ⟨1, [0]⟩
  have hwhole : ({ s with phase := .holding p } : SendLoop).SendsWhole (.send (.sent 1)) := by
    intro q hm
    cases Option.some.inj hm
    rfl
  have hrun : Run step SendsWhole t [.resume, .garbage (some p), .send (.sent 1)]
      { s with phase := .sent p, calls := s.calls ++ [(p, .sent 1)] } :=
    Run.cons trivial hresume (Run.cons trivial rfl (Run.single hwhole rfl))
  refine ⟨_, _, hrun, fun hd => ?_⟩
  have hputs : s.puts = s.pulled := by rw [hq.split, hempty, List.append_nil]
  have hwaiting : s.phase = .waiting := by
    by_contra hp
    exact hn fun _ hw => absurd hw hp
  have hacc : s.accepted = _ ++ [] := hs.accepted_eq (by rw [hwaiting]; rfl)
  have hlen := hd.in_order.length_le
  rw [accepted_send, hacc, hputs] at hlen
  simp only [p, MessageBuffer.bytes, SendResult.count, List.length_append, List.length_nil] at hlen
  exact absurd hlen (by simp)

/-- In every run in which each `::send` takes its whole buffer and each wakeup of `take` finds an
item, the socket has accepted a prefix of what was put, and all of what was pulled; and the first
`::send` or wakeup that does not lets this break. -/
theorem send_thread_delivers {es : List SendEvent} {s : SendLoop}
    (hrun : Run step (fun s e => s.SendsWhole e ∧ s.WakesOnItem e) initial es s) :
    s.Delivered ∧
    (∀ (p : MessageBuffer) (r : SendResult) (t : SendLoop), s.phase = .holding p →
      p.size.toNat ≤ p.data.length → r.count ≠ p.size.toNat → s.step (.send r) = some t →
      ∃ u, t.step .pull = some u ∧ ¬u.Delivered) ∧
    ∀ e t, ¬s.WakesOnItem e → s.step e = some t → ∃ fs u, Run step SendsWhole t fs u ∧ ¬u.Delivered := by
  obtain ⟨hsound, hs⟩ := run_invariants hrun
  have hq := hsound.queued
  refine ⟨delivered_of_invariants hq hs, fun p r t hp hdata hshort h => ?_, fun e t hn h => ?_⟩
  · exact not_delivered_of_short_send hq hs hp hdata hshort h
  · exact not_delivered_of_empty_wakeup hq hs hn h

def twoBytes : MessageBuffer := ⟨2, [7, 9]⟩

def upToSend : List SendEvent := [.start, .put (some twoBytes), .test false, .take]

def holdingTwo : SendLoop := ⟨⟨[some twoBytes]⟩, .holding twoBytes, [some twoBytes], [], []⟩

theorem send_thread_delivers_two_bytes :
    (holdingTwo.Delivered ∧
      ∃ u, ({ holdingTwo with phase := .sent twoBytes, calls := [(twoBytes, .sent 1)] } :
        SendLoop).step .pull = some u ∧ ¬u.Delivered) ∧
    ∃ fs u, Run step SendsWhole { initial with phase := .woken } fs u ∧ ¬u.Delivered := by
  have hrun : Run step (fun s e => s.SendsWhole e ∧ s.WakesOnItem e) initial upToSend holdingTwo :=
    run_of_exec (by decide)
  have hidle : Run step (fun s e => s.SendsWhole e ∧ s.WakesOnItem e) initial
      [.start, .test false, .take] { initial with phase := .waiting } := run_of_exec (by decide)
  obtain ⟨hd, hshort, _⟩ := send_thread_delivers hrun
  obtain ⟨_, _, hempty⟩ := send_thread_delivers hidle
  exact ⟨⟨hd, hshort twoBytes (.sent 1) _ rfl (by decide) (by decide) rfl⟩,
    hempty .spurious _ (by decide) rfl⟩

/-- One byte of two is accepted, and the frame is pulled. -/
theorem short_send_loses_bytes : ¬ ∀ es s, AnyRun step initial es s → s.Delivered := by
  intro h
  have hrun : AnyRun step initial (upToSend ++ [.send (.sent 1), .pull])
      ⟨⟨[]⟩, .test, [some twoBytes], [(twoBytes, .sent 1)], [some twoBytes]⟩ :=
    run_of_exec (by decide)
  exact absurd (h _ _ hrun).pulled (by decide)

end SendLoop

end VehicleCloud
