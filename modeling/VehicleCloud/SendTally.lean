import VehicleCloud.SendQueue

namespace VehicleCloud

open Transition

namespace SendLoop

/-- The buffer that is sent and not pulled. -/
def unreturned : SendPhase → List (Option MessageBuffer)
  | .sent p => [some p]
  | _ => []

section

variable {β : Type} {spent : MessageBuffer × SendResult → List β}
  {due : Option MessageBuffer → List β} {s t : SendLoop}

/-- The calls of `::send` come to what is due for the pulled buffers and the one about to be. -/
def Tallies (spent : MessageBuffer × SendResult → List β) (due : Option MessageBuffer → List β)
    (s : SendLoop) : Prop :=
  s.calls.flatMap spent = (s.pulled ++ unreturned s.phase).flatMap due

theorem tallies_congr (hs : s.Tallies spent due) (hc : t.calls = s.calls)
    (hp : t.pulled = s.pulled) (hu : unreturned t.phase = unreturned s.phase) :
    t.Tallies spent due := by
  rw [Tallies, hc, hp, hu]
  exact hs

theorem tallies_wake (hs : s.Tallies spent due) : s.wake.Tallies spent due :=
  tallies_congr hs s.wake_calls s.wake_pulled (s.wake_congr unreturned rfl)

theorem tallies_taken (hs : s.Tallies spent due) (hu : unreturned s.phase = [])
    (t : BlockQueue.Taken (Option MessageBuffer)) : (s.taken t).Tallies spent due := by
  cases t with
  | waits => exact tallies_congr hs rfl rfl hu.symm
  | undefined => exact tallies_congr hs rfl rfl hu.symm
  | front a => cases a <;> exact tallies_congr hs rfl rfl hu.symm

theorem pull_head (hs : s.Queued) {p : MessageBuffer} (hp : s.phase = .sent p) :
    s.queue.items.take 1 = [some p] := by
  obtain ⟨rest, hq⟩ := hs.sent_head hp
  rw [hq]
  rfl

/-- Only a call of `::send` adds to the left side, and only there is something to show. -/
theorem step_tallies {e : SendEvent} (hq : s.Queued) (hs : s.Tallies spent due)
    (hsend : ∀ p r, s.phase = .holding p → e = .send r → spent (p, r) = due (some p))
    (h : s.step e = some t) : t.Tallies spent due := by
  cases e with
  | put p =>
    cases Option.some.inj h
    exact tallies_wake (tallies_congr hs rfl rfl rfl)
  | notify =>
    cases Option.some.inj h
    exact tallies_wake hs
  | spurious =>
    obtain ⟨_, rfl⟩ := of_guard h
    exact tallies_wake hs
  | start =>
    obtain ⟨hp, rfl⟩ := of_guard h
    exact tallies_congr hs rfl rfl (by rw [hp]; rfl)
  | test stopped =>
    obtain ⟨hp, rfl⟩ := of_guard h
    exact tallies_congr hs rfl rfl (by rw [hp]; cases stopped <;> rfl)
  | take =>
    obtain ⟨hp, rfl⟩ := of_guard h
    exact tallies_taken hs (by rw [hp]; rfl) _
  | resume =>
    obtain ⟨hp, rfl⟩ := of_guard h
    exact tallies_taken hs (by rw [hp]; rfl) _
  | garbage p =>
    obtain ⟨hp, rfl⟩ := of_guard h
    exact tallies_taken hs (by rw [hp]; rfl) _
  | send r =>
    obtain ⟨p, hp, _, rfl⟩ := of_step_send h
    have hone := hsend p r hp rfl
    have hbefore : s.calls.flatMap spent = s.pulled.flatMap due := by
      have htally := hs
      rw [Tallies, hp] at htally
      simpa [unreturned] using htally
    simp only [Tallies, unreturned, List.flatMap_append, List.flatMap_singleton, hone, hbefore]
  | pull =>
    obtain ⟨p, hp, rfl⟩ := of_step_pull h
    have htally := hs
    rw [Tallies, hp] at htally
    rw [Tallies, pull_head hq hp]
    simpa [unreturned] using htally

end

end SendLoop

end VehicleCloud
