import VehicleCloud.Unpack

namespace VehicleCloud

open ByteStream

/-- Where the strings announced by the length bytes of a `Veh2CloudInh` frame end. -/
def inhEnd (mem : Mem) : Nat :=
  let hw := 25 + Veh2CloudInh.versionLength (mem 24)
  let ad := hw + 1 + Veh2CloudInh.versionLength (mem hw)
  let com := ad + 1 + Veh2CloudInh.versionLength (mem ad)
  com + 5 + (mem (com + 4)).toNat

/-- Where the body layout of a frame ends, by its type and its own inner lengths. -/
def announcedEnd (mem : Mem) : Overload → Nat
  | .header => 16
  | .inh => inhEnd mem
  | .res => 25
  | .state => 98 + 8 * (mem 97).toNat

/-- The four length bytes stand where the ones before them announce. -/
theorem inh_length_bytes {mem : Mem} {m : Veh2CloudInh} (hc : m.Consistent)
    (hm : Holds mem 16 m.layout) :
    mem 24 = m.sw_ver_len ∧
    mem (25 + Veh2CloudInh.versionLength m.sw_ver_len) = m.hw_ver_len ∧
    mem (25 + Veh2CloudInh.versionLength m.sw_ver_len + 1 +
      Veh2CloudInh.versionLength m.hw_ver_len) = m.ad_ver_len ∧
    mem (25 + Veh2CloudInh.versionLength m.sw_ver_len + 1 +
      Veh2CloudInh.versionLength m.hw_ver_len + 1 +
      Veh2CloudInh.versionLength m.ad_ver_len + 4) = m.user_data_len := by
  have h1 := (holds_append.mp hm).2
  rw [Vector.length_toList] at h1
  obtain ⟨hsw, h2⟩ := holds_append.mp h1
  have h3 := (holds_append.mp h2).2
  rw [hc.sw_ver, List.length_singleton] at h3
  obtain ⟨hhw, h4⟩ := holds_append.mp h3
  have h5 := (holds_append.mp h4).2
  rw [hc.hw_ver, List.length_singleton] at h5
  obtain ⟨had, h6⟩ := holds_append.mp h5
  have h7 := (holds_append.mp h6).2
  rw [hc.ad_ver, List.length_singleton] at h7
  have h8 := (holds_append.mp (holds_append.mp (holds_append.mp (holds_append.mp h7).2).2).2).2
  simp only [List.length_singleton] at h8
  have hud := (holds_append.mp h8).1
  rw [holds_singleton] at hsw hhw had hud
  exact ⟨hsw, hhw, had, hud⟩

theorem inhEnd_eq {mem : Mem} {m : Veh2CloudInh} (hc : m.Consistent)
    (hm : Holds mem 16 m.layout) : inhEnd mem = 16 + m.layout.length := by
  obtain ⟨hsw, hhw, had, hud⟩ := inh_length_bytes hc hm
  rw [Veh2CloudInh.layout_length, hc.sw_ver, hc.hw_ver, hc.ad_ver, hc.user_data]
  simp only [inhEnd, hsw, hhw, had, hud]
  omega

theorem stateCount_eq {mem : Mem} {m : Veh2CloudState} (hm : Holds mem 16 (m.layout true)) :
    mem 97 = m.pass_pos_num := by
  have hsplit : m.layout true = ((m.wireFields true).take 25).flatten ++
      ([m.pass_pos_num] ++ m.pass_pos.flatMap (Position2D.layout · true)) := by
    rw [Veh2CloudState.layout, ← List.take_append_drop 25 (m.wireFields true), List.flatten_append,
      List.take_append_drop]
    simp [Veh2CloudState.wireFields]
  have hlen : ((m.wireFields true).take 25).flatten.length = 81 := by
    simp [Veh2CloudState.wireFields]
  rw [hsplit] at hm
  have hn := (holds_append.mp (holds_append.mp hm).2).1
  rw [hlen] at hn
  exact holds_singleton.mp hn

theorem announcedEnd_eq {mem : Mem} {c : Call} (hc : c.Consistent) (hm : Holds mem 0 c.layout) :
    announcedEnd mem c.overload = c.layout.length := by
  have hb := (Call.holds_layout.mp hm).2
  rw [Call.layout_length]
  cases c with
  | header m => rfl
  | inh m => exact inhEnd_eq hc hb
  | res m => simp [announcedEnd, Call.overload, Call.bodyBytes]
  | state m =>
    have hl : m.pass_pos.length = m.pass_pos_num.toNat := hc
    simp only [announcedEnd, Call.overload, stateCount_eq hb, Call.bodyBytes,
      Veh2CloudState.layout_length, hl]
    omega

end VehicleCloud
