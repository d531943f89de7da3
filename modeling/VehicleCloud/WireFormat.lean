import VehicleCloud.InhLayout
import VehicleCloud.StateLayout
import VehicleCloud.Packer

namespace VehicleCloud

open ByteStream

inductive Overload where
  | header
  | inh
  | res
  | state
  deriving DecidableEq

def overloadOf (data_type : UInt8) : Option Overload :=
  if data_type = VEH2CLOUD_INH then some .inh
  else if data_type = CLOUD2VEH_INH_RES then some .res
  else if data_type = VEH2CLOUD_STATE then some .state
  else if data_type = HEARTBEAT ∨ data_type = HEARTBEAT_RES then some .header
  else none

namespace Call

def overload : Call → Overload
  | header _ => .header
  | inh _ => .inh
  | res _ => .res
  | state _ => .state

def head : Call → MessageHeader
  | header m => m
  | inh m => m.toMessageHeader
  | res m => m.toMessageHeader
  | state m => m.toMessageHeader

def bodyBytes : Call → List UInt8
  | header _ => []
  | inh m => m.layout
  | res m => m.layout
  | state m => m.layout true

/-- The wire format of a message: what a peer sends for it. -/
def layout (c : Call) : List UInt8 := c.head.layout true ++ c.bodyBytes

/-- The counts a message carries fit its strings and its way-point list. -/
def Consistent : Call → Prop
  | header _ => True
  | inh m => m.Consistent
  | res _ => True
  | state m => m.pass_pos.length = m.pass_pos_num.toNat

/-- A message that a well-formed frame can carry. -/
structure Valid (c : Call) : Prop where
  id : c.head.id = 0xF2
  overload : overloadOf c.head.data_type = some c.overload
  consistent : c.Consistent
  fits : c.bodyBytes.length ≤ c.head.data_len.toNat

theorem layout_length (c : Call) : c.layout.length = 16 + c.bodyBytes.length := by
  simp [layout]

theorem holds_layout {c : Call} {mem : Mem} :
    Holds mem 0 c.layout ↔ Holds mem 0 (c.head.layout true) ∧ Holds mem 16 c.bodyBytes := by
  have h := @holds_append mem 0 (c.head.layout true) c.bodyBytes
  simpa [layout] using h

end Call

/-- The big-endian number in bytes 1 to 4. -/
def declaredLength (mem : Mem) : Nat := ofLE (slice mem 1 4).reverse

theorem header_id {mem : Mem} {h : MessageHeader} (hm : Holds mem 0 (h.layout true)) :
    mem 0 = h.id := by
  have hs : Holds mem 0 [h.id] := (holds_append.mp hm).1
  exact holds_singleton.mp hs

theorem header_data_len {mem : Mem} {h : MessageHeader} (hm : Holds mem 0 (h.layout true)) :
    declaredLength mem = h.data_len.toNat := by
  have hs : Holds mem 1 (wordBytes true h.data_len) :=
    (holds_append.mp (holds_append.mp hm).2).1
  have hb : slice mem 1 4 = (nativeBytes h.data_len).reverse := by
    simpa [Holds, wordBytes_true] using hs
  rw [declaredLength, hb, List.reverse_reverse]
  exact ofLE_toLE h.data_len.toNat_lt

theorem header_data_type {mem : Mem} {h : MessageHeader} (hm : Holds mem 0 (h.layout true)) :
    mem 5 = h.data_type := by
  have hs : Holds mem 5 [h.data_type] :=
    (holds_append.mp (holds_append.mp (holds_append.mp hm).2).2).1
  exact holds_singleton.mp hs

/-- Memory whose type byte is known starts with the layout of some message of that type. -/
theorem exists_call {mem : Mem} {k : Overload} (hk : overloadOf (mem 5) = some k) :
    ∃ c : Call, c.overload = k ∧ c.Consistent ∧ Holds mem 0 c.layout := by
  obtain ⟨h, hm⟩ := MessageHeader.exists_header mem true
  cases k with
  | header => exact ⟨.header h, rfl, trivial, Call.holds_layout.mpr ⟨hm, rfl⟩⟩
  | inh =>
    obtain ⟨_, m, hb, ⟨rfl, hc, rfl⟩, _⟩ := Veh2CloudInh.scans_body h mem 16
    exact ⟨.inh m, rfl, hc, Call.holds_layout.mpr ⟨hm, hb⟩⟩
  | res =>
    obtain ⟨_, m, hb, ⟨rfl, rfl⟩, _⟩ := Cloud2VehInhRes.scans_body h mem 16
    exact ⟨.res m, rfl, trivial, Call.holds_layout.mpr ⟨hm, hb⟩⟩
  | state =>
    obtain ⟨_, m, hb, ⟨rfl, hn, rfl⟩, _⟩ := Veh2CloudState.scans_body h true mem 16
    exact ⟨.state m, rfl, hn, Call.holds_layout.mpr ⟨hm, hb⟩⟩

end VehicleCloud
