import VehicleCloud.RecvStream
import VehicleCloud.TrailingBytes

namespace VehicleCloud

open ByteStream

/-- What is handed on depends on the received bytes alone: neither the memory behind them nor that
of the message object makes a difference. -/
def DeliversAlike (mem : Mem) (size : UInt64) : Prop :=
  ∀ (mem' : Mem) (raw raw' : Raw), (∀ i < size.toNat, mem' i = mem i) →
    (Packer.unpack raw false size mem 0).value = (Packer.unpack raw' false size mem' 0).value

/-- The type byte was received, and of a known type the whole header and the whole body. -/
def Determined (mem : Mem) (size : Nat) : Prop :=
  6 ≤ size ∧ ∀ k ∈ overloadOf (mem 5), 16 ≤ size ∧
    (k ≠ .header → 16 + declaredLength mem ≤ size ∧ announcedEnd mem k ≤ size)

def Raw.head (raw : Raw) : Overload → MessageHeader
  | .header => raw.header
  | .inh => raw.inh.toMessageHeader
  | .res => raw.res.toMessageHeader
  | .state => raw.state.toMessageHeader

namespace Packer

/-- The header of a message that is decoded from less than a header is what memory held. -/
theorem unpack_of_short_head {size : UInt64} {mem : Mem} {k : Overload} (raw : Raw) (hne : size ≠ 0)
    (hid : mem 0 = 0xF2) (hk : overloadOf (mem 5) = some k) (hs : size.toNat < 16) :
    ∃ c : Call, (unpack raw false size mem 0).value = [c] ∧
      c.head = { raw.head k with id := 0xF2 } := by
  rw [unpack_eq_dispatch raw hne hid, dispatch_eq, hk]
  cases k with
  | header =>
    have hr := MessageHeader.decode_of_short hs raw.header true mem 0
    exact ⟨.header { raw.header with id := 0xF2 }, by simp [hr], rfl⟩
  | inh =>
    obtain ⟨_, m, _, ⟨hh, _, _⟩, hb⟩ :=
      Veh2CloudInh.scans_body { raw.inh.toMessageHeader with id := 0xF2 } mem 16
    have hr : raw.inh.decode false size true mem 0 = _ :=
      (MessageHeader.decodeWith_of_short hs).trans hb
    exact ⟨.inh m, by simp [hr], hh⟩
  | res =>
    obtain ⟨_, m, _, ⟨hh, _⟩, hb⟩ :=
      Cloud2VehInhRes.scans_body { raw.res.toMessageHeader with id := 0xF2 } mem 16
    have hr : raw.res.decode false size true mem 0 = _ :=
      (MessageHeader.decodeWith_of_short hs).trans hb
    exact ⟨.res m, by simp [hr], hh⟩
  | state =>
    obtain ⟨_, m, _, ⟨hh, _, _⟩, hb⟩ :=
      Veh2CloudState.scans_body { raw.state.toMessageHeader with id := 0xF2 } true mem 16
    have hr : raw.state.decode false size true mem 0 = _ :=
      (MessageHeader.decodeWith_of_short hs).trans hb
    exact ⟨.state m, by simp [hr], hh⟩

/-- Two buffers with different bytes in what is decoded are different messages. -/
theorem unpack_ne_of_layout {size : UInt64} {mem mem' : Mem} {k : Overload} {j : Nat}
    (raw raw' : Raw) (hid : mem 0 = 0xF2) (hid' : mem' 0 = 0xF2)
    (hk : overloadOf (mem 5) = some k) (hk' : overloadOf (mem' 5) = some k)
    (hd : 16 + declaredLength mem ≤ size.toNat) (hd' : 16 + declaredLength mem' ≤ size.toNat)
    (hj : j < announcedEnd mem k) (hdiff : mem' j ≠ mem j) :
    (unpack raw false size mem 0).value ≠ (unpack raw' false size mem' 0).value := by
  obtain ⟨c, rfl, hc, hm⟩ := exists_call hk
  obtain ⟨c', hov, hc', hm'⟩ := exists_call hk'
  rw [unpack_of_layout raw hid hk hc hm hd,
    unpack_of_layout raw' hid' (by rw [hk', hov]) hc' hm' hd']
  intro hsame
  obtain rfl : c = c' := by simpa using hsame
  rw [announcedEnd_eq hc hm] at hj
  have hbyte := holds_iff_getElem.mp hm j hj
  have hbyte' := holds_iff_getElem.mp hm' j hj
  rw [Nat.zero_add] at hbyte hbyte'
  exact hdiff (hbyte'.trans hbyte.symm)

end Packer

theorem size_ne_zero {size : UInt64} {n : Nat} (h : n < size.toNat) : size ≠ 0 := by
  rintro rfl
  exact Nat.not_lt_zero n h

theorem alike_of_no_call {mem : Mem} {size : UInt64} (h0 : 0 < size.toNat)
    (h : mem 0 ≠ 0xF2 ∨ 6 ≤ size.toNat ∧ overloadOf (mem 5) = none) : DeliversAlike mem size := by
  intro mem' raw raw' hagree
  have hz := size_ne_zero h0
  rcases h with hid | ⟨hsix, hk⟩
  · have hid' : mem' 0 ≠ 0xF2 := by rwa [hagree 0 h0]
    rw [Packer.unpack_of_no_identifier raw hz hid, Packer.unpack_of_no_identifier raw' hz hid']
  · exact unpack_agree_of_no_call raw raw' hz hz (hagree 0 h0) (hagree 5 (by omega)) (Or.inr hk)

/-- The header is delivered whether or not the declared length is there. -/
theorem unpack_of_header {mem : Mem} {size : UInt64} {h : MessageHeader} (raw : Raw)
    (hid : mem 0 = 0xF2) (hk : overloadOf (mem 5) = some .header) (hs : 16 ≤ size.toNat)
    (hm : Holds mem 0 (h.layout true)) :
    (Packer.unpack raw false size mem 0).value = [.header h] := by
  by_cases hd : size.toNat < 16 + declaredLength mem
  · rw [Packer.unpack_of_truncated raw hid hk hm hs hd]
    rfl
  · have hc : Holds mem 0 (Call.header h).layout := Call.holds_layout.mpr ⟨hm, rfl⟩
    rw [Packer.unpack_of_layout (c := .header h) raw hid hk trivial hc (by omega)]

theorem alike_of_determined {mem : Mem} {size : UInt64} {k : Overload} (hid : mem 0 = 0xF2)
    (hk : overloadOf (mem 5) = some k) (h : Determined mem size.toNat) : DeliversAlike mem size := by
  intro mem' raw raw' hagree
  obtain ⟨hsix, hall⟩ := h
  obtain ⟨hs, hbody⟩ := hall k hk
  have hid' : mem' 0 = 0xF2 := (hagree 0 (by omega)).trans hid
  have hk' : overloadOf (mem' 5) = some k := by rw [hagree 5 (by omega), hk]
  by_cases hh : k = .header
  · subst hh
    obtain ⟨m, hm⟩ := MessageHeader.exists_header mem true
    have hm' := hm.of_agree (by simpa using hs) hagree
    rw [unpack_of_header raw hid hk hs hm, unpack_of_header raw' hid' hk' hs hm']
  · obtain ⟨hd, he⟩ := hbody hh
    have hd' := declaredLength_of_agree hs hagree
    obtain ⟨c, rfl, hc, hm⟩ := exists_call hk
    rw [announcedEnd_eq hc hm] at he
    have hm' := hm.of_agree he hagree
    rw [Packer.unpack_of_layout raw hid hk hc hm hd,
      Packer.unpack_of_layout raw' hid' hk' hc hm' (by omega)]

/-- Without the type byte, what stands behind the buffer decides whether there is a call. -/
theorem type_byte_of_alike {mem : Mem} {size : UInt64} (h0 : 0 < size.toNat) (hid : mem 0 = 0xF2)
    (h : DeliversAlike mem size) : 6 ≤ size.toNat := by
  by_contra hlt
  have hz := size_ne_zero h0
  let guess (t : UInt8) : Mem := fun i => if i = 5 then t else mem i
  have hagree (t : UInt8) : ∀ i < size.toNat, guess t i = mem i := fun i hi =>
    if_neg (by omega)
  have hunknown : overloadOf (guess 0 5) = none := by
    simp only [guess, ↓reduceIte]
    rfl
  have hheader : overloadOf (guess HEARTBEAT 5) = some .header := by
    simp only [guess, ↓reduceIte]
    rfl
  have hnone := h (guess 0) default default (hagree 0)
  have hone := h (guess HEARTBEAT) default default (hagree HEARTBEAT)
  obtain ⟨c, hc, _⟩ := Packer.unpack_of_short_head default hz
    ((hagree HEARTBEAT 0 h0).trans hid) hheader (by omega)
  rw [hnone, Packer.unpack_of_unknown default hz ((hagree 0 0 h0).trans hid) hunknown, hc] at hone
  cases hone

/-- Without the whole header, the header of the message is what memory held. -/
theorem header_of_alike {mem : Mem} {size : UInt64} {k : Overload} (hsix : 6 ≤ size.toNat)
    (hid : mem 0 = 0xF2) (hk : overloadOf (mem 5) = some k) (h : DeliversAlike mem size) :
    16 ≤ size.toNat := by
  by_contra hlt
  have hz := size_ne_zero (Nat.lt_of_lt_of_le (Nat.zero_lt_succ 5) hsix)
  let held (n : UInt32) : Raw :=
    { header := { (default : MessageHeader) with data_len := n }
      inh := { (default : Veh2CloudInh) with data_len := n }
      res := { (default : Cloud2VehInhRes) with data_len := n }
      state := { (default : Veh2CloudState) with data_len := n } }
  have hlen (n : UInt32) : ((held n).head k).data_len = n := by cases k <;> rfl
  obtain ⟨c, hc, hhead⟩ := Packer.unpack_of_short_head (held 0) hz hid hk (by omega)
  obtain ⟨c', hc', hhead'⟩ := Packer.unpack_of_short_head (held 1) hz hid hk (by omega)
  have hsame := h mem (held 0) (held 1) fun _ _ => rfl
  rw [hc, hc'] at hsame
  obtain rfl : c = c' := by simpa using hsame
  have hdata := congrArg MessageHeader.data_len (hhead.symm.trans hhead')
  simp only [hlen] at hdata
  exact absurd hdata (by decide)

/-- After a failed length check the body of the message is what memory held. -/
theorem length_of_alike {mem : Mem} {size : UInt64} {k : Overload} (hs : 16 ≤ size.toNat)
    (hid : mem 0 = 0xF2) (hk : overloadOf (mem 5) = some k) (hh : k ≠ .header)
    (h : DeliversAlike mem size) : 16 + declaredLength mem ≤ size.toNat := by
  by_contra hlt
  let held (b : UInt8) : Raw :=
    { header := default
      inh := { (default : Veh2CloudInh) with com_type := b }
      res := { (default : Cloud2VehInhRes) with res := b }
      state := { (default : Veh2CloudState) with gear := b } }
  obtain ⟨m, hm⟩ := MessageHeader.exists_header mem true
  have hsame := h mem (held 0) (held 1) fun _ _ => rfl
  rw [Packer.unpack_of_truncated _ hid hk hm hs (by omega),
    Packer.unpack_of_truncated _ hid hk hm hs (by omega)] at hsame
  cases k with
  | header => exact hh rfl
  | inh => simp [Packer.rejectedCall, Veh2CloudInh.rejected, held] at hsame
  | res => simp [Packer.rejectedCall, Cloud2VehInhRes.rejected, held] at hsame
  | state => simp [Packer.rejectedCall, Veh2CloudState.rejected, held] at hsame

/-- A body that goes on behind the buffer takes in the byte there. -/
theorem end_of_alike {mem : Mem} {size : UInt64} {k : Overload} (hs : 16 ≤ size.toNat)
    (hid : mem 0 = 0xF2) (hk : overloadOf (mem 5) = some k)
    (hd : 16 + declaredLength mem ≤ size.toNat) (h : DeliversAlike mem size) :
    announcedEnd mem k ≤ size.toNat := by
  by_contra hlt
  let mem' : Mem := fun i => if i < size.toNat then mem i else mem i + 1
  have hagree : ∀ i < size.toNat, mem' i = mem i := fun i hi => if_pos hi
  have hdiff : mem' size.toNat ≠ mem size.toNat := by
    have hnext : mem' size.toNat = mem size.toNat + 1 := if_neg (Nat.lt_irrefl _)
    have hone : (1 : UInt8).toNat = 1 := rfl
    rw [hnext, ne_eq, ← UInt8.toNat_inj, UInt8.toNat_add]
    omega
  have hd' : 16 + declaredLength mem' ≤ size.toNat := by
    rw [declaredLength_of_agree hs hagree]
    exact hd
  exact Packer.unpack_ne_of_layout default default hid ((hagree 0 (by omega)).trans hid) hk
    (by rw [hagree 5 (by omega), hk]) hd hd' (by omega) hdiff (h mem' default default hagree)

theorem determined_of_alike {mem : Mem} {size : UInt64} (h : DeliversAlike mem size) :
    size = 0 ∨ mem 0 ≠ 0xF2 ∨ Determined mem size.toNat := by
  by_cases hz : size = 0
  · exact Or.inl hz
  by_cases hid : mem 0 = 0xF2
  swap
  · exact Or.inr (Or.inl hid)
  have h0 : 0 < size.toNat := Nat.pos_of_ne_zero fun h => hz (UInt64.toNat_inj.mp h)
  have hsix := type_byte_of_alike h0 hid h
  refine Or.inr (Or.inr ⟨hsix, fun k hk => ?_⟩)
  have hs := header_of_alike hsix hid hk h
  refine ⟨hs, fun hh => ?_⟩
  have hd := length_of_alike hs hid hk hh h
  exact ⟨hd, end_of_alike hs hid hk hd h⟩

theorem alike_of {mem : Mem} {size : UInt64}
    (h : size = 0 ∨ mem 0 ≠ 0xF2 ∨ Determined mem size.toNat) : DeliversAlike mem size := by
  by_cases hz : size = 0
  · intro mem' raw raw' _
    simp [Packer.unpack, hz]
  have h0 : 0 < size.toNat := Nat.pos_of_ne_zero fun h => hz (UInt64.toNat_inj.mp h)
  by_cases hid : mem 0 = 0xF2
  swap
  · exact alike_of_no_call h0 (Or.inl hid)
  have hdet := (h.resolve_left hz).resolve_left (not_not_intro hid)
  cases hk : overloadOf (mem 5) with
  | none => exact alike_of_no_call h0 (Or.inr ⟨hdet.1, hk⟩)
  | some k => exact alike_of_determined hid hk hdet

/-- A result of `recv` is delivered for what it is exactly when it is empty, is turned away by its
first byte, or has all that its type and its lengths call for. -/
theorem delivers_alike_iff (mem : Mem) (size : UInt64) :
    DeliversAlike mem size ↔ size = 0 ∨ mem 0 ≠ 0xF2 ∨ Determined mem size.toNat :=
  ⟨determined_of_alike, alike_of⟩

namespace Controller

/-- The bytes of one `recv` have all that they call for. -/
def Whole (bytes : List UInt8) : Prop :=
  bytes = [] ∨ bytes.head? ≠ some 0xF2 ∨ Determined (Mem.ofBytes bytes fun _ => 0) bytes.length

/-- Two rounds of a receive loop that differ in what the stack held, if at all. -/
structure SameRound (p p' : Poll) : Prop where
  stopped : p.stopped = p'.stopped
  result : p.result = p'.result

theorem unpack_of_whole {bytes : List UInt8} (h : Whole bytes) (hsize : bytes.length ≤ 4096)
    (raw raw' : Raw) (buf buf' : Mem) :
    (Packer.unpack raw false (UInt64.ofNat bytes.length) (Mem.ofBytes bytes buf) 0).value =
      (Packer.unpack raw' false (UInt64.ofNat bytes.length) (Mem.ofBytes bytes buf') 0).value := by
  have hlen : (UInt64.ofNat bytes.length).toNat = bytes.length := by
    rw [UInt64.toNat_ofNat']
    omega
  have halike : DeliversAlike (Mem.ofBytes bytes fun _ => 0) (UInt64.ofNat bytes.length) := by
    apply alike_of
    rw [hlen]
    rcases h with rfl | hid | hdet
    · exact Or.inl rfl
    · cases bytes with
      | nil => exact Or.inl rfl
      | cons b rest =>
        refine Or.inr (Or.inl fun hb => hid ?_)
        rw [List.head?_cons, ← hb]
        rfl
    · exact Or.inr (Or.inr hdet)
  have hagree (past : Mem) : ∀ i < (UInt64.ofNat bytes.length).toNat,
      Mem.ofBytes bytes past i = Mem.ofBytes bytes (fun _ => 0) i := by
    intro i hi
    rw [hlen] at hi
    simp only [Mem.ofBytes, hi, ↓reduceDIte]
  exact (halike _ default raw (hagree buf)).symm.trans (halike _ default raw' (hagree buf'))

/-- As long as every `recv` returns whole frames, or something else than a frame, the handler is
called for what was received: neither the bytes of earlier results nor the stack show. -/
theorem recv_threads_alike {ps ps' : List Poll} {buf buf' : Mem}
    (hsame : List.Forall₂ SameRound ps ps')
    (hwhole : ∀ p ∈ ps, ∀ bytes, p.result = .data bytes → Whole bytes ∧ bytes.length ≤ 4096) :
    up_sock_recv_thread buf ps = up_sock_recv_thread buf' ps' ∧
    down_sock_recv_thread buf ps = down_sock_recv_thread buf' ps' := by
  suffices h : sock_recv_thread buf ps = sock_recv_thread buf' ps' from ⟨h, h⟩
  induction hsame generalizing buf buf' with
  | nil => rfl
  | @cons p p' ps ps' hp _ ih =>
    have hrest {b b' : Mem} : sock_recv_thread b ps = sock_recv_thread b' ps' :=
      ih fun q hq => hwhole q (List.mem_cons_of_mem p hq)
    simp only [sock_recv_thread, ← hp.stopped, ← hp.result]
    split
    next => rfl
    next =>
      cases hr : p.result with
      | shutdown => rfl
      | error errno =>
        simp only
        rw [hrest]
      | data bytes =>
        obtain ⟨hbytes, hsize⟩ := hwhole p List.mem_cons_self bytes hr
        simp only
        rw [unpack_of_whole hbytes hsize p.raw p'.raw buf buf', hrest]

/-- What another call has left where the message is built. -/
def littered : Raw := { (default : Raw) with header := { (default : MessageHeader) with data_len := 7 } }

theorem heartbeat_whole : Whole heartbeat.bytes := by
  refine Or.inr (Or.inr ⟨by decide, fun k hk => ?_⟩)
  have hheader : overloadOf (Mem.ofBytes heartbeat.bytes (fun _ => 0) 5) = some .header := by decide
  cases hheader.symm.trans hk
  exact ⟨by decide, fun hh => absurd rfl hh⟩

theorem recv_threads_alike_heartbeat :
    up_sock_recv_thread (fun _ => 0) [arrival default [1, 2], arrival default heartbeat.bytes] =
      up_sock_recv_thread (fun _ => 7) [arrival littered [1, 2], arrival littered heartbeat.bytes] := by
  refine (recv_threads_alike (.cons ⟨rfl, rfl⟩ (.cons ⟨rfl, rfl⟩ .nil)) fun p hp bytes hr => ?_).1
  rcases List.mem_cons.mp hp with rfl | hp
  · cases RecvResult.data.inj hr
    exact ⟨Or.inr (Or.inl (by decide)), by decide⟩
  · cases List.mem_singleton.mp hp
    cases RecvResult.data.inj hr
    exact ⟨heartbeat_whole, by decide⟩

end Controller

end VehicleCloud
