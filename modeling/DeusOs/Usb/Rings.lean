import DeusOs.Common.Ring
import DeusOs.Kernel.Model.UsbManagement
import DeusOs.Usb.Model.Rings
import Mathlib.Data.Nat.Bitwise

/-!
# The management rings

The transmit half of the endpoint refines the list of bytes the rest of the
system knows it by: the ring holds the list between its counters, the packet
memory holds the front of it, and every packet handed to the endpoint is the
next part of what was accepted. The receive half holds what arrived and was
not yet read.
-/

namespace DeusOs

namespace Usb

open Ring (Holds)

/-! ## Halfwords -/

theorem low_packed (a b : UInt8) : (a.toUInt16 ||| b.toUInt16 <<< 8).toUInt8 = a := by
  apply UInt8.toBitVec_inj.1
  ext i hi
  simp

theorem high_packed (a b : UInt8) : ((a.toUInt16 ||| b.toUInt16 <<< 8) >>> 8).toUInt8 = b := by
  apply UInt8.toBitVec_inj.1
  ext i hi
  have h16 : 8 + i < 16 := by omega
  have hi16 : i < 16 := by omega
  simp [hi, h16, hi16]

theorem low_masked (w : UInt16) : (w &&& 0xFF).toUInt8 = w.toUInt8 := by
  apply UInt8.toNat_inj.1
  rw [UInt16.toNat_toUInt8, UInt16.toNat_toUInt8, UInt16.toNat_and]
  exact congrArg (· % 2 ^ 8) (Nat.and_two_pow_sub_one_eq_mod w.toNat 8) |>.trans (Nat.mod_mod _ _)

/-! ## Cells -/

theorem cell_txRingMask (c : UInt32) : (c &&& txRingMask).toNat = c.toNat % txRingCapacity := by
  rw [UInt32.toNat_and]
  exact Nat.and_two_pow_sub_one_eq_mod c.toNat 10

/-- A counter's cell is its remainder by the ring's capacity. -/
theorem cell_rxRingMask (c : UInt32) : (c &&& rxRingMask).toNat = c.toNat % rxRingCapacity := by
  rw [UInt32.toNat_and]
  exact Nat.and_two_pow_sub_one_eq_mod c.toNat 9

theorem txRingCapacity_dvd : txRingCapacity ∣ 2 ^ 32 := by decide
/-- The counters wrap where the ring does. -/
theorem rxRingCapacity_dvd : rxRingCapacity ∣ 2 ^ 32 := by decide

theorem cell_txRing_add (c : UInt32) (n : ℕ) :
    ((c + UInt32.ofNat n) &&& txRingMask).toNat = (c.toNat + n) % txRingCapacity := by
  rw [cell_txRingMask, Ring.toNat_add_ofNat_mod txRingCapacity_dvd]

/-- The loop of the writer stores the span. -/
theorem storeSpan_eq (ring : ℕ → UInt8) (head : UInt32) (data : List UInt8) :
    storeSpan ring head data = Ring.store ring txRingCapacity head.toNat data := by
  have hgen : ∀ (data : List UInt8) (ring : ℕ → UInt8) (c : ℕ),
      (List.range data.length).foldl
        (fun ring i => Function.update ring ((c + i) % txRingCapacity) (data.getD i 0)) ring =
        Ring.store ring txRingCapacity c data := by
    intro data
    induction data with
    | nil => exact fun _ _ => rfl
    | cons b data ih =>
      intro ring c
      have hrest := ih (Ring.put ring txRingCapacity c b) (c + 1)
      rw [List.length_cons, List.range_succ_eq_map, List.foldl_cons, List.foldl_map, Ring.store,
        ← hrest]
      simp only [Ring.put, Nat.add_zero, List.getD_cons_zero, List.getD_cons_succ,
        Nat.succ_eq_add_one, Nat.add_assoc, Nat.add_comm 1]
  simp only [storeSpan, cell_txRing_add]
  exact hgen data ring head.toNat

/-! ## The packet memory -/

/-- A loop that fills every second offset leaves what it wrote there. -/
theorem foldl_update_even (word : ℕ → UInt16) (base m : ℕ) (pma : Pma) {k : ℕ} (hk : k < m) :
    (List.range m).foldl (fun pma k => Function.update pma (base + 2 * k) (word k)) pma
      (base + 2 * k) = word k := by
  induction m with
  | zero => omega
  | succ m ih =>
    rw [List.range_succ, List.foldl_append, List.foldl_cons, List.foldl_nil]
    by_cases hkm : k = m
    · rw [hkm, Function.update_self]
    · rw [Function.update_of_ne (by omega)]
      exact ih (by omega)

/-- **The packet memory holds the front of the ring**, whatever the parity of
the length. -/
theorem packet_txLoad (ring : ℕ → UInt8) (tail : UInt32) (n : ℕ) (pma : Pma) :
    (txLoad ring tail n pma).packet ep4TxLocal n =
      Ring.contents ring txRingCapacity tail.toNat n := by
  refine List.map_congr_left fun i hi => ?_
  have hi : i < n := List.mem_range.1 hi
  have hword : ∀ k, k < (n + 1) / 2 →
      txLoad ring tail n pma (ep4TxLocal + 2 * k) = txWord ring tail n (2 * k) :=
    fun k hk => foldl_update_even (fun k => txWord ring tail n (2 * k)) ep4TxLocal _ pma hk
  rw [Pma.byte]
  by_cases heven : i % 2 = 0
  -- a byte at an even place is the low half of its word, the next one the high half
  · obtain ⟨k, rfl⟩ : ∃ k, i = 2 * k := ⟨i / 2, by omega⟩
    rw [if_pos heven, hword k (by omega), txWord, cell_txRing_add]
    split
    · exact low_packed _ _
    · exact UInt8.toUInt8_toUInt16 _
  · obtain ⟨k, rfl⟩ : ∃ k, i = 2 * k + 1 := ⟨i / 2, by omega⟩
    have hnext : tail + UInt32.ofNat (2 * k) + 1 = tail + UInt32.ofNat (2 * k + 1) := by
      rw [UInt32.ofNat_add, ← UInt32.add_assoc]
      rfl
    rw [if_neg heven, Nat.add_sub_cancel, hword k (by omega), txWord, if_pos hi, high_packed,
      hnext, cell_txRing_add]

/-! ## The transmit half refines the list -/

/-- The ring, its counters and its packet in flight, as the list model of the
endpoint has them. -/
structure Refines (r : Rings) (u : Kernel.Usb) : Prop where
  configured : u.configured = r.configured
  queue : Holds r.txRing txRingCapacity r.txHead r.txTail u.queue
  inflight : r.txInflight.toNat = u.inflight
  active : r.txActive = u.active
  packetCount : r.diagnostics.managementTxPacketCount = u.packetCount
  inflight_le : u.inflight ≤ u.queue.length

variable {r r' : Rings} {u : Kernel.Usb} {data : List UInt8}

/-- What a kick does: nothing, where it may not or need not send; or it hands
the front of the list, as much of it as a packet takes, to the endpoint. -/
inductive Kick (r r' : Rings) (u u' : Kernel.Usb) : Prop
  | idle (same : r' = r) (same' : u' = u)
      (why : u.configured = false ∨ u.active = true ∨ u.queue = [])
  | sent (n : ℕ) (pos : 0 < n) (le : n ≤ maxPacket) (le_queue : n ≤ u.queue.length)
      (idle : u.active = false)
      (next : u' = { u with inflight := n, active := true })
      (handed : r'.handed = r.handed ++ [u.queue.take n])
      (memory : r'.pma.packet ep4TxLocal r'.txCount.toNat = u.queue.take n)

/-- **The kick of the ring is the kick of the list.** Both arm the same packet,
or none. -/
theorem Refines.txKick (h : Refines r u) :
    Refines r.txKick u.txKick ∧ Kick r r.txKick u u.txKick := by
  have hdepth := h.queue.depth (by decide)
  by_cases hstop : r.configured = false ∨ r.txActive = true
  · have hr : r.txKick = r := if_pos hstop
    have hu : u.txKick = u := if_pos (by rw [h.configured, ← h.active]; exact hstop)
    refine ⟨by rw [hr, hu]; exact h, .idle hr hu ?_⟩
    rw [h.configured, ← h.active, ← or_assoc]
    exact Or.inl hstop
  have hustop : ¬ (u.configured = false ∨ u.active = true) := by
    rw [h.configured, ← h.active]
    exact hstop
  by_cases hempty : u.queue = []
  · have hzero : r.txHead - r.txTail = 0 := by rw [hdepth.1, hempty]; rfl
    have hr : r.txKick = r := by rw [Rings.txKick, if_neg hstop, if_pos hzero]
    have hu : u.txKick = u := by
      rw [Kernel.Usb.txKick, if_neg hustop, if_pos (List.length_eq_zero_iff.2 hempty)]
    exact ⟨by rw [hr, hu]; exact h, .idle hr hu (Or.inr (Or.inr hempty))⟩
  -- something waits and nothing is in flight
  have hpos : 0 < u.queue.length := List.length_pos_iff.2 hempty
  have hne : ¬ r.txHead - r.txTail = 0 := by
    intro hzero
    rw [hzero] at hdepth
    have : (0 : UInt32).toNat = u.queue.length := hdepth.2
    simp only [UInt32.toNat_zero] at this
    omega
  obtain ⟨n, hn⟩ : ∃ n, n = if maxPacket < u.queue.length then maxPacket else u.queue.length :=
    ⟨_, rfl⟩
  have hmax : maxPacket = 64 := rfl
  have hn0 : 0 < n := by split at hn <;> omega
  have hn64 : n ≤ maxPacket := by split at hn <;> omega
  have hnq : n ≤ u.queue.length := by split at hn <;> omega
  have hn16 : (UInt16.ofNat n).toNat = n := by
    rw [UInt16.toNat_ofNat', Nat.mod_eq_of_lt (Nat.lt_of_le_of_lt hn64 (by decide))]
  have hfront : (txLoad r.txRing r.txTail n r.pma).packet ep4TxLocal n = u.queue.take n := by
    rw [packet_txLoad, ← Ring.take_contents hnq, h.queue.contents_eq]
  have hr : r.txKick =
      { r with
          pma := txLoad r.txRing r.txTail n r.pma
          txCount := UInt16.ofNat n
          txInflight := UInt16.ofNat n
          txActive := true
          handed := r.handed ++
            [(txLoad r.txRing r.txTail n r.pma).packet ep4TxLocal (UInt16.ofNat n).toNat] } := by
    rw [Rings.txKick, if_neg hstop]
    simp only [if_neg hne, hdepth.2, ← hn]
  have hu : u.txKick = { u with inflight := n, active := true } := by
    rw [Kernel.Usb.txKick, if_neg hustop, if_neg (Nat.ne_of_gt hpos)]
    simp only [← hn]
  have hidle : u.active = false := by
    simpa using fun ha => hustop (Or.inr ha)
  refine ⟨?_, .sent n hn0 hn64 hnq hidle hu ?_ ?_⟩
  · rw [hr, hu]
    exact ⟨h.configured, h.queue, hn16, rfl, h.packetCount, hnq⟩
  · rw [hr]
    simp only [hn16, hfront]
  · rw [hr]
    simp only [hn16, hfront]

/-- The packet in flight is retired before the kick. -/
def Rings.retire (r : Rings) : Rings :=
  if r.txActive = true then
    { r with
        txTail := r.txTail + r.txInflight.toUInt32
        diagnostics :=
          { r.diagnostics with
              managementTxPacketCount := r.diagnostics.managementTxPacketCount + 1
              managementTxByteCount :=
                r.diagnostics.managementTxByteCount + r.txInflight.toUInt32 }
        txInflight := 0
        txActive := false }
  else r

/-- So it is of the list. -/
def retired (u : Kernel.Usb) : Kernel.Usb :=
  if u.active = true then
    { u with
        queue := u.queue.drop u.inflight
        packetCount := u.packetCount + 1
        delivered := u.delivered ++ u.queue.take u.inflight
        inflight := 0
        active := false }
  else u

theorem handleIn_eq (r : Rings) : r.handleIn = r.retire.txKick := rfl

theorem usb_handleIn_eq (u : Kernel.Usb) : u.handleIn = (retired u).txKick := rfl

/-- **Retiring the packet advances the tail over its bytes,** which are the
first of the list. -/
theorem Refines.retire (h : Refines r u) : Refines r.retire (retired u) := by
  by_cases hactive : r.txActive = true
  · have hinflight : r.txInflight.toUInt32 = UInt32.ofNat u.inflight := by
      rw [← h.inflight]
      exact (UInt32.ofNat_uInt16ToNat r.txInflight).symm
    rw [Rings.retire, if_pos hactive, retired, if_pos (by rw [← h.active]; exact hactive)]
    refine ⟨h.configured, ?_, rfl, rfl, congrArg (· + 1) h.packetCount, Nat.zero_le _⟩
    simp only [hinflight]
    exact h.queue.advance txRingCapacity_dvd h.inflight_le
  · rw [Rings.retire, if_neg hactive, retired, if_neg (by rw [← h.active]; exact hactive)]
    exact h

/-- **Every completion is a completion of the list's.** -/
theorem Refines.handleIn (h : Refines r u) : Refines r.handleIn u.handleIn := by
  rw [handleIn_eq, usb_handleIn_eq]
  exact h.retire.txKick.1

/-- The rings with a span stored, before the kick. -/
def Rings.stored (r : Rings) (data : List UInt8) : Rings :=
  let nextDepth := r.txHead - r.txTail + UInt32.ofNat data.length
  { r with
      txRing := storeSpan r.txRing r.txHead data
      txHead := r.txHead + UInt32.ofNat data.length
      diagnostics :=
        { r.diagnostics with
            managementTxHighWater :=
              if r.diagnostics.managementTxHighWater < nextDepth then nextDepth
              else r.diagnostics.managementTxHighWater } }

/-- The rings with a span refused. -/
def Rings.refused (r : Rings) (data : List UInt8) : Rings :=
  { r with
      diagnostics :=
        { r.diagnostics with
            managementTxDropCount :=
              r.diagnostics.managementTxDropCount + UInt32.ofNat data.length } }

theorem refusal_iff (h : Refines r u) (hc : r.configured = true) :
    (r.configured = false ∨ txRingCapacity < data.length ∨
      txRingCapacity < (r.txHead - r.txTail).toNat ∨
      txRingCapacity - (r.txHead - r.txTail).toNat < data.length) ↔
      ¬ u.queue.length + data.length ≤ txRingCapacity := by
  have hfits := h.queue.fits
  rw [(h.queue.depth (by decide)).2, hc]
  simp only [Bool.true_eq_false, false_or]
  omega

/-- **A span that fits is stored whole**, -/
theorem writeSpanAtomic_of_fits (h : Refines r u) (hc : r.configured = true) (hdata : data ≠ [])
    (hfit : u.queue.length + data.length ≤ txRingCapacity) :
    r.writeSpanAtomic data = ((r.stored data).txKick, true) := by
  have hlen : data.length ≠ 0 := fun h0 => hdata (List.length_eq_zero_iff.1 h0)
  rw [Rings.writeSpanAtomic]
  simp only [if_neg hlen, if_neg ((refusal_iff h hc).not.2 (not_not.2 hfit))]
  rfl

/-- **and one that does not is refused.** -/
theorem writeSpanAtomic_of_not_fits (h : Refines r u) (hc : r.configured = true)
    (hfit : ¬ u.queue.length + data.length ≤ txRingCapacity) :
    r.writeSpanAtomic data = (r.refused data, false) := by
  have hfits := h.queue.fits
  have hlen : data.length ≠ 0 := by omega
  rw [Rings.writeSpanAtomic]
  simp only [if_neg hlen, if_pos ((refusal_iff h hc).2 hfit)]
  rfl

theorem writeSpanAtomic_nil (r : Rings) : r.writeSpanAtomic [] = (r, true) := rfl

/-- A span that fits is queued. -/
theorem Refines.stored (h : Refines r u)
    (hfit : u.queue.length + data.length ≤ txRingCapacity) :
    Refines (r.stored data) { u with queue := u.queue ++ data } := by
  refine ⟨h.configured, ?_, h.inflight, h.active, h.packetCount, ?_⟩
  · simp only [Rings.stored, storeSpan_eq]
    exact h.queue.push txRingCapacity_dvd hfit
  · have := h.inflight_le
    simp only [List.length_append]
    omega

/-- A span that is refused leaves the queue. -/
theorem Refines.refused (h : Refines r u) : Refines (r.refused data) u :=
  ⟨h.configured, h.queue, h.inflight, h.active, h.packetCount, h.inflight_le⟩

/-- **Every call of the writer is a call of the list's.** -/
theorem Refines.writeSpanAtomic (h : Refines r u) (hc : r.configured = true) :
    Refines (r.writeSpanAtomic data).1 (u.writeSpanAtomic data).1 ∧
      (r.writeSpanAtomic data).2 = (u.writeSpanAtomic data).2 := by
  have huc : u.configured = true := h.configured.trans hc
  have hcap : Kernel.txRingCapacity = txRingCapacity := rfl
  have hfits := h.queue.fits
  by_cases hnil : data = []
  · subst hnil
    rw [writeSpanAtomic_nil]
    exact ⟨h, rfl⟩
  have hlen : data.length ≠ 0 := fun h0 => hnil (List.length_eq_zero_iff.1 h0)
  by_cases hfit : u.queue.length + data.length ≤ txRingCapacity
  · have hu : u.writeSpanAtomic data = (Kernel.Usb.txKick { u with queue := u.queue ++ data }, true) := by
      rw [Kernel.Usb.writeSpanAtomic, if_neg hlen, if_neg]
      rw [huc]
      simp only [Bool.true_eq_false, false_or]
      omega
    rw [writeSpanAtomic_of_fits h hc hnil hfit, hu]
    exact ⟨(h.stored hfit).txKick.1, rfl⟩
  · have hu : u.writeSpanAtomic data = (u, false) := by
      rw [Kernel.Usb.writeSpanAtomic, if_neg hlen, if_pos]
      right
      omega
    rw [writeSpanAtomic_of_not_fits h hc hfit, hu]
    exact ⟨h.refused, rfl⟩

/-! ## What the endpoint was handed -/

/-- A run of the list, by the bytes that were accepted, the packets that were
handed over and how many of them are sent. -/
structure Sent (u : Kernel.Usb) (accepted : List UInt8) (handed : List (List UInt8))
    (completed : ℕ) : Prop where
  accepted_eq : accepted = u.delivered ++ u.queue
  delivered_eq : u.delivered = (handed.take completed).flatten
  sizes : ∀ p ∈ handed, 0 < p.length ∧ p.length ≤ maxPacket
  /-- At most one packet is in flight; it is the front of the queue. -/
  flight : u.active = true ∧ handed = handed.take completed ++ [u.queue.take u.inflight] ∧
      handed.length = completed + 1 ∨
    u.active = false ∧ handed.length = completed

variable {accepted : List UInt8} {handed : List (List UInt8)} {completed : ℕ} {u' : Kernel.Usb}

/-- **A kick hands over the next of the accepted bytes.** Behind it something
is in flight, or nothing is left. -/
theorem Sent.kick (h : Sent u accepted r.handed completed) (hc : u.configured = true)
    (hk : Kick r r' u u') :
    Sent u' accepted r'.handed completed ∧ (u'.active = false → u'.queue = []) := by
  cases hk with
  | idle same same' why =>
    subst same same'
    refine ⟨h, fun hidle => ?_⟩
    rcases why with hno | hyes | hempty
    · rw [hc] at hno
      cases hno
    · rw [hidle] at hyes
      cases hyes
    · exact hempty
  | sent n pos le le_queue idle next handed' memory =>
    subst next
    have hlen : r.handed.length = completed := by
      rcases h.flight with ⟨hactive, -, -⟩ | ⟨-, hlen⟩
      · rw [idle] at hactive
        cases hactive
      · exact hlen
    -- nothing is in flight, so all that was handed over is sent
    have htake : (r.handed ++ [u.queue.take n]).take completed = r.handed := by
      rw [← hlen, List.take_left' rfl]
    refine ⟨⟨h.accepted_eq, ?_, ?_, Or.inl ⟨rfl, ?_, ?_⟩⟩, by simp⟩
    · rw [handed', htake, h.delivered_eq, ← hlen, List.take_length]
    · intro p hp
      rw [handed', List.mem_append, List.mem_singleton] at hp
      rcases hp with hp | rfl
      · exact h.sizes p hp
      · rw [List.length_take, Nat.min_eq_left le_queue]
        exact ⟨pos, le⟩
    · rw [handed', htake]
    · rw [handed', List.length_append, hlen, List.length_singleton]

/-- **A completion retires the packet that was in flight.** Without one it
counts for nothing. -/
theorem Sent.retire (h : Sent u accepted handed completed) :
    Sent (retired u) accepted handed (if completed < handed.length then completed + 1
      else completed) := by
  rcases h.flight with ⟨hactive, hhanded, hlen⟩ | ⟨hidle, hlen⟩
  · rw [if_pos (by omega), retired, if_pos hactive]
    have htake : handed.take (completed + 1) = handed := by rw [← hlen, List.take_length]
    refine ⟨?_, ?_, h.sizes, Or.inr ⟨rfl, hlen⟩⟩
    · simp only
      rw [List.append_assoc, List.take_append_drop]
      exact h.accepted_eq
    · rw [htake, h.delivered_eq]
      conv_rhs => rw [hhanded]
      rw [List.flatten_append, List.flatten_singleton]
  · have hstay : retired u = u := if_neg (by rw [hidle]; simp)
    rw [if_neg (by omega), hstay]
    exact h

/-- **A span that is accepted comes behind all before it.** The packet in flight
is not touched. -/
theorem Sent.push (h : Sent u accepted handed completed) (hle : u.inflight ≤ u.queue.length)
    (data : List UInt8) :
    Sent { u with queue := u.queue ++ data } (accepted ++ data) handed completed := by
  refine ⟨by rw [h.accepted_eq, List.append_assoc], h.delivered_eq, h.sizes, ?_⟩
  simp only [List.take_append_of_le_length hle]
  exact h.flight

/-- **The packets are a prefix of what was accepted**, and the sent ones what
precedes the ring. -/
theorem Sent.prefix_ (h : Sent u accepted handed completed) :
    handed.flatten <+: accepted ∧
      accepted.drop (handed.take completed).flatten.length = u.queue := by
  constructor
  · rcases h.flight with ⟨-, hhanded, -⟩ | ⟨-, hlen⟩
    · rw [hhanded, List.flatten_append, List.flatten_singleton, ← h.delivered_eq, h.accepted_eq]
      exact (List.prefix_append_right_inj _).2 (List.take_prefix _ _)
    · rw [h.accepted_eq, h.delivered_eq, ← hlen, List.take_length]
      exact List.prefix_append _ _
  · rw [h.accepted_eq, ← h.delivered_eq, List.drop_left' rfl]

/-! ## The receive half -/

/-- An OUT byte goes behind the unread ones where fewer than 512 are unread. -/
theorem takeByte_rx {unread : List UInt8} (h : Holds r.rxRing rxRingCapacity r.rxHead r.rxTail unread)
    (byte : UInt8) :
    Holds (r.takeByte byte).rxRing rxRingCapacity (r.takeByte byte).rxHead (r.takeByte byte).rxTail
      (if unread.length < rxRingCapacity then unread ++ [byte] else unread) := by
  have hdepth := (h.depth (by decide)).2
  by_cases hroom : unread.length < rxRingCapacity
  · rw [Rings.takeByte]
    simp only [hdepth, if_pos hroom, cell_rxRingMask]
    exact h.push rxRingCapacity_dvd (d := [byte]) hroom
  · rw [Rings.takeByte]
    simp only [hdepth, if_neg hroom]
    exact h

/-- The transmit half, and what `usb_management_handle_out` leaves of it. -/
structure SameTx (r r' : Rings) : Prop where
  configured : r'.configured = r.configured
  txRing : r'.txRing = r.txRing
  txHead : r'.txHead = r.txHead
  txTail : r'.txTail = r.txTail
  txInflight : r'.txInflight = r.txInflight
  txActive : r'.txActive = r.txActive
  pma : r'.pma = r.pma
  txCount : r'.txCount = r.txCount
  handed : r'.handed = r.handed
  packetCount : r'.diagnostics.managementTxPacketCount = r.diagnostics.managementTxPacketCount

theorem SameTx.refl (r : Rings) : SameTx r r := ⟨rfl, rfl, rfl, rfl, rfl, rfl, rfl, rfl, rfl, rfl⟩

/-- Taking a byte leaves the transmitter alone. -/
theorem SameTx.takeByte (h : SameTx r r') (byte : UInt8) : SameTx r (r'.takeByte byte) := by
  rw [Rings.takeByte]
  dsimp only
  split
  · exact ⟨h.configured, h.txRing, h.txHead, h.txTail, h.txInflight, h.txActive, h.pma, h.txCount,
      h.handed, h.packetCount⟩
  · exact ⟨h.configured, h.txRing, h.txHead, h.txTail, h.txInflight, h.txActive, h.pma, h.txCount,
      h.handed, h.packetCount⟩

/-- What leaves the transmitter alone leaves the queue. -/
theorem SameTx.refines (h : SameTx r r') (hr : Refines r u) : Refines r' u :=
  ⟨hr.configured.trans h.configured.symm, by rw [h.txRing, h.txHead, h.txTail]; exact hr.queue,
    by rw [h.txInflight]; exact hr.inflight, h.txActive.trans hr.active,
    h.packetCount.trans hr.packetCount, hr.inflight_le⟩

/-- The loop reads the packet's bytes, one after the other. -/
theorem outLoop_eq (pma : Pma) (r : Rings) (n : ℕ) :
    ((List.range n).foldl (outStep pma) { rings := r }).rings =
        (pma.packet ep4RxLocal n).foldl Rings.takeByte r ∧
      (0 < n → ((List.range n).foldl (outStep pma) { rings := r }).word =
        pma (ep4RxLocal + 2 * ((n - 1) / 2))) := by
  induction n with
  | zero => exact ⟨rfl, fun h => absurd h (Nat.lt_irrefl 0)⟩
  | succ n ih =>
    obtain ⟨hrings, hword⟩ := ih
    have hpacket : pma.packet ep4RxLocal (n + 1) =
        pma.packet ep4RxLocal n ++ [pma.byte ep4RxLocal n] := by
      simp [Pma.packet, List.range_succ]
    rw [List.range_succ, List.foldl_append, List.foldl_cons, List.foldl_nil, hpacket,
      List.foldl_append, List.foldl_cons, List.foldl_nil, ← hrings]
    generalize (List.range n).foldl (outStep pma) { rings := r } = s at hword ⊢
    by_cases heven : n % 2 = 0
    · have hhalf : 2 * (n / 2) = n := by omega
      simp only [outStep, Pma.byte, if_pos heven, low_masked, Nat.add_sub_cancel, hhalf, and_self,
        implies_true]
    -- the word was read for the byte before
    · have hhalf : 2 * (n / 2) = n - 1 := by omega
      have hhalf' : 2 * ((n - 1) / 2) = n - 1 := by omega
      rw [hhalf'] at hword
      simp only [outStep, Pma.byte, if_neg heven, hword (by omega), Nat.add_sub_cancel, hhalf,
        and_self, implies_true]

/-- A state whose receive ring holds what was kept and is not yet read. -/
def Inbox (r : Rings) (read kept : List UInt8) : Prop :=
  ∃ unread, Holds r.rxRing rxRingCapacity r.rxHead r.rxTail unread ∧ kept = read ++ unread

variable {read kept : List UInt8}

/-- A byte is kept where there is room. -/
theorem Inbox.takeByte (h : Inbox r read kept) (byte : UInt8) :
    Inbox (r.takeByte byte) read (keep read.length kept byte) := by
  obtain ⟨unread, hholds, rfl⟩ := h
  have hcount : (read ++ unread).length - read.length = unread.length := by simp
  refine ⟨_, takeByte_rx hholds byte, ?_⟩
  rw [keep, hcount]
  split <;> simp

/-- **The bytes of a packet are kept while there is room**, each by itself, so
of a packet that does not fit its first bytes are kept. -/
theorem Inbox.takeBytes (h : Inbox r read kept) (bytes : List UInt8) :
    Inbox (bytes.foldl Rings.takeByte r) read (bytes.foldl (keep read.length) kept) ∧
      SameTx r (bytes.foldl Rings.takeByte r) := by
  have hrun : ∀ (bytes : List UInt8) (r' : Rings) (kept : List UInt8), Inbox r' read kept →
      SameTx r r' → Inbox (bytes.foldl Rings.takeByte r') read (bytes.foldl (keep read.length) kept) ∧
        SameTx r (bytes.foldl Rings.takeByte r') := by
    intro bytes
    induction bytes with
    | nil => exact fun _ _ hin hsame => ⟨hin, hsame⟩
    | cons b bytes ih => exact fun r' kept hin hsame => ih _ _ (hin.takeByte b) (hsame.takeByte b)
  exact hrun bytes r kept h (SameTx.refl r)

/-- The bytes of a packet are kept in order, where there is room. -/
theorem Inbox.handleOut (h : Inbox r read kept) (pma : Pma) (rxCount : UInt16) :
    Inbox (r.handleOut pma rxCount) read
        ((pma.packet ep4RxLocal (rxCount &&& countMask).toNat).foldl (keep read.length) kept) ∧
      SameTx r (r.handleOut pma rxCount) := by
  obtain ⟨d, hd⟩ : ∃ d : RingDiagnostics, d =
      { r.diagnostics with
          managementRxPacketCount := r.diagnostics.managementRxPacketCount + 1
          managementRxByteCount :=
            r.diagnostics.managementRxByteCount + (rxCount &&& countMask).toUInt32 } := ⟨_, rfl⟩
  have hin : Inbox { r with diagnostics := d } read kept := h
  have hcount : d.managementTxPacketCount = r.diagnostics.managementTxPacketCount := by rw [hd]
  have hloop := (outLoop_eq pma { r with diagnostics := d } (rxCount &&& countMask).toNat).1
  obtain ⟨hin', hsame'⟩ := hin.takeBytes (pma.packet ep4RxLocal (rxCount &&& countMask).toNat)
  rw [← hloop] at hin' hsame'
  rw [Rings.handleOut]
  simp only [← hd]
  generalize (List.range (rxCount &&& countMask).toNat).foldl (outStep pma)
    { rings := { r with diagnostics := d } } = s at hin' hsame'
  split
  · exact ⟨hin', ⟨hsame'.configured, hsame'.txRing, hsame'.txHead, hsame'.txTail,
      hsame'.txInflight, hsame'.txActive, hsame'.pma, hsame'.txCount, hsame'.handed,
      hsame'.packetCount.trans hcount⟩⟩
  · exact ⟨hin', ⟨hsame'.configured, hsame'.txRing, hsame'.txHead, hsame'.txTail,
      hsame'.txInflight, hsame'.txActive, hsame'.pma, hsame'.txCount, hsame'.handed,
      hsame'.packetCount.trans hcount⟩⟩

/-- **A read takes the first unread byte**, if there is one. -/
theorem Inbox.tryGetc (h : Inbox r read kept) :
    Inbox r.tryGetc.1 (read ++ r.tryGetc.2.toList) kept ∧ SameTx r r.tryGetc.1 ∧
      r.tryGetc.2 = (kept.drop read.length).head? := by
  obtain ⟨unread, hholds, rfl⟩ := h
  have hdrop : (read ++ unread).drop read.length = unread := List.drop_left' rfl
  rw [hdrop]
  by_cases hempty : r.rxTail = r.rxHead
  · have hnil : unread = [] := by
      have hdepth := (hholds.depth (by decide)).2
      rw [hempty, UInt32.sub_self] at hdepth
      exact List.length_eq_zero_iff.1 hdepth.symm
    subst hnil
    rw [Rings.tryGetc, if_pos hempty]
    exact ⟨⟨[], hholds, by simp⟩, SameTx.refl r, rfl⟩
  · rw [Rings.tryGetc, if_neg hempty]
    cases unread with
    | nil => exact absurd (by simpa using hholds.head_eq.symm) hempty
    | cons b rest =>
      have hfirst : r.rxRing (r.rxTail.toNat % rxRingCapacity) = b := by
        have hcontents := hholds.contents_eq
        rw [List.length_cons, Nat.add_comm, Ring.contents_add, Ring.contents_one] at hcontents
        exact (List.cons.inj hcontents).1
      have hadvance := hholds.advance rxRingCapacity_dvd (m := 1) (by simp)
      simp only [cell_rxRingMask, hfirst, Option.toList_some, List.head?_cons]
      exact ⟨⟨rest, hadvance, by simp⟩, ⟨rfl, rfl, rfl, rfl, rfl, rfl, rfl, rfl, rfl, rfl⟩, trivial⟩

/-! ## Runs -/

/-- The receive half, and what the writer and a completion leave of it. -/
structure SameRx (r r' : Rings) : Prop where
  rxRing : r'.rxRing = r.rxRing
  rxHead : r'.rxHead = r.rxHead
  rxTail : r'.rxTail = r.rxTail

theorem SameRx.inbox (h : SameRx r r') (hin : Inbox r read kept) : Inbox r' read kept := by
  obtain ⟨unread, hholds, hkept⟩ := hin
  exact ⟨unread, by rw [h.rxRing, h.rxHead, h.rxTail]; exact hholds, hkept⟩

/-- Starting a packet leaves the receiver alone. -/
theorem SameRx.txKick (h : SameRx r r') : SameRx r r'.txKick := by
  rw [Rings.txKick]
  dsimp only
  split
  · exact h
  · split
    · exact h
    · exact ⟨h.rxRing, h.rxHead, h.rxTail⟩

theorem SameRx.retire (r : Rings) : SameRx r r.retire := by
  rw [Rings.retire]
  split
  · exact ⟨rfl, rfl, rfl⟩
  · exact ⟨rfl, rfl, rfl⟩

/-- The transmit half of the invariant, of the rings and a list. -/
structure InFlight (r : Rings) (u : Kernel.Usb) (accepted : List UInt8) (completed : ℕ) : Prop where
  refines : Refines r u
  sent : Sent u accepted r.handed completed
  /-- While a packet is in flight the packet memory holds it. -/
  memory : u.active = true →
    r.pma.packet ep4TxLocal r.txCount.toNat = u.queue.take u.inflight

/-- A kick keeps it, and leaves nothing waiting behind an idle endpoint. -/
theorem InFlight.kick (h : InFlight r u accepted completed) (hc : r.configured = true) :
    r.txKick.configured = true ∧ ∃ u', InFlight r.txKick u' accepted completed ∧
      (u'.active = false → u'.queue = []) := by
  have huc : u.configured = true := h.refines.configured.trans hc
  obtain ⟨hrefines, hkick⟩ := h.refines.txKick
  obtain ⟨hsent, hserved⟩ := h.sent.kick huc hkick
  refine ⟨?_, u.txKick, ⟨hrefines, hsent, ?_⟩, hserved⟩
  · rw [← hrefines.configured]
    cases hkick with
    | idle _ same' _ => rw [same', huc]
    | sent _ _ _ _ _ next _ _ => rw [next, huc]
  · cases hkick with
    | idle same same' _ => rw [same, same']; exact h.memory
    | sent n _ _ _ _ next _ memory => rw [next]; exact fun _ => memory

theorem handed_retire (r : Rings) : r.retire.handed = r.handed := by
  rw [Rings.retire]
  split <;> rfl

theorem configured_retire (r : Rings) : r.retire.configured = r.configured := by
  rw [Rings.retire]
  split <;> rfl

theorem active_retired (u : Kernel.Usb) : (retired u).active = false := by
  rw [retired]
  split
  · rfl
  · simpa using ‹¬ u.active = true›

theorem InFlight.retire (h : InFlight r u accepted completed) :
    InFlight r.retire (retired u) accepted
      (if completed < r.handed.length then completed + 1 else completed) where
  refines := h.refines.retire
  sent := by rw [handed_retire]; exact h.sent.retire
  memory := fun hactive => by rw [active_retired] at hactive; cases hactive

/-- A span that fits is accepted. -/
theorem InFlight.stored (h : InFlight r u accepted completed)
    (hfit : u.queue.length + data.length ≤ txRingCapacity) :
    InFlight (r.stored data) { u with queue := u.queue ++ data } (accepted ++ data) completed where
  refines := h.refines.stored hfit
  sent := h.sent.push h.refines.inflight_le data
  memory := fun hactive => by
    simp only [List.take_append_of_le_length h.refines.inflight_le]
    exact h.memory hactive

theorem SameTx.inFlight (hsame : SameTx r r') (h : InFlight r u accepted completed) :
    InFlight r' u accepted completed where
  refines := hsame.refines h.refines
  sent := by rw [hsame.handed]; exact h.sent
  memory := by rw [hsame.pma, hsame.txCount]; exact h.memory

/-- **What every run keeps.** -/
structure RingRun.Inv (s : RingRun) : Prop where
  configured : s.rings.configured = true
  inbox : Inbox s.rings s.read s.kept
  inFlight : ∃ u, InFlight s.rings u s.accepted.flatten s.completed ∧
    (u.active = false → u.queue = [])

/-- The invariant holds at the start. -/
theorem RingRun.Inv.init : RingRun.Inv {} where
  configured := rfl
  inbox := ⟨[], Holds.empty _ _ _, rfl⟩
  inFlight := ⟨{ configured := true },
    ⟨⟨rfl, Holds.empty _ _ _, rfl, rfl, rfl, Nat.le_refl 0⟩,
      ⟨rfl, rfl, fun _ hp => (List.not_mem_nil hp).elim, Or.inr ⟨rfl, rfl⟩⟩, fun hactive => by cases hactive⟩,
    fun _ => rfl⟩

/-- Writing a span keeps the invariant. -/
theorem RingRun.Inv.writeSpan {s : RingRun} (h : s.Inv) (data : List UInt8) :
    (s.step (.writeSpan data)).Inv := by
  obtain ⟨hc, hin, u, hflight, hserved⟩ := h
  by_cases hnil : data = []
  · subst hnil
    refine ⟨hc, hin, u, ?_, hserved⟩
    have hsame : (s.accepted ++ [[]]).flatten = s.accepted.flatten := by simp
    simp only [RingRun.step, writeSpanAtomic_nil, if_true, hsame]
    exact hflight
  -- it fits beside the bytes that wait, or is refused and drops nothing else
  by_cases hfit : u.queue.length + data.length ≤ txRingCapacity
  · have hwrite := writeSpanAtomic_of_fits hflight.refines hc hnil hfit
    obtain ⟨hc', u', hflight', hserved'⟩ := (hflight.stored hfit).kick hc
    have hflat : (s.accepted ++ [data]).flatten = s.accepted.flatten ++ data := by simp
    have hrx : SameRx s.rings (s.rings.stored data).txKick :=
      SameRx.txKick (show SameRx s.rings (s.rings.stored data) from ⟨rfl, rfl, rfl⟩)
    refine ⟨?_, ?_, u', ?_, hserved'⟩
    · simp only [RingRun.step, hwrite]
      exact hc'
    · simp only [RingRun.step, hwrite]
      exact hrx.inbox hin
    · simp only [RingRun.step, hwrite, if_true, hflat]
      exact hflight'
  · have hwrite : s.rings.writeSpanAtomic data = (s.rings.refused data, false) :=
      writeSpanAtomic_of_not_fits hflight.refines hc hfit
    refine ⟨?_, ?_, u, ?_, hserved⟩
    · simp only [RingRun.step, hwrite]
      exact hc
    · simp only [RingRun.step, hwrite]
      exact hin
    · simp only [RingRun.step, hwrite, Bool.false_eq_true, if_false]
      exact ⟨hflight.refines.refused, hflight.sent, hflight.memory⟩

/-- A completed packet keeps the invariant. -/
theorem RingRun.Inv.inCompletion {s : RingRun} (h : s.Inv) : (s.step .inCompletion).Inv := by
  obtain ⟨hc, hin, u, hflight, -⟩ := h
  obtain ⟨hc', u', hflight', hserved'⟩ :=
    hflight.retire.kick ((configured_retire s.rings).trans hc)
  have hrx : SameRx s.rings s.rings.retire.txKick := (SameRx.retire s.rings).txKick
  exact ⟨hc', hrx.inbox hin, u', hflight', hserved'⟩

/-- A received packet keeps the invariant. -/
theorem RingRun.Inv.outPacket {s : RingRun} (h : s.Inv) (pma : Pma) (rxCount : UInt16) :
    (s.step (.outPacket pma rxCount)).Inv := by
  obtain ⟨hc, hin, u, hflight, hserved⟩ := h
  obtain ⟨hin', hsame⟩ := hin.handleOut pma rxCount
  exact ⟨hsame.configured.trans hc, hin', u, hsame.inFlight hflight, hserved⟩

/-- Reading a byte keeps the invariant. -/
theorem RingRun.Inv.tryGetc {s : RingRun} (h : s.Inv) : (s.step .tryGetc).Inv := by
  obtain ⟨hc, hin, u, hflight, hserved⟩ := h
  obtain ⟨hin', hsame, -⟩ := hin.tryGetc
  exact ⟨hsame.configured.trans hc, hin', u, hsame.inFlight hflight, hserved⟩

/-- **Every event keeps the invariant.** -/
theorem RingRun.Inv.step {s : RingRun} (h : s.Inv) : ∀ e : RingEvent, (s.step e).Inv
  | .writeSpan data => h.writeSpan data
  | .inCompletion => h.inCompletion
  | .outPacket pma rxCount => h.outPacket pma rxCount
  | .tryGetc => h.tryGetc

theorem inv_ringRun (events : List RingEvent) : (ringRun events).Inv := by
  have hrun : ∀ (events : List RingEvent) (s : RingRun), s.Inv →
      (events.foldl RingRun.step s).Inv := by
    intro events
    induction events with
    | nil => exact fun _ h => h
    | cons e events ih => exact fun s h => ih _ (h.step e)
  exact hrun events {} RingRun.Inv.init

/-- The accepted bytes that are not yet sent. -/
def RingRun.pending (s : RingRun) : List UInt8 :=
  s.accepted.flatten.drop (s.rings.handed.take s.completed).flatten.length

/-- **Nothing is lost, doubled or reordered by the management rings.** After
any calls of the writer and the reader, IN completions and OUT packets, in any
order and over any wrap of the counters: the packets handed to the endpoint,
of 1 to 64 bytes, follow one another through the accepted spans, at most one
of them in flight, and with none in flight all was handed over; the ring holds
every accepted byte not yet sent, and the packet memory the packet in flight;
a span is accepted where it fits beside them and else refused. What is read
comes in order from the OUT bytes that arrived while fewer than 512 were
unread, the next one whenever there is one. -/
theorem management_rings_exact (events : List RingEvent) :
    let s := ringRun events
    (s.rings.handed.flatten <+: s.accepted.flatten ∧
      (∀ p ∈ s.rings.handed, 0 < p.length ∧ p.length ≤ 64) ∧
      s.completed ≤ s.rings.handed.length ∧ s.rings.handed.length ≤ s.completed + 1 ∧
      (s.rings.handed.length = s.completed →
        s.rings.handed.flatten = s.accepted.flatten)) ∧
    (Ring.contents s.rings.txRing 1024 s.rings.txTail.toNat s.pending.length = s.pending ∧
      (s.rings.handed.length = s.completed + 1 →
        s.rings.handed.getLast? =
          some (s.rings.pma.packet ep4TxLocal s.rings.txCount.toNat)) ∧
      ∀ data, (s.rings.writeSpanAtomic data).2 = true ↔
        s.pending.length + data.length ≤ 1024) ∧
    (s.read <+: s.kept ∧ s.kept.length - s.read.length ≤ 512 ∧
      s.rings.tryGetc.2 = (s.kept.drop s.read.length).head?) := by
  intro s
  have hinv : s.Inv := inv_ringRun events
  clear_value s
  obtain ⟨hc, hin, u, ⟨hrefines, hsent, hmemory⟩, hserved⟩ := hinv
  obtain ⟨hbegun, hpending⟩ := hsent.prefix_
  have hpending : s.pending = u.queue := hpending
  have hread := hin.tryGetc.2.2
  refine ⟨⟨hbegun, hsent.sizes, ?_, ?_, ?_⟩, ⟨?_, ?_, ?_⟩, ?_, ?_, hread⟩
  · rcases hsent.flight with ⟨-, -, hlen⟩ | ⟨-, hlen⟩ <;> omega
  · rcases hsent.flight with ⟨-, -, hlen⟩ | ⟨-, hlen⟩ <;> omega
  · intro hall
    rcases hsent.flight with ⟨-, -, hlen⟩ | ⟨hidle, hlen⟩
    · omega
    · have haccepted := hsent.accepted_eq
      rw [hserved hidle, List.append_nil, hsent.delivered_eq, ← hlen, List.take_length] at haccepted
      exact haccepted.symm
  · rw [hpending]
    exact hrefines.queue.contents_eq
  · intro hone
    rcases hsent.flight with ⟨hactive, hhanded, -⟩ | ⟨-, hlen⟩
    · rw [hmemory hactive, hhanded, List.getLast?_concat]
    · omega
  · intro data
    rw [hpending]
    have hfits : u.queue.length ≤ 1024 := hrefines.queue.fits
    by_cases hnil : data = []
    · subst hnil
      exact iff_of_true rfl (by simpa using hfits)
    by_cases hfit : u.queue.length + data.length ≤ txRingCapacity
    · rw [writeSpanAtomic_of_fits hrefines hc hnil hfit]
      exact iff_of_true rfl hfit
    · rw [writeSpanAtomic_of_not_fits hrefines hc hfit]
      exact iff_of_false (by simp) hfit
  · obtain ⟨unread, -, hkept⟩ := hin
    exact ⟨unread, hkept.symm⟩
  · obtain ⟨unread, hholds, hkept⟩ := hin
    have hfits : unread.length ≤ 512 := hholds.fits
    have hlen : s.kept.length = s.read.length + unread.length := by
      rw [hkept, List.length_append]
    omega

end Usb

end DeusOs
