import DeusOs.NodeLink.Model.Runtime
import DeusOs.NodeLink.Stream
import DeusOs.NodeLink.Worker

/-!
# The node link — what the worker is handed

The runtime hands the worker the encoding of a frame that was decoded. The
codec is a bijection, so these are the bytes that arrived, in one piece
(`handed_received`), and to compare them with the last request is to
compare the frames.
-/

namespace DeusOs

namespace NodeLink

variable {w : Worker} {s : Stream} {rt : Runtime} {f : Frame} {raw : List UInt8} {cap : ℕ}

/-! ## The stream -/

/-- The loop keeps an end of the buffer, and takes the frame it returns out
of the buffer in one piece. -/
theorem resync_infix (started : Bool) (at₀ : UInt32) (xs : List UInt8) :
    (resync started at₀ xs).1.bytes <:+ xs ∧
      ∀ f, (resync started at₀ xs).2 = some f → ∃ raw, raw <:+: xs ∧ decode raw = some f := by
  induction xs generalizing started with
  | nil => exact ⟨List.suffix_refl _, fun f h => by cases h⟩
  | cons x xs ih =>
    rw [resync_cons]
    cases hj : judge (x :: xs) with
    | wait => exact ⟨List.suffix_refl _, fun f h => by cases h⟩
    | reject n =>
      obtain ⟨hkept, hfound⟩ := ih (if xs.length = 0 then false else started)
      refine ⟨hkept.trans (List.suffix_cons x xs), fun f hf => ?_⟩
      obtain ⟨raw, hraw, hd⟩ := hfound f hf
      exact ⟨raw, hraw.trans (List.suffix_cons x xs).isInfix, hd⟩
    | accept n g =>
      refine ⟨List.nil_suffix, fun f hf => ?_⟩
      cases hf
      obtain ⟨-, hd⟩ := frameAt_eq_some.1 (judge_eq_accept_iff.1 hj)
      exact ⟨_, (List.take_prefix n (x :: xs)).isInfix, hd⟩

/-- A byte is put behind an end of what was held. -/
theorem feed_held (s : Stream) (x : UInt8) (t : UInt32) :
    ∃ held started at₀, held <:+ s.bytes ∧ s.feed x t = resync started at₀ (held ++ [x]) := by
  unfold Stream.feed
  refine ⟨_, _, _, ?_, rfl⟩
  split_ifs <;> first | exact List.nil_suffix | exact List.suffix_refl _

/-- **One byte** keeps an end of what was received, and a frame it returns
was received in one piece. -/
theorem feed_mid (s : Stream) (x : UInt8) (t : UInt32) :
    (s.feed x t).1.bytes <:+ s.bytes ++ [x] ∧
      ∀ f, (s.feed x t).2 = some f → ∃ raw, raw <:+: s.bytes ++ [x] ∧ decode raw = some f := by
  obtain ⟨held, started, at₀, hheld, heq⟩ := feed_held s x t
  have hall : held ++ [x] <:+ s.bytes ++ [x] := by
    obtain ⟨lost, hlost⟩ := hheld
    exact ⟨lost, by rw [← List.append_assoc, hlost]⟩
  obtain ⟨hkept, hfound⟩ := resync_infix started at₀ (held ++ [x])
  rw [heq]
  refine ⟨hkept.trans hall, fun f hf => ?_⟩
  obtain ⟨raw, hraw, hd⟩ := hfound f hf
  exact ⟨raw, hraw.trans hall.isInfix, hd⟩

/-! ## The runtime -/

/-- What `deus_esp01_node_runtime_feed` makes of a byte that completes no frame. -/
theorem feed_of_none {x : UInt8} {t : UInt32} (h : (rt.stream.feed x t).2 = none) (cap : ℕ) :
    rt.feed x t cap =
      ({ rt with
          stream := (rt.stream.feed x t).1
          invalidOrPartialBytes := counted rt.invalidOrPartialBytes }, .error .drop) := by
  have hpair : rt.stream.feed x t = ((rt.stream.feed x t).1, none) := Prod.ext rfl h
  unfold Runtime.feed
  rw [hpair]

/-- What it makes of a byte that completes the frame encoded in `raw`. -/
theorem feed_of_some {x : UInt8} {t : UInt32} (h : (rt.stream.feed x t).2 = some f)
    (he : encode f maxFrame = .ok raw) (cap : ℕ) :
    (rt.feed x t cap).1.stream = (rt.stream.feed x t).1 ∧
      (rt.feed x t cap).1.worker = (rt.worker.process raw cap).1 ∧
      (rt.feed x t cap).2 = (rt.worker.process raw cap).2 := by
  have hpair : rt.stream.feed x t = ((rt.stream.feed x t).1, some f) := Prod.ext rfl h
  unfold Runtime.feed
  rw [hpair]
  simp only [he]
  rcases rt.worker.process raw cap with ⟨w, e | reply⟩
  · exact ⟨rfl, rfl, rfl⟩
  · exact ⟨rfl, rfl, rfl⟩

/-- The encoding of an accepted buffer's frame is the buffer. -/
theorem encode_of_decode (h : decode raw = some f) (hcap : raw.length ≤ cap) :
    encode f cap = .ok raw := by
  obtain ⟨hfits, hlen⟩ := fits_of_decode h
  rw [encode_eq hfits (by simp only [frameOverhead]; omega), wire_of_decode h]

/-- A runtime that was fed `received` holds an end of it, and the request its
worker remembers is a piece of it. -/
structure Runtime.Received (rt : Runtime) (received : List UInt8) : Prop where
  held : rt.stream.bytes <:+ received
  last : rt.worker.hasLast = true →
    rt.worker.lastRequest <:+: received ∧ ∃ f, decode rt.worker.lastRequest = some f

/-- A frame that fits in the buffer of the runtime. -/
theorem length_of_decode (h : decode raw = some f) : raw.length ≤ maxFrame := by
  obtain ⟨hfits, hlen⟩ := fits_of_decode h
  have := hfits.payload
  simp only [maxPayload, maxFrame] at *
  omega

/-- A frame the runtime's stream returns was received in one piece. -/
theorem Runtime.Received.handed {received : List UInt8} (h : rt.Received received) {x : UInt8}
    {t : UInt32} (hf : (rt.stream.feed x t).2 = some f) :
    ∃ raw, raw <:+: received ++ [x] ∧ decode raw = some f ∧ encode f maxFrame = .ok raw := by
  obtain ⟨raw, hraw, hd⟩ := (feed_mid rt.stream x t).2 f hf
  obtain ⟨before, hbefore⟩ := h.held
  have hpiece : raw <:+: received ++ [x] := by
    refine hraw.trans (List.IsSuffix.isInfix ⟨before, ?_⟩)
    rw [← List.append_assoc, hbefore]
  exact ⟨raw, hpiece, hd, encode_of_decode hd (length_of_decode hd)⟩

/-- The request a worker remembers after a call is the one it remembered, or the
one it was called with. -/
theorem lastRequest_process (w : Worker) (raw : List UInt8) (cap : ℕ)
    (h : (w.process raw cap).1.hasLast = true) :
    ((w.process raw cap).1.lastRequest = w.lastRequest ∧ w.hasLast = true) ∨
      (w.process raw cap).1.lastRequest = raw := by
  have hcall := process_handled w raw cap
  generalize (w.process raw cap).2 = reply at hcall
  generalize (w.process raw cap).1 = w' at h hcall ⊢
  cases hcall with
  | ignored e => exact Or.inl ⟨rfl, h⟩
  | replayed live same => exact Or.inl ⟨rfl, h⟩
  | acknowledged live => exact Or.inl ⟨rfl, h⟩
  | refused req decoded request other session wrong => exact Or.inl ⟨rfl, h⟩
  | opened challenge hopen => cases h
  | executed req hexec => exact Or.inr rfl

/-- **One byte.** -/
theorem Runtime.Received.feed {received : List UInt8} (h : rt.Received received) (x : UInt8)
    (t : UInt32) (cap : ℕ) : (rt.feed x t cap).1.Received (received ++ [x]) := by
  have hheld : (rt.stream.feed x t).1.bytes <:+ received ++ [x] := by
    obtain ⟨before, hbefore⟩ := h.held
    refine (feed_mid rt.stream x t).1.trans ⟨before, ?_⟩
    rw [← List.append_assoc, hbefore]
  have hmore : received <:+: received ++ [x] := (List.prefix_append received [x]).isInfix
  cases hf : (rt.stream.feed x t).2 with
  | none =>
    rw [feed_of_none hf]
    exact ⟨hheld, fun hl => ⟨(h.last hl).1.trans hmore, (h.last hl).2⟩⟩
  | some f =>
    obtain ⟨raw, hraw, hd, he⟩ := h.handed hf
    obtain ⟨hs, hw, -⟩ := feed_of_some hf he cap
    refine ⟨by rw [hs]; exact hheld, fun hl => ?_⟩
    rw [hw] at hl ⊢
    rcases lastRequest_process rt.worker raw cap hl with ⟨hkept, hlast⟩ | hnew
    · rw [hkept]
      exact ⟨(h.last hlast).1.trans hmore, (h.last hlast).2⟩
    · rw [hnew]
      exact ⟨hraw, f, hd⟩

/-- What was fed, of a run. -/
theorem Runtime.Received.run {received : List UInt8} (h : rt.Received received)
    (inputs : List Fed) : (rt.run inputs).Received (received ++ inputs.map Fed.byte) := by
  induction inputs generalizing rt received with
  | nil => rwa [List.map_nil, List.append_nil]
  | cons x xs ih =>
    have hrest := ih (h.feed x.byte x.ms x.cap)
    rw [List.append_assoc] at hrest
    exact hrest

theorem received_init : Runtime.Received {} [] :=
  ⟨List.suffix_refl _, fun h => by cases h⟩

/-- **The codec is a bijection, and the worker is handed what arrived.** What
is encoded is decoded to itself, what is decoded is encoded to itself, and
whenever a byte completes a frame, whatever was fed before it, the worker is handed
the bytes of that frame as they arrived. The request it remembers is a frame
that arrived as well, and the two are equal as bytes when they are as frames. -/
theorem handed_received :
    (∀ (f : Frame) (cap : ℕ), f.sequence ≠ 0 → f.payload.length ≤ maxPayload →
      frameOverhead + f.payload.length ≤ cap →
        ∃ out, encode f cap = .ok out ∧ decode out = some f) ∧
    (∀ (raw : List UInt8) (f : Frame) (cap : ℕ), decode raw = some f → raw.length ≤ cap →
      encode f cap = .ok raw) ∧
    ∀ (inputs : List Fed) (x : Fed) (f : Frame),
      ((Runtime.run {} inputs).stream.feed x.byte x.ms).2 = some f →
        ∃ raw, raw <:+: (inputs ++ [x]).map Fed.byte ∧ decode raw = some f ∧
          encode f maxFrame = .ok raw ∧
          ((Runtime.run {} inputs).feed x.byte x.ms x.cap).1.worker =
            ((Runtime.run {} inputs).worker.process raw x.cap).1 ∧
          ((Runtime.run {} inputs).feed x.byte x.ms x.cap).2 =
            ((Runtime.run {} inputs).worker.process raw x.cap).2 ∧
          ((Runtime.run {} inputs).worker.hasLast = true →
            (Runtime.run {} inputs).worker.lastRequest <:+: inputs.map Fed.byte ∧
            (raw = (Runtime.run {} inputs).worker.lastRequest ↔
              decode (Runtime.run {} inputs).worker.lastRequest = some f)) := by
  refine ⟨fun f cap hseq hpay hcap => ⟨f.wire, encode_eq ⟨hseq, hpay⟩ hcap, decode_wire ⟨hseq, hpay⟩⟩,
    fun raw f cap h hcap => encode_of_decode h hcap, fun inputs x f hf => ?_⟩
  have hrun : (Runtime.run {} inputs).Received (inputs.map Fed.byte) := received_init.run inputs
  obtain ⟨raw, hraw, hd, he⟩ := hrun.handed hf
  obtain ⟨-, hw, hreply⟩ := feed_of_some hf he x.cap
  refine ⟨raw, by rw [List.map_append]; exact hraw, hd, he, hw, hreply, fun hl => ?_⟩
  refine ⟨(hrun.last hl).1, fun heq => heq ▸ hd, fun hlast => ?_⟩
  rw [← wire_of_decode hd, ← wire_of_decode hlast]

/-- A `HELLO` as it is fed, less its last byte. -/
def helloFed : List Fed := (helloFrame 0x04030201).wire.dropLast.map fun b => ⟨b, 0, 40⟩

/-- The theorem at the last byte of it. -/
theorem handed_received_of_hello :
    ∃ raw, raw <:+: (helloFed ++ [(⟨0xB4, 0, 40⟩ : Fed)]).map Fed.byte ∧
      decode raw = some (helloFrame 0x04030201) ∧ encode (helloFrame 0x04030201) maxFrame = .ok raw := by
  obtain ⟨raw, hraw, hd, he, -⟩ := handed_received.2.2 helloFed ⟨0xB4, 0, 40⟩
    (helloFrame 0x04030201) (by decide +kernel)
  exact ⟨raw, hraw, hd, he⟩

end NodeLink

end DeusOs
