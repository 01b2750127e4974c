import DeusOs.Rpc.Codec

/-!
# The device's parser recovers

Wherever a stream leaves the parser, 143 bytes that begin no magic bring it
between frames, and the next valid frame is delivered. Its indices stay
inside its arrays, and no byte that a frame claims becomes text.
-/

namespace DeusOs

namespace Rpc

open Framing (State Event step run)

variable {p : BinaryFrameParser}

/-- The parser is between frames where the reader is. -/
theorem settled_position (h : p.position.Settled) : p.state = .idle ∨ p.state = .resync := by
  unfold BinaryFrameParser.position at h
  cases hs : p.state with
  | idle => exact Or.inl rfl
  | resync => exact Or.inr rfl
  | _ => rw [hs] at h; exact absurd h id

/-- **143 bytes that are not 0xA5** bring the parser between frames. What is
left of a frame that was begun is no longer, and none begins in them. -/
theorem settled_of_filler {before filler : List UInt8} (hlen : 143 ≤ filler.length)
    (hfiller : ∀ byte ∈ filler, byte ≠ 0xA5) :
    (parserRun (parserInit p) (before ++ filler)).state = .idle ∨
      (parserRun (parserInit p) (before ++ filler)).state = .resync := by
  refine settled_position ?_
  have hinit : (parserInit p).position = .outside := rfl
  rw [(run_refines (ordered_init p) (before ++ filler)).2.1, Framing.run_append, hinit]
  exact Framing.settled_of_filler (Framing.sound_run (s := .outside) trivial before) hfiller hlen

/-- A byte becomes text between frames only. -/
theorem not_claims_of_text (h : Ordered p) {byte : UInt8}
    (htext : (parserFeed p byte).2 = .text ∨ (parserFeed p byte).2 = .syncErrorText) :
    ¬ p.position.Claims := by
  have hmove := Framing.move_step frameFormat p.position byte
  rw [(feed_refines h byte).2] at hmove
  refine hmove.not_claims ?_
  rcases htext with htext | htext
  · exact Or.inl (by rw [htext]; rfl)
  · exact Or.inr (by rw [htext]; rfl)

/-- **The parser recovers.** Behind every stream and 143 bytes that are not
0xA5 it is between frames, and a valid frame is delivered; the index of the
header is below 8 where a header is read and never above it, the index of
the payload below the length of the payload, which is at most 132; and a
byte becomes text only where no frame and no resynchronisation claims it. -/
theorem parser_recovers (p : BinaryFrameParser) (before : List UInt8) :
    (∀ filler : List UInt8, filler.length = 143 → (∀ byte ∈ filler, byte ≠ 0xA5) →
      ((parserRun (parserInit p) (before ++ filler)).state = .idle ∨
        (parserRun (parserInit p) (before ++ filler)).state = .resync) ∧
      ∀ header payload, Valid header payload → ∃ v : BinaryFrameView,
        parserResults (parserRun (parserInit p) (before ++ filler))
            ([0xA5, 0x5A] ++ summed header payload) =
          List.replicate (11 + payload.length) .consumed ++ [.frameReady v] ∧
        v.frame = frameOfParts header payload) ∧
    (parserRun (parserInit p) before).headerIndex ≤ 8 ∧
    ((parserRun (parserInit p) before).state = .header →
      (parserRun (parserInit p) before).headerIndex < 8) ∧
    ((parserRun (parserInit p) before).state = .payload →
      (parserRun (parserInit p) before).payloadIndex <
        (parserRun (parserInit p) before).payloadLength ∧
      (parserRun (parserInit p) before).payloadLength ≤ 132) ∧
    ∀ byte, ((parserFeed (parserRun (parserInit p) before) byte).2 = .text ∨
        (parserFeed (parserRun (parserInit p) before) byte).2 = .syncErrorText) →
      ((parserRun (parserInit p) before).state = .idle ∨
        (parserRun (parserInit p) before).state = .magic1) ∧
      ¬ (run frameFormat .outside before).Claims := by
  obtain ⟨hordered, hpos, -⟩ := run_refines (ordered_init p) before
  have hholds := hordered.holds
  refine ⟨?_, hordered.headerIndex, ?_, ?_, ?_⟩
  · intro filler hlen hfiller
    have hs : (parserRun (parserInit p) (before ++ filler)).state = .idle ∨
        (parserRun (parserInit p) (before ++ filler)).state = .resync :=
      settled_of_filler (Nat.le_of_eq hlen.symm) hfiller
    refine ⟨hs, ?_⟩
    intro header payload hvalid
    obtain ⟨v, hresults, hframe, -⟩ := results_valid hs hvalid
    exact ⟨v, hresults, hframe⟩
  · intro hs
    rw [hs] at hholds
    exact hholds.1
  · intro hs
    rw [hs] at hholds
    exact ⟨hholds.2.1, hholds.1.max⟩
  · intro byte htext
    have hclaims := not_claims_of_text hordered htext
    refine ⟨?_, hpos ▸ hclaims⟩
    generalize parserRun (parserInit p) before = q at hclaims
    unfold BinaryFrameParser.position at hclaims
    cases hs : q.state with
    | idle => exact Or.inl rfl
    | magic1 => exact Or.inr rfl
    | _ => rw [hs] at hclaims; exact absurd trivial hclaims

/-- The theorem at a header that breaks off, and 143 zeros. -/
theorem parser_recovers_fresh :
    (parserRun (parserInit ⟨.idle, fun _ => 0, fun _ => 0, 0, 0, 0, 0, 0, 0, 0, 0, 0⟩)
        ([0xA5, 0x5A, 1] ++ List.replicate 143 0)).state = .idle ∨
      (parserRun (parserInit ⟨.idle, fun _ => 0, fun _ => 0, 0, 0, 0, 0, 0, 0, 0, 0, 0⟩)
        ([0xA5, 0x5A, 1] ++ List.replicate 143 0)).state = .resync :=
  ((parser_recovers ⟨.idle, fun _ => 0, fun _ => 0, 0, 0, 0, 0, 0, 0, 0, 0, 0⟩
    [0xA5, 0x5A, 1]).1 (List.replicate 143 0) List.length_replicate (by
      intro byte hbyte
      rw [List.eq_of_mem_replicate hbyte]
      decide)).1

/-- With its header whole, the parser's header index is 8, in the payload
too. -/
theorem headerIndex_payload :
    ∃ (p : BinaryFrameParser) (bytes : List UInt8),
      (parserRun (parserInit p) bytes).state = .payload ∧
        ¬ (parserRun (parserInit p) bytes).headerIndex < 8 :=
  ⟨⟨.idle, fun _ => 0, fun _ => 0, 0, 0, 0, 0, 0, 0, 0, 0, 0⟩,
    [0xA5, 0x5A, 1, 2, 0, 0, 1, 0, 1, 0], by decide, by decide⟩

end Rpc

end DeusOs
