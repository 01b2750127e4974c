import DeusOs.Host.Model.Negotiation
import DeusOs.Host.RpcClient

/-!
# The host negotiates

Reading a frame changes nothing of how requests are numbered
(`readNextFrameAsync_numbering`). So a negotiation that starts with nothing
abandoned takes the hello under id 1 and the identity under id 2, whatever
reads they come in (`tryNegotiate_spec`).
-/

namespace DeusOs

namespace Host

open Async (Prog Triple bind_returned)
open DeviceClient (ensureRpcSuccess throwing tryNegotiate validateHello validateSystemInfo)

variable {σ ε : Type} {c : Channel} {parts chunks : List (List UInt8)} {fuel : ℕ}

/-! ## Reading keeps the numbering -/

/-- How the next request is numbered. -/
structure Numbering where
  requestIds : RequestIdAllocator
  epochStarted : Bool
  freshSessionRequired : Bool

/-- The numbering of a channel. -/
def Channel.numbering (c : Channel) : Numbering :=
  ⟨c.requestIds, c.requestIdEpochStarted, c.freshSessionRequired⟩

theorem numbering_dequeueLoop (queue : List BinaryFrame) (c : Channel) :
    (c.dequeueLoop queue).1.numbering = c.numbering := by
  induction queue generalizing c with
  | nil => rfl
  | cons queued queue ih =>
    have hsame := congrArg Channel.numbering (discardIfAbandoned_fields c queued)
    rw [Channel.dequeueLoop]
    rcases hx : c.discardIfAbandoned queued with ⟨x, - | -⟩
    · rw [hx] at hsame
      exact hsame
    · rw [hx] at hsame
      exact (ih x).trans hsame

theorem numbering_receive (c : Channel) (data : List UInt8) :
    (c.receive data).1.numbering = c.numbering := by
  rw [Channel.receive]
  split
  · rfl
  · dsimp only
    split
    · rfl
    · rfl
    · obtain ⟨queued, hqueued⟩ : ∃ queued : Channel, queued = { c with
        decoder := (feed c.decoder data).1
        queuedFrames := c.queuedFrames ++ batchFrames (feed c.decoder data).2 } := ⟨_, rfl⟩
      have hkeep : queued.dequeue.1.numbering = queued.numbering :=
        numbering_dequeueLoop queued.queuedFrames queued
      have hsame : queued.numbering = c.numbering := by
        rw [hqueued]
        rfl
      rw [← hqueued]
      rcases hd : queued.dequeue with ⟨x, - | frame⟩
      · rw [hd] at hkeep
        exact hkeep.trans hsame
      · rw [hd] at hkeep
        exact hkeep.trans hsame

theorem numbering_readEvent (T : Transport σ ε) (ev : ε) (s : Conn σ) :
    (readEvent T ev s).1.channel.numbering = s.channel.numbering := by
  rw [readEvent]
  split
  · rfl
  · rfl
  · rfl
  · exact numbering_receive s.channel _

/-- **Reading a frame** keeps the numbering, over any transport. -/
theorem readNextFrameAsync_numbering (T : Transport σ ε) (numbering : Numbering) :
    Triple (fun s => s.channel.numbering = numbering) (readNextFrameAsync T)
      (fun _ s => s.channel.numbering = numbering) (fun _ s => s.channel.numbering = numbering) := by
  have hdequeue : Triple (fun s => s.channel.numbering = numbering)
      (onChannel fun c => (c.dequeue.1, .ok c.dequeue.2) : Task σ ε (Option BinaryFrame))
      (fun _ s => s.channel.numbering = numbering) (fun _ s => s.channel.numbering = numbering) := by
    refine Triple.act (fun s s' a hs hg => ?_) (fun s s' e _ hg => ?_)
    · obtain ⟨hs', -⟩ := Prod.mk.inj hg
      rw [← hs', ← hs]
      exact numbering_dequeueLoop s.channel.queuedFrames s.channel
    · cases (Prod.mk.inj hg).2
  refine hdequeue.bind fun queued => ?_
  cases queued with
  | some frame => exact Triple.ret fun s hs => hs
  | none =>
    have hkeep : ∀ (ev : ε) (s s' : Conn σ) (r : Option (Except HostError BinaryFrame)),
        s.channel.numbering = numbering → readEvent T ev s = (s', r) →
        s'.channel.numbering = numbering := by
      intro ev s s' r hs hg
      have hevent := numbering_readEvent T ev s
      rw [hg] at hevent
      exact hevent.trans hs
    exact Triple.await (fun ev s s' hs hg => hkeep ev s s' _ hs hg)
      (fun ev s s' _ hs hg => hkeep ev s s' _ hs hg) fun ev s s' _ hs hg => hkeep ev s s' _ hs hg

/-! ## The two answers -/

/-- **The host takes the hello and the identity,** where nothing was
abandoned, and looks at what it was given. -/
theorem tryNegotiate_spec {helloFrame : BinaryFrame} {hello : HelloInfo} {count total : ℕ}
    {domain code : UInt8} (habandoned : c.abandonedRequests = [])
    (hfresh : c.freshSessionRequired = false)
    (hmatch : matchFrame 1 FrameType.helloResponse helloFrame = .ok helloFrame)
    (hparse : parseHello helloFrame = .ok hello) (hvalid : validateHello hello = .ok ())
    (h : Holds c.resetProtocolState parts (helloFrame :: (dataFrames rpcSysInfo 2 0 chunks ++
      [frameOf FrameType.rpcEnd 0 2 (endPayload rpcSysInfo count total domain code)])))
    (hchunks : ∀ chunk ∈ chunks, chunk.length ≤ 48) (hcount : count = chunks.length % 65536)
    (htotal : total = chunks.flatten.length) (hbound : total ≤ 65536)
    (hfuel : chunks.length < fuel) :
    ∃ s rest, tryNegotiate reads fuel ⟨c, ()⟩ parts =
      (do
        throwing (ensureRpcSuccess ⟨rpcSysInfo, 2, count, total, domain, code, chunks.flatten⟩ "sysinfo")
        let systemInfo ← throwing (SystemInfoParser.parse
          (RpcResult.outputText ⟨rpcSysInfo, 2, count, total, domain, code, chunks.flatten⟩))
        throwing (validateSystemInfo hello systemInfo)
        return (hello, systemInfo) : Task Unit (List UInt8) (HelloInfo × SystemInfo)) s rest := by
  -- the numbers start again at 1
  have hreset : c.resetProtocolState = ⟨.reset, ⟨1⟩, [], [], false, false⟩ := by
    rw [Channel.resetProtocolState, habandoned, hfresh]
    rfl
  rw [hreset] at h
  have hfirst : (⟨.reset, ⟨1⟩, [], [], false, false⟩ : Channel).nextRequestId =
      (⟨.reset, ⟨2⟩, [], [], true, false⟩, .ok 1) :=
    nextRequestId_of_free rfl (by decide) (fun _ => rfl) List.not_mem_nil
  have hheld : Holds ⟨.reset, ⟨2⟩, [], [], true, false⟩ parts
      (helloFrame :: (dataFrames rpcSysInfo 2 0 chunks ++
        [frameOf FrameType.rpcEnd 0 2 (endPayload rpcSysInfo count total domain code)])) :=
    ⟨h.nonempty, h.flowing, h.frames⟩
  -- the hello is read
  obtain ⟨c', parts', hnext, hrest, hnone⟩ := hheld.next List.not_mem_nil
  have hkeep := (readNextFrameAsync_numbering reads ⟨⟨2⟩, true, false⟩ _ parts rfl).1 _ _ _ hnext
  obtain ⟨hids, hepoch, hfresh'⟩ := Numbering.mk.inj hkeep
  have hread : readMatchingFrameAsync reads 1 FrameType.helloResponse
      (⟨⟨.reset, ⟨2⟩, [], [], true, false⟩, ()⟩ : Conn Unit) parts =
        .returned helloFrame ⟨c', ()⟩ parts' := by
    rw [readMatchingFrameAsync, bind_returned hnext, hmatch]
    rfl
  -- the next number is 2
  have hsecond : c'.nextRequestId =
      (⟨c'.decoder, ⟨3⟩, c'.queuedFrames, c'.abandonedRequests, true, false⟩, .ok 2) := by
    have hfree : ¬c'.Abandoned c'.requestIds.next := by
      rw [Channel.Abandoned, hnone]
      exact List.not_mem_nil
    have hnext' := nextRequestId_of_free hfresh' (by rw [hids]; decide)
      (fun hone => absurd hone (by rw [hids]; decide)) hfree
    rw [hids] at hnext'
    exact hnext'
  obtain ⟨payload, hpayload, hlen⟩ : ∃ payload, encodePayload rpcSysInfo [] = .ok payload ∧
      payload.length ≤ maxPayloadBytes := ⟨_, rfl, by decide⟩
  have hcall : ∃ s rest, rpcCoreAsync reads fuel rpcSysInfo [] 0 ⟨c', ()⟩ parts' =
      .returned ⟨rpcSysInfo, 2, count, total, domain, code, chunks.flatten⟩ s rest :=
    rpcCoreAsync_spec (by decide) hsecond
      (by rw [Channel.Abandoned, hnone]; exact List.not_mem_nil) hpayload hlen
      ⟨hrest.nonempty, hrest.flowing, hrest.frames⟩ hchunks hcount htotal hbound hfuel
  obtain ⟨s, rest, hrpc⟩ := hcall
  refine ⟨s, rest, ?_⟩
  have hclear : onChannel (fun c => (c.resetProtocolState, .ok ())) (⟨c, ()⟩ : Conn Unit) parts =
      .returned () ⟨⟨.reset, ⟨1⟩, [], [], false, false⟩, ()⟩ parts := by
    simp only [onChannel, Prog.act, hreset]
  have htake : onChannel Channel.nextRequestId
      (⟨⟨.reset, ⟨1⟩, [], [], false, false⟩, ()⟩ : Conn Unit) parts =
        .returned 1 ⟨⟨.reset, ⟨2⟩, [], [], true, false⟩, ()⟩ parts := by
    simp only [onChannel, Prog.act, hfirst]
  have hwrite : writeAsync reads (wire FrameType.helloRequest 0 1 [])
      (⟨⟨.reset, ⟨2⟩, [], [], true, false⟩, ()⟩ : Conn Unit) parts =
        .returned () ⟨⟨.reset, ⟨2⟩, [], [], true, false⟩, ()⟩ parts := rfl
  have hhello : throwing (σ := Unit) (ε := List UInt8) (parseHello helloFrame) =
      Prog.lift (.ok hello) := by rw [hparse]; rfl
  have hgood : throwing (σ := Unit) (ε := List UInt8) (validateHello hello) = Prog.lift (.ok ()) := by
    rw [hvalid]
    rfl
  rw [tryNegotiate, bind_returned hclear, bind_returned htake, encode_eq (Nat.zero_le _),
    Async.lift_bind, bind_returned hwrite, bind_returned hread, hhello, Async.lift_bind, hgood,
    Async.lift_bind, bind_returned hrpc]

end Host

end DeusOs
