import DeusOs.Bootloader.Digest
import DeusOs.Update.Availability
import DeusOs.Update.Serving

/-!
# The update link — an update that goes through

`UpdateAsync` against a device that accepts its update, over a link that
loses at most one message of each DATA exchange (`update_returned`): each
exchange leaves the device in the state the next one needs, and the DATA
loop runs along the schedule. `hostChunks` are the chunks of the requests
the host sends.
-/

namespace DeusOs

namespace Update

open Async (Prog Completion)
open Bootloader Host
open FirmwareUpdate (maxDataBytes applicationPageBytes)
open LittleEndian (write16)

variable {board : Board} {header tag c image package : List UInt8} {cs : List (List UInt8)}
  {offset id id' n : ℕ} {s s' : Conn Link} {evs rest : List LinkEvent} {a : FirmwareUpdateResponse}

/-! ## The chunks of an image -/

theorem chunkCount_pos {imageLength : ℕ} (h : offset < imageLength) :
    0 < chunkCount imageLength offset := by
  simp only [chunkCount, maxDataBytes, applicationPageBytes]
  omega

/-- The chunks the host sends, from an offset. -/
def hostChunks (image : List UInt8) (offset : ℕ) : List (List UInt8) :=
  if offset < image.length then
    chunkAt image offset :: hostChunks image (offset + chunkCount image.length offset)
  else []
termination_by image.length - offset
decreasing_by
  have := chunkCount_pos ‹_›
  omega

/-- A chunk of an aligned image is aligned. -/
theorem chunkCount_aligned {imageLength : ℕ} (hL : imageLength % 4 = 0) (h4 : offset % 4 = 0)
    (hlt : offset < imageLength) :
    chunkCount imageLength offset % 4 = 0 ∧ 4 ≤ chunkCount imageLength offset := by
  simp only [chunkCount, maxDataBytes, applicationPageBytes]
  omega

/-- An offset between two chunks. -/
structure AtChunk (image : List UInt8) (offset : ℕ) : Prop where
  max : image.length ≤ 53248
  aligned : image.length % 4 = 0
  place : offset % 4 = 0
  le : offset ≤ image.length

theorem AtChunk.atOffset (h : AtChunk image offset) (hcs : cs.flatten = image.take offset) :
    AtOffset image offset cs := ⟨hcs, h.le, h.max⟩

/-- One chunk more comes to the next. -/
theorem AtChunk.next (h : AtChunk image offset) (hlt : offset < image.length) :
    AtChunk image (offset + chunkCount image.length offset) := by
  have hcount := chunkCount_aligned h.aligned h.place hlt
  have hle := (chunkCount_le image.length offset).2.1
  have hplace := h.place
  have hat := h.le
  exact ⟨h.max, h.aligned, by omega, by omega⟩

/-- **Each chunk obeys the rules of the device.** -/
theorem AtChunk.fits (h : AtChunk image offset) (hlt : offset < image.length) :
    ChunkFits offset (chunkAt image offset) := by
  obtain ⟨h4, hpos⟩ := chunkCount_aligned h.aligned h.place hlt
  obtain ⟨h48, hle, hpage⟩ := chunkCount_le image.length offset
  have hlen := length_chunkAt image offset
  have hplace := h.place
  have hmax := h.max
  exact ⟨by omega, by omega, by omega, by omega, by simp only [appMaxBytes]; omega, by omega⟩

/-- And so do they all. -/
theorem chunks_hostChunks (h : AtChunk image offset) :
    Chunks image.length offset (hostChunks image offset) := by
  induction hn : image.length - offset using Nat.strongRecOn generalizing offset with
  | ind n ih =>
    rw [hostChunks]
    split
    · rename_i hlt
      have hpos := chunkCount_pos hlt
      have hle := (chunkCount_le image.length offset).2.1
      have hlen := length_chunkAt image offset
      refine ⟨h.fits hlt, by omega, ?_⟩
      rw [hlen]
      exact ih (image.length - (offset + chunkCount image.length offset)) (by omega) (h.next hlt) rfl
    · exact trivial

/-! ## Ids -/

theorem DataSchedule.le {imageLength : ℕ} (h : DataSchedule imageLength offset id evs id') :
    id ≤ id' := by
  induction h with
  | done _ => exact Nat.le_refl _
  | prompt _ _ _ ih => exact Nat.le_of_succ_le ih
  | retried _ _ _ _ ih => exact Nat.le_trans (Nat.le_add_right _ 2) ih

/-- **The ids the DATA exchanges use**: two for each chunk of four bytes at
the most. -/
theorem DataSchedule.ids (h : DataSchedule image.length offset id evs id')
    (hat : AtChunk image offset) : id' ≤ id + (image.length - offset) / 2 := by
  induction h with
  | done _ => exact Nat.le_add_right _ _
  | prompt hlt _ _ ih =>
    have hcount := chunkCount_aligned hat.aligned hat.place hlt
    have hle := (hat.next hlt).le
    have := ih (hat.next hlt)
    omega
  | retried hlt _ _ _ ih =>
    have hcount := chunkCount_aligned hat.aligned hat.place hlt
    have hle := (hat.next hlt).le
    have := ih (hat.next hlt)
    omega

/-! ## One chunk -/

/-- Between two DATA requests, the next of which has the id `n`. -/
structure Flowing (board : Board) (header tag : List UInt8) (cs : List (List UInt8)) (n : ℕ)
    (s : Conn Link) : Prop where
  settled : Settled (LateData cs) s
  serving : Serving board header tag cs s.link.device
  numbered : Numbered n s.channel

/-- What a DATA request that went through leaves. -/
structure Advanced (board : Board) (header tag : List UInt8) (cs : List (List UInt8))
    (c : List UInt8) (n : ℕ) (a : FirmwareUpdateResponse) (s : Conn Link) : Prop where
  flowing : Flowing board header tag (cs ++ [c]) n s
  extended : Extended board header tag cs c a s.link.device

section data

variable (hn : NextChunk header cs c) (hlt : n < 65535)
include hn hlt

theorem advanced_of_prompt (hset : Settled (LateCopy cs c) s)
    (hd : Underway board header tag cs c s.link.device) (hnum : Numbered n s.channel)
    (he : Prompt n evs) (rest : List LinkEvent) :
    ∃ a s', sendRequestCoreAsync (link board) FirmwareUpdate.opcodeData
        FirmwareUpdate.destructiveFlag (FirmwareUpdate.opcodeData :: (write16 cs.flatten.length ++ c))
        s (evs ++ rest) = .returned a s' rest ∧
      Advanced board header tag cs c (n + 1) a s' := by
  obtain ⟨hne, hle, hoff⟩ := hn.bounds
  obtain ⟨a, s', hrun, hset', ha, hnum'⟩ := send_prompt (service_data_calm hn board tag)
    (answers_data hn board tag) hset hd hnum hlt he rest
  refine ⟨a, s', hrun, ⟨?_, ha.2.2.2, hnum'⟩, ha⟩
  exact hset'.mono fun rx hrx => lateCopy_le hne hle (by omega) hrx

/-- **A DATA request that goes through at once.** -/
theorem sendData_prompt (h : Flowing board header tag cs n s) (he : Prompt n evs)
    (rest : List LinkEvent) :
    ∃ a s', sendDataWithSingleTimeoutRetryAsync (link board)
        (FirmwareUpdate.opcodeData :: (write16 cs.flatten.length ++ c)) s (evs ++ rest) =
          .returned a s' rest ∧
      Advanced board header tag cs c (n + 1) a s' := by
  obtain ⟨a, s', hrun, ha⟩ := advanced_of_prompt hn hlt (h.settled.mono fun _ => Or.inl)
    (Or.inl h.serving) h.numbered he rest
  exact ⟨a, s', Async.handle_returned hrun, ha⟩

/-- **A DATA request that goes through when it is tried again.** -/
theorem sendData_retried {e₁ e₂ : List LinkEvent} (hlt' : n + 1 < 65535)
    (h : Flowing board header tag cs n s) (he₁ : Missed n e₁) (he₂ : Prompt (n + 1) e₂)
    (rest : List LinkEvent) :
    ∃ a s', sendDataWithSingleTimeoutRetryAsync (link board)
        (FirmwareUpdate.opcodeData :: (write16 cs.flatten.length ++ c)) s (e₁ ++ (e₂ ++ rest)) =
          .returned a s' rest ∧
      Advanced board header tag cs c (n + 2) a s' := by
  have hservice := (service_data_calm hn board tag).mono fun _ (hl : LateData cs _) => Or.inl hl
  obtain ⟨s₁, hthrew, hset, hd, hnum⟩ := send_missed hservice h.settled (Or.inl h.serving)
    h.numbered hlt he₁ (e₂ ++ rest)
  obtain ⟨a, s', hrun, ha⟩ := advanced_of_prompt hn hlt' hset hd hnum he₂ rest
  refine ⟨a, s', ?_, ha⟩
  exact (Async.handle_threw hthrew).trans hrun

end data

theorem checkedUshort_of_lt {v : ℕ} (h : v < 65536) : checkedUshort v = .ok v := by
  rw [checkedUshort, if_neg (by omega)]

theorem ensureOk_of_ok {state : UInt8} (h : a.status = FirmwareUpdate.statusOk)
    (hstate : a.state = state) : ensureOk a state = .ok () := by
  rw [ensureOk, if_neg (not_not_intro h), if_neg (not_not_intro hstate)]

/-- The round of the DATA loop, once its request has been answered. -/
theorem sendChunk_of_data (hat : AtChunk image offset) (hcs : cs.flatten = image.take offset)
    (hrun : sendDataWithSingleTimeoutRetryAsync (link board)
      (FirmwareUpdate.opcodeData :: (write16 offset ++ chunkAt image offset)) s evs =
        .returned a s' rest)
    (ha : Extended board header tag cs (chunkAt image offset) a s'.link.device) :
    sendChunk (link board) image offset s evs = .returned () s' rest := by
  have hle := (chunkCount_le image.length offset).2.1
  have hoff := hat.le
  have hmax := hat.max
  have hlen := (hat.atOffset hcs).length
  have hexp : a.expectedOffset = offset + chunkCount image.length offset := by
    rw [ha.2.2.1, hlen, length_chunkAt]
  unfold sendChunk
  rw [checkedUshort_of_lt (by omega), Async.lift_bind, Async.bind_returned hrun,
    ensureOk_of_ok ha.1 ha.2.1, Async.lift_bind, checkedUshort_of_lt (by omega), Async.lift_bind,
    if_neg (not_not_intro hexp)]
  rfl

/-! ## The image -/

/-- The chunk at an offset is the next of the image. -/
theorem AtChunk.nextChunk (h : AtChunk image offset) (himage : imageLength header = image.length)
    (hcs : cs.flatten = image.take offset) (hlt : offset < image.length) :
    cs.flatten.length = offset ∧ NextChunk header cs (chunkAt image offset) := by
  have hle := (chunkCount_le image.length offset).2.1
  have hlen := length_chunkAt image offset
  have hoff := (h.atOffset hcs).length
  refine ⟨hoff, ⟨?_, ?_⟩⟩
  · rw [hoff]
    exact h.fits hlt
  · rw [hoff, himage]
    omega

/-- The DATA loop where a chunk is left. -/
theorem sendImage_of_lt (hat : AtChunk image offset) (hlt : offset < image.length)
    (hrun : sendChunk (link board) image offset s evs = .returned () s' rest) :
    sendImage (link board) image offset s evs =
      sendImage (link board) image (offset + chunkCount image.length offset) s' rest := by
  have hcount := chunkCount_aligned hat.aligned hat.place hlt
  rw [sendImage, if_pos hlt, if_neg (by omega), Async.bind_returned hrun]

/-- **The DATA loop returns**, with the chunks of the host accepted. -/
theorem sendImage_returned (himage : imageLength header = image.length)
    (hsched : DataSchedule image.length offset id evs id') (hat : AtChunk image offset)
    (hcs : cs.flatten = image.take offset) (hs : Flowing board header tag cs id s)
    (hids : id' < 65536) (rest : List LinkEvent) :
    ∃ s', sendImage (link board) image offset s (evs ++ rest) = .returned () s' rest ∧
      Flowing board header tag (cs ++ hostChunks image offset) id' s' ∧
      (cs ++ hostChunks image offset).flatten = image := by
  induction hsched generalizing cs s with
  | done hge =>
    refine ⟨s, ?_, ?_, ?_⟩
    · rw [sendImage, if_neg (by omega)]
      rfl
    · rw [hostChunks, if_neg (by omega), List.append_nil]
      exact hs
    · rw [hostChunks, if_neg (by omega), List.append_nil, hcs, List.take_of_length_le hge]
  | prompt hlt he hrest ih =>
    obtain ⟨hoff, hnext⟩ := hat.nextChunk himage hcs hlt
    have hle := hrest.le
    rw [List.append_assoc]
    obtain ⟨a, s₁, hrun, ha⟩ := sendData_prompt hnext (by omega) hs he (_ ++ rest)
    rw [hoff] at hrun
    obtain ⟨s', hloop, hflow, hflat⟩ := ih (hat.next hlt) (flatten_append_chunkAt hcs) ha.flowing hids
    refine ⟨s', ?_, ?_, ?_⟩
    · exact (sendImage_of_lt hat hlt (sendChunk_of_data hat hcs hrun ha.extended)).trans hloop
    · rw [hostChunks, if_pos hlt]
      simpa using hflow
    · rw [hostChunks, if_pos hlt]
      simpa using hflat
  | retried hlt he₁ he₂ hrest ih =>
    obtain ⟨hoff, hnext⟩ := hat.nextChunk himage hcs hlt
    have hle := hrest.le
    rw [List.append_assoc, List.append_assoc]
    obtain ⟨a, s₁, hrun, ha⟩ :=
      sendData_retried hnext (by omega) (by omega) hs he₁ he₂ (_ ++ rest)
    rw [hoff] at hrun
    obtain ⟨s', hloop, hflow, hflat⟩ := ih (hat.next hlt) (flatten_append_chunkAt hcs) ha.flowing hids
    refine ⟨s', ?_, ?_, ?_⟩
    · exact (sendImage_of_lt hat hlt (sendChunk_of_data hat hcs hrun ha.extended)).trans hloop
    · rw [hostChunks, if_pos hlt]
      simpa using hflow
    · rw [hostChunks, if_pos hlt]
      simpa using hflat

/-! ## The whole update -/

/-- The device accepts BEGIN and AUTHORIZE of the package: it waits for an
update, the tag is the one its key gives, the header is meant for it, and
the version may follow what it has committed. -/
structure Admits (board : Board) (p : FirmwareUpdatePackage) (d : Sys) : Prop where
  accepting : Accepting board p.header d
  tag : p.headerAuthTag = (hmacHeader board.deusUpdateKey p.header).toList
  target : headerTargetValid board p.header = true

theorem aligned_of_structural {h : List UInt8} (hs : headerStructuralValid h = true) :
    imageLength h % 4 = 0 := by
  simp only [headerStructuralValid, Bool.and_eq_true, beq_iff_eq] at hs
  rw [← hs.1.2]
  exact (Nat.and_two_pow_sub_one_eq_mod (imageLength h) 2).symm

variable {p : FirmwareUpdatePackage}

/-- A well-formed package begins with its first chunk. -/
theorem WellFormedPackage.start (hp : WellFormedPackage p) : AtChunk p.image 0 where
  max := hp.max
  aligned := hp.length ▸ aligned_of_structural hp.structural
  place := rfl
  le := Nat.zero_le _

/-- The image of a package makes up what its header asks for. -/
theorem WellFormedPackage.whole (hp : WellFormedPackage p) (hvec : vectorsOk p.image = true)
    (hcs : cs.flatten = p.image) : Whole p.header cs where
  count := by rw [hcs, hp.length]
  digest := by
    have hmax := hp.max
    rw [hcs, sha256Memory_eq (by omega)]
    exact hp.digest
  vectors := by rw [hcs]; exact hvec

/-- **`UpdateAsync` returns**, and the device has committed the chunks of
the host, where the ids of the session do not run out. -/
theorem update_returned (hpackage : parsePackage package = .ok p) (h : Opening s)
    (hnum : Numbered n s.channel) (hids : n + 2 + p.image.length / 2 < 65535) (hd : Admits board p s.link.device)
    (hvec : vectorsOk p.image = true) (hsched : UpdateSchedule p.image.length n evs)
    (rest : List LinkEvent) :
    ∃ a s', updateAsync (link board) package s (evs ++ rest) = .returned a s' rest ∧
      (hostChunks p.image 0).flatten = p.image ∧
      Done board p.header p.headerAuthTag (hostChunks p.image 0) s'.link.device := by
  have hp := wellFormed_of_parsePackage hpackage
  have hmax := hp.max
  obtain ⟨he₁, he₂, he₃, he₄⟩ := hsched
  rename_i id' e₁ e₂ e₃ e₄
  have hid' := he₃.ids hp.start
  simp only [List.append_assoc]
  -- BEGIN and AUTHORIZE
  obtain ⟨a₁, s₁, h₁, hset₁, ha₁, hnum₁⟩ := send_prompt (service_begin_calm hp.header hp.structural board)
    (answers_begin hp.header hp.structural board) h hd.accepting hnum (by omega) he₁
    (e₂ ++ (e₃ ++ (e₄ ++ rest)))
  obtain ⟨a₂, s₂, h₂, hset₂, ha₂, hnum₂⟩ := send_prompt (service_authorize_calm hd.tag hd.target)
    (answers_authorize hd.tag hd.target) hset₁ ha₁.2.2 hnum₁ (by omega) he₂ (e₃ ++ (e₄ ++ rest))
  -- the image
  have hflow : Flowing board p.header p.headerAuthTag [] (n + 2) s₂ :=
    ⟨hset₂.mono fun _ hl => hl.elim, ha₂.2.2, hnum₂⟩
  obtain ⟨s₃, h₃, hflow₃, hflat⟩ := sendImage_returned hp.length he₃ hp.start rfl hflow (by omega)
    (e₄ ++ rest)
  rw [List.nil_append] at hflow₃ hflat
  -- END
  have hw := hp.whole hvec hflat
  obtain ⟨a₄, s₄, h₄, -, ha₄, -⟩ := send_prompt (service_end_calm hw board p.headerAuthTag)
    (answers_end hw board p.headerAuthTag) hflow₃.settled hflow₃.serving hflow₃.numbered (by omega)
    he₄ rest
  refine ⟨a₄, s₄, ?_, hflat, ha₄.2.2⟩
  have h₁' : sendRequestCoreAsync (link board) FirmwareUpdate.opcodeBegin
      FirmwareUpdate.destructiveFlag (FirmwareUpdate.opcodeBegin :: p.header) s
      (e₁ ++ (e₂ ++ (e₃ ++ (e₄ ++ rest)))) = _ := h₁
  have h₂' : sendRequestCoreAsync (link board) FirmwareUpdate.opcodeAuthorizeHeader
      FirmwareUpdate.destructiveFlag (FirmwareUpdate.opcodeAuthorizeHeader :: p.headerAuthTag) s₁
      (e₂ ++ (e₃ ++ (e₄ ++ rest))) = _ := h₂
  have h₄' : sendRequestCoreAsync (link board) FirmwareUpdate.opcodeEnd
      FirmwareUpdate.destructiveFlag [FirmwareUpdate.opcodeEnd] s₃ (e₄ ++ rest) = _ := h₄
  unfold updateAsync
  rw [hpackage, Async.lift_bind, Async.bind_returned h₁', ensureOk_of_ok ha₁.1 ha₁.2.1,
    Async.lift_bind, Async.bind_returned h₂', ensureOk_of_ok ha₂.1 ha₂.2.1, Async.lift_bind,
    Async.bind_returned h₃, Async.bind_returned h₄', ensureOk_of_ok ha₄.1 ha₄.2.1, Async.lift_bind]
  rfl

/-- **The update is safe under every loss and completes under bounded
loss.** Whatever is lost, late or reset, an `UpdateAsync` that returns has
installed its image. And where the device accepts BEGIN and AUTHORIZE,
flash works, the vectors of the image check and each DATA exchange loses
at most one message, it returns: each chunk of the host has been accepted,
in order, and obeys the rules of the device. -/
theorem update_under_loss (board : Board) (hpackage : parsePackage package = .ok p) :
    (∀ s evs a s' rest, Opening s →
      updateAsync (link board) package s evs = .returned a s' rest →
      Installs board p s'.link.device) ∧
    ∀ s n evs rest, Opening s → Numbered n s.channel →
      n + 2 + p.image.length / 2 < 65535 → Admits board p s.link.device →
      vectorsOk p.image = true → UpdateSchedule p.image.length n evs →
      ∃ a s', updateAsync (link board) package s (evs ++ rest) = .returned a s' rest ∧
        Installs board p s'.link.device ∧
        s'.link.device.session.chunks = hostChunks p.image 0 ∧
        Chunks p.image.length 0 (hostChunks p.image 0) := by
  have hp := wellFormed_of_parsePackage hpackage
  refine ⟨fun s evs a s' rest h hrun => ?_, fun s n evs rest h hnum hids hd hvec hsched => ?_⟩
  · exact (triple_update board hpackage s evs h).1 a s' rest hrun
  · obtain ⟨a, s', hrun, hflat, hdone⟩ :=
      update_returned hpackage h hnum hids hd hvec hsched rest
    exact ⟨a, s', hrun, installs_of_done hp hflat hdone, hdone.chunks, chunks_hostChunks hp.start⟩

/-! ## A signed package, sent -/

/-- The package of an image, as the release side writes it. -/
def signedPackage (board : Board) (version : ℕ) (image : List UInt8) : List UInt8 :=
  imageHeader version image ++ (headerTag board (imageHeader version image) ++ image)

/-- **The host accepts it.** -/
theorem parsePackage_signedPackage (board : Board) (version : ℕ) (image : List UInt8)
    (hv : version < 4294967296) (hv0 : version ≠ 0) (h8 : 8 ≤ image.length)
    (hmax : image.length ≤ 53248) (h4 : image.length &&& 3 = 0) :
    parsePackage (signedPackage board version image) =
      .ok ⟨imageHeader version image, headerTag board (imageHeader version image), image, version⟩ := by
  have hheader := length_imageHeader version image
  have htag : (headerTag board (imageHeader version image)).length = 32 := by simp [headerTag]
  have htake : (signedPackage board version image).take 48 = imageHeader version image := by
    rw [signedPackage, ← hheader, List.take_left]
  have hdrop : (signedPackage board version image).drop 48 =
      headerTag board (imageHeader version image) ++ image := by
    rw [signedPackage, ← hheader, List.drop_left]
  have hdrop' : (signedPackage board version image).drop (48 + 32) = image := by
    rw [← List.drop_drop, hdrop, ← htag, List.drop_left]
  have hlen : (signedPackage board version image).length = 48 + 32 + image.length := by
    rw [signedPackage, List.length_append, List.length_append, hheader, htag, Nat.add_assoc]
  have himage : LittleEndian.read32 (imageHeader version image) 8 = image.length :=
    imageLength_imageHeader version image hmax
  have hversion : LittleEndian.read32 (imageHeader version image) 12 = version :=
    imageVersion_imageHeader version image hv
  have hformat : (imageHeader version image).getD 4 0 = 1 ∧
      (imageHeader version image).getD 5 0 = 0 := by
    simp [imageHeader, LittleEndian.write32, imageFormatVersion]
  have htarget := @headerTargetValid_imageHeader version image zeroBoard rfl
  simp only [headerTargetValid, Bool.and_eq_true, beq_iff_eq] at htarget
  obtain ⟨⟨hproduct, hdevice⟩, -⟩ := htarget
  have hdigest : (Sha256.hash image).toList = ((imageHeader version image).drop 16).take 32 := by
    have hlength : ((imageHeader version image).drop 16).length = 32 := by
      rw [List.length_drop, hheader]
    rw [← sha256Memory_eq (by omega), ← imageDigest_imageHeader version image, imageDigest,
      List.take_of_length_le (Nat.le_of_eq hlength)]
  unfold parsePackage
  simp only [FirmwareUpdate.headerBytes, FirmwareUpdate.headerAuthTagBytes, htake, hdrop, hdrop',
    himage, hversion, hlen]
  rw [if_neg (by omega), if_neg (by omega), if_neg, if_neg,
    List.take_of_length_le (Nat.le_refl image.length), if_neg (not_not_intro hdigest)]
  · rw [← htag, List.take_left]
  · simp only [FirmwareUpdate.maxImageBytes, not_or, not_not]
    exact ⟨by omega, by omega, h4, hv0, trivial⟩
  · simp only [not_or, not_not]
    exact ⟨hproduct, hformat.1, hformat.2, hdevice⟩

/-- A reset that finds the token leaves nothing armed, and the host
configures the device. -/
theorem configured_enter (board : Board) (d : Sys) :
    Configured (d.run board enter) ∧ armed (d.run board enter) = none := by
  have hboot : bootMain board d.machine.flash 0xD35A 0x2CA5 =
      .updateLoop { bootRam board d.machine.flash with
        updateState := .recoveryIdle, expectedOffset := 0, previousValid := false
        resetAfterTx := false } := by
    rw [bootMain, if_neg fun hc => hc.1 (by decide)]
  have hidle : ((d.step board (.reset 0xD35A 0x2CA5)).step board
      (.configure 1)).machine.ram.usbTxActive = false := by
    simp only [Sys.step, Sys.boot, hboot]
    rfl
  have hconf : ((d.step board (.reset 0xD35A 0x2CA5)).step board
      (.configure 1)).machine.ram.usbConfiguration = 1 := by
    simp only [Sys.step, Sys.boot, hboot]
    rfl
  refine ⟨⟨hconf, fun hact => ?_⟩, armed_eq_none fun hb => ?_⟩
  · exact absurd (hidle.symm.trans hact) (by decide)
  · exact absurd (hidle.symm.trans hb.2) (by decide)

/-- A new session with an erased device. -/
def firstConn : Conn Link := ⟨Channel.new, ⟨(Sys.unpowered erased).run zeroBoard enter, [], []⟩⟩

theorem flying_firstConn : firstConn.link.flying = [] := by
  have hnone : armed firstConn.link.device = none := (configured_enter zeroBoard _).2
  rw [Link.flying, hnone]
  rfl

theorem opening_firstConn : Opening firstConn := by
  have hids : firstConn.link.ids = [] := by
    rw [Link.ids, flying_firstConn]
    rfl
  refine ⟨⟨rfl, rfl, by simp [IsId, firstConn, Channel.new]⟩, ?_, ?_, ?_, ?_⟩
  · exact fun _ h => by cases h
  · rw [flying_firstConn]
    exact fun tx htx => by cases htx
  · rw [hids]
    exact List.nodup_nil
  · rw [hids]
    exact fun id hid => by cases hid

theorem admits_firstConn : Admits zeroBoard ⟨imageHeader 1 imageLow,
    headerTag zeroBoard (imageHeader 1 imageLow), imageLow, 1⟩ firstConn.link.device := by
  obtain ⟨hw, hf⟩ := @run_enter zeroBoard _ (inv_unpowered erased)
  have hzero : ∀ slot, slotVersion zeroBoard erased slot = 0 := fun slot =>
    slotVersion_eq_zero.2 (metadataAuthenticated_of_erased zeroBoard slot)
  refine ⟨⟨hw, (configured_enter zeroBoard _).1, ?_⟩, rfl, headerTargetValid_imageHeader _ _ rfl⟩
  show versionRejected (scanFlash zeroBoard ((Sys.unpowered erased).run zeroBoard
    enter).machine.flash) (imageVersion (imageHeader 1 imageLow)) = false
  rw [hf, imageVersion_imageHeader _ _ (by decide)]
  refine versionRejected_of_floor_lt ?_
  show floor zeroBoard erased < 1
  rw [floor, hzero, hzero]
  decide

/-- An exchange without losses. -/
def promptEvents (id : ℕ) : List LinkEvent := [.collect, .deliver id good, .collect, .read id]

theorem prompt_promptEvents (id : ℕ) : Prompt id (promptEvents id) :=
  @Prompt.intro id [] [] [] good (by simp) (by simp) (by simp) fun _ => rfl

/-- An update of one chunk, whose first DATA request is lost. -/
def firstEvents : List LinkEvent :=
  promptEvents 1 ++ (promptEvents 2 ++
    ((([.dropRequest 3] ++ [.timeout]) ++ (promptEvents 4 ++ [])) ++ promptEvents 5))

theorem updateSchedule_firstEvents : UpdateSchedule 8 1 firstEvents := by
  refine .intro (prompt_promptEvents 1) (prompt_promptEvents 2) ?_ (prompt_promptEvents 5)
  refine .retried (by decide) (.intro ?_) (prompt_promptEvents 4) (.done (by decide))
  intro e he
  rw [List.mem_singleton.1 he]
  trivial

/-- The theorem at a whole install with one message lost in an exchange. -/
theorem update_under_loss_imageLow :
    parsePackage (signedPackage zeroBoard 1 imageLow) =
        .ok ⟨imageHeader 1 imageLow, headerTag zeroBoard (imageHeader 1 imageLow), imageLow, 1⟩ ∧
      ∃ a s', updateAsync (link zeroBoard) (signedPackage zeroBoard 1 imageLow) firstConn
          (firstEvents ++ []) = .returned a s' [] ∧
        s'.link.device.session.chunks = hostChunks imageLow 0 := by
  have hparse := parsePackage_signedPackage zeroBoard 1 imageLow (by decide) (by decide) (by decide)
    (by decide) (by decide)
  have hnum : Numbered 1 firstConn.channel := ⟨rfl, rfl, fun _ => rfl, fun _ h => by cases h⟩
  refine ⟨hparse, ?_⟩
  obtain ⟨a, s', hrun, -, hchunks, -⟩ := (update_under_loss zeroBoard hparse).2 firstConn 1
    firstEvents [] opening_firstConn hnum (by decide) admits_firstConn (by decide) updateSchedule_firstEvents
  exact ⟨a, s', hrun, hchunks⟩

end Update

end DeusOs
