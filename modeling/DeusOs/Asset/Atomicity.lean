import DeusOs.Asset.Transactions
import DeusOs.Asset.TwoSlots

/-!
# An update is atomic

Every call keeps the transactions in hand (`call_inHand`), so that a reset
finds the record before the last transaction, or its candidate whole, or
one that was stranded (`update_atomic`). That there are stranded ones is
`stranded_update`.
-/

namespace DeusOs.Asset

open Nor

/-! ## The candidate -/

/-- The other slot is started for the candidate, and not marked. -/
structure Fresh (f : Mem) (active : Option Record) (c : Candidate) : Prop where
  live : c.active = true
  changed : c.compareActive = false
  notWorn : ¬ WornOut active
  slotAddress : c.slotAddress = otherSlot active
  generation : c.generation = nextGeneration active
  header : f.bytes c.slotAddress 24 = metadataBytes c.generation c.payloadCrc32
  marker : f.half (c.slotAddress + offsetMarker) = 0xFFFF

/-- The candidate has what the transaction accepted. -/
structure Given (f : Mem) (c : Candidate) (t : Transaction) : Prop where
  payloadCrc32 : t.payloadCrc32 = c.payloadCrc32
  tracks : Tracks c t.bytes
  stored : StoredAt f c.slotAddress t.bytes

/-- What the candidate's fields are, between two calls, while `ts` are the
transactions. -/
inductive Stage (f : Mem) (active : Option Record) (c : Candidate) (ts : List Transaction) : Prop
  /-- Compare mode: the bytes accepted are the active record's. -/
  | comparing {r : Record} : c.compareActive = true → active = some r →
      (c.active = true → ¬ WornOut active → ∀ t ∈ ts.head?, t.failed = false ∧
        t.payloadCrc32 = c.payloadCrc32 ∧
        f.bytes (r.slotAddress + offsetPayload) c.acceptedBytes = t.bytes) → Stage f active c ts
  /-- As the boot left them: no slot was started. -/
  | unused : Unused c → (c.active = true → WornOut active) → Stage f active c ts
  /-- The other slot is started, and not marked. -/
  | fresh : Fresh f active c → (∀ t ∈ ts.head?, Given f c t) → Stage f active c ts
  /-- The slot is marked. -/
  | closed {r : Record} : c.compareActive = false → c.acceptedBytes = configBytes →
      c.pendingValid = false → Holds f c.slotAddress r → Stage f active c ts
  /-- The candidate was dropped, and the next one starts over. -/
  | dropped : c.active = false → ¬ WornOut active → Stage f active c ts

/-- The slots, the last transaction and the candidate, between two calls. -/
structure InHand (m : Machine Ram) (ts : List Transaction) : Prop where
  last : Last m.flash m.ram.activeRecord m.ram.candidate ts
  stage : Stage m.flash m.ram.activeRecord m.ram.candidate ts

section Calls

variable {m m' : Machine Ram} {ts : List Transaction} {t : Transaction} {data : List UInt8}

/-- A candidate that is given up is in no stage. -/
theorem Stage.drop {f : Mem} {active : Option Record} {c : Candidate}
    (h : Stage f active c ts) : Stage f active { c with active := false } ts := by
  cases h with
  | comparing hcmp hrec => exact .comparing hcmp hrec fun hact => by cases hact
  | unused hun => exact .unused ⟨hun.changed, hun.slotAddress, hun.accepted⟩ fun hact => by cases hact
  | fresh hfresh => exact .dropped rfl hfresh.notWorn
  | closed hcmp hacc hpend hholds => exact .closed hcmp hacc hpend hholds
  | dropped _ hnot => exact .dropped rfl hnot

/-- At the last generation, a begin changes nothing but the declared CRC. -/
theorem Stage.declare {f : Mem} {active : Option Record} {c : Candidate}
    (h : Stage f active c ts) (hworn : WornOut active) (crc : UInt32) (ts' : List Transaction) :
    Stage f active { c with payloadCrc32 := crc, active := true } ts' := by
  cases h with
  | comparing hcmp hrec => exact .comparing hcmp hrec fun _ hnot => absurd hworn hnot
  | unused hun => exact .unused ⟨hun.changed, hun.slotAddress, hun.accepted⟩ fun _ => hworn
  | fresh hfresh => exact absurd hworn hfresh.notWorn
  | closed hcmp hacc hpend hholds => exact .closed hcmp hacc hpend hholds
  | dropped _ hnot => exact absurd hworn hnot

/-- A slot that was started is fresh. -/
theorem fresh_after_start {f : Mem} {active : Option Record} {c : Candidate}
    (hact : c.active = true) (hnot : ¬ WornOut active) :
    Fresh (applyAll (planAfter active c.payloadCrc32) f) active (startedCandidate active c) :=
  ⟨hact, rfl, hnot, rfl, rfl, header_after_start, half_after_start _ _ _ _⟩

/-- It stays fresh while its header and its marker are left alone. -/
theorem Fresh.moved {f f' : Mem} {active : Option Record} {c c' : Candidate}
    (h : Fresh f active c) (hsame : SameCandidate c c') (hintact : Intact c.slotAddress f f') :
    Fresh f' active c' where
  live := hsame.active.trans h.live
  changed := hsame.compareActive.trans h.changed
  notWorn := h.notWorn
  slotAddress := hsame.slotAddress.trans h.slotAddress
  generation := hsame.generation.trans h.generation
  header := by
    rw [hsame.slotAddress, hsame.generation, hsame.payloadCrc32, hintact.header]
    exact h.header
  marker := by
    rw [hsame.slotAddress, hintact.marker]
    exact h.marker

/-- A candidate may be given up in every state. -/
theorem InHand.drop (h : InHand m ts) : InHand { m with ram :=
    { m.ram with candidate := { m.ram.candidate with active := false } } } ts :=
  ⟨h.last.drop rfl, h.stage.drop⟩

/-! ### Begin -/

theorem tracks_nil {c : Candidate} (hacc : c.acceptedBytes = 0) (hpend : c.pendingValid = false) :
    Tracks c [] := by
  have hnone := @tracks_advance c [] hacc hpend
  exact hnone

theorem storedAt_nil (f : Mem) (slot : ℕ) : StoredAt f slot [] := rfl

theorem begin_inHand (h : InHand m ts) (crc : UInt32) :
    wp (beginCandidate crc) (fun _ m' => InHand m' (begun (.begin crc) m ts))
      (fun m' => Restores (begun (.begin crc) m ts) m.ram.activeRecord m'.flash) m := by
  have hbegun : m.ram.candidate.active = false → begun (.begin crc) m ts =
      ⟨m.ram.activeRecord, m.flash, crc, [], false⟩ :: ts := fun hidle => by simp [begun, hidle]
  have hopened := h.last.begins crc
  have hrecord : (declared m.ram crc).activeRecord = m.ram.activeRecord := rfl
  have hstart : ∀ {m' : Machine Ram}, Broke (planAfter m.ram.activeRecord crc)
      { m with ram := declared m.ram crc } m' → Opened m'.flash m.ram.activeRecord
        ⟨m.ram.activeRecord, m.flash, crc, [], false⟩ ts :=
    fun hbroke => hopened.starts (starts_planAfter _ crc) (Broke.of_ram hrecord hbroke)
  refine wp_mono (beginCandidate_wp crc m) (fun r m' hstep => ?_) fun m' hstep => ?_
  · cases hstep with
    | refused hact =>
      have hsame : begun (.begin crc) m ts = ts := by simp [begun, hact]
      rw [hsame]
      exact h
    | comparing hidle hcrc =>
      rw [hbegun hidle]
      obtain ⟨record, hrec, -⟩ := Option.map_eq_some_iff.mp hcrc
      refine ⟨.opened hopened, .comparing rfl hrec fun _ _ t ht => ?_⟩
      obtain rfl := Option.some.inj ht
      exact ⟨rfl, rfl, rfl⟩
    | starting hidle _ hends =>
      rw [hbegun hidle]
      cases hends with
      | wornOut hworn => exact ⟨.opened hopened, h.stage.declare hworn crc _⟩
      | started hnot hran hram =>
        have hfresh := @fresh_after_start m.flash m.ram.activeRecord
          (declared m.ram crc).candidate rfl hnot
        have hflash : m'.flash = applyAll (planAfter m.ram.activeRecord crc) m.flash := hran.flash
        refine ⟨?_, ?_⟩
        · rw [hram]
          exact .opened (hstart hran.toBroke)
        · rw [hram, hflash]
          refine .fresh hfresh fun t ht => ?_
          obtain rfl := Option.some.inj ht
          exact ⟨rfl, tracks_nil rfl rfl, storedAt_nil _ _⟩
      | failed hnot _ hbroke hram =>
        refine ⟨?_, ?_⟩
        · rw [hram]
          exact .opened (hstart hbroke)
        · rw [hram]
          exact .dropped rfl hnot
  · cases hstep with
    | starting hidle _ hends =>
      rw [hbegun hidle]
      cases hends with
      | cut _ _ hbroke => exact (hstart hbroke).restores

/-! ### Write -/

/-- A write that finds no candidate, or all of it, does nothing. -/
theorem write_idle (h : m.ram.candidate.active = false ∨ m.ram.candidate.compareActive = false ∧
      m.ram.candidate.acceptedBytes = configBytes ∧ m.ram.candidate.pendingValid = false) :
    wp (writeCandidate data) (fun _ m' => m' = m) (fun _ => False) m := by
  unfold writeCandidate
  rw [wp_bind, wp_ram, wp_ite]
  split
  · rfl
  next href =>
  obtain ⟨hact, hfits⟩ := not_or.mp href
  rcases h with hidle | ⟨hcmp, hacc, hpend⟩
  · exact absurd hidle hact
  have hnil : data = [] := List.eq_nil_of_length_eq_zero (by omega)
  rw [wp_ite, if_neg (by simp [hcmp]), hnil]
  simp only [writePayloadBytes, wp_bind, wp_ram, hpend, writePairs, wp_pure]

/-- No byte accepted is no change. -/
theorem recorded_idle (data : List UInt8) (r : Result) (m : Machine Ram) (ts : List Transaction) :
    recorded (.write data) r m m ts = ts := by
  rcases ts with - | ⟨t, ts⟩
  · rfl
  · simp [recorded, begun, Transaction.answered]

theorem recorded_write (data : List UInt8) (r : Result) (m m' : Machine Ram) (t : Transaction)
    (ts : List Transaction) : recorded (.write data) r m m' (t :: ts) =
      { t with bytes := t.bytes ++
        data.take (m'.ram.candidate.acceptedBytes - m.ram.candidate.acceptedBytes) } :: ts := rfl

/-- What has not been marked may be given more. -/
theorem Opened.give {f : Mem} {active : Option Record} (h : Opened f active t ts)
    (hfailed : t.failed = false) (bytes : List UInt8) :
    Opened f active { t with bytes := bytes } ts where
  based := by
    refine h.based.mono fun r' _ => ?_
    rintro ⟨t', ht', hbase, hfailed', hstored⟩
    rcases List.mem_cons.mp ht' with rfl | ht'
    · exact absurd (hfailed.symm.trans hfailed') (by simp)
    · exact ⟨t', List.mem_cons_of_mem _ ht', hbase, hfailed', hstored⟩
  base := h.base
  payload := h.payload

/-- **A write to the slot that is started** adds to the transaction what it
accepted. The slot is unmarked until a commit, so a reset finds nothing of it.
-/
theorem write_fresh (h : InHand m (t :: ts)) (ho : Opened m.flash m.ram.activeRecord t ts)
    (hfresh : Fresh m.flash m.ram.activeRecord m.ram.candidate)
    (hgiven : Given m.flash m.ram.candidate t) :
    wp (writeCandidate data)
      (fun r m' => InHand m' (recorded (.write data) r m m' (t :: ts)))
      (fun m' => Restores (t :: ts) m.ram.activeRecord m'.flash) m := by
  have hcmp : m.ram.candidate.compareActive ≠ true := by simp [hfresh.changed]
  have hpend : m.ram.candidate.pendingValid = true → 1 ≤ m.ram.candidate.acceptedBytes := by
    intro hp
    have hodd := hgiven.tracks.odd.mp hp
    rw [hgiven.tracks.accepted]
    omega
  have hheld : (held m.ram.candidate).length ≤ m.ram.candidate.acceptedBytes := by
    unfold held
    split
    next hp => exact hpend hp
    · exact Nat.zero_le _
  have hslot := hfresh.slotAddress
  have hbase : m.ram.candidate.slotAddress + offsetPayload ≤ payloadAddress m.ram.candidate
      (m.ram.candidate.acceptedBytes - (held m.ram.candidate).length) := by
    unfold payloadAddress
    omega
  -- the slot is written to, past its header and its marker
  have hbroke : ∀ {m' : Machine Ram} (t' : Transaction),
      m.ram.candidate.acceptedBytes + data.length ≤ configBytes →
      Broke (programOps (payloadAddress m.ram.candidate
        (m.ram.candidate.acceptedBytes - (held m.ram.candidate).length))
        (held m.ram.candidate ++ data)) m m' → t'.base = t.base → t'.flash = t.flash →
      Opened m'.flash m.ram.activeRecord t' ts ∧
        Intact m.ram.candidate.slotAddress m.flash m'.flash := by
    intro m' t' hfits hbroke htbase htflash
    have hend : payloadAddress m.ram.candidate
          (m.ram.candidate.acceptedBytes - (held m.ram.candidate).length) +
        (held m.ram.candidate ++ data).length ≤ m.ram.candidate.slotAddress + pageSize := by
      rw [List.length_append]
      unfold payloadAddress offsetPayload configBytes pageSize at *
      omega
    have hintact := intact_of_payload hbase hbroke
    have honly := onlyIn_of_broke (keepsTo_programOps (by omega) hend) hbroke
    have hmark := hintact.marker.trans hfresh.marker
    rw [hslot] at honly hmark
    exact ⟨ho.unmarked honly hmark htbase htflash, hintact⟩
  refine wp_mono (wp_and (writeCandidate_wp data m (fun hc => absurd hc hcmp) fun _ => hpend)
    (writeCandidate_accepts data m hfresh.changed ⟨hgiven.tracks, hgiven.stored⟩)) ?_ ?_
  · rintro r m' ⟨hstep, hstores⟩
    rw [← hgiven.tracks.accepted] at hstores
    cases hstep with
    | refused =>
      rw [recorded_idle]
      exact h
    | compared _ hc => exact absurd hc hcmp
    | wornOut hc => exact absurd hc hcmp
    | started _ hc => exact absurd hc hcmp
    | startFailed _ hc => exact absurd hc hcmp
    | stored _ _ hfits hwrite =>
      have hmoved : ∀ {c : Candidate}, SameCandidate m.ram.candidate c →
          Broke (programOps (payloadAddress m.ram.candidate
            (m.ram.candidate.acceptedBytes - (held m.ram.candidate).length))
            (held m.ram.candidate ++ data)) m m' →
          m'.ram = { m.ram with candidate := c } →
          InHand m' (recorded (.write data) r m m' (t :: ts)) := by
        intro c hsame hplan hram
        obtain ⟨bytes, hb⟩ : ∃ bytes, bytes = t.bytes ++
          data.take (m'.ram.candidate.acceptedBytes - m.ram.candidate.acceptedBytes) := ⟨_, rfl⟩
        rw [← hb] at hstores
        rw [recorded_write, ← hb]
        obtain ⟨ho', hintact⟩ := hbroke { t with bytes := bytes } hfits hplan rfl rfl
        have hrecord : m'.ram.activeRecord = m.ram.activeRecord := by rw [hram]
        have hcand : m'.ram.candidate = c := by rw [hram]
        have hcrc : t.payloadCrc32 = m'.ram.candidate.payloadCrc32 := by
          rw [hcand, hsame.payloadCrc32]
          exact hgiven.payloadCrc32
        refine ⟨?_, ?_⟩
        · rw [hrecord]
          exact .opened ho'
        · refine .fresh ?_ fun t' ht' => ?_
          · rw [hrecord, hcand]
            exact hfresh.moved hsame hintact
          · obtain rfl := Option.some.inj ht'
            exact ⟨hcrc, hstores.tracks, hstores.stored⟩
      cases hwrite with
      | written hran hram => exact hmoved (sameCandidate_accept _ _) hran.toBroke hram
      | failed hplan hram hsame => exact hmoved hsame hplan hram
  · rintro m' ⟨hstep, -⟩
    cases hstep with
    | startCut _ hc => exact absurd hc hcmp
    | stored _ _ hfits hwrite =>
      cases hwrite with
      | cut hplan => exact (hbroke t hfits hplan rfl rfl).1.restores

/-- **A write in compare mode** touches nothing as long as the bytes agree. At
the first that differs the other slot is started, and whatever was stranded
there is gone. -/
theorem write_comparing {record : Record} (h : InHand m (t :: ts))
    (ho : Opened m.flash m.ram.activeRecord t ts) (hact : m.ram.candidate.active = true)
    (hcmp : m.ram.candidate.compareActive = true) (hrec : m.ram.activeRecord = some record)
    (hbytes : ¬ WornOut m.ram.activeRecord → t.failed = false ∧
      t.payloadCrc32 = m.ram.candidate.payloadCrc32 ∧
      m.flash.bytes (record.slotAddress + offsetPayload) m.ram.candidate.acceptedBytes = t.bytes) :
    wp (writeCandidate data)
      (fun r m' => InHand m' (recorded (.write data) r m m' (t :: ts)))
      (fun m' => Restores (t :: ts) m.ram.activeRecord m'.flash) m := by
  have hcmp' : m.ram.candidate.compareActive ≠ false := by simp [hcmp]
  have hslot := (ho.based.slot record hrec).1
  have hput := writeCandidate_wp data m (fun _ => ⟨record, hrec, hslot⟩) fun hc => absurd hc hcmp'
  by_cases hworn : WornOut m.ram.activeRecord
  · -- nothing is started any more
    have hquiet : ∀ bytes, Opened m.flash m.ram.activeRecord { t with bytes := bytes } ts :=
      fun bytes => ⟨ho.based.worn hworn, ho.base, ho.payload⟩
    refine wp_mono hput (fun r m' hstep => ?_) fun m' hstep => ?_
    · cases hstep with
      | refused =>
        rw [recorded_idle]
        exact h
      | compared =>
        rw [recorded_write]
        exact ⟨.opened (hquiet _), .comparing hcmp hrec fun _ hnot => absurd hworn hnot⟩
      | wornOut =>
        rw [recorded_write]
        exact ⟨.opened (hquiet _), .comparing hcmp hrec fun _ hnot => absurd hworn hnot⟩
      | started _ _ _ _ _ hnot => exact absurd hworn hnot
      | startFailed _ _ _ _ hnot => exact absurd hworn hnot
      | stored _ hc => exact absurd hc hcmp'
    · cases hstep with
      | startCut _ _ _ _ hnot => exact absurd hworn hnot
      | stored _ hc => exact absurd hc hcmp'
  obtain ⟨hfailed, hcrc, hsame⟩ := hbytes hworn
  have hlen : m.ram.candidate.acceptedBytes = t.bytes.length := by
    rw [← hsame, Mem.length_bytes]
  have hstarts : ∀ record' : Record, m.ram.candidate.acceptedBytes + data.length ≤ configBytes →
      Starts (otherSlot m.ram.activeRecord)
        (planAfter m.ram.activeRecord m.ram.candidate.payloadCrc32 ++
          programOps (otherSlot m.ram.activeRecord + offsetPayload)
            (m.flash.bytes (record'.slotAddress + offsetPayload) m.ram.candidate.acceptedBytes ++
              data)) := by
    intro record' hfits
    refine starts_storePlan _ _ ?_
    rwa [List.length_append, Mem.length_bytes]
  -- the slot is started, with what was accepted
  have hstarted : ∀ {m' : Machine Ram} {c' : Candidate} {r : Result} (record' : Record),
      m.ram.candidate.acceptedBytes + data.length ≤ configBytes →
      Broke (planAfter m.ram.activeRecord m.ram.candidate.payloadCrc32 ++
        programOps (otherSlot m.ram.activeRecord + offsetPayload)
          (m.flash.bytes (record'.slotAddress + offsetPayload) m.ram.candidate.acceptedBytes ++
            data)) m m' →
      m'.ram = { m.ram with candidate := c' } →
      SameCandidate (startedCandidate m.ram.activeRecord m.ram.candidate) c' →
      Fresh m'.flash m.ram.activeRecord c' →
      (m'.ram.candidate.active = true → m'.ram.candidate.compareActive = false →
        Stores m' (t.bytes ++
          data.take (m'.ram.candidate.acceptedBytes - m.ram.candidate.acceptedBytes))) →
      InHand m' (recorded (.write data) r m m' (t :: ts)) := by
    intro m' c' r record' hfits hbroke hram hsame' hfresh hstores
    have ho' := ho.starts (hstarts record' hfits) hbroke
    have hrecord : m'.ram.activeRecord = m.ram.activeRecord := by rw [hram]
    have hcand : m'.ram.candidate = c' := by rw [hram]
    have hmark := hfresh.marker
    rw [hfresh.slotAddress] at hmark
    have hfresh' : Fresh m'.flash m'.ram.activeRecord m'.ram.candidate := by
      rw [hrecord, hcand]
      exact hfresh
    rw [recorded_write]
    refine ⟨?_, .fresh hfresh' fun t' ht' => ?_⟩
    · rw [hrecord]
      exact .opened (ho'.give hfailed _)
    · obtain rfl := Option.some.inj ht'
      have hs := hstores hfresh'.live hfresh'.changed
      have hcrc' : t.payloadCrc32 = m'.ram.candidate.payloadCrc32 := by
        rw [hcrc, hcand]
        exact hsame'.payloadCrc32.symm
      exact ⟨hcrc', hs.tracks, hs.stored⟩
  refine wp_mono (wp_and hput (writeCandidate_starts data m hcmp hrec hslot hsame)) ?_ ?_
  · rintro r m' ⟨hstep, hstores⟩
    rw [← hlen] at hstores
    cases hstep with
    | refused =>
      rw [recorded_idle]
      exact h
    | compared _ _ hrec' _ hequal =>
      obtain rfl := Option.some.inj (hrec.symm.trans hrec')
      rw [recorded_write]
      refine ⟨.opened (ho.give hfailed _), .comparing hcmp hrec fun _ _ t' ht' => ?_⟩
      obtain rfl := Option.some.inj ht'
      refine ⟨hfailed, hcrc, ?_⟩
      simp only [Nat.add_sub_cancel_left, List.take_length]
      rw [Mem.bytes_add, hsame, hequal]
    | wornOut _ _ _ hw => exact absurd hw hworn
    | @started record' c' _ _ _ _ hfits _ _ hran hram hsame' =>
      refine hstarted record' hfits hran.toBroke hram hsame' ?_ hstores
      refine ⟨hsame'.active.trans hact, hsame'.compareActive, hworn, hsame'.slotAddress,
        hsame'.generation, ?_, ?_⟩
      · rw [hsame'.slotAddress, hsame'.generation, hsame'.payloadCrc32, hran.flash, applyAll_append]
        refine (header_frame ?_).trans header_after_start
        simp only [startedCandidate]
        unfold offsetPayload
        omega
      · have hmark := (hstarts record' hfits).half_done m.flash
        rw [← hran.flash] at hmark
        rw [hsame'.slotAddress]
        exact hmark
    | @startFailed record' c' _ _ _ _ hfits _ _ hbroke hram hends =>
      rcases hends with ⟨hidle, -⟩ | ⟨hsame', -, m₁, hran, hrest⟩
      · have hrecord : m'.ram.activeRecord = m.ram.activeRecord := by rw [hram]
        have hdropped : m'.ram.candidate.active = false := by rw [hram, hidle]
        rw [recorded_write]
        refine ⟨?_, .dropped hdropped (hrecord ▸ hworn)⟩
        rw [hrecord]
        exact .opened ((ho.starts (hstarts record' hfits) hbroke).give hfailed _)
      · -- the slot was started, and the payload stopped inside
        refine hstarted record' hfits hbroke hram hsame' ?_ hstores
        have hfresh := @fresh_after_start m.flash _ _ hact hworn
        rw [← hran.flash] at hfresh
        exact hfresh.moved hsame' (intact_of_payload (Nat.le_refl _) hrest)
    | stored _ hc => exact absurd hc hcmp'
  · rintro m' ⟨hstep, -⟩
    cases hstep with
    | @startCut record' _ _ _ _ hfits _ _ hbroke =>
      exact (ho.starts (hstarts record' hfits) hbroke).restores
    | stored _ hc => exact absurd hc hcmp'

theorem write_inHand (h : InHand m ts) (data : List UInt8) :
    wp (writeCandidate data) (fun r m' => InHand m' (recorded (.write data) r m m' ts))
      (fun m' => Restores ts m.ram.activeRecord m'.flash) m := by
  have hidle : (m.ram.candidate.active = false ∨ m.ram.candidate.compareActive = false ∧
      m.ram.candidate.acceptedBytes = configBytes ∧ m.ram.candidate.pendingValid = false) →
      wp (writeCandidate data) (fun r m' => InHand m' (recorded (.write data) r m m' ts))
        (fun m' => Restores ts m.ram.activeRecord m'.flash) m := by
    intro hidle
    refine wp_mono (write_idle hidle) (fun r m' hsame => ?_) fun _ => False.elim
    rw [hsame, recorded_idle]
    exact h
  by_cases hact : m.ram.candidate.active = false
  · exact hidle (Or.inl hact)
  have hact : m.ram.candidate.active = true := by simpa using hact
  obtain ⟨t, us, rfl, ho⟩ := h.last.of_active hact
  cases h.stage with
  | comparing hcmp hrec hbytes =>
    exact write_comparing h ho hact hcmp hrec fun hnot => hbytes hact hnot t rfl
  | unused hun hworn =>
    refine wp_mono (write_unused hun) ?_ fun _ => False.elim
    rintro r m' ⟨c, hun', -, rfl⟩
    rw [recorded_write]
    exact ⟨.opened ⟨ho.based.worn (hworn hact), ho.base, ho.payload⟩, .unused hun' fun _ => hworn hact⟩
  | fresh hfresh hgiven => exact write_fresh h ho hfresh (hgiven t rfl)
  | closed hcmp hacc hpend => exact hidle (Or.inr ⟨hcmp, hacc, hpend⟩)
  | dropped hno => exact absurd (hno.symm.trans hact) (by simp)

/-! ### Commit -/

/-- A commit of what is not complete is refused, or finds nothing changed. -/
theorem commit_refused {r : Option Result} (hnot : ¬ Complete m.ram.candidate)
    (hstep : CommitStep m r m') : (∃ r', r = some r' ∧ r' ≠ .storageError) ∧
      (m' = m ∨ m' = { m with ram :=
        { m.ram with candidate := { m.ram.candidate with active := false } } }) := by
  cases hstep with
  | refused => exact ⟨⟨_, rfl, by decide⟩, Or.inl rfl⟩
  | unchanged => exact ⟨⟨_, rfl, by decide⟩, Or.inr rfl⟩
  | headerFailed hcomplete => exact absurd hcomplete hnot
  | invalid hcomplete => exact absurd hcomplete hnot
  | markerFailed hcomplete => exact absurd hcomplete hnot
  | markedInvalid hcomplete => exact absurd hcomplete hnot
  | committed hcomplete => exact absurd hcomplete hnot
  | cut hcomplete => exact absurd hcomplete hnot

theorem recorded_commit (r : Result) (m m' : Machine Ram) (t : Transaction)
    (ts : List Transaction) : recorded .commit r m m' (t :: ts) =
      { t with failed := t.failed || decide (r = .storageError) } :: ts := rfl

/-- Only a storage error is recorded of a commit. -/
theorem recorded_commit_other {r : Result} (hr : r ≠ .storageError) (m m' : Machine Ram)
    (ts : List Transaction) : recorded .commit r m m' ts = ts := by
  rcases ts with - | ⟨t, ts⟩
  · rfl
  · simp [recorded_commit, hr]

/-- What is stored does not depend on what a commit answered. -/
theorem Transaction.Stored.fail {f : Mem} {r : Record} (h : t.Stored f r) (b : Bool) :
    Transaction.Stored { t with failed := b } f r :=
  ⟨h.slotAddress, h.generation, h.payloadCrc32, h.length, h.payload, h.holds, h.marker, h.crc, h.layout⟩

/-- A transaction whose commit fails stays open. -/
theorem Opened.fail {f : Mem} {active : Option Record} (h : Opened f active t ts) (b : Bool) :
    Opened f active { t with failed := t.failed || b } ts where
  based := by
    refine h.based.mono fun r' _ => ?_
    rintro ⟨t', ht', hbase, hfailed, hstored⟩
    rcases List.mem_cons.mp ht' with rfl | ht'
    · exact ⟨_, List.mem_cons_self, hbase, by simp [hfailed], hstored.fail _⟩
    · exact ⟨t', List.mem_cons_of_mem _ ht', hbase, hfailed, hstored⟩
  base := h.base
  payload := h.payload

/-- Nor does the last transaction change by a commit that fails. -/
theorem Last.fail {f : Mem} {active : Option Record} {c : Candidate} (h : Last f active c ts)
    (r : Result) (m m' : Machine Ram) : Last f active c (recorded .commit r m m' ts) := by
  cases h with
  | none hidle hb => exact .none hidle hb
  | opened ho => exact .opened (ho.fail _)
  | committed hidle hb hr hstored => exact .committed hidle hb hr (hstored.fail _)

/-- The slot may have been marked for the transaction. -/
theorem Opened.marked {f f' : Mem} {active : Option Record} (h : Opened f active t ts)
    (honly : OnlyIn (otherSlot active) f f')
    (hwhole : ∀ r', Holds f' (otherSlot active) r' → t.Stored f' r') {b : Bool} (hb : b = true) :
    Opened f' active { t with failed := b } ts where
  based := by
    refine h.based.congr honly fun r' hr' => Or.inr ⟨?_, ?_⟩
    · rw [(hwhole r' hr').generation, h.base]
    · exact ⟨_, List.mem_cons_self, h.base, hb, (hwhole r' hr').fail b⟩
  base := h.base
  payload r hr := by
    rw [h.based.payload honly r hr]
    exact h.payload r hr

/-- What the last transaction failed at does not matter to a boot. -/
theorem Restores.unfail {f : Mem} {active : Option Record} {b : Bool}
    (h : Restores ({ t with failed := b } :: ts) active f) : Restores (t :: ts) active f := by
  refine ⟨?_, h.backed⟩
  rcases h.selected with hbefore | ⟨r, hr, hstored | hstranded⟩
  · exact Or.inl ⟨hbefore.base, hbefore.payload⟩
  · exact Or.inr ⟨r, hr, Or.inl (hstored.fail t.failed)⟩
  · exact Or.inr ⟨r, hr, Or.inr hstranded⟩

/-- The header's CRC and the marker are stored before the payload. -/
theorem payload_of_commit {slot n : ℕ} {f : Mem}
    (hbroke : Broke (crcPlan slot f ++ markerPlan slot) m m') :
    m'.flash.bytes (slot + offsetPayload) n = m.flash.bytes (slot + offsetPayload) n := by
  refine Mem.bytes_congr fun i hi => hbroke.flash_of_not_covers fun o ho hx => ?_
  rcases List.mem_append.mp ho with ho | ho
  · rcases List.mem_append.mp ho with ho | ho
    · obtain ⟨rfl, -⟩ := mem_halfOps.mp ho
      simp only [Op.Covers, offsetHeaderCrc, offsetPayload] at hx
      omega
    · obtain ⟨rfl, -⟩ := mem_halfOps.mp ho
      simp only [Op.Covers, offsetHeaderCrc, offsetPayload] at hx
      omega
  · obtain ⟨rfl, -⟩ := mem_halfOps.mp ho
    simp only [Op.Covers, offsetMarker, offsetPayload] at hx
    omega

/-- The marker is one operation. -/
theorem take_markerPlan (slot : ℕ) {j : ℕ} (hj : 0 < j) :
    (markerPlan slot).take j = markerPlan slot := by
  refine List.take_of_length_le ?_
  rw [markerPlan, halfOps, if_neg (by decide)]
  exact hj

/-- **Whatever the slot holds after a commit is the candidate, whole.** A record
that validates has its CRC and its marker, and the bytes under the CRC are those
that were accepted. -/
theorem stored_of_commit {f : Mem} (ho : Opened m.flash m.ram.activeRecord t ts)
    (hfresh : Fresh m.flash m.ram.activeRecord m.ram.candidate)
    (hgiven : Given m.flash m.ram.candidate t) (hlen : t.bytes.length = configBytes)
    (hbroke : Broke (crcPlan m.ram.candidate.slotAddress f ++
      markerPlan m.ram.candidate.slotAddress) m m') :
    ∀ r', Holds m'.flash (otherSlot m.ram.activeRecord) r' → t.Stored m'.flash r' := by
  intro r' hr'
  have hheader := (header_of_commit hbroke).trans hfresh.header
  rw [hfresh.slotAddress, hfresh.generation] at hheader
  have hpayload : payload m'.flash (otherSlot m.ram.activeRecord) = t.bytes := by
    have hstored := hgiven.stored
    have height : 2 * (t.bytes.length / 2) = configBytes := by rw [hlen]; rfl
    unfold StoredAt at hstored
    rw [height, ← hlen, List.take_length, hlen] at hstored
    rw [← hfresh.slotAddress]
    exact (payload_of_commit hbroke).trans hstored
  have hat := hr'.slotAddress
  have hdeclared : r'.payloadCrc32 = t.payloadCrc32 := by
    rw [crc_of_validate hr', crc_of_header hheader, hgiven.payloadCrc32]
  refine ⟨?_, ?_, hdeclared, hlen, ?_, ?_, ?_, ?_, ?_⟩
  · rw [hat, ho.base]
  · rw [(validateRecord_ok hr').2.1, ho.base]
    exact generation_of_header (nextGeneration_le hfresh.notWorn) hheader
  · rw [hat, hpayload]
  · rw [hat]
    exact hr'
  · rw [hat]
    exact marker_of_validate hr'
  · rw [← hpayload, ← (validated_of_ok hr').payload, hdeclared]
  · rw [← hpayload]
    exact layoutValidate_of_validate hr'

/-- **A commit of the slot that is started.** The marker may be stored and the
commit still fail: then the transaction is recorded as failed, and its record as
stranded. -/
theorem commit_fresh (h : InHand m (t :: ts)) (ho : Opened m.flash m.ram.activeRecord t ts)
    (hcomplete : Complete m.ram.candidate)
    (hfresh : Fresh m.flash m.ram.activeRecord m.ram.candidate)
    (hgiven : Given m.flash m.ram.candidate t) :
    wp commitCandidate (fun r m' => InHand m' (recorded .commit r m m' (t :: ts)))
      (fun m' => Restores (t :: ts) m.ram.activeRecord m'.flash) m := by
  obtain ⟨-, hacc, hcmp, hpend⟩ := hcomplete
  have hslot := hfresh.slotAddress
  have hlen : t.bytes.length = configBytes := by rw [← hgiven.tracks.accepted, hacc]
  have hkeeps : KeepsTo (otherSlot m.ram.activeRecord)
      (crcPlan m.ram.candidate.slotAddress m.flash ++ markerPlan m.ram.candidate.slotAddress) := by
    rw [hslot]
    exact (keepsTo_crcPlan _ _).append (keepsTo_markerPlan _)
  -- with no marker, the candidate is where it was
  have hkept : ∀ {m₁ m' : Machine Ram} (r : Result),
      Broke (crcPlan m.ram.candidate.slotAddress m.flash) m m₁ → m'.flash = m₁.flash →
      m'.ram = m.ram → InHand m' (recorded .commit r m m' (t :: ts)) := by
    intro m₁ m' r hbroke hflash hram
    have hintact := intact_of_crc hbroke
    have honly : OnlyIn (otherSlot m.ram.activeRecord) m.flash m₁.flash :=
      onlyIn_of_broke hkeeps (hbroke.append _)
    have hpayload := @payload_of_commit _ _ _ (2 * (t.bytes.length / 2)) _ (hbroke.append _)
    rw [← hflash] at hintact honly hpayload
    have hmark := hintact.marker.trans hfresh.marker
    refine ⟨?_, ?_⟩
    · rw [hram, recorded_commit]
      exact .opened (ho.unmarked honly (hslot ▸ hmark) rfl rfl)
    · rw [hram]
      refine .fresh (hfresh.moved (SameCandidate.refl _) hintact) fun t' ht' => ?_
      rw [recorded_commit] at ht'
      obtain rfl := Option.some.inj ht'
      exact ⟨hgiven.payloadCrc32, hgiven.tracks, hpayload.trans hgiven.stored⟩
  refine wp_mono (commitCandidate_wp m) (fun r m' hstep => ?_) fun m' hstep => ?_
  · cases hstep with
    | refused =>
      rw [recorded_commit_other (by decide)]
      exact h
    | unchanged _ _ hcmp' => exact absurd (hcmp.symm.trans hcmp') (by simp)
    | headerFailed _ hbroke hram => exact hkept _ hbroke rfl hram
    | invalid _ hran hram => exact hkept _ hran.toBroke rfl hram
    | @markerFailed m₁ _ record _ hran _ hvalid hbroke hram =>
      obtain ⟨j, hflash⟩ := hbroke.flash
      rcases Nat.eq_zero_or_pos j with rfl | hj
      · exact hkept _ hran.toBroke hflash hram
      · -- the marker is stored all the same
        rw [take_markerPlan _ hj] at hflash
        have hholds := holds_of_marked hvalid hflash
        have hall := hran.broke hbroke
        have hopened := ho.marked (onlyIn_of_broke hkeeps hall)
          (stored_of_commit ho hfresh hgiven hlen hall)
          (show (t.failed || decide (Result.storageError = .storageError)) = true by simp)
        refine ⟨?_, ?_⟩
        · rw [hram, recorded_commit]
          exact .opened hopened
        · rw [hram]
          exact .closed hcmp hacc hpend hholds
    | markedInvalid _ _ hvalid hran' _ herr =>
      have hholds := holds_of_marked hvalid hran'.flash
      unfold Holds at hholds
      rw [hholds] at herr
      cases herr
    | @committed m₁ m₂ record _ _ hran _ hran' _ hvalid =>
      have hall := (hran.trans hran').toBroke
      have hholds : Holds m₂.flash (otherSlot m.ram.activeRecord) record := hslot ▸ hvalid
      have hstored := stored_of_commit ho hfresh hgiven hlen hall record hholds
      have honly := (onlyIn_of_withoutOther m.ram.activeRecord m.flash).trans
        (onlyIn_of_broke hkeeps hall)
      rw [recorded_commit_other (by decide)]
      refine ⟨.committed rfl (ho.based.backed.committed honly hholds ?_) rfl hstored,
        .closed hcmp hacc hpend hvalid⟩
      rw [hstored.generation, ho.base]
  · cases hstep with
    | cut _ _ hbroke =>
      exact (ho.marked (onlyIn_of_broke hkeeps hbroke)
        (stored_of_commit ho hfresh hgiven hlen hbroke) rfl).restores.unfail

theorem commit_inHand (h : InHand m ts) :
    wp commitCandidate (fun r m' => InHand m' (recorded .commit r m m' ts))
      (fun m' => Restores ts m.ram.activeRecord m'.flash) m := by
  have hrefused : ¬ Complete m.ram.candidate →
      wp commitCandidate (fun r m' => InHand m' (recorded .commit r m m' ts))
        (fun m' => Restores ts m.ram.activeRecord m'.flash) m := by
    intro hnot
    refine wp_mono (commitCandidate_wp m) (fun r m' hstep => ?_) fun m' hstep => ?_
    · obtain ⟨⟨r', hr', hne⟩, hsame | hdrop⟩ := commit_refused hnot hstep
      · obtain rfl := Option.some.inj hr'
        rw [recorded_commit_other hne, hsame]
        exact h
      · obtain rfl := Option.some.inj hr'
        rw [recorded_commit_other hne, hdrop]
        exact h.drop
    · obtain ⟨⟨r', hr', -⟩, -⟩ := commit_refused hnot hstep
      cases hr'
  by_cases hcomplete : Complete m.ram.candidate
  · obtain ⟨t, us, rfl, ho⟩ := h.last.of_active hcomplete.active
    cases h.stage with
    | comparing hcmp => exact absurd (hcomplete.changed.symm.trans hcmp) (by simp)
    | unused hun =>
      have hall := hcomplete.accepted
      have hacc := hun.accepted
      unfold configBytes at hall
      omega
    | fresh hfresh hgiven => exact commit_fresh h ho hcomplete hfresh (hgiven t rfl)
    | closed hcmp hacc hpend hholds =>
      refine wp_mono (commit_marked hholds) (fun r m' hidled => ?_) fun m' hquiet => ?_
      · have hfailed : InHand m (recorded .commit r m m' (t :: us)) :=
          ⟨h.last.fail r m m', .closed hcmp hacc hpend hholds⟩
        obtain ⟨⟨hflash, -⟩, hram | hram⟩ := hidled
        · refine ⟨?_, ?_⟩
          · rw [hflash, hram]
            exact hfailed.last
          · rw [hflash, hram]
            exact hfailed.stage
        · refine ⟨?_, ?_⟩
          · rw [hflash, hram]
            exact hfailed.drop.last
          · rw [hflash, hram]
            exact hfailed.drop.stage
      · rw [hquiet.1]
        exact h.last.restores
    | dropped hidle => exact absurd (hidle.symm.trans hcomplete.active) (by simp)
  · exact hrefused hcomplete

/-! ### Every call -/

/-- **Every call keeps the transactions in hand,** and wherever a reset cuts it
short, what the boot selects is one of the three. -/
theorem call_inHand (h : InHand m ts) (c : Call) :
    wp c.run (fun r m' => InHand m' (recorded c r m m' ts))
      (fun m' => Restores (begun c m ts) m.ram.activeRecord m'.flash) m := by
  cases c with
  | begin crc =>
    refine wp_mono (begin_inHand h crc) (fun r m' hm => ?_) fun _ hm => hm
    have hsame : recorded (.begin crc) r m m' ts = begun (.begin crc) m ts := by
      unfold recorded
      rcases begun (.begin crc) m ts with - | ⟨t, us⟩
      · rfl
      · rfl
    rw [hsame]
    exact hm
  | write data => exact write_inHand h data
  | commit => exact commit_inHand h
  | abort =>
    simp only [Call.run, abortCandidate, candidateReset, modifyCandidate, wp_bind, wp_modifyRam,
      wp_pure]
    have hsame : ∀ m' : Machine Ram, recorded .abort .ok m m' ts = ts := by
      intro m'
      rcases ts with - | ⟨t, us⟩
      · rfl
      · rfl
    rw [hsame]
    exact h.drop

/-- A boot begins no transaction. -/
theorem inHand_boot {f : Mem} (h : Backed f (bootRecord f).1) (log : List (Entry Ram))
    (tape : ℕ → Option Outcome) : InHand ⟨f, boot f, log, tape⟩ [] :=
  ⟨.none rfl h, .unused ⟨rfl, rfl, Or.inl ⟨rfl, rfl⟩⟩ fun hact => by cases hact⟩

/-- **In every state** the transactions are in hand, by induction over the
history. -/
theorem inHand_of_updated (h : Updated m ts) : InHand m ts := by
  induction h with
  | @erased flash tape ha hb =>
    have hnone : ∀ slot, flash.Blank slot pageSize → ∀ r, ¬ Holds flash slot r := by
      intro slot hblank
      refine not_holds_of_unmarked (Mem.half_eq_ffff.mpr (hblank.sub (by omega) ?_))
      unfold offsetMarker pageSize
      omega
    have hapart : OneApart flash := fun a _ hholds => absurd hholds (hnone slotA ha a)
    exact inHand_boot hapart.boot _ _
  | @call m m' ts r c tape _ hrun ih =>
    have h' : InHand { m with tape := tape } ts := ⟨ih.last, ih.stage⟩
    exact wp_ok (call_inHand h' c) hrun
  | @cut m m' ts c tape _ hrun ih =>
    have h' : InHand { m with tape := tape } ts := ⟨ih.last, ih.stage⟩
    exact inHand_boot (wp_cut (call_inHand h' c) hrun).backed _ _
  | reset _ ih => exact inHand_boot ih.last.restores.backed _ _
  | arm _ _ ih => exact ⟨ih.last, ih.stage⟩

/-! ## Resets -/

/-- What a reset finds, between two calls and inside one. -/
structure Atomic (m : Machine Ram) (ts : List Transaction) : Prop where
  reset : Selected ts m.ram.activeRecord m.flash (boot m.flash).activeRecord
  cut : ∀ (c : Call) (tape : ℕ → Option Outcome) (m' : Machine Ram),
    c.run { m with tape := tape } = .error () m' →
    Selected (begun c m ts) m.ram.activeRecord m'.flash (boot m'.flash).activeRecord

/-- **Wherever a reset strikes,** the boot selects the record that was active
when the last transaction was begun, or that transaction's candidate, whole
and marked, or one that was stranded before it over the same record. -/
theorem update_atomic (h : Updated m ts) : Atomic m ts where
  reset := (inHand_of_updated h).last.restores.selected
  cut c tape m' hrun := by
    have hm := inHand_of_updated h
    have h' : InHand { m with tape := tape } ts := ⟨hm.last, hm.stage⟩
    exact (wp_cut (call_inHand h' c) hrun).selected

end Calls

/-! ## A stranded candidate -/

theorem updated_erasedDevice : Updated erasedDevice [] :=
  .erased goodTape (fun _ _ => rfl) fun _ _ => rfl

/-- The history goes on through a call that answers. -/
theorem Updated.done {m : Machine Ram} {ts : List Transaction} {r : Result}
    (h : Updated m ts) (c : Call) (hanswer : (c.done m).1 = some r) :
    Updated (c.done m).2 (recorded c r m (c.done m).2 ts) :=
  .call c goodTape h (run_of_outcome hanswer)

/-- From the third on, every operation takes effect and reports a failure. -/
def lyingTape : ℕ → Option Outcome := fun i =>
  some (if i < 2 then Outcome.good else ⟨true, false⟩)

/-- A first layout, committed, and a second one, begun and given its bytes. -/
def secondWritten : Machine Ram :=
  ((Call.write [1, 2, 10, 120, 22, 0, 0, 0]).done
    ((Call.begin 0x235C4EF5).done firstCommitted).2).2

/-- The marker of the second stored, and a storage error answered. -/
def secondMarked : Machine Ram :=
  (outcome Call.commit.run { secondWritten with tape := lyingTape }).2

/-- The second is given up. -/
def secondAborted : Machine Ram := (Call.abort.done secondMarked).2

/-- The first layout once more, which is only compared with the flash. -/
def thirdBegun : Machine Ram := ((Call.begin 0x9DF4A1C8).done secondAborted).2

set_option maxRecDepth 20000 in
theorem updated_firstCommitted : ∃ ts, Updated firstCommitted ts := by
  have hbegun := updated_erasedDevice.done (.begin 0x9DF4A1C8)
    (show _ = some Result.ok by decide +kernel)
  have hwritten := hbegun.done (.write [1, 1, 10, 126, 22, 0, 0, 0])
    (show _ = some Result.ok by decide +kernel)
  exact ⟨_, hwritten.done .commit (show _ = some Result.ok by decide +kernel)⟩

set_option maxRecDepth 20000 in
theorem updated_secondAborted : ∃ ts, Updated secondAborted ts := by
  obtain ⟨ts, hfirst⟩ := updated_firstCommitted
  have hbegun := hfirst.done (.begin 0x235C4EF5)
    (show _ = some Result.ok by decide +kernel)
  have hwritten : Updated secondWritten _ := hbegun.done (.write [1, 2, 10, 120, 22, 0, 0, 0])
    (show _ = some Result.ok by decide +kernel)
  have hanswer : (outcome Call.commit.run { secondWritten with tape := lyingTape }).1 =
      some Result.storageError := by decide +kernel
  have hmarked : Updated secondMarked _ := .call .commit lyingTape hwritten
    (run_of_outcome hanswer)
  exact ⟨_, hmarked.done .abort (show _ = some Result.ok by decide +kernel)⟩

set_option maxRecDepth 20000 in
/-- **A stranded candidate.** The second commit answers a storage error although
its marker is stored, and the second layout is given up; the third transaction
is begun over the first record, which it only compares with, and a reset
strikes: the boot selects the second record, which is neither the one that was
active nor the third transaction's candidate. -/
theorem stranded_update : ∃ t earlier, Updated thirdBegun (t :: earlier) ∧
    t.base = some ⟨slotA, 1, 0x9DF4A1C8⟩ ∧
    thirdBegun.ram.activeRecord = some ⟨slotA, 1, 0x9DF4A1C8⟩ ∧
    (boot thirdBegun.flash).activeRecord = some ⟨slotB, 2, 0x235C4EF5⟩ ∧
    ∀ r, (boot thirdBegun.flash).activeRecord = some r → ¬ t.Stored thirdBegun.flash r := by
  obtain ⟨ts, haborted⟩ := updated_secondAborted
  have hbegun := haborted.done (.begin 0x9DF4A1C8)
    (show _ = some Result.ok by decide +kernel)
  have hlast : recorded (.begin 0x9DF4A1C8) .ok secondAborted thirdBegun ts =
      ⟨secondAborted.ram.activeRecord, secondAborted.flash, 0x9DF4A1C8, [], false⟩ :: ts := by
    have hidle : ¬ secondAborted.ram.candidate.active = true := by decide +kernel
    have hbegun : begun (.begin 0x9DF4A1C8) secondAborted ts =
        ⟨secondAborted.ram.activeRecord, secondAborted.flash, 0x9DF4A1C8, [], false⟩ :: ts :=
      by simp only [begun, hidle, Bool.false_eq_true, if_false]
    unfold recorded
    rw [hbegun]
    rfl
  refine ⟨_, ts, hlast ▸ hbegun, by decide +kernel, by decide +kernel, by decide +kernel, ?_⟩
  -- the third candidate has accepted no byte
  intro r _ hstored
  exact absurd hstored.length (by decide)

/-- The stranded candidate is among what a reset may find. -/
theorem update_atomic_stranded : ∃ ts, Atomic thirdBegun ts := by
  obtain ⟨ts, haborted⟩ := updated_secondAborted
  exact ⟨_, update_atomic (haborted.done (.begin 0x9DF4A1C8)
    (show _ = some Result.ok by decide +kernel))⟩

end DeusOs.Asset
