import DeusOs.Asset.Durable
import DeusOs.Asset.Accepted

/-!
# What a reset leaves of an update

A candidate is a transaction: begun over the active record, given its bytes,
committed. Flash operations may lie here: one that reports a failure may
have taken effect. A reset, wherever it strikes, then selects the record
that was active when the last transaction was begun, or that transaction's
candidate, whole; or the candidate of an earlier transaction over the same
record, whose commit answered a storage error although its marker had been
stored (`update_atomic`, `stranded_update`).
-/

namespace DeusOs.Asset

open Nor

/-! ## Transactions -/

/-- A transaction: the active record and the flash that it was begun over,
the CRC it was declared with, the bytes it has accepted, and whether a
commit of it answered a storage error. -/
structure Transaction where
  base : Option Record
  flash : Mem
  payloadCrc32 : UInt32
  bytes : List UInt8
  failed : Bool

/-- A begin that finds no active candidate begins a transaction. -/
def begun (c : Call) (m : Machine Ram) (ts : List Transaction) : List Transaction :=
  match c with
  | .begin crc =>
    if m.ram.candidate.active = true then ts
    else ⟨m.ram.activeRecord, m.flash, crc, [], false⟩ :: ts
  | _ => ts

/-- What an answer adds to a transaction: `n` bytes were accepted. -/
def Transaction.answered (t : Transaction) (c : Call) (r : Result) (n : ℕ) : Transaction :=
  match c with
  | .write data => { t with bytes := t.bytes ++ data.take n }
  | .commit => { t with failed := t.failed || decide (r = .storageError) }
  | _ => t

/-- The transactions after a call that answered, the last one first. -/
def recorded (c : Call) (r : Result) (m m' : Machine Ram) (ts : List Transaction) :
    List Transaction :=
  (begun c m ts).modifyHead fun t =>
    t.answered c r (m'.ram.candidate.acceptedBytes - m.ram.candidate.acceptedBytes)

/-- The states of a device that began with erased slots, and the
transactions begun since its boot. A flash operation takes effect or not,
and reports success or not. -/
inductive Updated : Machine Ram → List Transaction → Prop
  | erased {flash : Mem} (tape : ℕ → Option Outcome) : flash.Blank slotA pageSize →
      flash.Blank slotB pageSize → Updated ⟨flash, boot flash, [], tape⟩ []
  | call {m m' : Machine Ram} {ts : List Transaction} {r : Result} (c : Call)
      (tape : ℕ → Option Outcome) : Updated m ts → c.run { m with tape := tape } = .ok r m' →
      Updated m' (recorded c r m m' ts)
  | cut {m m' : Machine Ram} {ts : List Transaction} (c : Call) (tape : ℕ → Option Outcome) :
      Updated m ts → c.run { m with tape := tape } = .error () m' →
      Updated { m' with ram := boot m'.flash } []
  | reset {m : Machine Ram} {ts : List Transaction} : Updated m ts →
      Updated { m with ram := boot m.flash } []
  | arm {m : Machine Ram} {ts : List Transaction} (control : UInt32) : Updated m ts →
      Updated { m with ram := { m.ram with faultControl := control } } ts

/-- The record is the transaction's candidate, whole: the next one after the
record it was begun over, with the bytes it accepted, its marker stored. -/
structure Transaction.Stored (t : Transaction) (f : Mem) (r : Record) : Prop where
  slotAddress : r.slotAddress = otherSlot t.base
  generation : r.generation = nextGeneration t.base
  payloadCrc32 : r.payloadCrc32 = t.payloadCrc32
  length : t.bytes.length = configBytes
  payload : payload f r.slotAddress = t.bytes
  holds : Holds f r.slotAddress r
  marker : f.half (r.slotAddress + offsetMarker) = commitMarker
  crc : crc32 t.bytes = t.payloadCrc32
  layout : layoutValidate t.bytes = true

/-- The record that the transaction was begun over, its payload untouched. -/
structure Transaction.Before (t : Transaction) (f : Mem) (chosen : Option Record) : Prop where
  base : chosen = t.base
  payload : ∀ r, t.base = some r → payload f r.slotAddress = payload t.flash r.slotAddress

/-- The record is the candidate of a transaction over `active` that a commit
answered a storage error for. -/
def Stranded (ts : List Transaction) (active : Option Record) (f : Mem) (r : Record) : Prop :=
  ∃ t ∈ ts, t.base = active ∧ t.failed = true ∧ t.Stored f r

/-- What a boot may select after the transactions `ts`, where `active` was
the active record. -/
def Selected (ts : List Transaction) (active : Option Record) (f : Mem) (chosen : Option Record) :
    Prop :=
  match ts with
  | [] => chosen = active
  | t :: earlier => t.Before f chosen ∨
      ∃ r, chosen = some r ∧ (t.Stored f r ∨ Stranded earlier t.base f r)

/-! ## A record past the active one -/

section Based

variable {f f' : Mem} {active : Option Record} {newer newer' : Record → Prop} {ts : List Transaction}

/-- The active record is in its slot. The other slot holds the record before
it, or one after it that is `newer`, or none. -/
structure Based (f : Mem) (active : Option Record) (newer : Record → Prop) : Prop where
  backed : Backed (withoutOther active f) active
  other : ∀ r', Holds f (otherSlot active) r' →
    (∃ r, active = some r ∧ r.generation = r'.generation + 1) ∨
      r'.generation = nextGeneration active ∧ newer r'

theorem withoutOther_congr (h : OnlyIn (otherSlot active) f f') :
    withoutOther active f' = withoutOther active f := by
  funext x
  simp only [withoutOther, Op.apply]
  split
  next => rfl
  next hout => exact h x (by omega)

/-- Putting the other slot back changes only that slot. -/
theorem onlyIn_of_withoutOther (active : Option Record) (f : Mem) :
    OnlyIn (otherSlot active) (withoutOther active f) f :=
  fun x hx => (onlyIn_withoutOther active f x hx).symm

/-- What is done in the other slot concerns the other slot. -/
theorem Based.congr (h : Based f active newer) (honly : OnlyIn (otherSlot active) f f')
    (hother : ∀ r', Holds f' (otherSlot active) r' →
      (∃ r, active = some r ∧ r.generation = r'.generation + 1) ∨
        r'.generation = nextGeneration active ∧ newer' r') : Based f' active newer' := by
  refine ⟨?_, hother⟩
  rw [withoutOther_congr honly]
  exact h.backed

theorem Based.mono (h : Based f active newer)
    (hmono : ∀ r', Holds f (otherSlot active) r' → newer r' → newer' r') : Based f active newer' :=
  ⟨h.backed, fun r' hr' => (h.other r' hr').imp_right fun hnext =>
    ⟨hnext.1, hmono r' hr' hnext.2⟩⟩

/-- Without a marker in the other slot, nothing is newer. -/
theorem Based.unmarked (h : Based f active newer) (honly : OnlyIn (otherSlot active) f f')
    (hmark : f'.half (otherSlot active + offsetMarker) = 0xFFFF) : Based f' active newer' :=
  h.congr honly fun r' hr' => absurd hr' (not_holds_of_unmarked hmark r')

/-- After the last generation, nothing is newer. -/
theorem Based.worn (h : Based f active newer) (hworn : WornOut active) : Based f active newer' := by
  refine ⟨h.backed, fun r' hr' => (h.other r' hr').imp_right fun hnext => ?_⟩
  obtain ⟨r, rfl, hmax⟩ := hworn
  have hle := (validateRecord_ok hr').2.2.1
  have hgen := hnext.1
  simp only [nextGeneration] at hgen
  omega

/-- Where the active record is the newest, nothing is newer. -/
theorem Backed.based (h : Backed f active) : Based f active newer where
  backed := by
    refine h.unmarked (onlyIn_withoutOther active f) (Mem.half_eq_ffff.mpr ?_)
    exact (Op.blank_apply_erase f _ pageSize).sub (by unfold offsetMarker; omega)
      (by unfold offsetMarker pageSize; omega)
  other r' hr' := by
    obtain ⟨r, hr, hsame | hgen⟩ := h.older _ (otherSlot_cases active) r' hr'
    · subst hsame
      exact absurd hr'.slotAddress (h.slot_ne hr)
    · exact Or.inl ⟨r, hr, hgen⟩

/-- **The newest record is the active one, or the one that is newer.** The other
slot may also hold the record before the active one, which a boot does not
select. -/
theorem Based.newest (h : Based f active newer) :
    Backed f active ∨ ∃ r', Backed f (some r') ∧ Holds f (otherSlot active) r' ∧ newer r' := by
  by_cases hnew : ∃ r', Holds f (otherSlot active) r' ∧ r'.generation = nextGeneration active ∧ newer r'
  · obtain ⟨r', hholds, hgen, hn⟩ := hnew
    exact Or.inr ⟨r', h.backed.committed (onlyIn_of_withoutOther active f) hholds hgen, hholds, hn⟩
  · refine Or.inl ⟨h.backed.active_kept (onlyIn_of_withoutOther active f), fun slot hslot r' hr' => ?_⟩
    by_cases hother : slot = otherSlot active
    · subst hother
      rcases h.other r' hr' with ⟨r, hr, hgen⟩ | hnext
      · exact ⟨r, hr, Or.inr hgen⟩
      · exact absurd ⟨r', hr', hnext⟩ hnew
    · exact ⟨r', h.backed.holds_old (onlyIn_of_withoutOther active f) hslot hother hr', Or.inl rfl⟩

/-- What a boot selects is the newest record then. -/
theorem Based.boots (h : Based f active newer) : Backed f (bootRecord f).1 := by
  rcases h.newest with hb | ⟨r', hb, -⟩
  · exact hb.apart.boot
  · exact hb.apart.boot

/-- A boot selects the active record, or the one that is newer. -/
theorem Based.boot (h : Based f active newer) : (bootRecord f).1 = active ∨
    ∃ r', (bootRecord f).1 = some r' ∧ newer r' := by
  rcases h.newest with hb | ⟨r', hb, -, hn⟩
  · exact Or.inl (hb.apart.boot.unique hb)
  · exact Or.inr ⟨r', hb.apart.boot.unique hb, hn⟩

/-- The active record is in the slot that is left alone. -/
theorem Based.slot (h : Based f active newer) :
    ∀ r, active = some r → (r.slotAddress = slotA ∨ r.slotAddress = slotB) ∧ Holds f r.slotAddress r :=
  h.backed.active_kept (onlyIn_of_withoutOther active f)

/-- The active record's payload is left alone. -/
theorem Based.payload (h : Based f active newer) (honly : OnlyIn (otherSlot active) f f') :
    ∀ r, active = some r → Asset.payload f' r.slotAddress = Asset.payload f r.slotAddress := by
  intro r hr
  have hslot := (h.slot r hr).1
  have hne := otherSlot_ne hslot
  rw [← hr] at hne
  have hother := otherSlot_cases active
  refine Mem.bytes_congr fun i hi => honly _ ?_
  unfold configBytes at hi
  unfold slotA slotB pageSize offsetPayload at *
  omega

end Based

/-! ## The last transaction -/

section Last

variable {m m' : Machine Ram} {f f' : Mem} {active : Option Record} {t t' : Transaction}
  {ts : List Transaction}

/-- The transaction is open over the active record. -/
structure Opened (f : Mem) (active : Option Record) (t : Transaction) (ts : List Transaction) :
    Prop where
  based : Based f active (Stranded (t :: ts) active f)
  base : t.base = active
  payload : ∀ r, active = some r → payload f r.slotAddress = payload t.flash r.slotAddress

/-- What a reset finds. -/
structure Restores (ts : List Transaction) (active : Option Record) (f : Mem) : Prop where
  selected : Selected ts active f (bootRecord f).1
  backed : Backed f (bootRecord f).1

/-- A reset in an open transaction finds what it may. -/
theorem Opened.restores (h : Opened f active t ts) : Restores (t :: ts) active f := by
  refine ⟨?_, h.based.boots⟩
  rcases h.based.boot with hsame | ⟨r', hr', t', ht', hbase, hfailed, hstored⟩
  · refine Or.inl ⟨hsame.trans h.base.symm, fun r hr => h.payload r ?_⟩
    rw [← h.base]
    exact hr
  · refine Or.inr ⟨r', hr', ?_⟩
    rcases List.mem_cons.mp ht' with rfl | ht'
    · exact Or.inl hstored
    · exact Or.inr ⟨t', ht', hbase.trans h.base.symm, hfailed, hstored⟩

/-- The other slot is written to, and holds nothing: whatever the
transaction has accepted. -/
theorem Opened.unmarked (h : Opened f active t ts) (honly : OnlyIn (otherSlot active) f f')
    (hmark : f'.half (otherSlot active + offsetMarker) = 0xFFFF) (hbase : t'.base = t.base)
    (hflash : t'.flash = t.flash) : Opened f' active t' ts where
  based := h.based.unmarked honly hmark
  base := hbase.trans h.base
  payload r hr := by
    rw [h.based.payload honly r hr, hflash]
    exact h.payload r hr

/-- **The slot is started,** up to where it stopped. With the first operation
everything that was stranded there is erased. -/
theorem Opened.starts (h : Opened m.flash active t ts) {plan : List Op}
    (hstarts : Starts (otherSlot active) plan) (hbroke : Broke plan m m') :
    Opened m'.flash active t ts := by
  have honly := onlyIn_of_broke hstarts.keeps hbroke
  obtain ⟨j, hflash⟩ := hbroke.flash
  rcases Nat.eq_zero_or_pos j with rfl | hj
  · have hsame : m'.flash = m.flash := hflash
    rw [hsame]
    exact h
  · have hmark := hstarts.half_marker m.flash hj
    rw [← hflash] at hmark
    exact h.unmarked honly hmark rfl rfl

/-- The last transaction, with the active record. -/
inductive Last (f : Mem) (active : Option Record) (c : Candidate) : List Transaction → Prop
  /-- None since the boot. -/
  | none : c.active = false → Backed f active → Last f active c []
  /-- Over the active record. -/
  | opened {t : Transaction} {ts : List Transaction} : Opened f active t ts → Last f active c (t :: ts)
  /-- Committed: its candidate is the active record. -/
  | committed {t : Transaction} {ts : List Transaction} {r : Record} : c.active = false →
      Backed f active → active = some r → t.Stored f r → Last f active c (t :: ts)

/-- A reset between two calls finds what it may. -/
theorem Last.restores {c : Candidate} (h : Last f active c ts) : Restores ts active f := by
  cases h with
  | none _ hb => exact ⟨hb.apart.boot.unique hb, hb.apart.boot⟩
  | opened ho => exact ho.restores
  | committed _ hb hr hstored =>
    exact ⟨Or.inr ⟨_, (hb.apart.boot.unique hb).trans hr, Or.inl hstored⟩, hb.apart.boot⟩

/-- The active record is in its slot, whatever the last transaction came to. -/
theorem Last.based {c : Candidate} (h : Last f active c ts) :
    Based f active (Stranded ts active f) := by
  cases h with
  | none _ hb => exact hb.based
  | opened ho => exact ho.based
  | committed _ hb => exact hb.based

/-- While a candidate is active, its transaction is open. -/
theorem Last.of_active {c : Candidate} (h : Last f active c ts) (hact : c.active = true) :
    ∃ t us, ts = t :: us ∧ Opened f active t us := by
  cases h with
  | none hidle => exact absurd (hidle.symm.trans hact) (by simp)
  | opened ho => exact ⟨_, _, rfl, ho⟩
  | committed hidle => exact absurd (hidle.symm.trans hact) (by simp)

/-- A transaction that begins is open. -/
theorem Last.begins {c : Candidate} (h : Last f active c ts) (crc : UInt32) :
    Opened f active ⟨active, f, crc, [], false⟩ ts where
  based := by
    refine h.based.mono fun r' _ => ?_
    rintro ⟨t, ht, hstored⟩
    exact ⟨t, List.mem_cons_of_mem _ ht, hstored⟩
  base := rfl
  payload _ _ := rfl

/-- Giving a candidate up changes nothing of the last transaction. -/
theorem Last.drop {c c' : Candidate} (h : Last f active c ts) (hidle : c'.active = false) :
    Last f active c' ts := by
  cases h with
  | none _ hb => exact .none hidle hb
  | opened ho => exact .opened ho
  | committed _ hb hr hstored => exact .committed hidle hb hr hstored

end Last

end DeusOs.Asset
