import Mathlib.Data.List.GetD
import Mathlib.Tactic.Common

/-!
# NOR flash: memory and its two operations

A NOR flash is a byte-addressed memory with two mutations: a page erase
sets a range to `0xFF`, and a halfword program stores two bytes. Both are
atomic here: an operation is applied whole or not at all. This file has
the memory, the operations and what a list of them leaves alone; nothing
in it knows who issues them.
-/

namespace Nor

/-- A byte-addressed memory. -/
abbrev Mem := ℕ → UInt8

/-- The little-endian halfword of two bytes. -/
def le16 (lo hi : UInt8) : ℕ := lo.toNat + 256 * hi.toNat

theorem le16_lt (lo hi : UInt8) : le16 lo hi < 65536 := by
  have := lo.toNat_lt; have := hi.toNat_lt; unfold le16; omega

/-- A halfword is erased exactly if both of its bytes are. -/
theorem le16_eq_ffff {lo hi : UInt8} : le16 lo hi = 0xFFFF ↔ lo = 0xFF ∧ hi = 0xFF := by
  have := lo.toNat_lt; have := hi.toNat_lt
  simp only [le16, ← UInt8.toNat_inj]
  constructor
  · intro h; constructor <;> simp <;> omega
  · rintro ⟨h1, h2⟩; simp at h1 h2; omega

@[simp] theorem ofNat_le16 (lo hi : UInt8) : UInt8.ofNat (le16 lo hi) = lo := by
  have := lo.toNat_lt
  rw [← UInt8.toNat_inj, UInt8.toNat_ofNat', le16]; omega

@[simp] theorem ofNat_le16_div (lo hi : UInt8) : UInt8.ofNat (le16 lo hi / 256) = hi := by
  have := lo.toNat_lt; have := hi.toNat_lt
  rw [← UInt8.toNat_inj, UInt8.toNat_ofNat', le16]; omega

namespace Mem

/-- The little-endian halfword read at `a`. -/
def half (f : Mem) (a : ℕ) : ℕ := le16 (f a) (f (a + 1))

/-- The `n` bytes read from `a`. -/
def bytes (f : Mem) (a n : ℕ) : List UInt8 := (List.range n).map fun i => f (a + i)

/-- The `n` bytes from `a` are erased. -/
def Blank (f : Mem) (a n : ℕ) : Prop := ∀ i < n, f (a + i) = 0xFF

instance (f : Mem) (a n : ℕ) : Decidable (f.Blank a n) :=
  inferInstanceAs (Decidable (∀ i < n, f (a + i) = 0xFF))

@[simp] theorem length_bytes (f : Mem) (a n : ℕ) : (f.bytes a n).length = n := by
  simp [bytes]

@[simp] theorem bytes_zero (f : Mem) (a : ℕ) : f.bytes a 0 = [] := rfl

/-- The `i`-th of the bytes at `a` is the byte at `a + i`. -/
theorem getElem_bytes (f : Mem) (a n i : ℕ) (h : i < (f.bytes a n).length) :
    (f.bytes a n)[i] = f (a + i) := by simp [bytes]

/-- The `i`-th of the bytes at `a` is the byte at `a + i`. -/
theorem getD_bytes {f : Mem} {a n i : ℕ} {d : UInt8} (h : i < n) :
    (f.bytes a n).getD i d = f (a + i) := by
  rw [List.getD_eq_getElem _ _ (by simpa using h), getElem_bytes]

/-- A range of bytes is its first part and what follows it. -/
theorem bytes_add (f : Mem) (a n k : ℕ) :
    f.bytes a (n + k) = f.bytes a n ++ f.bytes (a + n) k := by
  simp [bytes, List.range_add, Nat.add_assoc, Function.comp_def]

/-- Memories that read alike on a range have the same bytes there. -/
theorem bytes_congr {f g : Mem} {a n : ℕ} (h : ∀ i < n, f (a + i) = g (a + i)) :
    f.bytes a n = g.bytes a n :=
  List.map_congr_left fun i hi => h i (List.mem_range.1 hi)

/-- A halfword reads as erased exactly if it is blank. -/
theorem half_eq_ffff {f : Mem} {a : ℕ} : f.half a = 0xFFFF ↔ f.Blank a 2 := by
  rw [half, le16_eq_ffff]
  constructor
  · rintro ⟨h0, h1⟩ i hi
    obtain rfl | rfl : i = 0 ∨ i = 1 := by omega
    · exact h0
    · exact h1
  · intro h
    exact ⟨h 0 (by omega), h 1 (by omega)⟩

/-- A part of a blank range is blank. -/
theorem Blank.sub {f : Mem} {a b n k : ℕ} (h : f.Blank a n) (hab : a ≤ b) (hk : b + k ≤ a + n) :
    f.Blank b k := by
  intro i hi
  have := h (b + i - a) (by omega)
  rwa [show a + (b + i - a) = b + i by omega] at this

/-- Two blank ranges one behind the other are one. -/
theorem Blank.append {f : Mem} {a n k : ℕ} (h : f.Blank a n) (h' : f.Blank (a + n) k) :
    f.Blank a (n + k) := by
  intro i hi
  by_cases hin : i < n
  · exact h i hin
  · have := h' (i - n) (by omega)
    rwa [show a + n + (i - n) = a + i by omega] at this

end Mem

/-- The two flash mutations: a page erase and a halfword program. -/
inductive Op
  | erase (base size : ℕ)
  | program (addr value : ℕ)
  deriving DecidableEq, Repr

namespace Op

/-- What the operation does to the memory when it takes effect. -/
def apply : Op → Mem → Mem
  | erase b n, f => fun x => if b ≤ x ∧ x < b + n then 0xFF else f x
  | program a v, f => fun x =>
      if x = a then UInt8.ofNat v else if x = a + 1 then UInt8.ofNat (v / 256) else f x

/-- The address the operation is issued at. -/
def addr : Op → ℕ
  | erase b _ => b
  | program a _ => a

/-- The bytes the operation may change. -/
def Covers : Op → ℕ → Prop
  | erase b n, x => b ≤ x ∧ x < b + n
  | program a _, x => x = a ∨ x = a + 1

instance (o : Op) (x : ℕ) : Decidable (o.Covers x) := by
  cases o <;> unfold Covers <;> infer_instance

/-- **Frame.** An operation changes only the bytes it covers: an erase its page,
a program its halfword. -/
theorem apply_of_not_covers {o : Op} {x : ℕ} (h : ¬ o.Covers x) (f : Mem) : o.apply f x = f x := by
  cases o with
  | erase b n => exact if_neg h
  | program a v =>
    simp only [Covers, not_or] at h
    simp [apply, h.1, h.2]

@[simp] theorem half_apply_program (f : Mem) (a : ℕ) {v : ℕ} (hv : v < 65536) :
    ((program a v).apply f).half a = v := by
  simp only [Mem.half, apply, le16]
  simp only [UInt8.toNat_ofNat', if_true, Nat.succ_ne_self, if_false]
  omega

/-- An erase leaves its page blank. -/
theorem blank_apply_erase (f : Mem) (b n : ℕ) : ((erase b n).apply f).Blank b n :=
  fun i hi => if_pos ⟨by omega, by omega⟩

/-- Erasing what is already erased changes nothing. -/
theorem apply_erase_of_blank {f : Mem} {b n : ℕ} (h : f.Blank b n) : (erase b n).apply f = f := by
  funext x
  by_cases hx : b ≤ x ∧ x < b + n
  · have := h (x - b) (by omega)
    rw [show b + (x - b) = x by omega] at this
    simp only [apply, if_pos hx, this]
  · exact if_neg hx

end Op

/-- A list of operations, all of which take effect. -/
def applyAll (ops : List Op) (f : Mem) : Mem := ops.foldl (fun f o => o.apply f) f

@[simp] theorem applyAll_nil (f : Mem) : applyAll [] f = f := rfl

@[simp] theorem applyAll_cons (o : Op) (ops : List Op) (f : Mem) :
    applyAll (o :: ops) f = applyAll ops (o.apply f) := rfl

/-- Operations take effect one after the other. -/
theorem applyAll_append (ops ops' : List Op) (f : Mem) :
    applyAll (ops ++ ops') f = applyAll ops' (applyAll ops f) := List.foldl_append

/-- **Frame, for a list.** A byte no operation covers keeps its value, by the
frame of each. -/
theorem applyAll_of_not_covers {ops : List Op} {x : ℕ} (h : ∀ o ∈ ops, ¬ o.Covers x) (f : Mem) :
    applyAll ops f x = f x := by
  induction ops generalizing f with
  | nil => rfl
  | cons o ops ih =>
    rw [applyAll_cons, ih fun o' ho' => h o' (List.mem_cons_of_mem _ ho'),
      Op.apply_of_not_covers (h o List.mem_cons_self)]

/-- What a byte becomes is a matter of what it was. -/
theorem byte_applyAll_congr (ops : List Op) {f g : Mem} {x : ℕ} (h : f x = g x) :
    applyAll ops f x = applyAll ops g x := by
  induction ops generalizing f g with
  | nil => exact h
  | cons o ops ih =>
    refine ih ?_
    cases o with
    | erase base size => simp only [Op.apply, h]
    | program a v => simp only [Op.apply, h]

/-- The operations that store one halfword: none for the erased value. -/
def halfOps (a v : ℕ) : List Op := if v = 0xFFFF then [] else [.program a v]

/-- An erased halfword is not programmed; every other one is, once. -/
theorem mem_halfOps {a v : ℕ} {o : Op} : o ∈ halfOps a v ↔ o = .program a v ∧ v ≠ 0xFFFF := by
  unfold halfOps
  split <;> simp_all

/-- The program operations that store `bs` from `a`: one for each pair of
bytes, none where the pair is the erased value. An odd last byte is not
stored. -/
def programOps (a : ℕ) : List UInt8 → List Op
  | lo :: hi :: bs => halfOps a (le16 lo hi) ++ programOps (a + 2) bs
  | _ => []

/-- Every planned program is halfword-aligned with the first, inside the
range, and stores a halfword that is not the erased one. -/
theorem mem_programOps {a : ℕ} {bs : List UInt8} {o : Op} (h : o ∈ programOps a bs) :
    ∃ x v, o = .program x v ∧ a ≤ x ∧ x + 2 ≤ a + bs.length ∧ (x - a) % 2 = 0 ∧
      v < 65536 ∧ v ≠ 0xFFFF := by
  induction a, bs using programOps.induct with
  | case1 a lo hi bs ih =>
    rw [programOps, List.mem_append] at h
    simp only [List.length_cons]
    rcases h with h | h
    · obtain ⟨rfl, hv⟩ := mem_halfOps.1 h
      exact ⟨a, le16 lo hi, rfl, by omega, by omega, by omega, le16_lt lo hi, hv⟩
    · obtain ⟨x, v, rfl, h1, h2, h3, h4, h5⟩ := ih h
      exact ⟨x, v, rfl, by omega, by omega, by omega, h4, h5⟩
  | case2 bs a hbs => rw [programOps] at h <;> simp_all

/-- Programming bytes touches only the range where they are to stand. -/
theorem covers_programOps {a : ℕ} {bs : List UInt8} {o : Op} {x : ℕ}
    (h : o ∈ programOps a bs) (hx : o.Covers x) : a ≤ x ∧ x < a + bs.length := by
  obtain ⟨y, v, rfl, h1, h2, -⟩ := mem_programOps h
  simp only [Op.Covers] at hx
  omega

/-- Outside the stored range the memory keeps its bytes. -/
theorem applyAll_programOps_of_outside {a x : ℕ} {bs : List UInt8} (h : x < a ∨ a + bs.length ≤ x)
    (f : Mem) : applyAll (programOps a bs) f x = f x :=
  applyAll_of_not_covers (fun o ho hx => by have := covers_programOps ho hx; omega) f

/-- Storing a halfword leaves what follows it erased. -/
theorem blank_applyAll_halfOps {a v n : ℕ} {f : Mem} (h : f.Blank a (n + 2)) :
    (applyAll (halfOps a v) f).Blank (a + 2) n := by
  intro i hi
  rw [applyAll_of_not_covers]
  · have := h (2 + i) (by omega)
    rwa [show a + (2 + i) = a + 2 + i by omega] at this
  · intro o ho hx
    obtain ⟨rfl, -⟩ := mem_halfOps.1 ho
    simp only [Op.Covers] at hx
    omega

/-- **Programming erased bytes stores them**, the pairs that are skipped
included: they already read as the erased value. -/
theorem bytes_applyAll_programOps {a : ℕ} {bs : List UInt8} {f : Mem} (heven : bs.length % 2 = 0)
    (hblank : f.Blank a bs.length) :
    (applyAll (programOps a bs) f).bytes a bs.length = bs := by
  induction a, bs using programOps.induct generalizing f with
  | case2 bs a hbs =>
    rcases bs with - | ⟨b, - | ⟨hi, bs⟩⟩
    · rfl
    · simp at heven
    · exact absurd rfl (hbs b hi bs)
  | case1 a lo hi bs ih =>
    simp only [List.length_cons] at heven hblank
    set f₁ := applyAll (halfOps a (le16 lo hi)) f with hf₁
    have hlo : f₁ a = lo ∧ f₁ (a + 1) = hi := by
      by_cases hff : le16 lo hi = 0xFFFF
      · rw [hf₁, halfOps, if_pos hff]
        obtain ⟨rfl, rfl⟩ := le16_eq_ffff.1 hff
        exact ⟨hblank 0 (by omega), hblank 1 (by omega)⟩
      · rw [hf₁, halfOps, if_neg hff]
        simp [Op.apply]
    have hrest : f₁.Blank (a + 2) bs.length := blank_applyAll_halfOps hblank
    have hout : ∀ x, x < a + 2 → applyAll (programOps (a + 2) bs) f₁ x = f₁ x :=
      fun x hx => applyAll_programOps_of_outside (Or.inl hx) f₁
    rw [programOps, applyAll_append, ← hf₁, List.length_cons, List.length_cons,
      show bs.length + 1 + 1 = 2 + bs.length by omega, Mem.bytes_add, ih (by omega) hrest]
    have h0 := hout a (by omega)
    have h1 := hout (a + 1) (by omega)
    simp [Mem.bytes, List.range_succ, h0, h1, hlo.1, hlo.2]

end Nor
