import DeusOs.Bootloader.Digest
import DeusOs.Bootloader.Model.Hashing
import Mathlib.Algebra.GroupWithZero.Nat

/-!
# The bootloader — hash and header tag are the standard ones

`sha256_transform` writes every word of `sha_schedule` before it reads it,
so what a former call left there is of no consequence (`toList_fillSchedule`). With
that the digest of any updates is SHA-256 of their bytes, and the tag of a
header is its HMAC (`hashing_is_standard`).
-/

namespace DeusOs

namespace Bootloader

variable {s : Hashing} {w : Vector UInt32 64} {block : Vector UInt8 64}

/-! ## The schedule in place -/

/-- A word of the schedule is computed from the words below it. -/
theorem scheduleWord_congr {v : Array UInt32} {u : List UInt32} {t : ℕ} (ht : 16 ≤ t)
    (h : v.toList.take t = u.take t) : scheduleWord v t = Sha256.scheduleWord u t := by
  have hget : ∀ j, j < t → v.toList.getD j 0 = u.getD j 0 := fun j hj => by
    rw [List.getD_eq_getElem?_getD, List.getD_eq_getElem?_getD, ← List.getElem?_take_of_lt hj, h,
      List.getElem?_take_of_lt hj]
  rw [scheduleWord_eq]
  simp only [Sha256.scheduleWord]
  rw [hget _ (by omega), hget _ (by omega), hget _ (by omega), hget _ (by omega)]

/-- A word written behind what was written before. -/
theorem take_set! {v : Vector UInt32 64} {k : ℕ} (hk : k < 64) (x : UInt32) :
    (v.set! k x).toList.take (k + 1) = v.toList.take k ++ [x] := by
  have hset : (v.set! k x).toList = v.toList.set k x := by
    simp [Vector.set!, Vector.toList]
  rw [hset, List.take_add_one, List.take_set_of_le (Nat.le_refl _)]
  simp [hk]

/-- The words of the block, in place. -/
theorem take_blockWords (w : Vector UInt32 64) (block : Vector UInt8 64) {k : ℕ} (hk : k ≤ 64) :
    ((List.range k).foldl (fun w i => w.set! i (blockWord block i)) w).toList.take k =
      (List.range k).map (blockWord block) := by
  induction k with
  | zero => rfl
  | succ k ih =>
    rw [List.range_succ, List.foldl_append, List.foldl_cons, List.foldl_nil, take_set! (by omega),
      ih (by omega), List.map_append, List.map_cons, List.map_nil]

/-- The computed words, in place. -/
theorem take_scheduleWords {u : List UInt32} (hu : u.length = 16) (h : w.toList.take 16 = u) {k : ℕ}
    (hk : k ≤ 48) :
    ((List.range k).foldl
        (fun w k => w.set! (k + 16) (scheduleWord w.toArray (k + 16))) w).toList.take (k + 16) =
      (List.range k).foldl (fun w k => w ++ [Sha256.scheduleWord w (k + 16)]) u ∧
    ((List.range k).foldl (fun w k => w ++ [Sha256.scheduleWord w (k + 16)]) u).length = k + 16 := by
  induction k with
  | zero => exact ⟨h, hu⟩
  | succ k ih =>
    obtain ⟨hfront, hlen⟩ := ih (by omega)
    simp only [List.range_succ, List.foldl_append, List.foldl_cons, List.foldl_nil]
    generalize (List.range k).foldl
      (fun w k => w.set! (k + 16) (scheduleWord w.toArray (k + 16))) w = v at hfront ⊢
    generalize (List.range k).foldl (fun w k => w ++ [Sha256.scheduleWord w (k + 16)]) u = ws
      at hfront hlen ⊢
    have hword : scheduleWord v.toArray (k + 16) = Sha256.scheduleWord ws (k + 16) := by
      refine scheduleWord_congr (by omega) ?_
      rw [List.take_of_length_le (Nat.le_of_eq hlen), ← hfront]
      rfl
    constructor
    · rw [Nat.add_right_comm, take_set! (by omega), hfront, hword]
    · rw [List.length_append, hlen, List.length_singleton, Nat.add_right_comm]

/-- **What stood in `sha_schedule` is of no consequence:** every word is written
before it is read. -/
theorem toList_fillSchedule (w : Vector UInt32 64) (block : Vector UInt8 64) :
    (fillSchedule w block).toList = (shaSchedule block).toList := by
  have hwords : blockWord block = Sha256.blockWord block.toList :=
    funext fun i => blockWord_eq block i
  have hfront := take_blockWords w block (k := 16) (by omega)
  obtain ⟨hall, -⟩ := take_scheduleWords (by rw [List.length_map, List.length_range]) hfront
    (Nat.le_refl 48)
  rw [List.take_of_length_le (Nat.le_of_eq (Vector.length_toList ..))] at hall
  rw [shaSchedule_eq, Sha256.schedule, ← hwords, ← hall]
  rfl

/-! ## The context -/

theorem transform_ctx (s : Hashing) (block : Vector UInt8 64) :
    (s.transform block).ctx = { s.ctx with h := sha256Transform s.ctx.h block } := by
  have hget : ∀ i, (fillSchedule s.schedule block).getD i 0 = (shaSchedule block).getD i 0 := by
    intro i
    rw [getD_vector, getD_array, toList_fillSchedule]
  rw [sha256Transform_def]
  simp only [Hashing.transform, hget]

theorem byte_ctx (s : Hashing) (b : UInt8) : (s.byte b).ctx = sha256Byte s.ctx b := by
  unfold Hashing.byte sha256Byte
  split
  · simp only [transform_ctx]
    rfl
  · rfl

theorem update_ctx (s : Hashing) (data : List UInt8) :
    (s.update data).ctx = sha256Update s.ctx data := by
  induction data generalizing s with
  | nil => rfl
  | cons b data ih =>
    have hrest := ih (s.byte b)
    rw [byte_ctx] at hrest
    exact hrest

theorem updates_ctx (s : Hashing) (pieces : List (List UInt8)) :
    (pieces.foldl Hashing.update s).ctx = pieces.foldl sha256Update s.ctx := by
  induction pieces generalizing s with
  | nil => rfl
  | cons piece pieces ih => rw [List.foldl_cons, ih, update_ctx, List.foldl_cons]

theorem final_digest (s : Hashing) : s.final.2 = sha256Final s.ctx := by
  by_cases hlong : 56 < s.ctx.bufferLen.val + 1
  · rw [sha256Final_of_long hlong]
    simp only [Hashing.final, if_pos hlong, transform_ctx]
  · rw [sha256Final_of_short hlong]
    simp only [Hashing.final, if_neg hlong, transform_ctx]

/-! ## Updates and tag -/

/-- The pieces in turn are their bytes at once. -/
theorem foldl_sha256Update (c : Sha256Ctx) (pieces : List (List UInt8)) :
    pieces.foldl sha256Update c = sha256Update c pieces.flatten := by
  induction pieces generalizing c with
  | nil => rfl
  | cons piece pieces ih =>
    rw [List.foldl_cons, ih, List.flatten_cons]
    simp only [sha256Update, List.foldl_append]

theorem digest_of_updates (s : Hashing) {pieces : List (List UInt8)}
    (hlen : pieces.flatten.length < 536870912) :
    (pieces.foldl Hashing.update s.init).final.2 = Sha256.hash pieces.flatten := by
  have habs : Absorbed (sha256Update (sha256Init s.ctx) pieces.flatten) ([] ++ pieces.flatten) :=
    (absorbed_init s.ctx).update
  rw [final_digest, updates_ctx, foldl_sha256Update]
  exact habs.final hlen

/-- The key's block is the standard one for a key of 32 bytes. -/
theorem keyBlock_eq (key : Vector UInt8 32) (pad : UInt8) :
    keyBlock key pad = (Sha256.keyBlock key.toList).map (· ^^^ pad) := by
  have hlen := key.length_toList
  refine List.ext_getElem ?_ fun i h1 h2 => ?_
  · simp only [keyBlock, Sha256.keyBlock, List.length_map, List.length_range, List.length_append,
      List.length_replicate, hlen, Nat.reduceLT, if_false]
  simp only [keyBlock, List.length_map, List.length_range] at h1
  simp only [keyBlock, Sha256.keyBlock, hlen, List.getElem_map, List.getElem_range,
    Nat.reduceLT, if_false, List.getElem_append]
  by_cases hi : i < 32
  · rw [if_pos hi, dif_pos (by omega), UInt8.xor_comm, getD_vector,
      List.getD_eq_getElem _ _ (by omega)]
  · rw [if_neg hi, dif_neg (by omega), List.getElem_replicate, UInt8.zero_xor]

theorem length_keyBlock (key : Vector UInt8 32) (pad : UInt8) : (keyBlock key pad).length = 64 := by
  rw [keyBlock, List.length_map, List.length_range]

/-- **The hash and the tag are the standard ones.** Whatever stood in
`sha_schedule` and in the context, the digest of any updates is SHA-256 of
their bytes, up to `2 ^ 29` of them, and the tag of a header is its HMAC under the key. -/
theorem hashing_is_standard :
    (∀ (s : Hashing) (pieces : List (List UInt8)), pieces.flatten.length < 2 ^ 29 →
      (pieces.foldl Hashing.update s.init).final.2 = Sha256.hash pieces.flatten) ∧
    ∀ (s : Hashing) (key : Vector UInt8 32) (header : Vector UInt8 48),
      s.hmacHeader key header = hmacHeader key header.toList ∧
      s.hmacHeader key header =
        Sha256.hmac key.toList
          ([0x44, 0x45, 0x55, 0x53, 0x48, 0x44, 0x52, 0x31] ++ [0x00, 0x20, 0x00, 0x08] ++
            header.toList) := by
  refine ⟨fun s pieces hlen => digest_of_updates s hlen, fun s key header => ?_⟩
  have hinnerLen : [keyBlock key 0x36, hmacDomain, originLe, header.toList].flatten.length <
      2 ^ 29 := by
    simp [length_keyBlock, hmacDomain, originLe]
  have houterLen : ∀ inner : Vector UInt8 32,
      [keyBlock key 0x5C, inner.toList].flatten.length < 2 ^ 29 := fun inner => by
    simp [length_keyBlock]
  have hinner := fun s => digest_of_updates s hinnerLen
  have houter := fun s inner => digest_of_updates s (houterLen inner)
  simp only [List.foldl_cons, List.foldl_nil, List.flatten_cons, List.flatten_nil,
    List.append_nil] at hinner houter
  have hsteps : s.hmacHeader key header = Sha256.hash (keyBlock key 0x5C ++
      (Sha256.hash (keyBlock key 0x36 ++ (hmacDomain ++ (originLe ++ header.toList)))).toList) := by
    simp only [Hashing.hmacHeader, hinner, houter]
  have htake : header.toList.take 48 = header.toList := List.take_of_length_le (by simp)
  constructor
  · rw [hsteps, hmacHeader, htake, sha256Memory_eq (by simp [length_keyBlock]),
      sha256Memory_eq (by simp [length_keyBlock, hmacDomain, originLe])]
    simp only [List.append_assoc]
  · rw [hsteps, Sha256.hmac, ← keyBlock_eq, ← keyBlock_eq, List.append_assoc]
    rfl

end Bootloader

end DeusOs
