import DeusOs.Bootloader.Flash

/-!
# The bootloader — the flash plan of a stream of chunks

The operations a session has issued are a function of its accepted
chunks: `streamOps`. A page is erased by the chunk that starts it and by
no other, before anything is programmed in it (`streamOps_page`).
-/

namespace DeusOs

namespace Bootloader

open Nor (Mem Op applyAll programOps)

/-- Chunks that follow one another from `off`, each well formed and inside
an image of `imageLen` bytes. -/
def Chunks (imageLen : ℕ) : ℕ → List (List UInt8) → Prop
  | _, [] => True
  | off, c :: cs => ChunkFits off c ∧ off + c.length ≤ imageLen ∧ Chunks imageLen (off + c.length) cs

/-- The plan of chunks that follow one another from `off`. -/
def streamOps : ℕ → List (List UInt8) → List Op
  | _, [] => []
  | off, c :: cs => chunkOps off c ++ streamOps (off + c.length) cs

variable {imageLen off : ℕ} {cs : List (List UInt8)} {c data : List UInt8} {f : Mem}

/-- One chunk more fits behind the others, and inside of the image. -/
theorem chunks_append_singleton :
    Chunks imageLen off (cs ++ [c]) ↔ Chunks imageLen off cs ∧
      ChunkFits (off + cs.flatten.length) c ∧ off + cs.flatten.length + c.length ≤ imageLen := by
  induction cs generalizing off with
  | nil => simp [Chunks]
  | cons d cs ih =>
    simp only [List.cons_append, Chunks, ih, List.flatten_cons, List.length_append]
    rw [show off + d.length + cs.flatten.length = off + (d.length + cs.flatten.length) by omega]
    tauto

/-- One chunk more is programmed behind the others. -/
theorem streamOps_append_singleton :
    streamOps off (cs ++ [c]) = streamOps off cs ++ chunkOps (off + cs.flatten.length) c := by
  induction cs generalizing off with
  | nil => simp [streamOps]
  | cons d cs ih =>
    simp only [List.cons_append, streamOps, ih, List.flatten_cons, List.length_append,
      List.append_assoc, Nat.add_assoc]

/-- The chunks end inside the image. -/
theorem Chunks.length_le (h : Chunks imageLen off cs) (hoff : off ≤ imageLen) :
    off + cs.flatten.length ≤ imageLen := by
  induction cs generalizing off with
  | nil => simpa using hoff
  | cons d cs ih =>
    have := ih h.2.2 h.2.1
    simp only [List.flatten_cons, List.length_append]
    omega

/-- And have an even length. -/
theorem Chunks.even (h : Chunks imageLen off cs) : cs.flatten.length % 2 = 0 := by
  induction cs generalizing off with
  | nil => rfl
  | cons d cs ih =>
    have h1 := h.1.len_even
    have h2 := ih h.2.2
    simp only [List.flatten_cons, List.length_append]
    omega

/-- A chunk leaves the rest of its page erased, if it found it so. -/
theorem blank_applyAll_chunkOps (h : ChunkFits off data)
    (hf : off % 1024 ≠ 0 → f.Blank (appBase + off) (1024 - off % 1024)) :
    (applyAll (chunkOps off data) f).Blank (appBase + (off + data.length))
      (1024 - off % 1024 - data.length) := by
  have hpage := h.page
  have hstart : (applyAll (if off % 1024 = 0 then [.erase (appBase + off) 1024] else []) f).Blank
      (appBase + off) (1024 - off % 1024) := by
    split
    · exact (Op.blank_apply_erase f _ 1024).sub (Nat.le_refl _) (by omega)
    · rename_i hoff
      exact hf hoff
  intro i hi
  rw [chunkOps, Nor.applyAll_append, Nor.applyAll_programOps_of_outside (Or.inr (by omega))]
  exact hstart.sub (k := 1024 - off % 1024 - data.length) (by omega) (by omega) i hi

/-- Every operation of the stream is in the page range it spans: an erase
of a page the stream starts, or a program at or after `off`. -/
theorem mem_streamOps (h : Chunks imageLen off cs) {o : Op} (ho : o ∈ streamOps off cs) :
    appBase + off ≤ o.addr ∧ o.addr < appBase + (off + cs.flatten.length) := by
  induction cs generalizing off with
  | nil => simp [streamOps] at ho
  | cons d cs ih =>
    have hpos := h.1.len_pos
    simp only [List.flatten_cons, List.length_append]
    rcases List.mem_append.1 ho with ho | ho
    · rcases mem_chunkOps ho with ⟨rfl, -⟩ | ⟨x, v, rfl, h1, h2⟩ <;> simp only [Op.addr] <;> omega
    · have := ih h.2.2 ho
      omega

/-- From inside a page on, the stream first programs the rest of that page
and then moves to later ones. -/
theorem streamOps_within {page : ℕ} (h : Chunks imageLen off cs) (hlo : page * 1024 < off)
    (hhi : off ≤ page * 1024 + 1024) :
    ∃ mid post, streamOps off cs = mid ++ post ∧
      (∀ o ∈ mid, ∃ x v, o = .program x v ∧ appBase + page * 1024 ≤ x ∧
        x + 2 ≤ appBase + page * 1024 + 1024) ∧
      ∀ o ∈ post, appBase + page * 1024 + 1024 ≤ o.addr := by
  induction cs generalizing off with
  | nil => exact ⟨[], [], rfl, by simp, by simp⟩
  | cons d cs ih =>
    by_cases hend : off = page * 1024 + 1024
    · refine ⟨[], streamOps off (d :: cs), rfl, by simp, fun o ho => ?_⟩
      have := mem_streamOps h ho
      omega
    · have hfit := h.1.page
      obtain ⟨mid, post, heq, hmid, hpost⟩ := ih h.2.2 (by omega) (by omega)
      refine ⟨chunkOps off d ++ mid, post, by rw [streamOps, heq, List.append_assoc], ?_, hpost⟩
      intro o ho
      rcases List.mem_append.1 ho with ho | ho
      · rcases mem_chunkOps ho with ⟨-, hoff⟩ | ⟨x, v, rfl, h1, h2⟩
        · omega
        · exact ⟨x, v, rfl, by omega, by omega⟩
      · exact hmid o ho

/-- **Each page is erased once, just before it is programmed.** The plan
splits at the erase of any page it has started: before it are operations
of earlier pages only, after it the programs of this page, and then the
operations of later ones. -/
theorem streamOps_page {page : ℕ} (h : Chunks imageLen off cs) (hoff : off ≤ page * 1024)
    (hpage : page * 1024 < off + cs.flatten.length) :
    ∃ pre mid post,
      streamOps off cs = pre ++ .erase (appBase + page * 1024) 1024 :: (mid ++ post) ∧
      (∀ o ∈ pre, o.addr < appBase + page * 1024) ∧
      (∀ o ∈ mid, ∃ x v, o = .program x v ∧ appBase + page * 1024 ≤ x ∧
        x + 2 ≤ appBase + page * 1024 + 1024) ∧
      ∀ o ∈ post, appBase + page * 1024 + 1024 ≤ o.addr := by
  induction cs generalizing off with
  | nil => simp at hpage; omega
  | cons d cs ih =>
    simp only [List.flatten_cons, List.length_append] at hpage
    have hfit := h.1.page
    have hpos := h.1.len_pos
    by_cases hstart : off = page * 1024
    · -- this chunk starts the page
      subst hstart
      have hlen : d.length ≤ 1024 := by have := h.1.len_le; omega
      obtain ⟨mid, post, heq, hmid, hpost⟩ := streamOps_within h.2.2
        (Nat.lt_add_of_pos_right (n := page * 1024) (by omega)) (Nat.add_le_add_left hlen _)
      refine ⟨[], programOps (appBase + page * 1024) d ++ mid, post, ?_, by simp, ?_, hpost⟩
      · rw [streamOps, chunkOps, if_pos (by omega), heq]
        simp
      · intro o ho
        rcases List.mem_append.1 ho with ho | ho
        · obtain ⟨x, v, rfl, h1, h2, -⟩ := Nor.mem_programOps ho
          exact ⟨x, v, rfl, h1, by omega⟩
        · exact hmid o ho
    · -- it ends at or before the page: the page starts later
      obtain ⟨pre, mid, post, heq, hpre, hmid, hpost⟩ := ih h.2.2 (by omega) (by omega)
      refine ⟨chunkOps off d ++ pre, mid, post, by rw [streamOps, heq, List.append_assoc], ?_,
        hmid, hpost⟩
      intro o ho
      rcases List.mem_append.1 ho with ho | ho
      · rcases mem_chunkOps ho with ⟨rfl, -⟩ | ⟨x, v, rfl, h1, h2⟩ <;> simp only [Op.addr] <;> omega
      · exact hpre o ho

end Bootloader

end DeusOs
