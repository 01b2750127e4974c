import DeusOs.Management.Writing

/-!
# Management — what the host reads

Texts of printed characters are the same for the device and the host
(`utf8GetString_report`), lines of fields are read as these
(`parseLine_line`), and values in hexadecimal as the value
(`requireHex32_hex32`). So the host's parsers give, of what the commands
write, what the commands found.
-/

namespace DeusOs

namespace Management

open App (Index LifecycleState Runtime)
open Host (Dictionary HostErrorKind Text text formatHex splitLines utf8GetString)
open Host.KeyValueTokens (parseLine require requireHex32)

variable {bytes : List UInt8} {fields : Dictionary} {lines : List Text} {value : UInt32} {key : String}
  {kind : HostErrorKind}

/-! ## Characters -/

/-- A character that is printed: ASCII, and no blank. -/
def printed (c : UInt16) : Bool := 0x21 ≤ c && c ≤ 0x7E

/-- A text without blanks. -/
def Printed (s : Text) : Prop := s ≠ [] ∧ ∀ c ∈ s, printed c = true

instance (s : Text) : Decidable (Printed s) :=
  decidable_of_iff (s ≠ [] ∧ s.all printed = true) (and_congr_right' List.all_eq_true)

theorem isWhiteSpace_of_printed {c : UInt16} (h : printed c = true) : Host.isWhiteSpace c = false := by
  simp only [printed, Bool.and_eq_true, decide_eq_true_eq, UInt16.le_iff_toNat_le] at h
  simp only [Host.isWhiteSpace, Bool.or_eq_false_iff, Bool.and_eq_false_iff, decide_eq_false_iff_not,
    UInt16.le_iff_toNat_le, ← UInt16.toNat_inj]
  simp only [UInt16.reduceToNat] at h ⊢
  omega

/-- **ASCII is read as it was written.** -/
theorem utf8GetString_ascii (h : ∀ c ∈ toText bytes, c < 0x80) : utf8GetString bytes = toText bytes := by
  induction bytes with
  | nil => rfl
  | cons byte bytes ih =>
    have hbyte : byte.toNat < 0x80 := by
      have hc := h (UInt16.ofNat byte.toNat) List.mem_cons_self
      have hlt := byte.toNat_lt
      rw [UInt16.lt_iff_toNat_lt, UInt16.toNat_ofNat_of_lt' (Nat.lt_trans hlt (by decide))] at hc
      exact hc
    have hbegin : Host.utf8Begin byte = ([UInt16.ofNat byte.toNat], none) := if_pos hbyte
    rw [utf8GetString, Host.utf8Decode, hbegin]
    exact congrArg _ (ih fun c hc => h c (List.mem_cons_of_mem _ hc))

/-! ## Values -/

theorem printed_hexDigit : ∀ digit < 16, printed (Host.hexDigit digit) = true := by decide

/-- A number in hex is printed. -/
theorem printed_hex32 (value : UInt32) : Printed (hex32 value) := by
  refine ⟨List.append_ne_nil_of_left_ne_nil (by decide) _, fun c hc => ?_⟩
  rw [hex32, List.mem_append] at hc
  rcases hc with hc | hc
  · exact (by decide : Printed (text "0x")).2 c hc
  · rw [formatHex, List.mem_map] at hc
    obtain ⟨digit, hdigit, rfl⟩ := hc
    exact printed_hexDigit digit (Digits.lt_of_mem_write (by decide) 8 value.toNat digit hdigit)

/-- **Digits are parsed as their number.** -/
theorem tryParseHex_formatHex (value : UInt32) :
    Host.tryParseHex (formatHex 8 value.toNat) = some value := by
  have hvalue : ∀ digit < 16, Host.hexValue (Host.hexDigit digit) = some digit := by decide
  have hlt := Digits.lt_of_mem_write (by decide : 0 < 16) 8 value.toNat
  have hwhile : (formatHex 8 value.toNat).takeWhile (fun c => (Host.hexValue c).isSome) =
      formatHex 8 value.toNat := by
    rw [List.takeWhile_eq_self_iff]
    intro c hc
    obtain ⟨digit, hdigit, rfl⟩ := List.mem_map.1 hc
    rw [hvalue digit (hlt digit hdigit)]
    rfl
  have hdigits : (formatHex 8 value.toNat).filterMap Host.hexValue =
      Digits.write 16 8 value.toNat := by
    rw [formatHex, List.filterMap_map]
    conv_rhs => rw [← List.filterMap_some (l := Digits.write 16 8 value.toNat)]
    exact List.filterMap_congr fun digit hdigit => hvalue digit (hlt digit hdigit)
  have hread : Digits.read 16 (Digits.write 16 8 value.toNat) 0 = value.toNat := by
    rw [Digits.read_write, Nat.zero_mul, Nat.zero_add]
    exact Nat.mod_eq_of_lt value.toNat_lt
  have hlen : (formatHex 8 value.toNat).length = 8 := by
    rw [formatHex, List.length_map, Digits.length_write]
  have hne : formatHex 8 value.toNat ≠ [] := List.ne_nil_of_length_pos (by omega)
  rw [Host.tryParseHex, hwhile, hdigits, hread, List.drop_length, if_neg, UInt32.ofNat_toNat]
  rintro (h | ⟨c, hc, -⟩ | h)
  · exact hne h
  · exact List.not_mem_nil hc
  · exact absurd value.toNat_lt (Nat.not_lt.2 h)

theorem length_hex32 (value : UInt32) : (hex32 value).length = 10 := by
  rw [hex32, List.length_append, formatHex, List.length_map, Digits.length_write]
  rfl

/-- **A value is read as it was written.** -/
theorem requireHex32_hex32 (h : fields.lookup (text key) = some (hex32 value)) :
    requireHex32 fields key kind = .ok value := by
  have hrequire : require fields key kind = .ok (hex32 value) := by rw [require, h]
  have hlen := length_hex32 value
  have htake : (hex32 value).take 2 = text "0x" := rfl
  have hdrop : (hex32 value).drop 2 = formatHex 8 value.toNat := rfl
  rw [requireHex32, hrequire]
  dsimp only [bind, Except.bind]
  rw [if_neg (by rw [hlen, htake]; simp), hdrop, tryParseHex_formatHex]

/-- A field that is there is read. -/
theorem require_of_lookup {s : Text} (h : fields.lookup (text key) = some s) :
    require fields key kind = .ok s := by
  rw [require, h]

/-! ## Lines -/

/-- Fields that can be told apart on their line. -/
structure Telling (fields : Dictionary) : Prop where
  ne_nil : fields ≠ []
  keys : ∀ key ∈ fields.map Prod.fst, Printed key ∧ 0x3D ∉ key
  values : ∀ value ∈ fields.map Prod.snd, Printed value
  nodup : (fields.map Prod.fst).Nodup

/-- What is printed is one word. -/
theorem Printed.word {s : Text} (h : Printed s) : Fields.Word 0x20 Host.isWhiteSpace s where
  ne_nil := h.1
  sep hin := absurd (h.2 _ hin) (by decide)
  blank c hc := isWhiteSpace_of_printed (h.2 c hc)

theorem Telling.writable (h : Telling fields) :
    ∀ p ∈ fields, Fields.Writable 0x20 0x3D Host.isWhiteSpace p := by
  intro p hp
  have hkey := h.keys p.1 (List.mem_map_of_mem hp)
  have hvalue := h.values p.2 (List.mem_map_of_mem hp)
  exact Fields.writable_of hkey.1.word hvalue.word hkey.2 (by decide) (by decide)

/-- **A line of fields is read as these.** -/
theorem parseLine_line (h : Telling fields) (kind : HostErrorKind) :
    parseLine (line fields) kind = .ok fields := by
  rw [parseLine, line, Fields.readFields_writeLine h.writable h.nodup]

theorem mem_line (h : Telling fields) : ∀ c ∈ line fields, printed c = true ∨ c = 0x20 := by
  obtain ⟨hne, hkeys, hvalues, -⟩ := h
  induction fields with
  | nil => exact absurd rfl hne
  | cons p fields ih =>
    rw [List.map_cons, List.forall_mem_cons] at hkeys hvalues
    intro c hc
    cases fields with
    | nil =>
      rw [line_singleton, List.mem_append, List.mem_cons] at hc
      rcases hc with hc | rfl | hc
      · exact Or.inl (hkeys.1.1.2 c hc)
      · exact Or.inl (by decide)
      · exact Or.inl (hvalues.1.2 c hc)
    | cons q fields =>
      rw [line_cons, List.mem_append, List.mem_cons, List.mem_append, List.mem_cons] at hc
      rcases hc with hc | rfl | hc | rfl | hc
      · exact Or.inl (hkeys.1.1.2 c hc)
      · exact Or.inl (by decide)
      · exact Or.inl (hvalues.1.2 c hc)
      · exact Or.inr rfl
      · exact ih (List.cons_ne_nil q fields) hkeys.2 hvalues.2 c hc

/-- How long a line can be. -/
theorem length_line_le {most : ℕ} (h : ∀ value ∈ fields.map Prod.snd, value.length ≤ most) :
    (line fields).length ≤ ((fields.map Prod.fst).map List.length).sum + (most + 2) * fields.length := by
  induction fields with
  | nil => exact Nat.zero_le _
  | cons p fields ih =>
    rw [List.map_cons, List.forall_mem_cons] at h
    have hvalue := h.1
    have hrest := ih h.2
    rw [List.map_cons, List.map_cons, List.sum_cons, List.length_cons, Nat.mul_add]
    cases fields with
    | nil =>
      rw [line_singleton, List.length_append, List.length_cons]
      omega
    | cons q fields =>
      rw [line_cons, List.length_append, List.length_cons, List.length_append, List.length_cons]
      omega

theorem length_report (lines : List Text) :
    (report lines).length = ((lines.map List.length).map (· + 2)).sum := by
  rw [report, Fields.writeLines, List.length_flatMap, List.map_map]
  exact congrArg List.sum (List.map_congr_left fun line _ => List.length_append)

/-- A line that can be sent: it is not empty, and of ASCII without line
ends. -/
structure Sendable (s : Text) : Prop where
  ne_nil : s ≠ []
  chars : ∀ c ∈ s, printed c = true ∨ c = 0x20

/-- A line of fields can be sent. -/
theorem Telling.sendable (h : Telling fields) : Sendable (line fields) where
  ne_nil := by
    obtain ⟨hne, hkeys, -, -⟩ := h
    cases fields with
    | nil => exact absurd rfl hne
    | cons p fields =>
      have hp := (hkeys p.1 List.mem_cons_self).1.1
      cases fields with
      | nil => rw [line_singleton]; exact List.append_ne_nil_of_left_ne_nil hp _
      | cons q fields => rw [line_cons]; exact List.append_ne_nil_of_left_ne_nil hp _
  chars := mem_line h

/-- A line that begins with its name can be sent. -/
theorem Sendable.named (h : Telling fields) {name : String} (hname : Printed (text name)) :
    Sendable (named name fields) where
  ne_nil := List.append_ne_nil_of_left_ne_nil hname.1 _
  chars c hc := by
    rw [Management.named, List.mem_append, List.mem_cons] at hc
    rcases hc with hc | rfl | hc
    · exact Or.inl (hname.2 c hc)
    · exact Or.inr rfl
    · exact mem_line h c hc

/-- **The host cuts a report into its lines,** since no line is empty and none
holds the end of one. -/
theorem splitLines_report (h : ∀ line ∈ lines, Sendable line) : splitLines (report lines) = lines :=
  Fields.lines_writeLines (by decide) fun line hline =>
    ⟨(h line hline).ne_nil, fun hin => by
      rcases (h line hline).chars _ hin with hc | hc
      · exact absurd hc (by decide)
      · exact absurd hc (by decide)⟩

/-- **The host decodes a report** to the text that was written. -/
theorem utf8GetString_report (h : ∀ line ∈ lines, Sendable line)
    (hbytes : toText bytes = report lines) : utf8GetString bytes = report lines := by
  rw [← hbytes]
  refine utf8GetString_ascii ?_
  rw [hbytes]
  intro c hc
  rw [report, Fields.writeLines, List.mem_flatMap] at hc
  obtain ⟨line, hline, hin⟩ := hc
  rcases List.mem_append.1 hin with hin | hin
  · rcases (h line hline).chars c hin with hc | rfl
    · simp only [printed, Bool.and_eq_true, decide_eq_true_eq] at hc
      exact UInt16.lt_of_le_of_lt hc.2 (by decide)
    · decide
  · rcases List.mem_cons.1 hin with rfl | hin
    · decide
    · rcases List.mem_cons.1 hin with rfl | hin
      · decide
      · exact absurd hin List.not_mem_nil

end Management

end DeusOs
