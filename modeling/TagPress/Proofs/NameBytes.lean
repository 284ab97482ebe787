import TagPress.NativeText
import TagPress.Proofs.CacheIdentity

/-!
# Bytes of names

A name of the operating system is known by its bytes: names with the same bytes are the same, the
bytes of a path are those of its names with slashes between them, and names without slashes can be
read off their path again. What is shown of a name is read from its bytes. Reading never fails, and
the bytes of a text give the text back.

## Key results

- `Text.readLossy_utf8`: a text is read back from its bytes
- `NativeText.shown_eq`: names are shown as their bytes are read
- `NativeText.bytes_inj`, `NativeText.bytes_joined`: names and paths as bytes
- `NativeText.eq_of_joined_eq`: the names on a path
-/

namespace TagPress

/-! ## Texts from bytes -/

namespace Text

/-- The first of two bytes holds five bits. -/
theorem beginChar_of_two {n : Nat} (hlow : 2 ≤ n) (hhigh : n < 32) :
    beginChar (UInt8.ofNat (n + 192)) = ([], some { value := n, missing := 0 }) := by
  have hall : ∀ n < 32, 2 ≤ n →
      beginChar (UInt8.ofNat (n + 192)) = ([], some { value := n, missing := 0 }) := by
    decide
  exact hall n hhigh hlow

/-- The first of three bytes holds four bits. After the least of them the next byte has to be large,
    and after the one of the halves of pairs it has to be small. -/
theorem beginChar_of_three {n : Nat} (hn : n < 16) :
    beginChar (UInt8.ofNat (n + 224)) =
      ([], some
        { value := n, missing := 1
          low := if n = 0 then 0xa0 else 0x80
          high := if n = 13 then 0x9f else 0xbf }) := by
  revert n
  decide

/-- The first of four bytes holds the highest bits, and the largest characters end early. -/
theorem beginChar_of_four {n : Nat} (hn : n < 5) :
    beginChar (UInt8.ofNat (n + 240)) =
      ([], some
        { value := n, missing := 2
          low := if n = 0 then 0x90 else 0x80
          high := if n = 4 then 0x8f else 0xbf }) := by
  revert n
  decide

/-- A byte behind the first one holds six bits. -/
theorem lowBits_next {n : Nat} (hn : n < 64) : (UInt8.ofNat (n + 128)).toNat % 64 = n := by
  rw [UInt8.toNat_ofNat_of_lt' (show _ < 256 by omega)]
  omega

section Next

variable {p : PartialChar} {n : Nat} (hn : n < 64) (hlow : p.low.toNat ≤ n + 128)
  (hhigh : n + 128 ≤ p.high.toNat) (bytes : List UInt8)

include hn hlow hhigh

/-- A byte behind the first one is within the bounds. -/
theorem inBounds_next : p.low ≤ UInt8.ofNat (n + 128) ∧ UInt8.ofNat (n + 128) ≤ p.high := by
  rw [UInt8.le_iff_toNat_le, UInt8.le_iff_toNat_le,
    UInt8.toNat_ofNat_of_lt' (show _ < 256 by omega)]
  exact ⟨hlow, hhigh⟩

/-- The last byte completes a character. -/
theorem readLossy_last (hmissing : p.missing = 0) :
    readLossy (some p) (UInt8.ofNat (n + 128) :: bytes) =
      Char.ofNat (p.value * 64 + n) :: readLossy none bytes := by
  rw [readLossy, if_pos (inBounds_next hn hlow hhigh), lowBits_next hn, hmissing]

/-- A byte that is not the last one adds six bits. -/
theorem readLossy_next {missing : Nat} (hmissing : p.missing = missing + 1) :
    readLossy (some p) (UInt8.ofNat (n + 128) :: bytes) =
      readLossy (some { value := p.value * 64 + n, missing }) bytes := by
  rw [readLossy, if_pos (inBounds_next hn hlow hhigh), lowBits_next hn, hmissing]

end Next

/-- A character is read back from its bytes, whatever follows. -/
theorem readLossy_utf8EncodeChar (c : Char) (rest : List UInt8) :
    readLossy none (String.utf8EncodeChar c ++ rest) = c :: readLossy none rest := by
  have hc : Char.ofNat c.val.toNat = c := Char.ofNat_toNat c
  have hvalid : c.val.toNat < 55296 ∨ 57343 < c.val.toNat ∧ c.val.toNat < 1114112 := c.valid
  unfold String.utf8EncodeChar
  simp only
  generalize c.val.toNat = v at *
  -- One to four bytes. The bounds of the second one hold since a character is no half of a pair.
  split
  · rename_i hone
    have hbyte : beginChar (UInt8.ofNat v) = ([c], none) := by
      have hsmall : UInt8.ofNat v < 0x80 := by
        rw [UInt8.lt_iff_toNat_lt, UInt8.toNat_ofNat_of_lt' (show _ < 256 by omega)]
        exact Nat.lt_succ_of_le hone
      rw [beginChar, if_pos hsmall, UInt8.toNat_ofNat_of_lt' (show _ < 256 by omega), hc]
    rw [List.cons_append, readLossy, hbyte]
    rfl
  split
  · rw [List.cons_append, readLossy, beginChar_of_two (by omega) (by omega), List.nil_append,
      List.cons_append, readLossy_last (by omega) (by simp) (by simp; omega) _ rfl]
    simp only
    rw [show v / 64 % 32 * 64 + v % 64 = v by omega, hc]
    rfl
  split
  · rw [List.cons_append, readLossy, beginChar_of_three (by omega), List.nil_append,
      List.cons_append, readLossy_next (by omega) (by simp only; split <;> simp; omega)
        (by simp only; split <;> simp <;> omega) _ rfl,
      List.cons_append, readLossy_last (by omega) (by simp) (by simp; omega) _ rfl]
    simp only
    rw [show (v / 4096 % 16 * 64 + v / 64 % 64) * 64 + v % 64 = v by omega, hc]
    rfl
  · rw [List.cons_append, readLossy, beginChar_of_four (by omega), List.nil_append,
      List.cons_append, readLossy_next (by omega) (by simp only; split <;> simp; omega)
        (by simp only; split <;> simp <;> omega) _ rfl,
      List.cons_append, readLossy_next (by omega) (by simp) (by simp; omega) _ rfl,
      List.cons_append, readLossy_last (by omega) (by simp) (by simp; omega) _ rfl]
    simp only
    rw [show ((v / 262144 % 8 * 64 + v / 4096 % 64) * 64 + v / 64 % 64) * 64 + v % 64 = v by omega,
      hc]
    rfl

/-- A text is read back from its bytes. -/
theorem readLossy_utf8 (cs : List Char) :
    readLossy none (cs.flatMap String.utf8EncodeChar) = cs := by
  induction cs with
  | nil => rfl
  | cons c cs ih => rw [List.flatMap_cons, readLossy_utf8EncodeChar, ih]

end Text

/-! ## Bytes of names -/

namespace NativeText

/-- Every name is shown as its bytes are read. -/
theorem shown_eq (name : NativeText) :
    name.shown = String.ofList (Text.readLossy none name.bytes) := by
  cases name with
  | text value => rw [shown, bytes, Text.readLossy_utf8, String.ofList_toList]
  | raw => rfl

/-- The bytes of a text are those that it is stored as. -/
theorem toByteArray_eq (value : String) :
    (⟨(bytes (.text value)).toArray⟩ : ByteArray) = value.toByteArray := by
  rw [bytes, ← Text.toUTF8_toList_eq_flatMap, Text.toUTF8_toList_eq]

/-- The bytes of a text are a text. -/
theorem fromUTF8?_bytes (value : String) :
    String.fromUTF8? ⟨(bytes (.text value)).toArray⟩ = some value := by
  rw [toByteArray_eq, String.fromUTF8?, dif_pos value.isValidUTF8]
  rfl

/-- Bytes become a name and stay what they are. -/
theorem bytes_ofBytes (b : List UInt8) : (ofBytes b).bytes = b := by
  unfold ofBytes
  -- Bytes that are a text are those of the text, and others are kept.
  split
  · rename_i value h
    unfold String.fromUTF8? at h
    split at h
    · rename_i hvalid
      have hvalue : value.toByteArray = ⟨b.toArray⟩ := by
        rw [← Option.some.inj h]
        rfl
      rw [← toByteArray_eq] at hvalue
      simpa using congrArg ByteArray.data hvalue
    · cases h
  · rfl

/-- The bytes of a longer name. -/
theorem bytes_append (a b : NativeText) : (a ++ b).bytes = a.bytes ++ b.bytes := by
  -- Two texts are joined as texts; anything else is joined as bytes.
  cases a with
  | text value =>
    cases b with
    | text other =>
      show bytes (.text (value ++ other)) = _
      rw [bytes, bytes, bytes, String.toList_append, List.flatMap_append]
    | raw => exact bytes_ofBytes _
  | raw => exact bytes_ofBytes _

/-- Names with the same bytes are the same: bytes that are no text are not those of one. -/
theorem bytes_inj {a b : NativeText} (h : a.bytes = b.bytes) : a = b := by
  -- Two texts have different bytes if they differ. A text and bytes that are none cannot agree.
  cases a with
  | text value =>
    cases b with
    | text other =>
      rw [bytes, bytes, ← Text.toUTF8_toList_eq_flatMap, ← Text.toUTF8_toList_eq_flatMap] at h
      rw [Text.toUTF8_toList_inj.mp h]
    | raw bytes' notText =>
      have hsome := fromUTF8?_bytes value
      rw [h, bytes, notText] at hsome
      cases hsome
  | raw bytes' notText =>
    cases b with
    | text value =>
      have hsome := fromUTF8?_bytes value
      rw [← h, bytes, notText] at hsome
      cases hsome
    | raw => cases h; rfl

/-- A name is as long as its bytes are many. -/
theorem size_eq (name : NativeText) : name.size = name.bytes.length := by
  cases name with
  | text value =>
    have hsize := congrArg ByteArray.size (toByteArray_eq value)
    rw [String.size_toByteArray] at hsize
    rw [size, ← hsize]
    rfl
  | raw => rfl

/-- The bytes of a path are those of its names, with a slash between them. -/
theorem bytes_joined (names : List NativeText) :
    (joined names).bytes = [47].intercalate (names.map (·.bytes)) := by
  have hslash : (text "/").bytes = [47] := by decide
  induction names with
  | nil => rfl
  | cons name names ih =>
    cases names with
    | nil => simp [joined]
    | cons next names =>
      have hne : (next :: names).map (·.bytes) ≠ [] := List.cons_ne_nil _ _
      rw [joined, bytes_append, bytes_append, hslash, ih, List.map_cons (a := name),
        List.intercalate_cons_of_ne_nil hne]
      nofun

/-- Names without slashes can be read off their path. -/
theorem eq_of_joined_eq {names others : List NativeText} (hne : names ≠ []) (hne' : others ≠ [])
    (hnames : ∀ name ∈ names, 47 ∉ name.bytes) (hothers : ∀ name ∈ others, 47 ∉ name.bytes)
    (heq : joined names = joined others) : names = others := by
  -- Splitting the bytes at slashes gives the names back.
  have hsplit : ∀ {way : List NativeText}, way ≠ [] → (∀ name ∈ way, 47 ∉ name.bytes) →
      (joined way).bytes.splitOn 47 = way.map (·.bytes) := by
    intro way hway hslash
    rw [bytes_joined]
    refine List.splitOn_intercalate 47 (fun segment hmem => ?_) (by simpa using hway)
    obtain ⟨name, hname, rfl⟩ := List.mem_map.mp hmem
    exact hslash name hname
  have hbytes : names.map (·.bytes) = others.map (·.bytes) := by
    rw [← hsplit hne hnames, ← hsplit hne' hothers, heq]
  exact (List.map_inj_right fun _ _ => bytes_inj).mp hbytes

/-- Whether the bytes of a name come before those of another. -/
def Before (a b : NativeText) : Prop :=
  a.bytes < b.bytes

/-- The size of a longer name. -/
theorem size_append (a b : NativeText) : (a ++ b).size = a.size + b.size := by
  rw [size_eq, size_eq, size_eq, bytes_append, List.length_append]

/-- A path over a name and more names has one byte more than the two, for the slash. -/
theorem size_joined_cons (name : NativeText) {names : List NativeText} (hne : names ≠ []) :
    (joined (name :: names)).size = name.size + 1 + (joined names).size := by
  obtain ⟨next, names, rfl⟩ := List.exists_cons_of_ne_nil hne
  rw [joined, size_append, size_append]
  · rfl
  · nofun

end NativeText

end TagPress
