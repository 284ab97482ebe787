/-!
# Numerals

Reading and writing of unsigned numbers. `readNat?` takes ASCII digits with an optional plus sign in
front and nothing else; leading zeros are allowed.
-/

namespace TagPress.Text

/-- The value of a digit in bases up to sixteen. -/
def digitValue? (c : Char) : Option Nat :=
  if c.isDigit then some (c.toNat - '0'.toNat)
  else if 'a' ≤ c ∧ c ≤ 'f' then some (c.toNat - 'a'.toNat + 10)
  else if 'A' ≤ c ∧ c ≤ 'F' then some (c.toNat - 'A'.toNat + 10)
  else none

/-- The value of a list of digits in the given base, after `acc`. -/
def readDigits? (base : Nat) (acc : Nat) : List Char → Option Nat
  | [] => some acc
  | c :: cs =>
    match digitValue? c with
    | some d => if d < base then readDigits? base (acc * base + d) cs else none
    | none => none

/-- The value of a decimal numeral: at least one digit, with an optional plus sign in front. -/
def readNat? : List Char → Option Nat
  | [] => none
  | ['+'] => none
  | '+' :: cs => readDigits? 10 0 cs
  | cs => readDigits? 10 0 cs

/-- A decimal numeral of at least `width` digits. -/
def padZero (width : Nat) (n : Nat) : String :=
  let digits := Nat.toDigits 10 n
  String.ofList (List.replicate (width - digits.length) '0' ++ digits)

/-- The decimal numeral of a number. -/
def showNat (n : Nat) : String :=
  String.ofList (Nat.toDigits 10 n)

/-- The decimal numeral of an integer, with a minus sign when it is negative. -/
def showInt : Int → String
  | .ofNat n => showNat n
  | .negSucc n => "-" ++ showNat (n + 1)

/-- The two lower-case hexadecimal digits of a byte. -/
def hexByte (b : UInt8) : List Char :=
  [Nat.digitChar (b.toNat / 16), Nat.digitChar (b.toNat % 16)]

/-! ## Reading numerals back -/

/-- Decimal digits are read as the number they stand for. -/
theorem readDigits?_eq {cs : List Char} (h : ∀ c ∈ cs, c.isDigit = true) (acc : Nat) :
    readDigits? 10 acc cs = some (Nat.ofDigitChars 10 cs acc) := by
  induction cs generalizing acc with
  | nil => rfl
  | cons c cs ih =>
    have hdigit : c.isDigit = true := h c List.mem_cons_self
    have hrange : 48 ≤ c.toNat ∧ c.toNat ≤ 57 := by
      simpa [Char.isDigit, Char.le_def, UInt32.le_iff_toNat_le] using hdigit
    have hsmall : c.toNat - '0'.toNat < 10 := by
      have hzero : '0'.toNat = 48 := rfl
      omega
    simp only [readDigits?, digitValue?, hdigit, if_true, hsmall]
    rw [ih fun d hd => h d (List.mem_cons_of_mem _ hd), Nat.ofDigitChars_cons, Nat.mul_comm]

/-- What is read as a decimal numeral has no letters for digits. -/
theorem isDigit_of_readDigits? {cs : List Char} {acc n : Nat} (h : readDigits? 10 acc cs = some n) :
    ∀ c ∈ cs, c.isDigit = true := by
  induction cs generalizing acc with
  | nil => simp
  | cons c cs ih =>
    unfold readDigits? at h
    split at h
    · rename_i d hd
      obtain ⟨hlt, hrest⟩ := Option.ite_none_right_eq_some.mp h
      refine List.forall_mem_cons.mpr ⟨?_, ih hrest⟩
      by_cases hdigit : c.isDigit = true
      · exact hdigit
      · -- A letter stands for ten or more.
        simp only [digitValue?, hdigit, Bool.false_eq_true, if_false] at hd
        split at hd
        · cases hd
          omega
        · split at hd
          · cases hd
            omega
          · cases hd
    · cases h

/-- The text is a decimal numeral of the number: one or more digits, with an optional plus sign in
    front. -/
def IsNumeral (text : String) (n : Nat) : Prop :=
  ∃ sign digits, text.toList = sign ++ digits ∧ (sign = [] ∨ sign = ['+']) ∧ digits ≠ [] ∧
    (∀ c ∈ digits, c.isDigit = true) ∧ Nat.ofDigitChars 10 digits 0 = n

/-- Numerals are read, and nothing else is. -/
theorem readNat?_eq_some_iff {text : String} {n : Nat} :
    readNat? text.toList = some n ↔ IsNumeral text n := by
  constructor
  · intro h
    have hnumeral : ∀ sign digits, text.toList = sign ++ digits → (sign = [] ∨ sign = ['+']) →
        digits ≠ [] → readDigits? 10 0 digits = some n → IsNumeral text n := by
      intro sign digits htext hsign hne hread
      have hdigits := isDigit_of_readDigits? hread
      rw [readDigits?_eq hdigits, Option.some.injEq] at hread
      exact ⟨sign, digits, htext, hsign, hne, hdigits, hread⟩
    unfold readNat? at h
    split at h
    · cases h
    · cases h
    · rename_i cs hne htext
      exact hnumeral ['+'] cs htext (.inr rfl) (fun hnil => hne (by rw [hnil])) h
    · rename_i cs hne _ _
      exact hnumeral [] text.toList rfl (.inl rfl) hne h
  · rintro ⟨sign, digits, htext, hsign, hne, hdigits, rfl⟩
    obtain ⟨c, cs, rfl⟩ := List.exists_cons_of_ne_nil hne
    have hc : c ≠ '+' := by
      rintro rfl
      exact absurd (hdigits '+' List.mem_cons_self) (by decide)
    rw [htext, ← readDigits?_eq hdigits]
    obtain rfl | rfl := hsign
    · -- A digit at the front is no sign.
      unfold readNat?
      split <;> simp_all
    · rfl

/-- The numeral of a number is read as that number. -/
theorem readNat?_showNat (n : Nat) : readNat? (showNat n).toList = some n := by
  refine readNat?_eq_some_iff.mpr ⟨[], Nat.toDigits 10 n, ?_, .inl rfl, Nat.toDigits_ne_nil, ?_, ?_⟩
  · rw [showNat, String.toList_ofList, List.nil_append]
  · exact fun c hc => Nat.isDigit_of_mem_toDigits (by decide) (by decide) hc
  · exact Nat.ofDigitChars_ten_toDigits

end TagPress.Text
