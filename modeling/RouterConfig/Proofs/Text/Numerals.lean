import RouterConfig.Fault
import RouterConfig.Proofs.Text.Words

/-!
# Numerals as words

One numeral of a number is written, a word of digits without a zero in front, and such digits
are always written for the number that they name (`decimal_digitsValue`).  Others are read as
well, since zeros may stand in front and one plus sign in front of all (`IsNumeral`).  Reading is
exact: it gives a number for its numerals below the bound and nothing for any other text
(`readBelow?_eq_some_iff`), and that what was written is read back is one case of this.
-/

namespace RouterConfig

open Text

theorem isDigit_of_mem_numeral {n : UInt32} {c : Char} (h : c ∈ (numeral n).toList) :
    isDigit c = true := by
  rw [numeral, String.toList_ofList] at h
  exact isDigit_of_mem_decimal n.toNat c h

/-- What does not consist of digits is no numeral. -/
theorem numeral_ne {w : String} (h : w.toList.all isDigit = false) (n : UInt32) :
    numeral n ≠ w := by
  rintro rfl
  rw [List.all_eq_true.mpr fun c hc => isDigit_of_mem_numeral hc] at h
  cases h

/-- Digits make a word. -/
theorem isWord_of_digits {cs : List Char} (hne : cs ≠ []) (h : ∀ c ∈ cs, isDigit c = true) :
    IsWord (String.ofList cs) :=
  isWord_ofList hne fun c hc => isBlank_eq_false_of_isDigit (h c hc)

theorem isWord_decimal (n : Nat) : IsWord (String.ofList (decimal n)) :=
  isWord_of_digits (decimal_ne_nil n) (isDigit_of_mem_decimal n)

theorem isWord_numeral (n : UInt32) : IsWord (numeral n) :=
  isWord_decimal n.toNat

/-- A numeral starts with a digit. -/
theorem head?_numeral (n : UInt32) : ∃ c, (numeral n).toList.head? = some c ∧ isDigit c = true := by
  obtain ⟨c, cs, hc⟩ := List.exists_cons_of_ne_nil (isWord_iff.mp (isWord_numeral n)).1
  exact ⟨c, by rw [hc, List.head?_cons], isDigit_of_mem_numeral (hc ▸ List.mem_cons_self ..)⟩

theorem digitChar_digitValue {c : Char} (h : isDigit c = true) :
    digitChar (digitValue c) = c := by
  obtain ⟨hlow, -⟩ := isDigit_iff.mp h
  rw [digitChar, digitValue, Nat.add_sub_cancel' hlow, Char.ofNat_toNat]

/-- **Digits are the numeral of what they name**, when no zero stands in front. -/
theorem decimal_digitsValue {cs : List Char} (hdigits : ∀ c ∈ cs, isDigit c = true)
    (hne : cs ≠ []) (hzero : cs.length = 1 ∨ cs.head? ≠ some '0') :
    decimal (digitsValue cs) = cs := by
  induction cs using List.reverseRecOn with
  | nil => exact absurd rfl hne
  | append_singleton front d ih =>
    rw [List.forall_mem_append, List.forall_mem_singleton] at hdigits
    obtain ⟨hfront, hd⟩ := hdigits
    have hlast : digitValue d < 10 := by
      have hbounds := isDigit_iff.mp hd
      rw [digitValue]
      omega
    have hvalue : digitsValue (front ++ [d]) = 10 * digitsValue front + digitValue d := by
      simp [digitsValue]
    cases front with
    | nil =>
      have hone : digitsValue ([] ++ [d]) = digitValue d := by
        rw [hvalue]
        exact Nat.zero_add _
      rw [hone, decimal, if_pos hlast, digitChar_digitValue hd, List.nil_append]
    | cons c front =>
      have hhead : (c :: front).head? ≠ some '0' := by simpa using hzero
      have hnumeral := ih hfront (List.cons_ne_nil _ _) (Or.inr hhead)
      have hpositive : 0 < digitsValue (c :: front) := by
        refine Nat.pos_of_ne_zero fun hnone => hhead ?_
        rw [← hnumeral, hnone, decimal]
        rfl
      have htens : (10 * digitsValue (c :: front) + digitValue d) / 10 =
          digitsValue (c :: front) := by omega
      have hunits : (10 * digitsValue (c :: front) + digitValue d) % 10 = digitValue d := by omega
      rw [hvalue, decimal, if_neg (by omega), htens, hunits, hnumeral, digitChar_digitValue hd]

/-! ## All numerals of a number -/

/-- The digits of the number, with zeros in front of them or without. -/
def IsPadded (n : Nat) (cs : List Char) : Prop :=
  ∃ zeros, cs = List.replicate zeros '0' ++ decimal n

/-- A numeral of the number: its digits, with zeros in front of them or without, and with one
plus sign in front of all that or without. -/
def IsNumeral (n : Nat) (cs : List Char) : Prop :=
  IsPadded n cs ∨ ∃ digits, cs = '+' :: digits ∧ IsPadded n digits

theorem isPadded_decimal (n : Nat) : IsPadded n (decimal n) :=
  ⟨0, rfl⟩

theorem isNumeral_decimal (n : Nat) : IsNumeral n (decimal n) :=
  Or.inl (isPadded_decimal n)

theorem IsPadded.isDigit_of_mem {n : Nat} {cs : List Char} (h : IsPadded n cs) {c : Char}
    (hc : c ∈ cs) : isDigit c = true := by
  obtain ⟨zeros, rfl⟩ := h
  rcases List.mem_append.mp hc with hc | hc
  · rw [List.eq_of_mem_replicate hc]
    decide
  · exact isDigit_of_mem_decimal n c hc

/-- Zeros in front do not change the number that is named. -/
theorem IsPadded.digitsValue_eq {n : Nat} {cs : List Char} (h : IsPadded n cs) :
    digitsValue cs = n := by
  obtain ⟨zeros, rfl⟩ := h
  induction zeros with
  | zero => exact digitsValue_decimal n
  | succ zeros ih => exact ih

/-- A numeral has digits, and it may have a plus sign. -/
theorem IsNumeral.of_mem {n : Nat} {cs : List Char} (h : IsNumeral n cs) {c : Char} (hc : c ∈ cs) :
    c = '+' ∨ isDigit c = true := by
  rcases h with h | ⟨digits, rfl, h⟩
  · exact Or.inr (h.isDigit_of_mem hc)
  · rcases List.mem_cons.mp hc with hc | hc
    · exact Or.inl hc
    · exact Or.inr (h.isDigit_of_mem hc)

theorem IsNumeral.isBlank_eq_false_of_mem {n : Nat} {cs : List Char} (h : IsNumeral n cs) {c : Char}
    (hc : c ∈ cs) : isBlank c = false := by
  rcases h.of_mem hc with rfl | hdigit
  · decide
  · exact isBlank_eq_false_of_isDigit hdigit

/-- Digits are read when there is one and nothing else. -/
theorem readDigits?_eq_some_iff {cs : List Char} {n : Nat} :
    readDigits? cs = some n ↔ cs ≠ [] ∧ (∀ c ∈ cs, isDigit c = true) ∧ digitsValue cs = n := by
  simp [readDigits?, and_assoc]

/-- Digits are those of the number that they name, behind some zeros. -/
theorem isPadded_digitsValue {cs : List Char} (hne : cs ≠ [])
    (hdigits : ∀ c ∈ cs, isDigit c = true) : IsPadded (digitsValue cs) cs := by
  induction cs with
  | nil => exact absurd rfl hne
  | cons c cs ih =>
    by_cases hzero : c = '0' ∧ cs ≠ []
    · obtain ⟨rfl, hcs⟩ := hzero
      obtain ⟨zeros, hrest⟩ := ih hcs (List.forall_mem_cons.mp hdigits).2
      exact ⟨zeros + 1, congrArg ('0' :: ·) hrest⟩
    · -- a zero that is all there is does not stand in front, it is the digit of the number
      have hform : (c :: cs).length = 1 ∨ (c :: cs).head? ≠ some '0' := by
        rw [not_and_or, not_not] at hzero
        rcases hzero with hzero | rfl
        · exact Or.inr (by simpa using hzero)
        · exact Or.inl rfl
      exact ⟨0, (decimal_digitsValue hdigits hne hform).symm⟩

/-- **Digits are read as the one number whose digits they are**, whatever zeros stand in front. -/
theorem readDigits?_eq_some_iff_isPadded {cs : List Char} {n : Nat} :
    readDigits? cs = some n ↔ IsPadded n cs := by
  rw [readDigits?_eq_some_iff]
  constructor
  · rintro ⟨hne, hdigits, rfl⟩
    exact isPadded_digitsValue hne hdigits
  · intro h
    refine ⟨?_, fun c hc => h.isDigit_of_mem hc, h.digitsValue_eq⟩
    obtain ⟨zeros, rfl⟩ := h
    exact List.append_ne_nil_of_right_ne_nil _ (decimal_ne_nil n)

/-- **A number below the bound is read from its numerals**, and from nothing else. -/
theorem readBelow?_eq_some_iff {bound : Nat} {cs : List Char} {n : { n : Nat // n < bound }} :
    readBelow? bound cs = some n ↔ IsNumeral n.1 cs := by
  have hread : ∀ digits, ((readDigits? digits).bind fun n =>
      if h : n < bound then some ⟨n, h⟩ else none) = some n ↔ IsPadded n.1 digits := by
    intro digits
    obtain ⟨n, hn⟩ := n
    simp only [Option.bind_eq_some_iff, readDigits?_eq_some_iff_isPadded,
      Option.dite_none_right_eq_some, Option.some.injEq, Subtype.mk.injEq]
    constructor
    · rintro ⟨_, hdigits, -, rfl⟩
      exact hdigits
    · exact fun hdigits => ⟨n, hdigits, hn, rfl⟩
  by_cases hplus : ∃ digits, cs = '+' :: digits
  · obtain ⟨digits, rfl⟩ := hplus
    rw [readBelow?, hread]
    constructor
    · exact fun h => Or.inr ⟨digits, rfl, h⟩
    · rintro (h | ⟨_, heq, h⟩)
      · exact absurd (h.isDigit_of_mem (List.mem_cons_self ..)) (by decide)
      · rwa [(List.cons.inj heq).2]
  · rw [readBelow?, hread]
    · constructor
      · exact Or.inl
      · rintro (h | ⟨digits, heq, -⟩)
        · exact h
        · exact absurd ⟨digits, heq⟩ hplus
    · exact fun digits heq => hplus ⟨digits, heq⟩

theorem readNumber?_eq_some_iff {s : String} {n : UInt32} :
    readNumber? s = some n ↔ IsNumeral n.toNat s.toList := by
  rw [readNumber?, Option.map_eq_some_iff]
  constructor
  · rintro ⟨m, hread, rfl⟩
    rw [UInt32.toNat_ofNatLT]
    exact readBelow?_eq_some_iff.mp hread
  · exact fun h => ⟨⟨n.toNat, n.toNat_lt⟩, readBelow?_eq_some_iff.mpr h, rfl⟩

theorem readNumber_eq_ok_iff {what word : String} {n : UInt32} :
    readNumber what word = .ok n ↔ IsNumeral n.toNat word.toList := by
  rw [← readNumber?_eq_some_iff, readNumber]
  cases readNumber? word with
  | none => simp
  | some m => simp

/-! ## What was written is read back -/

/-- The digits of a number name it. -/
theorem readDigits?_decimal (n : Nat) : readDigits? (decimal n) = some n :=
  readDigits?_eq_some_iff_isPadded.mpr (isPadded_decimal n)

theorem readBelow?_decimal {bound n : Nat} (h : n < bound) :
    readBelow? bound (decimal n) = some ⟨n, h⟩ :=
  readBelow?_eq_some_iff.mpr (isNumeral_decimal n)

/-- The numeral that is written is one of the numerals. -/
theorem isNumeral_numeral (n : UInt32) : IsNumeral n.toNat (numeral n).toList := by
  rw [numeral, String.toList_ofList]
  exact isNumeral_decimal n.toNat

/-- **A number is read back from its numeral.** -/
theorem readNumber?_numeral (n : UInt32) : readNumber? (numeral n) = some n :=
  readNumber?_eq_some_iff.mpr (isNumeral_numeral n)

theorem readOctet?_decimal (n : UInt8) :
    Text.readOctet? (String.ofList (decimal n.toNat)) = some n := by
  rw [Text.readOctet?, String.toList_ofList, readBelow?_decimal n.toNat_lt]
  rfl

@[simp] theorem readNumber_numeral (what : String) (n : UInt32) :
    readNumber what (numeral n) = .ok n :=
  readNumber_eq_ok_iff.mpr (isNumeral_numeral n)

theorem isWord_onOff (value : Bool) : IsWord (onOff value) := by
  cases value <;> decide

end RouterConfig
