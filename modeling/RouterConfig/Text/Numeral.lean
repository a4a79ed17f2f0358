import RouterConfig.Text.Blank

/-!
# Numerals

Numbers are written in decimal with no leading zero, and read a little more
freely: one plus sign may stand in front, and leading zeros are passed over.  A
numeral that names a number outside the range asked for is no numeral at all,
so reading never wraps around.
-/

namespace RouterConfig.Text

/-- The digit of a number below ten. -/
def digitChar (d : Nat) : Char :=
  Char.ofNat (48 + d)

/-- The number that a digit names. -/
def digitValue (c : Char) : Nat :=
  c.toNat - 48

/-- The decimal digits of a number, without a leading zero. -/
def decimal (n : Nat) : List Char :=
  if n < 10 then [digitChar n] else decimal (n / 10) ++ [digitChar (n % 10)]

/-- The number that a list of digits names, most significant digit first. -/
def digitsValue (cs : List Char) : Nat :=
  cs.foldl (fun n c => 10 * n + digitValue c) 0

/-- Reads at least one digit and nothing else. -/
def readDigits? (cs : List Char) : Option Nat :=
  if !cs.isEmpty && cs.all isDigit then some (digitsValue cs) else none

/-- Reads a number below `bound`: an optional plus sign, then digits. -/
def readBelow? (bound : Nat) (cs : List Char) : Option { n : Nat // n < bound } :=
  let digits := match cs with
    | '+' :: rest => rest
    | _ => cs
  (readDigits? digits).bind fun n => if h : n < bound then some ⟨n, h⟩ else none

/-! ## On strings -/

/-- The numeral of a number. -/
def numeral (n : UInt32) : String :=
  String.ofList (decimal n.toNat)

/-- Reads a number of 32 bits. -/
def readNumber? (s : String) : Option UInt32 :=
  (readBelow? UInt32.size s.toList).map fun n => UInt32.ofNatLT n.1 n.2

/-- Reads a number of 8 bits. -/
def readOctet? (s : String) : Option UInt8 :=
  (readBelow? UInt8.size s.toList).map fun n => UInt8.ofNatLT n.1 n.2

/-! ## Digits and their values -/

theorem digitValue_digitChar {d : Nat} (h : d < 10) : digitValue (digitChar d) = d := by
  revert d; decide

theorem isDigit_digitChar {d : Nat} (h : d < 10) : isDigit (digitChar d) = true := by
  revert d; decide

/-- A numeral holds digits only. -/
theorem isDigit_of_mem_decimal (n : Nat) : ∀ c ∈ decimal n, isDigit c = true := by
  induction n using Nat.strongRecOn with
  | ind n ih =>
    rw [decimal]
    split
    next h => simpa using isDigit_digitChar h
    next h =>
      simp only [List.mem_append, List.mem_singleton]
      rintro c (hc | rfl)
      · exact ih _ (by omega) c hc
      · exact isDigit_digitChar (by omega)

/-- A numeral is not empty. -/
theorem decimal_ne_nil (n : Nat) : decimal n ≠ [] := by
  rw [decimal]; split <;> simp

/-- A numeral names the number it was written from. -/
theorem digitsValue_decimal (n : Nat) : digitsValue (decimal n) = n := by
  induction n using Nat.strongRecOn with
  | ind n ih =>
    rw [decimal]
    split
    next h => simp [digitsValue, digitValue_digitChar h]
    next h =>
      have := ih (n / 10) (by omega)
      simp only [digitsValue, List.foldl_append, List.foldl_cons, List.foldl_nil] at this ⊢
      rw [this, digitValue_digitChar (by omega)]
      omega

end RouterConfig.Text
