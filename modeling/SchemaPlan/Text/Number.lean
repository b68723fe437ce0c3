/-!
# Numbers in text

`readNat?` accepts decimal digits with an optional plus sign, and nothing else; `readInt?` accepts a
minus sign as well, also before a zero.
-/

set_option autoImplicit false

namespace SchemaPlan.Text

/-- The value of a text of ASCII decimal digits; `none` for the empty text and any other. -/
def digitsValue? (s : List Char) : Option Nat :=
  if s.isEmpty || !s.all Char.isDigit then none
  else some (s.foldl (fun n c => n * 10 + (c.toNat - 48)) 0)

/-- The value of decimal digits with an optional plus sign. -/
def readNat? : List Char → Option Nat
  | '+' :: r => digitsValue? r
  | s => digitsValue? s

/-- The value of decimal digits with an optional sign. -/
def readInt? : List Char → Option Int
  | '-' :: r => (digitsValue? r).map fun n => -(n : Int)
  | s => (readNat? s).map fun n => (n : Int)

/-- A number written with at least `width` digits. -/
def padNat (width n : Nat) : String :=
  let digits := toString n
  String.ofList (List.replicate (width - digits.length) '0') ++ digits

theorem toList_toString (n : Nat) : (toString n).toList = Nat.toDigits 10 n := by
  rw [Nat.toString_eq_ofList_toDigits, String.toList_ofList]

theorem isDigit_of_mem_toString {n : Nat} {c : Char} (h : c ∈ (toString n).toList) :
    c.isDigit = true :=
  Nat.isDigit_of_mem_toDigits (by omega) (by omega) (toList_toString n ▸ h)

/-- A number is read back from its decimal digits. -/
theorem readNat?_toString (n : Nat) : readNat? (toString n).toList = some n := by
  have hall : (toString n).toList.all Char.isDigit = true :=
    List.all_eq_true.2 fun _ hc => isDigit_of_mem_toString hc
  have hne : (toString n).toList.isEmpty = false := by
    rw [toList_toString]
    exact List.isEmpty_eq_false_iff.2 Nat.toDigits_ne_nil
  have hvalue : digitsValue? (toString n).toList = some n := by
    have hdigits := Nat.ofDigitChars_ten_toDigits (n := n)
    rw [Nat.ofDigitChars_eq_foldl, ← toList_toString] at hdigits
    rw [digitsValue?, hall, hne]
    simpa [Nat.mul_comm] using hdigits
  unfold readNat?
  split
  · rename_i r hplus
    -- no decimal digit is a plus sign
    cases isDigit_of_mem_toString (hplus ▸ List.mem_cons_self : '+' ∈ (toString n).toList)
  · exact hvalue

end SchemaPlan.Text
