import Mathlib.Algebra.Order.Group.Nat
import SchemaPlan.Proofs.Text.Blank
import SchemaPlan.Text.Escaped

/-!
# Escaped text read back

A text between quotes is given by its escaped form, and the form ends where its closing quote stands,
whatever follows it.

* `readChar?_escapeUnseen`: a character is read back from its escape.
* `escaped_append_inj`: two texts with one escaped form are equal.
-/

set_option autoImplicit false

namespace SchemaPlan.Text

/-! ## Hexadecimal numbers -/

/-- The value of a hexadecimal digit. -/
def hexDigitValue (c : Char) : Nat :=
  if c.isDigit then c.toNat - 48 else c.toNat - 87

/-- The value of hexadecimal digits. -/
def hexValue (digits : List Char) : Nat :=
  digits.foldl (fun value c => 16 * value + hexDigitValue c) 0

theorem hexDigitValue_digitChar : ∀ n < 16, hexDigitValue n.digitChar = n := by
  decide

theorem hexDigits_of_lt {n : Nat} (h : n < 16) : hexDigits n = [n.digitChar] :=
  Nat.toDigits_of_lt_base h

theorem hexDigits_of_le {n : Nat} (h : 16 ≤ n) :
    hexDigits n = hexDigits (n / 16) ++ [(n % 16).digitChar] := by
  have hlast : n % 16 < 16 := Nat.mod_lt n (by omega)
  have hjoin := Nat.toDigits_append_toDigits (b := 16) (n := n / 16) (by omega) (by omega) hlast
  rw [Nat.toDigits_of_lt_base hlast, Nat.div_add_mod] at hjoin
  exact hjoin.symm

theorem hexValue_hexDigits (n : Nat) : hexValue (hexDigits n) = n := by
  induction n using Nat.strong_induction_on with
  | h n ih =>
    rcases Nat.lt_or_ge n 16 with hsmall | hlarge
    · rw [hexDigits_of_lt hsmall, hexValue, List.foldl_cons, List.foldl_nil,
        hexDigitValue_digitChar n hsmall]
      omega
    · have hrest := ih (n / 16) (by omega)
      rw [hexValue] at hrest
      rw [hexDigits_of_le hlarge, hexValue, List.foldl_append, hrest, List.foldl_cons,
        List.foldl_nil, hexDigitValue_digitChar _ (Nat.mod_lt n (by omega)), Nat.div_add_mod]

theorem exists_digitChar_of_mem {n : Nat} {c : Char} (h : c ∈ hexDigits n) :
    ∃ d < 16, c = d.digitChar := by
  induction n using Nat.strong_induction_on with
  | h n ih =>
    rcases Nat.lt_or_ge n 16 with hsmall | hlarge
    · rw [hexDigits_of_lt hsmall] at h
      exact ⟨n, hsmall, List.mem_singleton.1 h⟩
    · rw [hexDigits_of_le hlarge, List.mem_append] at h
      rcases h with h | h
      · exact ih (n / 16) (by omega) h
      · exact ⟨n % 16, Nat.mod_lt n (by omega), List.mem_singleton.1 h⟩

/-- The bracket that ends the escape of a code point. -/
def escapeEnd : Char :=
  Char.ofNat 0x7D

theorem ne_escapeEnd_of_mem_hexDigits (n : Nat) : ∀ c ∈ hexDigits n, (c != escapeEnd) = true := by
  have hall : ∀ d < 16, (d.digitChar != escapeEnd) = true := by decide
  intro c hc
  obtain ⟨d, hd, rfl⟩ := exists_digitChar_of_mem hc
  exact hall d hd

/-! ## Characters -/

/-- The character at the start of escaped text and what stands behind it. -/
def readChar? : List Char → Option (Char × List Char)
  | '\\' :: 't' :: rest => some ('\t', rest)
  | '\\' :: 'r' :: rest => some ('\r', rest)
  | '\\' :: 'n' :: rest => some ('\n', rest)
  | '\\' :: '0' :: rest => some ('\x00', rest)
  | '\\' :: '"' :: rest => some ('"', rest)
  | '\\' :: '\\' :: rest => some ('\\', rest)
  | '\\' :: 'u' :: _ :: rest =>
    some (Char.ofNat (hexValue (rest.takeWhile (· != escapeEnd))),
      (rest.dropWhile (· != escapeEnd)).drop 1)
  | c :: rest => some (c, rest)
  | [] => none

/-- A character is read back from its escape. -/
theorem readChar?_escapeUnseen (c : Char) (rest : List Char) :
    readChar? (escapeUnseen c ++ rest) = some (c, rest) := by
  unfold escapeUnseen
  split
  iterate 6 rfl
  split
  · have hend : ∀ d ∈ (escapeEnd :: rest).head?, (d != escapeEnd) = false := by simp
    obtain ⟨htake, hdrop⟩ := span_append (ne_escapeEnd_of_mem_hexDigits c.toNat) hend
    have htext : codePointEscape c ++ rest =
        '\\' :: 'u' :: Char.ofNat 0x7B :: (hexDigits c.toNat ++ escapeEnd :: rest) := by
      simp [codePointEscape, escapeEnd]
    rw [htext]
    simp only [readChar?, htake, hdrop, hexValue_hexDigits, Char.ofNat_toNat, List.drop_one,
      List.tail_cons]
  · rw [List.singleton_append, readChar?.eq_def]
    split <;> simp_all

/-- The escape of a character is no closing quote. -/
theorem exists_escapeUnseen (c : Char) :
    ∃ first rest, escapeUnseen c = first :: rest ∧ first ≠ '"' := by
  unfold escapeUnseen
  split
  iterate 6 exact ⟨_, _, rfl, by decide⟩
  split
  · exact ⟨_, _, rfl, by decide⟩
  · exact ⟨_, _, rfl, fun hquote => absurd hquote ‹_›⟩

/-! ## Texts -/

theorem ne_append_of_quote (c : Char) (x y : List Char) : '"' :: x ≠ escapeUnseen c ++ y := by
  obtain ⟨first, rest, hescape, hfirst⟩ := exists_escapeUnseen c
  rw [hescape, List.cons_append]
  exact fun h => hfirst (List.cons.inj h).1.symm

theorem flatMap_escapeUnseen_inj {s t r q : List Char}
    (h : s.flatMap escapeUnseen ++ '"' :: r = t.flatMap escapeUnseen ++ '"' :: q) :
    s = t ∧ r = q := by
  induction s generalizing t with
  | nil =>
    cases t with
    | nil => exact ⟨rfl, (List.cons.inj h).2⟩
    | cons d t =>
      rw [List.flatMap_cons, List.append_assoc] at h
      exact absurd h (ne_append_of_quote d _ _)
  | cons c s ih =>
    cases t with
    | nil =>
      rw [List.flatMap_cons, List.append_assoc] at h
      exact absurd h.symm (ne_append_of_quote c _ _)
    | cons d t =>
      have hread := congrArg readChar? h
      simp only [List.flatMap_cons, List.append_assoc, readChar?_escapeUnseen, Option.some.injEq,
        Prod.mk.injEq] at hread
      obtain ⟨rfl, hrest⟩ := hread
      obtain ⟨rfl, hbehind⟩ := ih hrest
      exact ⟨rfl, hbehind⟩

/-- **The text is given by its escaped form**, which ends at its closing quote. -/
theorem escaped_append_inj {a b : String} {r q : List Char}
    (h : (escaped a).toList ++ r = (escaped b).toList ++ q) : a = b ∧ r = q := by
  have hinside : a.toList.flatMap escapeUnseen ++ '"' :: r =
      b.toList.flatMap escapeUnseen ++ '"' :: q := by
    simpa [escaped] using h
  obtain ⟨htext, hbehind⟩ := flatMap_escapeUnseen_inj hinside
  exact ⟨String.toList_inj.1 htext, hbehind⟩

end SchemaPlan.Text
