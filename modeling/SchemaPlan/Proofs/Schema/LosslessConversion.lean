import Mathlib.Logic.Relation
import SchemaPlan.Change.Operation

/-!
# Conversions that keep every value

`convertsLosslesslyTo` is a table of pairs of types.  `Widens` lists the same pairs as rules, each
from a type to a strictly wider one, so that composition and reversal are a case analysis of rules.

* `convertsLosslesslyTo_iff`: a conversion is lossless when it changes nothing or widens the type.
* `Widens.trans`, `Widens.asymm`: rules compose, and none leads back.
* `convertsLosslesslyTo_partialOrder`: lossless conversion is a partial order, so a chain of changes
  of a column's type that are not marked is not marked as one change, and a change that is not
  marked can be undone only by one that is.
-/

set_option autoImplicit false

namespace SchemaPlan.DataType

/-- A type whose values are kept as text. -/
def HasText : DataType → Prop
  | array _ | bytea => False
  | _ => True

/-- A type of whole numbers. -/
def IsWhole : DataType → Prop
  | smallInt | integer | bigInt => True
  | _ => False

/-- A type whose values are kept in a string of any length, but for such strings and texts. -/
def IsWord : DataType → Prop
  | varchar (some _) | char _ | enum _ | uuid => True
  | _ => False

/-- The second type holds every value of the first, and others. -/
inductive Widens : DataType → DataType → Prop where
  | toText {a : DataType} (htext : a.HasText) (hne : a ≠ text) : Widens a text
  | toVarchar {a : DataType} (hword : a.IsWord) : Widens a (varchar none)
  | toNumeric {a : DataType} (hwhole : a.IsWhole) (scale : Option Nat) :
    Widens a (numeric none scale)
  | toInteger : Widens smallInt integer
  | toBigInt {a : DataType} (hwhole : a.IsWhole) (hne : a ≠ bigInt) : Widens a bigInt
  | toDouble : Widens real doublePrecision
  | longer {m n : Nat} (hlt : m < n) : Widens (varchar (some m)) (varchar (some n))
  | padded {m n : Nat} (hle : m ≤ n) : Widens (char (some m)) (varchar (some n))
  | toTimestampTz : Widens timestamp timestampTz
  | toJsonb : Widens json jsonb

variable {a b c : DataType}

/-- What widens holds no arrays and no bytes. -/
theorem Widens.hasText (h : Widens a b) : a.HasText := by
  cases h with
  | toText htext => exact htext
  | toVarchar hword => cases a <;> trivial
  | toNumeric hwhole => cases a <;> trivial
  | toBigInt hwhole => cases a <;> trivial
  | _ => trivial

/-- Nothing is wider than text. -/
theorem Widens.source_ne_text (h : Widens a b) : a ≠ text := by
  rintro rfl
  cases h with
  | toText _ hne => exact hne rfl
  | toVarchar hword => exact hword
  | toNumeric hwhole => exact hwhole
  | toBigInt hwhole => exact hwhole

/-- Rules compose. -/
theorem Widens.trans (hab : Widens a b) (hbc : Widens b c) : Widens a c := by
  cases hbc with
  | toText => exact .toText hab.hasText hab.source_ne_text
  | toVarchar hword =>
    cases hab with
    | longer => exact .toVarchar trivial
    | padded => exact .toVarchar trivial
    | _ => exact hword.elim
  | toNumeric hwhole scale =>
    cases hab with
    | toInteger => exact .toNumeric (show IsWhole smallInt from trivial) scale
    | toBigInt ha => exact .toNumeric ha scale
    | _ => exact hwhole.elim
  | toBigInt hwhole hne =>
    cases hab with
    | toInteger => exact .toBigInt trivial (by simp)
    | toBigInt => exact absurd rfl hne
    | _ => exact hwhole.elim
  | longer hlt =>
    cases hab with
    | longer hlt' => exact .longer (by omega)
    | padded hle => exact .padded (by omega)
  | toInteger => cases hab
  | toDouble => cases hab
  | padded => cases hab
  | toTimestampTz => cases hab
  | toJsonb => cases hab

/-- No rule leads back. -/
theorem Widens.asymm (h : Widens a b) : ¬ Widens b a := by
  intro hback
  cases h with
  | toText _ hne => exact hback.source_ne_text rfl
  | toVarchar =>
    cases hback <;> contradiction
  | toNumeric hwhole => cases hback <;> contradiction
  | toInteger => cases hback
  | toBigInt hwhole hne => cases hback <;> contradiction
  | toDouble => cases hback
  | longer hlt =>
    cases hback with
    | longer hlt' => omega
  | padded => cases hback
  | toTimestampTz => cases hback
  | toJsonb => cases hback

/-- A conversion in the table widens the type. -/
theorem widens_of_convertsLosslesslyTo (h : a.convertsLosslesslyTo b = true) (hne : a ≠ b) :
    Widens a b := by
  unfold convertsLosslesslyTo at h
  rw [beq_eq_false_iff_ne.2 hne, Bool.false_or] at h
  split at h
  · cases h
  · cases h
  · rename_i harray hbytea
    refine .toText ?_ hne
    cases a with
    | array element => exact harray element rfl
    | bytea => exact hbytea rfl
    | _ => trivial
  · exact .toInteger
  · exact .toBigInt (show IsWhole smallInt from trivial) hne
  · exact .toBigInt (show IsWhole integer from trivial) hne
  · exact .toDouble
  · exact .toNumeric (show IsWhole smallInt from trivial) _
  · exact .toNumeric (show IsWhole integer from trivial) _
  · exact .toNumeric (show IsWhole bigInt from trivial) _
  · rename_i length
    cases length with
    | none => exact absurd rfl hne
    | some n => exact .toVarchar (show IsWord (varchar (some n)) from trivial)
  · rename_i length
    exact .toVarchar (show IsWord (char length) from trivial)
  · rename_i name
    exact .toVarchar (show IsWord (enum name) from trivial)
  · exact .toVarchar (show IsWord uuid from trivial)
  · rename_i m n
    have hle : m ≤ n := of_decide_eq_true h
    have hmn : m ≠ n := fun heq => hne (by rw [heq])
    exact .longer (by omega)
  · exact .padded (of_decide_eq_true h)
  · exact .toTimestampTz
  · exact .toJsonb
  · cases h

/-- **A conversion is lossless exactly when it changes nothing or widens the type.** -/
theorem convertsLosslesslyTo_iff : a.convertsLosslesslyTo b = true ↔ a = b ∨ Widens a b := by
  constructor
  · intro h
    by_cases heq : a = b
    · exact .inl heq
    · exact .inr (widens_of_convertsLosslesslyTo h heq)
  · rintro (rfl | h)
    · simp [convertsLosslesslyTo]
    · unfold convertsLosslesslyTo
      rw [Bool.or_eq_true]
      right
      cases h with
      | toText htext =>
        cases a with
        | array | bytea => exact htext.elim
        | _ => rfl
      | toVarchar hword =>
        cases a with
        | varchar length =>
          cases length with
          | none => exact hword.elim
          | some n => rfl
        | char | enum | uuid => rfl
        | _ => exact hword.elim
      | toNumeric hwhole =>
        cases a with
        | smallInt | integer | bigInt => rfl
        | _ => exact hwhole.elim
      | toBigInt hwhole hne =>
        cases a with
        | smallInt | integer => rfl
        | bigInt => exact absurd rfl hne
        | _ => exact hwhole.elim
      | longer hlt => exact decide_eq_true (Nat.le_of_lt hlt)
      | padded hle => exact decide_eq_true hle
      | _ => rfl

/-! ## The order -/

theorem convertsLosslesslyTo_trans (hab : a.convertsLosslesslyTo b = true)
    (hbc : b.convertsLosslesslyTo c = true) : a.convertsLosslesslyTo c = true := by
  rw [convertsLosslesslyTo_iff] at hab hbc ⊢
  rcases hab with rfl | hab
  · exact hbc
  · rcases hbc with rfl | hbc
    · exact .inr hab
    · exact .inr (hab.trans hbc)

theorem eq_of_convertsLosslesslyTo (hab : a.convertsLosslesslyTo b = true)
    (hba : b.convertsLosslesslyTo a = true) : a = b := by
  rw [convertsLosslesslyTo_iff] at hab hba
  rcases hab with rfl | hab
  · rfl
  · rcases hba with rfl | hba
    · rfl
    · exact absurd hba hab.asymm

/-- The change of a column's type is not marked as one that can lose data. -/
def IsUnmarked (column : String) (source target : DataType) : Prop :=
  (AlterChange.alterColumnType column source target).isDestructive = false

theorem isUnmarked_iff {column : String} :
    IsUnmarked column a b ↔ a.convertsLosslesslyTo b = true := by
  simp [IsUnmarked, AlterChange.isDestructive]

/-- **Lossless conversion is a partial order.**  So a chain of changes of a column's type none of
which is marked is not marked as one change, and a change to another type that is not marked is
undone only by one that is. -/
theorem convertsLosslesslyTo_partialOrder (a b c : DataType) (column : String) :
    a.convertsLosslesslyTo a = true ∧
      (a.convertsLosslesslyTo b = true → b.convertsLosslesslyTo c = true →
        a.convertsLosslesslyTo c = true) ∧
      (a.convertsLosslesslyTo b = true → b.convertsLosslesslyTo a = true → a = b) ∧
      (Relation.ReflTransGen (IsUnmarked column) a c → IsUnmarked column a c) ∧
      (IsUnmarked column a b → a ≠ b → ¬ IsUnmarked column b a) := by
  have hrefl : a.convertsLosslesslyTo a = true := convertsLosslesslyTo_iff.2 (.inl rfl)
  refine ⟨hrefl, convertsLosslesslyTo_trans, eq_of_convertsLosslesslyTo, ?_, ?_⟩
  · intro hchain
    induction hchain with
    | refl => exact isUnmarked_iff.2 hrefl
    | tail _ hstep ih =>
      exact isUnmarked_iff.2
        (convertsLosslesslyTo_trans (isUnmarked_iff.1 ih) (isUnmarked_iff.1 hstep))
  · intro hab hne hba
    exact hne (eq_of_convertsLosslesslyTo (isUnmarked_iff.1 hab) (isUnmarked_iff.1 hba))

/-- A code of three characters becomes a longer string, then one of any length. -/
theorem convertsLosslesslyTo_partialOrder_code :
    IsUnmarked "code" (char (some 3)) (varchar (some 10)) ∧
      IsUnmarked "code" (varchar (some 10)) (varchar none) ∧
      IsUnmarked "code" (char (some 3)) (varchar none) ∧
      ¬ IsUnmarked "code" (varchar none) (char (some 3)) := by
  have hlonger : IsUnmarked "code" (char (some 3)) (varchar (some 10)) := rfl
  have hfree : IsUnmarked "code" (varchar (some 10)) (varchar none) := rfl
  obtain ⟨-, -, -, hchain, hback⟩ :=
    convertsLosslesslyTo_partialOrder (char (some 3)) (varchar none) (varchar none) "code"
  have hwhole := hchain (.tail (.single hlonger) hfree)
  exact ⟨hlonger, hfree, hwhole, hback hwhole (by decide)⟩

end SchemaPlan.DataType
