import SchemaPlan.Dialect.Spelling
import SchemaPlan.Proofs.Schema.TypeSpelling

/-!
# Types in their emitted spelling

Statements name types in the spelling of Postgres, which a database reports back.  Enums stand in
quotes there and custom types do not.

* `parse_postgresText_iff`: what a text was read as is read again from the emitted spelling exactly
  when the name in it, if there is one, is bare, or the name of an enum without quotes at its ends.
  Texts without quotes and dots have only such names.
* `capitals_not_emitted`: a custom type with capitals in its name is emitted as another type.
-/

set_option autoImplicit false

namespace SchemaPlan.DataType

variable {t : DataType} {name text : String} {isEnum : String → Bool}

/-- The names that are read back from their emitted spelling. -/
def IsEmittedName (isEnum : String → Bool) (name : String) : Prop :=
  if isEnum name then IsQuotable name else IsBareName name

instance (isEnum : String → Bool) (name : String) : Decidable (IsEmittedName isEnum name) :=
  inferInstanceAs (Decidable (if isEnum name then IsQuotable name else IsBareName name))

/-- The spelling of a type once enums are resolved. -/
def emittedText (isEnum : String → Bool) (type : DataType) : String :=
  (type.resolveEnums isEnum).postgresText

theorem reads_emittedText_custom_iff :
    Reads (emittedText isEnum (custom name)).toList (custom name) ↔ IsEmittedName isEnum name := by
  rw [emittedText, resolveEnums, IsEmittedName]
  split
  · exact reads_quoteIdentifier_iff
  · exact reads_custom_iff

/-- The emitted spellings of built-in types are spellings of them. -/
theorem spellsBuiltins_postgresText : SpellsBuiltins postgresText where
  plain := by decide
  precision p hp := reads_withLength "NUMERIC" (by decide) hp rfl
  scale p hp s hs := by
    have htext : (postgresText (numeric (some p) (some s))).toList = "NUMERIC".toList ++
        '(' :: ((toString p).toList ++ ',' :: ([' '] ++ (toString s).toList) ++ [')']) := by
      simp [postgresText, String.toList_append]
    -- the space parts the text into two words
    have hwords : "NUMERIC".toList.map Char.toLower ++
        '(' :: ((toString p).toList ++ ',' :: ([' '] ++ (toString s).toList) ++ [')']) =
          ("numeric(".toList ++ (toString p).toList ++ [',']) ++
            ' ' :: ((toString s).toList ++ [')']) := by
      simp
    rw [htext]
    refine reads_pair (by decide) (.inr rfl) hp hs ?_ rfl
    rw [hwords]
    refine Text.collapse_append_space (by simp) ?_ (by simp) ?_
    · exact List.forall_mem_append.2 ⟨List.forall_mem_append.2
        ⟨by simp [Text.isBlank], fun c hc => isBlank_of_mem_toString hc⟩,
        List.forall_mem_singleton.2 (by decide)⟩
    · exact List.forall_mem_append.2
        ⟨fun c hc => isBlank_of_mem_toString hc, List.forall_mem_singleton.2 (by decide)⟩
  varchar n hn := reads_withLength "VARCHAR" (by decide) hn rfl
  char n hn := reads_withLength "CHAR" (by decide) hn rfl

/-- Resolving enums leaves built-in types alone. -/
theorem reads_emittedText_of_isBuiltin (h : t.IsBuiltin) :
    Reads (emittedText isEnum t).toList t := by
  have hresolved : t.resolveEnums isEnum = t := by
    cases t with
    | array | custom => exact h.elim
    | _ => rfl
  rw [emittedText, hresolved]
  exact spellsBuiltins_postgresText.reads h

/-- **A type that was read is read again from its emitted spelling exactly when its custom name, if
it has one, allows**: the name of an enum must have no quotes at its ends, and any other must be
bare.  A text without quotes and dots is always read as such a type. -/
theorem parse_postgresText_iff (h : parse text = .ok t) (isEnum : String → Bool) :
    (parse (t.resolveEnums isEnum).postgresText = .ok t ↔
        ∀ name, t.customName? = some name → IsEmittedName isEnum name) ∧
      ('"' ∉ text.toList → '.' ∉ text.toList →
        parse (t.resolveEnums isEnum).postgresText = .ok t) := by
  have hreads := parseChars_eq_ok_iff.1 h
  have hiff : parse (t.resolveEnums isEnum).postgresText = .ok t ↔
      ∀ name, t.customName? = some name → IsEmittedName isEnum name :=
    parseChars_eq_ok_iff.trans (reads_spelling_iff (fun _ => rfl)
      (fun _ => reads_emittedText_custom_iff) (fun _ => reads_emittedText_of_isBuiltin)
      hreads.isReadable)
  refine ⟨hiff, fun hquote hdot => hiff.2 fun name hname => ?_⟩
  obtain ⟨hbare, hnoquote⟩ := hreads.isBareName hquote hdot hname
  rw [IsEmittedName]
  split
  · exact hbare.isQuotable hnoquote
  · exact hbare

/-- An enum with capitals in its name, behind an array. -/
theorem parse_postgresText_iff_mood :
    parse "\"Mood\" []" = .ok (array (custom "Mood")) ∧
      parse ((array (custom "Mood")).resolveEnums (· == "Mood")).postgresText =
        .ok (array (custom "Mood")) := by
  have htext : Text.quoteIdentifier "Mood" = "\"Mood\"" := by decide
  have helement : Reads "\"Mood\" ".toList (custom "Mood") := by
    have hname : Reads "\"Mood\"".toList (custom "Mood") :=
      htext ▸ reads_quoteIdentifier_iff.2 (by decide)
    exact hname.of_trim_eq (by decide)
  have hread : parse "\"Mood\" []" = .ok (array (custom "Mood")) :=
    parseChars_eq_ok_iff.2 (.array (by decide) helement)
  refine ⟨hread, (parse_postgresText_iff hread _).1.2 fun name hname => ?_⟩
  obtain rfl := Option.some.inj hname
  decide

/-- **A custom type with capitals in its name is emitted without quotes**, and read again as the one
in lower case. -/
theorem capitals_not_emitted :
    parse "\"Mixed\"" = .ok (custom "Mixed") ∧
      parse (postgresText (custom "Mixed")) = .ok (custom "mixed") := by
  have htext : Text.quoteIdentifier "Mixed" = "\"Mixed\"" := by decide
  have hquoted : Reads "\"Mixed\"".toList (custom "Mixed") :=
    htext ▸ reads_quoteIdentifier_iff.2 (by decide)
  have hemitted : Reads "Mixed".toList (custom "mixed") := IsWordFor.reads (by decide)
  exact ⟨parseChars_eq_ok_iff.2 hquoted, parseChars_eq_ok_iff.2 hemitted⟩

end SchemaPlan.DataType
