import SchemaPlan.Proofs.Schema.TypeSpelling

/-!
# Types in their stored spelling

The stored spelling of a type is read when a declaration is loaded again.  It puts a name in quotes
when the characters of the name ask for them.

* `parse_toText_iff`: what a text was read as is read again from its stored spelling exactly when
  the custom name in it, if there is one, can be shown.  Texts without quotes and dots have only
  such names.
* `quoted_builtin_reread`: the name of a built-in type, in quotes, is stored without them.
-/

set_option autoImplicit false

namespace SchemaPlan.DataType

variable {t : DataType} {name text : String}

/-- The names that are read back from their stored spelling. -/
def IsShownName (name : String) : Prop :=
  if name.toList.all isPlainChar then IsBareName name else IsQuotable name

instance (name : String) : Decidable (IsShownName name) :=
  inferInstanceAs
    (Decidable (if name.toList.all isPlainChar then IsBareName name else IsQuotable name))

theorem reads_nameText_iff : Reads (nameText name).toList (custom name) ↔ IsShownName name := by
  rw [nameText, IsShownName]
  split
  · exact reads_custom_iff
  · exact reads_quoteIdentifier_iff

theorem isShownName_of_isBareName (h : IsBareName name) (hquote : '"' ∉ name.toList) :
    IsShownName name := by
  rw [IsShownName]
  split
  · exact h
  · exact h.isQuotable hquote

/-- The stored spellings of built-in types are spellings of them. -/
theorem spellsBuiltins_toText : SpellsBuiltins toText where
  plain := by decide
  precision p hp := reads_withLength "numeric" (by decide) hp rfl
  scale p hp s hs := by
    have htext : (toText (numeric (some p) (some s))).toList = "numeric".toList ++
        '(' :: ((toString p).toList ++ ',' :: ([] ++ (toString s).toList) ++ [')']) := by
      simp [toText, String.toList_append]
    have hbase : "numeric" ∈ modifiedSpellings := by decide
    have hnumbers : ∀ c ∈ (toString p).toList ++ ',' :: ([] ++ (toString s).toList),
        Text.isBlank c = false :=
      List.forall_mem_append.2 ⟨fun c hc => isBlank_of_mem_toString hc,
        List.forall_mem_cons.2 ⟨by decide, fun c hc => isBlank_of_mem_toString hc⟩⟩
    rw [htext]
    refine reads_pair hbase (.inl rfl) hp hs (collapse_modified hbase ?_) rfl
    exact List.forall_mem_cons.2 ⟨by decide,
      List.forall_mem_append.2 ⟨hnumbers, List.forall_mem_singleton.2 (by decide)⟩⟩
  varchar n hn := reads_withLength "character varying" (by decide) hn rfl
  char n hn := reads_withLength "character" (by decide) hn rfl

/-- **A type that was read is read again from its stored spelling exactly when its custom name, if
it has one, can be shown**: a name of plain characters must be bare, and any other must have no
quotes at its ends.  A text without quotes and dots is always read as such a type. -/
theorem parse_toText_iff (h : parse text = .ok t) :
    (parse t.toText = .ok t ↔ ∀ name, t.customName? = some name → IsShownName name) ∧
      ('"' ∉ text.toList → '.' ∉ text.toList → parse t.toText = .ok t) := by
  have hreads := parseChars_eq_ok_iff.1 h
  have hiff : parse t.toText = .ok t ↔ ∀ name, t.customName? = some name → IsShownName name :=
    parseChars_eq_ok_iff.trans (reads_spelling_iff (fun _ => rfl) (fun _ => reads_nameText_iff)
      (fun _ => spellsBuiltins_toText.reads) hreads.isReadable)
  refine ⟨hiff, fun hquote hdot => hiff.2 fun name hname => ?_⟩
  obtain ⟨hbare, hnoquote⟩ := hreads.isBareName hquote hdot hname
  exact isShownName_of_isBareName hbare hnoquote

/-- A name with spaces and a bracket that is not closed, in quotes, behind arrays. -/
theorem parse_toText_iff_mood :
    parse " \"Mood (of the day\"[] [] " = .ok (array (array (custom "Mood (of the day"))) ∧
      parse (toText (array (array (custom "Mood (of the day")))) =
        .ok (array (array (custom "Mood (of the day"))) := by
  have hquoted : Text.quoteIdentifier "Mood (of the day" = "\"Mood (of the day\"" := by decide
  have hname : Reads "\"Mood (of the day\"".toList (custom "Mood (of the day") :=
    hquoted ▸ reads_quoteIdentifier_iff.2 (by decide)
  have helement : Reads "\"Mood (of the day\"[] ".toList (array (custom "Mood (of the day")) :=
    .array (by decide) hname
  have hread : parse " \"Mood (of the day\"[] [] " =
      .ok (array (array (custom "Mood (of the day"))) :=
    parseChars_eq_ok_iff.2 (.array (by decide) helement)
  refine ⟨hread, (parse_toText_iff hread).1.2 fun name hname => ?_⟩
  obtain rfl := Option.some.inj hname
  decide

/-- **The name of a built-in type in quotes is stored without them**, and read again as the built-in
type. -/
theorem quoted_builtin_reread :
    parse "\"char\"" = .ok (custom "char") ∧ parse (toText (custom "char")) = .ok (char none) := by
  have htext : Text.quoteIdentifier "char" = "\"char\"" := by decide
  have hquoted : Reads "\"char\"".toList (custom "char") :=
    htext ▸ reads_quoteIdentifier_iff.2 (by decide)
  have hstored : Reads "char".toList (char none) := IsWordFor.reads (by decide)
  exact ⟨parseChars_eq_ok_iff.2 hquoted, parseChars_eq_ok_iff.2 hstored⟩

end SchemaPlan.DataType
