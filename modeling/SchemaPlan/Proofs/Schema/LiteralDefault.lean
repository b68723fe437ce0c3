import SchemaPlan.Proofs.Expression.CastText
import SchemaPlan.Schema.Canonical

/-!
# String defaults under a cast

A database reports the default `'x'` of a column as `'x'::character varying(10)`.  The canonical form
drops the cast, in every spelling of a type, and keeps the literal, which stands for its value.

* `IsCastType`: the types that a cast can name.
* `IsCastType.exists_parts`: the text of each of them is one that the passes drop.
* `string_default_by_value`: string defaults are compared by value, whatever type they are cast to.
-/

set_option autoImplicit false

namespace SchemaPlan

/-! ## Types -/

open Expression (isSimpleName IsHead IsModifiers brackets Writes)

/-- A name as it is written in a type: a simple one, or one in quotes. -/
inductive IsTypeName : String → Prop where
  | simple {name : String} (h : isSimpleName name.toList = true) : IsTypeName name
  | quoted (name : String) : IsTypeName (Text.quoteIdentifier name)

/-- A type as it is written behind a cast. -/
inductive IsCastType : String → Prop where
  | builtin {type : DataType} (henum : type.enumName? = none) (hcustom : type.customName? = none) :
    IsCastType type.toText
  | name {name : String} (h : IsTypeName name) : IsCastType name
  | qualified {name : String} (h : IsTypeName name) : IsCastType ("public." ++ name)
  | array {type : String} (h : IsCastType type) : IsCastType (type ++ "[]")

/-- The parts of the text of a type. -/
structure HasParts (type : List Char) (qualifier written head modifiers : List Char) (n : Nat) :
    Prop where
  text : type = qualifier ++ (written ++ (modifiers ++ brackets n))
  qualifier : qualifier ∈ [[], "public.".toList]
  writes : Writes written head
  modifiers : IsModifiers modifiers

theorem exists_parts_array {type qualifier written head modifiers : List Char} {n : Nat}
    (h : HasParts type qualifier written head modifiers n) :
    HasParts (type ++ ['[', ']']) qualifier written head modifiers (n + 1) :=
  { h with text := by rw [h.text, ← Expression.brackets_concat]; simp only [List.append_assoc] }

theorem writes_simple {name : List Char} (h : isSimpleName name = true) : Writes name name :=
  .plain (.name h) fun c hc =>
    Expression.isQuote_of_isNameChar (Expression.isNameChar_of_isSimpleName h c hc)

theorem IsTypeName.exists_parts {name : String} (h : IsTypeName name) (qualifier : List Char)
    (hqualifier : qualifier ∈ [[], "public.".toList]) :
    ∃ written head, HasParts (qualifier ++ name.toList) qualifier written head [] 0 := by
  cases h with
  | simple h =>
    exact ⟨name.toList, name.toList, by simp [brackets], hqualifier, writes_simple h, .none⟩
  | quoted name =>
    refine ⟨_, _, ?_, hqualifier, .quoted name.toList, .none⟩
    simp [brackets, Text.quoteIdentifier, Text.doubleQuote]

theorem hasParts_plain {head modifiers : List Char} (hhead : Writes head head)
    (hmodifiers : IsModifiers modifiers) : HasParts (head ++ modifiers) [] head head modifiers 0 :=
  ⟨by simp [brackets], by simp, hhead, hmodifiers⟩

theorem hasParts_withLength {base : String} (h : Writes base.toList base.toList)
    (length : Option Nat) :
    ∃ modifiers, HasParts (DataType.withLength base length).toList [] base.toList base.toList
      modifiers 0 := by
  cases length with
  | none => exact ⟨[], by simpa [DataType.withLength] using hasParts_plain h .none⟩
  | some n =>
    have htext : (DataType.withLength base (some n)).toList =
        base.toList ++ '(' :: ((toString n).toList ++ [')']) := by
      rw [DataType.withLength]
      simp
    have hparts := hasParts_plain h (.one n)
    rw [← htext] at hparts
    exact ⟨_, hparts⟩

theorem writes_words {name : List Char} (h : name ∈ Expression.longTypeNames) :
    Writes name name := by
  have hquotes : ∀ name ∈ Expression.longTypeNames,
      ∀ c ∈ name, Expression.isQuote c = false := by
    decide
  exact .plain (.words h) (hquotes name h)

theorem exists_parts_builtin {type : DataType} (henum : type.enumName? = none)
    (hcustom : type.customName? = none) :
    ∃ written head modifiers n, HasParts type.toText.toList [] written head modifiers n := by
  have hname : ∀ text : String, isSimpleName text.toList = true →
      ∃ written head modifiers n, HasParts text.toList [] written head modifiers n := by
    intro text h
    exact ⟨_, _, [], 0, by simpa using hasParts_plain (writes_simple h) .none⟩
  have hwords : ∀ text : String, text.toList ∈ Expression.longTypeNames →
      ∃ written head modifiers n, HasParts text.toList [] written head modifiers n := by
    intro text h
    exact ⟨_, _, [], 0, by simpa using hasParts_plain (writes_words h) .none⟩
  induction type with
  | enum name => cases henum
  | custom name => cases hcustom
  | array element ih =>
    obtain ⟨written, head, modifiers, n, hparts⟩ := ih henum hcustom
    refine ⟨written, head, modifiers, n + 1, ?_⟩
    rw [DataType.toText, String.toList_append]
    exact exists_parts_array hparts
  | numeric precision scale =>
    have hnumeric : Writes "numeric".toList "numeric".toList := writes_simple (by decide)
    match precision, scale with
    | none, _ => exact hname "numeric" (by decide)
    | some p, none =>
      obtain ⟨modifiers, hparts⟩ := hasParts_withLength hnumeric (some p)
      exact ⟨_, _, modifiers, 0, hparts⟩
    | some p, some s =>
      have htext : (DataType.numeric (some p) (some s)).toText.toList = "numeric".toList ++
          '(' :: ((toString p).toList ++ ',' :: ((toString s).toList ++ [')'])) := by
        rw [DataType.toText]
        simp
      have hparts := hasParts_plain hnumeric (.two p s)
      rw [← htext] at hparts
      exact ⟨_, _, _, 0, hparts⟩
  | varchar length =>
    have hvarying : Writes "character varying".toList "character varying".toList :=
      writes_words (by decide)
    obtain ⟨modifiers, hparts⟩ := hasParts_withLength hvarying length
    exact ⟨_, _, modifiers, 0, hparts⟩
  | char length =>
    have hcharacter : Writes "character".toList "character".toList := writes_simple (by decide)
    obtain ⟨modifiers, hparts⟩ := hasParts_withLength hcharacter length
    exact ⟨_, _, modifiers, 0, hparts⟩
  | doublePrecision | time | timeTz | timestamp | timestampTz => exact hwords _ (by decide)
  | _ => exact hname _ (by decide)

theorem IsCastType.exists_parts {type : String} (h : IsCastType type) :
    ∃ qualifier written head modifiers n,
      HasParts type.toList qualifier written head modifiers n := by
  induction h with
  | builtin henum hcustom => exact ⟨[], exists_parts_builtin henum hcustom⟩
  | name h =>
    obtain ⟨written, head, hparts⟩ := h.exists_parts [] (by simp)
    exact ⟨[], written, head, [], 0, hparts⟩
  | qualified h =>
    obtain ⟨written, head, hparts⟩ := h.exists_parts "public.".toList (by simp)
    exact ⟨_, written, head, [], 0, by rw [String.toList_append]; exact hparts⟩
  | array h ih =>
    obtain ⟨qualifier, written, head, modifiers, n, hparts⟩ := ih
    refine ⟨qualifier, written, head, modifiers, n + 1, ?_⟩
    rw [String.toList_append]
    exact exists_parts_array hparts

/-! ## Defaults -/

/-- The masked text of a literal is one marker, whatever the literal holds. -/
theorem unmask_marker_zero (literal : List Char) (tokens : List (List Char)) :
    Expression.unmask (Text.enclose '\'' literal :: tokens) (Expression.marker 0) =
      Text.enclose '\'' literal := by
  have hunmask := Expression.unmask_marker (Text.enclose '\'' literal :: tokens) 0 []
  rw [List.append_nil] at hunmask
  rw [hunmask]
  exact List.append_nil _

theorem canonicalChars_literal (literal : List Char) :
    Expression.canonicalChars (Text.enclose '\'' literal) = Text.enclose '\'' literal := by
  have hlexemes : Expression.lexemes (Text.enclose '\'' literal ++ []) =
      .quoted (Text.enclose '\'' literal) :: Expression.lexemes [] :=
    Expression.lexemes_enclose rfl literal (by simp)
  rw [List.append_nil, Expression.lexemes_nil] at hlexemes
  have hmask : Expression.mask [.quoted (Text.enclose '\'' literal)] = Expression.marker 0 :=
    List.append_nil _
  rw [Expression.canonicalChars, hlexemes, hmask, Expression.canonicalMasked_marker.1]
  exact unmask_marker_zero literal []

theorem canonicalChars_cast {type : String} (h : IsCastType type) (literal : List Char) :
    Expression.canonicalChars (Text.enclose '\'' literal ++ ':' :: ':' :: type.toList) =
      Text.enclose '\'' literal := by
  obtain ⟨qualifier, written, head, modifiers, n, hparts⟩ := h.exists_parts
  have hcolons : Expression.lexemes (':' :: ':' :: type.toList) =
      .char ':' :: .char ':' :: Expression.lexemes type.toList := by
    rw [Expression.lexemes_char (by decide), Expression.lexemes_char (by decide)]
  have htype : Expression.maskFrom 1 (Expression.lexemes type.toList) =
      qualifier ++ (head ++ (modifiers ++ brackets n)) := by
    rw [hparts.text]
    exact hparts.writes.maskFrom hparts.qualifier fun c hc =>
      (Expression.isTailChar_cases (Expression.isTailChar_of_mem hparts.modifiers c hc)).2.2.2
  have hmask : Expression.mask (.quoted (Text.enclose '\'' literal) :: .char ':' :: .char ':' ::
      Expression.lexemes type.toList) = Expression.marker 0 ++
        ':' :: ':' :: (qualifier ++ (head ++ (modifiers ++ brackets n))) := by
    rw [← htype]
    rfl
  rw [Expression.canonicalChars, Expression.lexemes_enclose rfl literal (by simp), hcolons, hmask,
    Expression.canonicalMasked_cast hparts.qualifier hparts.writes.isHead hparts.modifiers]
  exact unmask_marker_zero literal _

/-- A literal is its own canonical form, with a cast behind it or without. -/
theorem canonicalSql?_eq {default : DefaultValue} {value : String}
    (h : Expression.canonicalChars default.sql.toList = Text.enclose '\'' value.toList) :
    DefaultValue.canonicalSql? (some default) = some (Text.quoteLiteral value) := by
  have hnull : (Text.quoteLiteral value != "null") = true := by
    rw [bne_iff_ne]
    intro heq
    have hchars := congrArg (fun text => text.toList.head?) heq
    simp [Text.quoteLiteral, Text.enclose, Text.singleQuote] at hchars
  have hcanonical : Expression.canonical default.sql = Text.quoteLiteral value := by
    rw [Expression.canonical, h]
    rfl
  rw [DefaultValue.canonicalSql?, Option.map_some, hcanonical, Option.filter_some, if_pos hnull]

theorem canonicalSql?_string (value : String) :
    DefaultValue.canonicalSql? (some (.string value)) = some (Text.quoteLiteral value) := by
  apply canonicalSql?_eq
  rw [DefaultValue.sql, Text.quoteLiteral, String.toList_ofList]
  exact canonicalChars_literal value.toList

theorem canonicalSql?_cast {type : String} (h : IsCastType type) (value : String) :
    DefaultValue.canonicalSql? (some (.expression (Text.quoteLiteral value ++ "::" ++ type))) =
      some (Text.quoteLiteral value) := by
  have htext : (Text.quoteLiteral value ++ "::" ++ type).toList =
      Text.enclose '\'' value.toList ++ ':' :: ':' :: type.toList := by
    simp [Text.quoteLiteral, Text.singleQuote]
  apply canonicalSql?_eq
  rw [DefaultValue.sql, htext]
  exact canonicalChars_cast h value.toList

/-- Different values have different literals. -/
theorem quoteLiteral_inj {value other : String} :
    Text.quoteLiteral value = Text.quoteLiteral other ↔ value = other := by
  constructor
  · intro h
    have hchars := congrArg String.toList h
    rw [Text.quoteLiteral, Text.quoteLiteral, String.toList_ofList, String.toList_ofList,
      Text.enclose, Text.enclose, List.cons.injEq] at hchars
    have hdouble := (List.append_inj' hchars.2 rfl).1
    have hvalue := congrArg (Text.undouble Text.singleQuote) hdouble
    rw [Text.undouble_double, Text.undouble_double] at hvalue
    exact String.toList_inj.1 hvalue
  · exact congrArg Text.quoteLiteral

/-- **String defaults are compared by value, whatever type a database casts them to.** -/
theorem string_default_by_value (value other : String) :
    (DefaultValue.canonicalSql? (some (.string value)) =
      DefaultValue.canonicalSql? (some (.string other)) ↔ value = other) ∧
    DefaultValue.canonicalSql? (some (.string value)) ≠ none ∧
    ∀ type, IsCastType type →
      DefaultValue.canonicalSql? (some (.expression (Text.quoteLiteral value ++ "::" ++ type))) =
        DefaultValue.canonicalSql? (some (.string value)) := by
  refine ⟨?_, ?_, fun type h => ?_⟩
  · rw [canonicalSql?_string, canonicalSql?_string, Option.some.injEq, quoteLiteral_inj]
  · rw [canonicalSql?_string]
    exact Option.some_ne_none _
  · rw [canonicalSql?_cast h, canonicalSql?_string]

/-- A literal that holds what the passes drop elsewhere, under casts of each kind. -/
theorem string_default_by_value_nested :
    let value := "it's '' public.x::text ( a )"
    (IsCastType "character varying(10)" ∧
      DefaultValue.canonicalSql?
          (some (.expression (Text.quoteLiteral value ++ "::" ++ "character varying(10)"))) =
        DefaultValue.canonicalSql? (some (.string value))) ∧
    (IsCastType ("public." ++ Text.quoteIdentifier "My \"Mood\"" ++ "[]" ++ "[]") ∧
      DefaultValue.canonicalSql? (some (.expression (Text.quoteLiteral value ++ "::" ++
          ("public." ++ Text.quoteIdentifier "My \"Mood\"" ++ "[]" ++ "[]")))) =
        DefaultValue.canonicalSql? (some (.string value))) :=
  have hvarchar : IsCastType (DataType.varchar (some 10)).toText := .builtin rfl rfl
  have hmood : IsCastType ("public." ++ Text.quoteIdentifier "My \"Mood\"" ++ "[]" ++ "[]") :=
    .array (.array (.qualified (.quoted "My \"Mood\"")))
  ⟨⟨hvarchar, (string_default_by_value _ "").2.2 _ hvarchar⟩,
    ⟨hmood, (string_default_by_value _ "").2.2 _ hmood⟩⟩

end SchemaPlan
