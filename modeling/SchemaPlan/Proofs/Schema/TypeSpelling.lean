import SchemaPlan.Proofs.Schema.TypeReading

/-!
# Spellings of types

Types are written in more than one spelling: one is stored, others stand in statements.

* `reads_withLength`, `reads_pair`: modifiers behind a spelling are read.
* `SpellsBuiltins`: a spelling under which every built-in type is read back.
* `reads_spelling_iff`: under such a spelling a type is read back exactly when the custom name in it
  is.
-/

set_option autoImplicit false

namespace SchemaPlan.DataType

variable {t : DataType}

/-! ## Modifiers -/

theorem isBlank_of_mem_toString {n : Nat} {c : Char} (h : c ∈ (toString n).toList) :
    Text.isBlank c = false :=
  Text.isBlank_of_isDigit (Text.isDigit_of_mem_toString h)

theorem comma_not_mem_toString (n : Nat) : ',' ∉ (toString n).toList := fun h => by
  cases Text.isDigit_of_mem_toString h

/-- A number is read as the modifier that it is, also behind a blank. -/
theorem readModifier?_toString {n : Nat} (h : n < 2 ^ 32) :
    readModifier? (toString n).toList = some n ∧
      readModifier? (' ' :: (toString n).toList) = some n := by
  have htrim : Text.trim (toString n).toList = (toString n).toList :=
    Text.trim_of_collapse (Text.collapse_of_not_blank fun _ hc => isBlank_of_mem_toString hc)
  have hread : (Text.readNat? (toString n).toList).filter (· < Nat.pow 2 32) = some n := by
    rw [Text.readNat?_toString, Option.filter_some, if_pos (by simpa using h)]
  constructor
  · rw [readModifier?, htrim, hread]
  · rw [readModifier?, Text.trim_cons_blank Text.isBlank_space, htrim, hread]

/-- The spellings that modifiers follow. -/
def modifiedSpellings : List String :=
  ["numeric", "NUMERIC", "character varying", "VARCHAR", "character", "CHAR"]

/-- Only the letters in front are written in lower case. -/
theorem map_toLower_modified (base : List Char) {inner : List Char}
    (hinner : ∀ c ∈ inner, c.isDigit = true ∨ c = ',' ∨ c = ' ') :
    (base ++ '(' :: (inner ++ [')'])).map Char.toLower =
      base.map Char.toLower ++ '(' :: (inner ++ [')']) := by
  have hsame : inner.map Char.toLower = inner := by
    refine (List.map_congr_left fun d hd => ?_).trans (List.map_id' _)
    rcases hinner d hd with hdigit | rfl | rfl
    · exact Text.toLower_of_isDigit hdigit
    · rfl
    · rfl
  rw [List.map_append, List.map_cons, List.map_append, hsame]
  rfl

/-- None of the spellings starts like a schema. -/
theorem dropPublic_modified {base : String} (hbase : base ∈ modifiedSpellings) (z : List Char) :
    dropPublic (base.toList.map Char.toLower ++ z) = base.toList.map Char.toLower ++ z := by
  have hfacts : ∀ base ∈ modifiedSpellings,
      (base.toList.map Char.toLower).head?.any (fun c => c != 'p') = true := by
    decide
  obtain ⟨c, hhead, hc⟩ := (Option.any_eq_true _ _).1 (hfacts base hbase)
  obtain ⟨r, hcons⟩ := List.head?_eq_some_iff.1 hhead
  have hunqualified :
      Text.after? "public.".toList (base.toList.map Char.toLower ++ z) = none := by
    rw [hcons]
    exact if_neg (Ne.symm (bne_iff_ne.1 hc))
  rw [dropPublic, hunqualified, Option.getD_none]

/-- Numbers in brackets are split off. -/
theorem splitModifiers?_modified {base : String} {inner : List Char} {modifiers : List Nat}
    (hbase : base ∈ modifiedSpellings) (hclose : ')' ∉ inner)
    (hmodifiers : (Text.pieces ',' inner).mapM readModifier? = some modifiers) :
    splitModifiers? (base.toList.map Char.toLower ++ '(' :: (inner ++ [')'])) =
      some (base.toList.map Char.toLower, modifiers) := by
  have hfacts : ∀ base ∈ modifiedSpellings,
      '(' ∉ base.toList.map Char.toLower ∧
      Text.collapse (Text.trimEnd (base.toList.map Char.toLower)) = base.toList.map Char.toLower ∧
      Text.after? ['t', 'i', 'm', 'e'] (base.toList.map Char.toLower) = none := by
    decide
  obtain ⟨hopen, hspelling, htime⟩ := hfacts base hbase
  rw [splitModifiers?, Text.cut?_append hopen]
  simp only [Text.cut?_append hclose, hmodifiers, List.append_nil, hspelling, htime,
    Option.isSome_none, Bool.false_eq_true, if_false]

/-- The spelling of a built-in type with numbers in brackets is read as the type with these
modifiers. -/
theorem reads_modified {base : String} {inner : List Char} {modifiers : List Nat}
    (hbase : base ∈ modifiedSpellings)
    (hinner : ∀ c ∈ inner, c.isDigit = true ∨ c = ',' ∨ c = ' ')
    (hcollapsed : Text.collapse (base.toList.map Char.toLower ++ '(' :: (inner ++ [')'])) =
      base.toList.map Char.toLower ++ '(' :: (inner ++ [')']))
    (hmodifiers : (Text.pieces ',' inner).mapM readModifier? = some modifiers)
    (hbuiltin : builtin? (String.ofList (base.toList.map Char.toLower)) modifiers = some t) :
    Reads (base.toList ++ '(' :: (inner ++ [')'])) t := by
  have hfacts : ∀ base ∈ modifiedSpellings,
      base.toList.head?.any (fun c => !Text.isBlank c && c != '"') = true := by
    decide
  obtain ⟨c, hhead, hc⟩ := (Option.any_eq_true _ _).1 (hfacts base hbase)
  obtain ⟨r, hcons⟩ := List.head?_eq_some_iff.1 hhead
  simp only [Bool.and_eq_true, Bool.not_eq_true', bne_iff_ne, ne_eq] at hc
  obtain ⟨hblank, hquote⟩ := hc
  have hclose : ')' ∉ inner := fun hmem => by
    rcases hinner _ hmem with h | h | h <;> cases h
  have hfold : foldName (base.toList ++ '(' :: (inner ++ [')'])) =
      base.toList.map Char.toLower ++ '(' :: (inner ++ [')']) := by
    rw [foldName, map_toLower_modified _ hinner, hcollapsed, dropPublic_modified hbase]
  have hlast : (base.toList ++ '(' :: (inner ++ [')'])).getLast? = some ')' := by
    rw [← List.cons_append, ← List.append_assoc, List.getLast?_concat]
  have hfirst : (base.toList ++ '(' :: (inner ++ [')'])).head? = some c := by
    rw [hcons]
    rfl
  rw [reads_iff_of_ends hfirst hblank hlast (by decide) (by decide), parseName?_eq_some_iff, hfold,
    hfirst]
  refine .inr ⟨fun h => hquote (Option.some.inj h), _, modifiers,
    splitModifiers?_modified hbase hclose hmodifiers, ?_⟩
  rw [hbuiltin, Option.getD_some]

theorem collapse_modified {base : String} (hbase : base ∈ modifiedSpellings) {z : List Char}
    (hz : ∀ c ∈ z, Text.isBlank c = false) :
    Text.collapse (base.toList.map Char.toLower ++ z) = base.toList.map Char.toLower ++ z := by
  have hfacts : ∀ base ∈ modifiedSpellings,
      (base.toList.map Char.toLower).getLast?.any (fun c => !Text.isBlank c) = true ∧
      Text.collapse (base.toList.map Char.toLower) = base.toList.map Char.toLower := by
    decide
  obtain ⟨hlast, hcollapsed⟩ := hfacts base hbase
  obtain ⟨c, hend, hc⟩ := (Option.any_eq_true _ _).1 hlast
  rw [Text.collapse_append (fun h => by rw [h] at hend; cases hend) (fun d hd => ?_) hz, hcollapsed]
  rw [hend] at hd
  simpa [← Option.some.inj hd] using hc

/-- A modifier behind a spelling is read. -/
theorem reads_withLength (base : String) {n : Nat} (hbase : base ∈ modifiedSpellings)
    (hn : n < 2 ^ 32)
    (hbuiltin : builtin? (String.ofList (base.toList.map Char.toLower)) [n] = some t) :
    Reads (withLength base (some n)).toList t := by
  have htext : (withLength base (some n)).toList =
      base.toList ++ '(' :: ((toString n).toList ++ [')']) := by
    simp [withLength, String.toList_append]
  rw [htext]
  refine reads_modified hbase (fun c hc => .inl (Text.isDigit_of_mem_toString hc)) ?_ ?_ hbuiltin
  · refine collapse_modified hbase (List.forall_mem_cons.2 ⟨by decide, ?_⟩)
    exact List.forall_mem_append.2
      ⟨fun c hc => isBlank_of_mem_toString hc, List.forall_mem_singleton.2 (by decide)⟩
  · rw [Text.pieces_of_not_mem (comma_not_mem_toString n), List.mapM_cons,
      (readModifier?_toString hn).1]
    rfl

/-- Two modifiers behind a spelling are read, also with a space between them. -/
theorem reads_pair {base : String} {gap : List Char} {m n : Nat} (hbase : base ∈ modifiedSpellings)
    (hgap : gap = [] ∨ gap = [' ']) (hm : m < 2 ^ 32) (hn : n < 2 ^ 32)
    (hcollapsed : Text.collapse (base.toList.map Char.toLower ++
        '(' :: ((toString m).toList ++ ',' :: (gap ++ (toString n).toList) ++ [')'])) =
      base.toList.map Char.toLower ++
        '(' :: ((toString m).toList ++ ',' :: (gap ++ (toString n).toList) ++ [')']))
    (hbuiltin : builtin? (String.ofList (base.toList.map Char.toLower)) [m, n] = some t) :
    Reads (base.toList ++
      '(' :: ((toString m).toList ++ ',' :: (gap ++ (toString n).toList) ++ [')'])) t := by
  have hdigits : ∀ n : Nat, ∀ c ∈ (toString n).toList, c.isDigit = true ∨ c = ',' ∨ c = ' ' :=
    fun _ _ hc => .inl (Text.isDigit_of_mem_toString hc)
  have hsecond : ',' ∉ gap ++ (toString n).toList := by
    rcases hgap with rfl | rfl
    · exact comma_not_mem_toString n
    · exact List.not_mem_cons_of_ne_of_not_mem (by decide) (comma_not_mem_toString n)
  have hread : readModifier? (gap ++ (toString n).toList) = some n := by
    rcases hgap with rfl | rfl
    · exact (readModifier?_toString hn).1
    · exact (readModifier?_toString hn).2
  refine reads_modified hbase (List.forall_mem_append.2 ⟨hdigits m, ?_⟩) hcollapsed ?_ hbuiltin
  · refine List.forall_mem_cons.2 ⟨.inr (.inl rfl), List.forall_mem_append.2 ⟨?_, hdigits n⟩⟩
    rcases hgap with rfl | rfl
    · exact List.forall_mem_nil _
    · exact List.forall_mem_singleton.2 (.inr (.inr rfl))
  · rw [Text.pieces_append (comma_not_mem_toString m), Text.pieces_of_not_mem hsecond,
      List.mapM_cons, (readModifier?_toString hm).1, List.mapM_cons, hread]
    rfl

/-! ## Spellings -/

/-- A text without blanks and brackets at its ends, and what it is read as. -/
def IsWordFor (s : List Char) (type : DataType) : Prop :=
  s ≠ [] ∧ Text.trim s = s ∧ Text.before? ['[', ']'] s = none ∧ parseName? s = some type

instance (s : List Char) (type : DataType) : Decidable (IsWordFor s type) :=
  inferInstanceAs (Decidable (_ ∧ _ ∧ _ ∧ _))

theorem IsWordFor.reads {s : List Char} (h : IsWordFor s t) : Reads s t :=
  (reads_iff_of_scalar h.1 h.2.1 h.2.2.1).2 h.2.2.2

/-- The built-in types without modifiers. -/
def plainTypes : List DataType :=
  [boolean, smallInt, integer, bigInt, real, doublePrecision, numeric none none, text, varchar none,
    char none, uuid, date, time, timeTz, timestamp, timestampTz, interval, bytea, json, jsonb, inet]

/-- A spelling under which the built-in types are read back. -/
structure SpellsBuiltins (spelling : DataType → String) : Prop where
  plain : ∀ type ∈ plainTypes, IsWordFor (spelling type).toList type
  precision : ∀ p < 2 ^ 32,
    Reads (spelling (numeric (some p) none)).toList (numeric (some p) none)
  scale : ∀ p < 2 ^ 32, ∀ s < 2 ^ 32,
    Reads (spelling (numeric (some p) (some s))).toList (numeric (some p) (some s))
  varchar : ∀ n < 2 ^ 32, Reads (spelling (varchar (some n))).toList (varchar (some n))
  char : ∀ n < 2 ^ 32, Reads (spelling (char (some n))).toList (char (some n))

theorem SpellsBuiltins.reads {spelling : DataType → String} (h : SpellsBuiltins spelling)
    (ht : t.IsBuiltin) : Reads (spelling t).toList t := by
  cases t with
  | enum | array | custom => exact ht.elim
  | numeric precision scale =>
    match precision, scale, ht with
    | none, none, _ => exact (h.plain _ (by decide)).reads
    | some p, none, ht => exact h.precision p (ht.1 p rfl)
    | some p, some s, ht => exact h.scale p (ht.1 p rfl) s (ht.2 s rfl)
  | varchar length =>
    cases length with
    | none => exact (h.plain _ (by decide)).reads
    | some n => exact h.varchar n (ht n rfl)
  | char length =>
    cases length with
    | none => exact (h.plain _ (by decide)).reads
    | some n => exact h.char n (ht n rfl)
  | _ => exact (h.plain _ (by decide)).reads

/-- **A spelling of types is read back exactly for the custom names that are**, when it is for the
built-in types and puts brackets behind elements. -/
theorem reads_spelling_iff {spelling : DataType → String} {IsSpelled : String → Prop}
    (harray : ∀ element, spelling (array element) = spelling element ++ "[]")
    (hcustom : ∀ name, Reads (spelling (custom name)).toList (custom name) ↔ IsSpelled name)
    (hbuiltin : ∀ type : DataType, type.IsBuiltin → Reads (spelling type).toList type)
    (h : t.IsReadable) :
    Reads (spelling t).toList t ↔ ∀ name, t.customName? = some name → IsSpelled name := by
  induction t with
  | array element ih =>
    have hbrackets : (spelling (array element)).toList =
        (spelling element).toList ++ ['[', ']'] := by
      rw [harray, String.toList_append]
      rfl
    rw [hbrackets, reads_append_brackets_iff]
    simp only [array.injEq, exists_eq_right']
    exact ih h
  | custom name =>
    rw [hcustom]
    simp only [customName?, Option.some.injEq, forall_eq']
  | _ => exact iff_of_true (hbuiltin _ h) fun _ hname => by cases hname

end SchemaPlan.DataType
