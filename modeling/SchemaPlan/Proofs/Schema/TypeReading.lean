import Mathlib.Algebra.Ring.Nat
import SchemaPlan.Proofs.Text.Blank
import SchemaPlan.Schema.DataType

/-!
# Reading types

A text is read as a type by taking brackets off until a name is left.  The name is one in quotes, a
built-in type, or folded: in lower case, with single spaces and without the schema `public`.

* `parseName?_cases`: what a name can be read as.
* `Reads.isReadable`: what is read is built-in or custom, or an array of such a type.
* `reads_custom_iff`: a name without quotes is read as itself exactly when it is bare.
* `reads_quoteIdentifier_iff`: a name in quotes is read as itself exactly when it has no quotes at
  its ends.
* `Reads.isBareName`: a text without quotes and dots is read as a type with a bare name.
-/

set_option autoImplicit false

namespace SchemaPlan.DataType

variable {s : List Char} {t : DataType} {name : String}

/-! ## What a text is read as -/

/-- How a text is read: brackets are taken off until a name is left. -/
inductive Reads : List Char → DataType → Prop
  | name {s : List Char} {t : DataType} (hne : Text.trim s ≠ [])
      (hscalar : Text.before? ['[', ']'] (Text.trim s) = none)
      (h : parseName? (Text.trim s) = some t) : Reads s t
  | array {s inner : List Char} {element : DataType} (h : Text.trim s = inner ++ ['[', ']'])
      (helement : Reads inner element) : Reads s (array element)

theorem parseChars_eq_ok_iff : parseChars s = .ok t ↔ Reads s t := by
  constructor
  · intro h
    fun_induction parseChars s generalizing t with
    | case1 => cases h
    | case2 s inner hbefore element hinner hne ih =>
      cases h
      exact .array (Text.before?_eq_some_iff.1 hbefore) (ih hinner)
    | case3 => cases h
    | case4 s hscalar type hne hname =>
      cases h
      exact .name hne hscalar hname
    | case5 => cases h
  · intro h
    induction h with
    | @name s t hne hscalar h =>
      rw [parseChars]
      split
      · rename_i hempty
        exact absurd hempty hne
      · split
        · rename_i inner hbefore
          rw [hscalar] at hbefore
          cases hbefore
        · rw [h]
    | @array s inner element h helement ih =>
      rw [parseChars]
      split
      · rename_i hempty
        rw [h] at hempty
        cases List.append_eq_nil_iff.1 hempty |>.2
      · split
        · rename_i other hbefore
          rw [Text.before?_eq_some_iff.2 h] at hbefore
          obtain rfl := Option.some.inj hbefore
          rw [ih]
        · rename_i hbefore
          rw [Text.before?_eq_some_iff.2 h] at hbefore
          cases hbefore

/-- Blanks at the ends are not read. -/
theorem Reads.of_trim_eq {other : List Char} (h : Reads s t)
    (htrim : Text.trim other = Text.trim s) : Reads other t := by
  cases h with
  | name hne hscalar h => exact .name (htrim ▸ hne) (htrim ▸ hscalar) (htrim ▸ h)
  | array h helement => exact .array (htrim.trans h) helement

/-- A text in front of brackets is read as the type of the elements. -/
theorem reads_append_brackets_iff :
    Reads (s ++ ['[', ']']) t ↔ ∃ element, Reads s element ∧ t = array element := by
  have htrim : Text.trim (s ++ ['[', ']']) = Text.trimStart s ++ ['[', ']'] :=
    Text.trim_append_of_not_blank (by decide) (by decide) s
  constructor
  · intro h
    cases h with
    | name hne hscalar h =>
      rw [Text.before?_eq_some_iff.2 htrim] at hscalar
      cases hscalar
    | array h helement =>
      rw [htrim] at h
      obtain rfl := (List.append_inj' h rfl).1
      exact ⟨_, helement.of_trim_eq (Text.trim_trimStart s).symm, rfl⟩
  · rintro ⟨element, h, rfl⟩
    exact .array htrim (h.of_trim_eq (Text.trim_trimStart s))

/-- A text that is no array and has no blanks at its ends is read as a name. -/
theorem reads_iff_of_scalar (hne : s ≠ []) (htrim : Text.trim s = s)
    (hscalar : Text.before? ['[', ']'] s = none) : Reads s t ↔ parseName? s = some t := by
  constructor
  · intro h
    cases h with
    | name _ _ h => rwa [htrim] at h
    | array h =>
      rw [← htrim, Text.before?_eq_some_iff.2 h] at hscalar
      cases hscalar
  · intro h
    exact .name (htrim.symm ▸ hne) (htrim.symm ▸ hscalar) (htrim.symm ▸ h)

/-- Two characters at the ends of a text can tell that it is read as a name. -/
theorem reads_iff_of_ends {c d : Char} (hstart : s.head? = some c) (hc : Text.isBlank c = false)
    (hend : s.getLast? = some d) (hd : Text.isBlank d = false) (hbracket : d ≠ ']') :
    Reads s t ↔ parseName? s = some t := by
  refine reads_iff_of_scalar (fun h => ?_) (Text.trim_eq_self (fun x hx => ?_) fun x hx => ?_) ?_
  · rw [h] at hstart
    cases hstart
  · rw [hstart] at hx
    rwa [← Option.some.inj hx]
  · rw [hend] at hx
    rwa [← Option.some.inj hx]
  · refine Text.before?_eq_none_iff.2 fun r hr => hbracket ?_
    rw [hr, List.append_cons, List.getLast?_concat] at hend
    exact (Option.some.inj hend).symm

/-! ## What can be read -/

/-- A built-in type with modifiers below `2 ^ 32`. -/
def IsBuiltin : DataType → Prop
  | enum _ | array _ | custom _ | numeric none (some _) => False
  | numeric precision scale => (∀ p ∈ precision, p < 2 ^ 32) ∧ ∀ s ∈ scale, s < 2 ^ 32
  | varchar length | char length => ∀ n ∈ length, n < 2 ^ 32
  | _ => True

/-- The types that a text can be read as: built-in and custom ones, and arrays of them. -/
def IsReadable : DataType → Prop
  | array element => element.IsReadable
  | custom _ => True
  | type => type.IsBuiltin

theorem lt_of_mem_modifiers {base : List Char} {modifiers : List Nat}
    (h : splitModifiers? s = some (base, modifiers)) : ∀ n ∈ modifiers, n < 2 ^ 32 := by
  have hread : ∀ {pieces : List (List Char)} {numbers : List Nat},
      pieces.mapM readModifier? = some numbers → ∀ n ∈ numbers, n < 2 ^ 32 := by
    intro pieces
    induction pieces with
    | nil =>
      intro numbers h
      cases h
      exact List.forall_mem_nil _
    | cons piece pieces ih =>
      intro numbers h
      simp only [List.mapM_cons, Option.bind_eq_bind, Option.pure_def, Option.bind_eq_some_iff,
        Option.some.injEq] at h
      obtain ⟨n, hn, rest, hrest, rfl⟩ := h
      rw [readModifier?, Option.filter_eq_some_iff] at hn
      exact List.forall_mem_cons.2 ⟨by simpa using hn.2, ih hrest⟩
  unfold splitModifiers? at h
  split at h
  · cases h
    exact List.forall_mem_nil _
  · split at h
    · cases h
    · split at h
      · cases h
        exact List.forall_mem_nil _
      · rename_i numbers hnumbers
        simp only at h
        split at h
        · cases h
          exact List.forall_mem_nil _
        · cases h
          exact hread hnumbers

theorem isBuiltin_of_builtin? {base : String} {modifiers : List Nat}
    (h : builtin? base modifiers = some t) (hbound : ∀ n ∈ modifiers, n < 2 ^ 32) :
    t.IsBuiltin := by
  unfold builtin? at h
  split at h
  · split at h <;> cases h <;> simp [IsBuiltin]
  · rename_i n
    have hn : n < 2 ^ 32 := hbound n List.mem_cons_self
    split at h <;> cases h <;> simpa [IsBuiltin] using hn
  · rename_i p s
    have hp : p < 2 ^ 32 := hbound p List.mem_cons_self
    have hs : s < 2 ^ 32 := hbound s (List.mem_cons_of_mem p List.mem_cons_self)
    split at h <;> cases h
    all_goals exact ⟨by simpa using hp, by simpa using hs⟩
  · cases h

theorem IsBuiltin.isReadable (h : t.IsBuiltin) : t.IsReadable := by
  cases t with
  | array => exact h.elim
  | custom => trivial
  | _ => exact h

theorem IsBuiltin.customName? (h : t.IsBuiltin) : t.customName? = none := by
  cases t with
  | array => exact h.elim
  | custom => exact h.elim
  | _ => rfl

/-- What is left of a name without quotes: the text in lower case, with single spaces and without
the schema `public`. -/
def foldName (s : List Char) : List Char :=
  dropPublic (Text.collapse (s.map Char.toLower))

/-- What a name is read as: the name in quotes, or a built-in type, or the whole name
folded. -/
theorem parseName?_eq_some_iff {s : List Char} :
    parseName? s = some t ↔
      (s.head? = some '"' ∧ Text.undouble '"' (stripQuotes s) ≠ [] ∧
        t = custom (String.ofList (Text.undouble '"' (stripQuotes s)))) ∨
      s.head? ≠ some '"' ∧ ∃ base modifiers,
        splitModifiers? (foldName s) = some (base, modifiers) ∧
          t = (builtin? (String.ofList base) modifiers).getD
            (custom (String.ofList (foldName s))) := by
  unfold parseName?
  split
  · rename_i r
    simp only [List.head?_cons, true_and, ne_eq, not_true_eq_false, false_and, or_false]
    split
    · rename_i hempty
      simp only [List.isEmpty_iff] at hempty
      simp [hempty]
    · rename_i hname
      simp only [List.isEmpty_iff] at hname
      simp [hname, eq_comm]
  · rename_i hquote
    have hhead : s.head? ≠ some '"' := fun hhead => by
      obtain ⟨r, rfl⟩ := List.head?_eq_some_iff.1 hhead
      exact hquote r rfl
    simp only [hhead, false_and, false_or, ne_eq, not_false_eq_true, true_and,
      Option.map_eq_some_iff, Prod.exists]
    exact exists₂_congr fun base modifiers => and_congr_right fun _ => eq_comm

/-- Whether the brackets of a name are closed and no built-in type has this spelling. -/
def isOther (s : List Char) : Bool :=
  (splitModifiers? s).any fun parts => (builtin? (String.ofList parts.1) parts.2).isNone

/-- **What a name can be read as**: the name in quotes, a built-in type, or the folded name. -/
theorem parseName?_cases (h : parseName? s = some t) :
    (s.head? = some '"' ∧ Text.undouble '"' (stripQuotes s) ≠ [] ∧
      t = custom (String.ofList (Text.undouble '"' (stripQuotes s)))) ∨
    t.IsBuiltin ∨
    s.head? ≠ some '"' ∧ isOther (foldName s) = true ∧ t = custom (String.ofList (foldName s)) := by
  rcases parseName?_eq_some_iff.1 h with hquoted | ⟨hunquoted, base, modifiers, hsplit, rfl⟩
  · exact .inl hquoted
  · cases hbuiltin : builtin? (String.ofList base) modifiers with
    | some type =>
      exact .inr (.inl (isBuiltin_of_builtin? hbuiltin (lt_of_mem_modifiers hsplit)))
    | none =>
      refine .inr (.inr ⟨hunquoted, ?_, rfl⟩)
      rw [isOther, hsplit, Option.any_some, hbuiltin, Option.isNone_none]

theorem parseName?_of_isOther (hunquoted : s.head? ≠ some '"') (h : isOther (foldName s) = true) :
    parseName? s = some (custom (String.ofList (foldName s))) := by
  obtain ⟨⟨base, modifiers⟩, hsplit, hbuiltin⟩ := (Option.any_eq_true _ _).1 h
  refine parseName?_eq_some_iff.2 (.inr ⟨hunquoted, base, modifiers, hsplit, ?_⟩)
  rw [Option.isNone_iff_eq_none.1 hbuiltin, Option.getD_none]

/-- **What is read is readable.** -/
theorem Reads.isReadable (h : Reads s t) : t.IsReadable := by
  induction h with
  | name _ _ h =>
    rcases parseName?_cases h with ⟨-, -, rfl⟩ | hbuiltin | ⟨-, -, rfl⟩
    · trivial
    · exact hbuiltin.isReadable
    · trivial
  | array _ _ ih => exact ih

/-! ## Names -/

/-- The names that are read from quotes: not empty, and without quotes at their ends. -/
structure IsQuotable (name : String) : Prop where
  nonempty : name ≠ ""
  start : name.toList.head? ≠ some '"'
  ending : name.toList.getLast? ≠ some '"'

/-- The names that are read without quotes: in lower case, with single spaces, without the schema
`public` or brackets, and not those of built-in types. -/
structure IsBareName (name : String) : Prop where
  nonempty : name ≠ ""
  unquoted : name.toList.head? ≠ some '"'
  lower : name.toList.map Char.toLower = name.toList
  collapsed : Text.collapse name.toList = name.toList
  scalar : Text.before? ['[', ']'] name.toList = none
  unqualified : Text.after? "public.".toList name.toList = none
  other : isOther name.toList = true

instance (name : String) : Decidable (IsQuotable name) :=
  decidable_of_iff (name ≠ "" ∧ name.toList.head? ≠ some '"' ∧ name.toList.getLast? ≠ some '"')
    ⟨fun ⟨h, h', h''⟩ => ⟨h, h', h''⟩, fun h => ⟨h.nonempty, h.start, h.ending⟩⟩

instance (name : String) : Decidable (IsBareName name) :=
  decidable_of_iff (name ≠ "" ∧ name.toList.head? ≠ some '"' ∧
      name.toList.map Char.toLower = name.toList ∧ Text.collapse name.toList = name.toList ∧
      Text.before? ['[', ']'] name.toList = none ∧
      Text.after? "public.".toList name.toList = none ∧ isOther name.toList = true)
    ⟨fun ⟨h1, h2, h3, h4, h5, h6, h7⟩ => ⟨h1, h2, h3, h4, h5, h6, h7⟩,
      fun h => ⟨h.nonempty, h.unquoted, h.lower, h.collapsed, h.scalar, h.unqualified, h.other⟩⟩

theorem IsBareName.isQuotable (h : IsBareName name) (hquote : '"' ∉ name.toList) :
    IsQuotable name :=
  ⟨h.nonempty, h.unquoted, fun hend => hquote (List.mem_of_getLast? hend)⟩

theorem length_dropPublic_le (s : List Char) : (dropPublic s).length ≤ s.length := by
  rw [dropPublic]
  cases h : Text.after? "public.".toList s with
  | none => exact le_rfl
  | some rest =>
    rw [Text.after?_eq_some_iff.1 h, List.length_append]
    exact Nat.le_add_left _ _

theorem toLower_of_mem_collapse {c : Char} (h : c ∈ Text.collapse (s.map Char.toLower)) :
    c.toLower = c := by
  rcases Text.mem_collapse h with rfl | h
  · rfl
  · obtain ⟨d, -, rfl⟩ := List.mem_map.1 h
    exact Text.toLower_toLower d

/-- A text that stands in quotes is longer than the name. -/
theorem length_undouble_le (q : Char) (s : List Char) : (Text.undouble q s).length ≤ s.length := by
  fun_induction Text.undouble q s with
  | case1 c d r h ih => simp; omega
  | case2 c d r h ih => simpa using ih
  | case3 s h => exact le_rfl

theorem length_stripQuotes_lt (h : s.head? = some '"') : (stripQuotes s).length < s.length := by
  obtain ⟨r, rfl⟩ := List.head?_eq_some_iff.1 h
  have hback := ((r.dropWhile (· == '"')).reverse.dropWhile_sublist (· == '"')).length_le
  have hfront := (r.dropWhile_sublist (· == '"')).length_le
  have hstart : ('"' :: r).dropWhile (· == '"') = r.dropWhile (· == '"') :=
    List.dropWhile_cons_of_pos (by decide)
  rw [stripQuotes, hstart, List.length_reverse, List.length_cons]
  rw [List.length_reverse] at hback
  omega

theorem length_foldName_le (s : List Char) : (foldName s).length ≤ s.length := by
  have hdrop := length_dropPublic_le (Text.collapse (s.map Char.toLower))
  have hcollapse := Text.length_collapse_le (s.map Char.toLower)
  rw [List.length_map] at hcollapse
  exact hdrop.trans hcollapse

/-- **A name that folding keeps** is in lower case, has single spaces and no schema. -/
theorem foldName_eq_self_iff :
    foldName s = s ↔ s.map Char.toLower = s ∧ Text.collapse s = s ∧
      Text.after? "public.".toList s = none := by
  constructor
  · intro h
    have hunqualified :
        Text.after? "public.".toList (Text.collapse (s.map Char.toLower)) = none := by
      refine Text.after?_eq_none_iff.2 fun rest hrest => ?_
      -- what is left without the schema is too short
      rw [foldName, dropPublic, Text.after?_eq_some_iff.2 hrest, Option.getD_some] at h
      have hlength := Text.length_collapse_le (s.map Char.toLower)
      rw [hrest, List.length_append, List.length_map, h] at hlength
      have hprefix : "public.".toList.length = 7 := rfl
      omega
    have hsame : Text.collapse (s.map Char.toLower) = s := by
      rwa [foldName, dropPublic, hunqualified, Option.getD_none] at h
    have hlower : s.map Char.toLower = s := by
      refine (List.map_congr_left fun c hc => ?_).trans (List.map_id' _)
      rw [← hsame] at hc
      exact toLower_of_mem_collapse hc
    rw [hlower] at hsame hunqualified
    rw [hsame] at hunqualified
    exact ⟨hlower, hsame, hunqualified⟩
  · rintro ⟨hlower, hcollapsed, hunqualified⟩
    rw [foldName, hlower, hcollapsed, dropPublic, hunqualified, Option.getD_none]

/-- **A name is read as itself exactly when it is bare.** -/
theorem reads_custom_iff : Reads name.toList (custom name) ↔ IsBareName name := by
  constructor
  · intro h
    cases h with
    | name hne hscalar h =>
      have htrim := Text.trim_sublist name.toList
      rcases parseName?_cases h with ⟨hquote, -, heq⟩ | hbuiltin | ⟨hunquoted, hother, heq⟩
      · -- what stands in quotes is shorter than the text
        have hstrip := length_stripQuotes_lt hquote
        have hundouble := length_undouble_le '"' (stripQuotes (Text.trim name.toList))
        have hname := congrArg String.toList (custom.inj heq)
        rw [String.toList_ofList] at hname
        rw [← hname] at hundouble
        have := htrim.length_le
        omega
      · exact hbuiltin.elim
      · have hname := congrArg String.toList (custom.inj heq)
        rw [String.toList_ofList] at hname
        have hfull : Text.trim name.toList = name.toList := by
          have hfold := length_foldName_le (Text.trim name.toList)
          rw [← hname] at hfold
          exact htrim.eq_of_length (le_antisymm htrim.length_le hfold)
        rw [hfull] at hname hother hscalar hunquoted hne
        obtain ⟨hlower, hcollapsed, hunqualified⟩ := foldName_eq_self_iff.1 hname.symm
        exact ⟨fun hempty => hne (hempty ▸ rfl), hunquoted, hlower, hcollapsed, hscalar,
          hunqualified, hname ▸ hother⟩
  · intro h
    have htrim := Text.trim_of_collapse h.collapsed
    have hfold := foldName_eq_self_iff.2 ⟨h.lower, h.collapsed, h.unqualified⟩
    have hne : name.toList ≠ [] := fun hnil => h.nonempty (String.toList_eq_nil_iff.1 hnil)
    rw [reads_iff_of_scalar hne htrim h.scalar,
      parseName?_of_isOther h.unquoted (hfold.symm ▸ h.other), hfold, String.ofList_toList]

/-- What is no letter in lower case is the same in any case. -/
theorem eq_of_toLower_eq {c d : Char} (hc : c.isLower = false) (h : d.toLower = c) : d = c := by
  rcases Text.toLower_cases d with ⟨-, heq⟩ | ⟨hupper, hlower⟩
  · exact heq.symm.trans h
  · have hletter : 97 ≤ c.toNat ∧ c.toNat ≤ 122 := by
      rw [← h, hlower]
      omega
    change (decide (97 ≤ c.toNat) && decide (c.toNat ≤ 122)) = false at hc
    simp only [Bool.and_eq_false_iff, decide_eq_false_iff_not] at hc
    exact (hc.elim (fun hlow => hlow hletter.1) fun hhigh => hhigh hletter.2).elim

/-- Folding a text without quotes and dots gives a bare name, unless that of a built-in type. -/
theorem isBareName_of_foldName (hname : name.toList = foldName (Text.trim s))
    (hne : Text.trim s ≠ []) (hquote : '"' ∉ s) (hdot : '.' ∉ s)
    (hscalar : Text.before? ['[', ']'] (Text.trim s) = none)
    (hother : isOther (foldName (Text.trim s)) = true) : IsBareName name ∧ '"' ∉ name.toList := by
  have hkept : ∀ {c : Char}, c ≠ ' ' → c.isLower = false → c ∉ s →
      c ∉ Text.collapse ((Text.trim s).map Char.toLower) := by
    intro c hspace hlower hc hmem
    obtain ⟨d, hd, heq⟩ := List.mem_map.1 ((Text.mem_collapse hmem).resolve_left hspace)
    obtain rfl := eq_of_toLower_eq hlower heq
    exact hc ((Text.trim_sublist s).subset hd)
  have hnoquote := hkept (by decide) (by decide) hquote
  have hunqualified : Text.after? "public.".toList
      (Text.collapse ((Text.trim s).map Char.toLower)) = none := by
    refine Text.after?_eq_none_iff.2 fun rest hrest => hkept (by decide) (by decide) hdot ?_
    rw [hrest]
    exact List.mem_append_left rest (by decide)
  have hfold : foldName (Text.trim s) = Text.collapse ((Text.trim s).map Char.toLower) := by
    rw [foldName, dropPublic, hunqualified, Option.getD_none]
  have hend : ∀ c ∈ ((Text.trim s).map Char.toLower).getLast?, Text.isBlank c = false := by
    intro c hc
    rw [List.getLast?_map] at hc
    obtain ⟨d, hd, rfl⟩ := Option.map_eq_some_iff.1 hc
    exact Text.isBlank_toLower (Text.getLast?_strip hd)
  rw [hfold] at hname hother
  rw [← hname] at hnoquote hunqualified hother
  refine ⟨⟨fun hempty => ?_, ?_, ?_, ?_, ?_, hunqualified, hother⟩, hnoquote⟩
  · refine Text.collapse_ne_nil (fun hnil => hne (List.map_eq_nil_iff.1 hnil)) hend ?_
    rw [← hname, hempty, String.toList_empty]
  · exact fun hhead => hnoquote (List.mem_of_mem_head? hhead)
  · rw [hname]
    exact (List.map_congr_left fun c hc => toLower_of_mem_collapse hc).trans (List.map_id' _)
  · rw [hname, Text.collapse_collapse]
  · refine Text.before?_eq_none_iff.2 fun r hr => ?_
    obtain ⟨front, hfront⟩ := Text.exists_of_collapse_eq_append (by decide) hend (hname ▸ hr)
    obtain ⟨x, y, hxy, -, hy⟩ := List.map_eq_append_iff.1 hfront
    obtain ⟨a, y, rfl, ha, hy⟩ := List.map_eq_cons_iff.1 hy
    obtain ⟨b, y, rfl, hb, hy⟩ := List.map_eq_cons_iff.1 hy
    rw [List.map_eq_nil_iff.1 hy, eq_of_toLower_eq (by decide) ha,
      eq_of_toLower_eq (by decide) hb] at hxy
    exact Text.before?_eq_none_iff.1 hscalar x hxy

/-- **Custom names that are read from a text without quotes and dots are bare.** -/
theorem Reads.isBareName (h : Reads s t) (hquote : '"' ∉ s) (hdot : '.' ∉ s)
    (hname : t.customName? = some name) : IsBareName name ∧ '"' ∉ name.toList := by
  induction h with
  | @array s inner element h helement ih =>
    have hsub : inner.Sublist s :=
      (List.sublist_append_left inner _).trans (h ▸ Text.trim_sublist s)
    exact ih (fun hmem => hquote (hsub.subset hmem)) (fun hmem => hdot (hsub.subset hmem)) hname
  | @name s t hne hscalar h =>
    rcases parseName?_cases h with ⟨hhead, -⟩ | hbuiltin | ⟨-, hother, rfl⟩
    · exact absurd ((Text.trim_sublist s).subset (List.mem_of_mem_head? hhead)) hquote
    · rw [hbuiltin.customName?] at hname
      cases hname
    · obtain rfl := Option.some.inj hname
      exact isBareName_of_foldName String.toList_ofList hne hquote hdot hscalar hother

/-! ## Names in quotes -/

theorem ends_stripQuotes (s : List Char) :
    (∀ c ∈ (stripQuotes s).head?, c ≠ '"') ∧ ∀ c ∈ (stripQuotes s).getLast?, c ≠ '"' :=
  ⟨fun _ hc => beq_eq_false_iff_ne.1 (Text.head?_strip (p := (· == '"')) hc),
    fun _ hc => beq_eq_false_iff_ne.1 (Text.getLast?_strip (p := (· == '"')) hc)⟩

/-- What is read from quotes can be put in quotes. -/
theorem isQuotable_of_quoted (hne : Text.undouble '"' (stripQuotes s) ≠ []) :
    IsQuotable (String.ofList (Text.undouble '"' (stripQuotes s))) := by
  have hstripped : stripQuotes s ≠ [] := fun h => hne (by rw [h]; rfl)
  obtain ⟨hstart, hending⟩ := ends_stripQuotes s
  refine ⟨fun h => hne (String.ofList_eq_empty_iff.1 h), ?_, ?_⟩ <;> rw [String.toList_ofList]
  · obtain ⟨c, r, hcons⟩ := List.exists_cons_of_ne_nil hstripped
    have hc : c ≠ '"' := hstart c (by rw [hcons]; rfl)
    rw [hcons, Text.undouble_cons_of_ne hc, List.head?_cons]
    exact fun h => hc (Option.some.inj h)
  · obtain ⟨r, c, hconcat⟩ := (List.eq_nil_or_concat (stripQuotes s)).resolve_left hstripped
    rw [List.concat_eq_append] at hconcat
    have hc : c ≠ '"' := hending c (by rw [hconcat]; exact List.getLast?_concat)
    rw [hconcat, Text.undouble_concat hc, List.getLast?_concat]
    exact fun h => hc (Option.some.inj h)

/-- Of a name in quotes only these quotes are stripped. -/
theorem stripQuotes_enclose (h : IsQuotable name) :
    stripQuotes (Text.enclose '"' name.toList) = Text.double '"' name.toList := by
  have hne : name.toList ≠ [] := fun hnil => h.nonempty (String.toList_eq_nil_iff.1 hnil)
  have hstart : (Text.enclose '"' name.toList).dropWhile (· == '"') =
      Text.double '"' name.toList ++ ['"'] := by
    obtain ⟨c, r, hcons⟩ := List.exists_cons_of_ne_nil hne
    have hc : c ≠ '"' := fun heq => h.start (by rw [hcons, heq]; rfl)
    rw [Text.enclose, List.dropWhile_cons_of_pos (by decide), hcons, Text.double, if_neg hc,
      List.cons_append, List.dropWhile_cons_of_neg (by simpa using hc)]
  have hending : (Text.double '"' name.toList).rdropWhile (· == '"') =
      Text.double '"' name.toList := by
    obtain ⟨r, c, hconcat⟩ := (List.eq_nil_or_concat name.toList).resolve_left hne
    rw [List.concat_eq_append] at hconcat
    have hc : c ≠ '"' := fun heq => h.ending (by rw [hconcat, heq]; exact List.getLast?_concat)
    rw [hconcat, Text.double_append, Text.double, if_neg hc, Text.double,
      List.rdropWhile_concat_neg _ _ _ (by simpa using hc)]
  rw [← hending, ← List.rdropWhile_concat_pos (· == '"') _ '"' (by decide), ← hstart]
  rfl

/-- **A name in quotes is read as the name exactly when it can be put in quotes.** -/
theorem reads_quoteIdentifier_iff :
    Reads (Text.quoteIdentifier name).toList (custom name) ↔ IsQuotable name := by
  have htext : (Text.quoteIdentifier name).toList = Text.enclose '"' name.toList :=
    String.toList_ofList
  have hlast : (Text.enclose '"' name.toList).getLast? = some '"' := by
    rw [Text.enclose, ← List.cons_append]
    exact List.getLast?_concat
  rw [htext, reads_iff_of_ends rfl (by decide) hlast (by decide) (by decide),
    parseName?_eq_some_iff]
  constructor
  · rintro (⟨-, hname, heq⟩ | ⟨hunquoted, -⟩)
    · rw [custom.inj heq]
      exact isQuotable_of_quoted hname
    · exact absurd rfl hunquoted
  · intro h
    have hread : Text.undouble '"' (stripQuotes (Text.enclose '"' name.toList)) = name.toList := by
      rw [stripQuotes_enclose h, Text.undouble_double]
    refine .inl ⟨rfl, ?_, ?_⟩ <;> rw [hread]
    · exact fun hnil => h.nonempty (String.toList_eq_nil_iff.1 hnil)
    · rw [String.ofList_toList]

end SchemaPlan.DataType
