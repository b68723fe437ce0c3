import SchemaPlan.Expression.Lexeme
import SchemaPlan.Text.Blank
import SchemaPlan.Text.CaseMap
import SchemaPlan.Text.Digit
import SchemaPlan.Text.Number
import SchemaPlan.Text.WordChar

/-!
# Canonical expressions

A database reports an expression in words of its own: with casts, with parentheses around single
operands, in lower case, with the schema `public` in front of names.  `canonical` folds what an
author wrote and what a database reports into one text.  Quoted tokens are masked first, so only
what stands outside quotes changes:

1. blanks are collapsed, letters become lower case and the qualifier `public.` goes,
2. casts go (`dropCasts`),
3. parentheses around one name, token or number go, until none is left (`dropParens`),
4. blanks at parentheses and commas are made regular (`tidy`),
5. parentheses around the whole go (`stripOuter`),
6. the tokens come back, simple lower case identifiers without their quotes (`unmask`).
-/

set_option autoImplicit false

namespace SchemaPlan.Expression

/-! ## Names -/

/-- A character that may start a simple name. -/
def isNameStart (c : Char) : Bool :=
  c.isLower || c == '_'

/-- A character that may follow in a simple name. -/
def isNameChar (c : Char) : Bool :=
  isNameStart c || c.isDigit

/-- A character that may follow in a qualified name. -/
def isPathChar (c : Char) : Bool :=
  isNameChar c || c == '.'

/-- Whether a text is a simple lower case name. -/
def isSimpleName : List Char → Bool
  | [] => false
  | c :: r => isNameStart c && r.all isNameChar

/-- Drops the qualifier `public.` wherever it starts a word.  `skip` characters are dropped
first; `inWord` tells whether the character before is a word character. -/
def dropPublicFrom : Nat → Bool → List Char → List Char
  | _, _, [] => []
  | skip + 1, _, c :: r => dropPublicFrom skip (Text.isWordChar c) r
  | 0, inWord, c :: r =>
    if !inWord && (Text.after? "public.".toList (c :: r)).isSome then
      dropPublicFrom 6 (Text.isWordChar c) r
    else c :: dropPublicFrom 0 (Text.isWordChar c) r

/-- Drops the qualifier `public.` wherever it starts a word. -/
def dropPublicQualifier (s : List Char) : List Char :=
  dropPublicFrom 0 false s

/-! ## Parts of an expression

Each function takes a part at the start of the text and gives it with the rest. -/

/-- At least one decimal digit. -/
def takeDigits? (s : List Char) : Option (List Char × List Char) :=
  let digits := s.takeWhile Text.isDecimalDigit
  if digits.isEmpty then none else some (digits, s.dropWhile Text.isDecimalDigit)

/-- A marker. -/
def takeMarker? : List Char → Option (List Char × List Char)
  | [] => none
  | c :: r =>
    if c = mark then
      match takeDigits? r with
      | some (digits, d :: rest) =>
        if d = mark then some (c :: digits ++ [d], rest) else none
      | _ => none
    else none

/-- A name that may be qualified. -/
def takePath? : List Char → Option (List Char × List Char)
  | [] => none
  | c :: r =>
    if isNameStart c then some (c :: r.takeWhile isPathChar, r.dropWhile isPathChar) else none

/-- Digits, then maybe a point and digits. -/
def takeDecimal? (s : List Char) : Option (List Char × List Char) :=
  match takeDigits? s with
  | some (whole, '.' :: r) =>
    match takeDigits? r with
    | some (fraction, rest) => some (whole ++ '.' :: fraction, rest)
    | none => some (whole, '.' :: r)
  | found => found

/-- A number: an optional minus sign, digits, then maybe a point and digits. -/
def takeNumber? : List Char → Option (List Char × List Char)
  | '-' :: r => (takeDecimal? r).map fun (number, rest) => ('-' :: number, rest)
  | s => takeDecimal? s

/-- A name, a marker or a number. -/
def takeAtom? (s : List Char) : Option (List Char × List Char) :=
  (takePath? s).or ((takeMarker? s).or (takeNumber? s))

/-! ## Casts -/

/-- The type names of several words. -/
def longTypeNames : List (List Char) :=
  ["character varying".toList, "double precision".toList, "timestamp without time zone".toList,
    "timestamp with time zone".toList, "time without time zone".toList,
    "time with time zone".toList]

/-- The rest behind a type name. -/
def afterTypeName? (s : List Char) : Option (List Char) :=
  (longTypeNames.findSome? fun name => Text.after? name s).or
    (((takeMarker? s).or (takePath? s)).map Prod.snd)

/-- The rest behind one or two numbers in parentheses. -/
def afterModifiers? : List Char → Option (List Char)
  | '(' :: r =>
    match takeDigits? r with
    | some (_, ')' :: rest) => some rest
    | some (_, ',' :: rest) =>
      match takeDigits? (rest.dropWhile Text.isBlank) with
      | some (_, ')' :: rest) => some rest
      | _ => none
    | _ => none
  | _ => none

/-- The rest behind pairs of array brackets. -/
def dropBrackets : List Char → List Char
  | '[' :: ']' :: r => dropBrackets r
  | s => s

/-- The rest behind a cast. -/
def afterCast? (s : List Char) : Option (List Char) :=
  match Text.after? [':', ':'] s with
  | none => none
  | some r => (afterTypeName? r).map fun rest => dropBrackets ((afterModifiers? rest).getD rest)

/-! ## What a part takes is not read again -/

theorem length_takeDigits?_lt {s a b : List Char} (h : takeDigits? s = some (a, b)) :
    b.length < s.length := by
  unfold takeDigits? at h
  have happ := congrArg List.length
    (List.takeWhile_append_dropWhile (p := Text.isDecimalDigit) (l := s))
  simp only [List.length_append] at happ
  simp only [Option.ite_none_left_eq_some, Option.some.injEq, Prod.mk.injEq, List.isEmpty_iff] at h
  obtain ⟨hne, -, rfl⟩ := h
  have := List.length_pos_iff.2 hne
  omega

theorem length_takeMarker?_lt {s a b : List Char} (h : takeMarker? s = some (a, b)) :
    b.length < s.length := by
  unfold takeMarker? at h
  split at h
  · simp at h
  · split at h
    · split at h
      · rename_i hd
        split at h
        · have hlt := length_takeDigits?_lt hd
          simp only [Option.some.injEq, Prod.mk.injEq] at h
          obtain ⟨-, rfl⟩ := h
          simp only [List.length_cons] at hlt ⊢
          omega
        · simp at h
      · simp at h
    · simp at h

theorem length_takePath?_lt {s a b : List Char} (h : takePath? s = some (a, b)) :
    b.length < s.length := by
  unfold takePath? at h
  split at h
  · simp at h
  · rename_i c r
    split at h
    · simp only [Option.some.injEq, Prod.mk.injEq] at h
      obtain ⟨-, rfl⟩ := h
      have := Text.length_dropWhile_le isPathChar r
      simp only [List.length_cons]
      omega
    · simp at h

theorem length_takeDecimal?_lt {s a b : List Char} (h : takeDecimal? s = some (a, b)) :
    b.length < s.length := by
  unfold takeDecimal? at h
  split at h
  · rename_i hd
    have h1 := length_takeDigits?_lt hd
    split at h
    · rename_i hd2
      have h2 := length_takeDigits?_lt hd2
      simp only [Option.some.injEq, Prod.mk.injEq] at h
      obtain ⟨-, rfl⟩ := h
      simp only [List.length_cons] at h1
      omega
    · simp only [Option.some.injEq, Prod.mk.injEq] at h
      obtain ⟨-, rfl⟩ := h
      exact h1
  · exact length_takeDigits?_lt h

theorem length_takeNumber?_lt {s a b : List Char} (h : takeNumber? s = some (a, b)) :
    b.length < s.length := by
  unfold takeNumber? at h
  split at h
  · obtain ⟨⟨number, rest⟩, hd, he⟩ := Option.map_eq_some_iff.1 h
    have h1 := length_takeDecimal?_lt hd
    simp only [Prod.mk.injEq] at he
    obtain ⟨-, rfl⟩ := he
    simp only [List.length_cons]
    omega
  · exact length_takeDecimal?_lt h

theorem length_takeAtom?_lt {s a b : List Char} (h : takeAtom? s = some (a, b)) :
    b.length < s.length := by
  unfold takeAtom? at h
  rcases Option.or_eq_some_iff.1 h with h | ⟨-, h⟩
  · exact length_takePath?_lt h
  · rcases Option.or_eq_some_iff.1 h with h | ⟨-, h⟩
    · exact length_takeMarker?_lt h
    · exact length_takeNumber?_lt h

theorem length_afterTypeName?_le {s r : List Char} (h : afterTypeName? s = some r) :
    r.length ≤ s.length := by
  unfold afterTypeName? at h
  rcases Option.or_eq_some_iff.1 h with h | ⟨-, h⟩
  · obtain ⟨name, -, hn⟩ := List.exists_of_findSome?_eq_some h
    rw [Text.after?_eq_some_iff.1 hn]
    simp
  · obtain ⟨⟨a, b⟩, hp, rfl⟩ := Option.map_eq_some_iff.1 h
    rcases Option.or_eq_some_iff.1 hp with hp | ⟨-, hp⟩
    · exact Nat.le_of_lt (length_takeMarker?_lt hp)
    · exact Nat.le_of_lt (length_takePath?_lt hp)

theorem length_afterModifiers?_lt {s r : List Char} (h : afterModifiers? s = some r) :
    r.length < s.length := by
  unfold afterModifiers? at h
  split at h
  · rename_i t
    split at h
    · rename_i hd
      have h1 := length_takeDigits?_lt hd
      simp only [Option.some.injEq] at h
      subst h
      simp only [List.length_cons] at h1 ⊢
      omega
    · rename_i rest hd
      have h1 := length_takeDigits?_lt hd
      split at h
      · rename_i hd2
        have h2 := length_takeDigits?_lt hd2
        have h3 := Text.length_dropWhile_le Text.isBlank rest
        simp only [Option.some.injEq] at h
        subst h
        simp only [List.length_cons] at h1 h2 ⊢
        omega
      · simp at h
    · simp at h
  · simp at h

theorem length_dropBrackets_le (s : List Char) : (dropBrackets s).length ≤ s.length := by
  fun_induction dropBrackets s with
  | case1 r ih => simp only [List.length_cons]; omega
  | case2 => exact Nat.le_refl _

theorem length_afterCast?_lt {s r : List Char} (h : afterCast? s = some r) :
    r.length < s.length := by
  unfold afterCast? at h
  split at h
  · simp at h
  · rename_i t ht
    obtain ⟨u, hu, rfl⟩ := Option.map_eq_some_iff.1 h
    have h1 := length_afterTypeName?_le hu
    have h2 := length_dropBrackets_le ((afterModifiers? u).getD u)
    have h3 : ((afterModifiers? u).getD u).length ≤ u.length := by
      cases hm : afterModifiers? u with
      | none => simp
      | some v => simpa using Nat.le_of_lt (length_afterModifiers?_lt hm)
    rw [Text.after?_eq_some_iff.1 ht]
    simp only [List.length_append, List.length_cons, List.length_nil]
    omega

/-- Drops the casts. -/
def dropCasts : List Char → List Char
  | [] => []
  | c :: r =>
    match _h : afterCast? (c :: r) with
    | some rest => dropCasts rest
    | none => c :: dropCasts r
termination_by s => s.length
decreasing_by
  · exact length_afterCast?_lt _h
  · simp

/-! ## Parentheses -/

/-- A name, marker or number in parentheses: what they hold, and the rest. -/
def takeGroup? : List Char → Option (List Char × List Char)
  | '(' :: r =>
    match takeAtom? (r.dropWhile Text.isBlank) with
    | none => none
    | some (atom, rest) =>
      match rest.dropWhile Text.isBlank with
      | ')' :: rest => some (atom, rest)
      | _ => none
  | _ => none

theorem length_takeGroup?_lt {s a b : List Char} (h : takeGroup? s = some (a, b)) :
    b.length < s.length := by
  unfold takeGroup? at h
  split at h
  · rename_i r
    split at h
    · simp at h
    · rename_i atom rest hd
      have h1 := length_takeAtom?_lt hd
      have h2 := Text.length_dropWhile_le Text.isBlank r
      have h3 := Text.length_dropWhile_le Text.isBlank rest
      split at h
      · rename_i hb
        simp only [Option.some.injEq, Prod.mk.injEq] at h
        obtain ⟨-, rfl⟩ := h
        rw [hb] at h3
        simp only [List.length_cons] at h3 ⊢
        omega
      · simp at h
  · simp at h

/-- A character before an opening parenthesis that makes it part of a call or of a marker. -/
def bindsParen (c : Char) : Bool :=
  isNameChar c || c == mark

/-- Drops, in one pass, the parentheses around single operands.  `atStart` tells whether nothing
stands before the text. -/
def dropParensOnce (atStart : Bool) : List Char → List Char
  | [] => []
  | c :: r =>
    match _h0 : if atStart then takeGroup? (c :: r) else none with
    | some (atom, rest) => atom ++ dropParensOnce false rest
    | none =>
      match _h1 : if bindsParen c then none else takeGroup? r with
      | some (atom, rest) => c :: (atom ++ dropParensOnce false rest)
      | none => c :: dropParensOnce false r
termination_by s => s.length
decreasing_by
  · split at _h0
    · exact length_takeGroup?_lt _h0
    · simp at _h0
  · split at _h1
    · simp at _h1
    · have := length_takeGroup?_lt _h1
      simp only [List.length_cons]
      omega
  · simp

/-- Drops the parentheses around single operands until a pass changes nothing. -/
def dropParens (s : List Char) : List Char :=
  let t := dropParensOnce true s
  if t.length < s.length then dropParens t else t
termination_by s.length

/-- Makes the blanks at parentheses and commas regular. -/
def tidy (s : List Char) : List Char :=
  let s := Text.replaceAll ['(', ' '] ['('] s
  let s := Text.replaceAll [' ', ')'] [')'] s
  let s := Text.replaceAll [' ', ','] [','] s
  let s := Text.replaceAll [','] [',', ' '] s
  Text.replaceAll [',', ' ', ' '] [',', ' '] s

/-- Whether the parenthesis that opens a text is closed by its last character.  `depth` counts
the open parentheses. -/
def enclosesFrom (depth : Nat) : List Char → Bool
  | [] => depth == 0
  | c :: r =>
    if c = '(' then enclosesFrom (depth + 1) r
    else if c = ')' then
      if depth - 1 = 0 && !r.isEmpty then false else enclosesFrom (depth - 1) r
    else enclosesFrom depth r

/-- What stands between the first and the last character, when they are parentheses that belong
together. -/
def enclosed? : List Char → Option (List Char)
  | '(' :: r =>
    if r.getLast? == some ')' && enclosesFrom 0 ('(' :: r) then some r.dropLast else none
  | _ => none

theorem length_enclosed?_lt {s r : List Char} (h : enclosed? s = some r) :
    r.length < s.length := by
  unfold enclosed? at h
  split at h
  · split at h
    · simp only [Option.some.injEq] at h
      subst h
      simp only [List.length_dropLast, List.length_cons]
      omega
    · simp at h
  · simp at h

/-- Drops the parentheses around the whole text. -/
def stripOuter (s : List Char) : List Char :=
  match _h : enclosed? (Text.trim s) with
  | some inner => stripOuter inner
  | none => Text.trim s
termination_by s.length
decreasing_by
  have h1 := length_enclosed?_lt _h
  have h2 := Text.length_trim_le s
  omega

/-! ## Tokens -/

/-- A token; an identifier that is a simple lower case name loses its quotes. -/
def unquoteName (token : List Char) : List Char :=
  match token with
  | '"' :: r =>
    match Text.before? ['"'] r with
    | some inner => if isSimpleName inner then inner else token
    | none => token
  | _ => token

/-- The token with the number that stands in a marker; the text itself when there is none. -/
def resolveMarker (tokens : List (List Char)) (part : List Char) : List Char :=
  match Text.readNat? part with
  | some n => tokens[n]?.getD part
  | none => part

/-- Puts tokens back: every other piece between the marks is the number of a token. -/
def unmaskPieces (tokens : List (List Char)) : Bool → List (List Char) → List Char
  | _, [] => []
  | true, part :: rest =>
    unquoteName (resolveMarker tokens part) ++ unmaskPieces tokens false rest
  | false, part :: rest => part ++ unmaskPieces tokens true rest

/-- Puts tokens back in place of their markers. -/
def unmask (tokens : List (List Char)) (s : List Char) : List Char :=
  unmaskPieces tokens false (Text.pieces mark s)

/-! ## The canonical form -/

/-- The canonical form of masked text. -/
def canonicalMasked (s : List Char) : List Char :=
  stripOuter (tidy (dropParens (dropCasts (dropPublicQualifier
    (Text.lowercase (Text.collapse s))))))

/-- The canonical form of an expression. -/
def canonicalChars (s : List Char) : List Char :=
  unmask (tokens (lexemes s)) (canonicalMasked (mask (lexemes s)))

/-- The canonical form of an expression. -/
def canonical (expression : String) : String :=
  String.ofList (canonicalChars expression.toList)

/-- The canonical form of a function body: every run of blanks is one space. -/
def canonicalBody (body : String) : String :=
  String.ofList (Text.collapse body.toList)

end SchemaPlan.Expression
