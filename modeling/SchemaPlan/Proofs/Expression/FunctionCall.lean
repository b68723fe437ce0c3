import SchemaPlan.Expression.Calls
import SchemaPlan.Proofs.Expression.CastText
import SchemaPlan.Proofs.Expression.QuotedText

/-!
# Function calls in expressions

The names of called functions are found in one walk over the text, which skips a name together with
the parenthesis behind it and looks back one character.  What it finds is described without the walk:
a call is a maximal run of name characters with a parenthesis behind it and no point in front of it.

* `IsCall`: a part of a text that is a call.
* `callsFrom_eq`: the walk finds the calls position by position.
* `exists_calls`: it finds all calls, in the order of the text.
* `calledFunctions_of_requotes`: what stands between quotes has no influence on it.
-/

set_option autoImplicit false

namespace SchemaPlan.Expression

open Text (isBlank span_append double enclose)

/-! ## Calls in a text -/

/-- A part of a text, with what stands in front of it and behind it. -/
structure Part where
  before : List Char
  name : List Char
  behind : List Char
deriving DecidableEq, Repr

/-- A part of a text is a call: it is a maximal run of name characters and starts with a letter or
an underscore, an opening parenthesis follows, maybe behind blanks, and no point or digit stands in
front. -/
structure IsCall (text : List Char) (part : Part) : Prop where
  whole : part.before ++ (part.name ++ part.behind) = text
  start : ∃ c ∈ part.name.head?, isNameStart c = true
  run : ∀ c ∈ part.name, isNameChar c = true
  left : ∀ c ∈ part.before.getLast?, isNameChar c = false
  right : ∀ c ∈ part.behind.head?, isNameChar c = false
  unqualified : ∀ c ∈ part.before.getLast?, c ≠ '.' ∧ c.isDigit = false
  opens : ∃ blanks rest, part.behind = blanks ++ '(' :: rest ∧ ∀ c ∈ blanks, isBlank c = true

/-- Whether a call starts here; `before` is the character in front. -/
def startsCall (before : Option Char) (s : List Char) : Bool :=
  s.head?.any isNameStart && !before.any (fun c => isNameChar c || c == '.') &&
    ((s.dropWhile isNameChar).dropWhile isBlank).head? == some '('

/-- The calls that start in a text, position by position; `front` is the text in front of it. -/
def callsBehind (front : List Char) : List Char → List Part
  | [] => []
  | c :: r =>
    let later := callsBehind (front ++ [c]) r
    if startsCall front.getLast? (c :: r) then
      ⟨front, (c :: r).takeWhile isNameChar, (c :: r).dropWhile isNameChar⟩ :: later
    else later

section Positions

variable {front s w rest : List Char} {c : Char} {part : Part}

theorem isNameChar_of_isNameStart (h : isNameStart c = true) : isNameChar c = true := by
  rw [isNameChar, h, Bool.true_or]

theorem isNameChar_of_isDigit (h : c.isDigit = true) : isNameChar c = true := by
  rw [isNameChar, h, Bool.or_true]

theorem isNameStart_of_isBlank (h : isBlank c = true) : isNameStart c = false := by
  rw [Bool.eq_false_iff]
  intro hstart
  have hblank := (isNameChar_cases (isNameChar_of_isNameStart hstart)).2
  rw [h] at hblank
  cases hblank

theorem isNameChar_of_head?_dropWhile (h : c ∈ (s.dropWhile isNameChar).head?) :
    isNameChar c = false := by
  have hstop := List.head?_dropWhile_not isNameChar s
  rwa [Option.mem_def.1 h] at hstop

theorem opens_iff : ((rest.dropWhile isBlank).head? == some '(') = true ↔
    ∃ blanks behind, rest = blanks ++ '(' :: behind ∧ ∀ c ∈ blanks, isBlank c = true := by
  rw [beq_iff_eq]
  constructor
  · intro h
    obtain ⟨behind, hbehind⟩ : ∃ behind, rest.dropWhile isBlank = '(' :: behind := by
      cases hdrop : rest.dropWhile isBlank with
      | nil =>
        rw [hdrop] at h
        cases h
      | cons d behind =>
        rw [hdrop] at h
        exact ⟨behind, by rw [Option.some.inj h]⟩
    refine ⟨rest.takeWhile isBlank, behind, ?_, fun c hc => List.mem_takeWhile_imp hc⟩
    rw [← hbehind, List.takeWhile_append_dropWhile]
  · rintro ⟨blanks, behind, rfl, hblanks⟩
    have hstop : ∀ c ∈ ('(' :: behind).head?, isBlank c = false := by
      intro c hc
      obtain rfl := Option.some.inj hc
      decide
    rw [(span_append hblanks hstop).2]
    rfl

theorem startsCall_iff {before : Option Char} : startsCall before s = true ↔
    (∃ c ∈ s.head?, isNameStart c = true) ∧
      (∀ c ∈ before, isNameChar c = false ∧ c ≠ '.') ∧
      ∃ blanks behind, s.dropWhile isNameChar = blanks ++ '(' :: behind ∧
        ∀ c ∈ blanks, isBlank c = true := by
  rw [startsCall, Bool.and_eq_true, Bool.and_eq_true, opens_iff, and_assoc]
  refine and_congr ?_ (and_congr ?_ Iff.rfl)
  · cases s <;> simp
  · cases before <;> simp

/-- A call is found at its position, and its name is the run of name characters there. -/
theorem isCall_iff : IsCall (part.before ++ s) part ↔
    startsCall part.before.getLast? s = true ∧ part.name = s.takeWhile isNameChar ∧
      part.behind = s.dropWhile isNameChar := by
  rw [startsCall_iff]
  constructor
  · intro h
    obtain rfl := List.append_cancel_left h.whole
    obtain ⟨htake, hdrop⟩ := span_append h.run h.right
    refine ⟨⟨?_, fun c hc => ⟨h.left c hc, (h.unqualified c hc).1⟩, ?_⟩, htake.symm, hdrop.symm⟩
    · obtain ⟨c, hc, hstart⟩ := h.start
      exact ⟨c, List.mem_head?_append_of_mem_head? hc, hstart⟩
    · rw [hdrop]
      exact h.opens
  · rintro ⟨⟨⟨c, hc, hstart⟩, hbefore, hopens⟩, hname, hbehind⟩
    refine ⟨?_, ⟨c, ?_, hstart⟩, ?_, fun d hd => (hbefore d hd).1, ?_, ?_, ?_⟩
    · rw [hname, hbehind, List.takeWhile_append_dropWhile]
    · rw [hname]
      cases s with
      | nil => cases hc
      | cons d s =>
        obtain rfl := Option.some.inj hc
        rw [List.takeWhile_cons_of_pos (isNameChar_of_isNameStart hstart)]
        rfl
    · rw [hname]
      exact fun d hd => List.mem_takeWhile_imp hd
    · rw [hbehind]
      exact fun d hd => isNameChar_of_head?_dropWhile hd
    · intro d hd
      obtain ⟨hname, hpoint⟩ := hbefore d hd
      refine ⟨hpoint, Bool.eq_false_iff.2 fun hdigit => ?_⟩
      rw [isNameChar_of_isDigit hdigit] at hname
      cases hname
    · rw [hbehind]
      exact hopens

/-- The calls found behind a text are the calls that start there. -/
theorem mem_callsBehind_iff : part ∈ callsBehind front s ↔
    IsCall (front ++ s) part ∧ front.length ≤ part.before.length := by
  induction s generalizing front with
  | nil =>
    rw [callsBehind, List.append_nil]
    refine iff_of_false List.not_mem_nil ?_
    rintro ⟨h, hlength⟩
    obtain ⟨c, hc, -⟩ := h.start
    have hwhole := congrArg List.length h.whole
    rw [List.length_append, List.length_append] at hwhole
    rw [List.eq_nil_of_length_eq_zero (l := part.name) (by omega)] at hc
    cases hc
  | cons c s ih =>
    have hlater : part ∈ callsBehind (front ++ [c]) s ↔
        IsCall (front ++ c :: s) part ∧ front.length < part.before.length := by
      rw [ih, List.append_assoc, List.length_append, List.length_singleton]
      rfl
    have hhere : part.before = front → (IsCall (front ++ c :: s) part ↔
        startsCall front.getLast? (c :: s) = true ∧
          part = ⟨front, (c :: s).takeWhile isNameChar, (c :: s).dropWhile isNameChar⟩) := by
      rintro rfl
      rw [isCall_iff]
      refine and_congr_right fun _ => ?_
      obtain ⟨before, name, behind⟩ := part
      simp
    have hsame : IsCall (front ++ c :: s) part → part.before.length = front.length →
        part.before = front := by
      intro h hlength
      exact (List.append_inj h.whole hlength).1
    rw [callsBehind]
    constructor
    · intro h
      by_cases hstarts : startsCall front.getLast? (c :: s) = true
      · rw [if_pos hstarts] at h
        rcases List.mem_cons.1 h with rfl | h
        · exact ⟨(hhere rfl).2 ⟨hstarts, rfl⟩, Nat.le_refl _⟩
        · exact (hlater.1 h).imp_right Nat.le_of_lt
      · rw [if_neg hstarts] at h
        exact (hlater.1 h).imp_right Nat.le_of_lt
    · rintro ⟨h, hlength⟩
      rcases Nat.eq_or_lt_of_le hlength with hlength | hlength
      · obtain ⟨hstarts, heq⟩ := (hhere (hsame h hlength.symm)).1 h
        rw [if_pos hstarts, heq]
        exact List.mem_cons_self
      · have hmem := hlater.2 ⟨h, hlength⟩
        split
        · exact List.mem_cons_of_mem _ hmem
        · exact hmem

/-- They are found in the order of the text. -/
theorem pairwise_callsBehind (front s : List Char) :
    (callsBehind front s).Pairwise fun a b => a.before.length < b.before.length := by
  induction s generalizing front with
  | nil => exact .nil
  | cons c s ih =>
    rw [callsBehind]
    split
    · refine List.pairwise_cons.2 ⟨fun part hpart => ?_, ih _⟩
      have hlength := (mem_callsBehind_iff.1 hpart).2
      rw [List.length_append, List.length_singleton] at hlength
      exact hlength
    · exact ih _

/-! ## The walk -/

/-- No call starts inside a run of name characters. -/
theorem callsBehind_run {p : Char} (hp : front.getLast? = some p) (hname : isNameChar p = true)
    (hw : ∀ c ∈ w, isNameChar c = true) :
    callsBehind front (w ++ rest) = callsBehind (front ++ w) rest := by
  induction w generalizing front p with
  | nil => rw [List.nil_append, List.append_nil]
  | cons c w ih =>
    obtain ⟨hc, hw⟩ := List.forall_mem_cons.1 hw
    have hnone : ¬ startsCall front.getLast? (c :: (w ++ rest)) = true := by
      rw [startsCall_iff, hp]
      rintro ⟨-, hbefore, -⟩
      have hfalse := (hbefore p rfl).1
      rw [hname] at hfalse
      cases hfalse
    rw [List.cons_append, callsBehind, if_neg hnone, ih List.getLast?_concat hc hw,
      List.append_assoc, List.singleton_append]

/-- No call starts with a character that starts no name. -/
theorem callsBehind_append (hw : ∀ c ∈ w, isNameStart c = false) :
    callsBehind front (w ++ rest) = callsBehind (front ++ w) rest := by
  induction w generalizing front with
  | nil => rw [List.nil_append, List.append_nil]
  | cons c w ih =>
    obtain ⟨hc, hw⟩ := List.forall_mem_cons.1 hw
    have hnone : ¬ startsCall front.getLast? (c :: (w ++ rest)) = true := by
      rw [startsCall_iff]
      rintro ⟨⟨d, hd, hstart⟩, -⟩
      obtain rfl := Option.some.inj hd
      rw [hc] at hstart
      cases hstart
    rw [List.cons_append, callsBehind, if_neg hnone, ih hw, List.append_assoc,
      List.singleton_append]

/-- Where the walk can stand between two parts of a text: no quote is in the text, and a name that
starts behind a name character stands behind a digit. -/
structure IsStop (front s : List Char) : Prop where
  unquoted : '"' ∉ front ++ s
  apart : ∀ p ∈ front.getLast?, ∀ c ∈ s.head?, isNameChar p = true → isNameStart c = true →
    p.isDigit = true

/-- Where the walk stands, one look back and the parenthesis decide whether a call starts. -/
theorem startsCall_of_isStop (h : IsStop front (c :: s)) (hc : isNameStart c = true) :
    startsCall front.getLast? (c :: s) = true ↔
      front.getLast?.any blocksCall = false ∧
        ((s.dropWhile isNameChar).dropWhile isBlank).head? = some '(' := by
  have hbefore : (∀ p ∈ front.getLast?, isNameChar p = false ∧ p ≠ '.') ↔
      front.getLast?.any blocksCall = false := by
    cases hlast : front.getLast? with
    | none => simp
    | some p =>
      have hquote : p ≠ '"' := by
        rintro rfl
        exact h.unquoted (List.mem_append_left _ (List.mem_of_getLast? hlast))
      have hdigit : isNameChar p = p.isDigit := by
        rw [Bool.eq_iff_iff]
        exact ⟨fun hname => h.apart p hlast c rfl hname hc, isNameChar_of_isDigit⟩
      simp [blocksCall, hquote, hdigit, and_comm]
  rw [startsCall_iff, ← hbefore, ← opens_iff, beq_iff_eq,
    List.dropWhile_cons_of_pos (isNameChar_of_isNameStart hc)]
  exact and_iff_right ⟨c, rfl, hc⟩

/-- At a name, at most one call starts before the end of the name. -/
theorem callsBehind_name (hc : isNameStart c = true) :
    callsBehind front (c :: s) =
      (if startsCall front.getLast? (c :: s) then
        [⟨front, c :: s.takeWhile isNameChar, s.dropWhile isNameChar⟩] else []) ++
      callsBehind (front ++ c :: s.takeWhile isNameChar) (s.dropWhile isNameChar) := by
  have hname := isNameChar_of_isNameStart hc
  have hlater : callsBehind (front ++ [c]) s =
      callsBehind (front ++ c :: s.takeWhile isNameChar) (s.dropWhile isNameChar) := by
    have hrun : callsBehind (front ++ [c]) (s.takeWhile isNameChar ++ s.dropWhile isNameChar) =
        callsBehind (front ++ [c] ++ s.takeWhile isNameChar) (s.dropWhile isNameChar) :=
      callsBehind_run List.getLast?_concat hname fun d hd => List.mem_takeWhile_imp hd
    rwa [List.takeWhile_append_dropWhile, List.append_assoc, List.singleton_append] at hrun
  rw [callsBehind, hlater, List.takeWhile_cons_of_pos hname, List.dropWhile_cons_of_pos hname]
  split <;> rfl

theorem IsStop.move (h : IsStop front (w ++ s))
    (happart : ∀ p ∈ (front ++ w).getLast?, ∀ c ∈ s.head?, isNameChar p = true →
      isNameStart c = true → p.isDigit = true) : IsStop (front ++ w) s where
  unquoted := by
    rw [List.append_assoc]
    exact h.unquoted
  apart := happart

/-- Behind a call's parenthesis the walk stands again. -/
theorem IsStop.behind_parenthesis {behind : List Char} (h : IsStop front (c :: s))
    (hrest : (s.dropWhile isNameChar).dropWhile isBlank = '(' :: behind) : ∃ next,
    IsStop next behind ∧ next.getLast? = some '(' ∧
      callsBehind (front ++ c :: s.takeWhile isNameChar) (s.dropWhile isNameChar) =
        callsBehind next behind := by
  have hblanks : ((s.dropWhile isNameChar).takeWhile isBlank ++ ['(']) ++ behind =
      s.dropWhile isNameChar := by
    rw [List.append_assoc, List.singleton_append, ← hrest, List.takeWhile_append_dropWhile]
  generalize hw : (s.dropWhile isNameChar).takeWhile isBlank ++ ['('] = w at hblanks
  have hstart : ∀ d ∈ w, isNameStart d = false := by
    intro d hd
    rw [← hw, List.mem_append, List.mem_singleton] at hd
    rcases hd with hd | rfl
    · exact isNameStart_of_isBlank (List.mem_takeWhile_imp hd)
    · decide
  have hlast : (front ++ (c :: s.takeWhile isNameChar ++ w)).getLast? = some '(' := by
    rw [← hw, ← List.append_assoc, ← List.append_assoc, List.getLast?_concat]
  have hwhole : c :: s = (c :: s.takeWhile isNameChar ++ w) ++ behind := by
    rw [List.append_assoc, hblanks, List.cons_append, List.takeWhile_append_dropWhile]
  refine ⟨front ++ (c :: s.takeWhile isNameChar ++ w), ?_, hlast, ?_⟩
  · refine IsStop.move (hwhole ▸ h) fun p hp d _ hname _ => ?_
    rw [hlast] at hp
    obtain rfl := Option.some.inj hp
    exact absurd hname (by decide)
  · rw [← hblanks, callsBehind_append hstart, List.append_assoc]

/-- The walk finds the calls position by position. -/
theorem callsFrom_eq (h : IsStop front s) :
    callsFrom front.getLast? s = (callsBehind front s).map Part.name := by
  generalize hbefore : front.getLast? = before
  fun_induction callsFrom before s generalizing front with
  | case1 => rfl
  | case2 before c r hc rest behind hbehind hblocks =>
    rename_i ih
    obtain ⟨next, hnext, hlast, hcalls⟩ := h.behind_parenthesis hbehind
    have hnone : ¬ startsCall front.getLast? (c :: r) = true := by
      rw [startsCall_of_isStop h hc, hbefore, hblocks]
      exact fun hcall => Bool.noConfusion hcall.1
    rw [callsBehind_name hc, if_neg hnone, hcalls, ih hnext hlast, List.nil_append]
  | case3 before c r hc name rest behind hbehind hblocks =>
    rename_i ih
    obtain ⟨next, hnext, hlast, hcalls⟩ := h.behind_parenthesis hbehind
    have hcall : startsCall front.getLast? (c :: r) = true := by
      rw [startsCall_of_isStop h hc, hbefore, Bool.eq_false_iff.2 hblocks]
      exact ⟨rfl, congrArg List.head? hbehind⟩
    rw [callsBehind_name hc, if_pos hcall, hcalls, ih hnext hlast, List.singleton_append,
      List.map_cons]
  | case4 before c r hc name rest hother =>
    rename_i ih
    have hnone : ¬ startsCall front.getLast? (c :: r) = true := by
      rw [startsCall_of_isStop h hc]
      rintro ⟨-, hopens⟩
      cases hdrop : rest.dropWhile isBlank with
      | nil =>
        rw [hdrop] at hopens
        cases hopens
      | cons d behind =>
        rw [hdrop] at hopens
        exact hother behind (by rw [hdrop, Option.some.inj hopens])
    have hlast : (front ++ name).getLast? = name.getLast? :=
      List.getLast?_append_of_ne_nil _ (List.cons_ne_nil _ _)
    have hstop : IsStop (front ++ name) rest := by
      have hwhole : c :: r = name ++ rest := by
        rw [List.cons_append, List.takeWhile_append_dropWhile]
      refine IsStop.move (hwhole ▸ h) fun p _ d hd _ hstart => ?_
      have hend := isNameChar_of_head?_dropWhile hd
      rw [isNameChar_of_isNameStart hstart] at hend
      cases hend
    rw [callsBehind_name hc, if_neg hnone, List.nil_append, ih hstop hlast]
  | case5 before c r hc ih =>
    have hstop : IsStop (front ++ [c]) r := by
      refine IsStop.move (w := [c]) h fun p hp d _ hname _ => ?_
      rw [List.getLast?_concat] at hp
      obtain rfl := Option.some.inj hp
      rw [isNameChar, Bool.eq_false_iff.2 hc, Bool.false_or] at hname
      exact hname
    rw [ih hstop List.getLast?_concat]
    exact congrArg _ (callsBehind_append (w := [c]) (by simpa using hc)).symm

end Positions

/-- The walk finds all calls of a text without quotes, in their order. -/
theorem exists_calls {text : List Char} (h : '"' ∉ text) : ∃ found : List Part,
    (∀ part, part ∈ found ↔ IsCall text part) ∧
      found.Pairwise (fun a b => a.before.length < b.before.length) ∧
      callsFrom none text = found.map Part.name := by
  have hstop : IsStop [] text := ⟨h, fun p hp => by cases hp⟩
  refine ⟨callsBehind [] text, fun part => ?_, pairwise_callsBehind [] text, callsFrom_eq hstop⟩
  rw [mem_callsBehind_iff]
  exact and_iff_left (Nat.zero_le _)

/-! ## Text outside quotes -/

/-- The text in which calls are looked for: in lower case, with a marker in place of every quoted
token, and without the qualifier `public.`. -/
def callText (expression : String) : List Char :=
  dropPublicQualifier (Text.lowercase (mask (lexemes expression.toList)))

theorem quote_not_mem_callText (expression : String) : '"' ∉ callText expression := by
  intro h
  have hlower := (dropPublicFrom_sublist false _).subset h
  have hmask := (Text.lower_of_mem_lowercase hlower).2 (by decide)
  exact absurd (not_isQuote_of_mem_mask '"' hmask) (by decide)

section Requotes

variable {s v : List Char} {front back back' : List Lexeme}

theorem spell_append (a b : List Lexeme) : spell (a ++ b) = spell a ++ spell b := by
  induction a with
  | nil => rfl
  | cons lexeme a ih => cases lexeme <;> simp [spell, ih]

/-- A token that something follows is closed, so it is read again before anything that starts in
the same way. -/
theorem takeQuoted_append_of_head? {q : Char} (hrest : (takeQuoted q s).2 ≠ [])
    (hhead : v.head? = (takeQuoted q s).2.head?) :
    takeQuoted q ((takeQuoted q s).1 ++ v) = ((takeQuoted q s).1, v) := by
  rcases takeQuoted_cases q s with ⟨x, hx⟩ | ⟨hend, -⟩
  · have hnext : v.head? ≠ some q := hhead ▸ head?_takeQuoted q s
    rw [hx, List.append_assoc, takeQuoted_double_append, List.singleton_append,
      takeQuoted_end hnext]
  · exact absurd hend hrest

/-- What is read in front of a place does not depend on what follows there, as long as it starts in
the same way. -/
theorem lexemes_spell_append (hs : lexemes s = front ++ back) (hback : back ≠ [])
    (hhead : v.head? = (spell back).head?) :
    lexemes (spell front ++ v) = front ++ lexemes v := by
  induction front generalizing s with
  | nil => rfl
  | cons lexeme front ih =>
    have hrest : ∀ r, lexemes r = front ++ back →
        r ≠ [] ∧ (spell front ++ v).head? = r.head? := by
      intro r hr
      have hspell := spell_lexemes r
      rw [hr, spell_append] at hspell
      constructor
      · rintro rfl
        rw [lexemes_nil] at hr
        exact hback (List.append_eq_nil_iff.1 hr.symm).2
      · rw [← hspell, List.head?_append, List.head?_append, hhead]
    cases s with
    | nil =>
      rw [lexemes_nil] at hs
      cases hs
    | cons c r =>
      by_cases hc : isQuote c = true
      · rw [lexemes_quote hc, List.cons_append, List.cons.injEq] at hs
        obtain ⟨rfl, hs⟩ := hs
        obtain ⟨hne, hstart⟩ := hrest _ hs
        have htake := takeQuoted_append_of_head? hne hstart
        rw [spell, List.cons_append, List.cons_append, List.append_assoc, lexemes_quote hc, htake,
          ih hs, List.cons_append]
      · rw [Bool.not_eq_true] at hc
        rw [lexemes_char hc, List.cons_append, List.cons.injEq] at hs
        obtain ⟨rfl, hs⟩ := hs
        rw [spell, List.cons_append, lexemes_char hc, ih hs, List.cons_append]

/-- What stands at the end is read on its own. -/
theorem lexemes_spell_of_append (hs : lexemes s = front ++ back) : lexemes (spell back) = back := by
  induction front generalizing s with
  | nil => rw [← List.nil_append back, ← hs, spell_lexemes]
  | cons lexeme front ih =>
    cases s with
    | nil =>
      rw [lexemes_nil] at hs
      cases hs
    | cons c r =>
      rw [lexemes] at hs
      split at hs <;> exact ih (List.cons.inj hs).2

/-- The second text is the first with other content in one pair of quotes. -/
def Requotes (s t : List Char) : Prop :=
  ∃ front q token back content, lexemes s = front ++ .quoted (q :: token) :: back ∧
    t = spell front ++ (enclose q content ++ spell back)

/-- Other content in a pair of quotes changes one token and nothing else. -/
theorem lexemes_of_requotes {t : List Char} (h : Requotes s t) :
    ∃ front old new back, lexemes s = front ++ .quoted old :: back ∧
      lexemes t = front ++ .quoted new :: back := by
  obtain ⟨front, q, token, back, content, hs, rfl⟩ := h
  have hown := lexemes_spell_of_append hs
  have hlater : lexemes (spell back) = back := by
    rw [List.append_cons] at hs
    exact lexemes_spell_of_append hs
  have hquote : isQuote q = true := by
    rw [spell, List.cons_append] at hown
    by_cases hq : isQuote q = true
    · exact hq
    · rw [lexemes_char (Bool.eq_false_iff.2 hq)] at hown
      cases hown
  have hnext : (spell back).head? ≠ some q := by
    rw [spell, List.cons_append, lexemes_quote hquote] at hown
    rw [← (List.cons.inj hown).2, spell_lexemes]
    exact head?_takeQuoted q _
  refine ⟨front, _, enclose q content, back, hs, ?_⟩
  have hread := lexemes_spell_append (v := enclose q content ++ spell back) hs
    (List.cons_ne_nil _ _) rfl
  rw [hread, lexemes_enclose hquote content hnext, hlater]

theorem maskFrom_quoted (n : Nat) (old new : List Char) :
    maskFrom n (front ++ .quoted old :: back) = maskFrom n (front ++ .quoted new :: back) := by
  induction front generalizing n with
  | nil => rfl
  | cons lexeme front ih =>
    cases lexeme with
    | char c => exact congrArg (c :: ·) (ih n)
    | quoted token => exact congrArg (marker n ++ ·) (ih (n + 1))

/-- What stands between quotes has no influence on the calls. -/
theorem calledFunctions_of_requotes {s t : String} (h : Requotes s.toList t.toList) :
    calledFunctions t = calledFunctions s := by
  obtain ⟨front, old, new, back, hs, ht⟩ := lexemes_of_requotes h
  have hmask : mask (lexemes t.toList) = mask (lexemes s.toList) := by
    rw [hs, ht]
    exact maskFrom_quoted 0 new old
  rw [calledFunctions, calledFunctions, hmask]

end Requotes

end SchemaPlan.Expression
