import Mathlib.Data.List.Perm.Basic
import SchemaPlan.Dialect.Statement
import SchemaPlan.Proofs.Text.Blank

/-!
# Arguments without their defaults

A statement that drops a function names its arguments without their defaults.  An argument is a
signature with or without a default, and the argument list is cut at the commas that stand outside
parentheses and single quotes.

* `splitFrom_append`, `splitFrom_append_comma`: the splitter passes over text in which it sees no
  comma, and begins anew behind a comma that it sees.
* `IsBalanced.scan_eq`: the splitter leaves a balanced default in the state in which it entered it.
* `identityPart_append`: what stands before a default is the signature.
* `identityArguments_iff`: the arguments of a dropped function are its signatures exactly when no
  default shows a further argument behind a comma.  A comma in parentheses or in a literal shows
  none.
* `array_default_adds_argument`: a comma between square brackets does.
-/

set_option autoImplicit false

namespace SchemaPlan.Function

open Text (isBlank trim)

/-! ## The state of the splitter -/

/-- The open parentheses and the open literal behind a character. -/
def scanChar (state : Nat × Bool) (c : Char) : Nat × Bool :=
  (if state.2 then state.1 else if c = '(' then state.1 + 1 else if c = ')' then state.1 - 1
    else state.1,
    if c = '\'' then !state.2 else state.2)

/-- The open parentheses and the open literal behind a text. -/
def scan (state : Nat × Bool) (s : List Char) : Nat × Bool :=
  s.foldl scanChar state

@[simp] theorem scan_nil (state : Nat × Bool) : scan state [] = state := rfl

@[simp] theorem scan_cons (state : Nat × Bool) (c : Char) (r : List Char) :
    scan state (c :: r) = scan (scanChar state c) r := rfl

theorem scan_append (state : Nat × Bool) (a b : List Char) :
    scan state (a ++ b) = scan (scan state a) b :=
  List.foldl_append

/-- The parts of a text that is read from a state on. -/
def splitFrom (state : Nat × Bool) (s : List Char) : List (List Char) :=
  splitArgumentsFrom state.1 state.2 s

/-- A comma outside parentheses and literals begins a new part. -/
theorem splitFrom_comma (r : List Char) :
    splitFrom (0, false) (',' :: r) = [] :: splitFrom (0, false) r := by
  simp [splitFrom, splitArgumentsFrom]

theorem splitFrom_ne_nil (state : Nat × Bool) (s : List Char) : splitFrom state s ≠ [] := by
  unfold splitFrom
  cases s with
  | nil => simp [splitArgumentsFrom]
  | cons c r =>
    rw [splitArgumentsFrom]
    split
    · simp
    · dsimp only
      split <;> simp

/-- Any other character goes on with the part. -/
theorem splitFrom_cons {state : Nat × Bool} {c : Char} {r p : List Char} {ps : List (List Char)}
    (hc : ¬ (c = ',' ∧ state = (0, false))) (h : splitFrom (scanChar state c) r = p :: ps) :
    splitFrom state (c :: r) = (c :: p) :: ps := by
  obtain ⟨depth, quoted⟩ := state
  unfold splitFrom scanChar at h
  dsimp only at h
  have hsep : ¬ (decide (c = ',') && !quoted && depth == 0) = true := by
    intro hall
    simp at hall
    exact hc ⟨hall.1.1, by rw [hall.1.2, hall.2]⟩
  unfold splitFrom
  rw [splitArgumentsFrom, if_neg hsep]
  dsimp only
  rw [h]

/-- Text in which no comma is seen goes on with the part. -/
theorem splitFrom_append {state : Nat × Bool} {a b p : List Char} {ps : List (List Char)}
    (ha : splitFrom state a = [a]) (hb : splitFrom (scan state a) b = p :: ps) :
    splitFrom state (a ++ b) = (a ++ p) :: ps := by
  induction a generalizing state with
  | nil => exact hb
  | cons c r ih =>
    have hc : ¬ (c = ',' ∧ state = (0, false)) := by
      rintro ⟨rfl, rfl⟩
      rw [splitFrom_comma] at ha
      simp at ha
    obtain ⟨q, qs, hq⟩ := List.exists_cons_of_ne_nil (splitFrom_ne_nil (scanChar state c) r)
    have hr : splitFrom (scanChar state c) r = [r] := by
      rw [splitFrom_cons hc hq] at ha
      simp only [List.cons.injEq, true_and] at ha
      rw [hq, ha.1, ha.2]
    exact splitFrom_cons hc (ih hr hb)

/-- The splitter begins anew behind a comma that it sees. -/
theorem splitFrom_append_comma {state : Nat × Bool} {a : List Char}
    (h : scan state a = (0, false)) (b : List Char) :
    splitFrom state (a ++ ',' :: b) = splitFrom state a ++ splitFrom (0, false) b := by
  induction a generalizing state with
  | nil =>
    obtain rfl : state = (0, false) := h
    exact splitFrom_comma b
  | cons c r ih =>
    by_cases hc : c = ',' ∧ state = (0, false)
    · obtain ⟨rfl, rfl⟩ := hc
      rw [List.cons_append, splitFrom_comma, splitFrom_comma, ih (by simpa [scanChar] using h),
        List.cons_append]
    · obtain ⟨q, qs, hq⟩ := List.exists_cons_of_ne_nil (splitFrom_ne_nil (scanChar state c) r)
      have hrest : splitFrom (scanChar state c) (r ++ ',' :: b) =
          splitFrom (scanChar state c) r ++ splitFrom (0, false) b := ih h
      rw [hq, List.cons_append] at hrest
      rw [List.cons_append, splitFrom_cons hc hrest, splitFrom_cons hc hq, List.cons_append]

/-! ## Balanced text -/

/-- Text in which parentheses, square brackets and quotes match up.  `commas` tells whether commas
may stand outside parentheses and literals.  A name in double quotes holds no parenthesis and no
apostrophe: the splitter counts these there too. -/
inductive IsBalanced : Bool → List Char → Prop where
  | nil {commas : Bool} : IsBalanced commas []
  | char {commas : Bool} {c : Char} {r : List Char}
    (hc : c ∉ ['(', ')', '[', ']', '\'', '"']) (hcomma : c = ',' → commas = true)
    (h : IsBalanced commas r) : IsBalanced commas (c :: r)
  | literal {commas : Bool} {s r : List Char} (hs : '\'' ∉ s) (h : IsBalanced commas r) :
    IsBalanced commas ('\'' :: (s ++ '\'' :: r))
  | name {commas : Bool} {s r : List Char} (hs : ∀ c ∈ s, c ∉ ['"', '\'', '(', ')'])
    (hcomma : ',' ∈ s → commas = true) (h : IsBalanced commas r) :
    IsBalanced commas ('"' :: (s ++ '"' :: r))
  | parens {commas : Bool} {s r : List Char} (hs : IsBalanced true s) (h : IsBalanced commas r) :
    IsBalanced commas ('(' :: (s ++ ')' :: r))
  | brackets {commas : Bool} {s r : List Char} (hs : IsBalanced commas s)
    (h : IsBalanced commas r) : IsBalanced commas ('[' :: (s ++ ']' :: r))

theorem IsBalanced.append_plain {commas : Bool} {s r : List Char}
    (hs : ∀ c ∈ s, c ∉ ['(', ')', '[', ']', '\'', '"'] ∧ (c = ',' → commas = true))
    (h : IsBalanced commas r) : IsBalanced commas (s ++ r) := by
  induction s with
  | nil => exact h
  | cons c s ih =>
    obtain ⟨hc, hs⟩ := List.forall_mem_cons.1 hs
    exact .char hc.1 hc.2 (ih hs)

theorem IsBalanced.of_plain {commas : Bool} {s : List Char}
    (hs : ∀ c ∈ s, c ∉ ['(', ')', '[', ']', '\'', '"'] ∧ (c = ',' → commas = true)) :
    IsBalanced commas s :=
  s.append_nil ▸ IsBalanced.append_plain hs .nil

/-- Characters other than parentheses and apostrophes leave the state as it is. -/
theorem scanChar_of_plain {state : Nat × Bool} {c : Char} (hc : c ∉ ['\'', '(', ')']) :
    scanChar state c = state := by
  simp only [List.mem_cons, not_or] at hc
  simp [scanChar, hc]

/-- Inside a literal only its end changes the state. -/
theorem scanChar_literal {depth : Nat} {c : Char} (hc : c ≠ '\'') :
    scanChar (depth, true) c = (depth, true) := by
  simp [scanChar, hc]

theorem scan_of_steady {state : Nat × Bool} {s : List Char}
    (hs : ∀ c ∈ s, scanChar state c = state) : scan state s = state := by
  induction s with
  | nil => rfl
  | cons c r ih =>
    obtain ⟨hc, hr⟩ := List.forall_mem_cons.1 hs
    rw [scan_cons, hc, ih hr]

theorem plain_of_name {s : List Char} (hs : ∀ c ∈ s, c ∉ ['"', '\'', '(', ')'])
    (state : Nat × Bool) : ∀ c ∈ s, scanChar state c = state :=
  fun c hc => scanChar_of_plain fun h => hs c hc (List.mem_cons_of_mem _ h)

theorem steady_of_literal {s : List Char} (hs : '\'' ∉ s) (depth : Nat) :
    ∀ c ∈ s, scanChar (depth, true) c = (depth, true) :=
  fun _ hc => scanChar_literal fun heq => hs (heq ▸ hc)

/-- Balanced text leaves the splitter in the state in which it was entered. -/
theorem IsBalanced.scan_eq {commas : Bool} {s : List Char} (h : IsBalanced commas s)
    (depth : Nat) : scan (depth, false) s = (depth, false) := by
  induction h generalizing depth with
  | nil => rfl
  | @char _ c _ hc _ _ ih =>
    have hchar : scanChar (depth, false) c = (depth, false) := scanChar_of_plain (by simp_all)
    rw [scan_cons, hchar, ih]
  | literal hs _ ih =>
    rw [scan_cons, scan_append, scan_cons]
    simp [scanChar, scan_of_steady (steady_of_literal hs depth), ih]
  | name hs _ _ ih =>
    rw [scan_cons, scan_append, scan_cons]
    simp [scanChar, scan_of_steady (plain_of_name hs (depth, false)), ih]
  | parens _ _ ihs ih =>
    rw [scan_cons, scan_append, scan_cons]
    simp [scanChar, ihs, ih]
  | brackets _ _ ihs ih =>
    rw [scan_cons, scan_append, scan_cons]
    simp [scanChar, ihs, ih]

/-! ## Commas that are not seen -/

theorem splitFrom_cons_of_single {state : Nat × Bool} {c : Char} {r : List Char}
    (hc : ¬ (c = ',' ∧ state = (0, false))) (h : splitFrom (scanChar state c) r = [r]) :
    splitFrom state (c :: r) = [c :: r] :=
  splitFrom_cons hc h

/-- No comma is seen in text that keeps the state and holds commas only behind an open parenthesis
or apostrophe. -/
theorem splitFrom_of_steady {state : Nat × Bool} {s : List Char}
    (hs : ∀ c ∈ s, scanChar state c = state) (hcomma : ',' ∈ s → state ≠ (0, false)) :
    splitFrom state s = [s] := by
  induction s with
  | nil => rfl
  | cons c r ih =>
    obtain ⟨hc, hr⟩ := List.forall_mem_cons.1 hs
    refine splitFrom_cons_of_single ?_ ?_
    · rintro ⟨rfl, hzero⟩
      exact hcomma List.mem_cons_self hzero
    · rw [hc]
      exact ih hr fun h => hcomma (List.mem_cons_of_mem c h)

/-- In balanced text no comma is seen when none stands outside parentheses and literals, or when the
text stands in parentheses itself. -/
theorem IsBalanced.splitFrom_eq {commas : Bool} {s : List Char} (h : IsBalanced commas s)
    {depth : Nat} (hdepth : commas = true → depth ≠ 0) : splitFrom (depth, false) s = [s] := by
  have hstate : commas = true → (depth, false) ≠ (0, false) := by simpa using hdepth
  induction h generalizing depth with
  | nil => rfl
  | @char _ c r hc hcomma hr ih =>
    have hchar : scanChar (depth, false) c = (depth, false) := scanChar_of_plain (by simp_all)
    refine splitFrom_cons_of_single ?_ (by rw [hchar]; exact ih hdepth hstate)
    rintro ⟨rfl, hzero⟩
    exact hstate (hcomma rfl) hzero
  | @literal _ s r hs hr ih =>
    have hliteral := steady_of_literal hs depth
    refine splitFrom_cons_of_single (by simp) (splitFrom_append (a := s) ?_ ?_)
    · show splitFrom (depth, true) s = [s]
      exact splitFrom_of_steady hliteral (by simp)
    · show splitFrom (scan (depth, true) s) _ = _
      rw [scan_of_steady hliteral]
      exact splitFrom_cons_of_single (by simp) (ih hdepth hstate)
  | @name _ s r hs hcomma hr ih =>
    have hplain := plain_of_name hs (depth, false)
    refine splitFrom_cons_of_single (by simp) (splitFrom_append (a := s) ?_ ?_)
    · exact splitFrom_of_steady hplain fun h => hstate (hcomma h)
    · show splitFrom (scan (depth, false) s) _ = _
      rw [scan_of_steady hplain]
      exact splitFrom_cons_of_single (by simp) (ih hdepth hstate)
  | @parens _ s r hs hr ihs ih =>
    refine splitFrom_cons_of_single (by simp) (splitFrom_append (a := s) (ihs ?_ ?_) ?_)
    · simp
    · simp
    · show splitFrom (scan (depth + 1, false) s) _ = _
      rw [hs.scan_eq]
      exact splitFrom_cons_of_single (by simp) (ih hdepth hstate)
  | @brackets _ s r hs hr ihs ih =>
    refine splitFrom_cons_of_single (by simp) (splitFrom_append (a := s) (ihs hdepth hstate) ?_)
    show splitFrom (scan (depth, false) s) _ = _
    rw [hs.scan_eq]
    exact splitFrom_cons_of_single (by simp) (ih hdepth hstate)

/-! ## Signatures -/

/-- Whether parentheses match up and commas stand inside them only; `depth` counts the open ones. -/
def commasInside : Nat → List Char → Bool
  | depth, [] => depth == 0
  | depth, c :: r =>
    if c = '(' then commasInside (depth + 1) r
    else if c = ')' then depth != 0 && commasInside (depth - 1) r
    else if c = ',' then depth != 0 && commasInside depth r
    else commasInside depth r

/-- Whether the word `default` stands behind a blank. -/
def mentionsDefault : List Char → Bool
  | [] => false
  | c :: r => (isBlank c && startsWithDefault r) || mentionsDefault r

/-- A mode, a name and a type: parentheses match up and hold all commas, and there is no apostrophe,
no equals sign and no word `default`. -/
structure IsSignature (s : List Char) : Prop where
  commas : commasInside 0 s = true
  quote : '\'' ∉ s
  equals : '=' ∉ s
  default : mentionsDefault s = false

instance (s : List Char) : Decidable (IsSignature s) :=
  decidable_of_iff (commasInside 0 s = true ∧ '\'' ∉ s ∧ '=' ∉ s ∧ mentionsDefault s = false)
    ⟨fun ⟨hcommas, hquote, hequals, hdefault⟩ => ⟨hcommas, hquote, hequals, hdefault⟩,
      fun ⟨hcommas, hquote, hequals, hdefault⟩ => ⟨hcommas, hquote, hequals, hdefault⟩⟩

theorem splitFrom_of_commasInside {depth : Nat} {s : List Char} (hquote : '\'' ∉ s)
    (h : commasInside depth s = true) :
    splitFrom (depth, false) s = [s] ∧ scan (depth, false) s = (0, false) := by
  induction s generalizing depth with
  | nil => exact ⟨rfl, by simpa [commasInside] using h⟩
  | cons c r ih =>
    rw [List.mem_cons, not_or] at hquote
    obtain ⟨depth', hchar, hsep, hr⟩ : ∃ depth', scanChar (depth, false) c = (depth', false) ∧
        ¬ (c = ',' ∧ (depth, false) = (0, false)) ∧ commasInside depth' r = true := by
      have hc : c ≠ '\'' := Ne.symm hquote.1
      rw [commasInside] at h
      split_ifs at h with hopen hclose hcomma
      · exact ⟨depth + 1, by simp [scanChar, hopen], by simp [hopen], h⟩
      · rw [Bool.and_eq_true] at h
        exact ⟨depth - 1, by simp [scanChar, hclose], by simp [hclose], h.2⟩
      · rw [Bool.and_eq_true] at h
        exact ⟨depth, by simp [scanChar, hcomma], by simpa using fun _ => h.1, h.2⟩
      · exact ⟨depth, scanChar_of_plain (by simp [hc, hopen, hclose]), by simp [hcomma], h⟩
    obtain ⟨hsplit, hscan⟩ := ih hquote.2 hr
    refine ⟨splitFrom_cons_of_single hsep (by rw [hchar]; exact hsplit), ?_⟩
    rw [scan_cons, hchar, hscan]

/-! ## What stands before a default -/

theorem startsWithDefault_iff {s : List Char} :
    startsWithDefault s = true ↔ (s.take 7).map Char.toLower = "default".toList ∧
      ∀ c ∈ (s.drop 7).head?, Text.isWordChar c = false := by
  have hword : Text.after? "default".toList ((s.take 7).map Char.toLower) ≠ none ↔
      (s.take 7).map Char.toLower = "default".toList := by
    constructor
    · intro h
      obtain ⟨rest, hrest⟩ := Option.ne_none_iff_exists'.1 h
      have heq := Text.after?_eq_some_iff.1 hrest
      have hlength := congrArg List.length heq
      have hrest0 : rest = [] := by
        rw [← List.length_eq_zero_iff]
        simp at hlength
        omega
      rw [heq, hrest0, List.append_nil]
    · intro h
      rw [h]
      decide
  unfold startsWithDefault
  cases hafter : Text.after? "default".toList ((s.take 7).map Char.toLower) with
  | none =>
    rw [hafter] at hword
    exact iff_of_false Bool.false_ne_true fun h => hword.2 h.1 rfl
  | some rest =>
    rw [hafter] at hword
    rw [← hword]
    cases (s.drop 7).head? <;> simp

/-- A space that follows neither spells the word nor goes on with it. -/
theorem startsWithDefault_append_space (u r : List Char) :
    startsWithDefault (u ++ ' ' :: r) = startsWithDefault u := by
  rcases Nat.lt_or_ge u.length 7 with hlt | hge
  · have hshort : startsWithDefault u = false := by
      rw [Bool.eq_false_iff, Ne, startsWithDefault_iff]
      rintro ⟨htake, -⟩
      have hlength := congrArg List.length htake
      simp at hlength
      omega
    rw [hshort, Bool.eq_false_iff, Ne, startsWithDefault_iff]
    rintro ⟨htake, -⟩
    have hspace : Char.toLower ' ' ∈ "default".toList := by
      rw [← htake]
      refine List.mem_map_of_mem (List.mem_take_iff_getElem.2 ⟨u.length, ?_, ?_⟩)
      · simp
        omega
      · simp
    exact absurd hspace (by decide)
  · rw [Bool.eq_iff_iff, startsWithDefault_iff, startsWithDefault_iff,
      List.take_append_of_le_length hge, List.drop_append_of_le_length hge]
    cases hrest : u.drop 7 with
    | nil => simpa using fun _ => by decide
    | cons c t => simp

theorem mentionsDefault_of_dropWhile {s : List Char} (hblank : s.head?.any isBlank = true)
    (h : startsWithDefault (s.dropWhile isBlank) = true) : mentionsDefault s = true := by
  induction s with
  | nil => simp at hblank
  | cons c r ih =>
    have hc : isBlank c = true := by simpa using hblank
    rw [List.dropWhile_cons_of_pos hc] at h
    rw [mentionsDefault, hc, Bool.true_and, Bool.or_eq_true]
    cases hr : r.head?.any isBlank with
    | true => exact .inr (ih hr h)
    | false =>
      left
      cases r with
      | nil => exact h
      | cons d t =>
        rwa [List.dropWhile_cons_of_neg (by simpa using hr)] at h

/-- Behind a signature only a blank that ends it begins a default. -/
theorem blank_of_startsDefaultClause {s clause : List Char} (hequals : '=' ∉ s)
    (hdefault : mentionsDefault s = false) (hclause : clause = [] ∨ ∃ r, clause = ' ' :: r)
    (hs : s ≠ []) (h : startsDefaultClause (s ++ clause) = true) : ∀ c ∈ s, isBlank c = true := by
  by_contra hother
  have hne : s.dropWhile isBlank ≠ [] := by
    intro hempty
    exact hother fun c hc => List.dropWhile_eq_nil_iff.1 hempty c hc
  obtain ⟨d, t, ht⟩ := List.exists_cons_of_ne_nil hne
  have hd : d ≠ '=' := by
    rintro rfl
    exact hequals ((List.dropWhile_sublist isBlank).subset (ht ▸ List.mem_cons_self))
  have hblanks : (s ++ clause).dropWhile isBlank = s.dropWhile isBlank ++ clause := by
    rw [List.dropWhile_append, ht]
    rfl
  have hword : startsWithDefault (s.dropWhile isBlank ++ clause) =
      startsWithDefault (s.dropWhile isBlank) := by
    rcases hclause with rfl | ⟨r, rfl⟩
    · rw [List.append_nil]
    · exact startsWithDefault_append_space _ r
  simp only [startsDefaultClause, hblanks, hword, List.head?_append_of_ne_nil s hs,
    Bool.or_eq_true] at h
  rcases h with h | h
  · rw [ht] at h
    simp [hd] at h
  · rw [Bool.and_eq_true] at h
    rw [mentionsDefault_of_dropWhile h.1 h.2] at hdefault
    cases hdefault

/-- A signature is kept up to blanks at its end. -/
theorem beforeDefault_append {s clause : List Char} (hequals : '=' ∉ s)
    (hdefault : mentionsDefault s = false)
    (hclause : clause = [] ∨ (∃ r, clause = ' ' :: r) ∧ startsDefaultClause clause = true) :
    ∃ blanks, s = beforeDefault (s ++ clause) ++ blanks ∧ ∀ c ∈ blanks, isBlank c = true := by
  induction s with
  | nil =>
    refine ⟨[], ?_, List.forall_mem_nil _⟩
    rcases hclause with rfl | ⟨⟨r, rfl⟩, hstarts⟩
    · rfl
    · rw [List.nil_append, beforeDefault, if_pos hstarts, List.append_nil]
  | cons c r ih =>
    rw [List.cons_append, beforeDefault]
    split
    · rename_i hstarts
      exact ⟨c :: r, rfl, blank_of_startsDefaultClause hequals hdefault
        (hclause.imp_right And.left) (List.cons_ne_nil c r) hstarts⟩
    · rw [mentionsDefault, Bool.or_eq_false_iff] at hdefault
      obtain ⟨blanks, heq, hblanks⟩ := ih (fun h => hequals (List.mem_cons_of_mem c h)) hdefault.2
      exact ⟨blanks, by rw [List.cons_append, ← heq], hblanks⟩

/-! ## Argument lists -/

/-- What stands between a signature and its default. -/
inductive DefaultSign where
  | word
  | equals
deriving DecidableEq, Repr

def DefaultSign.text : DefaultSign → List Char
  | word => " DEFAULT ".toList
  | equals => " = ".toList

/-- An argument: a mode, a name and a type, and the default that may follow. -/
structure Argument where
  signature : List Char
  default? : Option (DefaultSign × List Char) := none
deriving DecidableEq, Repr

namespace Argument

/-- The default with what introduces it. -/
def clause (a : Argument) : List Char :=
  match a.default? with
  | none => []
  | some (sign, e) => sign.text ++ e

def text (a : Argument) : List Char :=
  a.signature ++ a.clause

/-- The parts that a default shows behind commas. -/
def further (a : Argument) : List (List Char) :=
  match a.default? with
  | none => []
  | some (_, e) => (splitArguments e).tail

end Argument

/-- A part of an argument list without its default. -/
def identityPart (part : List Char) : List Char :=
  trim (beforeDefault part)

/-- The trimmed signatures that are not empty, separated by commas. -/
def signatures (args : List Argument) : String :=
  Text.join ", " (((args.map fun a => trim a.signature).filter fun part => !part.isEmpty).map
    String.ofList)

theorem startsDefaultClause_text (sign : DefaultSign) (e : List Char) :
    startsDefaultClause (sign.text ++ e) = true := by
  cases sign with
  | word =>
    have hword : startsWithDefault ("DEFAULT ".toList ++ e) = true := by
      rw [startsWithDefault_iff]
      exact ⟨by simp, by simp; decide⟩
    have hblank : (DefaultSign.word.text ++ e).dropWhile isBlank = "DEFAULT ".toList ++ e := by
      rfl
    simp only [startsDefaultClause, hblank, hword]
    rfl
  | equals => rfl

theorem text_eq_cons (sign : DefaultSign) (e : List Char) : ∃ r, sign.text ++ e = ' ' :: r := by
  cases sign <;> exact ⟨_, rfl⟩

/-- What stands before a default is the signature. -/
theorem identityPart_append {s clause : List Char} (hs : IsSignature s)
    (hclause : clause = [] ∨ ∃ sign e, clause = DefaultSign.text sign ++ e) :
    identityPart (s ++ clause) = trim s := by
  have hstart : clause = [] ∨ (∃ r, clause = ' ' :: r) ∧ startsDefaultClause clause = true := by
    refine hclause.imp_right ?_
    rintro ⟨sign, e, rfl⟩
    exact ⟨text_eq_cons sign e, startsDefaultClause_text sign e⟩
  obtain ⟨blanks, heq, hblanks⟩ := beforeDefault_append hs.equals hs.default hstart
  conv_rhs => rw [heq]
  rw [identityPart, Text.trim_append_of_blank hblanks]

/-- The parts of an argument: the signature with the start of the default, and what the default
shows behind commas. -/
theorem identityParts_text {a : Argument} (hs : IsSignature a.signature) :
    (splitArguments a.text).map identityPart =
      trim a.signature :: a.further.map identityPart := by
  obtain ⟨hsplit, hscan⟩ := splitFrom_of_commasInside hs.quote hs.commas
  obtain ⟨signature, default?⟩ := a
  cases default? with
  | none =>
    have htext : Argument.text ⟨signature, none⟩ = signature := List.append_nil _
    rw [htext]
    show (splitFrom (0, false) signature).map identityPart = [trim signature]
    rw [hsplit, List.map_singleton, ← List.append_nil signature, identityPart_append hs (.inl rfl),
      List.append_nil]
  | some clause =>
    obtain ⟨sign, e⟩ := clause
    obtain ⟨p, ps, hparts⟩ := List.exists_cons_of_ne_nil (splitFrom_ne_nil (0, false) e)
    have hsteady : ∀ c ∈ sign.text, scanChar (0, false) c = (0, false) := by
      cases sign <;> decide
    have hsign : splitFrom (0, false) (sign.text ++ e) = (sign.text ++ p) :: ps := by
      refine splitFrom_append (splitFrom_of_steady hsteady ?_) ?_
      · cases sign <;> decide
      · rw [scan_of_steady hsteady, hparts]
    have htext : splitFrom (0, false) (signature ++ (sign.text ++ e)) =
        (signature ++ (sign.text ++ p)) :: ps :=
      splitFrom_append hsplit (by rw [hscan, hsign])
    show (splitFrom (0, false) (signature ++ (sign.text ++ e))).map identityPart =
      trim signature :: (splitFrom (0, false) e).tail.map identityPart
    rw [htext, hparts, List.map_cons, identityPart_append hs (.inr ⟨sign, p, rfl⟩), List.tail_cons]

theorem scan_text {a : Argument} (hs : IsSignature a.signature)
    (hdefault : ∀ clause ∈ a.default?, IsBalanced true clause.2) :
    scan (0, false) a.text = (0, false) := by
  obtain ⟨-, hscan⟩ := splitFrom_of_commasInside hs.quote hs.commas
  obtain ⟨signature, default?⟩ := a
  cases default? with
  | none => rw [Argument.text, Argument.clause, List.append_nil, hscan]
  | some clause =>
    obtain ⟨sign, e⟩ := clause
    have hsteady : ∀ c ∈ sign.text, scanChar (0, false) c = (0, false) := by
      cases sign <;> decide
    rw [Argument.text, Argument.clause, scan_append, hscan, scan_append, scan_of_steady hsteady,
      (hdefault (sign, e) rfl).scan_eq]

/-- The parts of the list are the parts of its arguments. -/
theorem splitArguments_texts {args : List Argument} (hne : args ≠ [])
    (hscan : ∀ a ∈ args, scan (0, false) a.text = (0, false)) :
    splitArguments ([','].intercalate (args.map Argument.text)) =
      args.flatMap fun a => splitArguments a.text := by
  induction args with
  | nil => exact absurd rfl hne
  | cons a args ih =>
    obtain ⟨ha, hrest⟩ := List.forall_mem_cons.1 hscan
    cases args with
    | nil => simp
    | cons b args =>
      rw [List.map_cons, List.intercalate_cons_of_ne_nil (by simp), List.flatMap_cons,
        ← ih (List.cons_ne_nil b args) hrest, List.append_assoc]
      exact splitFrom_append_comma ha _

/-! ## Joined parts -/

section Joined

variable {sep : List Char} {short long : List (List Char)}

theorem length_intercalate_cons (part : List Char) (parts : List (List Char)) :
    (sep.intercalate (part :: parts)).length =
      part.length + if parts = [] then 0 else sep.length + (sep.intercalate parts).length := by
  split
  · rename_i h
    rw [h, List.intercalate_singleton, Nat.add_zero]
  · rename_i h
    rw [List.intercalate_cons_of_ne_nil h, List.length_append, List.length_append, Nat.add_assoc]

theorem length_intercalate_le (h : short.Sublist long) :
    (sep.intercalate short).length ≤ (sep.intercalate long).length := by
  induction h with
  | slnil => exact Nat.le_refl _
  | cons part h ih =>
    rw [length_intercalate_cons]
    split
    · rename_i hnil
      rw [hnil, List.sublist_nil] at h
      simp [h]
    · omega
  | @cons_cons short long part h ih =>
    rw [length_intercalate_cons, length_intercalate_cons]
    split
    · split <;> omega
    · rename_i hne
      have hlong : long ≠ [] := fun hnil => hne (List.sublist_nil.1 (hnil ▸ h))
      rw [if_neg hlong]
      omega

/-- A further part that is not empty shows in the joined text. -/
theorem eq_of_intercalate_eq (hsep : sep ≠ []) (hlong : ∀ part ∈ long, part ≠ [])
    (h : short.Sublist long) (heq : sep.intercalate short = sep.intercalate long) :
    short = long := by
  have hlength := congrArg List.length heq
  clear heq
  have hseppos := List.length_pos_iff.2 hsep
  induction h with
  | slnil => rfl
  | @cons short long part h ih =>
    have hle : (sep.intercalate short).length ≤ (sep.intercalate long).length :=
      length_intercalate_le h
    have hpart := List.length_pos_iff.2 (hlong part List.mem_cons_self)
    rw [length_intercalate_cons] at hlength
    split at hlength
    · rename_i hnil
      rw [hnil, List.sublist_nil] at h
      rw [h] at hlength
      simp at hlength
      omega
    · omega
  | @cons_cons short long part h ih =>
    rw [length_intercalate_cons, length_intercalate_cons] at hlength
    congr 1
    by_cases hshort : short = []
    · by_cases hne : long = []
      · rw [hshort, hne]
      · rw [if_pos hshort, if_neg hne] at hlength
        omega
    · have hne : long ≠ [] := fun hnil => hshort (List.sublist_nil.1 (hnil ▸ h))
      rw [if_neg hshort, if_neg hne] at hlength
      exact ih (fun p hp => hlong p (List.mem_cons_of_mem part hp)) (by omega)

end Joined

/-! ## The statement that drops a function -/

theorem toList_join (parts : List (List Char)) :
    (Text.join ", " (parts.map String.ofList)).toList = [',', ' '].intercalate parts := by
  rw [Text.join, String.toList_intercalate, List.map_map]
  congr 1
  simp [Function.comp_def]

/-- The parts of all arguments without their defaults. -/
def keptParts (args : List Argument) : List (List Char) :=
  (args.flatMap fun a => trim a.signature :: a.further.map identityPart).filter fun part =>
    !part.isEmpty

def keptSignatures (args : List Argument) : List (List Char) :=
  (args.map fun a => trim a.signature).filter fun part => !part.isEmpty

theorem keptSignatures_sublist (args : List Argument) :
    (keptSignatures args).Sublist (keptParts args) := by
  refine List.Sublist.filter _ ?_
  induction args with
  | nil => exact List.Sublist.refl []
  | cons a args ih =>
    rw [List.map_cons, List.flatMap_cons, List.cons_append]
    exact (ih.trans (List.sublist_append_right _ _)).cons_cons _

theorem keptSignatures_eq_iff {args : List Argument} :
    keptSignatures args = keptParts args ↔
      ∀ a ∈ args, ∀ part ∈ a.further, identityPart part = [] := by
  have hperm : (keptParts args).Perm (keptSignatures args ++
      (args.flatMap fun a => a.further.map identityPart).filter fun part => !part.isEmpty) := by
    rw [keptSignatures, ← List.filter_append]
    exact ((List.map_append_flatMap_perm args _ _).filter _).symm
  have hempty : keptSignatures args = keptParts args ↔
      ((args.flatMap fun a => a.further.map identityPart).filter fun part => !part.isEmpty) =
        [] := by
    constructor
    · intro h
      have hlength := hperm.length_eq
      rw [← h, List.length_append] at hlength
      exact List.length_eq_zero_iff.1 (by omega)
    · intro h
      have hlength := hperm.length_eq
      rw [h, List.append_nil] at hlength
      exact (keptSignatures_sublist args).eq_of_length hlength.symm
  rw [hempty, List.filter_eq_nil_iff]
  simp only [List.mem_flatMap, List.mem_map, Bool.not_eq_true', List.isEmpty_eq_false_iff]
  constructor
  · intro h a ha part hpart
    exact not_not.1 (h _ ⟨a, ha, part, hpart, rfl⟩)
  · rintro h _ ⟨a, ha, part, hpart, rfl⟩
    exact not_not.2 (h a ha part hpart)

theorem toList_identityArguments {function : Function} {args : List Argument}
    (htext : function.arguments.toList = [','].intercalate (args.map Argument.text))
    (hsig : ∀ a ∈ args, IsSignature a.signature)
    (hscan : ∀ a ∈ args, scan (0, false) a.text = (0, false)) :
    function.identityArguments.toList = [',', ' '].intercalate (keptParts args) := by
  have hparts : ((splitArguments function.arguments.toList).map identityPart).filter
      (fun part => !part.isEmpty) = keptParts args := by
    rw [htext]
    cases args with
    | nil => rfl
    | cons a args =>
      rw [splitArguments_texts (List.cons_ne_nil a args) hscan, List.map_flatMap, keptParts]
      congr 1
      exact List.flatMap_congr fun a ha => identityParts_text (hsig a ha)
  rw [← hparts]
  exact toList_join _

theorem further_eq_nil {a : Argument} (h : ∀ clause ∈ a.default?, IsBalanced false clause.2) :
    a.further = [] := by
  obtain ⟨signature, default?⟩ := a
  cases default? with
  | none => rfl
  | some clause =>
    show (splitFrom (0, false) clause.2).tail = []
    rw [(h clause rfl).splitFrom_eq (by simp), List.tail_cons]

/-- Commas in parentheses and literals are commas. -/
theorem IsBalanced.of_commasInside {s : List Char} (h : IsBalanced false s) :
    IsBalanced true s := by
  generalize hcommas : false = commas at h
  induction h with
  | nil => exact .nil
  | char hc _ _ ih => exact .char hc (fun _ => rfl) (ih hcommas)
  | literal hs _ ih => exact .literal hs (ih hcommas)
  | name hs _ _ ih => exact .name hs (fun _ => rfl) (ih hcommas)
  | parens hs _ _ ih => exact .parens hs (ih hcommas)
  | brackets _ _ ihs ih => exact .brackets (ihs hcommas) (ih hcommas)

/-- **The arguments of a dropped function are its signatures**, exactly when every part that a
default shows behind a comma is empty without its own default.  A default shows no part when all its
commas stand in parentheses and literals. -/
theorem identityArguments_iff (function : Function) (args : List Argument)
    (htext : function.arguments.toList = [','].intercalate (args.map Argument.text))
    (hsig : ∀ a ∈ args, IsSignature a.signature)
    (hdefault : ∀ a ∈ args, ∀ clause ∈ a.default?, IsBalanced true clause.2) :
    (function.identityArguments = signatures args ↔
        ∀ a ∈ args, ∀ part ∈ a.further, identityPart part = []) ∧
      ((∀ a ∈ args, ∀ clause ∈ a.default?, IsBalanced false clause.2) →
        function.identityArguments = signatures args ∧
          Postgres.dropFunction function =
            "DROP FUNCTION " ++ Text.quoteIdentifier function.name ++ "(" ++ signatures args ++
              ")") := by
  have hactual := toList_identityArguments htext hsig fun a ha =>
    scan_text (hsig a ha) (hdefault a ha)
  have hexpected : (signatures args).toList = [',', ' '].intercalate (keptSignatures args) :=
    toList_join _
  have hiff : function.identityArguments = signatures args ↔
      ∀ a ∈ args, ∀ part ∈ a.further, identityPart part = [] := by
    rw [← keptSignatures_eq_iff, ← String.toList_inj, hactual, hexpected]
    constructor
    · intro h
      refine eq_of_intercalate_eq (by simp) (fun part hpart => ?_) (keptSignatures_sublist args)
        h.symm
      simpa using (List.mem_filter.1 hpart).2
    · intro h
      rw [h]
  refine ⟨hiff, fun hinside => ?_⟩
  have hequal := hiff.2 fun a ha part hpart => by
    rw [further_eq_nil (hinside a ha)] at hpart
    cases hpart
  exact ⟨hequal, by rw [Postgres.dropFunction, hequal]⟩

/-- Commas in a literal and in a call. -/
theorem identityArguments_iff_lpad :
    identityArguments { name := "f", arguments := "p text = lpad('a,b', 3), OUT id uuid" } =
        "p text, OUT id uuid" ∧
      Postgres.dropFunction { name := "f", arguments := "p text = lpad('a,b', 3), OUT id uuid" } =
        "DROP FUNCTION \"f\"(p text, OUT id uuid)" := by
  have hinside : IsBalanced true "'a,b', 3".toList :=
    .literal (s := "a,b".toList) (by decide) (.of_plain (s := ", 3".toList) (by decide))
  have hcall : IsBalanced false "lpad('a,b', 3)".toList :=
    .append_plain (s := "lpad".toList) (by decide) (.parens hinside .nil)
  let args : List Argument :=
    [⟨"p text".toList, some (.equals, "lpad('a,b', 3)".toList)⟩, ⟨" OUT id uuid".toList, none⟩]
  have hbalanced : ∀ a ∈ args, ∀ clause ∈ a.default?, IsBalanced false clause.2 := by
    refine List.forall_mem_cons.2 ⟨?_, List.forall_mem_singleton.2 ?_⟩
    · rintro clause ⟨⟩
      exact hcall
    · rintro clause ⟨⟩
  have hsig : ∀ a ∈ args, IsSignature a.signature := by decide
  exact (identityArguments_iff _ args (by decide) hsig fun a ha clause hclause =>
    (hbalanced a ha clause hclause).of_commasInside).2 hbalanced

/-- **A comma between square brackets adds an argument** to the statement that drops a function. -/
theorem array_default_adds_argument :
    IsSignature "a integer[]".toList ∧ IsBalanced true "ARRAY[1, 2]".toList ∧
      identityArguments { name := "f", arguments := "a integer[] DEFAULT ARRAY[1, 2]" } =
        "a integer[], 2]" := by
  refine ⟨by decide, ?_, by decide⟩
  exact .append_plain (s := "ARRAY".toList) (by decide)
    (.brackets (s := "1, 2".toList) (.of_plain (by decide)) .nil)

end SchemaPlan.Function
