import SchemaPlan.Proofs.Text.Escaped
import SchemaPlan.Text.Number
import SchemaPlan.Text.Term

/-!
# Terms are given by their texts

No two terms have one text.  A term starts with a run of letters, digits and underscores, which may be
empty; the sign behind the run tells what kind of term it is, and each kind ends where its last part
ends.  So the end of a term is found whatever stands behind it, as long as that can only stand behind
a term.

* `IsPlain`: words and names are such runs.
* `IsPlain.isGiven`: a term is given by a text that starts with it.
* `text_inj`: no two terms have one text.
* The terms of truth values, numbers, lists and missing values are plain and tell the values apart.
-/

set_option autoImplicit false

namespace SchemaPlan.Text

namespace Bracket

/-- The characters before the parts. -/
def openingChars : Bracket → List Char
  | round => ['(']
  | curly => [' ', '\x7b', ' ']
  | square => ['[']

/-- The characters behind the parts. -/
def closingChars : Bracket → List Char
  | round => [')']
  | curly => [' ', '\x7d']
  | square => [']']

theorem toList_opening (bracket : Bracket) : bracket.opening.toList = bracket.openingChars := by
  cases bracket <;> rfl

theorem toList_closing (bracket : Bracket) : bracket.closing.toList = bracket.closingChars := by
  cases bracket <;> rfl

end Bracket

namespace Term

/-- The characters of a term. -/
def chars (t : Term) : List Char :=
  t.text.toList

/-- The characters of parts, with commas between them. -/
def partChars (parts : List Term) : List Char :=
  (partsText parts).toList

theorem partChars_cons (part : Term) (rest : List Term) : partChars (part :: rest) =
    part.chars ++ ((if rest.isEmpty then [] else [',', ' ']) ++ partChars rest) := by
  rw [partChars, partsText, String.toList_append, String.toList_append, List.append_assoc,
    apply_ite String.toList, String.toList_empty]
  rfl

/-- Whether a character can stand in a word. -/
def isTermChar (c : Char) : Bool :=
  c.isAlphanum || c == '_'

/-- A word that is not empty. -/
structure IsName (text : String) : Prop where
  ne_empty : text ≠ ""
  chars : ∀ c ∈ text.toList, isTermChar c = true

/-- All words and names of a term are such; only several values stand between brackets without a
name. -/
inductive IsPlain : Term → Prop
  | word {text : String} (h : IsName text) : IsPlain (word text)
  | quoted (text : String) : IsPlain (quoted text)
  | labelled {label : String} {value : Term} (h : IsName label) (hvalue : IsPlain value) :
      IsPlain (labelled label value)
  | group {name : String} {bracket : Bracket} {parts : List Term} (h : IsName name)
      (hbracket : bracket ≠ .square) (hparts : ∀ part ∈ parts, IsPlain part) :
      IsPlain (group name bracket parts)
  | several {parts : List Term} (hparts : ∀ part ∈ parts, IsPlain part) :
      IsPlain (group "" .square parts)

/-- What can stand behind a term: nothing, a comma or a closing bracket. -/
inductive Stops : List Char → Prop
  | nothing : Stops []
  | comma (rest : List Char) : Stops (',' :: rest)
  | closing (bracket : Bracket) (rest : List Char) : Stops (bracket.closingChars ++ rest)

/-! ## The start of a term -/

/-- What a term is, as the sign behind its first run tells. -/
inductive Form where
  | word
  | quoted
  | labelled
  | group (bracket : Bracket)

/-- What a term is. -/
def form : Term → Form
  | word _ => .word
  | quoted _ => .quoted
  | labelled _ _ => .labelled
  | group _ bracket _ => .group bracket

/-- The first run of a term. -/
def run : Term → List Char
  | word text => text.toList
  | quoted _ => []
  | labelled label _ => label.toList
  | group name _ _ => name.toList

/-- What stands behind the first run. -/
def behind : Term → List Char
  | word _ => []
  | quoted text => (escaped text).toList
  | labelled _ value => ':' :: ' ' :: value.chars
  | group _ bracket parts => bracket.openingChars ++ (partChars parts ++ bracket.closingChars)

theorem chars_eq (t : Term) : t.chars = t.run ++ t.behind := by
  cases t <;>
    simp [chars, partChars, text, run, behind, Bracket.toList_opening, Bracket.toList_closing]

theorem IsPlain.run {t : Term} (h : t.IsPlain) : ∀ c ∈ t.run, isTermChar c = true := by
  cases h with
  | word hname => exact hname.chars
  | quoted => exact fun _ hc => absurd hc List.not_mem_nil
  | labelled hname => exact hname.chars
  | group hname => exact hname.chars
  | several => exact fun _ hc => absurd hc List.not_mem_nil

/-- The form that a text behind a run shows. -/
def formOf : List Char → Form
  | '"' :: _ => .quoted
  | ':' :: _ => .labelled
  | '(' :: _ => .group .round
  | '[' :: _ => .group .square
  | ' ' :: '\x7b' :: _ => .group .curly
  | _ => .word

theorem formOf_behind {t : Term} {r : List Char} (hr : Stops r) :
    formOf (t.behind ++ r) = t.form := by
  cases t with
  | word text =>
    cases hr with
    | nothing => rfl
    | comma => rfl
    | closing bracket => cases bracket <;> rfl
  | quoted text => simp [behind, escaped, formOf, form]
  | labelled label value => rfl
  | group name bracket parts => cases bracket <;> rfl

theorem not_isTermChar_behind {t : Term} {r : List Char} (hr : Stops r) :
    ∀ c ∈ (t.behind ++ r).head?, isTermChar c = false := by
  intro c hc
  cases t with
  | word text =>
    cases hr with
    | nothing => cases hc
    | comma => cases hc; decide
    | closing bracket => cases bracket <;> cases hc <;> decide
  | quoted text =>
    obtain rfl : '"' = c := by simpa [behind, escaped] using hc
    decide
  | labelled label value => cases hc; decide
  | group name bracket parts => cases bracket <;> cases hc <;> decide

/-- Terms with one text have one form, one run and one text behind it. -/
theorem start_inj {t u : Term} {r s : List Char} (ht : t.IsPlain) (hu : u.IsPlain) (hr : Stops r)
    (hs : Stops s) (h : t.chars ++ r = u.chars ++ s) :
    t.form = u.form ∧ t.run = u.run ∧ t.behind ++ r = u.behind ++ s := by
  rw [chars_eq, chars_eq, List.append_assoc, List.append_assoc] at h
  obtain ⟨htake, hdrop⟩ := span_append ht.run (not_isTermChar_behind (t := t) hr)
  obtain ⟨htake', hdrop'⟩ := span_append hu.run (not_isTermChar_behind (t := u) hs)
  rw [h] at htake hdrop
  have hbehind : t.behind ++ r = u.behind ++ s := hdrop.symm.trans hdrop'
  refine ⟨?_, htake.symm.trans htake', hbehind⟩
  rw [← formOf_behind (t := t) hr, hbehind, formOf_behind hs]

/-! ## Parts -/

theorem IsName.exists_cons {text : String} (h : IsName text) :
    ∃ c rest, text.toList = c :: rest ∧ isTermChar c = true := by
  obtain ⟨c, rest, htext⟩ :=
    List.exists_cons_of_ne_nil fun hnil => h.ne_empty (String.toList_eq_nil_iff.1 hnil)
  exact ⟨c, rest, htext, h.chars c (htext ▸ List.mem_cons_self)⟩

theorem Stops.head {r : List Char} (h : Stops r) : ∀ c ∈ r.head?, c ∈ [',', ')', ' ', ']'] := by
  intro c hc
  cases h with
  | nothing => cases hc
  | comma => cases hc; decide
  | closing bracket => cases bracket <;> cases hc <;> decide

/-- No term starts like something that can only stand behind one. -/
theorem IsPlain.not_stops {t : Term} (h : t.IsPlain) (x : List Char) : ¬ Stops (t.chars ++ x) := by
  intro hstops
  have hname {text : String} (htext : IsName text) (y : List Char) : ¬ Stops (text.toList ++ y) := by
    intro hstops
    obtain ⟨c, rest, hcons, hc⟩ := htext.exists_cons
    have hsigns : ∀ d ∈ [',', ')', ' ', ']'], isTermChar d = false := by decide
    rw [hsigns c (hstops.head c (by rw [hcons]; rfl))] at hc
    cases hc
  rw [chars_eq, List.append_assoc] at hstops
  cases h with
  | word htext => exact hname htext _ hstops
  | quoted text =>
    exact absurd (hstops.head '"' (by simp [Term.run, behind, escaped])) (by decide)
  | labelled htext => exact hname htext _ hstops
  | group htext => exact hname htext _ hstops
  | several => exact absurd (hstops.head '[' rfl) (by decide)

/-- What stands between a part and the next, or the end. -/
theorem stops_behind_part (rest : List Term) (bracket : Bracket) (x : List Char) :
    Stops ((if rest.isEmpty then [] else [',', ' ']) ++
      (partChars rest ++ (bracket.closingChars ++ x))) := by
  cases rest with
  | nil => exact .closing bracket x
  | cons part rest => exact .comma _

/-- A term is given by a text that starts with it. -/
def IsGiven (t : Term) : Prop :=
  ∀ {u : Term} {r s : List Char}, u.IsPlain → Stops r → Stops s → t.chars ++ r = u.chars ++ s →
    t = u ∧ r = s

/-- When each of some parts is given by its text, all of them are. -/
theorem parts_inj {ps qs : List Term} {r s : List Char} {bracket : Bracket}
    (hp : ∀ p ∈ ps, IsGiven p) (hps : ∀ p ∈ ps, IsPlain p) (hqs : ∀ q ∈ qs, IsPlain q)
    (h : partChars ps ++ (bracket.closingChars ++ r) = partChars qs ++ (bracket.closingChars ++ s)) :
    ps = qs ∧ r = s := by
  induction ps generalizing qs with
  | nil =>
    cases qs with
    | nil => exact ⟨rfl, List.append_cancel_left h⟩
    | cons q qs =>
      have hstops : Stops (partChars (q :: qs) ++ (bracket.closingChars ++ s)) := h ▸ .closing bracket r
      rw [partChars_cons, List.append_assoc] at hstops
      exact absurd hstops ((hqs q List.mem_cons_self).not_stops _)
  | cons p ps ih =>
    cases qs with
    | nil =>
      have hstops : Stops (partChars (p :: ps) ++ (bracket.closingChars ++ r)) := h ▸ .closing bracket s
      rw [partChars_cons, List.append_assoc] at hstops
      exact absurd hstops ((hps p List.mem_cons_self).not_stops _)
    | cons q qs =>
      rw [partChars_cons, partChars_cons, List.append_assoc, List.append_assoc, List.append_assoc,
        List.append_assoc] at h
      obtain ⟨rfl, hrest⟩ := hp p List.mem_cons_self (hqs q List.mem_cons_self)
        (stops_behind_part ps bracket r) (stops_behind_part qs bracket s) h
      have hsame : partChars ps ++ (bracket.closingChars ++ r) =
          partChars qs ++ (bracket.closingChars ++ s) := by
        cases ps with
        | nil =>
          cases qs with
          | nil => exact hrest
          | cons q qs => cases bracket <;> cases hrest
        | cons p ps =>
          cases qs with
          | nil => cases bracket <;> cases hrest
          | cons q qs => exact List.append_cancel_left hrest
      obtain ⟨rfl, hbehind⟩ := ih (fun p hmem => hp p (List.mem_cons_of_mem _ hmem))
        (fun p hmem => hps p (List.mem_cons_of_mem _ hmem))
        (fun q hmem => hqs q (List.mem_cons_of_mem _ hmem)) hsame
      exact ⟨rfl, hbehind⟩

theorem group_inj {name : String} {bracket : Bracket} {ps : List Term} {u : Term}
    {r s : List Char} (hp : ∀ p ∈ ps, IsGiven p) (ht : (group name bracket ps).IsPlain)
    (hps : ∀ p ∈ ps, IsPlain p) (hu : u.IsPlain) (hr : Stops r) (hs : Stops s)
    (h : (group name bracket ps).chars ++ r = u.chars ++ s) : group name bracket ps = u ∧ r = s := by
  obtain ⟨hform, hrun, hbehind⟩ := start_inj ht hu hr hs h
  have hgroup {name' : String} {bracket' : Bracket} {qs : List Term}
      (hqs : ∀ q ∈ qs, IsPlain q) (hu : u = group name' bracket' qs) :
      group name bracket ps = u ∧ r = s := by
    subst hu
    obtain rfl : bracket = bracket' := Form.group.inj hform
    obtain rfl : name = name' := String.toList_inj.1 hrun
    rw [behind, behind, List.append_assoc, List.append_assoc, List.append_assoc,
      List.append_assoc] at hbehind
    obtain ⟨rfl, hrest⟩ := parts_inj hp hps hqs (List.append_cancel_left hbehind)
    exact ⟨rfl, hrest⟩
  cases hu with
  | group _ _ hqs => exact hgroup hqs rfl
  | several hqs => exact hgroup hqs rfl
  | _ => cases hform

/-- **A term is given by a text that starts with it.** -/
theorem IsPlain.isGiven {t : Term} (ht : t.IsPlain) : t.IsGiven := by
  induction ht with
  | word hname =>
    intro u r s hu hr hs h
    obtain ⟨hform, hrun, hbehind⟩ := start_inj (.word hname) hu hr hs h
    cases hu with
    | word => exact ⟨congrArg Term.word (String.toList_inj.1 hrun), hbehind⟩
    | _ => cases hform
  | quoted text =>
    intro u r s hu hr hs h
    obtain ⟨hform, -, hbehind⟩ := start_inj (.quoted text) hu hr hs h
    cases hu with
    | quoted =>
      obtain ⟨rfl, hrest⟩ := escaped_append_inj hbehind
      exact ⟨rfl, hrest⟩
    | _ => cases hform
  | labelled hlabel hvalue ih =>
    intro u r s hu hr hs h
    obtain ⟨hform, hrun, hbehind⟩ := start_inj (.labelled hlabel hvalue) hu hr hs h
    cases hu with
    | labelled _ hvalue' =>
      obtain ⟨rfl, hrest⟩ := ih hvalue' hr hs (List.cons.inj (List.cons.inj hbehind).2).2
      obtain rfl := String.toList_inj.1 hrun
      exact ⟨rfl, hrest⟩
    | _ => cases hform
  | group hname hbracket hparts ih =>
    exact group_inj ih (.group hname hbracket hparts) hparts
  | several hparts ih => exact group_inj ih (.several hparts) hparts

/-- No two terms have one text. -/
theorem text_inj {t u : Term} (ht : t.IsPlain) (hu : u.IsPlain) (h : t.text = u.text) : t = u :=
  (ht.isGiven hu .nothing .nothing (by rw [chars, chars, h])).1

/-! ## Common values -/

section Values

variable {α : Type} {f : α → Term}

instance (text : String) : Decidable (IsName text) :=
  decidable_of_iff (text ≠ "" ∧ ∀ c ∈ text.toList, isTermChar c = true)
    ⟨fun h => ⟨h.1, h.2⟩, fun h => ⟨h.1, h.2⟩⟩

@[simp] theorem isPlain_quoted (value : String) : (quoted value).IsPlain :=
  .quoted value

@[simp] theorem isPlain_bool (value : Bool) : (bool value).IsPlain := by
  cases value <;> exact .word (by decide)

@[simp] theorem isPlain_nat (value : Nat) : (nat value).IsPlain := by
  refine .word ⟨fun hempty => ?_, fun c hc => ?_⟩
  · have hnil := congrArg String.toList hempty
    rw [toList_toString] at hnil
    exact Nat.toDigits_ne_nil hnil
  · rw [isTermChar, Char.isAlphanum, isDigit_of_mem_toString hc, Bool.or_true, Bool.true_or]

theorem isPlain_call {name : String} {parts : List Term} (h : IsName name)
    (hparts : ∀ part ∈ parts, part.IsPlain) : (call name parts).IsPlain :=
  .group h (by decide) hparts

theorem isPlain_record {name : String} {fields : List (String × Term)} (h : IsName name)
    (hfields : ∀ field ∈ fields, IsName field.1 ∧ field.2.IsPlain) :
    (record name fields).IsPlain := by
  refine .group h (by decide) fun part hpart => ?_
  obtain ⟨field, hfield, rfl⟩ := List.mem_map.1 hpart
  obtain ⟨hlabel, hvalue⟩ := hfields field hfield
  exact .labelled hlabel hvalue

@[simp] theorem isPlain_list {values : List α} (h : ∀ value ∈ values, (f value).IsPlain) :
    (list f values).IsPlain := by
  refine .several fun part hpart => ?_
  obtain ⟨value, hvalue, rfl⟩ := List.mem_map.1 hpart
  exact h value hvalue

@[simp] theorem isPlain_option (h : ∀ value, (f value).IsPlain) (value : Option α) :
    (option f value).IsPlain := by
  cases value with
  | none => exact .word (by decide)
  | some value => exact isPlain_call (by decide) (by simpa using h value)

@[simp] theorem bool_inj {a b : Bool} : bool a = bool b ↔ a = b := by
  cases a <;> cases b <;> simp [bool]

@[simp] theorem nat_inj {a b : Nat} : nat a = nat b ↔ a = b := by
  refine ⟨fun h => ?_, congrArg nat⟩
  have htext : toString a = toString b := Term.word.inj h
  have hread := readNat?_toString a
  rw [htext, readNat?_toString] at hread
  exact (Option.some.inj hread).symm

@[simp] theorem list_inj {xs ys : List α} (hf : ∀ x ∈ xs, ∀ y ∈ ys, (f x = f y ↔ x = y)) :
    list f xs = list f ys ↔ xs = ys := by
  have hmap : list f xs = list f ys ↔ xs.map f = ys.map f := by simp [list]
  rw [hmap]
  clear hmap
  induction xs generalizing ys with
  | nil => simp [eq_comm]
  | cons x xs ih =>
    cases ys with
    | nil => simp
    | cons y ys =>
      have htail : xs.map f = ys.map f ↔ xs = ys :=
        ih fun x hx y hy => hf x (List.mem_cons_of_mem _ hx) y (List.mem_cons_of_mem _ hy)
      rw [List.map_cons, List.map_cons, List.cons.injEq, List.cons.injEq, htail,
        hf x List.mem_cons_self y List.mem_cons_self]

@[simp] theorem option_inj {x y : Option α} (hf : ∀ a b, f a = f b ↔ a = b) :
    option f x = option f y ↔ x = y := by
  cases x <;> cases y <;> simp [option, call, hf]

end Values

end Term

end SchemaPlan.Text
