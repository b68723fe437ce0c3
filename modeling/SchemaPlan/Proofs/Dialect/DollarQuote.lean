import Mathlib.Data.Fintype.Card
import SchemaPlan.Dialect.Statement
import SchemaPlan.Proofs.Text.Blank
import SchemaPlan.Proofs.Text.Occurrence

/-!
# Function bodies in dollar quotes

The body of a function is written between two copies of a tag.  The search for the tag tries
`$body$`, `$body1$`, `$body2$` and so on until one does not occur in the body.

* `exists_free_tag`: the search ends, after no more rounds than the body has characters.  No two
  tags start at one place, so each tag that occurs takes a place of its own.
* `readDollarQuoted?`: how a literal in dollar quotes is read.
* `createFunction_dollarQuoted`: the tag of a created function occurs at the two ends of the literal
  only, and the literal is read back as the trimmed body between two newlines.
-/

set_option autoImplicit false

namespace SchemaPlan

open Text (occursIn cutAt? trim)

/-! ## Tags -/

/-- What stands between the dollar signs of a tag. -/
def tagName : Nat → List Char
  | 0 => "body".toList
  | n + 1 => "body".toList ++ (toString (n + 1)).toList

/-- A character that the name of a tag may hold. -/
def isTagChar (c : Char) : Bool :=
  c.isAlphanum || c == '_' || 0x80 ≤ c.toNat

theorem toList_dollarTag (n : Nat) : (dollarTag n).toList = '$' :: (tagName n ++ ['$']) := by
  cases n with
  | zero => rfl
  | succ n => simp [dollarTag, tagName, String.toList_append]

theorem isTagChar_of_mem_tagName {n : Nat} {c : Char} (h : c ∈ tagName n) : isTagChar c = true := by
  have hword : ∀ c ∈ "body".toList, isTagChar c = true := by decide
  cases n with
  | zero => exact hword c h
  | succ n =>
    rcases List.mem_append.1 h with h | h
    · exact hword c h
    · have hdigit := Text.isDigit_of_mem_toString h
      simp [isTagChar, Char.isAlphanum, hdigit]

theorem not_mem_tagName {n : Nat} {c : Char} (h : isTagChar c = false) : c ∉ tagName n := by
  intro hc
  rw [isTagChar_of_mem_tagName hc] at h
  cases h

theorem head?_tagName (n : Nat) : (tagName n).head? = some 'b' := by
  cases n <;> rfl

theorem tagName_inj {m n : Nat} (h : tagName m = tagName n) : m = n := by
  have hdigits : ∀ n : Nat, (toString (n + 1)).toList ≠ [] := by
    intro n hnil
    have hread := Text.readNat?_toString (n + 1)
    rw [hnil] at hread
    cases hread
  cases m with
  | zero =>
    cases n with
    | zero => rfl
    | succ n => exact absurd (List.self_eq_append_right.1 h) (hdigits n)
  | succ m =>
    cases n with
    | zero => exact absurd (List.self_eq_append_right.1 h.symm) (hdigits m)
    | succ n =>
      have hread := congrArg Text.readNat? (List.append_cancel_left h)
      rw [Text.readNat?_toString, Text.readNat?_toString] at hread
      exact Option.some.inj hread

/-- No tag is the start of another. -/
theorem dollarTag_append_inj {m n : Nat} {x y : List Char}
    (h : (dollarTag m).toList ++ x = (dollarTag n).toList ++ y) : m = n := by
  have hcut : ∀ (k : Nat) (z : List Char),
      Text.cut? '$' (tagName k ++ '$' :: z) = some (tagName k, z) :=
    fun k z => Text.cut?_append (not_mem_tagName (by decide)) z
  simp only [toList_dollarTag, List.cons_append, List.append_assoc, List.nil_append,
    List.cons.injEq, true_and] at h
  have hsame := hcut m x
  rw [h, hcut n y] at hsame
  simp only [Option.some.injEq, Prod.mk.injEq] at hsame
  exact tagName_inj hsame.1.symm

/-! ## The search for a free tag -/

/-- Tags that occur take places of their own, so there are no more of them than characters. -/
theorem le_length_of_occur {body : List Char} {n : Nat}
    (h : ∀ m < n, occursIn (dollarTag m).toList body = true) : n ≤ body.length := by
  have hplace : ∀ m : Fin n, ∃ i : Fin body.length, ∃ r,
      body.drop i = (dollarTag m).toList ++ r := by
    intro m
    obtain ⟨a, b, hbody⟩ := Text.occursIn_iff.1 (h m m.isLt)
    have hlt : a.length < body.length := by
      simp only [hbody, toList_dollarTag, List.length_append, List.length_cons]
      omega
    exact ⟨⟨a.length, hlt⟩, b, by simp [hbody]⟩
  choose place rest hrest using hplace
  have hinj : Function.Injective place := by
    intro m k heq
    have htags := hrest m
    rw [heq, hrest k] at htags
    exact Fin.ext (dollarTag_append_inj htags.symm)
  simpa using Fintype.card_le_of_injective place hinj

/-- The search from a number on ends at the first free tag, when there is fuel up to it. -/
theorem freeTagFrom_eq {body : List Char} {fuel n k : Nat}
    (hbusy : ∀ m, k ≤ m → m < n → occursIn (dollarTag m).toList body = true)
    (hfree : occursIn (dollarTag n).toList body = false) (hk : k ≤ n) (hfuel : n ≤ k + fuel) :
    freeTagFrom body fuel k = dollarTag n := by
  induction fuel generalizing k with
  | zero =>
    obtain rfl : k = n := by omega
    rfl
  | succ fuel ih =>
    unfold freeTagFrom
    by_cases heq : k = n
    · rw [heq, hfree]
      rfl
    · rw [hbusy k (Nat.le_refl k) (by omega), if_pos rfl]
      exact ih (fun m hm hlt => hbusy m (by omega) hlt) (by omega) (by omega)

/-- **The search for a free tag ends**: some tag is free and all before it occur; there are no more
of them than characters, so the search finds it with any fuel from that number on. -/
theorem exists_free_tag (body : String) :
    ∃ n, n ≤ body.length ∧ (∀ m < n, occursIn (dollarTag m).toList body.toList = true) ∧
      occursIn (dollarTag n).toList body.toList = false ∧
      ∀ fuel, body.length ≤ fuel → freeTagFrom body.toList fuel 0 = dollarTag n := by
  have hexists : ∃ n, occursIn (dollarTag n).toList body.toList = false := by
    by_contra hnone
    have hall : ∀ m < body.length + 1, occursIn (dollarTag m).toList body.toList = true := by
      intro m _
      by_contra hfree
      exact hnone ⟨m, Bool.eq_false_iff.2 hfree⟩
    have hle := le_length_of_occur hall
    rw [String.length_toList] at hle
    omega
  have hbusy : ∀ m < Nat.find hexists, occursIn (dollarTag m).toList body.toList = true := by
    intro m hm
    exact Bool.of_not_eq_false (Nat.find_min hexists hm)
  have hle := le_length_of_occur hbusy
  rw [String.length_toList] at hle
  refine ⟨Nat.find hexists, hle, hbusy, Nat.find_spec hexists, fun fuel hfuel => ?_⟩
  exact freeTagFrom_eq (fun m _ hlt => hbusy m hlt) (Nat.find_spec hexists) (by omega) (by omega)

/-! ## The literal -/

/-- What a literal in dollar quotes holds, and the text behind it.  The tag reaches to the second
dollar sign, and the literal to the next occurrence of the tag. -/
def readDollarQuoted? : List Char → Option (List Char × List Char)
  | '$' :: r =>
    match Text.cut? '$' r with
    | some (name, behind) =>
      if name.all isTagChar && !name.head?.any Char.isDigit then
        cutAt? ('$' :: (name ++ ['$'])) behind
      else none
    | none => none
  | _ => none

theorem readDollarQuoted?_dollarTag (n : Nat) (s : List Char) :
    readDollarQuoted? ((dollarTag n).toList ++ s) = cutAt? (dollarTag n).toList s := by
  have hcut : Text.cut? '$' (tagName n ++ '$' :: s) = some (tagName n, s) :=
    Text.cut?_append (not_mem_tagName (by decide)) s
  have hname : (tagName n).all isTagChar = true :=
    List.all_eq_true.2 fun c hc => isTagChar_of_mem_tagName hc
  rw [toList_dollarTag]
  simp [readDollarQuoted?, hcut, hname, head?_tagName]

/-- A tag that does not occur in a text occurs at the two ends of the literal only. -/
theorem ends_of_occurrence {n : Nat} {text a b : List Char}
    (hfree : occursIn (dollarTag n).toList text = false)
    (h : (dollarTag n).toList ++ ('\n' :: (text ++ ['\n'])) ++ (dollarTag n).toList =
      a ++ (dollarTag n).toList ++ b) :
    a = [] ∨ a = (dollarTag n).toList ++ ('\n' :: (text ++ ['\n'])) ∧ b = [] := by
  have hnewline : '\n' ∉ (dollarTag n).toList := by
    rw [toList_dollarTag]
    simp [not_mem_tagName (show isTagChar '\n' = false by decide)]
  rw [List.append_assoc, List.cons_append] at h
  rcases Text.occurrence_cases hnewline h with ⟨r, htag⟩ | ⟨r, rfl, hrest⟩
  · left
    have hlength := congrArg List.length htag
    simp only [List.length_append] at hlength
    exact List.length_eq_zero_iff.1 (by omega)
  · right
    rw [List.append_assoc, List.singleton_append] at hrest
    rcases Text.occurrence_cases hnewline hrest with ⟨r', htext⟩ | ⟨r', rfl, htag⟩
    · rw [Text.occursIn_iff.2 ⟨r, r', htext⟩] at hfree
      cases hfree
    · have hlength := congrArg List.length htag
      simp only [List.length_append] at hlength
      obtain rfl := List.length_eq_zero_iff.1 (show r'.length = 0 by omega)
      obtain rfl := List.length_eq_zero_iff.1 (show b.length = 0 by omega)
      simp

/-- **The body of a created function never escapes its dollar quotes.**  The search for its tag ends
with a tag that does not occur in the body.  The statement ends in a literal in which the tag occurs
at the two ends only, and which is read back as the trimmed body between two newlines. -/
theorem createFunction_dollarQuoted (function : Function) :
    ∃ n head, n ≤ function.body.length ∧
      (∀ m < n, occursIn (dollarTag m).toList function.body.toList = true) ∧
      occursIn (dollarTag n).toList function.body.toList = false ∧
      freeTag function.body = dollarTag n ∧
      let tag := (dollarTag n).toList
      let content := '\n' :: (trim function.body.toList ++ ['\n'])
      (Postgres.createFunction function).toList =
        head ++ "\nAS ".toList ++ (tag ++ content ++ tag) ∧
      (∀ a b, tag ++ content ++ tag = a ++ tag ++ b → a = [] ∨ a = tag ++ content ∧ b = []) ∧
      readDollarQuoted? (tag ++ content ++ tag) = some (content, []) := by
  obtain ⟨n, hle, hbusy, hfree, hfuel⟩ := exists_free_tag function.body
  have htag : freeTag function.body = dollarTag n := hfuel _ (Nat.le_refl _)
  have htrimmed : occursIn (dollarTag n).toList (trim function.body.toList) = false := by
    rw [Bool.eq_false_iff]
    intro hoccurs
    obtain ⟨a, b, htrim⟩ := Text.occursIn_iff.1 hoccurs
    obtain ⟨u, v, hbody⟩ := Text.trim_isInfix function.body.toList
    have hbody' : occursIn (dollarTag n).toList function.body.toList = true :=
      Text.occursIn_iff.2 ⟨u ++ a, b ++ v, by rw [← hbody, htrim]; simp⟩
    rw [hbody'] at hfree
    cases hfree
  have hends := fun a b => ends_of_occurrence (a := a) (b := b) htrimmed
  obtain ⟨head, hhead⟩ : ∃ head : String, Postgres.createFunction function =
      head ++ "\nAS " ++ dollarTag n ++ "\n" ++ Text.trimmed function.body ++ "\n" ++ dollarTag n :=
    ⟨_, by unfold Postgres.createFunction; rw [htag]⟩
  refine ⟨n, head.toList, hle, hbusy, hfree, htag, ?_, hends, ?_⟩
  · rw [hhead]
    simp [String.toList_append, Text.trimmed]
  · rw [List.append_assoc, readDollarQuoted?_dollarTag]
    have hcut : cutAt? (dollarTag n).toList
        ('\n' :: (trim function.body.toList ++ ['\n']) ++ (dollarTag n).toList ++ []) =
          some ('\n' :: (trim function.body.toList ++ ['\n']), []) := by
      refine Text.cutAt?_of_first fun a b heq => ?_
      rcases hends ((dollarTag n).toList ++ a) b (by simpa using heq) with hnil | ⟨ha, -⟩
      · simp [toList_dollarTag] at hnil
      · simp [List.append_cancel_left ha]
    simpa using hcut

end SchemaPlan
