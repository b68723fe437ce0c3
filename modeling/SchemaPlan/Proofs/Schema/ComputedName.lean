import SchemaPlan.Schema.Naming

/-!
# Computed names tell definitions apart

A computed name is a tag and the start of a digest.  What is digested determines the table and the
definition, so two definitions of one name are a collision of the digest.

* `Naming.preimage_inj`: parts without the separator are given by the text that joins them.
* `ConstraintKind.sameDefinition_of_nameParts`: the parts determine the definition.  Those of a foreign
  key are two lists of columns around a table; as both have one length, the table stands in the
  middle.
* `ConstraintKind.computedName_exact`: two constraints digest one text under one tag, or get one
  name, just as they should.
-/

set_option autoImplicit false

namespace SchemaPlan

namespace Naming

/-- The table and the parts are free of the separator. -/
def IsSeparable (table : String) (parts : List String) : Prop :=
  ∀ part ∈ table :: parts, separator ∉ part.toList

instance (table : String) (parts : List String) : Decidable (IsSeparable table parts) :=
  inferInstanceAs (Decidable (∀ part ∈ table :: parts, separator ∉ part.toList))

/-- The bytes that are digested. -/
def digestedBytes (table : String) (parts : List String) : ByteArray :=
  (preimage table parts).toUTF8

/-- The digits of their digest that enter a name. -/
def digits (table : String) (parts : List String) : List Char :=
  (Text.hex (Digest.Sha256.digest (digestedBytes table parts))).toList.take digestLength

variable {t u : String} {xs ys : List String}

theorem splitOn_preimage (h : IsSeparable t xs) :
    (preimage t xs).toList.splitOn separator = (t :: xs).map String.toList := by
  rw [preimage, Text.join, String.toList_intercalate, String.toList_singleton]
  refine List.splitOn_intercalate separator (fun part hpart => ?_) (List.cons_ne_nil _ _)
  obtain ⟨text, htext, rfl⟩ := List.mem_map.1 hpart
  exact h text htext

/-- Parts without the separator are given by the text that joins them. -/
theorem preimage_inj (ht : IsSeparable t xs) (hu : IsSeparable u ys)
    (h : preimage t xs = preimage u ys) : t = u ∧ xs = ys := by
  have hlists : (t :: xs).map String.toList = (u :: ys).map String.toList := by
    rw [← splitOn_preimage ht, ← splitOn_preimage hu, h]
  exact List.cons.inj ((List.map_inj_right fun _ _ => String.toList_inj.1).1 hlists)

/-- So they are by the bytes of the text. -/
theorem digestedBytes_inj (ht : IsSeparable t xs) (hu : IsSeparable u ys) :
    digestedBytes t xs = digestedBytes u ys ↔ t = u ∧ xs = ys := by
  constructor
  · intro h
    rw [digestedBytes, digestedBytes, String.toUTF8_eq_toByteArray, String.toUTF8_eq_toByteArray,
      String.toByteArray_inj] at h
    exact preimage_inj ht hu h
  · rintro ⟨rfl, rfl⟩
    rfl

end Naming

namespace ConstraintKind

open Naming

variable {k l : ConstraintKind} {t u : String}

/-- Constraints of one kind on the same columns, a foreign key with the same target.  Checks are the
same when their expressions have one canonical form. -/
inductive SameDefinition : ConstraintKind → ConstraintKind → Prop where
  | primaryKey (columns : List String) :
    SameDefinition (.primaryKey columns) (.primaryKey columns)
  | unique (columns : List String) : SameDefinition (.unique columns) (.unique columns)
  | check {a b : String} : Expression.canonical a = Expression.canonical b →
    SameDefinition (.check a) (.check b)
  | foreignKey {a b : ForeignKey} : a.columns = b.columns →
    a.referencesTable = b.referencesTable → a.referencesColumns = b.referencesColumns →
      SameDefinition (.foreignKey a) (.foreignKey b)

/-- A foreign key references as many columns as it has. -/
def IsBalanced : ConstraintKind → Prop
  | foreignKey key => key.columns.length = key.referencesColumns.length
  | _ => True

/-- A definition that its name can depend on: no name in it holds the separator, nor does the
canonical form of its expression. -/
structure IsNameable (kind : ConstraintKind) (table : String) : Prop where
  separable : IsSeparable table kind.nameParts
  balanced : kind.IsBalanced

/-- Two definitions of one kind whose digests begin alike though different bytes are digested. -/
structure Collide (t : String) (k : ConstraintKind) (u : String) (l : ConstraintKind) : Prop where
  tag : k.tag = l.tag
  bytes : digestedBytes t k.nameParts ≠ digestedBytes u l.nameParts
  digits : digits t k.nameParts = digits u l.nameParts

/-- The middle of the parts of a foreign key is the table. -/
theorem parts_inj {as bs cs ds : List String} (hab : as.length = bs.length)
    (hcd : cs.length = ds.length) (h : as ++ t :: bs = cs ++ u :: ds) :
    as = cs ∧ t = u ∧ bs = ds := by
  have hlength := congrArg List.length h
  simp only [List.length_append, List.length_cons] at hlength
  obtain ⟨hfront, hback⟩ := List.append_inj h (by omega)
  obtain ⟨hmiddle, hrest⟩ := List.cons.inj hback
  exact ⟨hfront, hmiddle, hrest⟩

/-- The parts determine the definition. -/
theorem sameDefinition_of_nameParts (hk : k.IsBalanced) (hl : l.IsBalanced)
    (htag : k.tag = l.tag) (h : k.nameParts = l.nameParts) : k.SameDefinition l := by
  cases k with
  | primaryKey columns =>
    cases l with
    | primaryKey columns' =>
      have hcolumns : columns = columns' := h
      rw [hcolumns]
      exact .primaryKey columns'
    | _ => exact absurd htag (by simp [tag])
  | unique columns =>
    cases l with
    | unique columns' =>
      have hcolumns : columns = columns' := h
      rw [hcolumns]
      exact .unique columns'
    | _ => exact absurd htag (by simp [tag])
  | check expression =>
    cases l with
    | check expression' => exact .check (List.cons.inj h).1
    | _ => exact absurd htag (by simp [tag])
  | foreignKey key =>
    cases l with
    | foreignKey key' =>
      obtain ⟨hcolumns, htable, hreferences⟩ := parts_inj hk hl h
      exact .foreignKey hcolumns htable hreferences
    | _ => exact absurd htag (by simp [tag])

theorem SameDefinition.tag_eq (h : k.SameDefinition l) : k.tag = l.tag := by
  cases h <;> rfl

theorem SameDefinition.nameParts_eq (h : k.SameDefinition l) : k.nameParts = l.nameParts := by
  cases h with
  | check hcanonical => rw [nameParts, nameParts, hcanonical]
  | foreignKey hcolumns htable hreferences =>
    rw [nameParts, nameParts, hcolumns, htable, hreferences]
  | _ => rfl

/-- What is digested under a tag determines the table and the definition. -/
theorem digestedBytes_eq_iff (hk : k.IsNameable t) (hl : l.IsNameable u) :
    k.tag = l.tag ∧ digestedBytes t k.nameParts = digestedBytes u l.nameParts ↔
      t = u ∧ k.SameDefinition l := by
  rw [digestedBytes_inj hk.separable hl.separable]
  constructor
  · rintro ⟨htag, htable, hparts⟩
    exact ⟨htable, sameDefinition_of_nameParts hk.balanced hl.balanced htag hparts⟩
  · rintro ⟨htable, hsame⟩
    exact ⟨hsame.tag_eq, htable, hsame.nameParts_eq⟩

/-- Tags differ in their first character. -/
theorem tag_append_inj {x y : String} : k.tag ++ x = l.tag ++ y ↔ k.tag = l.tag ∧ x = y := by
  cases k <;> cases l <;> simp [tag, ← String.toList_inj]

/-- A name shows its tag and its digits. -/
theorem computedName_eq_iff : k.computedName t = l.computedName u ↔
    k.tag = l.tag ∧ digits t k.nameParts = digits u l.nameParts := by
  rw [computedName, computedName, tagged, tagged, tag_append_inj, String.ofList_inj]
  exact Iff.rfl

/-- **What a computed name is made of determines the table and the definition.**  So two definitions
have one name if they are the same, or else they are a collision of the digest. -/
theorem computedName_exact (hk : k.IsNameable t) (hl : l.IsNameable u) :
    (k.tag = l.tag ∧ digestedBytes t k.nameParts = digestedBytes u l.nameParts ↔
      t = u ∧ k.SameDefinition l) ∧
    (k.computedName t = l.computedName u ↔
      (t = u ∧ k.SameDefinition l) ∨ Collide t k u l) := by
  have hbytes := digestedBytes_eq_iff hk hl
  refine ⟨hbytes, ?_⟩
  rw [computedName_eq_iff]
  constructor
  · rintro ⟨htag, hdigits⟩
    by_cases h : digestedBytes t k.nameParts = digestedBytes u l.nameParts
    · exact .inl (hbytes.1 ⟨htag, h⟩)
    · exact .inr ⟨htag, h, hdigits⟩
  · rintro (⟨rfl, hsame⟩ | hcollide)
    · exact ⟨hsame.tag_eq, by rw [hsame.nameParts_eq]⟩
    · exact ⟨hcollide.tag, hcollide.digits⟩

/-- The owner of an album, as a reference to a table. -/
def ownerKey (table : String) : ConstraintKind :=
  .foreignKey { columns := ["owner_id"], referencesTable := table, referencesColumns := ["id"] }

theorem computedName_exact_owners :
    (ownerKey "user").IsNameable "album" ∧ (ownerKey "org").IsNameable "album" ∧
      digestedBytes "album" (ownerKey "user").nameParts ≠
        digestedBytes "album" (ownerKey "org").nameParts ∧
      ((ownerKey "user").computedName "album" = (ownerKey "org").computedName "album" →
        Collide "album" (ownerKey "user") "album" (ownerKey "org")) := by
  have huser : (ownerKey "user").IsNameable "album" := ⟨by decide, rfl⟩
  have horg : (ownerKey "org").IsNameable "album" := ⟨by decide, rfl⟩
  have hdifferent : ¬ (ownerKey "user").SameDefinition (ownerKey "org") := by
    intro h
    cases h with
    | foreignKey _ htable _ => exact absurd htable (by decide)
  obtain ⟨hbytes, hname⟩ := computedName_exact huser horg
  refine ⟨huser, horg, fun h => hdifferent (hbytes.1 ⟨rfl, h⟩).2, fun h => ?_⟩
  exact (hname.1 h).resolve_left fun hsame => hdifferent hsame.2

/-- A foreign key with more columns on one side leaves open which part is the table. -/
example :
    nameParts (.foreignKey
        { columns := ["a", "b"], referencesTable := "c", referencesColumns := ["d"] }) =
      nameParts (.foreignKey
        { columns := ["a"], referencesTable := "b", referencesColumns := ["c", "d"] }) := rfl

end ConstraintKind

end SchemaPlan
