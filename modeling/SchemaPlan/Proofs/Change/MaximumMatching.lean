import Mathlib.Data.List.Nodup
import Mathlib.Data.List.Perm.Subperm
import SchemaPlan.Change.Candidate
import SchemaPlan.Proofs.Schema.Fingerprint

/-!
# Renamed objects are a maximum matching

Every object that goes is paired with the first that comes, has its kind and fingerprint and is not
taken.  Objects with one fingerprint can stand for each other, so it never matters which is taken: of
each kind and fingerprint all that go are paired, or all that come.

* `matchObjects_sublist` and `nodup_matchObjects`: an object is paired once.
* `countP_matchObjects`: the number of pairs of each kind and fingerprint.
* `IsMatching.length_le`: no matching has more pairs than one with these numbers.
* `objectCandidates_maximum`: the candidates are a maximum matching.
-/

set_option autoImplicit false

namespace SchemaPlan.Change

variable {dropped created : List SchemaObject} {taken : List ObjectId}
  {pairs other : List (SchemaObject × SchemaObject)}

/-! ## Objects that may be one -/

/-- An object is of this kind and has this fingerprint. -/
def HasFingerprint (kind : ObjectKind) (text : String) (object : SchemaObject) : Prop :=
  object.kind = kind ∧ object.fingerprint? = some text

instance (kind : ObjectKind) (text : String) : DecidablePred (HasFingerprint kind text) :=
  fun _ => inferInstanceAs (Decidable (_ ∧ _))

theorem mayBeOne_iff {old new : SchemaObject} : mayBeOne old new = true ↔
    ∃ kind text, HasFingerprint kind text old ∧ HasFingerprint kind text new := by
  simp only [mayBeOne, Bool.if_false_right, Bool.and_eq_true, decide_eq_true_eq, beq_iff_eq,
    Option.isSome_iff_exists, HasFingerprint]
  constructor
  · rintro ⟨hkind, ⟨text, htext⟩, hsame⟩
    exact ⟨old.kind, text, ⟨rfl, htext⟩, hkind.symm, hsame ▸ htext⟩
  · rintro ⟨kind, text, ⟨hold, holdtext⟩, hnew, hnewtext⟩
    exact ⟨hold.trans hnew.symm, ⟨text, holdtext⟩, holdtext.trans hnewtext.symm⟩

theorem hasFingerprint_congr {old new : SchemaObject} (h : mayBeOne old new = true)
    (kind : ObjectKind) (text : String) :
    HasFingerprint kind text old ↔ HasFingerprint kind text new := by
  obtain ⟨k, t, ⟨hold, holdtext⟩, hnew, hnewtext⟩ := mayBeOne_iff.1 h
  simp only [HasFingerprint, hold, holdtext, hnew, hnewtext]

/-! ## Free objects -/

theorem mem_free_iff {object : SchemaObject} :
    object ∈ free taken created ↔ object ∈ created ∧ object.id ∉ taken := by
  simp [free]

/-- Taking an object leaves all others free. -/
theorem free_perm {new : SchemaObject} (hcreated : (created.map SchemaObject.id).Nodup)
    (hnew : new ∈ free taken created) :
    (free taken created).Perm (new :: free (new.id :: taken) created) := by
  have hnodup (taken : List ObjectId) : (free taken created).Nodup :=
    (hcreated.of_map _).filter _
  have htaken : new ∉ free (new.id :: taken) created := by simp [mem_free_iff]
  refine (List.perm_ext_iff_of_nodup (hnodup taken) (List.nodup_cons.2 ⟨htaken, hnodup _⟩)).2
    fun object => ?_
  obtain ⟨hmem, hfree⟩ := mem_free_iff.1 hnew
  rw [List.mem_cons, mem_free_iff, mem_free_iff, List.mem_cons, not_or]
  constructor
  · rintro ⟨hobject, hother⟩
    by_cases hid : object.id = new.id
    · exact .inl (List.inj_on_of_nodup_map hcreated hobject hmem hid)
    · exact .inr ⟨hobject, hid, hother⟩
  · rintro (rfl | ⟨hobject, -, hother⟩)
    · exact ⟨hmem, hfree⟩
    · exact ⟨hobject, hother⟩

/-! ## Pairing objects -/

theorem matchObjects_sublist (taken : List ObjectId) (dropped created : List SchemaObject) :
    ((matchObjects taken dropped created).map Prod.fst).Sublist dropped := by
  fun_induction matchObjects taken dropped created with
  | case1 => exact .slnil
  | case2 taken old rest new _ ih => exact ih.cons_cons old
  | case3 taken old rest _ ih => exact ih.cons old

theorem mem_matchObjects {pair : SchemaObject × SchemaObject}
    (h : pair ∈ matchObjects taken dropped created) :
    pair.2 ∈ free taken created ∧ mayBeOne pair.1 pair.2 = true := by
  fun_induction matchObjects taken dropped created with
  | case1 => cases h
  | case2 taken old rest new hfind ih =>
    rcases List.mem_cons.1 h with rfl | h
    · exact ⟨List.mem_of_find?_eq_some hfind, List.find?_some hfind⟩
    · obtain ⟨hfree, hone⟩ := ih h
      rw [mem_free_iff, List.mem_cons, not_or] at hfree
      exact ⟨mem_free_iff.2 ⟨hfree.1, hfree.2.2⟩, hone⟩
  | case3 taken old rest _ ih => exact ih h

/-- An object that comes is taken by one pair. -/
theorem nodup_matchObjects (taken : List ObjectId) (dropped created : List SchemaObject) :
    ((matchObjects taken dropped created).map fun pair => pair.2.id).Nodup := by
  fun_induction matchObjects taken dropped created with
  | case1 => exact .nil
  | case2 taken old rest new _ ih =>
    refine List.nodup_cons.2 ⟨fun hmem => ?_, ih⟩
    obtain ⟨pair, hpair, hid⟩ := List.mem_map.1 hmem
    have hfree := (mem_free_iff.1 (mem_matchObjects hpair).1).2
    exact hfree (hid ▸ List.mem_cons_self)
  | case3 taken old rest _ ih => exact ih

/-- Of each kind and fingerprint all objects that go are paired, or all that are free. -/
theorem countP_matchObjects (hcreated : (created.map SchemaObject.id).Nodup) (kind : ObjectKind)
    (text : String) :
    (matchObjects taken dropped created).countP (fun pair => HasFingerprint kind text pair.1) =
      min (dropped.countP fun old => HasFingerprint kind text old)
        ((free taken created).countP fun new => HasFingerprint kind text new) := by
  fun_induction matchObjects taken dropped created with
  | case1 => simp
  | case2 taken old rest new hfind ih =>
    have hsame := hasFingerprint_congr (List.find?_some hfind) kind text
    rw [(free_perm hcreated (List.mem_of_find?_eq_some hfind)).countP_eq, List.countP_cons,
      List.countP_cons, List.countP_cons, ih]
    simp only [hsame]
    omega
  | case3 taken old rest hfind ih =>
    rw [ih, List.countP_cons]
    by_cases hold : HasFingerprint kind text old
    · have hnone : (free taken created).countP (fun new => HasFingerprint kind text new) = 0 := by
        refine List.countP_eq_zero.2 fun new hnew hprint => ?_
        exact List.find?_eq_none.1 hfind new hnew
          (mayBeOne_iff.2 ⟨kind, text, hold, of_decide_eq_true hprint⟩)
      rw [hnone, Nat.min_zero, Nat.min_zero]
    · simp [hold]

/-! ## Matchings -/

/-- Pairs of objects that go and come, of one kind and fingerprint, that use each object at most
once. -/
structure IsMatching (dropped created : List SchemaObject)
    (pairs : List (SchemaObject × SchemaObject)) : Prop where
  old_mem : ∀ pair ∈ pairs, pair.1 ∈ dropped
  new_mem : ∀ pair ∈ pairs, pair.2 ∈ created
  old_once : (pairs.map fun pair => pair.1.id).Nodup
  new_once : (pairs.map fun pair => pair.2.id).Nodup
  same : ∀ pair ∈ pairs, ∃ kind text, HasFingerprint kind text pair.1 ∧
    HasFingerprint kind text pair.2

theorem isMatching_matchObjects (hdropped : (dropped.map SchemaObject.id).Nodup) :
    IsMatching dropped created (matchObjects [] dropped created) where
  old_mem pair hpair := (matchObjects_sublist [] dropped created).subset (List.mem_map_of_mem hpair)
  new_mem pair hpair := (mem_free_iff.1 (mem_matchObjects hpair).1).1
  old_once := by
    have hsublist := (matchObjects_sublist [] dropped created).map SchemaObject.id
    rw [List.map_map] at hsublist
    exact hdropped.sublist hsublist
  new_once := nodup_matchObjects [] dropped created
  same pair hpair := mayBeOne_iff.1 (mem_matchObjects hpair).2

/-- The numbers of pairs of each kind and fingerprint are as great as the objects allow. -/
def IsExhaustive (dropped created : List SchemaObject)
    (pairs : List (SchemaObject × SchemaObject)) : Prop :=
  ∀ kind text, pairs.countP (fun pair => HasFingerprint kind text pair.1) =
    min (dropped.countP fun old => HasFingerprint kind text old)
      (created.countP fun new => HasFingerprint kind text new)

theorem isExhaustive_matchObjects (hcreated : (created.map SchemaObject.id).Nodup) :
    IsExhaustive dropped created (matchObjects [] dropped created) := by
  intro kind text
  rw [countP_matchObjects hcreated, free]
  simp

/-- Pairs that use each object at most once are no more than the objects. -/
theorem countP_le_of_nodup {side : SchemaObject × SchemaObject → SchemaObject}
    {objects : List SchemaObject} (hmem : ∀ pair ∈ pairs, side pair ∈ objects)
    (honce : (pairs.map fun pair => (side pair).id).Nodup) (p : SchemaObject → Bool) :
    pairs.countP (fun pair => p (side pair)) ≤ objects.countP p := by
  have hnodup : (pairs.map side).Nodup := .of_map SchemaObject.id (by rwa [List.map_map])
  have hsubset : pairs.map side ⊆ objects := by
    intro object hobject
    obtain ⟨pair, hpair, rfl⟩ := List.mem_map.1 hobject
    exact hmem pair hpair
  have hle := (hnodup.subperm hsubset).countP_le p
  rwa [List.countP_map] at hle

/-- A matching has no more pairs of a kind and fingerprint than there are objects on each side. -/
theorem IsMatching.countP_le (h : IsMatching dropped created pairs) (kind : ObjectKind)
    (text : String) : pairs.countP (fun pair => HasFingerprint kind text pair.1) ≤
      min (dropped.countP fun old => HasFingerprint kind text old)
        (created.countP fun new => HasFingerprint kind text new) := by
  have hsame : pairs.countP (fun pair => HasFingerprint kind text pair.1) =
      pairs.countP fun pair => HasFingerprint kind text pair.2 := by
    refine List.countP_congr fun pair hpair => ?_
    rw [decide_eq_true_iff, decide_eq_true_iff]
    exact hasFingerprint_congr (mayBeOne_iff.2 (h.same pair hpair)) kind text
  refine Nat.le_min.2 ⟨?_, hsame ▸ ?_⟩
  · exact countP_le_of_nodup h.old_mem h.old_once (HasFingerprint kind text ·)
  · exact countP_le_of_nodup h.new_mem h.new_once (HasFingerprint kind text ·)

/-- The kind and fingerprint of what goes. -/
def label (pair : SchemaObject × SchemaObject) : ObjectKind × Option String :=
  (pair.1.kind, pair.1.fingerprint?)

theorem count_label (pairs : List (SchemaObject × SchemaObject)) (kind : ObjectKind)
    (text : String) : (pairs.map label).count (kind, some text) =
      pairs.countP fun pair => HasFingerprint kind text pair.1 := by
  rw [List.count, List.countP_map]
  refine List.countP_congr fun pair _ => ?_
  rw [decide_eq_true_iff, HasFingerprint, Function.comp, beq_iff_eq, label, Prod.mk.injEq]

/-- No matching has more pairs than an exhaustive one. -/
theorem IsMatching.length_le (h : IsMatching dropped created other)
    (hpairs : IsExhaustive dropped created pairs) : other.length ≤ pairs.length := by
  have hsubperm : (other.map label).Subperm (pairs.map label) := by
    refine List.subperm_ext_iff.2 fun x hx => ?_
    obtain ⟨pair, hpair, rfl⟩ := List.mem_map.1 hx
    obtain ⟨kind, text, ⟨hkind, htext⟩, -⟩ := h.same pair hpair
    rw [label, hkind, htext, count_label, count_label, hpairs]
    exact h.countP_le kind text
  simpa using hsubperm.length_le

/-! ## The candidates -/

/-- A matching that pairs as many objects as it can and only what a rename makes of each other. -/
structure IsMaximumMatching (dropped created : List SchemaObject)
    (pairs : List (SchemaObject × SchemaObject)) : Prop extends
    IsMatching dropped created pairs where
  kind_ne : ∀ pair ∈ pairs, pair.1.kind ≠ .extension
  renamed : ∀ pair ∈ pairs, pair.1.canonical.unnamed = pair.2.canonical.unnamed
  exhaustive : IsExhaustive dropped created pairs
  maximum : ∀ other, IsMatching dropped created other → other.length ≤ pairs.length

theorem HasFingerprint.kind_ne {kind : ObjectKind} {text : String} {object : SchemaObject}
    (h : HasFingerprint kind text object) : object.kind ≠ .extension := by
  intro hkind
  have htext := h.2
  rw [SchemaObject.fingerprint?_eq_none hkind] at htext
  cases htext

theorem matchObjects_isMaximum (hdropped : (dropped.map SchemaObject.id).Nodup)
    (hcreated : (created.map SchemaObject.id).Nodup) :
    IsMaximumMatching dropped created (matchObjects [] dropped created) := by
  have hmatching : IsMatching dropped created (matchObjects [] dropped created) :=
    isMatching_matchObjects hdropped
  have hexhaustive : IsExhaustive dropped created (matchObjects [] dropped created) :=
    isExhaustive_matchObjects hcreated
  refine ⟨hmatching, fun pair hpair => ?_, fun pair hpair => ?_, hexhaustive,
    fun other hother => hother.length_le hexhaustive⟩
  · obtain ⟨kind, text, hold, -⟩ := hmatching.same pair hpair
    exact hold.kind_ne
  · obtain ⟨kind, text, hold, hnew⟩ := hmatching.same pair hpair
    exact (SchemaObject.fingerprint?_eq_iff hold.kind_ne).1 (hold.2.trans hnew.2.symm)

/-- **The candidates are a maximum matching.**  They pair only objects of one kind and fingerprint,
which agree in all but the names that a rename changes, and of each kind and fingerprint as many as
go and come. -/
theorem objectCandidates_maximum (hdropped : (dropped.map SchemaObject.id).Nodup)
    (hcreated : (created.map SchemaObject.id).Nodup) :
    ∃ pairs, objectCandidates dropped created =
        pairs.map (fun pair => objectCandidate pair.1 pair.2) ∧
      IsMaximumMatching dropped created pairs :=
  ⟨_, rfl, matchObjects_isMaximum hdropped hcreated⟩

/-- Of two enums that go and agree in their labels the first is paired with the one that comes, and
an index with one whose key is the same column in parentheses; extensions are never paired. -/
theorem objectCandidates_maximum_mood :
    let dropped := [.extension ⟨"citext"⟩, .enum ⟨"mood", ["sad", "glad"]⟩,
      .enum ⟨"state", ["sad", "glad"]⟩,
      .index { name := "mood_key", table := "song", columns := ["mood"] }]
    let created := [.extension ⟨"cube"⟩,
      .index { name := "song_key", table := "song", expression := some "(mood)" },
      .enum ⟨"feeling", ["sad", "glad"]⟩]
    (dropped.map SchemaObject.id).Nodup ∧ (created.map SchemaObject.id).Nodup ∧
      (objectCandidates dropped created).map (fun found => (found.source, found.target)) =
        [("mood", "feeling"), ("mood_key", "song_key")] ∧
      ∃ pairs, objectCandidates dropped created =
          pairs.map (fun pair => objectCandidate pair.1 pair.2) ∧
        IsMaximumMatching dropped created pairs :=
  ⟨by decide, by decide, by decide +kernel, objectCandidates_maximum (by decide) (by decide)⟩

end SchemaPlan.Change
