import SchemaPlan.Proofs.Change.Alteration
import SchemaPlan.Proofs.Change.Deeds

/-!
# What must be created again

* `change_eq_recreate_iff`: a comparison asks to create an object again exactly when its
  definitions clash (`SchemaObject.ClashesWith`).
* `dropsKey_iff`: it reports a lost key exactly when a live table has a key that is not declared.
* `mem_recreatedSet_iff`: what is created again, in words of the two schemas (`CreatedAgain`).
* `kind_of_mem_recreatedSet`: no table is created again.
-/

set_option autoImplicit false

namespace SchemaPlan

/-- A live definition that can not be altered into the declared one. -/
def SchemaObject.ClashesWith (declared live : SchemaObject) : Prop :=
  match declared, live with
  | .extension _, _ | .enum _, .enum _ | .table _, .table _ => False
  | .function d, .function l => d.signature ≠ l.signature
  | d, l => d.canonical ≠ l.canonical

/-- A live table has a primary key or unique constraint that is not declared in any form. -/
def Table.LosesKey (declared live : Table) : Prop :=
  ∃ c ∈ live.constraints, c.kind.isKey = true ∧ ∀ c' ∈ declared.constraints,
    c'.canonical ≠ c.canonical

namespace Change

/-! ## Comparisons -/

section Comparisons

variable {options : DiffOptions} {declared live : SchemaObject} {verdict : Verdict}

theorem compareObjects_table {d l : Table}
    (h : compareObjects options (.table d) (.table l) = .ok verdict) :
    ∃ changes, compareTables options d l = .ok changes ∧
      verdict = ⟨Update.ofChanges changes.removals changes.additions, changes.dropsKey,
        changes.candidates⟩ := by
  obtain ⟨changes, hchanges, rfl⟩ :=
    Outcome.map_eq_ok_iff.1 (Outcome.mapError_eq_ok_iff.1 h)
  exact ⟨changes, hchanges, rfl⟩

theorem ofChanges_ne_recreate (removals additions : List AlterChange) :
    Update.ofChanges removals additions ≠ some .recreate := by
  intro h
  rw [Update.ofChanges] at h
  split at h <;> cases h

/-- **Only definitions that clash are created again.** -/
theorem change_eq_recreate_iff (h : compareObjects options declared live = .ok verdict) :
    verdict.change = some .recreate ↔ declared.ClashesWith live := by
  have houtcome := Outcome.mapError_eq_ok_iff.1 h
  split at houtcome
  · cases houtcome
    exact iff_of_false (Option.some_ne_none _).symm id
  · obtain ⟨change, hcompare, rfl⟩ := Outcome.map_eq_ok_iff.1 houtcome
    rw [compareEnums] at hcompare
    split at hcompare
    · cases hcompare
    · cases hcompare
      exact iff_of_false (ofChanges_ne_recreate _ _) id
  · rename_i d l
    cases houtcome
    have hclash : (SchemaObject.function d).ClashesWith (.function l) ↔
        d.signature ≠ l.signature := Iff.rfl
    rw [hclash, compareFunctions]
    split
    · rename_i hsignature
      exact iff_of_true rfl hsignature
    · rename_i hsignature
      split
      · exact iff_of_false (Option.some_ne_none _).symm hsignature
      · exact iff_of_false (fun hchange => by cases hchange) hsignature
  · obtain ⟨changes, -, rfl⟩ := Outcome.map_eq_ok_iff.1 houtcome
    exact iff_of_false (ofChanges_ne_recreate _ _) id
  · rename_i hextension henum hfunction htable
    cases houtcome
    have hclash : declared.ClashesWith live ↔ declared.canonical ≠ live.canonical := by
      unfold SchemaObject.ClashesWith
      split
      · exact (hextension _ rfl).elim
      · exact (henum _ _ rfl rfl).elim
      · exact (htable _ _ rfl rfl).elim
      · exact (hfunction _ _ rfl rfl).elim
      · exact Iff.rfl
    rw [hclash, SchemaObject.equivalent]
    simp

/-- **Only tables that lose a key are reported to.** -/
theorem dropsKey_iff (h : compareObjects options declared live = .ok verdict) :
    verdict.dropsKey = true ↔
      ∃ d l, declared = .table d ∧ live = .table l ∧ d.LosesKey l := by
  have htables : ∀ {d l : Table} {changes : TableChanges},
      compareTables options d l = .ok changes → (changes.dropsKey = true ↔ d.LosesKey l) := by
    intro d l changes hchanges
    obtain ⟨_, -, hchanges⟩ := Outcome.bind_eq_ok_iff.1 hchanges
    cases hchanges
    simp only [List.any_eq_true, mem_constraintsNotIn_iff, Table.LosesKey, not_exists, not_and]
    constructor
    · rintro ⟨c, ⟨hc, hgone⟩, hkey⟩
      exact ⟨c, hc, hkey, hgone⟩
    · rintro ⟨c, hc, hkey, hgone⟩
      exact ⟨c, ⟨hc, hgone⟩, hkey⟩
  constructor
  · intro hdrops
    rcases compareObjects_cases h with ⟨_, -, rfl⟩ | ⟨_, _, _, -, -, -, rfl⟩ | ⟨_, _, -, -, rfl⟩ |
      ⟨d, l, changes, rfl, rfl, hchanges, rfl⟩ | rfl
    · cases hdrops
    · cases hdrops
    · cases hdrops
    · exact ⟨d, l, rfl, rfl, (htables hchanges).1 hdrops⟩
    · cases hdrops
  · rintro ⟨d, l, rfl, rfl, hloses⟩
    obtain ⟨changes, hchanges, rfl⟩ := compareObjects_table h
    exact (htables hchanges).2 hloses

end Comparisons

/-! ## Recreation -/

/-- What two schemas say must be created again by itself: what can not be altered, and a declared
foreign key to a table that loses a key. -/
inductive MustGo (declared live : SchemaGraph) (id : ObjectId) : Prop
  | clash {object existing : SchemaObject} (hobject : declared.get? id = some object)
      (hexisting : live.get? id = some existing) (h : object.ClashesWith existing)
  | keyless {value : TableConstraint} {key : ForeignKey} {d l : Table}
      (hexisting : live.get? id = some (.constraint value)) (hid : id ∈ declared.ids)
      (hkey : value.constraint.foreignKey? = some key)
      (hdeclared : declared.get? (.table key.referencesTable) = some (.table d))
      (hlive : live.get? (.table key.referencesTable) = some (.table l)) (h : d.LosesKey l)

/-- What is dropped and created again: what must go, and the declared objects that depend on such
an object in the live schema. -/
def CreatedAgain (declared live : SchemaGraph) : ObjectId → Prop :=
  TakenAlong declared live (MustGo declared live)

section Recreation

variable {options : DiffOptions} {declared live : SchemaGraph} {recreated : List ObjectId}
  {id : ObjectId}

theorem refersToAny_iff {table : String} {object : SchemaObject} :
    refersToAny [table] object = true ↔ ∃ value key, object = .constraint value ∧
      value.constraint.foreignKey? = some key ∧ key.referencesTable = table := by
  cases object with
  | constraint value =>
    simp [refersToAny, Option.any_eq_true]
  | _ => simp [refersToAny]

/-- The objects that are marked by the decisions are those that must go. -/
theorem marked_iff_mustGo {decided : List Decision}
    (h : decisions options declared live = .ok decided) :
    Marked declared live
        ((decided.filter fun d => d.verdict.change == some .recreate).map fun d => d.declared.id)
        ((decided.filter fun d => d.verdict.dropsKey).map fun d => d.declared.id.name) id ↔
      MustGo declared live id := by
  constructor
  · rintro (hid | ⟨hid, object, hobject, rfl, table, htable, hrefers⟩)
    · obtain ⟨decision, hdecision, rfl⟩ := List.mem_map.1 hid
      obtain ⟨hdecision, hchange⟩ := List.mem_filter.1 hdecision
      obtain ⟨hobject, hexisting, hverdict⟩ := decision_spec h hdecision
      exact .clash hobject hexisting ((change_eq_recreate_iff hverdict).1 (beq_iff_eq.1 hchange))
    · obtain ⟨decision, hdecision, rfl⟩ := List.mem_map.1 htable
      obtain ⟨hdecision, hdrops⟩ := List.mem_filter.1 hdecision
      obtain ⟨hdeclared, hlive, hverdict⟩ := decision_spec h hdecision
      obtain ⟨d, l, hd, hl, hloses⟩ := (dropsKey_iff hverdict).1 hdrops
      obtain ⟨value, key, rfl, hkey, htarget⟩ := refersToAny_iff.1 hrefers
      rw [hd] at hdeclared hlive htarget
      rw [hl] at hlive
      have hreference : ObjectId.table key.referencesTable = (SchemaObject.table d).id := by
        rw [htarget]
        rfl
      rw [← hreference] at hdeclared hlive
      exact .keyless (SchemaGraph.get?_of_mem hobject) hid hkey hdeclared hlive hloses
  · rintro (⟨hobject, hexisting, hclash⟩ | ⟨hexisting, hid, hkey, hdeclared, hlive, hloses⟩)
    · obtain ⟨verdict, hverdict, hdecision⟩ := exists_mem_decided h hobject hexisting
      refine .inl (List.mem_map.2 ⟨_, List.mem_filter.2 ⟨hdecision, ?_⟩, ?_⟩)
      · exact beq_iff_eq.2 ((change_eq_recreate_iff hverdict).2 hclash)
      · exact (SchemaGraph.get?_eq_some_iff.1 hobject).2
    · rename_i value key d l
      obtain ⟨verdict, hverdict, hdecision⟩ := exists_mem_decided h hdeclared hlive
      obtain ⟨hmem, hvalue⟩ := SchemaGraph.get?_eq_some_iff.1 hexisting
      refine .inr ⟨hid, _, hmem, hvalue, d.name, ?_, refersToAny_iff.2 ⟨_, _, rfl, hkey, ?_⟩⟩
      · refine List.mem_map.2 ⟨_, List.mem_filter.2 ⟨hdecision, ?_⟩, rfl⟩
        exact (dropsKey_iff hverdict).2 ⟨d, l, rfl, rfl, hloses⟩
      · exact (congrArg ObjectId.name (SchemaGraph.get?_eq_some_iff.1 hdeclared).2).symm

/-- **What is created again**, in words of the two schemas. -/
theorem mem_recreatedSet_iff (h : recreatedSet options declared live = .ok recreated) :
    id ∈ recreated ↔ CreatedAgain declared live id := by
  obtain ⟨decided, hdecided, h⟩ := Outcome.bind_eq_ok_iff.1 h
  have hmarked : Marked declared live _ _ = MustGo declared live :=
    funext fun _ => propext (marked_iff_mustGo hdecided)
  rw [mem_recreatedObjects_iff h, CreatedAgain, hmarked]

theorem MustGo.kind_ne_table (h : MustGo declared live id) : id.kind ≠ .table := by
  intro hkind
  cases h with
  | clash hobject hexisting hclash =>
    obtain ⟨d, rfl⟩ := SchemaGraph.exists_table_of_get? hobject hkind
    obtain ⟨l, rfl⟩ := SchemaGraph.exists_table_of_get? hexisting hkind
    exact hclash
  | keyless hexisting =>
    obtain ⟨l, hl⟩ := SchemaGraph.exists_table_of_get? hexisting hkind
    cases hl

/-- **No table is created again**: a change that asks for it is refused. -/
theorem kind_of_mem_recreatedSet (h : recreatedSet options declared live = .ok recreated)
    (hid : id ∈ recreated) : id.kind ≠ .table := by
  obtain ⟨decided, hdecided, h⟩ := Outcome.bind_eq_ok_iff.1 h
  obtain ⟨marked, hmarked, hspread⟩ := recreatedObjects_eq_spread declared live _ _
  rw [hspread] at h
  rcases kind_of_spread h id hid with hid | hkind
  · exact ((marked_iff_mustGo hdecided).1 ((hmarked id).1 hid)).kind_ne_table
  · exact hkind

end Recreation

end Change

end SchemaPlan
