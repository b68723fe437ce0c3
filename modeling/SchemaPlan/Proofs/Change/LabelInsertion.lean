import SchemaPlan.Proofs.Change.Alteration

/-!
# Inserting labels into an enum type

Labels of an enum type can only be added, each next to one that is there.  So an enum type can be
altered into another exactly when the other keeps its labels in their order.

* `Inserts` says what a list of additions does, one after the other, without the simulator.
* `unmatchedLabels_eq_nil_iff`: taking labels in order tells whether they are a sublist.
* `inserts_of_alterAll?`: what the simulator runs through finds every label that it needs.
* `map_addedLabel?_newLabels`: there is one addition for each missing label.
* `compareObjects_enum_exact`: the comparison of two enum types succeeds exactly when no label is
  lost, and its changes lead to the declared labels.
-/

set_option autoImplicit false

namespace SchemaPlan.Change

/-! ## Additions one after the other -/

/-- Labels before, additions in order, and labels afterwards.  A label goes right before or right
behind one that is there at that moment, or to the end. -/
inductive Inserts : List String → List AlterChange → List String → Prop
  | done (labels : List String) : Inserts labels [] labels
  | before {front back result : List String} {label other : String} {changes : List AlterChange}
      (h : Inserts (front ++ label :: other :: back) changes result) :
      Inserts (front ++ other :: back) (.addEnumLabel label (.before other) :: changes) result
  | after {front back result : List String} {label other : String} {changes : List AlterChange}
      (h : Inserts (front ++ other :: label :: back) changes result) :
      Inserts (front ++ other :: back) (.addEnumLabel label (.after other) :: changes) result
  | last {labels result : List String} {label : String} {changes : List AlterChange}
      (h : Inserts (labels ++ [label]) changes result) :
      Inserts labels (.addEnumLabel label .last :: changes) result

/-- The label that a change adds. -/
def addedLabel? : AlterChange → Option String
  | .addEnumLabel label _ => some label
  | _ => none

theorem Inserts.eq_of_nil {labels result : List String} (h : Inserts labels [] result) :
    labels = result := by
  cases h
  rfl

theorem exists_split_of_idxOf? {label : String} {labels : List String} {i : Nat}
    (h : labels.idxOf? label = some i) :
    ∃ front back, labels = front ++ label :: back ∧ i = front.length := by
  obtain ⟨hlt, hlabel, -⟩ := List.idxOf?_eq_some_iff.1 h
  refine ⟨labels.take i, labels.drop (i + 1), ?_, ?_⟩
  · rw [← hlabel, List.getElem_cons_drop, List.take_append_drop]
  · rw [List.length_take]
    omega

/-- A label that finds its place is inserted there. -/
theorem Inserts.of_insertLabel? {label : String} {position : LabelPosition}
    {labels next result : List String} {changes : List AlterChange}
    (h : insertLabel? label position labels = some next) (hrest : Inserts next changes result) :
    Inserts labels (.addEnumLabel label position :: changes) result := by
  cases position with
  | before other =>
    obtain ⟨i, hi, rfl⟩ := Option.map_eq_some_iff.1 h
    obtain ⟨front, back, rfl, rfl⟩ := exists_split_of_idxOf? hi
    rw [insertIdx_append_length] at hrest
    exact .before hrest
  | after other =>
    obtain ⟨i, hi, rfl⟩ := Option.map_eq_some_iff.1 h
    obtain ⟨place, hplace, rfl⟩ := Option.map_eq_some_iff.1 hi
    obtain ⟨front, back, rfl, rfl⟩ := exists_split_of_idxOf? hplace
    have hinsert := insertIdx_append_length label (front ++ [other]) back
    simp only [List.append_assoc, List.singleton_append, List.length_append,
      List.length_singleton] at hinsert
    rw [hinsert] at hrest
    exact .after hrest
  | last =>
    obtain rfl : labels.insertIdx labels.length label = next := by simpa [insertLabel?] using h
    have hinsert := insertIdx_append_length label labels []
    rw [List.append_nil] at hinsert
    rw [hinsert] at hrest
    exact .last hrest

/-- What the simulator runs through on an enum type is a list of additions, each of which finds the
label it stands next to. -/
theorem inserts_of_alterAll? {changes : List AlterChange} {type result : EnumType}
    (h : alterAll? changes (.enum type) = some (.enum result)) :
    Inserts type.labels changes result.labels := by
  induction changes generalizing type with
  | nil =>
    cases h
    exact .done _
  | cons change changes ih =>
    rw [alterAll?, List.foldlM_cons] at h
    obtain ⟨next, hnext, h⟩ := Option.bind_eq_some_iff.1 h
    cases change with
    | addEnumLabel label position =>
      obtain ⟨labels, hlabels, rfl⟩ := Option.map_eq_some_iff.1 hnext
      exact .of_insertLabel? hlabels (ih h)
    | _ => cases hnext

/-! ## Missing labels -/

/-- **Labels can be taken from the declared ones in order exactly when they are a sublist.**  Taking
each as early as possible loses nothing. -/
theorem unmatchedLabels_eq_nil_iff {declared live : List String} :
    unmatchedLabels declared live = [] ↔ live.Sublist declared := by
  refine ⟨sublist_of_unmatchedLabels, fun h => ?_⟩
  fun_induction unmatchedLabels declared live with
  | case1 => rfl
  | case2 live => exact List.sublist_nil.1 h
  | case3 declared first live ih => exact ih (List.cons_sublist_cons.1 h)
  | case4 label declared first live hne ih =>
    apply ih
    rcases List.sublist_cons_iff.1 h with h | ⟨rest, heq, -⟩
    · exact h
    · cases heq
      exact absurd rfl hne

/-- **There is one addition for each missing label**, in the declared order. -/
theorem map_addedLabel?_newLabels (live labels : List String) (previous : Option String) :
    (newLabels live previous labels).map addedLabel? =
      (labels.filter fun label => !live.contains label).map some := by
  induction labels generalizing previous with
  | nil => rw [newLabels, List.map_nil, List.filter_nil, List.map_nil]
  | cons label rest ih =>
    by_cases hmem : label ∈ live
    · rw [newLabels_of_mem hmem, ih, List.filter_cons_of_neg (by simpa using hmem)]
    · rw [newLabels_of_not_mem hmem, List.map_cons, ih,
        List.filter_cons_of_pos (by simpa using hmem), List.map_cons]
      rfl

theorem newLabels_eq_nil_of_subset {live labels : List String} (h : labels ⊆ live)
    (previous : Option String) : newLabels live previous labels = [] := by
  have hmissing : (labels.filter fun label => !live.contains label) = [] := by
    rw [List.filter_eq_nil_iff]
    intro label hlabel
    simpa using h hlabel
  have hadded := map_addedLabel?_newLabels live labels previous
  rw [hmissing, List.map_nil] at hadded
  exact List.map_eq_nil_iff.1 hadded

/-- A missing label is added in place. -/
theorem inPlace_of_mem_newLabels {live labels : List String} {previous : Option String}
    {change : AlterChange} (h : change ∈ newLabels live previous labels) (id : ObjectId) :
    change.InPlace id := by
  have hadded := List.mem_map_of_mem (f := addedLabel?) h
  rw [map_addedLabel?_newLabels] at hadded
  obtain ⟨label, -, hlabel⟩ := List.mem_map.1 hadded
  cases change with
  | addEnumLabel => exact trivial
  | _ => cases hlabel

/-! ## Comparisons -/

section Comparisons

variable {options : DiffOptions} {declared live : EnumType} {verdict : Verdict}

theorem compareObjects_enum_of_sublist (h : live.labels.Sublist declared.labels) :
    compareObjects options (.enum declared) (.enum live) =
      .ok ⟨Update.ofChanges [] (newLabels live.labels none declared.labels), false, []⟩ := by
  simp [compareObjects, compareEnums, unmatchedLabels_eq_nil_iff.2 h, Except.map, Except.mapError]

theorem compareObjects_enum_of_not_sublist (h : ¬ live.labels.Sublist declared.labels) :
    compareObjects options (.enum declared) (.enum live) =
      .error (.unsupportedChange ⟨.enum, declared.name⟩ .lostLabels) := by
  have hlost : unmatchedLabels declared.labels live.labels ≠ [] :=
    fun hnil => h (unmatchedLabels_eq_nil_iff.1 hnil)
  simp [compareObjects, compareEnums, hlost, Except.map, Except.mapError, SchemaObject.id]

/-- The changes of an enum type lead from its labels to the declared ones. -/
theorem alterAll?_newLabels_of_sublist (hdeclared : declared.labels.Nodup)
    (h : live.labels.Sublist declared.labels) :
    alterAll? (newLabels live.labels none declared.labels) (.enum live) =
      some (.enum { live with labels := declared.labels }) := by
  have hall : alterAll? (newLabels live.labels ([] : List String).getLast? declared.labels)
      (.enum ⟨live.name, [] ++ live.labels⟩) = some (.enum ⟨live.name, [] ++ declared.labels⟩) :=
    alterAll?_newLabels declared.labels hdeclared h (fun _ _ => Iff.rfl) (fun _ => rfl)
  exact hall

/-- **Inserting labels is exact.**  Two enum types can be compared exactly when the live labels are
declared in the same order.  The changes are then one addition for each missing label, and none
when the labels are the same; one by one they lead from the live labels to the declared ones, and
running them does so wherever the live type stands.  Otherwise the change is refused. -/
theorem compareObjects_enum_exact (hdeclared : declared.labels.Nodup) :
    ((∃ verdict, compareObjects options (.enum declared) (.enum live) = .ok verdict) ↔
        live.labels.Sublist declared.labels) ∧
      (∀ verdict, compareObjects options (.enum declared) (.enum live) = .ok verdict →
        (verdict.change = none ↔ live.labels = declared.labels) ∧
          ∃ changes, verdict.change = Update.ofChanges [] changes ∧
            Inserts live.labels changes declared.labels ∧
            changes.map addedLabel? =
              (declared.labels.filter fun label => !live.labels.contains label).map some ∧
            Acts (.alter ⟨.enum, live.name⟩ changes) ⟨.enum, live.name⟩ (some (.enum live))
              (some (.enum { live with labels := declared.labels }))) ∧
      (¬ live.labels.Sublist declared.labels →
        compareObjects options (.enum declared) (.enum live) =
          .error (.unsupportedChange ⟨.enum, declared.name⟩ .lostLabels)) := by
  refine ⟨⟨fun ⟨verdict, h⟩ => ?_, fun h => ⟨_, compareObjects_enum_of_sublist h⟩⟩,
    fun verdict h => ?_, compareObjects_enum_of_not_sublist⟩
  · by_contra hlost
    rw [compareObjects_enum_of_not_sublist hlost] at h
    cases h
  · have hsub : live.labels.Sublist declared.labels := by
      by_contra hlost
      rw [compareObjects_enum_of_not_sublist hlost] at h
      cases h
    rw [compareObjects_enum_of_sublist hsub] at h
    cases h
    have hruns := alterAll?_newLabels_of_sublist hdeclared hsub
    have hinserts := inserts_of_alterAll? hruns
    have hadded := map_addedLabel?_newLabels live.labels declared.labels none
    refine ⟨⟨fun hnone => ?_, fun heq => ?_⟩, _, rfl, hinserts, hadded,
      acts_alter rfl (fun change hchange => inPlace_of_mem_newLabels hchange _) hruns⟩
    · have hnil : newLabels live.labels none declared.labels = [] := by
        simpa [Update.ofChanges] using hnone
      rw [hnil] at hinserts
      exact hinserts.eq_of_nil
    · rw [heq, newLabels_eq_nil_of_subset (List.Subset.refl _)]
      rfl

end Comparisons

/-- A label comes before the first live one, and two come between the live ones, the second of them
next to the first.  With the live labels the other way round the change is refused. -/
theorem compareObjects_enum_exact_ticket :
    let declared : EnumType := ⟨"ticket", ["draft", "open", "held", "paid", "done"]⟩
    let live : EnumType := ⟨"ticket", ["open", "done"]⟩
    let changes : List AlterChange := [.addEnumLabel "draft" (.before "open"),
      .addEnumLabel "held" (.after "open"), .addEnumLabel "paid" (.after "held")]
    declared.labels.Nodup ∧
      compareObjects {} (.enum declared) (.enum live) =
        .ok ⟨some (.alter [] changes), false, []⟩ ∧
      Inserts live.labels changes declared.labels ∧
      compareObjects {} (.enum declared) (.enum ⟨"ticket", ["done", "open"]⟩) =
        .error (.unsupportedChange ⟨.enum, "ticket"⟩ .lostLabels) := by
  intro declared live changes
  have hnodup : declared.labels.Nodup := by decide
  have hverdict : compareObjects {} (.enum declared) (.enum live) =
      .ok ⟨some (.alter [] changes), false, []⟩ := rfl
  obtain ⟨-, hchanges, -⟩ := @compareObjects_enum_exact {} declared live hnodup
  obtain ⟨-, found, hfound, hinserts, -⟩ := hchanges _ hverdict
  obtain ⟨-, -, hrefused⟩ :=
    @compareObjects_enum_exact {} declared ⟨"ticket", ["done", "open"]⟩ hnodup
  have hsame : changes = found := by
    rw [Update.ofChanges] at hfound
    split at hfound
    · cases hfound
    · cases hfound
      rfl
  exact ⟨hnodup, hverdict, hsame ▸ hinserts, hrefused (by decide)⟩

end SchemaPlan.Change
