import SchemaPlan.Proofs.Change.Refresh
import SchemaPlan.Proofs.Change.Schedule
import SchemaPlan.Proofs.Graph.RenamedNames

/-!
# Names that are out of date

After a table of a live schema has got the name that is declared for it, the names that were
computed from the other name are out of date.

* `namedAtPlaces_recorded`: the places that are recorded before the rename lead to the computed
  names after it.
* `Renamable.filter_isOutdated`: of these the outdated ones are those computed from the name of the
  table.
* `Renamable.refreshable`: they can be refreshed one after the other.
* `mapNames_refreshedName`: once they are, every name is the declared one.
-/

set_option autoImplicit false

namespace SchemaPlan

namespace Change

/-- A part of a declaration as a live schema has it under another name of a table. -/
def livePart (old new : String) (part : SchemaObject) : SchemaObject :=
  (part.renameTable old new).withName

theorem placesIn_renameTable (old new : String) (object : SchemaObject) :
    placesIn (object.renameTable old new) = placesIn object := by
  cases object <;> rfl

theorem namedAt_renameTable {object : SchemaObject} (hparts : object.parts = [object])
    (old new : String) (slot : Option Nat) :
    namedAt (object.renameTable old new) slot =
      (namedAt object slot).map (SchemaObject.renameTable old new) := by
  cases object with
  | table t =>
    cases slot with
    | none => rfl
    | some i =>
      simp only [SchemaObject.renameTable, namedAt, Option.map_map]
      refine Option.map_congr fun c hc => ?_
      exact (SchemaObject.renameTable_inline hparts (List.mem_of_getElem? hc) old new).symm
  | _ => cases slot <;> rfl

/-- The places in a part are those of its constraints and index. -/
theorem filterMap_namedAt (part : SchemaObject) :
    (placesIn part).filterMap (namedAt part) = part.named := by
  cases part with
  | table t =>
    rw [placesIn, List.filterMap_map, SchemaObject.named]
    have hall := congrArg (List.map fun c => SchemaObject.constraint ⟨t.name, c⟩)
      (filterMap_range_getElem? t.constraints)
    rwa [List.map_filterMap] at hall
  | _ => rfl

/-! ## Recorded places -/

theorem namedAtPlaces_append (parts : List SchemaObject) (places more : List NamePlace) :
    namedAtPlaces parts (places ++ more) =
      namedAtPlaces parts places ++ namedAtPlaces parts more :=
  List.filterMap_append

/-- What is found at the places that pass a test passes it. -/
theorem filterMap_filter_any {α β : Type} (f : α → Option β) (p : β → Bool) (xs : List α) :
    (xs.filter fun a => (f a).any p).filterMap f = (xs.filterMap f).filter p := by
  induction xs with
  | nil => rfl
  | cons a xs ih =>
    cases ha : f a with
    | none => simpa [ha] using ih
    | some b =>
      cases hb : p b with
      | true => simpa [ha, hb] using ih
      | false => simpa [ha, hb] using ih

/-- What is found at places that were recorded in another form of the same parts.  The parts before
them count for the positions only. -/
theorem namedAtPlaces_recorded (before : SchemaObject → SchemaObject)
    (recorded : SchemaObject → Bool) :
    ∀ (parts : List SchemaObject),
      (∀ part ∈ parts, placesIn (before part) = placesIn part) →
      (∀ part ∈ parts, ∀ slot, ((namesAt (before part) slot).any fun names =>
        names.current == names.computed) = (namedAt part slot).any recorded) →
      ∀ first : List SchemaObject,
        namedAtPlaces (first ++ parts)
            (computedPlacesFrom first.length (parts.map before)) =
          (parts.flatMap SchemaObject.named).filter recorded := by
  intro parts
  induction parts with
  | nil => intros; rfl
  | cons part rest ih =>
    intro hplaces hrecorded first
    obtain ⟨hplace, hplaces⟩ := List.forall_mem_cons.1 hplaces
    obtain ⟨hrecord, hrecorded⟩ := List.forall_mem_cons.1 hrecorded
    have hrest := ih hplaces hrecorded (first ++ [part])
    rw [List.append_assoc, List.length_append] at hrest
    rw [List.map_cons, computedPlacesFrom, namedAtPlaces_append, List.flatMap_cons,
      List.filter_append]
    refine congrArg₂ _ ?_ hrest
    have hhere : (first ++ part :: rest)[first.length]? = some part := by
      rw [List.getElem?_append_right (Nat.le_refl _), Nat.sub_self]
      rfl
    simp only [namedAtPlaces, List.filterMap_map, Function.comp_def, hhere, Option.bind_some,
      hplace, hrecord]
    rw [filterMap_filter_any, filterMap_namedAt]

end Change

/-! ## The names of a renamed declaration -/

namespace Declaration

open Change
open Registration (resolvedParts)

variable {declaration : Declaration} {graph : SchemaGraph} {old new : String}
  {parts : List SchemaObject} {x y : SchemaObject}

theorem mem_namedAfter_iff : x ∈ declaration.namedAfter old ↔
    x ∈ declaration.named ∧ x.writtenName = "" ∧ old ∈ x.tableNames := by
  rw [namedAfter, List.mem_filter, SchemaObject.isNamedAfter, Bool.and_eq_true, beq_iff_eq,
    List.contains_iff_mem]

/-- A name that is computed again after the rename is recorded before it, and no other. -/
theorem Renamable.recorded_eq (h : declaration.Renamable old new) (hx : x ∈ declaration.named) :
    ((namesOf SchemaObject.givenName (x.renameTable old new)).current ==
      (namesOf SchemaObject.givenName (x.renameTable old new)).computed) =
        (x.writtenName == "") := by
  have hnamed : (x.renameTable old new).IsNamed := (h.isNamed hx).renameTable h.plainTarget
  rw [Bool.eq_iff_iff, beq_iff_eq, beq_iff_eq]
  constructor
  · intro heq
    by_contra hwritten
    have hname := (hnamed.eq_of_idNamed_eq hnamed heq).1
    rw [SchemaObject.givenName, SchemaObject.writtenName_renameTable, if_neg hwritten] at hname
    exact h.written x hx hwritten _ (h.mem_after hx) hname
  · intro hwritten
    rw [namesOf, SchemaObject.givenName, SchemaObject.writtenName_renameTable, if_pos hwritten]

/-- Of the recorded names those are out of date that were computed from the name of the table. -/
theorem Renamable.isOutdated_eq (h : declaration.Renamable old new) (hx : x ∈ declaration.named)
    (hwritten : x.writtenName = "") :
    isOutdated (SchemaObject.nameAfter old new) x = x.tableNames.contains old := by
  have hname : x.nameAfter old new = (x.renameTable old new).computedName := by
    rw [SchemaObject.nameAfter, SchemaObject.givenName, SchemaObject.writtenName_renameTable,
      if_pos hwritten]
  rw [isOutdated, hname, Bool.eq_iff_iff, bne_iff_ne, List.contains_iff_mem]
  constructor
  · intro hne
    by_contra hold
    rw [SchemaObject.renameTable_of_not_mem hold] at hne
    exact hne rfl
  · exact h.computedName_ne hx hwritten

/-- **The outdated names at the recorded places** are those computed from the name of the table. -/
theorem Renamable.filter_isOutdated (h : declaration.Renamable old new)
    (hparts : ∀ part ∈ parts, part ∈ resolvedParts declaration.objects) :
    (namedAtPlaces parts (computedPlacesFrom 0 (parts.map (livePart old new)))).filter
        (isOutdated (SchemaObject.nameAfter old new)) =
      (parts.flatMap SchemaObject.named).filter (SchemaObject.isNamedAfter old) := by
  have hrecorded := namedAtPlaces_recorded (livePart old new) (fun x => x.writtenName == "")
    parts ?_ ?_ []
  · rw [List.nil_append, List.length_nil] at hrecorded
    rw [hrecorded, List.filter_filter]
    refine List.filter_congr fun x hx => ?_
    obtain ⟨part, hpart, hx⟩ := List.mem_flatMap.1 hx
    have hmem := mem_named_of_mem_part (hparts part hpart) hx
    rw [SchemaObject.isNamedAfter, Bool.and_comm]
    cases hwritten : x.writtenName == "" with
    | true => rw [h.isOutdated_eq hmem (beq_iff_eq.1 hwritten)]
    | false => rfl
  · intro part _
    rw [livePart, SchemaObject.withName_eq_mapNames, placesIn_mapNames, placesIn_renameTable]
  · intro part hpart slot
    have hsplit := (Registration.parts_of_mem_resolvedParts (hparts part hpart)).1
    rw [livePart, SchemaObject.withName_eq_mapNames, namesAt_mapNames, namedAt_renameTable hsplit,
      Option.map_map, Option.any_map]
    cases hslot : namedAt part slot with
    | none => rfl
    | some x =>
      exact h.recorded_eq (mem_named_of_mem_part (hparts part hpart) (mem_named_of_namedAt hslot))

/-- **The outdated names can be refreshed** one after the other, in any order. -/
theorem Renamable.refreshable (h : declaration.Renamable old new)
    (hregister : declaration.register = .ok graph)
    (hnamed : (parts.flatMap SchemaObject.named).Perm declaration.named)
    {stale : List SchemaObject} (hstale : stale.Perm (declaration.namedAfter old)) :
    Refreshable parts (SchemaObject.nameAfter old new) stale := by
  have hnodup := h.nodup_idNamed_nameAfter hregister
  have hmem : ∀ {x}, x ∈ parts.flatMap SchemaObject.named → x ∈ declaration.named :=
    fun hx => hnamed.mem_iff.1 hx
  have hafter : ∀ {x}, x ∈ stale → x ∈ declaration.named ∧ x.writtenName = "" ∧
      old ∈ x.tableNames := fun hx => mem_namedAfter_iff.1 (hstale.mem_iff.1 hx)
  refine ⟨fun x hx => h.isNamed (hmem hx), fun x hx => hnamed.mem_iff.2 (hafter hx).1, ?_, ?_, ?_,
    ?_⟩
  · exact hstale.nodup_iff.2 (hnodup.of_map.filter _)
  · exact fun x hx y hy heq => List.inj_on_of_nodup_map hnodup (hmem hx) (hmem hy) heq
  · intro x hx y hy heq
    obtain ⟨hx, hwritten, hold⟩ := hafter hx
    exact h.nameAfter_ne hx hwritten hold (hmem hy)
      ((h.isNamed (hmem hy)).eq_of_idNamed_eq (h.isNamed hx) heq).1
  · intro x hx y hy heq
    obtain ⟨hx, hxw, -⟩ := hafter hx
    obtain ⟨hy, hyw, -⟩ := hafter hy
    exact h.computed x (List.mem_append_left _ hx) y (List.mem_append_left _ hy) hxw hyw
      ((h.isNamed hx).eq_of_idNamed_eq (h.isNamed hy) heq).1

/-- **With the outdated names refreshed** every name is the one from before the rename. -/
theorem mapNames_refreshedName {stale : List SchemaObject}
    (hstale : stale.Perm (declaration.namedAfter old)) {part : SchemaObject}
    (hpart : part ∈ resolvedParts declaration.objects) :
    part.mapNames (refreshedName (SchemaObject.nameAfter old new) stale) = part.withName := by
  rw [SchemaObject.withName_eq_mapNames]
  refine SchemaObject.mapNames_congr fun x hx => ?_
  rw [refreshedName]
  split
  · rename_i hmem
    obtain ⟨-, hwritten, -⟩ := mem_namedAfter_iff.1 (hstale.mem_iff.1 hmem)
    rw [SchemaObject.givenName, if_pos hwritten]
  · rename_i hmem
    rw [SchemaObject.nameAfter]
    by_cases hold : old ∈ x.tableNames
    · have hwritten : x.writtenName ≠ "" := fun heq => hmem (hstale.mem_iff.2
        (mem_namedAfter_iff.2 ⟨mem_named_of_mem_part hpart hx, heq, hold⟩))
      rw [SchemaObject.givenName, SchemaObject.writtenName_renameTable, if_neg hwritten,
        SchemaObject.givenName, if_neg hwritten]
    · rw [SchemaObject.renameTable_of_not_mem hold]

end Declaration

end SchemaPlan
