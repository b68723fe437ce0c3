import SchemaPlan.Proofs.Change.Coverage
import SchemaPlan.Proofs.Change.FreshBuild
import SchemaPlan.Proofs.Change.Recreation
import SchemaPlan.Proofs.Change.Shedding

/-!
# The users of a dropped object

An object that is not declared any more is dropped, and live tables and indexes may use it.

* `Fate`: what becomes of a table or index before an object that it uses is dropped.
* `diff_releases`: every user meets its fate, and no column keeps a dropped enum type.
* `dropped_function_still_used`: a part that is declared as it is live stays, also when it uses
  what is dropped.
-/

set_option autoImplicit false

namespace SchemaPlan.Change

/-! ## What becomes of users -/

/-- An operation is done to an object before another object is dropped. -/
def HappensBefore (schedule : List Step) (user used : ObjectId) (operation : Operation) : Prop :=
  ∃ step ∈ schedule, step.subject = user ∧ step.operation = operation ∧
    ∀ drop ∈ schedule, drop.subject = used → Precedes schedule step drop

/-- A change is made to an object before another object is dropped. -/
def ChangesBefore (schedule : List Step) (user used : ObjectId) (change : AlterChange) : Prop :=
  ∃ changes, change ∈ changes ∧ HappensBefore schedule user used (.alter user changes)

/-- What becomes of a live table or index before an object is dropped that it uses: it goes for
good, an index goes to come again, a table sheds what is not declared, or an index stays and no
operation is about it. -/
inductive Fate (options : DiffOptions) (declared live : SchemaGraph) (schedule : List Step)
    (user used : ObjectId) : Prop
  | gone {existing : SchemaObject} (hexisting : live.get? user = some existing)
      (hnone : user ∉ declared.ids)
      (h : HappensBefore schedule user used (dropOperation existing))
  | replaced {d l : Index} (hdeclared : declared.get? user = some (.index d))
      (hlive : live.get? user = some (.index l))
      (hagain : CreatedAgain (declared.withoutIgnored options) (live.withoutIgnored options) user)
      (h : HappensBefore schedule user used (.drop (.index l)))
  | altered {d l : Table} (hdeclared : declared.get? user = some (.table d))
      (hlive : live.get? user = some (.table l))
      (h : Sheds d l (ChangesBefore schedule user used))
  | kept {d l : Index} (hdeclared : declared.get? user = some (.index d))
      (hlive : live.get? user = some (.index l)) (hsame : d.canonical = l.canonical)
      (h : ∀ step ∈ schedule, step.subject ≠ user ∧ step.operation.target ≠ user)

/-- What a schedule does about an object that is dropped for good. -/
structure Releases (options : DiffOptions) (declared live : SchemaGraph) (schedule : List Step)
    (used : ObjectId) : Prop where
  /-- The object is dropped, and nothing else is done to it. -/
  dropped : ∃ existing, live.get? used = some existing ∧
    deeds schedule used = [(.removal, dropOperation existing)]
  /-- The tables and indexes that use it meet their fates before. -/
  users : ∀ user, user.kind = .table ∨ user.kind = .index → used ∈ live.dependencies user →
    Fate options declared live schedule user used
  /-- The columns of a dropped enum type go or get another type before, when their table stays. -/
  types : ∀ user d l name, declared.get? user = some (.table d) →
    live.get? user = some (.table l) → used = ⟨.enum, name⟩ →
      ∀ column ∈ l.columns, column.type.enumName? = some name →
        ChangesBefore schedule user used (.dropColumn column) ∨
          ∃ type, type.enumName? ≠ some name ∧
            ChangesBefore schedule user used (.alterColumnType column.name column.type type)

/-- A comparison that alters an index finds it the same. -/
theorem same_of_alters {options : DiffOptions} {d l : Index} {verdict : Verdict}
    (h : compareObjects options (.index d) (.index l) = .ok verdict)
    {removals additions : List AlterChange} (halters : verdict.Alters removals additions) :
    d.canonical = l.canonical ∧ removals = [] ∧ additions = [] := by
  cases h
  rw [Verdict.Alters] at halters
  split at halters
  · rename_i hequivalent
    rcases halters with halters | ⟨-, hnil⟩
    · cases halters
    · exact ⟨SchemaObject.index.inj (beq_iff_eq.1 hequivalent), hnil⟩
  · rcases halters with halters | ⟨halters, -⟩
    · cases halters
    · cases halters

section Users

variable {options : DiffOptions} {declared live : SchemaGraph} {changes : ChangeSet}
  {recreated : List ObjectId} {schedule : List Step} {user used : ObjectId}

/-- What a user loses, and all that is done to a table, happens before the drop of what it uses. -/
theorem happensBefore_of_deed {sources : List SchemaObject}
    (hdeclared : register sources = .ok declared)
    (hsafe : OrderSafe options declared live schedule) {existing : SchemaObject}
    (hdrop : deeds schedule used = [(.removal, dropOperation existing)])
    (hgone : used ∉ declared.ids) (huses : used ∈ live.dependencies user)
    {phase : Phase} {operation : Operation} (hdeed : (phase, operation) ∈ deeds schedule user)
    (hphase : phase = .removal ∨ phase = .addition ∧ user.kind = .table) :
    HappensBefore schedule user used operation := by
  obtain ⟨step, hstep, rfl, rfl, rfl⟩ := mem_deeds_iff.1 hdeed
  refine ⟨step, hstep, rfl, rfl, fun drop hmem hsubject => ?_⟩
  have hremoval : drop.phase = .removal := by
    have hdeed := mem_deeds_iff.2 ⟨drop, hmem, hsubject, rfl, rfl⟩
    rw [hdrop, List.mem_singleton] at hdeed
    exact congrArg Prod.fst hdeed
  subst hsubject
  rcases hphase with hphase | ⟨hphase, hkind⟩
  · exact hsafe.removals step hstep drop hmem hphase hremoval huses
  · exact hsafe.release step hstep drop hmem hphase hremoval hkind huses
      (fun hmem => hgone (Registration.closed_of_register hdeclared hmem)) hgone

/-- The alterations of an object are the operations that hold its changes. -/
theorem changesBefore_iff {removals additions : List AlterChange}
    (hdeeds : deeds schedule user = alterations user removals additions)
    (hbefore : ∀ phase operation, (phase, operation) ∈ deeds schedule user →
      phase = .removal ∨ phase = .addition ∧ user.kind = .table →
        HappensBefore schedule user used operation)
    (hkind : user.kind = .table) {change : AlterChange} :
    ChangesBefore schedule user used change ↔ change ∈ removals ++ additions := by
  rw [List.mem_append]
  constructor
  · rintro ⟨parts, hchange, step, hstep, hsubject, hoperation, -⟩
    have hdeed := mem_deeds_iff.2 ⟨step, hstep, hsubject, rfl, hoperation⟩
    rw [hdeeds, mem_alterations_iff] at hdeed
    rcases hdeed with ⟨-, -, heq⟩ | ⟨-, -, heq⟩
    · cases heq
      exact .inl hchange
    · cases heq
      exact .inr hchange
  · rintro (hchange | hchange)
    · refine ⟨removals, hchange, hbefore .removal _ ?_ (.inl rfl)⟩
      rw [hdeeds, mem_alterations_iff]
      exact .inl ⟨rfl, List.ne_nil_of_mem hchange, rfl⟩
    · refine ⟨additions, hchange, hbefore .addition _ ?_ (.inr ⟨rfl, hkind⟩)⟩
      rw [hdeeds, mem_alterations_iff]
      exact .inr ⟨rfl, List.ne_nil_of_mem hchange, rfl⟩

/-- What becomes of a table that stays. -/
theorem sheds_of_accounts (haccounts : Accounts options declared live recreated schedule)
    (hrecreated : recreatedSet options (declared.withoutIgnored options)
      (live.withoutIgnored options) = .ok recreated)
    {d l : Table} (hobject : declared.get? user = some (.table d))
    (hexisting : live.get? user = some (.table l))
    (hbefore : ∀ phase operation, (phase, operation) ∈ deeds schedule user →
      phase = .removal ∨ phase = .addition ∧ user.kind = .table →
        HappensBefore schedule user used operation) :
    Sheds d l (ChangesBefore schedule user used) := by
  have hkind : user.kind = .table := by
    rw [← (SchemaGraph.get?_eq_some_iff.1 hobject).2]
    rfl
  have hkept : options.ignoresId user = false := by
    refine DiffOptions.not_ignoresId_of_kind ?_
    rw [hkind]
    nofun
  have hagain : user ∉ recreated := fun hmem => kind_of_mem_recreatedSet hrecreated hmem hkind
  obtain ⟨verdict, removals, additions, hverdict, halters, hdeeds, -⟩ :=
    haccounts.altered user _ _ hobject hexisting hkept hagain
  obtain ⟨changes, hchanges, rfl⟩ := compareObjects_table hverdict
  obtain ⟨rfl, rfl⟩ := changes_of_alters rfl halters
  have hhappens : ChangesBefore schedule user used =
      (· ∈ changes.removals ++ changes.additions) :=
    funext fun change => propext (changesBefore_iff hdeeds hbefore hkind)
  rw [hhappens]
  exact sheds_of_compareTables hchanges

/-- An object meets its fate when what is done to it happens before the drop. -/
theorem fate_of_accounts (haccounts : Accounts options declared live recreated schedule)
    (hfits : ∀ step ∈ schedule, step.Fits declared live)
    (hrecreated : recreatedSet options (declared.withoutIgnored options)
      (live.withoutIgnored options) = .ok recreated)
    (hkind : user.kind = .table ∨ user.kind = .index) (huser : user ∈ live.ids)
    (hbefore : ∀ phase operation, (phase, operation) ∈ deeds schedule user →
      phase = .removal ∨ phase = .addition ∧ user.kind = .table →
        HappensBefore schedule user used operation) :
    Fate options declared live schedule user used := by
  have hkept : options.ignoresId user = false := by
    refine DiffOptions.not_ignoresId_of_kind ?_
    rcases hkind with hkind | hkind
    all_goals
      rw [hkind]
      nofun
  obtain ⟨existing, hexisting⟩ := SchemaGraph.mem_ids_iff_exists_get?.1 huser
  by_cases hdeclared : user ∈ declared.ids
  case neg =>
    refine .gone hexisting hdeclared (hbefore .removal _ ?_ (.inl rfl))
    rw [haccounts.dropped user existing hexisting hdeclared hkept]
    exact List.mem_singleton_self _
  case pos =>
    obtain ⟨object, hobject⟩ := SchemaGraph.mem_ids_iff_exists_get?.1 hdeclared
    rcases hkind with hkind | hkind
    · obtain ⟨d, rfl⟩ := SchemaGraph.exists_table_of_get? hobject hkind
      obtain ⟨l, rfl⟩ := SchemaGraph.exists_table_of_get? hexisting hkind
      exact .altered hobject hexisting
        (sheds_of_accounts haccounts hrecreated hobject hexisting hbefore)
    · obtain ⟨d, rfl⟩ := SchemaGraph.exists_index_of_get? hobject hkind
      obtain ⟨l, rfl⟩ := SchemaGraph.exists_index_of_get? hexisting hkind
      by_cases hagain : user ∈ recreated
      · obtain ⟨_, _, -, hexisting', -, hdeeds⟩ := haccounts.replaced user hagain
        rw [hexisting] at hexisting'
        cases hexisting'
        refine .replaced hobject hexisting ((mem_recreatedSet_iff hrecreated).1 hagain)
          (hbefore .removal _ ?_ (.inl rfl))
        rw [hdeeds]
        exact List.mem_cons_self
      · obtain ⟨verdict, removals, additions, hverdict, halters, hdeeds, -⟩ :=
          haccounts.altered user _ _ hobject hexisting hkept hagain
        obtain ⟨hsame, rfl, rfl⟩ := same_of_alters hverdict halters
        have hsubject : ∀ step ∈ schedule, step.subject ≠ user := by
          intro step hstep hsubject
          have hdeed := mem_deeds_iff.2 ⟨step, hstep, hsubject, rfl, rfl⟩
          rw [hdeeds] at hdeed
          cases hdeed
        refine .kept hobject hexisting hsame fun step hstep => ⟨hsubject step hstep, ?_⟩
        intro htarget
        rcases (hfits step hstep).target with heq | htable
        · exact hsubject step hstep (heq.symm.trans htarget)
        · rw [htarget, hkind] at htable
          cases htable

/-- A registered table has no type that refers to an enum type which is not registered. -/
theorem enumName?_ne_of_register {sources : List SchemaObject}
    (hdeclared : register sources = .ok declared) {d : Table}
    (hd : declared.get? user = some (.table d)) {name : String}
    (hgone : (⟨.enum, name⟩ : ObjectId) ∉ declared.ids) {column : Column}
    (hcolumn : column ∈ d.columns) : column.type.enumName? ≠ some name := by
  intro htype
  have hmem := (SchemaGraph.get?_eq_some_iff.1 hd).1
  obtain ⟨hsettled, -⟩ := Registration.settled_of_register hdeclared
  obtain ⟨object, hobject, hid⟩ := (hsettled.sound hmem).2.1 column hcolumn name htype
  refine hgone ?_
  rw [← hid, ← declared.map_id_objects]
  exact List.mem_map_of_mem hobject

/-- The columns of an enum type go or get another type when it is not declared any more. -/
theorem Sheds.enumType {d l : Table} {happens : AlterChange → Prop} (h : Sheds d l happens)
    (hlive : (l.columns.map Column.name).Nodup) {name : String}
    (hdeclared : ∀ column ∈ d.columns, column.type.enumName? ≠ some name) {column : Column}
    (hcolumn : column ∈ l.columns) (htype : column.type.enumName? = some name) :
    happens (.dropColumn column) ∨
      ∃ type, type.enumName? ≠ some name ∧
        happens (.alterColumnType column.name column.type type) := by
  cases hfind : d.column? column.name with
  | none => exact .inl ((h.columns column).2 ⟨hcolumn, hfind⟩)
  | some c =>
    have hc : c ∈ d.columns := List.mem_of_find?_eq_some hfind
    have hname : c.name = column.name := by simpa using List.find?_some hfind
    refine .inr ⟨c.type, hdeclared c hc, (h.types _ _ _).2 ⟨c, hc, column, ?_, ?_, hname, rfl,
      rfl⟩⟩
    · exact (Table.column?_eq_some_iff hlive).2 ⟨hcolumn, hname.symm⟩
    · intro heq
      exact hdeclared c hc (heq ▸ htype)

/-- A live table uses the enum types of its columns. -/
theorem mem_dependencies_of_enumName? {sources : List SchemaObject}
    (hlive : register sources = .ok live) {l : Table} (hl : live.get? user = some (.table l))
    {column : Column} (hcolumn : column ∈ l.columns) {name : String}
    (htype : column.type.enumName? = some name) :
    (⟨.enum, name⟩ : ObjectId) ∈ live.dependencies user := by
  obtain ⟨hsettled, hgraph⟩ := Registration.settled_of_register hlive
  obtain ⟨hmem, hid⟩ := SchemaGraph.get?_eq_some_iff.1 hl
  rw [hgraph, Registration.mem_dependencies_graphOf_iff hsettled.ascending]
  refine ⟨_, hmem, hid, List.mem_append_left _ (List.mem_flatMap.2 ⟨column, hcolumn, ?_⟩)⟩
  rw [Registration.columnDependencies, htype]
  simp

/-- **Before an object is dropped for good, each table and index that uses it meets its fate**,
and no column keeps an enum type that is dropped. -/
theorem diff_releases {declaredSources liveSources : List SchemaObject}
    (hdeclared : register declaredSources = .ok declared)
    (hlive : register liveSources = .ok live) (hhints : options.WithoutHints)
    (h : diff options declared live = .ok changes) :
    ∃ schedule : List Step, changes.operations = schedule.map Step.operation ∧
      ∀ used ∈ live.ids, used ∉ declared.ids → options.ignoresId used = false →
        Releases options declared live schedule used := by
  rw [diff_eq_plan hhints] at h
  obtain ⟨orders, recreated, schedule, hschedule⟩ := exists_schedule h
  have haccounts := hschedule.accounts hdeclared
  have hsafe := hschedule.orderSafe hdeclared
  refine ⟨schedule, hschedule.operations, fun used hused hgone hkept => ?_⟩
  obtain ⟨existing, hexisting⟩ := SchemaGraph.mem_ids_iff_exists_get?.1 hused
  have hdrop := haccounts.dropped used existing hexisting hgone hkept
  constructor
  case dropped => exact ⟨existing, hexisting, hdrop⟩
  case users =>
    intro user hkind huses
    refine fate_of_accounts haccounts
      (fun step hstep => (hschedule.fits hstep).of_withoutIgnored) hschedule.recreation hkind
      (SchemaGraph.mem_ids_of_mem_dependencies huses) fun phase operation hdeed hphase => ?_
    exact happensBefore_of_deed hdeclared hsafe hdrop hgone huses hdeed hphase
  case types =>
    rintro user d l name hd hl rfl column hcolumn htype
    have huses := mem_dependencies_of_enumName? hlive hl hcolumn htype
    have hsheds := sheds_of_accounts haccounts hschedule.recreation hd hl
      fun phase operation => happensBefore_of_deed hdeclared hsafe hdrop hgone huses
    have hmem := (SchemaGraph.get?_eq_some_iff.1 hl).1
    have hnodup := ((Registration.settled_of_register hlive).1.sound hmem).1
    exact hsheds.enumType hnodup (fun c hc => enumName?_ne_of_register hdeclared hd hgone hc)
      hcolumn htype

end Users

/-- A column of a type that goes gets another type before, and another column goes before. -/
theorem diff_releases_enum_columns : ∃ declared live changes,
    register [.table { name := "entry", columns := [{ name := "mood", type := .text }] }] =
      .ok declared ∧
    register [.enum { name := "mood", labels := ["calm"] },
      .table {
        name := "entry"
        columns := [{ name := "mood", type := .custom "mood" },
          { name := "old", type := .custom "mood" }] }] = .ok live ∧
    diff {} declared live = .ok changes ∧
    changes.operations = [
      .alter (.table "entry") [.dropColumn { name := "old", type := .enum "mood" }],
      .alter (.table "entry") [.alterColumnType "mood" (.enum "mood") .text],
      .drop (.enum { name := "mood", labels := ["calm"] })] ∧
    ∃ schedule : List Step, changes.operations = schedule.map Step.operation ∧
      Releases {} declared live schedule ⟨.enum, "mood"⟩ := by
  have hrun : (do
      let declared ← register
        [.table { name := "entry", columns := [{ name := "mood", type := .text }] }]
      let live ← register [.enum { name := "mood", labels := ["calm"] },
        .table {
          name := "entry"
          columns := [{ name := "mood", type := .custom "mood" },
            { name := "old", type := .custom "mood" }] }]
      let changes ← diff {} declared live
      pure (changes.operations, declared.ids, live.ids)) = .ok
        ([.alter (.table "entry") [.dropColumn { name := "old", type := .enum "mood" }],
          .alter (.table "entry") [.alterColumnType "mood" (.enum "mood") .text],
          .drop (.enum { name := "mood", labels := ["calm"] })],
        [.table "entry"], [⟨.enum, "mood"⟩, .table "entry"]) := by
    simp only [diff, plan, orderSteps, Step.mergeSort_before]
    decide +kernel
  obtain ⟨declared, hdeclared, hrun⟩ := Outcome.bind_eq_ok_iff.1 hrun
  obtain ⟨live, hlive, hrun⟩ := Outcome.bind_eq_ok_iff.1 hrun
  obtain ⟨changes, hdiff, hrun⟩ := Outcome.bind_eq_ok_iff.1 hrun
  obtain ⟨hoperations, hrun⟩ := Prod.mk.inj (Except.ok.inj hrun)
  obtain ⟨hdeclaredIds, hliveIds⟩ := Prod.mk.inj hrun
  obtain ⟨schedule, hschedule, hreleases⟩ := diff_releases hdeclared hlive ⟨rfl, rfl⟩ hdiff
  refine ⟨declared, live, changes, hdeclared, hlive, hdiff, hoperations, schedule, hschedule,
    hreleases _ ?_ ?_ rfl⟩
  · rw [hliveIds]
    decide
  · rw [hdeclaredIds]
    decide

/-- A function that gives a text. -/
def noteFunction : Function where
  name := "f"
  returns := "text"
  language := "sql"
  body := "SELECT 'x'"

/-- A table with a default that calls it. -/
def noteTable : Table where
  name := "t"
  columns := [{ name := "c", type := .text, default := some (.expression "f()") }]

/-- **A function is dropped although a table still calls it**: the table is declared as it is
live, so nothing is done to it. -/
theorem dropped_function_still_used : ∃ declared live changes,
    register [.table noteTable] = .ok declared ∧
    register [.function noteFunction, .table noteTable] = .ok live ∧
    diff {} declared live = .ok changes ∧
    changes.operations = [.drop (.function noteFunction)] ∧
    ¬ ∀ used ∈ live.ids, used.kind = .enum ∨ used.kind = .function → used ∉ declared.ids →
      ∀ user, user.kind = .table ∨ user.kind = .index → used ∈ live.dependencies user →
        ∃ operation ∈ changes.operations, operation.target = user := by
  let declared : SchemaGraph := .ofNodes [⟨.table noteTable, []⟩]
  let live : SchemaGraph := .ofNodes
    [⟨.function noteFunction, []⟩, ⟨.table noteTable, [⟨.function, "f"⟩]⟩]
  let orders : Orders := ⟨[.table "t"], [.table "t", ⟨.function, "f"⟩]⟩
  have hkept : declared.withoutIgnored {} = declared ∧ live.withoutIgnored {} = live := by
    decide +kernel
  have hsame : ∀ object ∈ declared.objects, ∀ existing, live.get? object.id = some existing →
      object.Agrees existing := by
    intro object hobject existing hexisting
    have hobjects : declared.objects = [.table noteTable] := by decide +kernel
    have hlive : live.get? (.table "t") = some (.table noteTable) := by decide +kernel
    rw [hobjects, List.mem_singleton] at hobject
    subst hobject
    obtain rfl := Option.some.inj (hexisting.symm.trans hlive)
    refine SchemaObject.agrees_of_canonical_eq (fun t ht => ?_) rfl
    cases ht
    exact List.nodup_singleton _
  obtain ⟨candidates, hplan⟩ := plan_of_agrees {} orders
    (by decide +kernel : declared.creationOrder = .ok orders.creation)
    (by decide +kernel : live.deletionOrder = .ok orders.deletion) hsame
    (by decide +kernel : orderSteps declared live _ = .ok [.drop (.function noteFunction)])
  refine ⟨declared, live, ⟨_, candidates⟩, by decide +kernel, by decide +kernel, ?_, rfl,
    fun hall => ?_⟩
  · rw [diff_eq_plan ⟨rfl, rfl⟩, hkept.1, hkept.2]
    exact hplan
  · obtain ⟨operation, hoperation, htarget⟩ := hall ⟨.function, "f"⟩ (by decide +kernel)
      (.inr rfl) (by decide +kernel) (.table "t") (.inl rfl) (by decide +kernel)
    rw [List.mem_singleton.1 hoperation] at htarget
    cases htarget

end SchemaPlan.Change
