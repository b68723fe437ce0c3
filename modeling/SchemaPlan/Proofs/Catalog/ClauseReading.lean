import Mathlib.Data.List.Sublists
import SchemaPlan.Catalog.Assembly
import SchemaPlan.Dialect.Statement
import SchemaPlan.Proofs.Text.Blank
import SchemaPlan.Proofs.Text.Quoted

/-!
# Checks and triggers read back from their definitions

The expression of a check and the condition of a trigger are free text inside a statement, and
are cut out of it again:

* `longestInside_append`: the last parenthesis behind which the statement can go on closes the
  text, whatever the text itself holds.
* `condition?_append`: what stands before the condition of a trigger is passed over when it has
  no word `WHEN`; `lacksWhen_opening` says that of what a trigger writes there.
* `definitions_read_back`: a trigger and a check are assembled from the definitions that are
  written for them.
-/

set_option autoImplicit false

namespace SchemaPlan.Catalog

open SchemaPlan.Text (isBlank words)

variable {ends : List Char → Bool} {a b rest : List Char} {c : Char}

/-! ## The closing parenthesis -/

theorem longestInside_eq_none (h : ∀ x y, b = x ++ ')' :: y → ends y = false) :
    longestInside ends b = none := by
  induction b with
  | nil => rfl
  | cons c r ih =>
    have hrest : longestInside ends r = none := by
      apply ih
      intro x y hr
      exact h (c :: x) y (by rw [hr, List.cons_append])
    have hhere : (c = ')' && ends r) = false := by
      by_cases hc : c = ')'
      · subst hc
        simp [h [] r rfl]
      · simp [hc]
    rw [longestInside, hrest]
    simp [hhere]

/-- The last parenthesis that can close a text closes it. -/
theorem longestInside_append (hends : ends b = true)
    (hlast : ∀ x y, b = x ++ ')' :: y → ends y = false) (inside : List Char) :
    longestInside ends (inside ++ ')' :: b) = some inside := by
  induction inside with
  | nil => simp [longestInside, longestInside_eq_none hlast, hends]
  | cons c r ih => rw [List.cons_append, longestInside, ih]

/-! ## Checks -/

/-- What may follow a check: nothing, or that it was not validated. -/
def checkEndings : List String := ["", " NOT VALID"]

theorem checked?_of_ending {ending : String} (h : ending ∈ checkEndings) (expression : List Char) :
    checked? ("CHECK (".toList ++ (expression ++ ')' :: ending.toList)) = some expression := by
  have hends : endsCheck ending.toList = true ∧ ')' ∉ ending.toList := by
    revert ending
    decide
  have hinside : longestInside endsCheck (expression ++ ')' :: ending.toList) = some expression := by
    apply longestInside_append hends.1
    intro x y heq
    exact absurd (by simp [heq]) hends.2
  show longestInside endsCheck (expression ++ ')' :: ending.toList) = some expression
  exact hinside

/-! ## What stands before a condition -/

/-- Whether no word of a text can open a condition. -/
def LacksWhen (s : List Char) : Prop := "WHEN".toList ∉ words s

instance (s : List Char) : Decidable (LacksWhen s) :=
  inferInstanceAs (Decidable ("WHEN".toList ∉ words s))

/-- A condition opens behind the word `WHEN`. -/
theorem mem_words_of_afterWhen? {behind : List Char} (hrest : ∀ d ∈ rest.head?, isBlank d = true)
    (h : afterWhen? (c :: (a ++ rest)) = some behind) :
    isBlank c = true ∧ "WHEN".toList ∈ words a := by
  rw [afterWhen?] at h
  split at h
  · rename_i hc
    refine ⟨hc, ?_⟩
    obtain ⟨r, hwhen, hblanks⟩ := Option.bind_eq_some_iff.1 h
    rw [Text.after?_eq_some_iff] at hwhen
    cases r with
    | nil => cases hblanks
    | cons d r =>
      have hd : isBlank d = true := by
        by_contra hd
        simp [afterBlanks?, hd] at hblanks
      have hlone : words "WHEN".toList = ["WHEN".toList] := by decide
      rcases List.append_eq_append_iff.1 hwhen with ⟨t, hword, htail⟩ | ⟨t, ha, htail⟩
      · -- The word can not go on behind `a`, where a blank stands.
        cases t with
        | nil => rw [List.append_nil] at hword; rw [← hword, hlone]; exact List.mem_singleton_self _
        | cons e t =>
          have he : isBlank e = true := hrest e (by rw [htail]; rfl)
          have hnone : ∀ x ∈ "WHEN".toList, isBlank x = false := by decide
          rw [hnone e (by rw [hword]; simp)] at he
          cases he
      · cases t with
        | nil => rw [List.append_nil] at ha; rw [ha, hlone]; exact List.mem_singleton_self _
        | cons e t =>
          obtain ⟨rfl, -⟩ := List.cons.inj htail
          rw [ha, Text.words_append_blank hd, hlone]
          exact List.mem_append_left _ (List.mem_singleton_self _)
  · cases h

theorem condition?_cons (c : Char) (r : List Char) :
    condition? (c :: r) =
      match (afterWhen? (c :: r)).bind (longestInside endsCondition) with
      | some condition => some condition
      | none => condition? r := by
  rfl

/-- Text without the word `WHEN` is passed over, up to a blank. -/
theorem condition?_append (ha : LacksWhen a)
    (hrest : ∀ d ∈ rest.head?, isBlank d = true) :
    condition? (a ++ rest) = condition? rest := by
  suffices hsuffix : ∀ x y, a = x ++ y → condition? (y ++ rest) = condition? rest from
    hsuffix [] a rfl
  intro x y
  induction y generalizing x with
  | nil =>
    intro _
    rw [List.nil_append]
  | cons c y ih =>
    intro heq
    have hnone : afterWhen? (c :: (y ++ rest)) = none := by
      rw [Option.eq_none_iff_forall_ne_some]
      intro behind hbehind
      obtain ⟨hc, hword⟩ := mem_words_of_afterWhen? hrest hbehind
      apply ha
      rw [heq, Text.words_append_blank hc]
      exact List.mem_append_right _ hword
    rw [List.cons_append, condition?_cons, hnone]
    exact ih (x ++ [c]) (by simp [heq])

/-- A condition is read up to the parenthesis before the function. -/
theorem condition?_when {tail : List Char} (hends : endsCondition tail = true)
    (hlast : ∀ x y, tail = x ++ ')' :: y → endsCondition y = false) (condition : List Char) :
    condition? (" WHEN (".toList ++ (condition ++ ')' :: tail)) = some condition := by
  have hinside := longestInside_append hends hlast condition
  have hwhen : afterWhen? (' ' :: ("WHEN (".toList ++ (condition ++ ')' :: tail))) =
      some (condition ++ ')' :: tail) := rfl
  have hstart : " WHEN (".toList ++ (condition ++ ')' :: tail) =
      ' ' :: ("WHEN (".toList ++ (condition ++ ')' :: tail)) := rfl
  rw [hstart, condition?_cons, hwhen, Option.bind_some, hinside]

/-! ## The text of a trigger -/

/-- All names in the text of a trigger. -/
def namesInText (trigger : Trigger) : List String :=
  [trigger.name, trigger.table, trigger.function] ++ trigger.oldTable.toList ++
    trigger.newTable.toList

/-- Whether a name holds no blank. -/
def IsBlankFree (name : String) : Prop := ∀ c ∈ name.toList, isBlank c = false

instance (name : String) : Decidable (IsBlankFree name) :=
  inferInstanceAs (Decidable (∀ c ∈ name.toList, isBlank c = false))

/-- What stands before the condition or the function of a trigger. -/
def opening (trigger : Trigger) : String :=
  "CREATE TRIGGER " ++ Text.quoteIdentifier trigger.name ++ "\n  " ++ trigger.timing.sql ++ " " ++
    Text.join " OR " (trigger.events.map TriggerEvent.sql) ++ " ON " ++
    Text.quoteIdentifier trigger.table ++ Postgres.transitionTables trigger ++
    (match trigger.scope with
      | .row => "\n  FOR EACH ROW"
      | .statement => "\n  FOR EACH STATEMENT") ++ "\n "

/-- The function of a trigger, which ends its text. -/
def closing (trigger : Trigger) : String :=
  " EXECUTE FUNCTION " ++ Text.quoteIdentifier trigger.function ++ "()"

theorem not_blank_of_mem_quoteIdentifier {name : String} (h : IsBlankFree name) :
    ∀ c ∈ (Text.quoteIdentifier name).toList, isBlank c = false := by
  intro c hc
  rw [Text.quoteIdentifier, String.toList_ofList, Text.mem_enclose] at hc
  rcases hc with rfl | hc
  · decide
  · exact h c hc

/-- A name in quotes is no `WHEN`, whatever follows it without a blank. -/
theorem lacksWhen_quoteIdentifier_append {name : String} (h : IsBlankFree name)
    (hb : ∀ c ∈ b, isBlank c = false) : LacksWhen ((Text.quoteIdentifier name).toList ++ b) := by
  have hstart : (Text.quoteIdentifier name).toList ++ b =
      '"' :: (Text.double '"' name.toList ++ ['"'] ++ b) := by
    rw [Text.quoteIdentifier, String.toList_ofList, Text.enclose, List.cons_append]
    rfl
  have hword : ∀ c ∈ (Text.quoteIdentifier name).toList ++ b, isBlank c = false :=
    List.forall_mem_append.2 ⟨not_blank_of_mem_quoteIdentifier h, hb⟩
  rw [hstart] at hword ⊢
  rw [LacksWhen, Text.words_of_not_blank (List.cons_ne_nil _ _) hword, List.mem_singleton]
  intro heq
  have hhead : 'W' = '"' := (List.cons.inj heq).1
  revert hhead
  decide

theorem lacksWhen_quoteIdentifier {name : String} (h : IsBlankFree name) :
    LacksWhen (Text.quoteIdentifier name).toList := by
  simpa using lacksWhen_quoteIdentifier_append h (List.forall_mem_nil _)

theorem lacksWhen_events {events : List TriggerEvent} (h : events.Sublist TriggerEvent.all) :
    LacksWhen (Text.join " OR " (events.map TriggerEvent.sql)).toList := by
  have hall : ∀ events ∈ TriggerEvent.all.sublists,
      LacksWhen (Text.join " OR " (events.map TriggerEvent.sql)).toList := by decide +kernel
  exact hall events (List.mem_sublists.2 h)

/-- Text that can follow a word without joining it, and opens no condition. -/
structure IsClause (s : List Char) : Prop where
  apart : s.head?.all isBlank = true
  lacks : LacksWhen s

instance (s : List Char) : Decidable (IsClause s) :=
  decidable_of_iff (s.head?.all isBlank = true ∧ LacksWhen s)
    ⟨fun h => ⟨h.1, h.2⟩, fun h => ⟨h.apart, h.lacks⟩⟩

theorem LacksWhen.append (ha : LacksWhen a) (hb : IsClause b) : LacksWhen (a ++ b) := by
  cases b with
  | nil => rwa [List.append_nil]
  | cons c b =>
    have hc : isBlank c = true := by simpa using hb.apart
    have hwords := hb.lacks
    rw [LacksWhen, Text.words_cons_blank hc] at hwords
    rw [LacksWhen, Text.words_append_blank hc, List.mem_append]
    exact not_or.2 ⟨ha, hwords⟩

/-- Keywords and what they introduce. -/
theorem isClause_keyword (keyword : String) {content : List Char}
    (hends : keyword.toList.head?.any isBlank ∧ keyword.toList.getLast?.any isBlank)
    (hkeyword : LacksWhen keyword.toList) (hcontent : LacksWhen content) :
    IsClause (keyword.toList ++ content) := by
  obtain ⟨hhead, hlast⟩ := hends
  constructor
  · cases hchars : keyword.toList with
    | nil => simp [hchars] at hhead
    | cons c r => simpa [hchars] using hhead
  · obtain ⟨front, c, hchars⟩ : ∃ front c, keyword.toList = front ++ [c] := by
      rcases List.eq_nil_or_concat keyword.toList with hnil | ⟨front, c, h⟩
      · simp [hnil] at hlast
      · exact ⟨front, c, by simpa using h⟩
    have hc : isBlank c = true := by simpa [hchars] using hlast
    rw [LacksWhen, hchars, Text.words_append_blank hc] at hkeyword
    rw [LacksWhen, hchars, List.append_assoc, List.singleton_append, Text.words_append_blank hc,
      List.mem_append]
    exact not_or.2 ⟨fun h => hkeyword (List.mem_append_left _ h), hcontent⟩

theorem isClause_transitionTables {trigger : Trigger}
    (h : ∀ name ∈ namesInText trigger, IsBlankFree name) :
    IsClause (Postgres.transitionTables trigger).toList := by
  have hclause : ∀ (keyword : String) (table : Option String),
      (∀ name ∈ table, IsBlankFree name) →
      (keyword.toList.head?.any isBlank ∧ keyword.toList.getLast?.any isBlank) →
      LacksWhen keyword.toList →
      IsClause ((table.map fun name => keyword ++ Text.quoteIdentifier name).getD "").toList := by
    intro keyword table hnames hends hkeyword
    cases table with
    | none => exact ⟨rfl, List.not_mem_nil⟩
    | some name =>
      rw [Option.map_some, Option.getD_some, String.toList_append]
      exact isClause_keyword keyword hends hkeyword (lacksWhen_quoteIdentifier (hnames name rfl))
  have hold := hclause " OLD TABLE AS " trigger.oldTable
    (fun name hname => h name (by simp_all [namesInText])) (by decide) (by decide)
  have hnew := hclause " NEW TABLE AS " trigger.newTable
    (fun name hname => h name (by simp_all [namesInText])) (by decide) (by decide)
  have hstart : IsClause "\n  REFERENCING".toList := by decide
  unfold Postgres.transitionTables
  split
  · exact ⟨rfl, List.not_mem_nil⟩
  · rw [String.toList_append, String.toList_append]
    exact ⟨rfl, (hstart.lacks.append hold).append hnew⟩

theorem lacksWhen_opening {trigger : Trigger}
    (h : ∀ name ∈ namesInText trigger, IsBlankFree name)
    (hevents : trigger.events.Sublist TriggerEvent.all) :
    LacksWhen (opening trigger).toList := by
  have hname := lacksWhen_quoteIdentifier (h trigger.name (by simp [namesInText]))
  have htable := lacksWhen_quoteIdentifier (h trigger.table (by simp [namesInText]))
  have hstart : LacksWhen
      ("CREATE".toList ++ (" TRIGGER ".toList ++ (Text.quoteIdentifier trigger.name).toList)) :=
    LacksWhen.append (by decide) (isClause_keyword " TRIGGER " (by decide) (by decide) hname)
  have htiming : IsClause ("\n  ".toList ++ trigger.timing.sql.toList) :=
    isClause_keyword "\n  " (by decide) (by decide) (by cases trigger.timing <;> decide)
  have hevents := isClause_keyword " " (by decide) (by decide)
    (lacksWhen_events hevents)
  have htable := isClause_keyword " ON " (by decide) (by decide) htable
  have hscope : IsClause (match trigger.scope with
      | .row => "\n  FOR EACH ROW"
      | .statement => "\n  FOR EACH STATEMENT").toList := by
    cases trigger.scope <;> decide
  have hall := (((((hstart.append htiming).append hevents).append htable).append
    (isClause_transitionTables h)).append hscope).append (by decide : IsClause "\n ".toList)
  have hcreate : "CREATE TRIGGER ".toList = "CREATE".toList ++ " TRIGGER ".toList := rfl
  unfold opening
  simp only [String.toList_append, hcreate]
  simpa only [List.append_assoc] using hall

/-! ## The condition of a trigger -/

theorem endsCondition_eq_false (h : ∀ c ∈ b.head?, isBlank c = false) : endsCondition b = false := by
  cases b with
  | nil => rfl
  | cons c r =>
    have hnone : afterBlanks? (c :: r) = none := by
      rw [afterBlanks?, if_neg (by simp [h c rfl])]
    rw [endsCondition, hnone]
    rfl

theorem toList_closing (trigger : Trigger) :
    (closing trigger).toList = " EXECUTE FUNCTION ".toList ++
      ((Text.quoteIdentifier trigger.function).toList ++ "()".toList) := by
  unfold closing
  simp only [String.toList_append, List.append_assoc]

/-- The keywords before the function, cut where the opening of a trigger ends. -/
theorem function_keywords :
    "\n  EXECUTE FUNCTION ".toList = "\n ".toList ++ " EXECUTE FUNCTION ".toList := by
  decide

/-- A condition ends before the function, and nowhere behind that. -/
theorem endsCondition_closing {trigger : Trigger} (h : IsBlankFree trigger.function) :
    endsCondition ("\n ".toList ++ (closing trigger).toList) = true ∧
      ∀ x y, "\n ".toList ++ (closing trigger).toList = x ++ ')' :: y → endsCondition y = false := by
  have htext : "\n ".toList ++ (closing trigger).toList = "\n  EXECUTE FUNCTION ".toList ++
      ((Text.quoteIdentifier trigger.function).toList ++ "()".toList) := by
    rw [toList_closing, function_keywords, List.append_assoc]
  rw [htext]
  constructor
  · rfl
  · intro x y heq
    have hword : ∀ c ∈ (Text.quoteIdentifier trigger.function).toList ++ "()".toList,
        isBlank c = false :=
      List.forall_mem_append.2 ⟨not_blank_of_mem_quoteIdentifier h, by decide⟩
    have hkeywords : ')' ∉ "\n  EXECUTE FUNCTION ".toList := by decide
    apply endsCondition_eq_false
    intro c hc
    have hy : c ∈ y := List.mem_of_mem_head? hc
    apply hword
    rcases List.append_eq_append_iff.1 heq with ⟨t, -, hrest⟩ | ⟨t, hstart, hrest⟩
    · rw [hrest]
      simp [hy]
    · -- The keywords hold no parenthesis, so `t` is empty.
      cases t with
      | nil =>
        rw [List.nil_append] at hrest
        rw [← hrest]
        exact List.mem_cons_of_mem _ hy
      | cons d t =>
        obtain ⟨rfl, -⟩ := List.cons.inj hrest
        exact absurd (by rw [hstart]; simp) hkeywords

theorem toList_createTrigger (trigger : Trigger) :
    (Postgres.createTrigger trigger).toList = (opening trigger).toList ++
      match trigger.condition with
      | some condition => " WHEN (".toList ++
          (condition.toList ++ ')' :: ("\n ".toList ++ (closing trigger).toList))
      | none => (closing trigger).toList := by
  have hwhen : "\n  WHEN (".toList = "\n ".toList ++ " WHEN (".toList := rfl
  unfold Postgres.createTrigger opening closing
  cases trigger.condition <;>
    simp only [Option.map_some, Option.map_none, Option.getD_some, Option.getD_none,
      String.toList_append, hwhen, function_keywords, List.append_assoc] <;> rfl

/-- The condition of a trigger is read back from its text. -/
theorem condition?_createTrigger {trigger : Trigger}
    (h : ∀ name ∈ namesInText trigger, IsBlankFree name)
    (hevents : trigger.events.Sublist TriggerEvent.all) :
    condition? (Postgres.createTrigger trigger).toList = trigger.condition.map String.toList := by
  have hopening := lacksWhen_opening h hevents
  have hfunction : IsBlankFree trigger.function := h _ (by simp [namesInText])
  rw [toList_createTrigger]
  cases trigger.condition with
  | none =>
    have hclosing : IsClause (closing trigger).toList := by
      rw [toList_closing]
      exact isClause_keyword " EXECUTE FUNCTION " (by decide) (by decide)
        (lacksWhen_quoteIdentifier_append hfunction (by decide))
    have hskip : condition? ((opening trigger).toList ++ (closing trigger).toList ++ []) =
        condition? [] :=
      condition?_append (hopening.append hclosing) (by simp)
    rwa [List.append_nil] at hskip
  | some condition =>
    obtain ⟨hends, hlast⟩ := endsCondition_closing hfunction
    have hblank : ∀ d ∈ (" WHEN (".toList ++
        (condition.toList ++ ')' :: ("\n ".toList ++ (closing trigger).toList))).head?,
        isBlank d = true := by
      intro d hd
      cases hd
      rfl
    exact (condition?_append hopening hblank).trans (condition?_when hends hlast condition.toList)

/-! ## The flags of a trigger -/

/-- The bit of an event. -/
def eventFlag : TriggerEvent → Int
  | .insert => 4
  | .delete => 8
  | .update => 16
  | .truncate => 32

/-- The bits of a timing; a trigger that runs afterwards has none. -/
def timingFlags : TriggerTiming → Int
  | .before => 2
  | .after => 0
  | .insteadOf => 64

/-- The bit of a scope; a trigger that runs once for a statement has none. -/
def scopeFlags : TriggerScope → Int
  | .row => 1
  | .statement => 0

/-- The row under which a catalog reports a trigger. -/
def TriggerRow.ofTrigger (trigger : Trigger) : TriggerRow :=
  { table := trigger.table
    name := trigger.name
    function := trigger.function
    flags := scopeFlags trigger.scope + timingFlags trigger.timing +
      trigger.events.foldr (eventFlag · + ·) 0
    definition := Postgres.createTrigger trigger
    oldTable := trigger.oldTable
    newTable := trigger.newTable }

/-- Timing, events and scope are read back from their bits. -/
theorem flags_read_back (row : TriggerRow) {timing : TriggerTiming} {scope : TriggerScope}
    {events : List TriggerEvent} (hevents : events.Sublist TriggerEvent.all)
    (hflags : row.flags = scopeFlags scope + timingFlags timing + events.foldr (eventFlag · + ·) 0) :
    row.timing = timing ∧ row.events = events ∧
      (if row.flag 0 then TriggerScope.row else .statement) = scope := by
  obtain ⟨table, name, function, flags, definition, oldTable, newTable⟩ := row
  subst hflags
  have hall : ∀ events ∈ TriggerEvent.all.sublists,
      ∀ timing ∈ [TriggerTiming.before, .after, .insteadOf],
      ∀ scope ∈ [TriggerScope.row, .statement],
      let row : TriggerRow := ⟨"", "", "",
        scopeFlags scope + timingFlags timing + events.foldr (eventFlag · + ·) 0, "", none, none⟩
      row.timing = timing ∧ row.events = events ∧
        (if row.flag 0 then TriggerScope.row else .statement) = scope := by
    decide +kernel
  exact hall events (List.mem_sublists.2 hevents) timing (by cases timing <;> decide) scope
    (by cases scope <;> decide)

/-! ## Rows and their definitions -/

theorem trigger_ofTrigger {trigger : Trigger}
    (h : ∀ name ∈ namesInText trigger, IsBlankFree name)
    (hevents : trigger.events.Sublist TriggerEvent.all) :
    (TriggerRow.ofTrigger trigger).trigger = trigger := by
  obtain ⟨htiming, hread, hscope⟩ := flags_read_back (TriggerRow.ofTrigger trigger) hevents rfl
  have hcondition : (condition? (Postgres.createTrigger trigger).toList).map String.ofList =
      trigger.condition := by
    rw [condition?_createTrigger h hevents, Option.map_map]
    cases trigger.condition with
    | none => rfl
    | some condition => simp
  have hdefinition : (TriggerRow.ofTrigger trigger).definition = Postgres.createTrigger trigger :=
    rfl
  rw [TriggerRow.trigger, htiming, hread, hscope, hdefinition, hcondition]
  rfl

theorem constraint_of_check {row : ConstraintRow} {expression ending : String}
    (hkind : row.kind = "c") (hending : ending ∈ checkEndings)
    (hdefinition : row.definition = "CHECK (" ++ expression ++ ")" ++ ending) :
    row.constraint = .ok ⟨row.name, .check expression⟩ := by
  have hchars : row.definition.toList =
      "CHECK (".toList ++ (expression.toList ++ ')' :: ending.toList) := by
    rw [hdefinition]
    simp only [String.toList_append, List.append_assoc]
    rfl
  have hexpression : row.checkExpression = expression := by
    rw [ConstraintRow.checkExpression, hchars, checked?_of_ending hending]
    simp
  rw [ConstraintRow.constraint, hkind]
  show Except.ok (⟨row.name, .check row.checkExpression⟩ : Constraint) = _
  rw [hexpression]

/-- **Triggers and checks are read back from the definitions that are written for them.** -/
theorem definitions_read_back :
    (∀ trigger : Trigger, (∀ name ∈ namesInText trigger, IsBlankFree name) →
      trigger.events.Sublist TriggerEvent.all →
      (TriggerRow.ofTrigger trigger).trigger = trigger) ∧
    ∀ (row : ConstraintRow) (expression ending : String), row.kind = "c" →
      ending ∈ checkEndings →
      row.definition = "CHECK (" ++ expression ++ ")" ++ ending →
      row.constraint = .ok ⟨row.name, .check expression⟩ :=
  ⟨fun _ h hevents => trigger_ofTrigger h hevents,
    fun _ _ _ hkind hending hdefinition => constraint_of_check hkind hending hdefinition⟩

/-- A trigger whose condition holds the words that stand around conditions. -/
def nestedTrigger : Trigger :=
  { name := "audit"
    table := "order\"lines"
    function := "log"
    timing := .before
    events := [.insert, .delete]
    scope := .row
    newTable := some "WHEN"
    condition := some "new.note = ') EXECUTE FUNCTION f()  WHEN ('" }

/-- A check whose expression holds what may follow a check. -/
def nestedCheck : ConstraintRow :=
  { table := "lines"
    name := "note_check"
    kind := "c"
    columns := []
    definition := "CHECK (note <> ') NOT VALID') NOT VALID"
    referencesTable := none
    referencesColumns := []
    onUpdate := ""
    onDelete := ""
    deferrable := false
    initiallyDeferred := false }

theorem definitions_read_back_nested :
    (∀ name ∈ namesInText nestedTrigger, IsBlankFree name) ∧
    nestedTrigger.events.Sublist TriggerEvent.all ∧
    (TriggerRow.ofTrigger nestedTrigger).trigger = nestedTrigger ∧
    nestedCheck.definition = "CHECK (" ++ "note <> ') NOT VALID'" ++ ")" ++ " NOT VALID" ∧
    nestedCheck.constraint = .ok ⟨"note_check", .check "note <> ') NOT VALID'"⟩ :=
  have hnames : ∀ name ∈ namesInText nestedTrigger, IsBlankFree name := by decide
  have hevents : nestedTrigger.events.Sublist TriggerEvent.all := by decide
  have hdefinition :
      nestedCheck.definition = "CHECK (" ++ "note <> ') NOT VALID'" ++ ")" ++ " NOT VALID" := by
    decide
  ⟨hnames, hevents, definitions_read_back.1 nestedTrigger hnames hevents, hdefinition,
    definitions_read_back.2 nestedCheck _ _ rfl (by decide) hdefinition⟩

end SchemaPlan.Catalog
