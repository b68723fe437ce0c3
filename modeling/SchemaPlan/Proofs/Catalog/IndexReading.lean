import SchemaPlan.Catalog.Assembly
import SchemaPlan.Dialect.Statement
import SchemaPlan.Proofs.Text.Blank
import SchemaPlan.Proofs.Text.Quoted

/-!
# Indexes read back from their definitions

The definition of an index is read twice: a first scan finds where its key list ends, a second one
cuts the list at its commas.  Both pass over a quoted name, whatever the name holds:

* `insideFrom_enclose`, `splitFrom_enclose`: the step for one name.
* `insideFrom_keyText`, `split_keyText`: the run over a list of names.
* `read_quoteList`: a list of columns is read back from its text.
* `index_read_back`: an index is assembled from the definition that is written for it.
-/

set_option autoImplicit false

namespace SchemaPlan

namespace IndexKeys

open Text (double enclose)

variable {c : Char} {names : List (List Char)}

theorem enclose_append (name r : List Char) :
    enclose '"' name ++ r = '"' :: (double '"' name ++ '"' :: r) := by
  rw [enclose, List.cons_append, List.append_assoc, List.singleton_append]

/-! ## The end of the key list -/

theorem insideFrom_quote (depth : Nat) (r : List Char) :
    insideFrom depth none ('"' :: r) = (insideFrom depth (some '"') r).map fun s => '"' :: s := by
  rw [insideFrom, if_pos (by decide)]

/-- The scan leaves a quoted name behind its closing quote.  A quote inside stands twice: the
first closes the token and the second opens it again. -/
theorem insideFrom_double (depth : Nat) (name r : List Char) :
    insideFrom depth (some '"') (double '"' name ++ '"' :: r) =
      (insideFrom depth none r).map fun s => double '"' name ++ '"' :: s := by
  induction name with
  | nil => simp [double, insideFrom]
  | cons c name ih =>
    rw [double]
    split
    · rw [List.cons_append, List.cons_append, insideFrom, if_pos rfl, insideFrom_quote, ih]
      simp only [Option.map_map, Function.comp_def, List.cons_append]
    · rename_i hc
      rw [List.cons_append, insideFrom, if_neg hc, ih]
      simp only [Option.map_map, Function.comp_def, List.cons_append]

theorem insideFrom_enclose (depth : Nat) (name r : List Char) :
    insideFrom depth none (enclose '"' name ++ r) =
      (insideFrom depth none r).map fun s => enclose '"' name ++ s := by
  rw [enclose_append, insideFrom_quote, insideFrom_double]
  simp only [Option.map_map, Function.comp_def, enclose_append]

theorem insideFrom_plain (hc : c ∉ ['\'', '"', '(', ')']) (depth : Nat) (r : List Char) :
    insideFrom depth none (c :: r) = (insideFrom depth none r).map fun s => c :: s := by
  simp only [List.mem_cons, List.not_mem_nil, or_false, not_or] at hc
  obtain ⟨hsingle, hdouble, hopen, hclose⟩ := hc
  rw [insideFrom, if_neg (by simp [hsingle, hdouble]), if_neg hopen, if_neg hclose]

/-- The text of a key list of quoted names. -/
def keyText (names : List (List Char)) : List Char :=
  ", ".toList.intercalate (names.map (enclose '"'))

theorem keyText_cons (name : List Char) (h : names ≠ []) :
    keyText (name :: names) = enclose '"' name ++ ',' :: ' ' :: keyText names := by
  have hmap : names.map (enclose '"') ≠ [] := by simpa using h
  rw [keyText, List.map_cons, List.intercalate_cons_of_ne_nil hmap, keyText, List.append_assoc]
  rfl

theorem keyText_singleton (name : List Char) : keyText [name] = enclose '"' name := by
  rw [keyText, List.map_singleton, List.intercalate_singleton]

/-- A key list of quoted names ends at the parenthesis that closes it. -/
theorem insideFrom_keyText (names : List (List Char)) (r : List Char) :
    insideFrom 1 none (keyText names ++ ')' :: r) = some (keyText names) := by
  have hend : insideFrom 1 none (')' :: r) = some [] := rfl
  induction names with
  | nil => exact hend
  | cons name names ih =>
    by_cases hnames : names = []
    · rw [hnames, keyText_singleton, insideFrom_enclose, hend]
      simp
    · rw [keyText_cons name hnames, List.append_assoc, insideFrom_enclose, List.cons_append,
        List.cons_append, insideFrom_plain (by decide), insideFrom_plain (by decide), ih]
      rfl

/-! ## The keys of a list -/

theorem splitFrom_ne_nil (depth : Nat) (quote : Option Char) (s : List Char) :
    splitFrom depth quote s ≠ [] := by
  cases s with
  | nil => simp [splitFrom]
  | cons c r =>
    rw [splitFrom.eq_def]
    dsimp only
    split
    · simp
    · split <;> simp

theorem splitFrom_comma (r : List Char) :
    splitFrom 0 none (',' :: r) = [] :: splitFrom 0 none r := by
  simp [splitFrom]

/-- Inside a token a character goes on with the key. -/
theorem splitFrom_inside (depth : Nat) (q c : Char) (r : List Char) :
    splitFrom depth (some q) (c :: r) =
      (splitFrom depth (if c = q then none else some q) r).modifyHead (c :: ·) := by
  obtain ⟨p, ps, hrest⟩ :=
    List.exists_cons_of_ne_nil (splitFrom_ne_nil depth (if c = q then none else some q) r)
  rw [splitFrom, if_neg (by simp)]
  simp [hrest]

theorem splitFrom_quote (depth : Nat) (r : List Char) :
    splitFrom depth none ('"' :: r) = (splitFrom depth (some '"') r).modifyHead ('"' :: ·) := by
  obtain ⟨p, ps, hrest⟩ := List.exists_cons_of_ne_nil (splitFrom_ne_nil depth (some '"') r)
  simp [splitFrom, hrest]

theorem splitFrom_blank (r : List Char) :
    splitFrom 0 none (' ' :: r) = (splitFrom 0 none r).modifyHead (' ' :: ·) := by
  obtain ⟨p, ps, hrest⟩ := List.exists_cons_of_ne_nil (splitFrom_ne_nil 0 none r)
  simp [splitFrom, hrest]

theorem splitFrom_double (depth : Nat) (name r : List Char) :
    splitFrom depth (some '"') (double '"' name ++ '"' :: r) =
      (splitFrom depth none r).modifyHead fun s => double '"' name ++ '"' :: s := by
  induction name with
  | nil => rw [double, List.nil_append, splitFrom_inside, if_pos rfl]; rfl
  | cons c name ih =>
    rw [double]
    split
    · rw [List.cons_append, List.cons_append, splitFrom_inside, if_pos rfl, splitFrom_quote, ih]
      simp only [List.modifyHead_modifyHead, Function.comp_def, List.cons_append]
    · rename_i hc
      rw [List.cons_append, splitFrom_inside, if_neg hc, ih]
      simp only [List.modifyHead_modifyHead, Function.comp_def, List.cons_append]

theorem splitFrom_enclose (depth : Nat) (name r : List Char) :
    splitFrom depth none (enclose '"' name ++ r) =
      (splitFrom depth none r).modifyHead fun s => enclose '"' name ++ s := by
  rw [enclose_append, splitFrom_quote, splitFrom_double]
  simp only [List.modifyHead_modifyHead, Function.comp_def, enclose_append]

theorem trim_enclose (name : List Char) : Text.trim (enclose '"' name) = enclose '"' name := by
  apply Text.trim_eq_self
  · intro c hc
    obtain rfl : '"' = c := Option.some.inj hc
    decide
  · intro c hc
    rw [enclose, ← List.cons_append, List.getLast?_append] at hc
    obtain rfl : '"' = c := by simpa using hc
    decide

theorem trim_splitFrom_keyText (h : names ≠ []) :
    (splitFrom 0 none (keyText names)).map Text.trim = names.map (enclose '"') := by
  induction names with
  | nil => exact absurd rfl h
  | cons name names ih =>
    by_cases hnames : names = []
    · have hone := splitFrom_enclose 0 name []
      rw [List.append_nil] at hone
      rw [hnames, keyText_singleton, hone]
      simp [splitFrom, trim_enclose]
    · obtain ⟨p, ps, hrest⟩ :=
        List.exists_cons_of_ne_nil (splitFrom_ne_nil 0 none (keyText names))
      have hkeys := ih hnames
      rw [hrest] at hkeys
      rw [keyText_cons name hnames, splitFrom_enclose, splitFrom_comma, splitFrom_blank, hrest]
      simp only [List.modifyHead_cons, List.append_nil, List.map_cons, trim_enclose,
        Text.trim_cons_blank Text.isBlank_space]
      rw [← hkeys, List.map_cons]

/-- A key list of quoted names is cut between the names. -/
theorem split_keyText (h : names ≠ []) : split (keyText names) = names.map (enclose '"') := by
  have hlast : ¬ ((names.map (enclose '"')).getLast?.any List.isEmpty) = true := by
    rw [List.getLast?_map, Option.any_map]
    cases names.getLast? <;> simp [enclose]
  rw [split, trim_splitFrom_keyText h]
  exact if_neg hlast

/-! ## Names -/

theorem quotesPaired_double (name : List Char) : quotesPaired (double '"' name) = true := by
  induction name with
  | nil => rfl
  | cons c name ih =>
    rw [double]
    split
    · exact ih
    · rename_i hc
      rw [quotesPaired]
      · simp [hc, ih]
      · intro r heq
        exact absurd heq hc

/-- A quoted name that is not empty is read back. -/
theorem column?_enclose {name : List Char} (h : name ≠ []) :
    column? (enclose '"' name) = some name := by
  have hinner : Text.before? ['"'] (double '"' name ++ ['"']) = some (double '"' name) :=
    Text.before?_eq_some_iff.2 rfl
  have hne : (double '"' name).isEmpty = false := by
    obtain ⟨c, r, rfl⟩ := List.exists_cons_of_ne_nil h
    rw [double]
    split <;> rfl
  rw [enclose, column?, hinner]
  simp [hne, quotesPaired_double, Text.undouble_double]

theorem mapM_column?_enclose (h : ∀ name ∈ names, name ≠ []) :
    (names.map (enclose '"')).mapM column? = some names := by
  induction names with
  | nil => rfl
  | cons name names ih =>
    obtain ⟨hname, hnames⟩ := List.forall_mem_cons.1 h
    rw [List.map_cons, List.mapM_cons, column?_enclose hname, ih hnames]
    rfl

theorem toList_quoteList (columns : List String) :
    (Text.quoteList columns).toList = keyText (columns.map String.toList) := by
  rw [Text.quoteList, Text.join, String.toList_intercalate, keyText, List.map_map, List.map_map]
  simp [Function.comp_def, Text.quoteIdentifier, Text.doubleQuote]

/-- A list of columns is read back from its text. -/
theorem read_quoteList {columns : List String} (hcolumns : columns ≠ [])
    (hnames : ∀ column ∈ columns, column ≠ "") :
    read (Text.quoteList columns) = (columns, none) := by
  have hparts : columns.map String.toList ≠ [] := by simpa using hcolumns
  have hread : ((columns.map String.toList).map (enclose '"')).mapM column? =
      some (columns.map String.toList) := by
    apply mapM_column?_enclose
    intro name hname
    obtain ⟨column, hcolumn, rfl⟩ := List.mem_map.1 hname
    simpa using hnames column hcolumn
  have hkeys : (columns.map String.toList).map (enclose '"') ≠ [] := by simpa using hcolumns
  rw [read, toList_quoteList, split_keyText hparts]
  split
  · rename_i hnil
    exact absurd hnil hkeys
  · rw [hread]
    simp [Function.comp_def]

end IndexKeys

namespace Catalog

open Text (double enclose)

variable {index : Index}

/-! ## The definition of an index -/

/-- The methods that a definition names; the method of a search tree is left out. -/
def namedMethods : List IndexMethod := [.hash, .gist, .gin, .brin, .spgist]

/-- What stands before the method of an index. -/
def beforeMethod (index : Index) : String :=
  "CREATE " ++ (if index.unique then "UNIQUE " else "") ++ "INDEX " ++
    Text.quoteIdentifier index.name ++ " ON " ++ Text.quoteIdentifier index.table

/-- What stands behind the keys of an index. -/
def behindKeys (index : Index) : String :=
  (index.predicate.map fun predicate => " WHERE " ++ predicate).getD ""

/-- The definition of an index over columns with a named method. -/
def definitionOf (index : Index) : String :=
  beforeMethod index ++ " USING " ++ index.method.sql ++ " (" ++ Text.quoteList index.columns ++
    ")" ++ behindKeys index

theorem createIndex_eq_definitionOf (hmethod : index.method ∈ namedMethods)
    (hexpression : index.expression = none) :
    Dialect.postgres.createIndex index = .ok (definitionOf index) := by
  have htree : index.method ≠ .btree := by
    intro heq
    rw [heq] at hmethod
    revert hmethod
    decide
  unfold Dialect.createIndex Dialect.indexMethodClause
  rw [if_neg htree, hexpression]
  show Except.ok _ = Except.ok _
  unfold definitionOf beforeMethod behindKeys
  simp only [String.append_assoc, Option.getD_none]

/-- What stands before the method of an index, cut at its quotes. -/
theorem toList_beforeMethod (index : Index) :
    (beforeMethod index).toList =
      ("CREATE ".toList ++ (if index.unique then "UNIQUE " else "").toList ++ "INDEX ".toList) ++
        '"' :: (double '"' index.name.toList ++
          '"' :: (" ON ".toList ++ '"' :: double '"' index.table.toList)) ++ ['"'] := by
  unfold beforeMethod
  simp only [String.toList_append, Text.quoteIdentifier, String.toList_ofList, enclose,
    List.append_assoc, List.cons_append]
  rfl

/-- The method is named behind the two names. -/
theorem cutAt?_definitionOf (hname : ¬ " USING ".toList <:+: index.name.toList)
    (htable : ¬ " USING ".toList <:+: index.table.toList) (behind : List Char) :
    Text.cutAt? " USING ".toList ((beforeMethod index).toList ++ " USING ".toList ++ behind) =
      some ((beforeMethod index).toList, behind) := by
  have hquote : '"' ∉ " USING ".toList := by decide
  have habsent : ∀ keywords : List Char, 'G' ∉ keywords → ¬ " USING ".toList <:+: keywords :=
    fun keywords hkeywords h => hkeywords (h.subset (by decide))
  rw [toList_beforeMethod]
  apply Text.cutAt?_append_cons hquote
  simp only [Text.isInfix_append_cons hquote, not_or]
  refine ⟨habsent _ ?_, ?_, habsent _ (by decide), ?_⟩
  · cases index.unique <;> decide
  · exact fun h => hname (Text.isInfix_of_isInfix_double hquote h)
  · exact fun h => htable (Text.isInfix_of_isInfix_double hquote h)

/-- The keys are found in the definition. -/
theorem ofDefinition?_definitionOf (hmethod : index.method ∈ namedMethods)
    (hname : ¬ " USING ".toList <:+: index.name.toList)
    (htable : ¬ " USING ".toList <:+: index.table.toList) :
    IndexKeys.ofDefinition? (definitionOf index).toList =
      some (Text.quoteList index.columns).toList := by
  let behind := (index.method.sql.toList ++ [' ']) ++ '(' ::
    ((Text.quoteList index.columns).toList ++ ')' :: (behindKeys index).toList)
  have htext : (definitionOf index).toList =
      (beforeMethod index).toList ++ " USING ".toList ++ behind := by
    unfold definitionOf
    simp only [String.toList_append, List.append_assoc, behind]
    rfl
  have hcut : Text.cut? '(' behind = some (index.method.sql.toList ++ [' '],
      (Text.quoteList index.columns).toList ++ ')' :: (behindKeys index).toList) := by
    apply Text.cut?_append
    revert hmethod
    generalize index.method = method
    revert method
    decide
  have hkeys : IndexKeys.insideFrom 1 none
      ((Text.quoteList index.columns).toList ++ ')' :: (behindKeys index).toList) =
        some (Text.quoteList index.columns).toList := by
    rw [IndexKeys.toList_quoteList]
    exact IndexKeys.insideFrom_keyText _ _
  rw [IndexKeys.ofDefinition?, htext, cutAt?_definitionOf hname htable]
  simp only [Option.bind_eq_bind, Option.bind_some, hcut, hkeys]

/-- The row under which a catalog reports an index. -/
def IndexRow.ofIndex (index : Index) (definition : String) : IndexRow :=
  { table := index.table
    name := index.name
    method := index.method.sql
    unique := index.unique
    definition := definition
    predicate := index.predicate }

/-- **An index over columns is read back from the definition that is written for it**, and so is
its list of columns. -/
theorem index_read_back (hcolumns : index.columns ≠ []) (hnames : ∀ c ∈ index.columns, c ≠ "")
    (hexpression : index.expression = none) (hmethod : index.method ∈ namedMethods)
    (hname : ¬ " USING ".toList <:+: index.name.toList)
    (htable : ¬ " USING ".toList <:+: index.table.toList) :
    ∃ definition, Dialect.postgres.createIndex index = .ok definition ∧
      (IndexRow.ofIndex index definition).index = index ∧
      IndexKeys.read (Text.quoteList index.columns) = (index.columns, none) := by
  have hread := IndexKeys.read_quoteList hcolumns hnames
  refine ⟨definitionOf index, createIndex_eq_definitionOf hmethod hexpression, ?_, hread⟩
  have hparse : IndexMethod.parse index.method.sql = index.method := by
    revert hmethod
    generalize index.method = method
    revert method
    decide
  have hdefinition : (IndexRow.ofIndex index (definitionOf index)).definition =
      definitionOf index := rfl
  rw [IndexRow.index, hdefinition, ofDefinition?_definitionOf hmethod hname htable]
  simp only [String.ofList_toList, hread, IndexRow.ofIndex, hparse]
  rw [← hexpression]

/-- An index whose column names hold what the scans look for. -/
def nestedIndex : Index :=
  { name := "by \"USING\""
    table := "lines"
    columns := ["a, b", "(c", "d\"", "e\nf", " USING "]
    method := .gin
    unique := true
    predicate := some "note <> ') USING ('" }

theorem index_read_back_nested :
    nestedIndex.columns ≠ [] ∧ (∀ c ∈ nestedIndex.columns, c ≠ "") ∧
      nestedIndex.expression = none ∧ nestedIndex.method ∈ namedMethods ∧
      ¬ " USING ".toList <:+: nestedIndex.name.toList ∧
      ¬ " USING ".toList <:+: nestedIndex.table.toList ∧
      ∃ definition, Dialect.postgres.createIndex nestedIndex = .ok definition ∧
        (IndexRow.ofIndex nestedIndex definition).index = nestedIndex ∧
        IndexKeys.read (Text.quoteList nestedIndex.columns) = (nestedIndex.columns, none) :=
  have hcolumns : nestedIndex.columns ≠ [] := by decide
  have hnames : ∀ c ∈ nestedIndex.columns, c ≠ "" := by decide
  have hmethod : nestedIndex.method ∈ namedMethods := by decide
  have hname : ¬ " USING ".toList <:+: nestedIndex.name.toList := fun ⟨a, b, h⟩ =>
    absurd (Text.occursIn_iff.2 ⟨a, b, h.symm⟩) (by decide)
  have htable : ¬ " USING ".toList <:+: nestedIndex.table.toList := fun ⟨a, b, h⟩ =>
    absurd (Text.occursIn_iff.2 ⟨a, b, h.symm⟩) (by decide)
  ⟨hcolumns, hnames, rfl, hmethod, hname, htable,
    index_read_back hcolumns hnames rfl hmethod hname htable⟩

end Catalog

end SchemaPlan
