import SchemaPlan.Catalog.Snapshot
import SchemaPlan.Text.Split

/-!
# Catalog queries

The eight lists of a catalog and the queries that read them.  Every query but the one for extensions
is about one schema; those that list tables, or parts of tables, leave one table out.
-/

set_option autoImplicit false

namespace SchemaPlan.Database

/-- A list of the catalog. -/
inductive CatalogPart where
  | extensions
  | enums
  | tables
  | columns
  | constraints
  | indexes
  | functions
  | triggers
deriving DecidableEq, Repr

namespace CatalogPart

/-- The name of the list. -/
def name : CatalogPart → String
  | extensions => "extensions"
  | enums => "enums"
  | tables => "tables"
  | columns => "columns"
  | constraints => "constraints"
  | indexes => "indexes"
  | functions => "functions"
  | triggers => "triggers"

/-- What one row of the list is. -/
def Row : CatalogPart → Type
  | extensions => Catalog.ExtensionRow
  | enums => Catalog.EnumRow
  | tables => Catalog.TableRow
  | columns => Catalog.ColumnRow
  | constraints => Catalog.ConstraintRow
  | indexes => Catalog.IndexRow
  | functions => Catalog.FunctionRow
  | triggers => Catalog.TriggerRow

/-- The parameters of the query for a schema without a table. -/
def params (schema omitted : String) : CatalogPart → List String
  | extensions => []
  | enums | functions | triggers => [schema]
  | tables | columns | constraints | indexes => [schema, omitted]

/-- Lines of text, each behind a line break. -/
def lines (texts : List String) : String :=
  "\n" ++ Text.join "\n" texts

/-- The installed extensions. -/
def extensionsSql : String :=
  lines [
    "SELECT extname::text",
    "FROM pg_extension",
    "ORDER BY extname"]

/-- The enum types with their labels. -/
def enumsSql : String :=
  lines [
    "SELECT t.typname::text,",
    "       array_agg(e.enumlabel::text ORDER BY e.enumsortorder)",
    "FROM pg_type t",
    "JOIN pg_enum e ON e.enumtypid = t.oid",
    "JOIN pg_namespace n ON n.oid = t.typnamespace",
    "WHERE n.nspname = $1",
    "GROUP BY t.typname",
    "ORDER BY t.typname"]

/-- The tables with their comments. -/
def tablesSql : String :=
  lines [
    "SELECT c.relname::text,",
    "       obj_description(c.oid, 'pg_class')",
    "FROM pg_class c",
    "JOIN pg_namespace n ON n.oid = c.relnamespace",
    "WHERE n.nspname = $1",
    "  AND c.relkind IN ('r', 'p')",
    "  AND NOT c.relispartition",
    "  AND c.relname <> $2",
    "ORDER BY c.relname"]

/-- The columns of tables with their places, defaults and comments. -/
def columnsSql : String :=
  lines [
    "SELECT c.relname::text,",
    "       a.attname::text,",
    "       a.attnum::int4,",
    "       format_type(a.atttypid, a.atttypmod),",
    "       NOT a.attnotnull,",
    "       pg_get_expr(d.adbin, d.adrelid),",
    "       col_description(c.oid, a.attnum)",
    "FROM pg_attribute a",
    "JOIN pg_class c ON c.oid = a.attrelid",
    "JOIN pg_namespace n ON n.oid = c.relnamespace",
    "LEFT JOIN pg_attrdef d ON d.adrelid = a.attrelid AND d.adnum = a.attnum",
    "WHERE n.nspname = $1",
    "  AND c.relkind IN ('r', 'p')",
    "  AND NOT c.relispartition",
    "  AND c.relname <> $2",
    "  AND a.attnum > 0",
    "  AND NOT a.attisdropped",
    "ORDER BY c.relname, a.attnum"]

/-- The keys and checks of tables. -/
def constraintsSql : String :=
  lines [
    "SELECT c.relname::text,",
    "       con.conname::text,",
    "       con.contype::text,",
    "       ARRAY(",
    "           SELECT a.attname::text",
    "           FROM unnest(con.conkey) WITH ORDINALITY AS k(attnum, ord)",
    "           JOIN pg_attribute a ON a.attrelid = con.conrelid AND a.attnum = k.attnum",
    "           ORDER BY k.ord",
    "       ),",
    "       pg_get_constraintdef(con.oid),",
    "       ft.relname::text,",
    "       ARRAY(",
    "           SELECT a.attname::text",
    "           FROM unnest(con.confkey) WITH ORDINALITY AS k(attnum, ord)",
    "           JOIN pg_attribute a ON a.attrelid = con.confrelid AND a.attnum = k.attnum",
    "           ORDER BY k.ord",
    "       ),",
    "       con.confupdtype::text,",
    "       con.confdeltype::text,",
    "       con.condeferrable,",
    "       con.condeferred",
    "FROM pg_constraint con",
    "JOIN pg_class c ON c.oid = con.conrelid",
    "JOIN pg_namespace n ON n.oid = c.relnamespace",
    "LEFT JOIN pg_class ft ON ft.oid = con.confrelid",
    "WHERE n.nspname = $1",
    "  AND con.contype IN ('p', 'u', 'c', 'f')",
    "  AND con.conparentid = 0",
    "  AND c.relname <> $2",
    "ORDER BY c.relname, con.conname"]

/-- The indexes that back no constraint. -/
def indexesSql : String :=
  lines [
    "SELECT t.relname::text,",
    "       i.relname::text,",
    "       am.amname::text,",
    "       x.indisunique,",
    "       pg_get_indexdef(x.indexrelid),",
    "       pg_get_expr(x.indpred, x.indrelid)",
    "FROM pg_index x",
    "JOIN pg_class i ON i.oid = x.indexrelid",
    "JOIN pg_class t ON t.oid = x.indrelid",
    "JOIN pg_am am ON am.oid = i.relam",
    "JOIN pg_namespace n ON n.oid = t.relnamespace",
    "WHERE n.nspname = $1",
    "  AND t.relkind IN ('r', 'p')",
    "  AND t.relname <> $2",
    "  AND NOT EXISTS (",
    "      SELECT 1 FROM pg_constraint con",
    "      WHERE con.conindid = x.indexrelid AND con.contype IN ('p', 'u', 'x')",
    "  )",
    "ORDER BY t.relname, i.relname"]

/-- The functions that no extension owns. -/
def functionsSql : String :=
  lines [
    "SELECT p.proname::text,",
    "       pg_get_function_arguments(p.oid),",
    "       pg_get_function_result(p.oid),",
    "       l.lanname::text,",
    "       p.prosrc,",
    "       p.provolatile::text,",
    "       p.proparallel::text",
    "FROM pg_proc p",
    "JOIN pg_namespace n ON n.oid = p.pronamespace",
    "JOIN pg_language l ON l.oid = p.prolang",
    "WHERE n.nspname = $1",
    "  AND p.prokind = 'f'",
    "  AND NOT EXISTS (",
    "      SELECT 1 FROM pg_depend d",
    "      WHERE d.classid = 'pg_proc'::regclass AND d.objid = p.oid AND d.deptype = 'e'",
    "  )",
    "ORDER BY p.proname"]

/-- The triggers that the database did not make for itself. -/
def triggersSql : String :=
  lines [
    "SELECT c.relname::text,",
    "       t.tgname::text,",
    "       p.proname::text,",
    "       t.tgtype,",
    "       pg_get_triggerdef(t.oid),",
    "       t.tgoldtable::text,",
    "       t.tgnewtable::text",
    "FROM pg_trigger t",
    "JOIN pg_class c ON c.oid = t.tgrelid",
    "JOIN pg_namespace n ON n.oid = c.relnamespace",
    "JOIN pg_proc p ON p.oid = t.tgfoid",
    "WHERE n.nspname = $1",
    "  AND NOT t.tgisinternal",
    "  AND t.tgparentid = 0",
    "ORDER BY c.relname, t.tgname"]

/-- The query that reads the list. -/
def sql : CatalogPart → String
  | extensions => extensionsSql
  | enums => enumsSql
  | tables => tablesSql
  | columns => columnsSql
  | constraints => constraintsSql
  | indexes => indexesSql
  | functions => functionsSql
  | triggers => triggersSql

end CatalogPart

end SchemaPlan.Database
