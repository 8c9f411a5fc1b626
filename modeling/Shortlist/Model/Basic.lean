import Shortlist.Compilation
import Shortlist.Model.Name

/-!
# Models

A model knows the type name of its entities, the table they are stored in and the handlers
of their fields.  Its queries are rooted at an alias made from the type name.
-/

namespace Shortlist

/-- A type of entities and the table that holds them. -/
structure Model where
  dialect : Dialect
  entity : String
  table : String
  handlers : Handlers Query

namespace Model

/-- The alias made from the base name of the type. -/
def rootAlias (m : Model) : String := snakeCase (baseName m.entity)

/-- A query over the table under an alias. -/
def query (m : Model) (name : String) : Except Error Query :=
  Query.select m.dialect m.table (some name)

/-- A query over the table under its own alias. -/
def defaultQuery (m : Model) : Except Error Query := m.query m.rootAlias

/-- Puts raw options onto a query, with the handlers of the model. -/
def filterQuery (m : Model) (options : Json) (q : Query) : Except Error Query :=
  match Criteria.ofOptions options with
  | .error e => .error e
  | .ok criteria => ((Compilation.start q criteria).withHandlers m.handlers).build

/-- The default query with raw options put onto it. -/
def filtered (m : Model) (options : Json) : Except Error Query :=
  match m.defaultQuery with
  | .error e => .error e
  | .ok q => m.filterQuery options q

end Model

end Shortlist
