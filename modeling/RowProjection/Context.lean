import RowProjection.Options
import RowProjection.Target.Converters

namespace RowProjection

/-- What a worker supplies when it builds projectors. -/
structure Context where
  catalog : Catalog
  converters : Converters
  options : Options

namespace Context

/-- A context without converters and with default options. -/
def ofCatalog (catalog : Catalog) : Context :=
  ⟨catalog, .empty, {}⟩

end Context

end RowProjection
