import RowProjection.Record.Conversion

namespace RowProjection

/-- Turns a row value into an object. -/
abbrev Converter := Catalog → Value → Except Failure Value

/-- The converter that follows the declared schema of a type. -/
def Converter.ofType (typeName : String) : Converter :=
  fun catalog value => value.toObjectOf catalog typeName

/-- The converters of a context. -/
abbrev Converters := Table String Converter

end RowProjection
