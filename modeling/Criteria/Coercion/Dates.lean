import Criteria.Coercion.Parser

set_option autoImplicit false

namespace Criteria

structure DateFormats where
  formats : List String := Calendar.defaultFormats
  [reader : Calendar.FormatReader]

namespace DateFormats

def add (d : DateFormats) (format : String) : DateFormats :=
  if d.formats.contains format then d else { d with formats := d.formats ++ [format] }

def remove (d : DateFormats) (format : String) : Bool × DateFormats :=
  (d.formats.contains format, { d with formats := d.formats.filter (· != format) })

def clear (d : DateFormats) : DateFormats :=
  { d with formats := [] }

def parser (d : DateFormats) : ValueParser :=
  @ValueParser.date d.formats d.reader

end DateFormats

end Criteria
