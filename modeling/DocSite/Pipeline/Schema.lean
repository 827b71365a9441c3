import DocSite.Schema

/-!
# The schema of pipeline configurations

* `Pipeline.schema` : the schema as a JSON value.
* `Pipeline.violations` : the violations of a value against it.
-/

namespace DocSite

namespace Pipeline

open Json (object array string)

/-- A schema that names one type. -/
def ofType (name : Text) : Json := object [("type".toList, string name)]

/-- A schema of arrays with the given schema of their elements. -/
def arrayOf (items : Json) : Json :=
  object [("items".toList, items), ("type".toList, string "array".toList)]

/-- A schema that stands for a definition. -/
def definition (name : Text) : Json :=
  object [("$ref".toList, string ("#/definitions/".toList ++ name))]

/-- The schema of an extension kind: two lists of ids. -/
def extensionSchema : Json :=
  object
    [("properties".toList, object
      [("exclude".toList, definition "idList".toList),
       ("include".toList, definition "idList".toList)]),
     ("type".toList, string "object".toList)]

/-- The schema of a list of ids, where one id may stand for the list of it alone. -/
def idListSchema : Json :=
  object [("oneOf".toList, array [arrayOf (ofType "string".toList), ofType "string".toList])]

/-- The schema of pipeline configurations. -/
def schema : Json :=
  object
    [("definitions".toList, object
      [("extensionType".toList, extensionSchema), ("idList".toList, idListSchema)]),
     ("properties".toList, object
      [("analyzers".toList, definition "extensionType".toList),
       ("filters".toList, definition "extensionType".toList),
       ("matchers".toList, definition "extensionType".toList),
       ("reporters".toList, definition "extensionType".toList),
       ("transformBlocks".toList, arrayOf (arrayOf (ofType "string".toList))),
       ("transforms".toList, definition "extensionType".toList)]),
     ("type".toList, string "object".toList)]

/-- The violations of a value against the schema of pipeline configurations. -/
def violations (v : Json) : List Schema.Violation := (Schema.violations? schema v).getD []

end Pipeline

end DocSite
