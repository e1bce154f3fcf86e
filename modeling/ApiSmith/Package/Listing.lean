import ApiSmith.Package

/-!
# Packages as plain data

The content of pages as maps, for tools that write pages of their own.
-/

namespace ApiSmith

def record (entries : List (String × Value)) : Value :=
  .map (entries.map fun e => (.text e.1, e.2))

def optionalText (s : Option String) : Value := (s.map Value.text).getD .null

def ClassPlace.listing (c : ClassPlace) : Value :=
  record [("module", .text c.module), ("class_name", .text c.className)]

def Needs.entries (n : Needs) : List (String × Value) :=
  [("datetime", .bool n.dates), ("decimal", .bool n.decimals), ("api_object", .bool n.objects)]

def FieldLine.listing (f : FieldLine) : Value :=
  record [("name", f.name), ("json_key", .text f.key), ("renamed", .bool f.renamed),
    ("annotation", .text f.annotation), ("required", .bool f.required),
    ("description", .text f.description), ("enum_class", optionalText f.enumClass),
    ("value_property", .text f.accessor)]

def EnumClass.listing (e : EnumClass) : Value :=
  record [("class_name", .text e.className), ("members", .list (e.members.map fun m =>
    record [("name", .text m.name), ("value", .int m.value)]))]

def ModelPage.listing (m : ModelPage) : Value :=
  record [("name", .text m.name), ("module", .text m.place.module),
    ("class_name", .text m.place.className), ("description", .text m.description),
    ("frozen", m.frozen), ("runtime_module", m.supportModule),
    ("fields", .list (m.fields.map FieldLine.listing)),
    ("enums", .list (m.enums.map EnumClass.listing)), ("imports", record m.needs.entries),
    ("references", .list (m.references.map ClassPlace.listing))]

def ParameterLine.listing (q : ParameterLine) : Value :=
  record [("identifier", q.identifier), ("key", .text q.key),
    ("placement", .text q.placement.name), ("signature", .text q.signature),
    ("description", .text q.description), ("is_date", .bool q.isDate)]

def MethodPart.listing (m : MethodPart) : Value :=
  record [("method_name", .text m.methodName), ("http_method", .text m.httpMethod),
    ("path", .text m.path), ("summary", .text m.summary),
    ("params", .list (m.params.map ParameterLine.listing)),
    ("query", .list (m.query.map ParameterLine.listing)), ("body", m.body.getD .null),
    ("url_template", .text m.urlTemplate), ("url_expr", .text m.urlExpression),
    ("result_annotation", .text m.result)]

def GroupPage.listing (g : GroupPage) : Value :=
  record [("key", .text g.key), ("module", .text g.place.module),
    ("class_name", .text g.place.className), ("runtime_module", g.supportModule),
    ("operations", .list (g.methods.map MethodPart.listing)),
    ("imports", record (g.needs.entries ++ [("format_date", .bool g.formatsDates)])),
    ("references", .list (g.references.map ClassPlace.listing))]

def Package.listing (p : Package) : Value :=
  record [("title", p.title), ("version", .text p.version), ("profile", .text p.profileName),
    ("models", .list (p.models.map fun m => m.place.listing)),
    ("groups", .list (p.groups.map fun g => g.place.listing))]

end ApiSmith
