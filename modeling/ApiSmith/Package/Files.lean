import ApiSmith.Json.Writing
import ApiSmith.Package
import ApiSmith.Text.TripleQuoted

/-!
# Files of a package

The text of every page and of the three index modules. Files come in the order: indexes, models,
groups. A path that comes again replaces the file at its first place.

A description goes between triple quotes: backslashes are doubled, three quotes in a row and a quote
at the end are escaped. A key goes between plain quotes, with everything escaped that is not plain
ASCII or that markup might read.
-/

namespace ApiSmith

namespace Docstring

open Text

def escapedTriple : List Char := ['\\', '"', '\\', '"', '\\', '"']

def escapeLast (cs : List Char) : List Char :=
  if cs.getLast? == some '"' then cs.dropLast ++ ['\\', '"'] else cs

def escape (cs : List Char) : List Char :=
  escapeLast (replaceAll TripleQuoted.quotes escapedTriple (replaceAll ['\\'] ['\\', '\\'] cs))

/-- A text as it stands between triple quotes. -/
def ofString (s : String) : String := String.ofList (escape s.toList)

/-- Whether markup might read a character. -/
def isMarkup (c : Char) : Bool := c == '<' || c == '>' || c == '&' || c.toNat == 39

def escapeKeyChar (c : Char) : List Char :=
  if isMarkup c then Json.unitEscape c.toNat else Json.escapeAscii c

def key (s : String) : String := Json.quoted escapeKeyChar s

end Docstring

namespace Package

open Docstring (ofString key)

def fileText (lines : List String) : String := String.join (lines.map fun l => l ++ "\n")

def linesIf (b : Bool) (lines : List String) : List String := if b then lines else []

def textIf (b : Bool) (s : String) : String := if b then s else ""

def orText (a b : String) : String := if a.isEmpty then b else a

def quotes : String := "\"\"\""

/-- What every page says after its title. -/
def banner : List String :=
  ["", "Generated by clientgen. Do not edit.", quotes, "", "from __future__ import annotations", ""]

def importLine (start : String) (place : ClassPlace) : String :=
  "from " ++ start ++ place.module ++ " import " ++ place.className

/-! ## Index modules -/

def titleText (title : Value) : String := textIf title.isPresent (" " ++ ofString title.display)

def folderIndex (name : String) (title : Value) (places : List ClassPlace) : String :=
  fileText <|
    [quotes ++ "Generated " ++ name ++ "." ++ titleText title ++ quotes, ""] ++
    places.map (importLine ".") ++ ["", "__all__ = ["] ++
    places.map (fun c => "    " ++ key c.className ++ ",") ++ ["]"]

def packageIndex (p : Package) : String :=
  let title := if p.title.isPresent then p.title.display else "API"
  fileText
    [quotes ++ ofString title ++ " client" ++
        textIf (!p.version.isEmpty) (", version " ++ ofString p.version) ++ ".",
      "", "Generated by clientgen (" ++ p.profileName ++ " profile). Do not edit.", quotes, "",
      "from . import api, models", "", "__all__ = [\"api\", \"models\"]"]

/-! ## Models -/

def enumLines (e : EnumClass) : List String :=
  ["", "", "class " ++ e.className ++ "(IntEnum):"] ++
    e.members.map fun m => "    " ++ m.name ++ " = " ++ Number.intString m.value

def declaration (f : FieldLine) : String :=
  let start := "    " ++ f.name.display ++ ": " ++ f.annotation
  let jsonKey := "metadata=\x7b\"json_key\": " ++ key f.key ++ "\x7d)"
  match f.required, f.renamed with
  | true, true => start ++ " = field(" ++ jsonKey
  | true, false => start
  | false, true => start ++ " = field(default=None, " ++ jsonKey
  | false, false => start ++ " = None"

def fieldLines (f : FieldLine) : List String :=
  [""] ++ linesIf (!f.description.isEmpty) ["    #: " ++ f.description] ++ [declaration f]

def accessorLines (f : FieldLine) : List String :=
  match f.enumClass with
  | none => []
  | some c => linesIf (!c.isEmpty)
    ["", "    @property",
      "    def " ++ f.accessor ++ "(self) -> Optional[" ++ c ++ "]:",
      "        return enum_value(" ++ c ++ ", self." ++ f.name.display ++ ")"]

def modelText (m : ModelPage) : String :=
  fileText <|
    [quotes ++ ofString (orText m.description (m.place.className ++ " model."))] ++ banner ++
    linesIf m.needs.dates ["import datetime"] ++
    ["from dataclasses import dataclass, field"] ++
    linesIf m.needs.decimals ["from decimal import Decimal"] ++
    linesIf (!m.enums.isEmpty) ["from enum import IntEnum"] ++
    ["from typing import Optional", "",
      "from " ++ m.supportModule.display ++ " import " ++ textIf m.needs.objects "ApiObject, " ++
        "Model, enum_value"] ++
    m.enums.flatMap enumLines ++
    ["", "", "@dataclass(frozen=" ++ m.frozen.display ++ ", kw_only=True)",
      "class " ++ m.place.className ++ "(Model):",
      "    " ++ quotes ++ ofString (orText m.description m.name) ++ quotes] ++
    m.fields.flatMap fieldLines ++ m.fields.flatMap accessorLines ++
    linesIf (!m.references.isEmpty)
      (["", ""] ++ m.references.map fun r => importLine "." r ++ "  # noqa: E402")

/-! ## Groups -/

def queryLine (q : ParameterLine) : String :=
  let value := q.identifier.display
  "            " ++ key q.key ++ ": " ++
    (if q.isDate then "format_date(" ++ value ++ ")" else value) ++ ","

def urlLines (m : MethodPart) : List String :=
  if m.query.isEmpty then ["        url = " ++ m.urlExpression]
  else
    ["        query = \x7b"] ++ m.query.map queryLine ++
      ["        \x7d", "        url = with_query(" ++ m.urlExpression ++ ", query)"]

def argumentLine (q : ParameterLine) : String :=
  "            " ++ q.identifier.display ++ ": " ++
    ofString (orText q.description (q.placement.name ++ " parameter"))

def methodLines (m : MethodPart) : List String :=
  ["", "    async def " ++ m.methodName ++ "(", "        self,"] ++
  m.params.map (fun q => "        " ++ q.signature ++ ",") ++
  ["        mock: Optional[str] = None,", "    ) -> Outcome[" ++ m.result ++ "]:",
    "        " ++ quotes ++ ofString (orText m.summary (m.httpMethod ++ " " ++ m.path))] ++
  linesIf (!m.params.isEmpty) (["", "        Args:"] ++ m.params.map argumentLine) ++
  ["        " ++ quotes] ++ urlLines m ++
  ["        return await self.client.request(", "            url,",
    "            " ++ key m.httpMethod ++ ","] ++
  (match m.body with
    | none => []
    | some b => linesIf b.isPresent ["            body=" ++ b.display ++ ","]) ++
  ["            result_type=" ++ m.result ++ ",", "            mock=mock,", "        )"]

def groupText (g : GroupPage) : String :=
  fileText <|
    [quotes ++ "Client methods for the /" ++ g.key ++ " endpoints."] ++ banner ++
    linesIf g.needs.dates ["import datetime"] ++
    linesIf g.needs.decimals ["from decimal import Decimal"] ++
    ["from typing import Optional", "",
      "from " ++ g.supportModule.display ++ " import " ++ textIf g.needs.objects "ApiObject, " ++
        "ApiClient, Outcome" ++ textIf g.formatsDates ", format_date" ++ ", with_query"] ++
    linesIf (!g.references.isEmpty) ("" :: g.references.map (importLine "..models.")) ++
    ["", "", "class " ++ g.place.className ++ ":",
      "    " ++ quotes ++ "Operations under /" ++ g.key ++ "." ++ quotes, "",
      "    def __init__(self, client: Optional[ApiClient] = None) -> None:",
      "        self._client = client", "", "    @property",
      "    def client(self) -> ApiClient:",
      "        return self._client or ApiClient.shared()"] ++
    g.methods.flatMap methodLines

/-! ## All files -/

/-- The files with one more; a path that is there already keeps its place. -/
def setFile (path text : String) : List (String × String) → List (String × String)
  | [] => [(path, text)]
  | (q, t) :: rest => if q = path then (q, text) :: rest else (q, t) :: setFile path text rest

def modelPath (m : ModelPage) : String := "models/" ++ m.place.module ++ ".py"

def groupPath (g : GroupPage) : String := "api/" ++ g.place.module ++ ".py"

/-- The pages of a package with their paths, in order. -/
def pages (p : Package) : List (String × String) :=
  [("__init__.py", packageIndex p),
    ("models/__init__.py", folderIndex "models" p.title (p.models.map (·.place))),
    ("api/__init__.py", folderIndex "client groups" p.title (p.groups.map (·.place)))] ++
  p.models.map (fun m => (modelPath m, modelText m)) ++
  p.groups.map fun g => (groupPath g, groupText g)

def files (p : Package) : List (String × String) :=
  p.pages.foldl (fun fs f => setFile f.1 f.2 fs) []

end Package

end ApiSmith
