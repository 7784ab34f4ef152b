import RouteAtlas.Project.Scan
import RouteAtlas.Text.Styled

/-!
# Reports

What a scan has found, laid out for people to read.
-/

namespace RouteAtlas

/-- A path as it is shown to people: relative to a directory if it is in it. -/
def Path.shownIn (p directory : Path) : String :=
  match p.within? directory with
  | some cs => (ofComponents cs).text
  | none => p.text

/-- The colour that a method is shown in. -/
def Method.colour : Method → Colour
  | .get => .green
  | .post => .yellow
  | .put => .blue
  | .patch => .cyan
  | .delete => .red
  | _ => .magenta

/-- A field as it is shown: the name, marked if the field may be missing, and the type. -/
def Field.shown (f : Field) : String :=
  f.name ++ (if f.required then "" else "?") ++ ": " ++ f.type.name

namespace Report

/-- The name of the program. -/
def programName : String := "routescout"

/-- The version of the program. -/
def programVersion : String := "0.1.0"

/-- A text filled up with blanks at the end. -/
def padEnd (width : Nat) (text : String) : String := text ++ "".pushn ' ' (width - text.length)

/-- A text filled up with blanks at the front. -/
def padStart (width : Nat) (text : String) : String := "".pushn ' ' (width - text.length) ++ text

/-- What comes first in every report, given the project as the user named it. -/
def header (named : String) : Page :=
  [[], [.plain "  ", .boldIn .cyan programName, .plain (" v" ++ programVersion)], [],
    [.plain "  ", .dim "Scanning: ", .plain named]]

/-- A line about an endpoint, unless there is nothing to say. -/
def detail (label : String) (items : List String) : Page :=
  if items.isEmpty then []
  else [[.plain "          ", .dim (label ++ ":"), .plain (" " ++ ", ".intercalate items)]]

/-- The lines about an endpoint. -/
def endpoint (e : Endpoint) : Page :=
  [[.plain "  ", .boldIn e.method.colour (padEnd 7 e.method.name), .plain " ", .bold e.url]] ++
    detail "params" (e.params.map Field.shown) ++ detail "query" (e.query.map Field.shown) ++
    detail "body" (e.body.map Field.shown) ++ detail "headers" e.headers

/-- The lines about the entry points of a scan. -/
def entryPoints (root : Path) : List Path → Page
  | [] => [[.plain "  ", .dim "Entry points: ", .coloured .yellow "none found"]]
  | first :: rest =>
    [.plain "  ", .dim "Entry points: ", .plain (first.shownIn root)] ::
      rest.map fun p => [.plain ("".pushn ' ' 16 ++ p.shownIn root)]

/-- The lines about files that nothing could be learnt of. -/
def diagnostics (root : Path) (ds : List Diagnostic) : Page :=
  [.plain "  ", .coloured .yellow (toString ds.length ++ " file(s) skipped:")] ::
    ds.map fun d =>
      [.plain "    ", .coloured .yellow "⚠", .plain (" " ++ d.path.shownIn root ++ "  "),
        .dim d.fault.message]

/-- The last line about a scan that has found the given number of endpoints. -/
def status (count : Nat) : List Piece :=
  if count = 0 then [.plain "  ", .coloured .red "✗", .plain " no endpoints discovered"]
  else
    [.plain "  ", .coloured .green "✓",
      .plain (" " ++ toString count ++ " endpoint" ++ (if count = 1 then "" else "s") ++
        " discovered")]

/-- Lines with an empty one after them, unless there are none. -/
def closed (lines : Page) : Page := if lines.isEmpty then [] else lines ++ [[]]

/-- The report on a scan of a project, given as the user named it and by the path of its root. -/
def scan (named : String) (root : Path) (r : ScanResult) : Page :=
  header named ++ entryPoints root r.entries ++
    [[.plain "  ", .dim "Files analyzed: ", .plain (toString r.files.length)], []] ++
    closed (r.endpoints.flatMap endpoint) ++
    closed (if r.diagnostics.isEmpty then [] else diagnostics root r.diagnostics) ++
    [status r.endpoints.length, []]

/-- The report on the entry points of a project. -/
def entries (named : String) (root : Path) (ps : List Path) : Page :=
  header named ++
    (if ps.isEmpty then [[.plain "  ", .coloured .yellow "No entry point found"]]
    else ps.zipIdx.map fun (p, i) =>
      [.plain ("  " ++ padStart 3 (toString (i + 1)) ++ ". " ++ p.shownIn root)]) ++
    [[]]

end Report

end RouteAtlas
