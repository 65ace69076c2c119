import SceneWiring.Json.Reader
import SceneWiring.Json.Record

/-!
# Options

A host chooses how collections are recognised, which methods the statements are put
into, where the log goes, and whether types that cannot be augmented are rejected.
Every option has a default, so an empty document is a complete one.

Main results:

- Definition `Options.hook`: the method that a unit's statements are put into.
- Definitions `Options.ofText` and `Options.toDoc`: reading and writing options.
-/

namespace SceneWiring

open Json

/-- What a host can choose. -/
structure Options where
  /-- The text that marks the type of a member as a collection. -/
  collectionMarker : String := "List"
  /-- The method that runs when the component is created. -/
  initHook : String := "Awake"
  /-- The method that runs before the first frame. -/
  playHook : String := "Start"
  /-- The file that gets the log, if there is one. -/
  logPath : Option String := none
  /-- Reject types that are not declared partial. -/
  requirePartial : Bool := false
  /-- Types may be worked on side by side; the report does not depend on it. -/
  parallel : Bool := true
deriving DecidableEq, Repr

namespace Options

/-- The options of a host that chooses nothing. -/
def default : Options :=
  {}

/-- The method that a unit's statements are put into. -/
def hook (o : Options) (deferred : Bool) : String :=
  if deferred then o.playHook else o.initHook

/-- The fields of the options. -/
def format : RecordFormat Options :=
  ((((((RecordFormat.pure Options.mk).ap
    (.optional "collectionMarker" default.collectionMarker readText)).ap
    (.optional "initHook" default.initHook readText)).ap
    (.optional "playHook" default.playHook readText)).ap
    (.optional "logPath" default.logPath (readOptional (readTextAs "path string")))).ap
    (.optional "requirePartial" default.requirePartial readFlag)).ap
    (.optional "parallel" default.parallel readFlag)

/-- Read options. -/
def ofDoc (d : Doc) : Except Problem Options :=
  format.read .streamed "GeneratorOptions" d

/-- The document of options. -/
def toDoc (o : Options) : Doc :=
  .ofFields
    [("collectionMarker", .ofString o.collectionMarker), ("initHook", .ofString o.initHook),
     ("playHook", .ofString o.playHook), ("logPath", (o.logPath.map Doc.ofString).getD .null),
     ("requirePartial", .bool o.requirePartial), ("parallel", .bool o.parallel)]

/-- Read options from text. -/
def ofText (text : String) : Except Problem Options :=
  (Document.ofText text).decode ofDoc

end Options
end SceneWiring
