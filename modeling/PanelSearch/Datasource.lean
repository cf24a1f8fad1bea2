import PanelSearch.Request.Batch
import PanelSearch.Request.OfQuery

/-! Datasources: where the search engine is, which indexes a panel searches, and what is known of
their fields. -/

namespace PanelSearch

/-- The settings of a datasource. -/
structure Datasource where
  url : String
  /-- An index, a pattern, or several of them between commas. -/
  index : String
  fields : ConfiguredFields := {}
  /-- The number of shards that are searched at a time. -/
  shardRequests : Int := Batch.defaultShardRequests
  geohashPrecision : Int
  /-- The time field has been asked for and was told. -/
  discovered : Bool := false
  deriving DecidableEq, Repr

namespace Datasource

def defaultGeohashPrecision : Int := 3

/-- A setting that holds a text, with its default. -/
def textSetting (settings : Entries Json) (key default : String) : String :=
  ((settings.get? key).bind Json.str?).getD default

def ofSettings (settings : Entries Json) : Datasource where
  url := textSetting settings "QUICKWIT_URL" "http://quickwit:7280/api/v1"
  index := textSetting settings "QW_INDEX" ""
  fields := {
    timeField := textSetting settings "QW_TIME_FIELD" ""
    timeFormat := textSetting settings "QW_TIME_OUTPUT_FORMAT" ""
    messageField := textSetting settings "QW_LOG_MESSAGE_FIELD" ""
    levelField := textSetting settings "QW_LOG_LEVEL_FIELD" "" }
  shardRequests :=
    Setting.integer (Json.member settings "MAX_CONCURRENT_SHARD_REQUESTS")
      Batch.defaultShardRequests true
  geohashPrecision :=
    Setting.integer (Json.member settings "GEOHASH_DEFAULT_PRECISION") defaultGeohashPrecision false

/-- The effective settings, as the service shows them. -/
def json (d : Datasource) : Json :=
  .obj [("quickwit_url", .str d.url), ("index", .str d.index),
    ("time_field", .str d.fields.timeField), ("time_output_format", .str d.fields.timeFormat),
    ("log_message_field", .str d.fields.messageField),
    ("log_level_field", .str d.fields.levelField),
    ("max_concurrent_shard_requests", .int d.shardRequests),
    ("geohash_precision", .int d.geohashPrecision)]

def baseOf (url : String) : String := String.ofList (Text.trimEnd (· == '/') url.toList)

def base (d : Datasource) : String := baseOf d.url

def target (d : Datasource) : Target := ⟨d.fields.timeField, d.index, d.geohashPrecision⟩

end Datasource

end PanelSearch
