import TraceLog.Payload.Convert
import TraceLog.Payload.Normalize

/-!
# TraceLog.Record.Request

A request to the cache.

A request has fixed fields and any others that the caller adds.  Its data are
a map: the fixed fields first, each array beside the shape it reports, and
then the added fields in turn, so that an added field replaces a fixed one or
an earlier one of its name.
-/

namespace TraceLog

/-- An array of the host.  Copies of one array have one handle. -/
structure HostArray where
  handle : Nat
  shape : Shape
  elements : List Payload

/-- The array in a payload. -/
def HostArray.toPayload (a : HostArray) : Payload := .array a.handle a.shape a.elements

/-- A request to the cache. -/
structure Request where
  /-- What is requested. -/
  kind : String
  id : Int64
  tokens : HostArray
  slots : HostArray
  mask : Option HostArray
  /-- How many layers are handled at a time; `-1` if the request is not split
  by layers. -/
  layerGranularity : Int64
  /-- The data-parallel group. -/
  group : Int64
  /-- The fields that the caller adds, in turn. -/
  extra : List (String × Payload)

namespace Request

/-- A request that is not split by layers, with nothing added. -/
def of (kind : String) (id : Int64) (tokens slots : HostArray) : Request :=
  ⟨kind, id, tokens, slots, none, -1, 0, []⟩

/-- The request with a mask of its tokens. -/
def withMask (r : Request) (mask : HostArray) : Request := { r with mask := some mask }

/-- The request split by layers. -/
def withLayerGranularity (r : Request) (layers : Int64) : Request :=
  { r with layerGranularity := layers }

/-- The request of another group. -/
def withGroup (r : Request) (group : Int64) : Request := { r with group }

/-- The request with one more field. -/
def withExtra (r : Request) (key : String) (value : Payload) : Request :=
  { r with extra := r.extra ++ [(key, value)] }

/-- The fixed fields. -/
def fixed (r : Request) : List (String × Payload) :=
  [ ("request_type", .str r.kind),
    ("request_id", .int r.id),
    ("token_ids_shape", .ofShape r.tokens.shape),
    ("slot_mapping_shape", .ofShape r.slots.shape),
    ("token_mask_shape", .ofOption (Payload.ofShape ·.shape) r.mask),
    ("token_ids", r.tokens.toPayload),
    ("slot_mapping", r.slots.toPayload),
    ("token_mask", .ofOption HostArray.toPayload r.mask),
    ("layer_granularity", .int r.layerGranularity),
    ("dp_id", .int r.group) ]

/-- All fields in turn, the fixed ones first. -/
def fields (r : Request) : List (String × Payload) := r.fixed ++ r.extra

/-- The data of a request. -/
def data (r : Request) : Payload :=
  .map (Entries.ofPairs (r.fields.map fun field => (field.1, field.2.normalize)))

/-- Whether every list that normalizing the fields asks for can exist. -/
def buildable (r : Request) : Bool := r.fields.all (·.2.buildable)

/-- `data`, unless a list would have to be built that cannot exist. -/
def data? (r : Request) : Option Payload := if r.buildable then some r.data else none

end Request

end TraceLog
