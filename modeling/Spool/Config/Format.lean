import Spool.Config.Basic
import Spool.Json.Parser
import Spool.Json.Printer
import Spool.Json.Scalar

namespace Spool

namespace Span

def toJson (s : Span) : Json :=
  .object [("secs".toList, .ofNat s.secs.toNat), ("nanos".toList, .ofNat s.nanos)]

def ofJsonParts? (secs nanos : Json) : Option Span := do
  let secs ← secs.below? UInt64.size
  let nanos ← nanos.below? UInt32.size
  ofParts? (UInt64.ofNat secs) nanos

-- Both parts in either order and nothing else, or an array of the two.
def ofJson? : Json → Option Span
  | .array [secs, nanos] => ofJsonParts? secs nanos
  | .object [(first, a), (second, b)] =>
    match Json.unescape? first, Json.unescape? second with
    | some first, some second =>
      if first = "secs".toList ∧ second = "nanos".toList then ofJsonParts? a b
      else if first = "nanos".toList ∧ second = "secs".toList then ofJsonParts? b a
      else none
    | _, _ => none
  | _ => none

end Span

namespace Config

inductive Field where
  | basePath
  | name
  | dataPageSize
  | pageTtl
  | sweepInterval
deriving DecidableEq

namespace Field

-- In the order in which the options are written.
def all : List Field :=
  [basePath, name, dataPageSize, pageTtl, sweepInterval]

def key : Field → String
  | basePath => "base_path"
  | name => "name"
  | dataPageSize => "data_page_size"
  | pageTtl => "page_ttl"
  | sweepInterval => "sweep_interval"

def ofKey? (key : List Char) : Option Field :=
  all.find? fun field => field.key.toList = key

def read? (field : Field) (j : Json) : Option Setting :=
  match field with
  | basePath => j.string?.map fun s => .basePath ⟨s⟩
  | name => j.string?.map .name
  | dataPageSize => (j.below? UInt64.size).map fun n => .dataPageSize (UInt64.ofNat n)
  | pageTtl => (Span.ofJson? j).map .pageTtl
  | sweepInterval => (Span.ofJson? j).map .sweepInterval

def toJson (field : Field) (c : Config) : Json :=
  match field with
  | basePath => .ofString c.basePath.text
  | name => .ofString c.name
  | dataPageSize => .ofNat c.dataPageSize.toNat
  | pageTtl => c.pageTtl.toJson
  | sweepInterval => c.sweepInterval.toJson

def member (field : Field) (c : Config) : List Char × Json :=
  (field.key.toList, field.toJson c)

end Field

def toJson (c : Config) : Json :=
  .object (Field.all.map fun field => field.member c)

-- Members of other names are passed over whatever they hold. An option may come once.
def readMembers (c : Config) (seen : List Field) : List (List Char × Json) → Option Config
  | [] => some c
  | (name, value) :: members =>
    match Json.unescape? name with
    | none => none
    | some key =>
      match Field.ofKey? key with
      | none => readMembers c seen members
      | some field =>
        if field ∈ seen then none
        else
          match field.read? value with
          | none => none
          | some setting => readMembers (c.set setting) (field :: seen) members

-- The items belong to the options in order, and there may not be more of them.
def readItems (c : Config) : List Field → List Json → Option Config
  | _, [] => some c
  | [], _ :: _ => none
  | field :: fields, item :: items =>
    match field.read? item with
    | none => none
    | some setting => readItems (c.set setting) fields items

def ofJson? : Json → Option Config
  | .object members => readMembers standard [] members
  | .array items => readItems standard Field.all items
  | _ => none

def render (c : Config) : String :=
  c.toJson.render

def parse? (s : String) : Option Config :=
  (Json.parse? s).bind ofJson?

end Config

end Spool
