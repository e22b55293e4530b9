import Spool.Cache.Policy
import Spool.Error

namespace Spool

-- What a queue is opened with.
structure Config where
  basePath : Path
  name : String
  dataPageSize : UInt64
  pageTtl : Span
  sweepInterval : Span
deriving DecidableEq

-- One option with its value.
inductive Setting where
  | basePath (p : Path)
  | name (s : String)
  | dataPageSize (n : UInt64)
  | pageTtl (s : Span)
  | sweepInterval (s : Span)

namespace Config

def defaultDataPageSize : UInt64 := 134217728

def minimumDataPageSize : UInt64 := 33554432

-- The largest offset within a page that an index entry can hold.
def maximumDataPageSize : UInt64 := 4294967295

def defaultPageTtl : Span := Span.ofSecs 10

def defaultSweepInterval : Span := Span.ofSecs 1

def standard : Config where
  basePath := ⟨"./queue_data"⟩
  name := "default"
  dataPageSize := defaultDataPageSize
  pageTtl := defaultPageTtl
  sweepInterval := defaultSweepInterval

def set (c : Config) : Setting → Config
  | .basePath p => { c with basePath := p }
  | .name s => { c with name := s }
  | .dataPageSize n => { c with dataPageSize := n }
  | .pageTtl s => { c with pageTtl := s }
  | .sweepInterval s => { c with sweepInterval := s }

-- The standard options for a queue of a given place and name.
def named (basePath : Path) (name : String) : Config :=
  { standard with basePath, name }

-- The directory of the queue's files.
def queueDir (c : Config) : Path :=
  c.basePath.join c.name

def cachePolicy (c : Config) : CachePolicy :=
  .evict c.pageTtl c.sweepInterval

-- Counts the parts of the name as a path, so names such as `..` and `a/` have one.
def hasNameOfOnePart (c : Config) : Bool :=
  c.name ≠ "" && (Path.mk c.name).parts.length = 1

-- The options are looked at in a fixed order, and the first that is refused is reported.
def validate (c : Config) : Except Error Unit :=
  if !c.hasNameOfOnePart then
    .error (.invalidConfig
      ("queue name " ++ Text.quoted c.name ++ " must be a single path component"))
  else if c.dataPageSize < minimumDataPageSize then
    .error (.invalidConfig
      ("data page size " ++ toString c.dataPageSize ++ " is below the minimum of " ++
        toString minimumDataPageSize))
  else if maximumDataPageSize < c.dataPageSize then
    .error (.invalidConfig
      ("data page size " ++ toString c.dataPageSize ++ " does not fit a 32-bit item offset"))
  else if c.sweepInterval.isZero then
    .error (.invalidConfig "sweep interval must be nonzero")
  else .ok ()

-- Base paths agree when their parts do, and every other option when it is the same.
def agrees (c d : Config) : Bool :=
  c.basePath.sameParts d.basePath && c.name = d.name && c.dataPageSize = d.dataPageSize &&
    c.pageTtl = d.pageTtl && c.sweepInterval = d.sweepInterval

def diagnostic (c : Config) : String :=
  Text.layout "QueueConfig" [
    ("base_path", Text.quoted c.basePath.text),
    ("name", Text.quoted c.name),
    ("data_page_size", toString c.dataPageSize),
    ("page_ttl", c.pageTtl.text),
    ("sweep_interval", c.sweepInterval.text)]

end Config

end Spool
