import Spool.Span
import Spool.Text.Layout

namespace Spool

inductive CachePolicy where
  -- Pages stay until the cache is closed.
  | pinned
  -- Pages that nobody holds leave when they were idle for `ttl`, as seen every `sweepInterval`.
  | evict (ttl sweepInterval : Span)
deriving DecidableEq

namespace CachePolicy

def ttl? : CachePolicy → Option Span
  | pinned => none
  | evict ttl _ => some ttl

def diagnostic : CachePolicy → String
  | pinned => "Pinned"
  | evict ttl sweepInterval =>
    Text.layout "Evict" [("ttl", ttl.text), ("sweep_interval", sweepInterval.text)]

end CachePolicy

end Spool
