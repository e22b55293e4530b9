import Spool.Path
import Spool.Text.Quoted
import Spool.Text.Layout

namespace Spool

-- What can go wrong, each cause with the facts that its message gives.
inductive Error where
  -- The file system refused; `reason` is its own account of why.
  | io (path : Path) (reason : String)
  | mapping (path : Path)
  | pageClosed (page : UInt64)
  | pageInUse (page : UInt64) (holders : Nat)
  | cacheClosed (dir : Path)
  | outOfBounds (page : UInt64) (position length pageSize : Nat)
  | misaligned (position : Nat)
  | outOfRange (index tail head : UInt64)
  | itemTooLarge (length max : Nat)
  | corrupted (index : UInt64)
  | invalidConfig (message : String)
  | queueClosed
  | cancelled
  -- A waiter got the error of the read that was made for it.
  | waiterFailed (source : Error)
  | internal (message : String)
  -- The program broke off; whoever called gets this in place of a result.
  | panicked (message : String)
deriving DecidableEq

namespace Error

-- The kind of an error by the name that answers and diagnostics use.
def kind : Error → String
  | io .. => "Io"
  | mapping .. => "Mmap"
  | pageClosed .. => "PageClosed"
  | pageInUse .. => "PageInUse"
  | cacheClosed .. => "FactoryClosed"
  | outOfBounds .. => "PageOutOfBounds"
  | misaligned .. => "Misaligned"
  | outOfRange .. => "IndexOutOfRange"
  | itemTooLarge .. => "ItemTooLarge"
  | corrupted .. => "CorruptedItem"
  | invalidConfig .. => "InvalidConfig"
  | queueClosed => "QueueClosed"
  | cancelled => "Cancelled"
  | waiterFailed .. => "WaiterFailed"
  | internal .. => "Internal"
  | panicked .. => "panic"

def message : Error → String
  | io path _ => "IO error on " ++ path.text
  | mapping path => "Mmap operation failed on " ++ path.text
  | pageClosed page => "Page " ++ toString page ++ " is closed"
  | pageInUse page holders =>
    "Page " ++ toString page ++ " is still referenced " ++ toString holders ++ " time(s)"
  | cacheClosed dir => "Page factory for " ++ dir.text ++ " is closed"
  | outOfBounds page position length pageSize =>
    "Access at " ++ toString position ++ "+" ++ toString length ++ " is outside page " ++
      toString page ++ " of " ++ toString pageSize ++ " bytes"
  | misaligned position => "Position " ++ toString position ++ " is not 8-byte aligned"
  | outOfRange index tail head =>
    "Index " ++ toString index ++ " is out of range [" ++ toString tail ++ ", " ++
      toString head ++ ")"
  | itemTooLarge length max =>
    "Item of " ++ toString length ++ " bytes exceeds the " ++ toString max ++ " byte data page"
  | corrupted index => "Corrupted item at index " ++ toString index
  | invalidConfig message => "Invalid configuration: " ++ message
  | queueClosed => "Queue is closed"
  | cancelled => "Waiter was cancelled"
  | waiterFailed _ => "Waiter resolved with an error"
  | internal message => "Internal error: " ++ message
  | panicked message => message

-- The messages of what is behind an error, the nearest cause first.
def causes : Error → List String
  | io _ reason => [reason]
  | waiterFailed source => source.message :: source.causes
  | _ => []

-- The labelled facts of an error. There are none where the system's own account is one, nor of a program
-- that broke off.
def facts? : Error → Option (List (String × String))
  | io .. | mapping .. | panicked .. => none
  | pageClosed page => some [("index", toString page)]
  | pageInUse page holders => some [("index", toString page), ("ref_count", toString holders)]
  | cacheClosed dir => some [("dir", Text.quoted dir.text)]
  | outOfBounds page position length pageSize =>
    some [("index", toString page), ("position", toString position), ("len", toString length),
      ("page_size", toString pageSize)]
  | misaligned position => some [("position", toString position)]
  | outOfRange index tail head =>
    some [("index", toString index), ("tail", toString tail), ("head", toString head)]
  | itemTooLarge length max => some [("len", toString length), ("max", toString max)]
  | corrupted index => some [("index", toString index)]
  | invalidConfig message => some [("message", Text.quoted message)]
  | queueClosed => some []
  | cancelled => some []
  | waiterFailed source => source.facts?.map fun facts => [("source", Text.layout source.kind facts)]
  | internal message => some [("message", Text.quoted message)]

def diagnostic? (e : Error) : Option String :=
  e.facts?.map (Text.layout e.kind)

end Error

end Spool
