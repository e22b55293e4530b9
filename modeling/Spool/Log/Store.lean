import Spool.Log.Basic

namespace Spool

inductive Call where
  | append
  | fetch
  | removeAll
  | removeBefore
  | flush
  | close
deriving DecidableEq

structure Fault where
  call : Call
  message : String
deriving DecidableEq

-- A log whose calls may be made to fail. A call takes the oldest fault planned for its kind.
structure Store where
  log : Log
  -- Oldest first.
  faults : List Fault

namespace Store

abbrev Action (α : Type) := Step (Host × Store) α

def ofLog (log : Log) : Store := ⟨log, []⟩

def plan (s : Store) (fault : Fault) : Store :=
  { s with faults := s.faults ++ [fault] }

def logPart : Part (Host × Store) (Host × Log) :=
  Part.withHost ⟨Store.log, fun l s => { s with log := l }⟩

-- The fault that the next call of a kind meets, and the store without it.
def takeFault (s : Store) (call : Call) : Option Fault × Store :=
  let isFor := fun (f : Fault) => decide (f.call = call)
  (s.faults.find? isFor, { s with faults := s.faults.eraseP isFor })

def meet (call : Call) : Action Unit := do
  let (host, s) ← get
  let (fault, s) := s.takeFault call
  set (host, s)
  match fault with
  | none => return ()
  | some f => if f.message ≠ "" then throw (.internal f.message)

def perform (call : Call) (x : Log.Action α) : Action α := do
  meet call
  Step.inside logPart x

def append (payload : Bytes) : Action UInt64 :=
  perform .append (Log.append payload)

def fetch (index : UInt64) : Action Bytes :=
  perform .fetch (Log.fetch index)

def removeAll : Action Unit :=
  perform .removeAll Log.removeAll

def removeBefore (index : UInt64) : Action Unit :=
  perform .removeBefore (Log.removeBefore index)

def flush : Action Unit :=
  perform .flush Log.flush

def close : Action Unit :=
  perform .close Log.close

def head (s : Store) : UInt64 := s.log.head

def tail (s : Store) : UInt64 := s.log.tail

end Store

end Spool
