import Spool.Disk.Basic
import Spool.Error

namespace Spool

-- What an operation needs of the machine it runs on.
structure Host where
  disk : Disk
  -- Nanoseconds since the start of the year 1970.
  now : Nat

-- What was done before an error stays done.
abbrev Step (σ α : Type) := ExceptT Error (StateM σ) α

-- Where a part is kept within a whole.
structure Part (σ τ : Type) where
  get : σ → τ
  set : τ → σ → σ

namespace Part

-- Both sides keep the host beside them.
def withHost (p : Part σ τ) : Part (Host × σ) (Host × τ) where
  get s := (s.1, p.get s.2)
  set t s := (t.1, p.set t.2 s.2)

def host : Part (Host × σ) Host where
  get s := s.1
  set h s := (h, s.2)

end Part

namespace Step

def run (x : Step σ α) (s : σ) : Except Error α × σ := StateT.run (ExceptT.run x) s

def ofRun (f : σ → Except Error α × σ) : Step σ α := ExceptT.mk f

def ofExcept (r : Except Error α) : Step σ α := ofRun fun s => (r, s)

-- Goes on with whatever came of a step.
def attempt (x : Step σ α) : Step σ (Except Error α) :=
  ofRun fun s => let (r, s) := x.run s; (.ok r, s)

def inside (p : Part σ τ) (x : Step τ α) : Step σ α :=
  ofRun fun s => let (r, t) := x.run (p.get s); (r, p.set t s)

-- Runs a step beside a state of its own, which is handed out at the end.
def beside (t : τ) (x : Step (σ × τ) α) : Step σ (α × τ) :=
  ofRun fun s =>
    match x.run (s, t) with
    | (.ok a, (s, t)) => (.ok (a, t), s)
    | (.error e, (s, _)) => (.error e, s)

-- A change of the disk that may be refused, on behalf of a path.
def onDisk (path : Path) (f : Disk → Except Refusal α × Disk) : Step Host α :=
  ofRun fun host =>
    match f host.disk with
    | (.ok a, disk) => (.ok a, { host with disk })
    | (.error e, disk) => (.error (.io path e.reason), { host with disk })

theorem run_pure (a : α) (s : σ) : (pure a : Step σ α).run s = (.ok a, s) := rfl

theorem run_ofRun (f : σ → Except Error α × σ) (s : σ) : (ofRun f).run s = f s := rfl

theorem run_bind (x : Step σ α) (f : α → Step σ β) (s : σ) :
    (x >>= f).run s =
      match x.run s with
      | (.ok a, s) => (f a).run s
      | (.error e, s) => (.error e, s) := by
  simp only [run, ExceptT.run_bind, StateT.run_bind]
  show (match StateT.run (ExceptT.run x) s with | (r, t) => _) = _
  rcases StateT.run (ExceptT.run x) s with ⟨r, t⟩
  cases r <;> rfl

-- A step that ends well went through every step it is made of.
theorem run_bind_eq_ok_iff {x : Step σ α} {f : α → Step σ β} {s t : σ} {b : β} :
    (x >>= f).run s = (.ok b, t) ↔
      ∃ a u, x.run s = (.ok a, u) ∧ (f a).run u = (.ok b, t) := by
  rw [run_bind]
  rcases x.run s with ⟨r, u⟩
  cases r with
  | error e => simp
  | ok a =>
    constructor
    · intro h
      exact ⟨a, u, rfl, h⟩
    · rintro ⟨_, _, ⟨⟩, h⟩
      exact h

theorem run_attempt (x : Step σ α) (s : σ) :
    (attempt x).run s = (.ok (x.run s).1, (x.run s).2) := rfl

theorem run_inside (p : Part σ τ) (x : Step τ α) (s : σ) :
    (inside p x).run s = ((x.run (p.get s)).1, p.set (x.run (p.get s)).2 s) := rfl

theorem run_get (s : σ) : (get : Step σ σ).run s = (.ok s, s) := rfl

theorem run_set (s t : σ) : (set t : Step σ PUnit).run s = (.ok ⟨⟩, t) := rfl

theorem run_modify (f : σ → σ) (s : σ) : (modify f : Step σ PUnit).run s = (.ok ⟨⟩, f s) := rfl

theorem run_modifyGet (f : σ → α × σ) (s : σ) :
    (modifyGet f : Step σ α).run s = (.ok (f s).1, (f s).2) := rfl

theorem run_onDisk (path : Path) (f : Disk → Except Refusal α × Disk) (host : Host) :
    (onDisk path f).run host =
      match f host.disk with
      | (.ok a, disk) => (.ok a, { host with disk })
      | (.error e, disk) => (.error (.io path e.reason), { host with disk }) := rfl

theorem run_ofExcept (r : Except Error α) (s : σ) : (ofExcept r : Step σ α).run s = (r, s) := rfl

end Step

end Spool
