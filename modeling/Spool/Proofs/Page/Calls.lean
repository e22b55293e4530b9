import Spool.Proofs.Page.Alike

namespace Spool.Page

-- What is asked of a page. Every call is checked before it does anything, so it comes to what its check
-- says, and one that is refused leaves the page, the disk and the caller's buffer as they are.
inductive Call where
  | read (position length : Nat)
  | write (position : Nat) (data : Bytes)
  | counter (position : Nat)
  | setCounter (position : Nat) (value : UInt64)
  | increment (position : Nat)

-- How those who hold a page settle what was written to it.
inductive Settling where
  | flush
  | close

inductive Reply where
  | done
  | bytes (data : Bytes)
  | word (value : UInt64)
deriving DecidableEq

-- What becomes of the result of an access, and of nothing else that it gives.
def replying (reply : α → Reply) (access : Access α) : Access Reply := fun p d =>
  (access p d).map fun out => (reply out.1, out.2)

def Call.access : Call → Access Reply
  | read position length => replying .bytes (Page.read position length)
  | write position data => replying (fun _ => .done) (Page.write position data)
  | counter position => replying .word (Page.counter position)
  | setCounter position value => replying (fun _ => .done) (Page.setCounter position value)
  | increment position => replying .word (Page.increment position)

def Settling.settle : Settling → Page → Disk → Except Error Unit × Page
  | flush => Page.flush
  | close => Page.close

-- A page and the disk it is on, and the buffer of somebody who reads.
structure Desk where
  page : Page
  disk : Disk
  buffer : Bytes

namespace Desk

def lent : Part Desk Bytes where
  get s := s.buffer
  set buffer s := { s with buffer }

def onPage (access : Access α) : Step Desk α := do
  let s ← get
  let (a, page, disk) ← Step.ofExcept (access s.page s.disk)
  set { s with page, disk }
  return a

-- The page may change even if that fails.
def settle (settle : Page → Disk → Except Error Unit × Page) : Step Desk Reply := do
  let s ← get
  let (result, page) := settle s.page s.disk
  set { s with page }
  Step.ofExcept result
  return .done

end Desk

-- Whatever happens to a page, through those who hold it or through its cache.
inductive Act where
  | call (c : Call)
  | settle (x : Settling)
  | lend (buffer : Bytes)
  | readInto (position : Nat)
  | retain
  | release
  | forceClose
  -- The system refuses other calls than before.
  | refuse (refuses : SystemCall → Path → Bool)

def Act.perform : Act → Step Desk Reply
  | call c => Desk.onPage c.access
  | settle x => Desk.settle x.settle
  | lend buffer => do
    modify fun s => { s with buffer }
    return .done
  | readInto position => do
    let s ← get
    Step.inside Desk.lent (s.page.readInto s.disk position)
    return .done
  | retain => Desk.onPage fun p d => .ok (.done, p.retain, d)
  | release => Desk.onPage fun p d => .ok (.done, p.release, d)
  | forceClose => Desk.settle Page.forceClose
  | refuse refuses => do
    modify fun s => { s with disk := { s.disk with refuses } }
    return .done

-- What can be seen of a page: its own facts, and a byte at every position of its file.
structure Face where
  path : Path
  index : UInt64
  size : Nat
  isOpen : Bool
  dirty : Bool
  holders : Nat
  byteAt : Nat → UInt8

namespace Face

def read (f : Face) (position length : Nat) : Bytes :=
  (List.range' position length).map f.byteAt

-- Eight bytes as a number, least significant byte first.
def word (f : Face) (position : Nat) : UInt64 :=
  UInt64.ofNat (LittleEndian.decode (f.read position counterSize))

-- A stretch that does not fit is refused first, and a closed page then.
def check (f : Face) (position length : Nat) : Except Error Unit :=
  if ¬position + length ≤ f.size then .error (.outOfBounds f.index position length f.size)
  else if f.isOpen then .ok ()
  else .error (.pageClosed f.index)

def checkCounter (f : Face) (position : Nat) : Except Error Unit :=
  if position % counterSize ≠ 0 then .error (.misaligned position)
  else f.check position counterSize

-- The buffer for bytes that are read comes before anything else.
def checkRead (f : Face) (position length : Nat) : Except Error Unit :=
  if maxBuffer < length then .error (.panicked "capacity overflow") else f.check position length

-- What is told of the writes that were not flushed yet.
def sync (f : Face) (refuses : SystemCall → Path → Bool) : Except Error Unit :=
  if f.isOpen ∧ f.dirty ∧ refuses .syncFile f.path then .error (.mapping f.path) else .ok ()

def accept (f : Face) : Call → Except Error Unit
  | .read position length => f.checkRead position length
  | .write position data => f.check position data.length
  | .counter position => f.checkCounter position
  | .setCounter position _ => f.checkCounter position
  | .increment position => f.checkCounter position

-- What a call gives that is accepted.
def answer (f : Face) : Call → Reply
  | .read position length => .bytes (f.read position length)
  | .counter position => .word (f.word position)
  | .increment position => .word (f.word position)
  | _ => .done

-- Whether an act goes on, for somebody with a buffer of some length.
def permit (f : Face) (refuses : SystemCall → Path → Bool) (length : Nat) : Act → Except Error Unit
  | .call c => f.accept c
  | .settle .flush => f.sync refuses
  | .settle .close => if f.holders ≠ 0 then .error (.pageInUse f.index f.holders) else .ok ()
  | .readInto position => f.check position length
  | _ => .ok ()

-- What an act gives that goes on. A page is closed even if that is refused which it still had to flush.
def reply (f : Face) (refuses : SystemCall → Path → Bool) : Act → Except Error Reply
  | .call c => .ok (f.answer c)
  | .settle .close => (f.sync refuses).map fun _ => .done
  | .forceClose => (f.sync refuses).map fun _ => .done
  | _ => .ok .done

end Face

def Desk.face (s : Desk) : Face where
  path := s.page.path
  index := s.page.index
  size := s.page.size
  isOpen := s.page.isOpen
  dirty := s.page.dirty
  holders := s.page.holders
  byteAt := (s.page.content s.disk).byteAt

def Desk.permit (s : Desk) (a : Act) : Except Error Unit :=
  s.face.permit s.disk.refuses s.buffer.length a

def Desk.reply (s : Desk) (a : Act) : Except Error Reply :=
  s.face.reply s.disk.refuses a

-- What an act leaves behind that goes on.
def Act.next (s : Desk) : Act → Desk
  | call (.write position data) =>
    { s with page := (s.page.store s.disk position data).1, disk := (s.page.store s.disk position data).2 }
  | call (.setCounter position value) =>
    { s with page := (s.page.storeWord s.disk position value).1,
             disk := (s.page.storeWord s.disk position value).2 }
  | call (.increment position) =>
    { s with page := (s.page.storeWord s.disk position (s.face.word position + 1)).1,
             disk := (s.page.storeWord s.disk position (s.face.word position + 1)).2 }
  | call (.read ..) => s
  | call (.counter _) => s
  | settle .flush => { s with page := (s.page.flush s.disk).2 }
  | settle .close => { s with page := s.page.unmap }
  | lend buffer => { s with buffer }
  | readInto position => { s with buffer := s.face.read position s.buffer.length }
  | retain => { s with page := s.page.retain }
  | release => { s with page := s.page.release }
  | forceClose => { s with page := s.page.unmap }
  | refuse refuses => { s with disk := { s.disk with refuses } }

theorem size_unmap (p : Page) : p.unmap.size = p.size := by
  unfold unmap
  split <;> rfl

theorem content_unmap (p : Page) (d : Disk) : p.unmap.content d = p.content d := by
  unfold unmap
  split <;> rfl

theorem content_flush (p : Page) (d d' : Disk) : (p.flush d).2.content d' = p.content d' :=
  congrArg d'.content (alike_flush p d).file

section

variable {s : Desk}

theorem check_eq (s : Desk) (position length : Nat) :
    (do s.page.checkBounds position length; s.page.checkOpen) = s.face.check position length := by
  unfold checkBounds
  show _ = if ¬position + length ≤ s.page.size then _ else _
  by_cases hwithin : position + length ≤ s.page.size
  · rw [if_pos hwithin, if_neg (not_not_intro hwithin)]
    rfl
  · rw [if_neg hwithin, if_pos hwithin]
    rfl

theorem checkCounter_eq (s : Desk) (position : Nat) :
    s.page.checkCounter position = s.face.checkCounter position := by
  have hcheck := check_eq s position counterSize
  unfold checkCounter Face.checkCounter checkAligned
  by_cases haligned : position % counterSize = 0
  · rw [if_pos haligned, if_neg (not_not_intro haligned), ← hcheck]
    rfl
  · rw [if_neg haligned, if_pos haligned]
    rfl

-- An access that is checked first and then goes on.
private theorem replying_checked {access : Access α} {p : Page} {d : Disk} (out : α × Page × Disk)
    (check : Except Error Unit) (reply : α → Reply) (h : access p d = check >>= fun _ => pure out) :
    replying reply access p d = check.map fun _ => (reply out.1, out.2) := by
  unfold replying
  rw [h]
  cases check <;> rfl

theorem access_eq (c : Call) (s : Desk) :
    c.access s.page s.disk = (s.face.accept c).map fun _ =>
      (s.face.answer c, ((Act.call c).next s).page, ((Act.call c).next s).disk) := by
  cases c with
  | read position length =>
      refine replying_checked (_, s.page, s.disk) (s.face.checkRead position length) .bytes ?_
      unfold Page.read checkBuffer Face.checkRead
      by_cases hlength : length ≤ maxBuffer
      · rw [if_pos hlength, if_neg (Nat.not_lt_of_le hlength), ← check_eq, bind_assoc]
        rfl
      · rw [if_neg hlength, if_pos (Nat.lt_of_not_le hlength)]
        rfl
  | write position data =>
      refine replying_checked ((), s.page.store s.disk position data)
        (s.face.check position data.length) (fun _ : Unit => .done) ?_
      rw [← check_eq, bind_assoc]
      rfl
  | counter position =>
      refine replying_checked (_, s.page, s.disk) (s.face.checkCounter position) .word ?_
      rw [← checkCounter_eq]
      rfl
  | setCounter position value =>
      refine replying_checked ((), s.page.storeWord s.disk position value)
        (s.face.checkCounter position) (fun _ : Unit => .done) ?_
      rw [← checkCounter_eq]
      rfl
  | increment position =>
      refine replying_checked (_, s.page.storeWord s.disk position _)
        (s.face.checkCounter position) .word ?_
      rw [← checkCounter_eq]
      rfl

theorem run_onPage (access : Access α) (s : Desk) :
    (Desk.onPage access).run s =
      match access s.page s.disk with
      | .error e => (.error e, s)
      | .ok (a, page, disk) => (.ok a, { s with page, disk }) := by
  unfold Desk.onPage
  rw [Step.run_bind_of_run (Step.run_get s), Step.run_bind, Step.run_ofExcept]
  cases access s.page s.disk <;> rfl

theorem run_readInto (s : Desk) (position : Nat) :
    (s.page.readInto s.disk position).run s.buffer =
      match s.face.check position s.buffer.length with
      | .error e => (.error e, s.buffer)
      | .ok () => (.ok (), s.face.read position s.buffer.length) := by
  unfold readInto
  rw [← check_eq, Step.run_bind_of_run (Step.run_get s.buffer), Step.run_bind, Step.run_ofExcept]
  cases s.page.checkBounds position s.buffer.length with
  | error e => rfl
  | ok u =>
      dsimp only
      rw [Step.run_bind, Step.run_ofExcept]
      cases s.page.checkOpen <;> rfl

theorem run_settle (settle : Page → Disk → Except Error Unit × Page) (s : Desk) :
    (Desk.settle settle).run s =
      ((settle s.page s.disk).1.map fun _ => .done, { s with page := (settle s.page s.disk).2 }) := by
  unfold Desk.settle
  rw [Step.run_bind_of_run (Step.run_get s)]
  rcases settle s.page s.disk with ⟨result, page⟩
  cases result <;> rfl

-- Every act is checked, and does nothing if it is refused.
theorem run_perform (a : Act) (s : Desk) :
    a.perform.run s =
      match s.permit a with
      | .error e => (.error e, s)
      | .ok () => (s.reply a, a.next s) := by
  cases a with
  | call c =>
      have hpermit : s.permit (.call c) = s.face.accept c := rfl
      unfold Act.perform
      rw [run_onPage, access_eq c s, hpermit]
      cases s.face.accept c with
      | error e => rfl
      | ok u => cases c <;> rfl
  | settle x =>
      unfold Act.perform
      rw [run_settle]
      cases x with
      | flush =>
          have hpermit : s.permit (.settle .flush) = s.page.sync s.disk := rfl
          rw [hpermit]
          show ((s.page.flush s.disk).1.map _, { s with page := (s.page.flush s.disk).2 }) = _
          unfold Page.flush
          cases hsync : s.page.sync s.disk with
          | error e => rfl
          | ok u =>
              show _ = ((.ok .done : Except Error Reply), { s with page := (s.page.flush s.disk).2 })
              unfold Page.flush
              rw [hsync]
              rfl
      | close =>
          show ((s.page.close s.disk).1.map _, { s with page := (s.page.close s.disk).2 }) =
            match (if s.page.holders ≠ 0 then _ else _ : Except Error Unit) with
            | .error e => _
            | .ok () => _
          unfold Page.close
          by_cases hheld : s.page.holders ≠ 0
          · simp only [if_pos hheld]
            rfl
          · simp only [if_neg hheld]
            rfl
  | lend buffer => rfl
  | readInto position =>
      have hpermit : s.permit (.readInto position) = s.face.check position s.buffer.length := rfl
      unfold Act.perform
      rw [Step.run_bind_of_run (Step.run_get s), Step.run_bind, Step.run_inside,
        show Desk.lent.get s = s.buffer from rfl, run_readInto, hpermit]
      cases s.face.check position s.buffer.length with
      | error e => rfl
      | ok u => rfl
  | retain => rfl
  | release => rfl
  | forceClose => exact run_settle Page.forceClose s
  | refuse refuses => rfl

end

end Spool.Page
