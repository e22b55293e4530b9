import Spool.Page.Basic
import Spool.Proofs.Disk.Frame

namespace Spool.Page

-- An access refused for the same reason, or did to the sheet of the file what was done to the sheet,
-- which kept its size, and at most marked the page as written to.
inductive Agrees (p : Page) (d : Disk) :
    Except Error (α × Page × Disk) → Except Error (α × Sheet) → Prop
  | error (e : Error) : Agrees p d (.error e) (.error e)
  | ok {d' : Disk} {s : Sheet} (a : α) (dirty : Bool) (h : Disk.Rewrites d d' p.file s)
      (hsize : s.size = (d.content p.file).size) :
    Agrees p d (.ok (a, { p with dirty }, d')) (.ok (a, s))

-- What an access does to every open page of some number and size.
def Acts (access : Access α) (index : UInt64) (size : Nat)
    (act : Sheet → Except Error (α × Sheet)) : Prop :=
  ∀ (p : Page) (d : Disk), p.index = index → p.size = size → p.isOpen = true →
    Agrees p d (access p d) (act (d.content p.file).sheet)

section

variable {index : UInt64} {size position length : Nat}

private theorem checkBounds_of_le {p : Page} (hsize : p.size = size) (h : position + length ≤ size) :
    p.checkBounds position length = .ok () :=
  checkBounds_eq_ok_iff.mpr (hsize ▸ h)

private theorem checkOpen_of_isOpen {p : Page} (h : p.isOpen = true) : p.checkOpen = .ok () :=
  if_pos h

private theorem checkCounter_of_le {p : Page} (hsize : p.size = size) (hopen : p.isOpen = true)
    (haligned : position % counterSize = 0) (h : position + counterSize ≤ size) :
    p.checkCounter position = .ok () := by
  unfold checkCounter checkAligned
  rw [if_pos haligned, checkBounds_of_le hsize h, checkOpen_of_isOpen hopen]
  rfl

theorem acts_read (hbuffer : length ≤ maxBuffer) (h : position + length ≤ size) :
    Acts (read position length) index size fun s => .ok (s.read position length, s) := by
  intro p d _ hsize hopen
  unfold read checkBuffer
  rw [if_pos hbuffer, checkBounds_of_le hsize h, checkOpen_of_isOpen hopen]
  exact .ok _ p.dirty (Disk.Rewrites.refl d p.file) rfl

theorem acts_read_outside (hbuffer : length ≤ maxBuffer) (h : size < position + length) :
    Acts (read position length) index size fun _ =>
      .error (.outOfBounds index position length size) := by
  intro p d hindex hsize _
  unfold read checkBuffer checkBounds
  rw [if_pos hbuffer, hsize, hindex, if_neg (by omega)]
  exact .error _

private theorem rewrites_store (p : Page) (d : Disk) (position : Nat) (data : Bytes) :
    Disk.Rewrites d (p.store d position data).2 p.file
      ((d.content p.file).sheet.write position data) := by
  rw [← Content.sheet_write]
  exact Disk.rewrites_setContent d p.file _

theorem acts_write {data : Bytes} (h : position + data.length ≤ size) :
    Acts (write position data) index size fun s => .ok ((), s.write position data) := by
  intro p d _ hsize hopen
  unfold write
  rw [checkBounds_of_le hsize h, checkOpen_of_isOpen hopen]
  exact .ok () true (rewrites_store p d position data) rfl

section Counter

variable (haligned : position % counterSize = 0) (h : position + counterSize ≤ size)

include haligned h

theorem acts_counter :
    Acts (counter position) index size fun s => .ok (s.word position, s) := by
  intro p d _ hsize hopen
  unfold counter
  rw [checkCounter_of_le hsize hopen haligned h]
  exact .ok _ p.dirty (Disk.Rewrites.refl d p.file) rfl

theorem acts_setCounter (value : UInt64) :
    Acts (setCounter position value) index size fun s => .ok ((), s.setWord position value) := by
  intro p d _ hsize hopen
  unfold setCounter
  rw [checkCounter_of_le hsize hopen haligned h]
  exact .ok () true (rewrites_store p d position _) rfl

theorem acts_increment :
    Acts (increment position) index size fun s =>
      .ok (s.word position, s.setWord position (s.word position + 1)) := by
  intro p d _ hsize hopen
  unfold increment
  rw [checkCounter_of_le hsize hopen haligned h]
  exact .ok _ true (rewrites_store p d position _) rfl

end Counter

theorem acts_pure (a : α) : Acts (fun p d => .ok (a, p, d)) index size fun s => .ok (a, s) :=
  fun p d _ _ _ => .ok a p.dirty (Disk.Rewrites.refl d p.file) rfl

-- Two accesses in a row, the second of which depends on what the first one gave.
theorem acts_bind {access : Access α} {rest : α → Access β}
    {act : Sheet → Except Error (α × Sheet)} {actRest : α → Sheet → Except Error (β × Sheet)}
    (h : Acts access index size act) (hrest : ∀ a, Acts (rest a) index size (actRest a)) :
    Acts (fun p d => do let (a, p, d) ← access p d; rest a p d) index size
      (fun s => do let (a, s) ← act s; actRest a s) := by
  intro p d hindex hsize hopen
  have hfirst := h p d hindex hsize hopen
  show Agrees p d (access p d >>= fun r => rest r.1 r.2.1 r.2.2)
    (act (d.content p.file).sheet >>= fun r => actRest r.1 r.2)
  generalize access p d = result, act (d.content p.file).sheet = expected at hfirst
  cases hfirst with
  | error e => exact .error e
  | @ok d' s a dirty hrewrites hsize' =>
      have hsecond := hrest a { p with dirty } d' hindex hsize hopen
      rw [hrewrites.sheet] at hsecond
      show Agrees p d (rest a { p with dirty } d') (actRest a s)
      generalize rest a { p with dirty } d' = result, actRest a s = expected at hsecond
      cases hsecond with
      | error e => exact .error e
      | ok b dirty' hrewrites' hsize'' =>
          have hkept : (d'.content p.file).size = (d.content p.file).size := hrewrites.size_eq.trans hsize'
          exact .ok b dirty' (hrewrites.trans hrewrites') (hsize''.trans hkept)

end

end Spool.Page
