import Spool.Proofs.Page.Calls

namespace Spool

-- A file of certain bytes. There are only zeros beyond its end.
structure Content.Is (c : Content) (data : Bytes) : Prop where
  size : c.size = data.length
  byteAt : ∀ position, c.byteAt position = data[position]?.getD 0

-- A path leads to a file of certain bytes, or to a place where an empty one can be made. No file has more
-- bytes than one can be made with.
def Disk.Offers (d : Disk) (path : Path) (data : Bytes) : Prop :=
  data.length < maxFileSize ∧ ∃ id d', d.openFile path = (.ok id, d') ∧ (d'.content id).Is data

-- What is told to somebody who maps a file of some length as a page. A file that is long enough is left as
-- it is.
def Disk.permit (d : Disk) (path : Path) (length size : Nat) : Except Error Unit :=
  if d.refuses .openFile path ∨ d.refuses .fileSize path ∨ length < size ∧ d.refuses .setSize path then
    .error (.io path Refusal.systemError.reason)
  else if length < size ∧ maxFileSize ≤ size then .error (.io path Refusal.tooLarge.reason)
  else if d.refuses .mapFile path then .error (.mapping path)
  else .ok ()

namespace Page

-- What a page answers and what its file holds is told by the acts that went well since it was mapped: at
-- each position what was written there last, and what the file held before where nothing was.
inductive Mark where
  | wrote (position : Nat) (data : Bytes)
  | flushed
  | closed
deriving DecidableEq

namespace Mark

def isWrite : Mark → Bool
  | wrote .. => true
  | _ => false

-- The byte that was written at a position.
def byte? (position : Nat) : Mark → Option UInt8
  | wrote start data => if start ≤ position then data[position - start]? else none
  | _ => none

end Mark

abbrev History := List Mark

namespace Act

-- An act that is refused leaves no mark. A page is closed whatever its last flush comes to.
def mark? : Act → Except Error Reply → Option Mark
  | call (.write position data), .ok _ => some (.wrote position data)
  | call (.setCounter position value), .ok _ =>
    some (.wrote position (LittleEndian.encode counterSize value.toNat))
  | call (.increment position), .ok (.word before) =>
    some (.wrote position (LittleEndian.encode counterSize (before + 1).toNat))
  | settle .flush, .ok _ => some .flushed
  | settle .close, .error (.pageInUse ..) => none
  | settle .close, _ => some .closed
  | forceClose, _ => some .closed
  | _, _ => none

def marks (a : Act) (s : Desk) : History :=
  (a.mark? (a.perform.run s).1).toList

-- How many hold the page afterwards.
def held (holders : Nat) : Act → Nat
  | retain => holders + 1
  | release => holders - 1
  | _ => holders

-- What the system refuses afterwards.
def refused (refuses : SystemCall → Path → Bool) : Act → SystemCall → Path → Bool
  | refuse refuses' => refuses'
  | _ => refuses

-- The bytes that an act asks for, by their position and number.
def stretch? (length : Nat) : Act → Option (Nat × Nat)
  | call (.read position length) => some (position, length)
  | call (.write position data) => some (position, data.length)
  | call (.counter position) => some (position, counterSize)
  | call (.setCounter position _) => some (position, counterSize)
  | call (.increment position) => some (position, counterSize)
  | readInto position => some (position, length)
  | _ => none

def isCounter : Act → Bool
  | call (.counter _) => true
  | call (.setCounter ..) => true
  | call (.increment _) => true
  | _ => false

-- The bytes that an act may change.
def Touches (position : Nat) : Act → Prop
  | call (.write start data) => start ≤ position ∧ position < start + data.length
  | call (.setCounter start _) => start ≤ position ∧ position < start + counterSize
  | call (.increment start) => start ≤ position ∧ position < start + counterSize
  | _ => False

def run (a : Act) : Step Desk Unit :=
  discard a.perform

end Act

-- The marks of a run.
def history : List Act → Desk → History
  | [], _ => []
  | a :: as, s => a.marks s ++ history as (a.run.run s).2

namespace History

-- What was written last at a position, or what was there before.
def latest (h : History) (data : Bytes) (position : Nat) : UInt8 :=
  (h.reverse.findSome? (Mark.byte? position)).getD (data[position]?.getD 0)

-- A page is open until it is closed, and dirty as long as a write is the last thing that was done to it.
def face (h : History) (data : Bytes) (path : Path) (index : UInt64) (size holders : Nat) : Face where
  path
  index
  size
  isOpen := !h.contains .closed
  dirty := h.getLast?.any Mark.isWrite
  holders
  byteAt := h.latest data

end History

-- What the history of a page tells about it, and about every act that comes next.
structure Told (path : Path) (index : UInt64) (size : Nat) (data : Bytes) (h : History) (holders : Nat)
    (refuses : SystemCall → Path → Bool) (s : Desk) : Prop where
  face : s.face = h.face data path index size holders
  refuses : s.disk.refuses = refuses
  fileSize : (s.page.content s.disk).size = max data.length size
  -- A file that is longer than the page keeps what it has behind the page.
  beyond : ∀ position, size ≤ position → s.face.byteAt position = data[position]?.getD 0
  answer : ∀ a : Act, (a.perform.run s).1 = (s.permit a).bind fun _ => s.reply a
  succeeds : ∀ (a : Act) (position length : Nat), a.stretch? s.buffer.length = some (position, length) →
    ((∃ reply, (a.perform.run s).1 = .ok reply) ↔
      position + length ≤ size ∧ (a.isCounter = true → position % 8 = 0) ∧ Mark.closed ∉ h)
  -- What fails changes nothing, except that a page is closed that cannot be flushed any more.
  unchanged : ∀ (a : Act) (e : Error), (a.perform.run s).1 = .error e → (a.perform.run s).2 = s ∨
    (a = .settle .close ∨ a = .forceClose) ∧ e = .mapping path ∧
      (a.perform.run s).2 = { s with page := s.page.unmap }
  filled : ∀ (position : Nat) (reply : Reply), ((Act.readInto position).perform.run s).1 = .ok reply →
    ((Act.readInto position).perform.run s).2 =
      { s with buffer := s.face.read position s.buffer.length }
  spared : ∀ (a : Act) (position : Nat), ¬a.Touches position →
    (a.perform.run s).2.face.byteAt position = s.face.byteAt position
  others : ∀ a : Act, (a.perform.run s).2.disk.nodes = s.disk.nodes ∧
    ∀ id, id ≠ s.page.file → (a.perform.run s).2.disk.content id = s.disk.content id

-- What of a page and its file is told by a history, by parts.
private structure Follows (path : Path) (index : UInt64) (size : Nat) (data : Bytes) (h : History)
    (holders : Nat) (refuses : SystemCall → Path → Bool) (s : Desk) : Prop where
  path_eq : s.page.path = path
  index_eq : s.page.index = index
  size_eq : s.page.size = size
  size_le : size ≤ maxBuffer
  isOpen : s.page.isOpen = !h.contains .closed
  dirty : s.page.dirty = h.getLast?.any Mark.isWrite
  clean : s.page.isOpen = false → s.page.dirty = false
  holders_eq : s.page.holders = holders
  refuses_eq : s.disk.refuses = refuses
  byteAt : ∀ position, (s.page.content s.disk).byteAt position = h.latest data position
  fileSize : (s.page.content s.disk).size = max data.length size
  beyond : ∀ position, size ≤ position →
    (s.page.content s.disk).byteAt position = data[position]?.getD 0

section

variable {f : Face} {s : Desk} {path : Path} {index : UInt64} {size holders position length : Nat}
  {data : Bytes} {h : History} {refuses : SystemCall → Path → Bool}

theorem is_ofBytes (data : Bytes) : (Content.ofBytes data).Is data where
  size := rfl
  byteAt position := by
    have hzero : (∅ : Std.TreeMap Nat UInt8).getD position 0 = 0 := Content.byteAt_empty position
    unfold Content.ofBytes Content.byteAt
    rw [Content.getD_store, if_pos (Nat.zero_le _), hzero]
    rfl

theorem check_eq_ok_iff : f.check position length = .ok () ↔ position + length ≤ f.size ∧ f.isOpen = true := by
  unfold Face.check
  by_cases hwithin : position + length ≤ f.size
  · by_cases hopen : f.isOpen = true <;> simp [hwithin, hopen]
  · simp [hwithin]

theorem checkCounter_eq_ok_iff : f.checkCounter position = .ok () ↔
    position % counterSize = 0 ∧ position + counterSize ≤ f.size ∧ f.isOpen = true := by
  unfold Face.checkCounter
  by_cases haligned : position % counterSize = 0
  · simp [haligned, check_eq_ok_iff]
  · simp [haligned]

theorem latest_concat (h : History) (m : Mark) (data : Bytes) (position : Nat) :
    (h ++ [m]).latest data position = (m.byte? position).getD (h.latest data position) := by
  unfold History.latest
  rw [List.reverse_concat, List.findSome?_cons]
  cases m.byte? position <;> rfl

theorem byteAt_write_eq (c : Content) (start : Nat) (data : Bytes) (position : Nat) :
    (c.write start data).byteAt position = ((Mark.wrote start data).byte? position).getD (c.byteAt position) := by
  rw [Content.byteAt_write, Mark.byte?]
  split <;> rfl

theorem byte?_eq_none_of_outside {start : Nat} (h : position < start ∨ start + data.length ≤ position) :
    (Mark.wrote start data).byte? position = none := by
  rw [Mark.byte?]
  split
  · exact List.getElem?_eq_none (by omega)
  · rfl

-- Bytes are written to an open page.
private theorem Follows.store (hs : Follows path index size data h holders refuses s) {start : Nat} {bytes : Bytes}
    (hwithin : start + bytes.length ≤ s.page.size) (hopen : s.page.isOpen = true) :
    Follows path index size data (h ++ [.wrote start bytes]) holders refuses
      { s with page := (s.page.store s.disk start bytes).1, disk := (s.page.store s.disk start bytes).2 } := by
  have hcontent : ((s.page.store s.disk start bytes).1.content (s.page.store s.disk start bytes).2) =
      (s.page.content s.disk).write start bytes := content_store s.page s.disk start bytes
  refine ⟨hs.path_eq, hs.index_eq, hs.size_eq, hs.size_le, ?_, ?_, ?_, hs.holders_eq, hs.refuses_eq,
    ?_, ?_, ?_⟩
  · show s.page.isOpen = _
    rw [hs.isOpen]
    simp
  · show true = _
    rw [List.getLast?_concat]
    rfl
  · intro hclosed
    cases hopen.symm.trans hclosed
  · intro position
    rw [hcontent, byteAt_write_eq, latest_concat, hs.byteAt]
  · rw [hcontent]
    exact hs.fileSize
  · intro position hbeyond
    rw [hcontent, byteAt_write_eq, byte?_eq_none_of_outside (.inr ?_)]
    · exact hs.beyond position hbeyond
    · have hsize := hs.size_eq
      omega

-- A page that was flushed or closed, with the mark of that.
private theorem Follows.settle (hs : Follows path index size data h holders refuses s) {m : Mark} {page : Page}
    (hm : ∀ position, m.byte? position = none) (hwrite : m.isWrite = false)
    (hpage : page = { s.page with isOpen := s.page.isOpen && m != .closed, dirty := false }) :
    Follows path index size data (h ++ [m]) holders refuses { s with page } := by
  subst hpage
  refine ⟨hs.path_eq, hs.index_eq, hs.size_eq, hs.size_le, ?_, ?_, fun _ => rfl, hs.holders_eq,
    hs.refuses_eq, ?_, hs.fileSize, hs.beyond⟩
  · show (s.page.isOpen && m != .closed) = _
    rw [hs.isOpen]
    cases m <;> simp
  · show false = _
    rw [List.getLast?_concat]
    exact hwrite.symm
  · intro position
    rw [latest_concat, hm]
    exact hs.byteAt position

private theorem Follows.flush (hs : Follows path index size data h holders refuses s)
    (hsync : s.page.sync s.disk = .ok ()) :
    Follows path index size data (h ++ [.flushed]) holders refuses
      { s with page := (s.page.flush s.disk).2 } := by
  refine hs.settle (fun _ => rfl) rfl ?_
  unfold Page.flush
  rw [hsync]
  cases hopen : s.page.isOpen with
  | true => rfl
  | false =>
      have hclean := hs.clean hopen
      cases hpage : s.page
      simp_all

private theorem Follows.unmap (hs : Follows path index size data h holders refuses s) :
    Follows path index size data (h ++ [.closed]) holders refuses { s with page := s.page.unmap } := by
  refine hs.settle (fun _ => rfl) rfl ?_
  unfold Page.unmap
  cases hopen : s.page.isOpen with
  | true => rfl
  | false =>
      have hclean := hs.clean hopen
      cases hpage : s.page
      simp_all

-- Somebody else holds the page, or brings another buffer.
private theorem Follows.hold (hs : Follows path index size data h holders refuses s) (holders' : Nat)
    (buffer : Bytes) :
    Follows path index size data h holders' refuses ⟨{ s.page with holders := holders' }, s.disk, buffer⟩ :=
  { hs with holders_eq := rfl }

private theorem Follows.lend (hs : Follows path index size data h holders refuses s) (buffer : Bytes) :
    Follows path index size data h holders refuses { s with buffer } :=
  { hs with }

private theorem Follows.refuse (hs : Follows path index size data h holders refuses s)
    (refuses' : SystemCall → Path → Bool) :
    Follows path index size data h holders refuses' { s with disk := { s.disk with refuses := refuses' } } :=
  { hs with refuses_eq := rfl }

theorem marks_of_error {a : Act} {e : Error} (h : s.permit a = .error e) : a.marks s = [] := by
  unfold Act.marks
  rw [run_perform, h]
  cases a with
  | call c => cases c <;> rfl
  | settle x =>
      cases x with
      | flush => rfl
      | close =>
          -- Only somebody who still holds the page keeps it from being closed.
          have hheld : s.permit (.settle .close) =
            if s.page.holders ≠ 0 then .error (.pageInUse s.page.index s.page.holders) else .ok () := rfl
          rw [h] at hheld
          split at hheld
          · cases hheld
            rfl
          · cases hheld
  | forceClose => cases h
  | _ => rfl

theorem marks_of_ok {a : Act} (h : s.permit a = .ok ()) : a.marks s = (a.mark? (s.reply a)).toList := by
  unfold Act.marks
  rw [run_perform, h]

-- What a page gives that is closed leaves the mark of that, whatever it is.
theorem mark?_close (s : Desk) : (Act.settle .close).mark? (s.reply (.settle .close)) = some .closed := by
  have hreply : s.reply (.settle .close) = (s.face.sync s.disk.refuses).map fun _ => .done := rfl
  rw [hreply]
  unfold Face.sync
  split <;> rfl

-- Nobody is refused who takes or gives up a hold.
theorem held_of_error {a : Act} {e : Error} (h : s.permit a = .error e) (holders : Nat) :
    a.held holders = holders := by
  cases a with
  | retain => cases h
  | release => cases h
  | _ => rfl

theorem refused_of_error {a : Act} {e : Error} (h : s.permit a = .error e)
    (refuses : SystemCall → Path → Bool) : a.refused refuses = refuses := by
  cases a with
  | refuse refuses => cases h
  | _ => rfl

private theorem Follows.act (hs : Follows path index size data h holders refuses s) (a : Act) :
    Follows path index size data (h ++ a.marks s) (a.held holders) (a.refused refuses) (a.run.run s).2 := by
  rw [Act.run, Step.snd_run_discard, run_perform]
  cases hpermit : s.permit a with
  | error e =>
      rw [marks_of_error hpermit, held_of_error hpermit, refused_of_error hpermit, List.append_nil]
      exact hs
  | ok u =>
      rw [marks_of_ok hpermit]
      cases a with
      | call c =>
          cases c with
          | read position length => exact (List.append_nil h).symm ▸ hs
          | counter position => exact (List.append_nil h).symm ▸ hs
          | write position bytes =>
              obtain ⟨hwithin, hopen⟩ := check_eq_ok_iff.mp hpermit
              exact hs.store hwithin hopen
          | setCounter position value =>
              obtain ⟨-, hwithin, hopen⟩ := checkCounter_eq_ok_iff.mp hpermit
              exact hs.store ((LittleEndian.length_encode counterSize _).symm ▸ hwithin) hopen
          | increment position =>
              obtain ⟨-, hwithin, hopen⟩ := checkCounter_eq_ok_iff.mp hpermit
              exact hs.store ((LittleEndian.length_encode counterSize _).symm ▸ hwithin) hopen
      | settle x =>
          cases x with
          | flush => exact hs.flush hpermit
          | close =>
              rw [mark?_close]
              exact hs.unmap
      | lend buffer => exact (List.append_nil h).symm ▸ hs.lend buffer
      | readInto position => exact (List.append_nil h).symm ▸ hs.lend _
      | retain =>
          have hheld := hs.hold (holders + 1) s.buffer
          rw [← hs.holders_eq] at hheld ⊢
          exact (List.append_nil h).symm ▸ hheld
      | release =>
          have hheld := hs.hold (holders - 1) s.buffer
          rw [← hs.holders_eq] at hheld ⊢
          exact (List.append_nil h).symm ▸ hheld
      | forceClose => exact hs.unmap
      | refuse refuses' => exact (List.append_nil h).symm ▸ hs.refuse refuses'

private theorem Follows.after (hs : Follows path index size data h holders refuses s) (as : List Act) :
    Follows path index size data (h ++ history as s) (as.foldl Act.held holders)
      (as.foldl Act.refused refuses) (Step.after (as.map Act.run) s) := by
  induction as generalizing h holders refuses s with
  | nil => exact (List.append_nil h).symm ▸ hs
  | cons a as ih =>
      rw [history, ← List.append_assoc]
      exact ih (hs.act a)

-- An act changes no byte that it does not ask for.
theorem spared (a : Act) (s : Desk) {position : Nat} (h : ¬a.Touches position) :
    (a.perform.run s).2.face.byteAt position = s.face.byteAt position := by
  have hstore : ∀ (start : Nat) (bytes : Bytes), ¬(start ≤ position ∧ position < start + bytes.length) →
      ((s.page.store s.disk start bytes).1.content (s.page.store s.disk start bytes).2).byteAt position =
        s.face.byteAt position := by
    intro start bytes hout
    have hcontent := content_store s.page s.disk start bytes
    have hnone : (Mark.wrote start bytes).byte? position = none := byte?_eq_none_of_outside (by omega)
    show ((s.page.content (s.page.store s.disk start bytes).2)).byteAt position = _
    rw [hcontent, byteAt_write_eq, hnone]
    rfl
  rw [run_perform]
  cases s.permit a with
  | error e => rfl
  | ok u =>
      cases a with
      | call c =>
          cases c with
          | write start bytes => exact hstore start bytes h
          | setCounter start value => exact hstore start _ ((LittleEndian.length_encode _ _).symm ▸ h)
          | increment start => exact hstore start _ ((LittleEndian.length_encode _ _).symm ▸ h)
          | read position length => rfl
          | counter position => rfl
      | settle x =>
          cases x with
          | flush => exact congrArg (Content.byteAt · position) (content_flush s.page s.disk s.disk)
          | close => exact congrArg (Content.byteAt · position) (content_unmap s.page s.disk)
      | forceClose => exact congrArg (Content.byteAt · position) (content_unmap s.page s.disk)
      | lend buffer => rfl
      | readInto position => rfl
      | retain => rfl
      | release => rfl
      | refuse refuses => rfl

-- An act changes no file but that of its page.
theorem others (a : Act) (s : Desk) : (a.perform.run s).2.disk.nodes = s.disk.nodes ∧
    ∀ id, id ≠ s.page.file → (a.perform.run s).2.disk.content id = s.disk.content id := by
  have hstore : ∀ (start : Nat) (bytes : Bytes), (s.page.store s.disk start bytes).2.nodes = s.disk.nodes ∧
      ∀ id, id ≠ s.page.file → (s.page.store s.disk start bytes).2.content id = s.disk.content id :=
    fun start bytes => ⟨rfl, fun id hid => content_store_of_ne hid s.disk start bytes⟩
  rw [run_perform]
  cases s.permit a with
  | error e => exact ⟨rfl, fun _ _ => rfl⟩
  | ok u =>
      cases a with
      | call c =>
          cases c with
          | write start bytes => exact hstore start bytes
          | setCounter start value => exact hstore start _
          | increment start => exact hstore start _
          | _ => exact ⟨rfl, fun _ _ => rfl⟩
      | settle x => cases x <;> exact ⟨rfl, fun _ _ => rfl⟩
      | _ => exact ⟨rfl, fun _ _ => rfl⟩

-- A stretch that a page could hold is short enough for a buffer.
theorem checkRead_eq (hsize : f.size ≤ maxBuffer) (position length : Nat) :
    f.checkRead position length = .ok () ↔ f.check position length = .ok () := by
  unfold Face.checkRead
  split
  · next hlong =>
    refine iff_of_false nofun fun hcheck => ?_
    have hwithin := (check_eq_ok_iff.mp hcheck).1
    omega
  · rfl

theorem permit_of_stretch {a : Act} (hsize : s.page.size ≤ maxBuffer)
    (hstretch : a.stretch? s.buffer.length = some (position, length)) :
    s.permit a = .ok () ↔
      position + length ≤ s.face.size ∧ (a.isCounter = true → position % counterSize = 0) ∧
        s.face.isOpen = true := by
  have hbytes : a.isCounter = false → (s.face.check position length = .ok () ↔
      position + length ≤ s.face.size ∧ (a.isCounter = true → position % counterSize = 0) ∧
        s.face.isOpen = true) := by
    intro hcounter
    rw [check_eq_ok_iff, hcounter]
    simp
  have hwords : a.isCounter = true → (s.face.checkCounter position = .ok () ↔
      position + counterSize ≤ s.face.size ∧ (a.isCounter = true → position % counterSize = 0) ∧
        s.face.isOpen = true) := by
    intro hcounter
    rw [checkCounter_eq_ok_iff]
    exact ⟨fun ⟨haligned, hrest⟩ => ⟨hrest.1, fun _ => haligned, hrest.2⟩,
      fun ⟨hwithin, haligned, hopen⟩ => ⟨haligned hcounter, hwithin, hopen⟩⟩
  cases a with
  | call c =>
      cases c with
      | read position length => cases hstretch; exact (checkRead_eq hsize _ _).trans (hbytes rfl)
      | write position bytes => cases hstretch; exact hbytes rfl
      | counter position => cases hstretch; exact hwords rfl
      | setCounter position value => cases hstretch; exact hwords rfl
      | increment position => cases hstretch; exact hwords rfl
  | readInto position => cases hstretch; exact hbytes rfl
  | _ => cases hstretch

-- Only what settles the writes of a page can still fail once it goes on.
theorem reply_eq_error {a : Act} {e : Error} (h : s.reply a = .error e) :
    (a = .settle .close ∨ a = .forceClose) ∧ e = .mapping s.page.path := by
  have hsync : ∀ {e}, (s.face.sync s.disk.refuses).map (fun _ => Reply.done) = .error e →
      e = .mapping s.page.path := by
    intro e h
    unfold Face.sync at h
    split at h
    · cases h
      rfl
    · cases h
  cases a with
  | settle x =>
      cases x with
      | flush => cases h
      | close => exact ⟨.inl rfl, hsync h⟩
  | forceClose => exact ⟨.inr rfl, hsync h⟩
  | _ => cases h

theorem exists_reply_iff {a : Act} (hstretch : a.stretch? s.buffer.length = some (position, length)) :
    (∃ reply, (a.perform.run s).1 = .ok reply) ↔ s.permit a = .ok () := by
  rw [run_perform]
  cases s.permit a with
  | error e => simp
  | ok u =>
      cases hreply : s.reply a with
      | ok reply => exact iff_of_true ⟨reply, rfl⟩ rfl
      | error e =>
          rcases (reply_eq_error hreply).1 with rfl | rfl <;> cases hstretch

private theorem Follows.told (hs : Follows path index size data h holders refuses s) :
    Told path index size data h holders refuses s where
  face := by
    have hfacts : s.face = ⟨s.page.path, s.page.index, s.page.size, s.page.isOpen, s.page.dirty,
        s.page.holders, (s.page.content s.disk).byteAt⟩ := rfl
    rw [hfacts, hs.path_eq, hs.index_eq, hs.size_eq, hs.isOpen, hs.dirty, hs.holders_eq, funext hs.byteAt]
    rfl
  refuses := hs.refuses_eq
  fileSize := hs.fileSize
  beyond := hs.beyond
  answer a := by
    rw [run_perform]
    cases s.permit a <;> rfl
  succeeds a position length hstretch := by
    have hopen : s.face.isOpen = true ↔ Mark.closed ∉ h := by
      show s.page.isOpen = true ↔ _
      rw [hs.isOpen]
      simp
    have hsize : s.face.size = size := hs.size_eq
    rw [exists_reply_iff hstretch, permit_of_stretch (hs.size_eq.symm ▸ hs.size_le) hstretch, hsize, hopen]
    exact Iff.rfl
  unchanged a e herror := by
    rw [run_perform] at herror ⊢
    cases hpermit : s.permit a with
    | error e => exact .inl rfl
    | ok u =>
        rw [hpermit] at herror
        obtain ⟨hclosing, he⟩ := reply_eq_error herror
        refine .inr ⟨hclosing, he.trans (congrArg _ hs.path_eq), ?_⟩
        rcases hclosing with rfl | rfl <;> rfl
  filled position reply hreply := by
    have hstretch : (Act.readInto position).stretch? s.buffer.length = some (position, s.buffer.length) := rfl
    rw [run_perform, (exists_reply_iff hstretch).mp ⟨reply, hreply⟩]
    rfl
  spared a position := spared a s
  others a := others a s

-- A page that was just mapped.
private theorem follows_fresh {d : Disk} {id : FileId} {buffer : Bytes} (hsize : size ≤ maxBuffer)
    (hfile : (d.content id).size = max data.length size)
    (hbytes : ∀ position, (d.content id).byteAt position = data[position]?.getD 0) :
    Follows path index size data [] 0 d.refuses ⟨fresh path index size id, d, buffer⟩ where
  path_eq := rfl
  index_eq := rfl
  size_eq := rfl
  size_le := hsize
  isOpen := rfl
  dirty := rfl
  clean := fun _ => rfl
  holders_eq := rfl
  refuses_eq := rfl
  byteAt := hbytes
  fileSize := hfile
  beyond := fun position _ => hbytes position

end

theorem refuses_openFile (d : Disk) (path : Path) : (d.openFile path).2.refuses = d.refuses := by
  unfold Disk.openFile
  split
  · rfl
  · split <;> rfl

-- What is refused of a file once it is open, or what comes of making it long enough.
private theorem fitPage_eq {d : Disk} {path : Path} {id : FileId} {size : Nat} :
    d.fitPage path id size =
      if d.refuses .fileSize path ∨ (d.content id).size < size ∧ d.refuses .setSize path then
        (.error .systemError, d)
      else d.growFile id size := by
  unfold Disk.fitPage Disk.growFile
  by_cases hlook : d.refuses .fileSize path = true
  · rw [if_pos hlook, if_pos (.inl hlook)]
  rw [if_neg hlook]
  by_cases hlong : size ≤ (d.content id).size
  · rw [if_pos hlong, if_pos hlong, if_neg]
    exact fun h => h.elim hlook fun h => Nat.not_lt_of_le hlong h.1
  rw [if_neg hlong]
  by_cases hset : d.refuses .setSize path = true
  · rw [if_pos hset, if_pos (.inr ⟨Nat.lt_of_not_le hlong, hset⟩)]
  · rw [if_neg hset, if_neg hlong, if_neg (not_or.mpr ⟨hlook, fun h => hset h.2⟩)]

-- A file that is there, or that can be made, is mapped if the system goes along.
private theorem map_of_offers {path : Path} {size : Nat} {data : Bytes} {host : Host}
    (hsize : 0 < size) (hfile : host.disk.Offers path data) (index : UInt64) :
    (∃ e, host.disk.permit path data.length size = .error e ∧
      ((Page.map path index size).run host).1 = .error e) ∨
    host.disk.permit path data.length size = .ok () ∧ size ≤ maxBuffer ∧ ∃ id d,
      (Page.map path index size).run host = (.ok (fresh path index size id), { host with disk := d }) ∧
      d.refuses = host.disk.refuses ∧ (d.content id).size = max data.length size ∧
      ∀ position, (d.content id).byteAt position = data[position]?.getD 0 := by
  obtain ⟨hlong, id, d, hopened, hlength, hbytes⟩ := hfile
  have hrefuses : d.refuses = host.disk.refuses := by
    rw [← refuses_openFile host.disk path, hopened]
  rw [run_map]
  unfold Disk.permit
  by_cases hopen : host.disk.refuses .openFile path = true
  · have hpage : host.disk.openPage path = (.error .systemError, host.disk) := if_pos hopen
    rw [hpage]
    exact .inl ⟨_, if_pos (.inl hopen), rfl⟩
  have hpage : host.disk.openPage path = (.ok id, d) := (if_neg hopen).trans hopened
  simp only [hpage, fitPage_eq, hrefuses, hlength, hopen, Bool.false_eq_true, false_or]
  by_cases hfit : host.disk.refuses .fileSize path = true ∨
      data.length < size ∧ host.disk.refuses .setSize path = true
  · simp only [if_pos hfit]
    exact .inl ⟨_, rfl, rfl⟩
  simp only [if_neg hfit]
  by_cases hlarge : data.length < size ∧ Disk.maxFileSize ≤ size
  · have hgrow : d.growFile id size = (.error .tooLarge, d) := by
      unfold Disk.growFile
      rw [if_neg (by omega), if_pos hlarge.2]
    simp only [if_pos hlarge, hgrow]
    exact .inl ⟨_, rfl, rfl⟩
  have hsize : size ≤ (d.content id).size ∨ size < Disk.maxFileSize := by omega
  obtain ⟨d', hgrow, hrewrites⟩ := Disk.exists_growFile d id hsize
  have hmax : (d'.content id).size = max data.length size := hlength ▸ hrewrites.size_eq
  have hsame : ∀ position, (d'.content id).byteAt position = data[position]?.getD 0 := fun position =>
    (congrFun (congrArg Sheet.byteAt hrewrites.sheet) position).trans (hbytes position)
  have hpos : ¬(d'.content id).size = 0 := by omega
  simp only [if_neg hlarge, hgrow, hrewrites.refuses, hrefuses, hpos, or_false]
  by_cases hmap : host.disk.refuses .mapFile path = true
  · simp only [if_pos hmap]
    exact .inl ⟨_, rfl, rfl⟩
  simp only [if_neg hmap]
  refine .inr ⟨trivial, ?_, id, d', rfl, hrewrites.refuses.trans hrefuses, hmax, hsame⟩
  unfold maxBuffer
  unfold Disk.maxFileSize at hlong hlarge
  omega

-- Mapping comes to what the system and the size say, and whatever is done with a page that was mapped, its history
-- tells all about it.
theorem history_law {path : Path} {index : UInt64} {size : Nat} {data : Bytes} {host : Host}
    (hsize : 0 < size) (hfile : host.disk.Offers path data) :
    ((Page.map path index size).run host).1.map (fun _ => ()) =
        host.disk.permit path data.length size ∧
      ∀ (page : Page) (host' : Host), (Page.map path index size).run host = (.ok page, host') →
        ∀ (buffer : Bytes) (as : List Act),
          Told path index size data (history as ⟨page, host'.disk, buffer⟩) (as.foldl Act.held 0)
            (as.foldl Act.refused host.disk.refuses)
            (Step.after (as.map Act.run) ⟨page, host'.disk, buffer⟩) := by
  rcases map_of_offers hsize hfile index with
    ⟨e, hpermit, hmap⟩ | ⟨hpermit, hsmall, id, d, hmap, hrefuses, hlength, hbytes⟩
  · refine ⟨by rw [hmap, hpermit]; rfl, fun page host' hrun => ?_⟩
    rw [hrun] at hmap
    cases hmap
  · refine ⟨by rw [hmap, hpermit]; rfl, fun page host' hrun buffer as => ?_⟩
    cases hmap.symm.trans hrun
    rw [← hrefuses]
    exact ((follows_fresh hsmall hlength hbytes).after as).told

-- A file of three bytes that grows to a page, with a counter over bytes that were written before. The
-- system refuses to flush what was written, also as the page is closed.
theorem history_law_overlapping :
    let host : Host := ⟨(Disk.empty.addFile ["page"]).1.setContent 0 (.ofBytes [1, 2, 3]), 0⟩
    let refuses : SystemCall → Path → Bool := fun call _ => call = .syncFile
    let as : List Act := [.retain, .call (.write 2 [9, 255]), .refuse refuses, .settle .flush,
      .call (.increment 0), .settle .close, .release, .settle .close]
    0 < 16 ∧ host.disk.Offers ⟨"/page"⟩ [1, 2, 3] ∧
      ∃ page host', (Page.map ⟨"/page"⟩ 7 16).run host = (.ok page, host') ∧
        history as ⟨page, host'.disk, []⟩ =
          [.wrote 2 [9, 255], .wrote 0 [2, 2, 9, 255, 0, 0, 0, 0], .closed] ∧
        Told ⟨"/page"⟩ 7 16 [1, 2, 3] (history as ⟨page, host'.disk, []⟩) 0 refuses
          (Step.after (as.map Act.run) ⟨page, host'.disk, []⟩) := by
  intro host refuses as
  have hfile : host.disk.Offers ⟨"/page"⟩ [1, 2, 3] :=
    ⟨by decide, 0, host.disk, rfl, is_ofBytes [1, 2, 3]⟩
  refine ⟨by decide, hfile, fresh ⟨"/page"⟩ 7 16 0, _, rfl, ?_, ?_⟩
  · decide
  · exact (history_law (by decide) hfile).2 _ _ rfl [] as

end Page

end Spool
