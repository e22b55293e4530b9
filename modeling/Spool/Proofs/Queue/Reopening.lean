import Spool.Proofs.Log.Storage
import Spool.Proofs.Queue.Run

namespace Spool

namespace Log

-- All that an entry says but when it was written.
structure Place where
  page : UInt64
  offset : UInt32
  length : UInt32
  checksum : UInt32
deriving DecidableEq

def Entry.place (e : Entry) : Place :=
  ⟨e.dataPage, e.offset, e.length, e.checksum⟩

-- What is in the file of the index for an index of the window.
def placeAt (s : Host × Log) (index : UInt64) : Option Place :=
  if s.2.contains index then (entryAt s index).map Entry.place else none

def Item.place (x : Item) : Place :=
  (x.entry 0).place

theorem Holds.placeAt_eq {dir : Path} {base : Location} {s : Host × Log} {g : Ledger}
    (h : Holds dir base s g)
    (hintact : ∀ {k : Nat} {x : Item}, g.items[k]? = some x → x.lost = false) (index : UInt64) :
    placeAt s index = (g.item? index).map Item.place := by
  obtain ⟨b, hshows, hkeeps⟩ := h
  unfold placeAt
  simp only [hshows.contains_eq, hkeeps.contains_iff]
  split
  · next hin =>
    have hitem : g.item? index = some g.items[(index - g.tail).toNat] := List.getElem?_eq_getElem hin
    obtain ⟨timestamp, hentry⟩ := entryAt_eq hshows hkeeps hitem (hintact hitem)
    rw [hentry, hitem]
    rfl
  · next hout =>
    rw [Ledger.item?, List.getElem?_eq_none (Nat.le_of_not_lt hout)]
    rfl

end Log

namespace Queue

-- All that there is to see of a queue between two operations.
structure View where
  front : Except Error UInt64
  head : Except Error UInt64
  tail : UInt64
  places : UInt64 → Option Log.Place

def view (s : Host × Store × Queue) : View where
  front := (frontIndex.run s).1
  head := (headIndex.run s).1
  tail := s.2.1.tail
  places := Log.placeAt (s.1, s.2.1.log)

-- What each step of a run comes to, and what there is to see afterwards.
def watch : List (Action Answer) → Host × Store × Queue → List (Except Error Answer × View)
  | [], _ => []
  | x :: xs, s =>
    let (answer, s) := x.run s
    (answer, view s) :: watch xs s

def Event.perform (dir : Path) (dataPageSize : Nat) : Event → Action Answer
  | op o => o.perform
  | reopen closing policy => do
    Queue.reopen dir dataPageSize closing policy
    return .done

-- The same, but for reopening, in place of which nothing happens.
def Event.still : Event → Action Answer
  | op o => o.perform
  | reopen _ _ => return .done

def Event.enqueues : Event → Nat
  | op o => o.enqueues
  | reopen _ _ => 0

namespace Line

def view (q : Line) : View where
  front := .ok q.front
  head := .ok q.ledger.head
  tail := q.ledger.tail
  places := fun index => (q.ledger.item? index).map Log.Item.place

def reply (q : Line) : Event → Except Error Answer
  | .op o => q.answer o
  | .reopen _ _ => .ok .done

def react (q : Line) : Event → Line
  | .op o => q.turn o
  | .reopen _ _ => q

end Line

section

variable {dir : Path} {base : Location} {s s' : Host × Store × Queue} {q : Line} {n pageSize : Nat}

theorem Runs.view_eq (h : Runs dir base pageSize s q n) : view s = q.view := by
  have hplaces : Log.placeAt (s.1, s.2.1.log) = q.view.places :=
    funext fun index => h.holds.log.placeAt_eq h.steady.straight.intact index
  rw [view, h.holds.frontIndex.1, h.holds.headIndex.1, h.holds.tail_eq, hplaces]
  rfl

theorem Runs.react (h : Runs dir base pageSize s q n) {e : Event} (hn : n + e.enqueues < UInt64.size) :
    Step.Ends (e.perform dir pageSize) s (q.reply e) fun t =>
      Runs dir base pageSize t (q.react e) (n + e.enqueues) := by
  cases e with
  | op o => exact h.turn hn
  | reopen closing policy => exact (h.reopen closing policy).map fun _ => Answer.done

theorem Runs.still (h : Runs dir base pageSize s q n) {e : Event} (hn : n + e.enqueues < UInt64.size) :
    Step.Ends e.still s (q.reply e) fun t =>
      Runs dir base pageSize t (q.react e) (n + e.enqueues) := by
  cases e with
  | op o => exact h.turn hn
  | reopen closing policy => exact Step.ends_pure h

-- Two queues with one line go on side by side, whether or not they are opened again.
theorem Runs.watch_eq (es : List Event) (h : Runs dir base pageSize s q n)
    (h' : Runs dir base pageSize s' q n) (hn : n + Step.total Event.enqueues es < UInt64.size) :
    watch (es.map (Event.perform dir pageSize)) s = watch (es.map Event.still) s' := by
  induction es generalizing s s' q n with
  | nil => rfl
  | cons e es ih =>
      simp only [List.map_cons, Step.total, ← Nat.add_assoc] at hn ⊢
      obtain ⟨t, hrun, ht⟩ := (h.react (e := e) (by omega)).run_eq
      obtain ⟨t', hrun', ht'⟩ := (h'.still (e := e) (by omega)).run_eq
      rw [watch, watch, hrun, hrun']
      show (_, view t) :: watch _ t = (_, view t') :: watch _ t'
      rw [ht.view_eq, ht'.view_eq, ih ht ht' hn]

theorem reopening_unseen (host : Host) (es : List Event) (hvacant : host.disk.Vacant dir base)
    (hpos : 0 < pageSize) (hle : pageSize ≤ Log.maxDataPageSize) (policy : CachePolicy)
    (hcount : Step.total Event.enqueues es < UInt64.size) :
    ∃ host' sq, (openAt dir pageSize policy).run host = (.ok sq, host') ∧
      watch (es.map (Event.perform dir pageSize)) (host', sq) =
        watch (es.map Event.still) (host', sq) := by
  obtain ⟨sq, hruns⟩ := runs_openAt hvacant hpos hle policy
  obtain ⟨host', hrun, hruns⟩ := hruns.run_eq
  exact ⟨host', sq, hrun, hruns.watch_eq es hruns (by omega)⟩

end

-- Pages of four bytes are rolled, an item is too long, and the queue is opened again in between.
theorem reopening_unseen_small_pages : ∃ host' sq,
    (openAt ⟨"spool"⟩ 4 .pinned).run ⟨Disk.empty.addDirectory ["spool"], 0⟩ = (.ok sq, host') ∧
      watch ([.op (.enqueue [1, 2, 3]), .reopen true .pinned, .op (.enqueue [4, 5, 6, 7, 8]),
          .op (.enqueue [9, 10]), .op .dequeue, .op .collect, .reopen false .pinned,
          .op .dequeue].map (Event.perform ⟨"spool"⟩ 4)) (host', sq) =
        watch ([.op (.enqueue [1, 2, 3]), .reopen true .pinned, .op (.enqueue [4, 5, 6, 7, 8]),
          .op (.enqueue [9, 10]), .op .dequeue, .op .collect, .reopen false .pinned,
          .op .dequeue].map Event.still) (host', sq) :=
  reopening_unseen _ _ (Disk.vacant_addDirectory (by decide)) (by decide) (by decide) .pinned
    (by decide)

end Queue

end Spool
