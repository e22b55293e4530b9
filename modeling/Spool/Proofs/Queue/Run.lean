import Spool.Proofs.Queue.Opening

namespace Spool.Queue

-- What happens to a queue beside its operations: it is closed, or only let go of, and opened again.
inductive Event where
  | op (o : Op)
  | reopen (closing : Bool) (policy : CachePolicy)

def reopen (dir : Path) (dataPageSize : Nat) (closing : Bool) (policy : CachePolicy) :
    Action Unit := do
  if closing then Queue.close
  let (st, q) ← Step.inside Part.host (openAt dir dataPageSize policy)
  modify fun (host, _) => (host, st, q)

namespace Line

-- A window that does not go round, of items that were appended with the page size of now, after some
-- number of appends.
structure Steady (q : Line) (pageSize n : Nat) : Prop where
  within : q.ledger.Within n
  straight : q.ledger.Straight n
  pageSize_eq : q.ledger.pageSize = pageSize
  even : ∀ {k : Nat} {x : Log.Item}, q.ledger.items[k]? = some x → x.pageSize = pageSize

-- No item is lost, and all were appended with the page size of now, wherever the window is.
structure Whole (q : Line) (pageSize : Nat) : Prop where
  intact : ∀ {k : Nat} {x : Log.Item}, q.ledger.items[k]? = some x → x.lost = false
  pageSize_eq : q.ledger.pageSize = pageSize
  even : ∀ {k : Nat} {x : Log.Item}, q.ledger.items[k]? = some x → x.pageSize = pageSize

section

variable {q : Line} {pageSize n : Nat}

theorem within_turn (h : q.ledger.Within n) (o : Op) : (q.turn o).ledger.Within (n + o.enqueues) := by
  cases o with
  | enqueue payload => exact h.turn (.append payload)
  | removeAll => exact Log.Ledger.Within.start _ _ _
  | collect =>
      show q.collect.ledger.Within n
      unfold collect
      split
      · exact h
      · exact h.removeBefore
  | _ => exact h

theorem Whole.enqueue (h : q.Whole pageSize) (payload : Bytes) :
    (q.turn (.enqueue payload)).Whole pageSize := by
  show (Line.mk (if payload.length ≤ q.ledger.pageSize then q.ledger.append payload else q.ledger)
    q.passed).Whole pageSize
  split
  · refine ⟨fun hk => ?_, h.pageSize_eq, fun hk => ?_⟩
    · rcases Log.Ledger.getElem?_append hk with hk | ⟨-, rfl⟩
      · exact h.intact hk
      · rfl
    · rcases Log.Ledger.getElem?_append hk with hk | ⟨-, rfl⟩
      · exact h.even hk
      · exact h.pageSize_eq
  · exact ⟨h.intact, h.pageSize_eq, h.even⟩

theorem Steady.whole (h : q.Steady pageSize n) : q.Whole pageSize :=
  ⟨h.straight.intact, h.pageSize_eq, h.even⟩

theorem Steady.enqueue (h : q.Steady pageSize n) (hn : n + 1 < UInt64.size) (payload : Bytes) :
    (q.turn (.enqueue payload)).Steady pageSize (n + 1) where
  within := h.within.turn (.append payload)
  straight := h.straight.turn (o := .append payload) hn
  pageSize_eq := (h.whole.enqueue payload).pageSize_eq
  even := (h.whole.enqueue payload).even

theorem Steady.collect (h : q.Steady pageSize n) (hlawful : q.ledger.Lawful)
    (hpassed : q.passed ≤ q.ledger.items.length) (hn : n < UInt64.size) :
    q.collect.Steady pageSize n := by
  unfold Line.collect
  split
  · exact h
  · next hpos =>
    have hin := toNat_front_sub_one hlawful hpassed hpos
    refine ⟨h.within.removeBefore, h.straight.removeBefore hn (by omega), h.pageSize_eq, ?_⟩
    intro k x hk
    obtain ⟨y, hy, rfl⟩ := Log.Ledger.exists_of_getElem?_removeBefore hk
    have heven : y.pageSize = pageSize := h.even hy
    exact heven

theorem Steady.turn (h : q.Steady pageSize n) (hlawful : q.ledger.Lawful)
    (hpassed : q.passed ≤ q.ledger.items.length) {o : Op} (hn : n + o.enqueues < UInt64.size) :
    (q.turn o).Steady pageSize (n + o.enqueues) := by
  cases o with
  | enqueue payload => exact h.enqueue hn payload
  | removeAll =>
      exact ⟨Log.Ledger.Within.start _ _ _, Log.Ledger.Straight.start_zero _ _, h.pageSize_eq,
        fun hk => by cases hk⟩
  | collect => exact h.collect hlawful hpassed hn
  | _ => exact ⟨h.within, h.straight, h.pageSize_eq, h.even⟩

-- Every item of such a window can be read.
theorem Whole.fetch_eq (h : q.Whole pageSize) (hlawful : q.ledger.Lawful) {k : Nat} {x : Log.Item}
    (hk : q.ledger.items[k]? = some x) :
    q.ledger.fetch (q.ledger.tail + UInt64.ofNat k) = .ok x.payload := by
  have hfits := (hlawful.fits hk).1
  rw [h.even hk, ← h.pageSize_eq] at hfits
  rw [Log.Ledger.fetch, Log.Ledger.item?_tail_add hlawful hk]
  show (if x.lost = true then _ else if x.finish ≤ q.ledger.pageSize then _ else _) = _
  rw [if_neg (by simp [h.intact hk]), if_pos hfits]

theorem steady_start (pageSize : Nat) : (start pageSize 0).Steady pageSize 0 where
  within := Log.Ledger.Within.start _ _ _
  straight := Log.Ledger.Straight.start_zero _ _
  pageSize_eq := rfl
  even hk := by cases hk

end

end Line

section

variable {dir : Path} {base : Location} {s t : Host × Store × Queue} {q : Line} {n : Nat}

theorem Turns.idle (h : Turns dir base s t q) (hidle : Idle s) : Idle t := by
  constructor
  · rw [h.queue]
    exact hidle.dequeueSlot
  · rw [h.queue]
    exact hidle.peekSlot

private theorem ends_complete_none {slotOf : Queue → Option SlotId} (hnone : slotOf s.2.2 = none)
    (read : Action (Option Bytes)) : Step.Ends (complete slotOf read) s (.ok ()) (· = s) := by
  unfold complete
  refine Step.ends_get_bind ?_
  simp only [pending?, hnone]
  exact Step.ends_pure rfl

theorem Idle.completeWaiters (h : Idle s) : Step.Ends completeWaiters s (.ok ()) (· = s) := by
  unfold Queue.completeWaiters
  refine (ends_complete_none h.peekSlot _).bind ?_
  rintro _ rfl
  exact ends_complete_none h.dequeueSlot _

theorem Holds.append (h : Holds dir base s q) (hwithin : q.ledger.Within n)
    (hn : n + 1 < UInt64.size) (payload : Bytes) :
    Step.Ends (Queue.onStore (Store.append payload)) s
      (if payload.length ≤ q.ledger.pageSize then .ok q.ledger.head
        else .error (.itemTooLarge payload.length q.ledger.pageSize)) fun t =>
      Turns dir base s t (q.turn (.enqueue payload)) :=
  h.onStore .append (h.log.ends_append hwithin hn payload) (q.front_enqueue payload)
    (q.passed_le_enqueue payload h.passed_le)

theorem Holds.enqueue (h : Holds dir base s q) (hidle : Idle s) (hwithin : q.ledger.Within n)
    (hn : n + 1 < UInt64.size) (payload : Bytes) :
    Step.Ends (Queue.enqueue payload) s
      (if payload.length ≤ q.ledger.pageSize then .ok ()
        else .error (.itemTooLarge payload.length q.ledger.pageSize)) fun t =>
      Turns dir base s t (q.turn (.enqueue payload)) := by
  have happend := h.append hwithin hn payload
  unfold Queue.enqueue
  refine h.expectOpen_bind ?_
  split at happend
  · next hfits =>
    rw [if_pos hfits]
    refine happend.discard.bind ?_
    intro t ht
    refine (ht.idle hidle).completeWaiters.mono ?_
    rintro _ rfl
    exact ht
  · next hlong =>
    rw [if_neg hlong]
    exact happend.discard.bind_error

theorem Holds.flush (h : Holds dir base s q) :
    Step.Ends Queue.flush s (.ok ()) fun t => Turns dir base s t q := by
  obtain ⟨img, hstands, hword⟩ := h.stands
  unfold Queue.flush
  refine h.expectOpen_bind ?_
  have hfront : Step.Ends (Step.inside frontPart Cache.flush) s (.ok ()) fun t =>
      Leads dir base s t q.ledger img := by
    refine Step.Ends.inside (p := frontPart) (hstands.front.sound.flush.mono ?_)
    rintro ⟨host, c⟩ ⟨rfl, hstays⟩
    exact ⟨{ hstands with front := hstands.front.of_stays hstays }, rfl⟩
  refine hfront.bind fun t ht => (ht.stands.onStore .flush ht.stands.log.flush).mono fun u hu => ?_
  exact ht.trans_turns (hu.turns hword h.passed_le)

theorem Holds.passTime (h : Holds dir base s q) (nanos : Nat) :
    Step.Ends (Queue.passTime nanos) s (.ok ()) fun t => Turns dir base s t q := by
  obtain ⟨img, hstands, hword⟩ := h.stands
  have hlog := (hstands.log.sweep (s.1.now + nanos)).holds
  have hfront := hstands.front
  exact Step.ends_modify (Leads.turns
    ⟨⟨hlog, hstands.noFaults, hfront, hstands.notClosed⟩, rfl⟩ hword h.passed_le)

-- Whether anybody waits matters to none but an item that comes.
theorem Holds.turn (h : Holds dir base s q) {o : Op} (hidle : o.enqueues = 0 ∨ Idle s) (hwithin : q.ledger.Within n)
    (hn : n + o.enqueues < UInt64.size) :
    Step.Ends o.perform s (q.answer o) fun t => Turns dir base s t (q.turn o) := by
  cases o with
  | enqueue payload =>
      have hnobody : Idle s := hidle.resolve_left Nat.one_ne_zero
      have henqueue := (h.enqueue hnobody hwithin hn payload).map fun _ => Answer.done
      rwa [apply_ite (Except.map _)] at henqueue
  | dequeue => exact h.dequeue.map _
  | peek => exact h.peek.map _
  | peekAt offset =>
      have hpeek := (h.peekAt offset).map Answer.item
      rwa [apply_ite (Except.map _)] at hpeek
  | removeN n => exact (h.removeN n).map _
  | removeAll => exact h.removeAll.map _
  | forEach => exact h.forEach.map _
  | collect => exact h.collect.map _
  | flush => exact h.flush.map _
  | size =>
      have hsize := h.size.map fun n => Answer.count n.toNat
      have hshort := h.lawful.short
      have hle : q.waiting ≤ q.ledger.items.length := Nat.sub_le _ _
      rw [Except.map, Circle.toNat_ofNat (by omega)] at hsize
      exact hsize
  | isEmpty => exact h.isEmpty.map _
  | pass nanos => exact (h.passTime nanos).map _

-- The line of a queue that runs for itself, from an empty directory on.
structure Runs (dir : Path) (base : Location) (pageSize : Nat) (s : Host × Store × Queue) (q : Line)
    (n : Nat) : Prop where
  holds : Holds dir base s q
  idle : Idle s
  steady : q.Steady pageSize n

theorem Runs.turn {pageSize : Nat} (h : Runs dir base pageSize s q n) {o : Op}
    (hn : n + o.enqueues < UInt64.size) :
    Step.Ends o.perform s (q.answer o) fun t =>
      Runs dir base pageSize t (q.turn o) (n + o.enqueues) :=
  (h.holds.turn (.inr h.idle) h.steady.within hn).mono fun _ ht =>
    ⟨ht.holds, ht.idle h.idle, h.steady.turn h.holds.lawful h.holds.passed_le hn⟩

theorem Holds.close (h : Holds dir base s q) :
    Step.Ends Queue.close s (.ok ()) fun t => t.1 = s.1 := by
  obtain ⟨img, hstands, -⟩ := h.stands
  have hcalm : s.1.disk.Calm := hstands.log.site.wellFormed.calm
  have hlog : Step.Ends (Queue.onStore Store.close) (s.1, s.2.1, s.2.2.retired) (.ok ()) fun _ => True := by
    refine Step.Ends.inside (p := storePart) ((ends_meet hstands.noFaults .close).bind ?_)
    rintro _ rfl
    have hclose := Log.run_close_of_calm (s := (s.1, s.2.1.log)) hcalm
    exact Step.Ends.inside (p := Store.logPart) ⟨congrArg Prod.fst hclose, trivial⟩
  refine ⟨?_, host_close hstands.notClosed⟩
  rw [run_close_of_open hstands.notClosed, Cache.run_close_of_calm _ hcalm]
  exact hlog.1

-- A queue that is opened again with the page size of before goes on as if nothing had happened.
theorem Holds.reopen {pageSize : Nat} (h : Holds dir base s q) (hwhole : q.Whole pageSize)
    (closing : Bool) (policy : CachePolicy) :
    Step.Ends (Queue.reopen dir pageSize closing policy) s (.ok ()) fun t =>
      Holds dir base t q ∧ Idle t := by
  have hlawful := h.lawful
  obtain ⟨sq, hopen⟩ := h.openAt (hwhole.pageSize_eq ▸ hlawful.pageSize_pos)
    (hwhole.pageSize_eq ▸ hlawful.pageSize_le) policy hwhole.intact
  have hsame : (⟨{ q.ledger with pageSize }, q.passed⟩ : Line) = q := by
    rw [← hwhole.pageSize_eq]
  have hrest : ∀ t : Host × Store × Queue, t.1 = s.1 →
      Step.Ends (do
        let (st, q) ← Step.inside Part.host (Queue.openAt dir pageSize policy)
        modify fun (host, _) => (host, st, q)) t (.ok ()) fun t => Holds dir base t q ∧ Idle t := by
    rintro ⟨host, rest⟩ rfl
    refine (hopen.onHost rest).bind ?_
    rintro ⟨host', rest'⟩ ⟨⟨hholds, hidle⟩, -⟩
    exact Step.ends_modify ⟨hsame ▸ hholds, hidle⟩
  unfold Queue.reopen
  cases closing with
  | false => exact hrest s rfl
  | true => exact h.close.bind hrest

theorem Runs.reopen {pageSize : Nat} (h : Runs dir base pageSize s q n) (closing : Bool)
    (policy : CachePolicy) :
    Step.Ends (Queue.reopen dir pageSize closing policy) s (.ok ()) fun t =>
      Runs dir base pageSize t q n :=
  (h.holds.reopen h.steady.whole closing policy).mono fun _ ht => ⟨ht.1, ht.2, h.steady⟩

theorem runs_openAt {host : Host} {pageSize : Nat} (h : host.disk.Vacant dir base)
    (hpos : 0 < pageSize) (hle : pageSize ≤ Log.maxDataPageSize) (policy : CachePolicy) :
    ∃ sq, Step.Ends (openAt dir pageSize policy) host (.ok sq) fun host' =>
      Runs dir base pageSize (host', sq) (.start pageSize 0) 0 := by
  obtain ⟨sq, hopen⟩ := ends_openAt_start hpos hle policy (Log.startsAt_zero h)
  exact ⟨sq, hopen.mono fun _ ht => ⟨ht.1, ht.2, Line.steady_start pageSize⟩⟩

end

end Spool.Queue
