import Spool.Proofs.Queue.Stages

namespace Spool.Queue

-- Nothing is noted anew, and no slot has changed.
def Still (q q' : Queue) : Prop :=
  q' = { q with front := q'.front }

-- A step that leaves those who wait alone, whatever comes of it.
def Quiet (x : Action α) : Prop :=
  ∀ s, Still s.2.2 (x.run s).2.2.2

-- Whatever may happen to a queue, whoever does it.
inductive Deed where
  | op (o : Op)
  -- The waiting items are visited, with something done at each.
  | visit (look : Bytes → Action Unit)
  | frontIndex
  | headIndex
  | ask (kind : Kind)
  | poll (id : SlotId) (waker : Waker)
  | close
  -- Others change what the queue relies on: the host, the log, and what the front is kept in.
  | others (change : Host × Store × Cache → Host × Store × Cache)

namespace Deed

def perform : Deed → Action Unit
  | op o => discard o.perform
  | visit look => discard (Queue.forEach look)
  | frontIndex => discard Queue.frontIndex
  | headIndex => discard Queue.headIndex
  | ask kind => discard kind.ask
  | poll id waker => modifyQueue fun q => q.modifySlot id fun slot => (slot.poll waker).2
  | close => Queue.close
  | others change => modify fun (host, st, q) =>
    let (host, st, front) := change (host, st, q.front)
    (host, st, { q with front })

-- Whoever visits the items may only look at the queue.
def IsValid : Deed → Prop
  | visit look => ∀ payload, Quiet (look payload)
  | _ => True

end Deed

-- A queue that nobody has closed yet.
structure Open (q : Queue) : Prop where
  noted : q.Noted
  notClosed : q.closed = false

-- A step that does not close the queue, whatever comes of it.
def Keeps (x : Action α) : Prop :=
  ∀ s, s.2.2.Open → (x.run s).2.2.2.Open

-- A queue that was closed.
structure Over (q : Queue) : Prop where
  closed : q.closed = true
  none : ∀ id, ¬q.Waits id

-- A call that a closed queue refuses: nothing at all has changed.
def Refused (x : Action α) (s : Host × Store × Queue) : Prop :=
  x.run s = (.error .queueClosed, s)

-- What becomes of an open queue as it is closed. Each step is taken whatever came of the ones before, and of
-- their errors the first is told.
structure Closes (s : Host × Store × Queue) (r : Except Error Unit) (t : Host × Store × Queue) : Prop where
  host : t.1 = s.1
  front : t.2.2.front = s.2.2.front.retired
  store : t.2.1 = (Store.close.run (s.1, s.2.1)).2.2
  told : r = (Cache.close.run (s.1, s.2.2.front)).1 >>= fun _ => (Store.close.run (s.1, s.2.1)).1

-- What is left of a queue at some time after it was closed.
structure Ended (closing later : Host × Store × Queue) : Prop where
  op : ∀ o : Op, (∀ nanos, o ≠ .pass nanos) → Refused o.perform later
  visit : ∀ {β : Type} (look : Bytes → Action β), Refused (Queue.forEach look) later
  frontIndex : Refused Queue.frontIndex later
  headIndex : Refused Queue.headIndex later
  ask : ∀ kind : Kind, Refused kind.ask later
  close : Queue.close.run later = (.ok (), later)
  cancelled : ∀ {id wakers}, closing.2.2.slot? id = some (.pending wakers) →
    later.2.2.slot? id = some (.finished .cancelled wakers)
  kept : ∀ {id outcome woken}, closing.2.2.slot? id = some (.finished outcome woken) →
    later.2.2.slot? id = some (.finished outcome woken)
  known : ∀ id, (later.2.2.slot? id).isSome = (closing.2.2.slot? id).isSome
  none : ∀ id, ¬later.2.2.Waits id

section

variable {q q' q'' : Queue} {s : Host × Store × Queue} {x : Action α} {id : SlotId} {kind : Kind}

theorem Still.refl (q : Queue) : Still q q := rfl

theorem Still.trans (h : Still q q') (h' : Still q' q'') : Still q q'' := by
  unfold Still at h h' ⊢
  rw [h', h]

theorem Still.closed (h : Still q q') : q'.closed = q.closed := by
  rw [h]

theorem Still.slot? (h : Still q q') (id : SlotId) : q'.slot? id = q.slot? id := by
  rw [h]
  rfl

theorem Still.waits_iff (h : Still q q') : q'.Waits id ↔ q.Waits id := by
  unfold Waits
  rw [h.slot?]

theorem Still.noted (h : Still q q') (hnoted : q.Noted) : q'.Noted := by
  rw [h]
  exact hnoted.setFront _

theorem Still.open (h : Still q q') (hopen : q.Open) : q'.Open :=
  ⟨h.noted hopen.noted, h.closed.trans hopen.notClosed⟩

theorem Still.over (h : Still q q') (hover : q.Over) : q'.Over :=
  ⟨h.closed.trans hover.closed, fun id hwaits => hover.none id (h.waits_iff.mp hwaits)⟩

section Quiet

variable {f : α → Action β}

theorem quiet_pure (a : α) : Quiet (pure a : Action α) :=
  fun s => Still.refl s.2.2

theorem quiet_throw (e : Error) : Quiet (throw e : Action α) :=
  fun s => Still.refl s.2.2

theorem Quiet.bind (hx : Quiet x) (hf : ∀ a, Quiet (f a)) : Quiet (x >>= f) := by
  intro s
  have hfirst := hx s
  rw [Step.run_bind]
  generalize x.run s = out at hfirst ⊢
  rcases out with ⟨_ | a, t⟩
  · exact hfirst
  · exact hfirst.trans (hf a t)

theorem Quiet.attempt (hx : Quiet x) : Quiet x.attempt :=
  fun s => hx s

theorem Quiet.discard (hx : Quiet x) : Quiet (discard x : Action PUnit) :=
  hx.bind fun _ => quiet_pure _

theorem quiet_onFront (access : Page.Access α) : Quiet (onFront access) :=
  fun _ => rfl

theorem quiet_onStore (x : Store.Action α) : Quiet (onStore x) :=
  fun _ => rfl

theorem quiet_store : Quiet store :=
  fun s => Still.refl s.2.2

theorem quiet_expectOpen : Quiet expectOpen := by
  intro s
  unfold expectOpen
  rw [Step.run_bind_of_run (Step.run_get s)]
  split
  · exact Still.refl _
  · exact Still.refl _

theorem quiet_frontIndex : Quiet Queue.frontIndex :=
  quiet_expectOpen.bind fun _ => quiet_onFront _

theorem quiet_headIndex : Quiet Queue.headIndex :=
  quiet_expectOpen.bind fun _ => quiet_store.bind fun _ => quiet_pure _

theorem quiet_size : Quiet Queue.size :=
  quiet_expectOpen.bind fun _ => (quiet_onFront _).bind fun _ => quiet_store.bind fun _ => quiet_pure _

theorem quiet_isEmpty : Quiet Queue.isEmpty :=
  quiet_expectOpen.bind fun _ => (quiet_onFront _).bind fun _ => quiet_store.bind fun _ => quiet_pure _

theorem quiet_fetchSome (index : UInt64) : Quiet (fetchSome index) :=
  (quiet_onStore _).bind fun _ => quiet_pure _

theorem quiet_dequeue : Quiet Queue.dequeue := by
  refine quiet_expectOpen.bind fun _ => (quiet_onFront _).bind fun _ => quiet_store.bind fun _ => ?_
  split
  · exact quiet_pure _
  · exact (quiet_onFront _).bind fun index => quiet_fetchSome index

theorem quiet_peek : Quiet Queue.peek := by
  refine quiet_expectOpen.bind fun _ => (quiet_onFront _).bind fun _ => quiet_store.bind fun _ => ?_
  split
  · exact quiet_pure _
  · exact quiet_fetchSome _

theorem quiet_peekAt (offset : Int) : Quiet (Queue.peekAt offset) := by
  refine quiet_expectOpen.bind fun _ => ?_
  split
  · exact quiet_pure _
  · refine (quiet_onFront _).bind fun _ => quiet_store.bind fun _ => ?_
    split
    · exact quiet_pure _
    · exact quiet_fetchSome _

theorem quiet_removeN (n : Int) : Quiet (Queue.removeN n) := by
  refine quiet_expectOpen.bind fun _ => ?_
  split
  · exact quiet_pure _
  · exact (quiet_onFront _).bind fun _ => quiet_store.bind fun _ => quiet_onFront _

theorem quiet_removeAll : Quiet Queue.removeAll :=
  quiet_expectOpen.bind fun _ => (quiet_onStore _).bind fun _ => quiet_onFront _

theorem quiet_visitFrom {look : Bytes → Action β} (hlook : ∀ payload, Quiet (look payload)) (n : Nat)
    (index : UInt64) : Quiet (visitFrom look n index) := by
  induction n generalizing index with
  | zero => exact quiet_pure _
  | succ n ih =>
      refine (quiet_onStore _).attempt.bind fun r => ?_
      cases r with
      | error e => exact quiet_pure _
      | ok payload =>
          exact (hlook payload).bind fun _ => (ih (index + 1)).bind fun _ => quiet_pure _

theorem quiet_forEach {look : Bytes → Action β} (hlook : ∀ payload, Quiet (look payload)) :
    Quiet (Queue.forEach look) :=
  quiet_expectOpen.bind fun _ => quiet_store.bind fun _ => (quiet_onFront _).bind fun _ =>
    quiet_visitFrom hlook _ _

theorem quiet_collect : Quiet Queue.collect := by
  refine quiet_expectOpen.bind fun _ => (quiet_onFront _).bind fun _ => ?_
  refine (quiet_onStore _).attempt.bind fun r => ?_
  split
  · exact quiet_pure _
  · exact quiet_pure _
  · exact quiet_throw _

theorem quiet_flushFront : Quiet (Step.inside frontPart Cache.flush) :=
  fun _ => rfl

theorem quiet_flush : Quiet Queue.flush :=
  quiet_expectOpen.bind fun _ => quiet_flushFront.bind fun _ => quiet_onStore _

theorem quiet_passTime (nanos : Nat) : Quiet (passTime nanos) :=
  fun s => Still.refl s.2.2

theorem quiet_read (kind : Kind) : Quiet kind.read := by
  cases kind with
  | look => exact quiet_peek
  | take => exact quiet_dequeue

end Quiet

section Open

variable {f : α → Action β} {read : Action (Option Bytes)} {other : SlotId}

theorem Quiet.keeps (h : Quiet x) : Keeps x :=
  fun s hopen => (h s).open hopen

theorem Keeps.bind (hx : Keeps x) (hf : ∀ a, Keeps (f a)) : Keeps (x >>= f) := by
  intro s hopen
  have hfirst := hx s hopen
  rw [Step.run_bind]
  generalize x.run s = out at hfirst ⊢
  rcases out with ⟨_ | a, t⟩
  · exact hfirst
  · exact hf a t hfirst

theorem Keeps.discard (hx : Keeps x) : Keeps (discard x : Action PUnit) :=
  hx.bind fun _ => (quiet_pure _).keeps

-- A read may finish a slot but sets none up.
theorem waits_of_settle {r : Except Error (Option Bytes)}
    (h : (q.modifySlot id fun slot => slot.settle r).Waits other) : q.Waits other := by
  obtain ⟨wakers, hslot⟩ := h
  rw [slot?_modifySlot] at hslot
  split at hslot
  · rw [Option.map_eq_some_iff] at hslot
    obtain ⟨slot, hbefore, hafter⟩ := hslot
    cases slot with
    | pending wakers' => exact ⟨wakers', hbefore⟩
    | finished outcome woken => rcases r with e | _ | payload <;> cases hafter
  · exact ⟨wakers, hslot⟩

theorem Open.modifySlot {change : Slot → Slot} (h : q.Open)
    (hwaits : ∀ {other}, (q.modifySlot id change).Waits other → q.Waits other) :
    (q.modifySlot id change).Open :=
  ⟨h.noted.modifySlot hwaits, h.notClosed⟩

theorem keeps_settle (hread : Quiet read) (id : SlotId) : Keeps (settle id read) := by
  refine hread.attempt.keeps.bind fun r => ?_
  intro s hopen
  exact hopen.modifySlot waits_of_settle

theorem keeps_complete (kind : Kind) : Keeps (complete (slotOf kind) kind.read) := by
  intro s hopen
  cases hpending : s.2.2.pending? (slotOf kind s.2.2) with
  | none =>
      rw [complete_run_of_none hpending]
      exact hopen
  | some id =>
      rw [complete_run_of_some hpending]
      exact keeps_settle (quiet_read kind) id s hopen

theorem keeps_enqueue (payload : Bytes) : Keeps (Queue.enqueue payload) :=
  quiet_expectOpen.keeps.bind fun _ => (quiet_onStore _).keeps.discard.bind fun _ =>
    (keeps_complete .look).bind fun _ => keeps_complete .take

theorem keeps_ask (kind : Kind) : Keeps kind.ask := by
  have hslot : Keeps (pendingSlot (slotOf kind) (note kind)) := by
    intro s hopen
    rw [pendingSlot_run]
    exact ⟨hopen.noted.asked kind, (front_asked kind s.2.2).2.trans hopen.notClosed⟩
  rw [ask_eq]
  exact quiet_expectOpen.keeps.bind fun _ => hslot.bind fun id =>
    (keeps_settle (quiet_read kind) id).bind fun _ => (quiet_pure id).keeps

theorem keeps_op (o : Op) : Keeps o.perform := by
  cases o with
  | enqueue payload => exact (keeps_enqueue payload).bind fun _ => (quiet_pure _).keeps
  | dequeue => exact (quiet_dequeue.bind fun _ => quiet_pure _).keeps
  | peek => exact (quiet_peek.bind fun _ => quiet_pure _).keeps
  | peekAt offset => exact ((quiet_peekAt offset).bind fun _ => quiet_pure _).keeps
  | removeN n => exact ((quiet_removeN n).bind fun _ => quiet_pure _).keeps
  | removeAll => exact (quiet_removeAll.bind fun _ => quiet_pure _).keeps
  | forEach => exact ((quiet_forEach fun _ => quiet_pure _).bind fun _ => quiet_pure _).keeps
  | collect => exact (quiet_collect.bind fun _ => quiet_pure _).keeps
  | flush => exact (quiet_flush.bind fun _ => quiet_pure _).keeps
  | size => exact (quiet_size.bind fun _ => quiet_pure _).keeps
  | isEmpty => exact (quiet_isEmpty.bind fun _ => quiet_pure _).keeps
  | pass nanos => exact ((quiet_passTime nanos).bind fun _ => quiet_pure _).keeps

end Open

section Over

theorem refused_expectOpen (h : s.2.2.closed = true) : Refused expectOpen s := by
  unfold Refused expectOpen
  rw [Step.run_bind_of_run (Step.run_get s), if_pos h]
  rfl

theorem Refused.bind {f : α → Action β} (h : Refused x s) : Refused (x >>= f) s := by
  unfold Refused at h ⊢
  rw [Step.run_bind, h]

theorem refused_op (h : s.2.2.closed = true) {o : Op} (hcall : ∀ nanos, o ≠ .pass nanos) :
    Refused o.perform s := by
  have hrefused := refused_expectOpen h
  cases o with
  | pass nanos => exact absurd rfl (hcall nanos)
  | _ => exact hrefused.bind.bind

theorem refused_ask (h : s.2.2.closed = true) (kind : Kind) : Refused kind.ask s := by
  rw [ask_eq]
  exact (refused_expectOpen h).bind

theorem close_run_of_closed (h : s.2.2.closed = true) : Queue.close.run s = (.ok (), s) := by
  unfold Queue.close
  rw [Step.run_bind_of_run (Step.run_get s), if_pos h]
  rfl

theorem Refused.still (h : Refused x s) : Still s.2.2 (x.run s).2.2.2 := by
  rw [h]
  exact Still.refl _

-- There is nobody left for whom a poll could be noted.
theorem modifySlot_poll (h : ¬q.Waits id) (waker : Waker) :
    q.modifySlot id (fun slot => (slot.poll waker).2) = q := by
  have hslots : q.slots.modify id (fun slot => (slot.poll waker).2) = q.slots := by
    apply Array.ext_getElem?
    intro i
    rw [Array.getElem?_modify]
    split
    · next hid =>
      cases hslot : q.slots[i]? with
      | none => rfl
      | some slot =>
          cases slot with
          | pending wakers => exact absurd ⟨wakers, hid ▸ hslot⟩ h
          | finished outcome woken => rfl
    · rfl
  unfold modifySlot
  rw [hslots]

theorem Over.act (h : s.2.2.Over) {a : Deed} (hvalid : a.IsValid) :
    Still s.2.2 (a.perform.run s).2.2.2 := by
  cases a with
  | op o =>
      cases o with
      | pass nanos => exact ((quiet_passTime nanos).bind fun _ => quiet_pure _).discard s
      | _ => exact (refused_op h.closed (by rintro _ ⟨⟩)).bind.still
  | visit look => exact (quiet_forEach hvalid).discard s
  | frontIndex => exact quiet_frontIndex.discard s
  | headIndex => exact quiet_headIndex.discard s
  | ask kind => exact (refused_ask h.closed kind).bind.still
  | poll id waker =>
      show Still s.2.2 (s.2.2.modifySlot id fun slot => (slot.poll waker).2)
      rw [modifySlot_poll (h.none id)]
      exact Still.refl _
  | close =>
      show Still s.2.2 (Queue.close.run s).2.2.2
      rw [close_run_of_closed h.closed]
      exact Still.refl _
  | others change => exact Still.refl _

theorem Over.after (as : List Deed) (h : s.2.2.Over) (hvalid : ∀ a ∈ as, a.IsValid) :
    Still s.2.2 (Step.after (as.map Deed.perform) s).2.2 := by
  induction as generalizing s with
  | nil => exact Still.refl _
  | cons a as ih =>
      have hfirst := h.act (hvalid a (List.mem_cons_self ..))
      exact hfirst.trans (ih (hfirst.over h) fun other hother => hvalid other (List.mem_cons_of_mem _ hother))

end Over

section Retired

theorem slot?_cancelSlot (q : Queue) (id? : Option SlotId) (other : SlotId) :
    (q.cancelSlot id?).slot? other =
      if id? = some other then (q.slot? other).map fun slot => slot.cancel.2 else q.slot? other := by
  unfold cancelSlot
  cases id? with
  | none => rfl
  | some id => simp only [slot?_modifySlot, Option.some.injEq]

-- What else is changed is none of the slots' business.
theorem slots_retired (q : Queue) :
    q.retired.slots = ((q.cancelSlot q.dequeueSlot).cancelSlot q.peekSlot).slots := by
  obtain ⟨dir, front, slots, dequeueSlot, peekSlot, closed⟩ := q
  cases dequeueSlot <;> cases peekSlot <;> rfl

theorem closed_retired (q : Queue) : q.retired.closed = true := by
  obtain ⟨dir, front, slots, dequeueSlot, peekSlot, closed⟩ := q
  cases dequeueSlot <;> cases peekSlot <;> rfl

-- Every slot that is pending is noted for one kind or the other, so it is cancelled.
theorem slot?_retired (h : q.Noted) (id : SlotId) :
    q.retired.slot? id = (q.slot? id).map fun slot => slot.cancel.2 := by
  have hretired : q.retired.slot? id =
      ((q.cancelSlot (slotOf .take q)).cancelSlot (slotOf .look q)).slot? id :=
    congrArg (fun slots => slots[id]?) (slots_retired q)
  rw [hretired, slot?_cancelSlot, slot?_cancelSlot]
  cases hslot : q.slot? id with
  | none => split <;> split <;> rfl
  | some slot =>
      cases slot with
      | finished outcome woken => split <;> split <;> rfl
      | pending wakers =>
          obtain ⟨kind, hkind⟩ := h.noted ⟨wakers, hslot⟩
          cases kind with
          | look =>
              rw [if_pos hkind]
              split <;> rfl
          | take =>
              rw [if_pos hkind]
              split <;> rfl

theorem Noted.over_retired (h : q.Noted) : q.retired.Over := by
  refine ⟨closed_retired q, ?_⟩
  rintro id ⟨wakers, hslot⟩
  rw [slot?_retired h, Option.map_eq_some_iff] at hslot
  obtain ⟨slot, -, hcancelled⟩ := hslot
  cases slot <;> cases hcancelled

-- Whatever came of letting go of the front, what comes after the queue's own side of closing is a call on
-- the log, which may fail as well.
theorem Open.close (h : s.2.2.Open) : Still s.2.2.retired (Queue.close.run s).2.2.2 := by
  rw [run_close_of_open h.notClosed]
  exact quiet_onStore Store.close (s.1, s.2.1, s.2.2.retired)

theorem front_retired (q : Queue) : q.retired.front = q.front.retired := by
  obtain ⟨dir, front, slots, dequeueSlot, peekSlot, closed⟩ := q
  cases dequeueSlot <;> cases peekSlot <;> rfl

theorem closes_of_open (h : s.2.2.closed = false) : Closes s (Queue.close.run s).1 (Queue.close.run s).2 where
  host := host_close h
  front := by
    rw [run_close_of_open h]
    exact front_retired s.2.2
  store := by
    rw [run_close_of_open h]
    rfl
  told := by
    rw [run_close_of_open h]
    rfl

end Retired

-- A queue that was opened at some time.
inductive Lives (q : Queue) : Prop
  | running (h : q.Open)
  | finished (h : q.Over)

theorem Lives.close (h : s.2.2.Lives) :
    (Queue.close.run s).2.2.2.Over ∧
      ∀ id, (Queue.close.run s).2.2.2.slot? id = (s.2.2.slot? id).map fun slot => slot.cancel.2 := by
  cases h with
  | running h =>
      have hstill := h.close
      exact ⟨hstill.over h.noted.over_retired, fun id => (hstill.slot? id).trans (slot?_retired h.noted id)⟩
  | finished h =>
      rw [close_run_of_closed h.closed]
      refine ⟨h, fun id => ?_⟩
      cases hslot : s.2.2.slot? id with
      | none => rfl
      | some slot =>
          cases slot with
          | pending wakers => exact absurd ⟨wakers, hslot⟩ (h.none id)
          | finished outcome woken => rfl

theorem Lives.act (h : s.2.2.Lives) {a : Deed} (hvalid : a.IsValid) :
    (a.perform.run s).2.2.2.Lives := by
  cases h with
  | finished h => exact .finished ((h.act hvalid).over h)
  | running h =>
      cases a with
      | op o => exact .running ((keeps_op o).discard s h)
      | visit look => exact .running ((quiet_forEach hvalid).keeps.discard s h)
      | frontIndex => exact .running (quiet_frontIndex.keeps.discard s h)
      | headIndex => exact .running (quiet_headIndex.keeps.discard s h)
      | ask kind => exact .running ((keeps_ask kind).discard s h)
      | poll id waker => exact .running (h.modifySlot (waits_poll_iff s.2.2 id waker).mp)
      | close => exact .finished (Lives.running h).close.1
      | others change => exact .running ⟨h.noted.setFront _, h.notClosed⟩

theorem Lives.after (as : List Deed) (h : s.2.2.Lives) (hvalid : ∀ a ∈ as, a.IsValid) :
    (Step.after (as.map Deed.perform) s).2.2.Lives := by
  induction as generalizing s with
  | nil => exact h
  | cons a as ih =>
      exact ih (h.act (hvalid a (List.mem_cons_self ..)))
        fun other hother => hvalid other (List.mem_cons_of_mem _ hother)

theorem Fresh.open (h : Fresh q) (hopen : q.closed = false) : q.Open :=
  ⟨(h.attended 0 0).toNoted, hopen⟩

-- Whatever is on the disk and in the log, nobody has asked a new queue for anything.
theorem open_of_openOver {dir : Path} {before after : Host × Store}
    (h : (openOver dir).run before = (.ok q, after)) : q.Open := by
  obtain ⟨_, _, -, h⟩ := Step.run_bind_eq_ok_iff.mp h
  obtain ⟨_, _, -, h⟩ := Step.run_bind_eq_ok_iff.mp h
  obtain ⟨_, _, -, h⟩ := Step.run_bind_eq_ok_iff.mp h
  cases h
  exact Fresh.open ⟨rfl, rfl, rfl⟩ rfl

theorem Over.ended {closing later : Host × Store × Queue} (h : later.2.2.Over)
    (hslots : ∀ id, later.2.2.slot? id = (closing.2.2.slot? id).map fun slot => slot.cancel.2) :
    Ended closing later := by
  constructor
  case op => exact fun o hcall => refused_op h.closed hcall
  case visit => exact fun look => (refused_expectOpen h.closed).bind
  case frontIndex => exact (refused_expectOpen h.closed).bind
  case headIndex => exact (refused_expectOpen h.closed).bind
  case ask => exact refused_ask h.closed
  case close => exact close_run_of_closed h.closed
  case cancelled =>
    intro id wakers hslot
    rw [hslots, hslot]
    rfl
  case kept =>
    intro id outcome woken hslot
    rw [hslots, hslot]
    rfl
  case known =>
    intro id
    rw [hslots, Option.isSome_map]
  case none => exact h.none

-- What was done to a queue before it is closed does not matter, nor what is told of closing it.
theorem closing_law {dir : Path} {before after : Host × Store}
    (h : (openOver dir).run before = (.ok q, after)) (acts later : List Deed)
    (hacts : ∀ a ∈ acts, a.IsValid) (hlater : ∀ a ∈ later, a.IsValid) :
    let closing := Step.after (acts.map Deed.perform) (after.1, after.2, q)
    (closing.2.2.closed = false → Closes closing (Queue.close.run closing).1 (Queue.close.run closing).2) ∧
      Ended closing (Step.after (later.map Deed.perform) (Queue.close.run closing).2) := by
  intro closing
  have hlives : closing.2.2.Lives := (Lives.running (open_of_openOver h)).after acts hacts
  obtain ⟨hover, hslots⟩ := hlives.close
  have hstill := hover.after later hlater
  exact ⟨closes_of_open, (hstill.over hover).ended fun id => (hstill.slot? id).trans (hslots id)⟩

end

-- A front that was written to since its last flush.
def writtenFront : Cache where
  dir := ⟨"spool/front_index"⟩
  pageSize := frontPageSize
  policy := .pinned
  openedAt := 0
  sweptAt := 0
  pages := #[{ Page.fresh ⟨"spool/front_index/page-0.dat"⟩ frontPage frontPageSize 0 with dirty := true }]
  resident := (∅ : Std.TreeMap UInt64 Resident).insert frontPage ⟨0, 0⟩
  closed := false

-- Somebody waits for an item and is polled for, and the items are looked at. Then the disk fails as the front
-- is to be flushed, and closing the log is to fail as well.
def deedsBefore : List Deed :=
  [.ask .take, .poll 0 "waker", .visit fun _ => discard Queue.peek,
    .others fun (host, st, _) =>
      ({ host with disk := { host.disk with refuses := fun _ _ => true } }, st.plan ⟨.close, "disk"⟩,
        writtenFront)]

-- Somebody goes on with the closed queue while the disk is emptied.
def deedsAfter : List Deed :=
  [.op (.enqueue [1, 2, 3]),
    .others fun (host, st, front) => ({ host with disk := .empty }, st, front), .ask .look, .close]

theorem closing_law_waiting :
    ∃ host l, (Log.open ⟨"spool"⟩ 64 .pinned).run ⟨Disk.empty.addDirectory ["spool"], 0⟩ = (.ok l, host) ∧
      ∃ q after, (openOver ⟨"spool"⟩).run (host, .ofLog l) = (.ok q, after) ∧
        (∀ a ∈ deedsBefore, a.IsValid) ∧ (∀ a ∈ deedsAfter, a.IsValid) ∧
        let closing := Step.after (deedsBefore.map Deed.perform) (after.1, after.2, q)
        (Queue.close.run closing).1 = .error (.mapping ⟨"spool/front_index/page-0.dat"⟩) ∧
          Ended closing (Step.after (deedsAfter.map Deed.perform) (Queue.close.run closing).2) := by
  have hvacant := Disk.vacant_addDirectory (by decide : Disk.PartName "spool")
  have hsite : (Host.mk (Disk.empty.addDirectory ["spool"]) 0).disk.Site ⟨"spool"⟩ ["spool"] :=
    hvacant.site
  obtain ⟨l, b, hopen, -⟩ := Log.ends_open_any hsite (by decide : 0 < 64) (by decide) .pinned
  obtain ⟨host, hrun, hshows, -⟩ := hopen.run_eq
  have hlog : Log.Shows ⟨"spool"⟩ ["spool"] (host, (Store.ofLog l).log) b := hshows
  obtain ⟨q, hover, -⟩ := ends_openOver_any hlog
  obtain ⟨after, hqueue, -⟩ := hover.run_eq
  have hbefore : ∀ a ∈ deedsBefore, a.IsValid := by
    simp only [deedsBefore, List.forall_mem_cons, List.not_mem_nil, false_implies, implies_true, and_true]
    exact ⟨trivial, trivial, fun _ => quiet_peek.discard, trivial⟩
  have hafter : ∀ a ∈ deedsAfter, a.IsValid := by
    simp only [deedsAfter, List.forall_mem_cons, List.not_mem_nil, false_implies, implies_true, and_true]
    exact ⟨trivial, trivial, trivial, trivial⟩
  obtain ⟨hcloses, hended⟩ := closing_law hqueue deedsBefore deedsAfter hbefore hafter
  -- Nobody has closed the queue yet, as what others do leaves that to it.
  have hopened : (Step.after (deedsBefore.map Deed.perform) (after.1, after.2, q)).2.2.closed = false := by
    have hask := (keeps_ask .take).discard (after.1, after.2, q) (open_of_openOver hqueue)
    have hpoll := hask.modifySlot (waits_poll_iff _ 0 "waker").mp
    exact ((quiet_forEach fun _ => quiet_peek.discard).keeps.discard (_, _, _) hpoll).notClosed
  exact ⟨host, l, hrun, q, after, hqueue, hbefore, hafter, (hcloses hopened).told, hended⟩

end Spool.Queue
