import Spool.Proofs.Queue.Line
import Spool.Proofs.Queue.Showing

namespace Spool.Queue

section

variable {dir : Path} {base : Location} {s t u : Host × Store × Queue} {b b' : Log.Books}
  {front index : UInt64} {r : Except Error α} {post : Host × Store × Queue → Prop}

theorem Shows.expectOpen_bind (h : Shows dir base s b front) {f : Unit → Action α}
    (hrest : Step.Ends (f ()) s r post) : Step.Ends (expectOpen >>= f) s r post :=
  Step.ends_bind_of_run h.expectOpen_run hrest

theorem run_store (s : Host × Store × Queue) : store.run s = (.ok s.2.1, s) := rfl

theorem Shows.frontIndex (h : Shows dir base s b front) :
    Step.Ends Queue.frontIndex s (.ok front) fun t => Shows dir base t b front ∧ Glances s t :=
  h.expectOpen_bind h.readFront

theorem Shows.size (h : Shows dir base s b front) :
    Step.Ends Queue.size s (.ok (b.head - front)) fun t =>
      Shows dir base t b front ∧ Glances s t := by
  unfold Queue.size
  refine h.expectOpen_bind (h.readFront.bind fun t ht => ?_)
  refine Step.ends_bind_of_run (run_store t) ?_
  rw [ht.1.head_eq]
  exact Step.ends_pure ht

theorem Shows.isEmpty (h : Shows dir base s b front) :
    Step.Ends Queue.isEmpty s (.ok (front = b.head)) fun t =>
      Shows dir base t b front ∧ Glances s t := by
  unfold Queue.isEmpty
  refine h.expectOpen_bind (h.readFront.bind fun t ht => ?_)
  refine Step.ends_bind_of_run (run_store t) ?_
  rw [ht.1.head_eq]
  exact Step.ends_pure ht

-- Reads an item that is there.
def fetchSome (index : UInt64) : Action (Option Bytes) := do
  return some (← onStore (Store.fetch index))

-- A read that leaves the log alone, but for one call at an index if there is one.
def Passes (read : Action (Option Bytes)) (s : Host × Store × Queue) (index? : Option UInt64) : Prop :=
  ∃ t, t.2.1 = s.2.1 ∧ read.run s =
    match index? with
    | none => (.ok none, t)
    | some index => (fetchSome index).run t

theorem Shows.fetchSome (h : Shows dir base s b front) (index : UInt64) :
    ∃ r b', Step.Ends (fetchSome index) s (r.map some) (fun t =>
        Shows dir base t b' front ∧ Spares s t) ∧
      b.Later b' ∧ Replies s .fetch (b.answer index) r := by
  obtain ⟨r, b', hends, hlater, hreplies⟩ := h.fetch index
  exact ⟨r, b', hends.map some, hlater, hreplies⟩

-- A way to get at the first item: without one it does nothing, and with one it moves the front and
-- then makes one call.
structure Hands (dir : Path) (base : Location) (read : Action (Option Bytes)) (step : UInt64) :
    Prop where
  absent : ∀ {s b front}, Shows dir base s b front → front = b.head →
    ∃ t, read.run s = (.ok none, t) ∧ Shows dir base t b front ∧ Glances s t
  present : ∀ {s b front}, Shows dir base s b front → front ≠ b.head →
    ∃ t, read.run s = (Queue.fetchSome front).run t ∧ Shows dir base t b (front + step) ∧ Glances s t

theorem Glances.replies {call : Call} {said r : Except Error α} (h : Glances s t)
    (hreplies : Replies t call said r) : Replies s call said r := by
  unfold Replies at hreplies ⊢
  rwa [h.store] at hreplies

theorem Hands.ends_none {read : Action (Option Bytes)} {step : UInt64}
    (hands : Hands dir base read step) (h : Shows dir base s b front) (hnone : front = b.head) :
    Step.Ends read s (.ok none) fun t => Shows dir base t b front ∧ Glances s t := by
  obtain ⟨t, hrun, ht⟩ := hands.absent h hnone
  exact Step.Ends.of_run_eq hrun (Step.ends_pure ht)

theorem Hands.ends_some {read : Action (Option Bytes)} {step : UInt64}
    (hands : Hands dir base read step) (h : Shows dir base s b front) (hsome : front ≠ b.head) :
    ∃ r b', Step.Ends read s (r.map some) (fun t =>
        Shows dir base t b' (front + step) ∧ Spares s t) ∧
      b.Later b' ∧ Replies s .fetch (b.answer front) r := by
  obtain ⟨t, hrun, ht, hglances⟩ := hands.present h hsome
  obtain ⟨r, b', hends, hlater, hreplies⟩ := ht.fetchSome front
  refine ⟨r, b', Step.Ends.of_run_eq hrun (hends.mono fun u hu => ?_), hlater,
    hglances.replies hreplies⟩
  exact ⟨hu.1, hglances.spares.trans hu.2⟩

theorem hands_peek (dir : Path) (base : Location) : Hands dir base peek 0 where
  absent := by
    intro s b front h hnone
    obtain ⟨t, hread, ht, hglances⟩ := h.readFront.run_eq
    refine ⟨t, ?_, ht, hglances⟩
    unfold Queue.peek
    rw [Step.run_bind_of_run h.expectOpen_run, Step.run_bind_of_run hread,
      Step.run_bind_of_run (run_store t), if_pos (hnone.trans ht.head_eq.symm), Step.run_pure]
  present := by
    intro s b front h hsome
    obtain ⟨t, hread, ht, hglances⟩ := h.readFront.run_eq
    refine ⟨t, ?_, (UInt64.add_zero front).symm ▸ ht, hglances⟩
    unfold Queue.peek
    rw [Step.run_bind_of_run h.expectOpen_run, Step.run_bind_of_run hread,
      Step.run_bind_of_run (run_store t), if_neg (ht.head_eq ▸ hsome)]
    rfl

theorem hands_dequeue (dir : Path) (base : Location) : Hands dir base dequeue 1 where
  absent := by
    intro s b front h hnone
    obtain ⟨t, hread, ht, hglances⟩ := h.readFront.run_eq
    refine ⟨t, ?_, ht, hglances⟩
    unfold Queue.dequeue
    rw [Step.run_bind_of_run h.expectOpen_run, Step.run_bind_of_run hread,
      Step.run_bind_of_run (run_store t), if_pos (hnone.trans ht.head_eq.symm), Step.run_pure]
  present := by
    intro s b front h hsome
    obtain ⟨t, hread, ht, hglances⟩ := h.readFront.run_eq
    obtain ⟨u, hincrement, hu, hglances'⟩ := ht.increment.run_eq
    refine ⟨u, ?_, hu, hglances'.store.trans hglances.store, ?_⟩
    · unfold Queue.dequeue
      rw [Step.run_bind_of_run h.expectOpen_run, Step.run_bind_of_run hread,
        Step.run_bind_of_run (run_store t), if_neg (ht.head_eq ▸ hsome),
        Step.run_bind_of_run hincrement]
      rfl
    · rw [hglances'.queue, hglances.queue]

-- Whether there is an item so far behind the front.
def Reaches (b : Log.Books) (front : UInt64) (offset : Int) : Prop :=
  0 ≤ offset ∧ offset.toNat < (b.head - front).toNat

theorem Shows.peekAt_none (h : Shows dir base s b front) {offset : Int}
    (hnone : ¬Reaches b front offset) :
    Step.Ends (Queue.peekAt offset) s (.ok none) fun t =>
      Shows dir base t b front ∧ Glances s t := by
  unfold Queue.peekAt
  refine h.expectOpen_bind ?_
  split
  · exact Step.ends_pure ⟨h, rfl, rfl⟩
  · next hsign =>
    refine h.readFront.bind fun t ht => Step.ends_bind_of_run (run_store t) ?_
    rw [ht.1.head_eq, if_pos (Nat.not_lt.mp fun hlt => hnone ⟨Int.not_lt.mp hsign, hlt⟩)]
    exact Step.ends_pure ht

theorem Shows.peekAt_run (h : Shows dir base s b front) {offset : Int}
    (hsome : Reaches b front offset) :
    ∃ t, (Queue.peekAt offset).run s =
        (Queue.fetchSome (front + UInt64.ofNat offset.toNat)).run t ∧
      Shows dir base t b front ∧ Glances s t := by
  obtain ⟨t, hread, ht, hglances⟩ := h.readFront.run_eq
  refine ⟨t, ?_, ht, hglances⟩
  unfold Queue.peekAt
  rw [Step.run_bind_of_run h.expectOpen_run, if_neg (Int.not_lt.mpr hsome.1),
    Step.run_bind_of_run hread, Step.run_bind_of_run (run_store t), ht.head_eq,
    if_neg (Nat.not_le.mpr hsome.2)]
  rfl

theorem Shows.peekAt (h : Shows dir base s b front) (offset : Int) :
    ∃ r b', Step.Ends (Queue.peekAt offset) s r (fun t =>
      Shows dir base t b' front ∧ Spares s t) ∧ b.Later b' := by
  by_cases hreaches : Reaches b front offset
  · obtain ⟨t, hrun, ht, hglances⟩ := h.peekAt_run hreaches
    obtain ⟨r, b', hends, hlater, -⟩ := ht.fetchSome (front + UInt64.ofNat offset.toNat)
    refine ⟨r.map some, b', Step.Ends.of_run_eq hrun (hends.mono fun u hu => ?_), hlater⟩
    exact ⟨hu.1, hglances.spares.trans hu.2⟩
  · exact ⟨_, b, (h.peekAt_none hreaches).mono fun t ht => ⟨ht.1, ht.2.spares⟩, .refl⟩

-- How far the front goes when some items are dropped.
def dropped (b : Log.Books) (front : UInt64) (n : Int) : Nat :=
  min n.toNat (b.head - front).toNat

theorem Shows.removeN (h : Shows dir base s b front) (n : Int) :
    Step.Ends (Queue.removeN n) s (.ok ()) fun t =>
      Shows dir base t b (front + UInt64.ofNat (dropped b front n)) ∧ Glances s t := by
  unfold Queue.removeN
  refine h.expectOpen_bind ?_
  split
  · next hneg =>
    have hzero : dropped b front n = 0 := by
      unfold dropped
      omega
    rw [hzero]
    exact Step.ends_pure ⟨(UInt64.add_zero front).symm ▸ h, rfl, rfl⟩
  · refine h.readFront.bind fun t ht => Step.ends_bind_of_run (run_store t) ?_
    rw [ht.1.head_eq]
    refine (ht.1.writeFront _).mono fun u hu => ⟨hu.1, hu.2.store.trans ht.2.store, ?_⟩
    rw [hu.2.queue, ht.2.queue]

-- If the log cannot be emptied, the front stays where it is.
theorem Shows.removeAll (h : Shows dir base s b front) :
    Step.Ends Queue.removeAll s (.ok ()) (fun t =>
        Shows dir base t b.removeAll 0 ∧ Spares s t) ∨
      ∃ e, Step.Ends Queue.removeAll s (.error e) fun t => Shows dir base t b front ∧ Spares s t := by
  unfold Queue.removeAll
  rcases h.onStore .removeAll h.log.removeAll with hends | ⟨fault, -, hends⟩
  · refine .inl (h.expectOpen_bind (hends.bind fun t ht => ?_))
    exact (ht.1.writeFront 0).mono fun u hu => ⟨hu.1, ht.2.trans hu.2.spares⟩
  · exact .inr ⟨_, h.expectOpen_bind hends.bind_error⟩

theorem Shows.visitFrom (h : Shows dir base s b front) (n : Nat) (index : UInt64) :
    ∃ bs r b', Step.Ends (Queue.visitFrom pure n index) s (.ok (bs, r)) (fun t =>
      Shows dir base t b' front ∧ Spares s t) ∧ b.Later b' ∧ bs.length ≤ n := by
  induction n generalizing s b index with
  | zero => exact ⟨[], .ok (), b, Step.ends_pure ⟨h, .refl s⟩, .refl, Nat.le_refl 0⟩
  | succ n ih =>
      obtain ⟨r, b', hfetch, hlater, -⟩ := h.fetch index
      unfold Queue.visitFrom
      cases r with
      | error e =>
          exact ⟨[], .error e, b', hfetch.attempt.bind fun t ht => Step.ends_pure ht, hlater,
            Nat.zero_le _⟩
      | ok payload =>
          obtain ⟨t, hrun, ht, hspares⟩ := hfetch.attempt.run_eq
          obtain ⟨bs, r', b'', hrest, hlater', hlength⟩ := ih ht (index + 1)
          refine ⟨payload :: bs, r', b'', ?_, hlater.trans hlater', Nat.succ_le_succ hlength⟩
          refine Step.ends_bind_of_run hrun ?_
          refine Step.ends_bind_of_run (Step.run_pure payload t) ?_
          refine hrest.bind fun u hu => ?_
          exact Step.ends_pure ⟨hu.1, hspares.trans hu.2⟩

theorem Shows.forEach_run (h : Shows dir base s b front) :
    ∃ t, (Queue.forEach (β := Bytes) pure).run s =
        (Queue.visitFrom pure (b.head - front).toNat front).run t ∧
      Shows dir base t b front ∧ Glances s t := by
  obtain ⟨t, hread, ht, hglances⟩ := h.readFront.run_eq
  refine ⟨t, ?_, ht, hglances⟩
  unfold Queue.forEach
  rw [Step.run_bind_of_run h.expectOpen_run, Step.run_bind_of_run (run_store s),
    Step.run_bind_of_run hread, h.head_eq]

theorem Shows.forEach (h : Shows dir base s b front) :
    ∃ bs r b', Step.Ends (Queue.forEach pure) s (.ok (bs, r)) (fun t =>
      Shows dir base t b' front ∧ Spares s t) ∧ b.Later b' ∧ bs.length ≤ (b.head - front).toNat := by
  obtain ⟨t, hrun, ht, hglances⟩ := h.forEach_run
  obtain ⟨bs, r, b', hends, hlater, hlength⟩ := ht.visitFrom (b.head - front).toNat front
  refine ⟨bs, r, b', Step.Ends.of_run_eq hrun (hends.mono fun u hu => ?_), hlater, hlength⟩
  exact ⟨hu.1, hglances.spares.trans hu.2⟩

-- What collecting makes of the log's answer: an index that is out of range is no error.
private def collected : Except Error Unit → Except Error Unit
  | .error (.outOfRange ..) => .ok ()
  | r => r

private def giveBack (index : UInt64) : Action Unit := do
  match ← (onStore (Store.removeBefore index)).attempt with
  | .ok () => return ()
  | .error (.outOfRange ..) => return ()
  | .error e => throw e

private theorem Shows.collect_run (h : Shows dir base s b front) :
    ∃ t, Queue.collect.run s = (giveBack (front - 1)).run t ∧
      Shows dir base t b front ∧ Glances s t := by
  obtain ⟨t, hread, ht, hglances⟩ := h.readFront.run_eq
  refine ⟨t, ?_, ht, hglances⟩
  unfold Queue.collect
  rw [Step.run_bind_of_run h.expectOpen_run, Step.run_bind_of_run hread]
  rfl

private theorem ends_collect {r : Except Error Unit}
    (hrun : Queue.collect.run s = (giveBack (front - 1)).run t) (hglances : Glances s t)
    (hcall : Step.Ends (onStore (Store.removeBefore (front - 1))) t r fun u =>
      Shows dir base u b' front ∧ Spares t u) :
    Step.Ends Queue.collect s (collected r) fun u => Shows dir base u b' front ∧ Spares s u := by
  refine Step.Ends.of_run_eq hrun (hcall.attempt.bind fun u hcalled => ?_)
  have hu := And.intro hcalled.1 (hglances.spares.trans hcalled.2)
  unfold collected
  split
  · exact Step.ends_pure hu
  · exact Step.ends_pure hu
  · next e hnot =>
    cases e with
    | outOfRange index tail head => exact (hnot index tail head rfl).elim
    | _ => exact Step.ends_throw hu

-- With the item in front of the front in the window, the tail moves up to it.
theorem Shows.collect_inside (h : Shows dir base s b front) (hin : b.contains (front - 1) = true) :
    Step.Ends Queue.collect s (.ok ()) (fun t =>
        Shows dir base t (b.removeBefore (front - 1)) front ∧ Spares s t) ∨
      ∃ fault, s.2.1.Fails .removeBefore fault ∧ Step.Ends Queue.collect s
        (.error (.internal fault.message)) fun t => Shows dir base t b front ∧ Spares s t := by
  obtain ⟨t, hrun, ht, hglances⟩ := h.collect_run
  rcases ht.onStore .removeBefore (ht.log.removeBefore hin) with hends | ⟨fault, hfails, hends⟩
  · exact .inl (ends_collect hrun hglances hends)
  · exact .inr ⟨fault, hglances.store ▸ hfails, ends_collect hrun hglances hends⟩

theorem Shows.collect_outside (h : Shows dir base s b front) (hout : b.contains (front - 1) = false) :
    ∃ r, Step.Ends Queue.collect s r (fun t => Shows dir base t b front ∧ Spares s t) ∧
      Replies s .removeBefore (.ok ()) r := by
  obtain ⟨t, hrun, ht, hglances⟩ := h.collect_run
  have hremove : Step.Ends (Log.removeBefore (front - 1)) (t.1, t.2.1.log)
      (.error (.outOfRange (front - 1) b.tail b.head)) fun u =>
        Log.Leads dir base (t.1, t.2.1.log) u b := by
    refine (ht.log.removeBefore_outOfRange hout).mono ?_
    rintro _ rfl
    exact ht.log.leads
  rcases ht.onStore .removeBefore hremove with hends | ⟨fault, hfails, hends⟩
  · exact ⟨_, ends_collect hrun hglances hends, .inl rfl⟩
  · exact ⟨_, ends_collect hrun hglances hends, .inr ⟨fault, hglances.store ▸ hfails, rfl⟩⟩

private theorem Shows.flushFront (h : Shows dir base s b front) :
    Step.Ends (Step.inside frontPart Cache.flush) s (.ok ()) fun t => Shows dir base t b front ∧ Glances s t := by
  obtain ⟨img, hserves, hword⟩ := h.front
  refine Step.Ends.inside (p := frontPart) (hserves.sound.flush.mono ?_)
  rintro ⟨host, c⟩ ⟨rfl, hstays⟩
  exact ⟨⟨h.log, ⟨img, hserves.of_stays hstays, hword⟩, h.notClosed⟩, rfl, rfl⟩

theorem Shows.flush (h : Shows dir base s b front) :
    ∃ r, Step.Ends Queue.flush s r fun t => Shows dir base t b front ∧ Spares s t := by
  obtain ⟨t, hfront, ht, hglances⟩ := h.flushFront.run_eq
  have hcall : ∀ {r}, Step.Ends (Queue.onStore Store.flush) t r (fun u =>
      Shows dir base u b front ∧ Spares t u) →
      Step.Ends Queue.flush s r fun u => Shows dir base u b front ∧ Spares s u := fun hends =>
    h.expectOpen_bind (Step.ends_bind_of_run hfront
      (hends.mono fun u hu => ⟨hu.1, hglances.spares.trans hu.2⟩))
  rcases ht.onStore .flush ht.log.flush with hends | ⟨fault, -, hends⟩
  · exact ⟨_, hcall hends⟩
  · exact ⟨_, hcall hends⟩

theorem Shows.passTime (h : Shows dir base s b front) (nanos : Nat) :
    Step.Ends (Queue.passTime nanos) s (.ok ()) fun t =>
      Shows dir base t { b with now := s.1.now + nanos } front ∧ Spares s t :=
  Step.ends_modify ⟨⟨(h.log.sweep _).shows, h.front, h.notClosed⟩, List.Sublist.refl _, rfl⟩

end

end Spool.Queue
