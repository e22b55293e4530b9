import Spool.Proofs.Queue.Waiters

namespace Spool.Queue

-- A queue with the slot of each handle that somebody has. A slot may have several.
structure Lending where
  state : Host × Store × Queue
  handles : List SlotId

inductive Dealing where
  | move (m : Move)
  | clone (id : SlotId)
  -- Waits on a handle until there is an outcome, or the time is over.
  | wait (id : SlotId) (nanos : Nat)
  | drop (id : SlotId)

namespace Lending

-- Whoever asks gets a handle on the slot, also on one that others have handles on.
def move (w : Lending) (m : Move) : Lending where
  state := (m.act.run w.state).2
  handles :=
    match (m.perform.run w.state).1 with
    | .ok (.slot id) => id :: w.handles
    | _ => w.handles

-- Handles come only from those that are there.
def react (w : Lending) : Dealing → Lending
  | .move m => w.move m
  | .clone id => if id ∈ w.handles then { w with handles := id :: w.handles } else w
  | .wait id nanos => if id ∈ w.handles ∧ told w.state id = none then w.move (.op (.pass nanos)) else w
  | .drop id => { w with handles := w.handles.erase id }

def after (ds : List Dealing) (w : Lending) : Lending :=
  ds.foldl react w

end Lending

-- The slot for taking an item that is pending, whether or not there is a handle on it.
def pendingTake? (q : Queue) : Option SlotId :=
  q.pending? q.dequeueSlot

-- A payload that comes stays in the queue if nobody has a handle on the slot that waits for it.
def StaysUnheld (w : Lending) : Prop :=
  ∀ id payload t, pendingTake? w.state.2.2 = some id → id ∉ w.handles →
    (Queue.enqueue payload).run w.state = (.ok (), t) →
    (size.run t).1 = .ok 1 ∧ (dequeue.run t).1 = .ok (some payload)

-- It does not: the slot takes it with its only handle gone.
theorem not_staysUnheld_dropped :
    ∃ host' sq, (openAt ⟨"spool"⟩ 64 .pinned).run ⟨Disk.empty.addDirectory ["spool"], 0⟩ =
        (.ok sq, host') ∧
      ¬StaysUnheld (Lending.after [.move (.ask .take), .drop 0] ⟨(host', sq), []⟩) := by
  have hsteps : (((openAt ⟨"spool"⟩ 64 .pinned).run ⟨Disk.empty.addDirectory ["spool"], 0⟩).1.toOption.any
      fun sq =>
        let w := Lending.after [.move (.ask .take), .drop 0]
          ⟨(((openAt ⟨"spool"⟩ 64 .pinned).run ⟨Disk.empty.addDirectory ["spool"], 0⟩).2, sq), []⟩
        pendingTake? w.state.2.2 = some 0 ∧ 0 ∉ w.handles ∧
          ((Queue.enqueue [120]).run w.state).1.toOption = some () ∧
          (size.run ((Queue.enqueue [120]).run w.state).2).1.toOption = some 0) = true := by decide +kernel
  have hvacant := Disk.vacant_addDirectory (by decide : Disk.PartName "spool")
  have hsite : (⟨Disk.empty.addDirectory ["spool"], 0⟩ : Host).disk.Site ⟨"spool"⟩ ["spool"] := hvacant.site
  obtain ⟨host', sq, _, _, hrun, -⟩ := exists_accounted_openAt hsite (by decide : 0 < 64) (by decide) .pinned
  rw [hrun] at hsteps
  obtain ⟨hpending, hunheld, haccepted, hsize⟩ := of_decide_eq_true hsteps
  refine ⟨host', sq, hrun, fun hstays => ?_⟩
  obtain ⟨hone, -⟩ := hstays 0 [120] _ hpending hunheld (Prod.ext (Step.eq_ok_of_toOption haccepted) rfl)
  rw [hone] at hsize
  exact absurd hsize (by decide)

-- What lets the front go on: a caller who takes an item or skips some, the slot that was pending when a
-- payload came, or a new slot, on which there is a handle.
inductive Advances (w w' : Lending) : Dealing → Prop where
  | caller : Advances w w' (.move (.op .dequeue))
  | skip {m : Move} (hskips : m.Skips) : Advances w w' (.move m)
  | pending {payload : Bytes} {id : SlotId} {result : Except Error Bytes}
    (hpending : pendingTake? w.state.2.2 = some id) (htold : told w'.state id = some result) :
    Advances w w' (.move (.op (.enqueue payload)))
  | ask {id : SlotId} {result : Except Error Bytes} (hhandles : w'.handles = id :: w.handles)
    (hnew : told w.state id = none) (htold : told w'.state id = some result) :
    Advances w w' (.move (.ask .take))

-- A payload that came went to a slot: it is not in the queue, and who asks now waits for another.
structure Swallows (s t : Host × Store × Queue) (payload : Bytes) (id : SlotId) : Prop where
  told : ∃ outcome, told t id = some outcome.toExcept ∧ Gets s payload outcome
  size : (size.run t).1 = .ok 0
  dequeue : (dequeue.run t).1 = .ok none
  ask : ∃ other, (dequeueAsync.run t).1 = .ok other ∧ other ≠ id ∧
    (dequeueAsync.run t).2.2.2.Waits other

-- A payload that came is in the queue, and is the next if there was none before.
structure Remains (s t : Host × Store × Queue) (payload : Bytes) : Prop where
  size : ∃ n, (size.run s).1 = .ok n ∧ (size.run t).1 = .ok (n + 1)
  dequeue : (isEmpty.run s).1 = .ok true →
    ∃ read, (dequeue.run t).1 = read.map some ∧ Gets s payload (.ofRead read)
  ask : (isEmpty.run s).1 = .ok true →
    ∃ id outcome, (dequeueAsync.run t).1 = .ok id ∧
      told (dequeueAsync.run t).2 id = some outcome.toExcept ∧ Gets s payload outcome

-- What a queue does for those who have handles, and for slots that nobody has a handle on.
structure Lends (w : Lending) : Prop where
  advances : ∀ d, frontOf (w.react d).state = frontOf w.state ∨ Advances w (w.react d) d
  -- Nothing ends what was asked for but a payload that comes.
  pending : ∀ {id} d, pendingTake? w.state.2.2 = some id →
    pendingTake? (w.react d).state.2.2 = some id ∨
      ∃ payload, d = .move (.op (.enqueue payload)) ∧ ((Queue.enqueue payload).run w.state).1 = .ok ()
  kept : ∀ {id result} d, told w.state id = some result → told (w.react d).state id = some result
  shared : ∀ {id}, pendingTake? w.state.2.2 = some id →
    (w.react (.move (.ask .take))).handles = id :: w.handles
  swallows : ∀ {id payload t}, pendingTake? w.state.2.2 = some id →
    (Queue.enqueue payload).run w.state = (.ok (), t) → Swallows w.state t payload id
  remains : ∀ {payload t}, pendingTake? w.state.2.2 = none →
    (Queue.enqueue payload).run w.state = (.ok (), t) → Remains w.state t payload

section

variable {dir : Path} {base : Location} {s t : Host × Store × Queue} {b b' : Log.Books}
  {front front' : UInt64} {effect : Effect} {a : Account} {id : SlotId} {payload : Bytes} {m : Move}
  {w : Lending} {d : Dealing} {r : Except Error Report} {result : Except Error Bytes}

theorem pendingTake?_eq_some_iff {q : Queue} :
    pendingTake? q = some id ↔ slotOf .take q = some id ∧ q.Waits id :=
  pending?_eq_some_iff

-- Who asks for an item to take while somebody waits for one gets the same slot.
theorem asked_take {q : Queue} (hpending : pendingTake? q = some id) : asked .take q = (id, q) := by
  unfold asked
  rw [show q.pending? (slotOf .take q) = some id from hpending]

theorem pendingTake?_asked {q : Queue} (hpending : pendingTake? q = some id) (kind : Kind) :
    pendingTake? (asked kind q).2 = some id := by
  obtain ⟨hnoted, hwaits⟩ := pendingTake?_eq_some_iff.mp hpending
  cases kind with
  | take => rwa [asked_take hpending]
  | look =>
      refine pendingTake?_eq_some_iff.mpr ⟨?_, waits_asked_iff.mpr (.inl hwaits)⟩
      unfold asked
      split
      · exact hnoted
      · rw [slotOf_note_addSlot, if_neg Kind.noConfusion, hnoted]

-- A slot is handed out by nothing but a call of its own.
theorem Move.eq_ask_of_effect {kind : Kind} (h : m.effect r = .handed kind id) :
    m = .ask kind ∧ r = .ok (.slot id) := by
  unfold Move.effect at h
  split at h
  all_goals cases h
  exact ⟨rfl, rfl⟩

-- A dealing is one move at most, and a wait is no more than some time that passes.
theorem Lending.react_cases (w : Lending) (d : Dealing) :
    (w.react d).state = w.state ∨ (∃ m, d = .move m ∧ w.react d = w.move m) ∨
      ∃ nanos, (w.react d).state = (w.move (.op (.pass nanos))).state := by
  cases d with
  | move m => exact .inr (.inl ⟨m, rfl, rfl⟩)
  | clone id =>
      refine .inl ?_
      simp only [react]
      split <;> rfl
  | wait id nanos =>
      simp only [react]
      split
      · exact .inr (.inr ⟨nanos, rfl⟩)
      · exact .inl rfl
  | drop id => exact .inl rfl

-- Whatever a slot tells it goes on to tell.
theorem Turn.told_eq (h : Turn s t b front effect b' front') (hattended : s.2.2.Attended front b.head)
    (htold : told s id = some result) : told t id = some result := by
  obtain ⟨hnot, hknown⟩ := not_waits_of_told htold
  refine Eq.trans ?_ htold
  cases h with
  | rest _ hqueue => exact told_of_queue hqueue id
  | poll hqueue => exact told_of_poll hqueue id
  | collect _ hqueue => exact told_of_queue hqueue id
  | drop _ hqueue => exact told_of_queue hqueue id
  | clear hqueue => exact told_of_queue hqueue id
  | take _ _ _ hqueue => exact told_of_queue hqueue id
  | accept _ _ _ hqueue => exact told_of_not_waits hqueue hnot
  | wait _ hqueue => exact (told_of_queue hqueue id).trans (told_asked _ _ _)
  | get hsome _ _ hqueue => exact told_of_got (hattended.not_waits hsome) hqueue (Nat.ne_of_lt hknown)

theorem Turn.pendingTake?_eq (h : Turn s t b front effect b' front')
    (hattended : s.2.2.Attended front b.head) (hpending : pendingTake? s.2.2 = some id) :
    pendingTake? t.2.2 = some id ∨ ∃ payload, effect = .accepted payload := by
  obtain ⟨hnoted, hwaits⟩ := pendingTake?_eq_some_iff.mp hpending
  have hidle := hattended.idle hwaits
  have hsame : ∀ {q : Queue}, t.2.2 = { q with front := t.2.2.front } → pendingTake? q = some id →
      pendingTake? t.2.2 = some id := by
    intro q hqueue hq
    rw [hqueue]
    exact hq
  cases h with
  | rest _ hqueue => exact .inl (hsame hqueue hpending)
  | poll hqueue =>
      refine .inl (hsame hqueue (pendingTake?_eq_some_iff.mpr ⟨?_, (waits_poll_iff _ _ _).mpr hwaits⟩))
      exact (slotOf_modifySlot _ _ _ _).trans hnoted
  | collect _ hqueue => exact .inl (hsame hqueue hpending)
  | drop _ hqueue => exact .inl (hsame hqueue hpending)
  | clear hqueue => exact .inl (hsame hqueue hpending)
  | take hsome _ _ _ => exact absurd hidle hsome
  | accept _ _ _ _ => exact .inr ⟨_, rfl⟩
  | wait _ hqueue => exact .inl (hsame hqueue (pendingTake?_asked hpending _))
  | get hsome _ _ _ => exact absurd hidle hsome

-- Whenever the front goes on, somebody takes or skips an item, or a slot is told of one.
theorem Turn.front_cases (h : Turn s t b front effect b' front')
    (hattended : s.2.2.Attended front b.head) :
    front' = front ∨ (∃ result, effect = .taken result) ∨ (effect = .dropped ∨ effect = .cleared) ∨
      (∃ payload id result, effect = .accepted payload ∧ pendingTake? s.2.2 = some id ∧
        told t id = some result) ∨
      ∃ id result, effect = .handed .take id ∧ told s id = none ∧ told t id = some result := by
  cases h with
  | rest _ _ => exact .inl rfl
  | poll _ => exact .inl rfl
  | collect _ _ => exact .inl rfl
  | drop _ _ => exact .inr (.inr (.inl (.inl rfl)))
  | clear _ => exact .inr (.inr (.inl (.inr rfl)))
  | take _ _ _ _ => exact .inr (.inl ⟨_, rfl⟩)
  | accept _ _ _ hqueue =>
      unfold stepFor
      cases hpending : s.2.2.pending? (slotOf .take s.2.2) with
      | none => exact .inl (UInt64.add_zero front)
      | some id =>
          obtain ⟨hnoted, hwaits⟩ := pending?_eq_some_iff.mp hpending
          have htold := told_of_waits hattended.toNoted hqueue hnoted hwaits
          exact .inr (.inr (.inr (.inl ⟨_, id, _, rfl, hpending, htold⟩)))
  | wait _ _ => exact .inl rfl
  | @get kind r _ hsome _ _ hqueue =>
      cases kind with
      | look => exact .inl (UInt64.add_zero front)
      | take =>
          have hnone := hattended.not_waits hsome
          rw [asked_of_not_waits hnone]
          exact .inr (.inr (.inr (.inr ⟨_, _, rfl, told_size s, told_got hnone hqueue⟩)))

private theorem Accounted.advances_move (h : Accounted dir base w.state a b front) (m : Move) :
    frontOf (w.move m).state = frontOf w.state ∨ Advances w (w.move m) (.move m) := by
  obtain ⟨b', front', hmoves⟩ := h.exists_moves m
  rcases hmoves.turn.front_cases h.attended with hfront | ⟨result, htaken⟩ | hskips |
    ⟨payload, id, result, haccepted, hpending, htold⟩ | ⟨id, result, hhanded, hnew, htold⟩
  · refine .inl ?_
    rw [h.shows.frontOf_eq, ← hfront]
    exact hmoves.shows.frontOf_eq
  · obtain ⟨rfl, -⟩ := Move.effect_eq_taken_iff.mp htaken
    exact .inr .caller
  · exact .inr (.skip (Move.skips_of_effect hskips))
  · obtain rfl := Move.eq_enqueue_of_effect haccepted
    exact .inr (.pending hpending htold)
  · obtain ⟨rfl, hrun⟩ := Move.eq_ask_of_effect hhanded
    refine .inr (.ask ?_ hnew htold)
    unfold Lending.move
    rw [hrun]

theorem Accounted.advances (h : Accounted dir base w.state a b front) (d : Dealing) :
    frontOf (w.react d).state = frontOf w.state ∨ Advances w (w.react d) d := by
  rcases w.react_cases d with hsame | ⟨m, rfl, -⟩ | ⟨nanos, hpass⟩
  · exact .inl (congrArg frontOf hsame)
  · exact h.advances_move m
  · rw [hpass]
    refine .inl ((h.advances_move (.op (.pass nanos))).resolve_right fun hadvances => ?_)
    cases hadvances with
    | skip hskips => exact hskips

private theorem Accounted.pendingTake?_move (h : Accounted dir base w.state a b front)
    (hpending : pendingTake? w.state.2.2 = some id) (m : Move) :
    pendingTake? (w.move m).state.2.2 = some id ∨
      ∃ payload, m = .op (.enqueue payload) ∧ ((Queue.enqueue payload).run w.state).1 = .ok () := by
  obtain ⟨b', front', hmoves⟩ := h.exists_moves m
  refine (hmoves.turn.pendingTake?_eq h.attended hpending).imp_right ?_
  rintro ⟨payload, haccepted⟩
  exact ⟨payload, Move.effect_eq_accepted_iff.mp haccepted⟩

theorem Accounted.pendingTake?_react (h : Accounted dir base w.state a b front)
    (hpending : pendingTake? w.state.2.2 = some id) (d : Dealing) :
    pendingTake? (w.react d).state.2.2 = some id ∨
      ∃ payload, d = .move (.op (.enqueue payload)) ∧
        ((Queue.enqueue payload).run w.state).1 = .ok () := by
  rcases w.react_cases d with hsame | ⟨m, rfl, -⟩ | ⟨nanos, hpass⟩
  · exact .inl (hsame ▸ hpending)
  · refine (h.pendingTake?_move hpending m).imp_right ?_
    rintro ⟨payload, rfl, haccepted⟩
    exact ⟨payload, rfl, haccepted⟩
  · rw [hpass]
    refine .inl ((h.pendingTake?_move hpending _).resolve_right ?_)
    rintro ⟨payload, ⟨⟩, -⟩

theorem Accounted.told_react (h : Accounted dir base w.state a b front)
    (htold : told w.state id = some result) (d : Dealing) : told (w.react d).state id = some result := by
  have hmove : ∀ m, told (w.move m).state id = some result := by
    intro m
    obtain ⟨b', front', hmoves⟩ := h.exists_moves m
    exact hmoves.turn.told_eq h.attended htold
  rcases w.react_cases d with hsame | ⟨m, rfl, -⟩ | ⟨nanos, hpass⟩
  · exact hsame ▸ htold
  · exact hmove m
  · exact hpass ▸ hmove _

-- Who asks while somebody waits gets a handle on the slot that is there.
theorem Accounted.handles_ask (h : Accounted dir base w.state a b front)
    (hpending : pendingTake? w.state.2.2 = some id) :
    (w.react (.move (.ask .take))).handles = id :: w.handles := by
  obtain ⟨-, hwaits⟩ := pendingTake?_eq_some_iff.mp hpending
  have hask := ((h.shows.ask_absent (h.attended.idle hwaits) .take).map Report.slot).1
  rw [asked_take hpending] at hask
  show (w.move (.ask .take)).handles = _
  unfold Lending.move
  rw [show ((Move.ask .take).perform.run w.state).1 = .ok (.slot id) from hask]

theorem Accounted.swallows (h : Accounted dir base s a b front) (hpending : pendingTake? s.2.2 = some id)
    (hrun : (Queue.enqueue payload).run s = (.ok (), t)) : Swallows s t payload id := by
  obtain ⟨hnoted, wakers, hslot⟩ := pendingTake?_eq_some_iff.mp hpending
  have hidle := h.attended.idle ⟨wakers, hslot⟩
  have hserved := h.served hrun
  obtain ⟨outcome, hfinished, hgets⟩ := hserved.gets (h.balanced.handed.noted hnoted) hslot
  have htold : told t id = some outcome.toExcept := by
    rw [told, hfinished]
    rfl
  obtain ⟨b', front', hmoves⟩ := h.accepts hrun
  have hshows := hmoves.shows
  -- The front has gone on with the head.
  have hnone : front' = b'.head := by
    have hfront := hserved.taken (h.balanced.handed.noted hnoted) ⟨wakers, hslot⟩
    rw [hshows.frontOf_eq, h.shows.frontOf_eq, hidle] at hfront
    cases hmoves.turn with
    | accept _ hlater _ _ => exact hfront.trans hlater.head.symm
  constructor
  case told => exact ⟨outcome, htold, hgets⟩
  case size => rw [hshows.size.1, hnone, UInt64.sub_self]
  case dequeue => exact ((hands_dequeue dir base).ends_none hshows hnone).1
  case ask =>
    have hask := hshows.ask_absent hnone .take
    refine ⟨_, hask.1, ?_, ?_⟩
    · rw [asked_of_not_waits hserved.none]
      exact Nat.ne_of_gt (not_waits_of_told htold).2
    · show (Kind.take.ask.run t).2.2.2.Waits _
      rw [hask.2.2.queue]
      exact waits_asked_iff.mpr (.inr rfl)

theorem Accounted.remains (h : Accounted dir base s a b front) (hpending : pendingTake? s.2.2 = none)
    (hrun : (Queue.enqueue payload).run s = (.ok (), t)) : Remains s t payload := by
  obtain ⟨b', front', hmoves⟩ := h.accepts hrun
  have hshows := hmoves.shows
  cases hmoves.turn with
  | accept hfits hlater hreplies hqueue =>
      have hstep : stepFor .take s.2.2 = 0 := by
        rw [stepFor, show s.2.2.pending? (slotOf .take s.2.2) = none from hpending]
        rfl
      rw [hstep, UInt64.add_zero] at hshows
      have hhead : b'.head = b.head + 1 := hlater.head
      -- What is read at the front of a queue that was empty is what came.
      have hcame : (isEmpty.run s).1 = .ok true → front ≠ b'.head ∧ ∀ {read : Except Error Bytes},
          Replies t .fetch (b'.answer front) read → Gets s payload (.ofRead read) := by
        intro hempty
        rw [h.shows.isEmpty.1] at hempty
        have hfront : front = b.head := of_decide_eq_true (Except.ok.inj hempty)
        refine ⟨?_, fun hread => ?_⟩
        · rw [hhead, hfront]
          exact fun hsame => absurd (UInt64.left_eq_add.mp hsame) (by decide)
        · rw [hlater.answer_eq] at hread
          have hfaults : t.2.1.faults.Sublist s.2.1.faults :=
            (List.append_nil s.2.1.faults) ▸ hmoves.faults
          exact h.shows.gets hfront hfits h.pageSize_le (hread.of_sublist hfaults)
      constructor
      case size =>
        refine ⟨_, h.shows.size.1, hshows.size.1.trans ?_⟩
        rw [hhead]
        congr 1
        grind
      case dequeue =>
        intro hempty
        obtain ⟨hsome, hgets⟩ := hcame hempty
        obtain ⟨read, _, hends, -, hread⟩ := (hands_dequeue dir base).ends_some hshows hsome
        exact ⟨read, hends.1, hgets hread⟩
      case ask =>
        intro hempty
        obtain ⟨hsome, hgets⟩ := hcame hempty
        obtain ⟨read, _, hends, -, hread⟩ := hshows.ask_present hsome .take
        have hnone := (h.served hrun).none
        refine ⟨t.2.2.slots.size, _, ?_, told_got hnone hends.2.2.queue, hgets hread⟩
        exact hends.1.trans (by rw [asked_of_not_waits hnone])

theorem Accounted.lends (h : Accounted dir base w.state a b front) : Lends w where
  advances d := h.advances d
  pending d hpending := h.pendingTake?_react hpending d
  kept d htold := h.told_react htold d
  shared hpending := h.handles_ask hpending
  swallows hpending hrun := h.swallows hpending hrun
  remains hpending hrun := h.remains hpending hrun

theorem Accounted.react (h : Accounted dir base w.state a b front) (d : Dealing) :
    ∃ a' b' front', Accounted dir base (w.react d).state a' b' front' := by
  have hmove : ∀ m, ∃ a' b' front', Accounted dir base (w.move m).state a' b' front' := by
    intro m
    obtain ⟨b', front', hmoves⟩ := h.exists_moves m
    exact ⟨_, b', front', h.turn hmoves⟩
  rcases w.react_cases d with hsame | ⟨m, rfl, -⟩ | ⟨nanos, hpass⟩
  · exact ⟨a, b, front, hsame ▸ h⟩
  · exact hmove m
  · exact hpass ▸ hmove _

theorem Accounted.after_dealings (h : Accounted dir base w.state a b front) (ds : List Dealing) :
    ∃ a' b' front', Accounted dir base (Lending.after ds w).state a' b' front' := by
  induction ds generalizing w a b front with
  | nil => exact ⟨a, b, front, h⟩
  | cons d ds ih =>
      obtain ⟨a', b', front', hreact⟩ := h.react d
      exact ih hreact

-- From any directories on, whatever is done with a queue and with handles on its slots.
theorem lending_law (host : Host) (h : host.disk.Site dir base) {pageSize : Nat} (hpos : 0 < pageSize)
    (hle : pageSize ≤ Log.maxDataPageSize) (policy : CachePolicy) :
    ∃ host' sq, (openAt dir pageSize policy).run host = (.ok sq, host') ∧
      ∀ ds : List Dealing, Lends (Lending.after ds ⟨(host', sq), []⟩) := by
  obtain ⟨host', sq, b, front, hrun, -, hstart⟩ := exists_accounted_openAt h hpos hle policy
  refine ⟨host', sq, hrun, fun ds => ?_⟩
  obtain ⟨a, b', front', hafter⟩ := Accounted.after_dealings (w := ⟨(host', sq), []⟩) hstart ds
  exact hafter.lends

end

-- Somebody asks, and gives up on both handles that there are.
def sampleDealings : List Dealing :=
  [.move (.ask .take), .clone 0, .wait 0 5, .drop 0, .move (.ask .look), .drop 0]

theorem lending_law_dropped :
    ∃ host' sq, (openAt ⟨"spool"⟩ 64 .pinned).run ⟨Disk.empty.addDirectory ["spool"], 0⟩ =
        (.ok sq, host') ∧
      let w := Lending.after sampleDealings ⟨(host', sq), []⟩
      0 ∉ w.handles ∧ Lends w ∧ ∃ t, (Queue.enqueue [1, 2, 3]).run w.state = (.ok (), t) ∧
        Swallows w.state t [1, 2, 3] 0 := by
  have hvacant := Disk.vacant_addDirectory (by decide : Disk.PartName "spool")
  obtain ⟨host', sq, hrun, hlaw⟩ := lending_law ⟨Disk.empty.addDirectory ["spool"], 0⟩ hvacant.site
    (by decide : 0 < 64) (by decide) .pinned
  have hsteps : (((openAt ⟨"spool"⟩ 64 .pinned).run ⟨Disk.empty.addDirectory ["spool"], 0⟩).1.toOption.any
      fun sq =>
        let w := Lending.after sampleDealings
          ⟨(((openAt ⟨"spool"⟩ 64 .pinned).run ⟨Disk.empty.addDirectory ["spool"], 0⟩).2, sq), []⟩
        pendingTake? w.state.2.2 = some 0 ∧ 0 ∉ w.handles ∧
          ((Queue.enqueue [1, 2, 3]).run w.state).1.toOption = some ()) = true := by decide +kernel
  rw [hrun] at hsteps
  obtain ⟨hpending, hunheld, haccepted⟩ := of_decide_eq_true hsteps
  refine ⟨host', sq, hrun, hunheld, hlaw _, _, Prod.ext (Step.eq_ok_of_toOption haccepted) rfl, ?_⟩
  exact (hlaw _).swallows hpending (Prod.ext (Step.eq_ok_of_toOption haccepted) rfl)

end Spool.Queue
