import Spool.Proofs.Queue.Serving

namespace Spool.Queue

-- All that may be done with an open queue, with faults of its log planned at any time.
inductive Move where
  | op (o : Op)
  | ask (kind : Kind)
  | poll (id : SlotId) (waker : Waker)
  -- A call on the log is to fail, or to be let through.
  | plan (fault : Fault)

inductive Report where
  | answer (a : Answer)
  | slot (id : SlotId)
  | done

-- What a move means to whoever makes it.
inductive Effect where
  | none
  | accepted (payload : Bytes)
  -- An item was taken, whether or not it could be read.
  | taken (r : Except Error Bytes)
  | dropped
  | cleared
  | handed (kind : Kind) (id : SlotId)

namespace Move

def perform : Move → Action Report
  | op o => return .answer (← o.perform)
  | ask kind => return .slot (← kind.ask)
  | poll id waker => do
    modifyQueue fun q => q.modifySlot id fun slot => (slot.poll waker).2
    return .done
  | plan fault => do
    modify fun (host, s, q) => (host, s.plan fault, q)
    return .done

def act (m : Move) : Action Unit :=
  discard m.perform

def effect : Move → Except Error Report → Effect
  | op (.enqueue payload), .ok _ => .accepted payload
  | op .dequeue, .ok (.answer (.item (some payload))) => .taken (.ok payload)
  | op .dequeue, .error e => .taken (.error e)
  | op (.removeN _), .ok _ => .dropped
  | op .removeAll, .ok _ => .cleared
  | ask kind, .ok (.slot id) => .handed kind id
  | _, _ => .none

def faults : Move → List Fault
  | plan fault => [fault]
  | _ => []

end Move

theorem Move.run_act (m : Move) (s : Host × Store × Queue) : (m.act.run s).2 = (m.perform.run s).2 := by
  have hends : Step.Ends m.perform s (m.perform.run s).1 (· = (m.perform.run s).2) := ⟨rfl, rfl⟩
  exact hends.discard.2

theorem Move.eq_enqueue_of_effect {m : Move} {r : Except Error Report} {payload : Bytes}
    (h : m.effect r = .accepted payload) : m = .op (.enqueue payload) := by
  unfold Move.effect at h
  split at h
  · cases h
    rfl
  all_goals cases h

theorem Move.run_enqueue (payload : Bytes) (s : Host × Store × Queue) :
    (Move.op (.enqueue payload)).perform.run s =
      (((Queue.enqueue payload).run s).1.map fun _ => .answer .done, ((Queue.enqueue payload).run s).2) := by
  have hends : Step.Ends (Queue.enqueue payload) s ((Queue.enqueue payload).run s).1
    (· = ((Queue.enqueue payload).run s).2) := ⟨rfl, rfl⟩
  have hperform := (hends.map fun _ => Answer.done).map Report.answer
  refine Prod.ext (hperform.1.trans ?_) hperform.2
  cases ((Queue.enqueue payload).run s).1 <;> rfl

-- A payload is accepted by nothing but a call that went well.
theorem Move.effect_eq_accepted_iff {m : Move} {s : Host × Store × Queue} {payload : Bytes} :
    m.effect (m.perform.run s).1 = .accepted payload ↔
      m = .op (.enqueue payload) ∧ ((Queue.enqueue payload).run s).1 = .ok () := by
  constructor
  · intro h
    obtain rfl := Move.eq_enqueue_of_effect h
    rw [Move.run_enqueue] at h
    cases hresult : ((Queue.enqueue payload).run s).1 with
    | ok _ => exact ⟨rfl, rfl⟩
    | error e =>
        rw [hresult] at h
        cases h
  · rintro ⟨rfl, hresult⟩
    rw [Move.run_enqueue, hresult]
    rfl

theorem Move.eq_removeAll_of_effect {m : Move} {r : Except Error Report} (h : m.effect r = .cleared) :
    m = .op .removeAll := by
  unfold Move.effect at h
  split at h
  all_goals cases h
  rfl

-- An item is taken by nothing but a call of its own.
theorem Move.effect_eq_taken_iff {m : Move} {r : Except Error Report} {result : Except Error Bytes} :
    m.effect r = .taken result ↔
      m = .op .dequeue ∧ r = result.map fun payload => .answer (.item (some payload)) := by
  constructor
  · intro h
    unfold Move.effect at h
    split at h
    all_goals cases h
    all_goals exact ⟨rfl, rfl⟩
  · rintro ⟨rfl, rfl⟩
    cases result <;> rfl

-- A move by which the front passes items that nobody gets.
def Move.Skips : Move → Prop
  | op (.removeN _) => True
  | op .removeAll => True
  | _ => False

theorem Move.skips_of_effect {m : Move} {r : Except Error Report}
    (h : m.effect r = .dropped ∨ m.effect r = .cleared) : m.Skips := by
  unfold Move.effect at h
  split at h
  all_goals simp_all [Move.Skips]

-- What can become of a queue in one move.
inductive Turn (s t : Host × Store × Queue) (b : Log.Books) (front : UInt64) :
    Effect → Log.Books → UInt64 → Prop where
  | rest {b' : Log.Books} (hlater : b.Later b')
    (hqueue : t.2.2 = { s.2.2 with front := t.2.2.front }) : Turn s t b front .none b' front
  | poll {id : SlotId} {waker : Waker}
    (hqueue : t.2.2 = { s.2.2.modifySlot id fun slot => (slot.poll waker).2 with
      front := t.2.2.front }) : Turn s t b front .none b front
  | collect (hin : b.contains (front - 1) = true)
    (hqueue : t.2.2 = { s.2.2 with front := t.2.2.front }) :
    Turn s t b front .none (b.removeBefore (front - 1)) front
  | drop {k : Nat} (hk : k ≤ (b.head - front).toNat)
    (hqueue : t.2.2 = { s.2.2 with front := t.2.2.front }) :
    Turn s t b front .dropped b (front + UInt64.ofNat k)
  | clear (hqueue : t.2.2 = { s.2.2 with front := t.2.2.front }) :
    Turn s t b front .cleared b.removeAll 0
  | take {r : Except Error Bytes} {b' : Log.Books} (hsome : front ≠ b.head) (hlater : b.Later b')
    (hreplies : Replies s .fetch (b.answer front) r)
    (hqueue : t.2.2 = { s.2.2 with front := t.2.2.front }) :
    Turn s t b front (.taken r) b' (front + 1)
  | accept {payload : Bytes} {r : Kind → Except Error Bytes} {b' : Log.Books}
    (hfits : payload.length ≤ b.dataPageSize) (hlater : (b.append payload).Later b')
    (hreplies : ∀ kind, Replies s .fetch ((b.append payload).answer front) (r kind))
    (hqueue : t.2.2 = { s.2.2.served r with front := t.2.2.front }) :
    Turn s t b front (.accepted payload) b' (front + stepFor .take s.2.2)
  | wait {kind : Kind} (hnone : front = b.head)
    (hqueue : t.2.2 = { (asked kind s.2.2).2 with front := t.2.2.front }) :
    Turn s t b front (.handed kind (asked kind s.2.2).1) b front
  | get {kind : Kind} {r : Except Error Bytes} {b' : Log.Books} (hsome : front ≠ b.head)
    (hlater : b.Later b') (hreplies : Replies s .fetch (b.answer front) r)
    (hqueue : t.2.2 = { (asked kind s.2.2).2.modifySlot (asked kind s.2.2).1
      fun slot => slot.settle (r.map some) with front := t.2.2.front }) :
    Turn s t b front (.handed kind (asked kind s.2.2).1) b' (front + kind.step)

-- What comes of a move.
structure Moves (dir : Path) (base : Location) (s t : Host × Store × Queue) (m : Move)
    (b : Log.Books) (front : UInt64) (effect : Effect) (b' : Log.Books) (front' : UInt64) : Prop where
  shows : Shows dir base t b' front'
  turn : Turn s t b front effect b' front'
  faults : t.2.1.faults.Sublist (s.2.1.faults ++ m.faults)

section

variable {dir : Path} {base : Location} {s t : Host × Store × Queue} {b b' : Log.Books}
  {front front' : UInt64} {m : Move} {effect : Effect}

theorem Spares.moves (h : Spares s t) (hshows : Shows dir base t b' front) (hlater : b.Later b') :
    Moves dir base s t m b front .none b' front :=
  ⟨hshows, .rest hlater h.queue, h.faults.trans (List.sublist_append_left _ _)⟩

theorem Shows.op (h : Shows dir base s b front) (hattended : s.2.2.Attended front b.head) (o : Op) :
    ∃ r b' front', Step.Ends o.perform s r fun t =>
      Moves dir base s t (.op o) b front (Move.effect (.op o) (r.map .answer)) b' front' := by
  cases o with
  | enqueue payload =>
      rcases h.enqueue hattended payload with ⟨e, -, hends⟩ | ⟨hfits, -, r, b', hends, hlater, hreplies⟩
      · refine ⟨_, b, front, (hends.map fun _ => Answer.done).mono fun t ht => ?_⟩
        exact ht.2.moves ht.1 .refl
      · refine ⟨_, b', front + stepFor .take s.2.2, (hends.map fun _ => Answer.done).mono fun t ht => ?_⟩
        exact ⟨ht.1, .accept hfits hlater hreplies ht.2.queue,
          ht.2.faults.trans (List.sublist_append_left _ _)⟩
  | dequeue =>
      by_cases hnone : front = b.head
      · have hends := (hands_dequeue dir base).ends_none h hnone
        refine ⟨_, b, front, (hends.map Answer.item).mono fun t ht => ?_⟩
        exact ht.2.spares.moves ht.1 .refl
      · obtain ⟨r, b', hends, hlater, hreplies⟩ := (hands_dequeue dir base).ends_some h hnone
        refine ⟨_, b', front + 1, (hends.map Answer.item).mono fun t ht => ?_⟩
        refine ⟨ht.1, ?_, ht.2.faults.trans (List.sublist_append_left _ _)⟩
        cases r with
        | error e => exact .take hnone hlater hreplies ht.2.queue
        | ok payload => exact .take hnone hlater hreplies ht.2.queue
  | peek =>
      by_cases hnone : front = b.head
      · have hends := (hands_peek dir base).ends_none h hnone
        refine ⟨_, b, front, (hends.map Answer.item).mono fun t ht => ?_⟩
        exact ht.2.spares.moves ht.1 .refl
      · obtain ⟨r, b', hends, hlater, -⟩ := (hands_peek dir base).ends_some h hnone
        rw [UInt64.add_zero] at hends
        refine ⟨_, b', front, (hends.map Answer.item).mono fun t ht => ?_⟩
        exact ht.2.moves ht.1 hlater
  | peekAt offset =>
      obtain ⟨r, b', hends, hlater⟩ := h.peekAt offset
      exact ⟨_, b', front, (hends.map Answer.item).mono fun t ht => ht.2.moves ht.1 hlater⟩
  | removeN n =>
      have hends := (h.removeN n).map fun _ => Answer.done
      refine ⟨_, b, _, hends.mono fun t ht => ⟨ht.1, .drop (Nat.min_le_right _ _) ht.2.queue, ?_⟩⟩
      exact ht.2.spares.faults.trans (List.sublist_append_left _ _)
  | removeAll =>
      rcases h.removeAll with hends | ⟨e, hends⟩
      · refine ⟨_, b.removeAll, 0, (hends.map fun _ => Answer.done).mono fun t ht => ?_⟩
        exact ⟨ht.1, .clear ht.2.queue, ht.2.faults.trans (List.sublist_append_left _ _)⟩
      · refine ⟨_, b, front, (hends.map fun _ => Answer.done).mono fun t ht => ?_⟩
        exact ht.2.moves ht.1 .refl
  | forEach =>
      obtain ⟨bs, r, b', hends, hlater, -⟩ := h.forEach
      have hvisited := hends.map fun visited => Answer.visited visited.1 visited.2
      exact ⟨_, b', front, hvisited.mono fun t ht => ht.2.moves ht.1 hlater⟩
  | collect =>
      cases hin : b.contains (front - 1) with
      | true =>
          rcases h.collect_inside hin with hends | ⟨fault, -, hends⟩
          · refine ⟨_, b.removeBefore (front - 1), front,
              (hends.map fun _ => Answer.done).mono fun t ht => ?_⟩
            exact ⟨ht.1, .collect hin ht.2.queue, ht.2.faults.trans (List.sublist_append_left _ _)⟩
          · refine ⟨_, b, front, (hends.map fun _ => Answer.done).mono fun t ht => ?_⟩
            exact ht.2.moves ht.1 .refl
      | false =>
          obtain ⟨r, hends, -⟩ := h.collect_outside hin
          refine ⟨_, b, front, (hends.map fun _ => Answer.done).mono fun t ht => ?_⟩
          exact ht.2.moves ht.1 .refl
  | flush =>
      obtain ⟨r, hends⟩ := h.flush
      exact ⟨_, b, front, (hends.map fun _ => Answer.done).mono fun t ht => ht.2.moves ht.1 .refl⟩
  | size =>
      have hends := h.size.map fun n => Answer.count n.toNat
      exact ⟨_, b, front, hends.mono fun t ht => ht.2.spares.moves ht.1 .refl⟩
  | isEmpty =>
      have hends := h.isEmpty.map Answer.truth
      exact ⟨_, b, front, hends.mono fun t ht => ht.2.spares.moves ht.1 .refl⟩
  | pass nanos =>
      have hends := (h.passTime nanos).map fun _ => Answer.done
      exact ⟨_, _, front, hends.mono fun t ht => ht.2.moves ht.1 (.setNow .refl _)⟩

theorem Shows.move (h : Shows dir base s b front) (hattended : s.2.2.Attended front b.head)
    (m : Move) :
    ∃ r b' front', Step.Ends m.perform s r fun t =>
      Moves dir base s t m b front (m.effect r) b' front' := by
  cases m with
  | op o =>
      obtain ⟨r, b', front', hends⟩ := h.op hattended o
      exact ⟨_, b', front', hends.map _⟩
  | ask kind =>
      by_cases hnone : front = b.head
      · refine ⟨_, b, front, ((h.ask_absent hnone kind).map Report.slot).mono fun t ht => ?_⟩
        exact ⟨ht.1, .wait hnone ht.2.queue, ht.2.faults.trans (List.sublist_append_left _ _)⟩
      · obtain ⟨r, b', hends, hlater, hreplies⟩ := h.ask_present hnone kind
        refine ⟨_, b', front + kind.step, (hends.map Report.slot).mono fun t ht => ?_⟩
        exact ⟨ht.1, .get hnone hlater hreplies ht.2.queue,
          ht.2.faults.trans (List.sublist_append_left _ _)⟩
  | poll id waker =>
      refine ⟨.ok .done, b, front, ?_⟩
      refine Step.ends_bind_of_run (Step.run_modify _ s) (Step.ends_pure ?_)
      exact ⟨h.setQueue rfl rfl, .poll rfl, List.sublist_append_left _ _⟩
  | plan fault =>
      refine ⟨.ok .done, b, front, ?_⟩
      refine Step.ends_bind_of_run (Step.run_modify _ s) (Step.ends_pure ?_)
      exact ⟨⟨h.log, h.front, h.notClosed⟩, .rest .refl rfl, List.Sublist.refl _⟩

theorem Turn.dataPageSize_eq (h : Turn s t b front effect b' front') :
    b'.dataPageSize = b.dataPageSize := by
  cases h with
  | rest hlater _ => exact hlater.dataPageSize
  | take _ hlater _ _ => exact hlater.dataPageSize
  | accept _ hlater _ _ => exact hlater.dataPageSize
  | get _ hlater _ _ => exact hlater.dataPageSize
  | _ => rfl

-- After every move a slot is pending only while there is no item.
theorem Turn.attended (h : Turn s t b front effect b' front')
    (hattended : s.2.2.Attended front b.head) : t.2.2.Attended front' b'.head := by
  have hsame : ∀ {front' head'}, (front = b.head → front' = head') →
      ∀ cache, ({ s.2.2 with front := cache } : Queue).Attended front' head' := by
    intro front' head' hidle cache
    exact ⟨hattended.toNoted.setFront cache, fun hwaits => hidle (hattended.idle hwaits)⟩
  cases h with
  | rest hlater hqueue =>
      rw [hqueue, hlater.head]
      exact hsame id _
  | @poll id waker hqueue =>
      have hwaits : ∀ {other}, (s.2.2.modifySlot id fun slot => (slot.poll waker).2).Waits other →
          s.2.2.Waits other := (waits_poll_iff _ _ _).mp
      rw [hqueue]
      exact ⟨(hattended.toNoted.modifySlot hwaits).setFront _, fun h => hattended.idle (hwaits h)⟩
  | collect _ hqueue =>
      rw [hqueue]
      exact hsame id _
  | @drop k hk hqueue =>
      rw [hqueue]
      refine hsame (fun hidle => ?_) _
      rw [hidle, UInt64.sub_self] at hk
      rw [hidle, Nat.le_zero.mp hk]
      exact UInt64.add_zero _
  | clear hqueue =>
      rw [hqueue]
      exact hsame (fun _ => rfl) _
  | take hsome hlater _ hqueue =>
      rw [hqueue]
      exact hsame (fun hidle => absurd hidle hsome) _
  | accept _ _ _ hqueue =>
      rw [hqueue]
      exact ((hattended.toNoted.served _).setFront _).attended hattended.toNoted.not_waits_served
  | @wait kind hnone hqueue =>
      rw [hqueue]
      exact ⟨(hattended.toNoted.asked kind).setFront _, fun _ => hnone⟩
  | @get kind r b' hsome hlater _ hqueue =>
      have hnone := not_waits_settle_asked (hattended.not_waits hsome) kind r
      have hnoted := (hattended.toNoted.asked kind).modifySlot fun hwaits => absurd hwaits (hnone _)
      rw [hqueue]
      exact (hnoted.setFront _).attended hnone

end

end Spool.Queue
