import Spool.Proofs.Queue.Stock

namespace Spool.Queue

-- What a slot comes to that was pending when a payload came: the payload, unless the read for it failed
-- or the log had no index for it.
def Gets (s : Host × Store × Queue) (payload : Bytes) (outcome : Outcome) : Prop :=
  outcome = .payload payload ∨
    (∃ fault, s.2.1.Fails .fetch fault ∧ outcome = .failed (.internal fault.message)) ∨
    s.2.1.head - s.2.1.tail + 1 = 0 ∧
      outcome = .failed (.outOfRange s.2.1.head s.2.1.tail (s.2.1.head + 1))

-- What a payload that comes does for those who wait, with what was handed out to them.
structure Served (handed : List (Kind × SlotId)) (s t : Host × Store × Queue) (payload : Bytes) :
    Prop where
  none : ∀ id, ¬t.2.2.Waits id
  gets : ∀ {kind id wakers}, (kind, id) ∈ handed → s.2.2.slot? id = some (.pending wakers) →
    ∃ outcome, t.2.2.slot? id = some (.finished outcome wakers) ∧ Gets s payload outcome
  taken : ∀ {id}, (.take, id) ∈ handed → s.2.2.Waits id → frontOf t = frontOf s + 1
  untaken : (∀ id, (.take, id) ∈ handed → ¬s.2.2.Waits id) → frontOf t = frontOf s

-- What a move brings, and to whom: a report to the caller, or an outcome to a slot.
structure Brings (a : Account) (s t : Host × Store × Queue) (m : Move) (r : Except Error Report)
    (news : List Delivery) : Prop where
  deliveries : (a.step s m).deliveries = a.deliveries ++ news
  length_le : news.length ≤ 1
  -- Whatever was handed out was at the front, which has gone on by one.
  index : ∀ d ∈ news, d.index = frontOf s ∧ frontOf t = frontOf s + 1
  caller : ∀ d ∈ news, d.slot = none →
    m = .op .dequeue ∧ r = d.result.map fun payload => .answer (.item (some payload))
  slot : ∀ d ∈ news, ∀ id, d.slot = some id →
    (.take, id) ∈ (a.step s m).handed ∧ told s id = none ∧ told t id = some d.result
  -- The front goes on for nothing else, unless items are skipped, and nobody else gets anything.
  still : news = [] → frontOf t = frontOf s ∨ m.Skips
  reported : ∀ result : Except Error Bytes, m = .op .dequeue →
    r = result.map (fun payload => .answer (.item (some payload))) →
    ∃ d ∈ news, d.slot = none ∧ d.result = result
  settled : ∀ id result, (.take, id) ∈ (a.step s m).handed → told s id = none →
    told t id = some result → ∃ d ∈ news, d.slot = some id ∧ d.result = result

-- A queue that minds those who wait.
structure Minds (s : Host × Store × Queue) (a : Account) : Prop where
  single : ∀ {kind id other}, (kind, id) ∈ a.handed → (kind, other) ∈ a.handed →
    s.2.2.Waits id → s.2.2.Waits other → id = other
  apart : ∀ {kind other id}, (kind, id) ∈ a.handed → (other, id) ∈ a.handed → kind = other
  handed : ∀ {id}, s.2.2.Waits id → ∃ kind, (kind, id) ∈ a.handed
  idle : ∀ {id}, s.2.2.Waits id → (isEmpty.run s).1 = .ok true
  enqueue : ∀ payload t, (Queue.enqueue payload).run s = (.ok (), t) → Served a.handed s t payload
  move : ∀ m, ∃ news, Brings a s (m.act.run s).2 m (m.perform.run s).1 news

section

variable {dir : Path} {base : Location} {s t : Host × Store × Queue} {b b' : Log.Books}
  {front front' : UInt64} {effect : Effect} {a a' : Account} {id : SlotId} {payload : Bytes}
  {m : Move} {r : Except Error Report}

theorem Shows.gets (h : Shows dir base s b front) {read : Except Error Bytes} (hfront : front = b.head)
    (hfits : payload.length ≤ b.dataPageSize) (hle : b.dataPageSize ≤ Log.maxDataPageSize)
    (hreplies : Replies s .fetch ((b.append payload).answer front) read) :
    Gets s payload (.ofRead read) := by
  rcases hreplies with rfl | ⟨fault, hfails, rfl⟩
  · by_cases hroom : b.head - b.tail + 1 = 0
    · refine .inr (.inr ⟨by rw [h.head_eq, h.tail_eq, hroom], ?_⟩)
      have hout : (b.append payload).contains b.head = false := by
        show decide (b.head - b.tail < b.head + 1 - b.tail) = false
        have hnext : b.head + 1 - b.tail = b.head - b.tail + 1 := by grind
        rw [hnext, hroom]
        exact decide_eq_false (UInt64.not_lt.mpr UInt64.zero_le)
      rw [hfront, Log.Books.answer, if_neg (by rw [hout]; exact Bool.false_ne_true), h.head_eq, h.tail_eq]
      rfl
    · rw [hfront, answer_append hfits hle hroom]
      exact .inl rfl
  · exact .inr (.inl ⟨fault, hfails, rfl⟩)

theorem Accounted.served (h : Accounted dir base s a b front)
    (hrun : (Queue.enqueue payload).run s = (.ok (), t)) : Served a.handed s t payload := by
  have hnoted := h.attended.toNoted
  have hhanded := h.balanced.handed
  obtain ⟨b', front', hmoves⟩ := h.accepts hrun
  have hfront := hmoves.shows.frontOf_eq
  cases hmoves.turn with
  | @accept _ r _ hfits _ hreplies hqueue =>
      have hmoved : frontOf t = frontOf s + stepFor .take s.2.2 := by
        rw [h.shows.frontOf_eq]
        exact hfront
      constructor
      case none =>
        intro id
        rw [hqueue]
        exact hnoted.not_waits_served id
      case gets =>
        intro kind id wakers hmem hslot
        have hkind := hhanded.waits hmem ⟨wakers, hslot⟩
        have hidle := h.attended.idle ⟨wakers, hslot⟩
        refine ⟨.ofRead (r kind), ?_, h.shows.gets hidle hfits h.pageSize_le (hreplies kind)⟩
        rw [hqueue]
        exact hnoted.slot?_served hkind hslot
      case taken =>
        intro id hmem hwaits
        have hpending := pending?_eq_some_iff.mpr ⟨hhanded.waits hmem hwaits, hwaits⟩
        rw [hmoved, stepFor, hpending]
        rfl
      case untaken =>
        intro hnone
        have hpending : s.2.2.pending? (slotOf .take s.2.2) = none := by
          refine Option.eq_none_iff_forall_ne_some.mpr fun id hsome => ?_
          obtain ⟨hkind, hwaits⟩ := pending?_eq_some_iff.mp hsome
          exact hnone id (hhanded.noted hkind) hwaits
        rw [hmoved, stepFor, hpending]
        exact UInt64.add_zero _

-- Nobody gets anything and the front stays, unless items are skipped; or somebody gets the item at the
-- front.
theorem Entered.news_cases (h : Entered a s t b front effect a' b' front')
    (hrecord : a' = a.record s t effect) :
    a.news s t effect = [] ∧ (front' = front ∨ effect = .dropped ∨ effect = .cleared) ∨
      ∃ slot result, a.news s t effect = [a.delivery s slot result] ∧ front' = front + 1 ∧
        Goes (a.hand effect) s t effect slot result := by
  have hdeliveries : a'.deliveries = a.deliveries ++ a.news s t effect := congrArg Account.deliveries hrecord
  have hhand : a'.handed = a.hand effect := congrArg Account.handed hrecord
  have hnone : a'.deliveries = a.deliveries → a.news s t effect = [] := fun hsame =>
    List.append_right_eq_self.mp (hdeliveries.symm.trans hsame)
  have hone : ∀ d, a'.deliveries = a.deliveries ++ [d] → a.news s t effect = [d] := fun d hsame =>
    List.append_cancel_left (hdeliveries.symm.trans hsame)
  cases h with
  | still _ => exact .inl ⟨hnone rfl, .inl rfl⟩
  | drop _ => exact .inl ⟨hnone rfl, .inr (.inl rfl)⟩
  | clear => exact .inl ⟨hnone rfl, .inr (.inr rfl)⟩
  | accept _ => exact .inl ⟨hnone rfl, .inl rfl⟩
  | deliver _ _ hgoes _ => exact .inr ⟨_, _, hone _ rfl, rfl, hhand ▸ hgoes⟩
  | pass _ _ _ hgoes _ => exact .inr ⟨_, _, hone _ rfl, rfl, hgoes⟩

theorem Goes.told_eq_none {handed : List (Kind × SlotId)} {result : Except Error Bytes}
    (h : Goes handed s t effect (some id) result) : told s id = none := by
  cases h with
  | slot _ hnew _ =>
    rcases hnew with hwaits | rfl
    · exact told_eq_none_of_waits hwaits
    · exact told_size s

-- Whoever was told something for the first time is in the news.
theorem Account.mem_news {result : Except Error Bytes} (hmem : (Kind.take, id) ∈ a.hand effect)
    (hbefore : told s id = none) (hafter : told t id = some result) :
    a.delivery s (some id) result ∈ a.news s t effect := by
  refine List.mem_append_right _ (List.mem_map.mpr ⟨(id, result), ?_, rfl⟩)
  exact List.mem_filterMap.mpr ⟨_, hmem, Account.gain_eq_some hbefore hafter⟩

theorem Accounted.brings (h : Accounted dir base s a b front) (m : Move) :
    Brings a s (m.act.run s).2 m (m.perform.run s).1
      (a.news s (m.act.run s).2 (m.effect (m.perform.run s).1)) := by
  obtain ⟨b', front', hmoves⟩ := h.exists_moves m
  have hstep := a.step_eq s m
  have hentered := hmoves.turn.entered (a := a) h.attended h.balanced.handed
  have hcases := hentered.news_cases rfl
  have hfront := h.shows.frontOf_eq
  have hfront' := hmoves.shows.frontOf_eq
  generalize heffect : m.effect (m.perform.run s).1 = effect at hstep hcases ⊢
  generalize (m.act.run s).2 = t at hstep hcases hfront' ⊢
  have hhand : (a.step s m).handed = a.hand effect := congrArg Account.handed hstep
  have hone : ∀ d ∈ a.news s t effect, ∃ slot result, d = a.delivery s slot result ∧
      front' = front + 1 ∧ Goes (a.hand effect) s t effect slot result := by
    intro d hd
    rcases hcases with ⟨hnews, -⟩ | ⟨slot, result, hnews, hmoved, hgoes⟩
    · rw [hnews] at hd
      cases hd
    · rw [hnews, List.mem_singleton] at hd
      exact ⟨slot, result, hd, hmoved, hgoes⟩
  constructor
  case deliveries => exact congrArg Account.deliveries hstep
  case length_le =>
    rcases hcases with ⟨hnews, -⟩ | ⟨slot, result, hnews, -⟩
    · exact hnews ▸ Nat.zero_le 1
    · exact hnews ▸ Nat.le_refl 1
  case index =>
    intro d hd
    obtain ⟨slot, result, rfl, hmoved, -⟩ := hone d hd
    rw [hfront', hfront]
    exact ⟨hfront, hmoved⟩
  case caller =>
    intro d hd hslot
    obtain ⟨slot, result, rfl, -, hgoes⟩ := hone d hd
    obtain rfl : slot = none := hslot
    cases hgoes with
    | caller htaken => exact Move.effect_eq_taken_iff.mp (heffect.trans htaken)
  case slot =>
    intro d hd id hslot
    obtain ⟨slot, result, rfl, -, hgoes⟩ := hone d hd
    obtain rfl : slot = some id := hslot
    refine ⟨?_, hgoes.told_eq_none, ?_⟩
    · cases hgoes with
      | slot hmem _ _ => exact hhand ▸ hmem
    · cases hgoes with
      | slot _ _ htold => exact htold
  case still =>
    intro hnil
    rcases hcases with ⟨-, hstill⟩ | ⟨slot, result, hnews, -⟩
    · rw [hfront, hfront']
      exact hstill.imp id fun hskips => Move.skips_of_effect (heffect ▸ hskips)
    · rw [hnil] at hnews
      cases hnews
  case reported =>
    intro result hm hr
    have htaken : effect = .taken result := heffect.symm.trans (Move.effect_eq_taken_iff.mpr ⟨hm, hr⟩)
    refine ⟨a.delivery s none result, List.mem_append_left _ ?_, rfl, rfl⟩
    rw [htaken]
    exact List.mem_singleton.mpr rfl
  case settled =>
    intro id result hmem hbefore hafter
    exact ⟨_, Account.mem_news (hhand ▸ hmem) hbefore hafter, rfl, rfl⟩

theorem Accounted.minds (h : Accounted dir base s a b front) : Minds s a := by
  have hhanded := h.balanced.handed
  constructor
  case single =>
    intro kind id other hid hother hwaits hwaits'
    exact Option.some.inj ((hhanded.waits hid hwaits).symm.trans (hhanded.waits hother hwaits'))
  case apart => exact hhanded.apart
  case handed =>
    intro id hwaits
    obtain ⟨kind, hkind⟩ := h.attended.toNoted.noted hwaits
    exact ⟨kind, hhanded.noted hkind⟩
  case idle =>
    intro id hwaits
    rw [h.shows.isEmpty.1, h.attended.idle hwaits, decide_eq_true rfl]
  case enqueue => exact fun payload t hrun => h.served hrun
  case move => exact fun m => ⟨_, h.brings m⟩

-- From any directories on. On directories of its own, a queue hands out the payloads that came, each with
-- its item, as long as there is room for those that come.
theorem waiting_law (host : Host) (h : host.disk.Site dir base) {pageSize : Nat} (hpos : 0 < pageSize)
    (hle : pageSize ≤ Log.maxDataPageSize) (policy : CachePolicy) :
    ∃ host' sq, (openAt dir pageSize policy).run host = (.ok sq, host') ∧
      ∀ ms : List Move,
        Minds (Step.after (ms.map Move.act) (host', sq)) ((Account.start (host', sq)).after ms (host', sq)) ∧
        ((Account.start (host', sq)).after ms (host', sq)).deliveries.Pairwise Delivery.Before ∧
        ∀ start, Log.StartsAt host.disk dir base start →
          Step.Along Move.act Move.HasRoom ms (host', sq) →
          Right ((Account.start (host', sq)).after ms (host', sq)) := by
  obtain ⟨host', sq, b, front, hrun, hfresh, hstart⟩ := exists_accounted_openAt h hpos hle policy
  refine ⟨host', sq, hrun, fun ms => ?_⟩
  obtain ⟨b', front', hafter⟩ := hstart.after ms
  refine ⟨hafter.minds, hafter.balanced.tallied.sorted, fun start hstarts hroom => ?_⟩
  obtain ⟨sq', hopen⟩ := ends_openAt_start hpos hle policy hstarts
  have hsame : sq = sq' := Except.ok.inj ((congrArg Prod.fst hrun).symm.trans hopen.1)
  have hholds := hopen.2.1
  rw [hrun, ← hsame] at hholds
  obtain ⟨b₀, front₀, hprovides⟩ := hholds.provides_start hfresh
  exact hprovides.after ms hroom

end

-- Two who wait for the item that comes, one of whom cannot be told; an item that cannot be read by the one
-- who takes it; and one that is there already for whoever asks.
def sampleMoves : List Move :=
  [.ask .take, .ask .look, .plan ⟨.fetch, "disk"⟩, .op (.enqueue [1, 2, 3]), .plan ⟨.fetch, "disk"⟩,
    .op (.enqueue []), .op .dequeue, .op (.enqueue [4]), .ask .take]

theorem waiting_law_asked :
    ∃ host' sq, (openAt ⟨"spool"⟩ 64 .pinned).run ⟨Disk.empty.addDirectory ["spool"], 0⟩ =
        (.ok sq, host') ∧
      Minds (Step.after (sampleMoves.map Move.act) (host', sq))
        ((Account.start (host', sq)).after sampleMoves (host', sq)) ∧
      ((Account.start (host', sq)).after sampleMoves (host', sq)).deliveries.Pairwise Delivery.Before ∧
      Right ((Account.start (host', sq)).after sampleMoves (host', sq)) := by
  have hvacant := Disk.vacant_addDirectory (by decide : Disk.PartName "spool")
  obtain ⟨host', sq, hrun, hlaw⟩ := waiting_law ⟨Disk.empty.addDirectory ["spool"], 0⟩ hvacant.site
    (by decide : 0 < 64) (by decide) .pinned
  obtain ⟨hminds, hsorted, hright⟩ := hlaw sampleMoves
  have hroom : (((openAt ⟨"spool"⟩ 64 .pinned).run ⟨Disk.empty.addDirectory ["spool"], 0⟩).1.toOption.any
      fun sq => Step.Along Move.act Move.HasRoom sampleMoves (((openAt ⟨"spool"⟩ 64 .pinned).run
        ⟨Disk.empty.addDirectory ["spool"], 0⟩).2, sq)) = true := by decide +kernel
  rw [hrun] at hroom
  exact ⟨host', sq, hrun, hminds, hsorted, hright 0 (Log.startsAt_zero hvacant) (of_decide_eq_true hroom)⟩

end Spool.Queue
