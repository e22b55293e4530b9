import Spool.Proofs.Queue.Waiting

namespace Spool.Queue

-- What comes of a step that changes what is noted of those who wait.
structure Notes (s t : Host × Store × Queue) (q : Queue) : Prop where
  faults : t.2.1.faults.Sublist s.2.1.faults
  queue : t.2.2 = { q with front := t.2.2.front }

theorem hands (dir : Path) (base : Location) (kind : Kind) :
    Hands dir base kind.read kind.step := by
  cases kind with
  | look => exact hands_peek dir base
  | take => exact hands_dequeue dir base

section

variable {dir : Path} {base : Location} {s t u : Host × Store × Queue} {b b' : Log.Books}
  {front : UInt64} {q : Queue} {id : SlotId} {kind : Kind} {payload : Bytes}

theorem Spares.notes (h : Spares s t) : Notes s t s.2.2 :=
  ⟨h.faults, h.queue⟩

theorem Notes.slotOf (h : Notes s t q) (kind : Kind) :
    Queue.slotOf kind t.2.2 = Queue.slotOf kind q := by
  rw [h.queue]
  cases kind <;> rfl

theorem Replies.of_sublist {call : Call} {said r : Except Error α}
    (hfaults : t.2.1.faults.Sublist s.2.1.faults) (h : Replies t call said r) :
    Replies s call said r := by
  rcases h with h | ⟨fault, ⟨hmem, hcall, hmessage⟩, h⟩
  · exact .inl h
  · exact .inr ⟨fault, ⟨hfaults.subset hmem, hcall, hmessage⟩, h⟩

theorem Shows.settle_absent (h : Shows dir base s b front) (hnone : front = b.head) (kind : Kind)
    (id : SlotId) :
    Step.Ends (settle id kind.read) s (.ok ()) fun t => Shows dir base t b front ∧ Spares s t := by
  unfold settle
  refine ((hands dir base kind).ends_none h hnone).attempt.bind fun t ht => ?_
  refine Step.ends_modify ⟨ht.1.setQueue rfl rfl, ht.2.spares.faults, ?_⟩
  show t.2.2.modifySlot id _ = { s.2.2 with front := t.2.2.front }
  rw [modifySlot_settle_none, ← ht.2.queue]

theorem Shows.settle_present (h : Shows dir base s b front) (hsome : front ≠ b.head) (kind : Kind)
    (id : SlotId) :
    ∃ r b', Step.Ends (settle id kind.read) s (.ok ()) (fun t =>
        Shows dir base t b' (front + kind.step) ∧
          Notes s t (s.2.2.modifySlot id fun slot => slot.settle (r.map some))) ∧
      b.Later b' ∧ Replies s .fetch (b.answer front) r := by
  obtain ⟨r, b', hread, hlater, hreplies⟩ := (hands dir base kind).ends_some h hsome
  refine ⟨r, b', ?_, hlater, hreplies⟩
  unfold settle
  refine hread.attempt.bind fun t ht => ?_
  refine Step.ends_modify ⟨ht.1.setQueue rfl rfl, ht.2.faults, ?_⟩
  show t.2.2.modifySlot id _ = { s.2.2.modifySlot id _ with front := t.2.2.front }
  rw [ht.2.queue]
  rfl

theorem complete_run_of_none {slotOf : Queue → Option SlotId} {read : Action (Option Bytes)}
    (hnone : s.2.2.pending? (slotOf s.2.2) = none) : (complete slotOf read).run s = (.ok (), s) := by
  unfold complete
  rw [Step.run_bind_of_run (Step.run_get s)]
  simp only [hnone]
  rfl

theorem complete_run_of_some {slotOf : Queue → Option SlotId} {read : Action (Option Bytes)}
    (hsome : s.2.2.pending? (slotOf s.2.2) = some id) :
    (complete slotOf read).run s = (settle id read).run s := by
  unfold complete
  rw [Step.run_bind_of_run (Step.run_get s)]
  simp only [hsome]

-- How far the front goes for a kind when those who wait are served.
def stepFor (kind : Kind) (q : Queue) : UInt64 :=
  if (q.pending? (slotOf kind q)).isSome then kind.step else 0

theorem Shows.complete (h : Shows dir base s b front) (hsome : front ≠ b.head) (kind : Kind) :
    ∃ r b', Step.Ends (complete (slotOf kind) kind.read) s (.ok ()) (fun t =>
        Shows dir base t b' (front + stepFor kind s.2.2) ∧
          Notes s t (s.2.2.settleSlot (slotOf kind s.2.2) r)) ∧
      b.Later b' ∧ Replies s .fetch (b.answer front) r := by
  unfold settleSlot stepFor
  cases hpending : s.2.2.pending? (slotOf kind s.2.2) with
  | none =>
      refine ⟨b.answer front, b, ?_, .refl, .inl rfl⟩
      refine Step.Ends.of_run_eq (complete_run_of_none hpending) (Step.ends_pure ⟨?_, ?_⟩)
      · exact (UInt64.add_zero front).symm ▸ h
      · exact (Spares.refl s).notes
  | some id =>
      obtain ⟨r, b', hsettle, hlater, hreplies⟩ := h.settle_present hsome kind id
      exact ⟨r, b', hsettle.of_run_eq (complete_run_of_some hpending), hlater, hreplies⟩

theorem stepFor_setFront (kind : Kind) (q : Queue) (front : Cache) :
    stepFor kind { q with front } = stepFor kind q := by
  unfold stepFor
  rw [slotOf_setFront]
  rfl

-- Those who look are in nobody's way.
private theorem Noted.stepFor_take (h : q.Noted) (r : Except Error Bytes) :
    stepFor .take (q.settleSlot (slotOf .look q) r) = stepFor .take q := by
  have hpending : (q.settleSlot (slotOf .look q) r).pending? (slotOf .take q) =
      q.pending? (slotOf .take q) := by
    apply Option.ext
    intro id
    rw [pending?_eq_some_iff, pending?_eq_some_iff]
    refine and_congr_right fun htake => ?_
    have hlook : slotOf .look q ≠ some id := fun hlook => Kind.noConfusion (h.apart hlook htake)
    unfold Waits
    rw [slot?_settleSlot, if_neg hlook]
  unfold stepFor
  rw [slotOf_settleSlot, hpending]

theorem Shows.completeWaiters (h : Shows dir base s b front) (hsome : front ≠ b.head)
    (hnoted : s.2.2.Noted) :
    ∃ r b', Step.Ends Queue.completeWaiters s (.ok ()) (fun t =>
        Shows dir base t b' (front + stepFor .take s.2.2) ∧ Notes s t (s.2.2.served r)) ∧
      b.Later b' ∧ ∀ kind, Replies s .fetch (b.answer front) (r kind) := by
  obtain ⟨looked, b₁, hlook, hlater₁, hlooked⟩ := h.complete hsome .look
  obtain ⟨t, hrun, ht, hnotes⟩ := hlook.run_eq
  have hfront : front + stepFor .look s.2.2 = front := by
    unfold stepFor
    rw [Kind.step, ite_self, UInt64.add_zero]
  rw [hfront] at ht
  obtain ⟨took, b₂, htake, hlater₂, htook⟩ := ht.complete (hlater₁.head ▸ hsome) .take
  refine ⟨Kind.choose looked took, b₂, ?_, hlater₁.trans hlater₂, ?_⟩
  · refine Step.ends_bind_of_run hrun (htake.mono fun u hu => ⟨?_, ?_, ?_⟩)
    · rw [hnotes.queue, stepFor_setFront, hnoted.stepFor_take] at hu
      exact hu.1
    · exact hu.2.faults.trans hnotes.faults
    · rw [hu.2.queue, hnotes.slotOf, slotOf_settleSlot, hnotes.queue, settleSlot_setFront]
      rfl
  · rintro (_ | _)
    · exact hlooked
    · rw [← hlater₁.answer_eq]
      exact htook.of_sublist hnotes.faults

theorem completeWaiters_run_of_none (hnone : ∀ id, ¬s.2.2.Waits id) :
    Queue.completeWaiters.run s = (.ok (), s) :=
  (Step.run_bind_of_run (complete_run_of_none (pending?_eq_none_of_not_waits hnone _))).trans
    (complete_run_of_none (pending?_eq_none_of_not_waits hnone _))

-- Whether or not there is an item, if somebody waits only with one there.
theorem Shows.serve (h : Shows dir base s b front) (hnoted : s.2.2.Noted)
    (hwaits : ∀ id, s.2.2.Waits id → front ≠ b.head) :
    ∃ r b', Step.Ends Queue.completeWaiters s (.ok ()) (fun t =>
        Shows dir base t b' (front + stepFor .take s.2.2) ∧ Notes s t (s.2.2.served r)) ∧
      b.Later b' ∧ ∀ kind, Replies s .fetch (b.answer front) (r kind) := by
  by_cases hsome : front = b.head
  · have hnone : ∀ id, ¬s.2.2.Waits id := fun id hid => hwaits id hid hsome
    have hstep : stepFor .take s.2.2 = 0 := by
      unfold stepFor
      rw [pending?_eq_none_of_not_waits hnone]
      rfl
    refine ⟨fun _ => b.answer front, b, ?_, .refl, fun _ => .inl rfl⟩
    refine Step.Ends.of_run_eq (completeWaiters_run_of_none hnone) (Step.ends_pure ⟨?_, ?_⟩)
    · rwa [hstep, UInt64.add_zero]
    · rw [served_of_not_waits hnone]
      exact (Spares.refl s).notes
  · exact h.completeWaiters hsome hnoted

-- What is there to be read when a payload has come and somebody has waited for it: the payload, if the
-- log has an index for it.
theorem answer_append (hfits : payload.length ≤ b.dataPageSize)
    (hle : b.dataPageSize ≤ Log.maxDataPageSize) (hroom : b.head - b.tail + 1 ≠ 0) :
    (b.append payload).answer b.head = .ok payload := by
  have hin : (b.append payload).contains b.head = true := by
    show decide (b.head - b.tail < b.head + 1 - b.tail) = true
    rw [decide_eq_true_iff]
    have hnext : b.head + 1 - b.tail = b.head - b.tail + 1 := by grind
    rw [hnext, UInt64.lt_iff_toNat_lt]
    have htoNat := UInt64.toNat_add (b.head - b.tail) 1
    have hne : (b.head - b.tail + 1).toNat ≠ 0 := fun hzero => hroom (UInt64.toNat_inj.mp hzero)
    have hlt := UInt64.toNat_lt (b.head - b.tail)
    simp only [UInt64.toNat_one] at htoNat
    omega
  rw [Log.Books.answer, if_pos hin, Log.Books.fetch_append_head hfits hle]

-- An item that is refused leaves everything as it is; one that comes serves all who wait.
theorem Shows.enqueue (h : Shows dir base s b front) (hattended : s.2.2.Attended front b.head)
    (payload : Bytes) :
    (∃ e, Step.Ends (Queue.onStore (Store.append payload)) s (.error e) (fun _ => True) ∧
        Step.Ends (Queue.enqueue payload) s (.error e) fun t =>
          Shows dir base t b front ∧ Spares s t) ∨
      payload.length ≤ b.dataPageSize ∧
        Step.Ends (Queue.onStore (Store.append payload)) s (.ok b.head) (fun _ => True) ∧
        ∃ r b', Step.Ends (Queue.enqueue payload) s (.ok ()) (fun t =>
            Shows dir base t b' (front + stepFor .take s.2.2) ∧ Notes s t (s.2.2.served r)) ∧
          (b.append payload).Later b' ∧
          ∀ kind, Replies s .fetch ((b.append payload).answer front) (r kind) := by
  have herror : ∀ e, Step.Ends (Queue.onStore (Store.append payload)) s (.error e) (fun t =>
      Shows dir base t b front ∧ Spares s t) → Step.Ends (Queue.enqueue payload) s (.error e) fun t =>
        Shows dir base t b front ∧ Spares s t :=
    fun e hends => h.expectOpen_bind hends.discard.bind_error
  by_cases hfits : payload.length ≤ b.dataPageSize
  · rcases h.onStore .append (h.log.append hfits) with hends | ⟨fault, -, hends⟩
    · obtain ⟨t, hrun, ht, hspares⟩ := hends.discard.run_eq
      refine .inr ⟨hfits, hends.mono fun _ _ => trivial, ?_⟩
      have hqueue := hspares.queue
      have hwaits : ∀ id, t.2.2.Waits id → front ≠ (b.append payload).head := by
        intro id hid
        rw [hqueue] at hid
        rw [hattended.idle hid]
        exact fun hsame => absurd (UInt64.left_eq_add.mp hsame) (by decide)
      obtain ⟨r, b', hserve, hlater, hreplies⟩ :=
        ht.serve (hqueue ▸ hattended.toNoted.setFront _) hwaits
      refine ⟨r, b', h.expectOpen_bind (Step.ends_bind_of_run hrun (hserve.mono fun u hu => ⟨?_, ?_⟩)),
        hlater, fun kind => (hreplies kind).of_sublist hspares.faults⟩
      · rw [← stepFor_setFront .take s.2.2 t.2.2.front, ← hqueue]
        exact hu.1
      · refine ⟨hu.2.faults.trans hspares.faults, ?_⟩
        rw [hu.2.queue, hqueue, served_setFront]
    · exact .inl ⟨_, hends.mono fun _ _ => trivial, herror _ hends⟩
  · have htooLarge : Step.Ends (Log.append payload) (s.1, s.2.1.log)
        (.error (.itemTooLarge payload.length b.dataPageSize)) fun t =>
          Log.Leads dir base (s.1, s.2.1.log) t b := by
      refine (h.log.append_tooLarge (Nat.lt_of_not_le hfits)).mono ?_
      rintro _ rfl
      exact h.log.leads
    rcases h.onStore .append htooLarge with hends | ⟨fault, -, hends⟩
    · exact .inl ⟨_, hends.mono fun _ _ => trivial, herror _ hends⟩
    · exact .inl ⟨_, hends.mono fun _ _ => trivial, herror _ hends⟩

def Kind.ask : Kind → Action SlotId
  | look => Queue.peekAsync
  | take => Queue.dequeueAsync

theorem ask_eq (kind : Kind) :
    kind.ask = (do
      expectOpen
      let id ← pendingSlot (slotOf kind) (note kind)
      settle id kind.read
      return id) := by
  cases kind <;> rfl

theorem pendingSlot_run (kind : Kind) (s : Host × Store × Queue) :
    (pendingSlot (slotOf kind) (note kind)).run s =
      (.ok (asked kind s.2.2).1, s.1, s.2.1, (asked kind s.2.2).2) := by
  obtain ⟨host, st, q⟩ := s
  unfold pendingSlot asked
  rw [Step.run_bind_of_run (Step.run_get _)]
  cases hpending : q.pending? (slotOf kind q) with
  | none =>
      simp only [hpending]
      rfl
  | some id =>
      simp only [hpending]
      rfl

theorem front_asked (kind : Kind) (q : Queue) :
    (asked kind q).2.front = q.front ∧ (asked kind q).2.closed = q.closed := by
  unfold asked
  split
  · exact ⟨rfl, rfl⟩
  · cases kind <;> exact ⟨rfl, rfl⟩

private theorem Shows.ends_ask {post : Host × Store × Queue → Prop} (h : Shows dir base s b front)
    (kind : Kind) (hsettle : ∀ t, t = (s.1, s.2.1, (asked kind s.2.2).2) → Shows dir base t b front →
      Step.Ends (settle (asked kind s.2.2).1 kind.read) t (.ok ()) post) :
    Step.Ends kind.ask s (.ok (asked kind s.2.2).1) post := by
  rw [ask_eq]
  refine h.expectOpen_bind (Step.ends_bind_of_run (pendingSlot_run kind s) ?_)
  have hasked := h.setQueue (front_asked kind s.2.2).1 (front_asked kind s.2.2).2
  exact (hsettle _ rfl hasked).bind fun t ht => Step.ends_pure ht

theorem Shows.ask_absent (h : Shows dir base s b front) (hnone : front = b.head) (kind : Kind) :
    Step.Ends kind.ask s (.ok (asked kind s.2.2).1) fun t =>
      Shows dir base t b front ∧ Notes s t (asked kind s.2.2).2 := by
  refine h.ends_ask kind ?_
  rintro _ rfl hasked
  exact (hasked.settle_absent hnone kind _).mono fun t ht => ⟨ht.1, ht.2.faults, ht.2.queue⟩

theorem Shows.ask_present (h : Shows dir base s b front) (hsome : front ≠ b.head) (kind : Kind) :
    ∃ r b', Step.Ends kind.ask s (.ok (asked kind s.2.2).1) (fun t =>
        Shows dir base t b' (front + kind.step) ∧ Notes s t
          ((asked kind s.2.2).2.modifySlot (asked kind s.2.2).1 fun slot => slot.settle (r.map some))) ∧
      b.Later b' ∧ Replies s .fetch (b.answer front) r := by
  have hasked := h.setQueue (front_asked kind s.2.2).1 (front_asked kind s.2.2).2
  obtain ⟨r, b', hsettle, hlater, hreplies⟩ := hasked.settle_present hsome kind (asked kind s.2.2).1
  refine ⟨r, b', h.ends_ask kind ?_, hlater, hreplies⟩
  rintro _ rfl -
  exact hsettle.mono fun t ht => ⟨ht.1, ht.2.faults, ht.2.queue⟩

end

end Spool.Queue
