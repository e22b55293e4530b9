import Spool.Proofs.Queue.Calls

namespace Spool

-- What a slot gets from a read that was not in vain.
def Outcome.ofRead : Except Error Bytes → Outcome
  | .ok bs => .payload bs
  | .error e => .failed e

theorem Slot.settle_pending (wakers : List Waker) (r : Except Error Bytes) :
    (pending wakers).settle (r.map some) = finished (.ofRead r) wakers := by
  cases r <;> rfl

theorem Slot.settle_finished (outcome : Outcome) (woken : List Waker)
    (r : Except Error (Option Bytes)) : (finished outcome woken).settle r = finished outcome woken := by
  rcases r with e | _ | payload <;> rfl

namespace Queue

-- What somebody wants with an item: to look at it or to take it.
inductive Kind where
  | look
  | take
deriving DecidableEq

def Kind.read : Kind → Action (Option Bytes)
  | look => Queue.peek
  | take => Queue.dequeue

-- What is for the one kind and what for the other.
def Kind.choose (looked took : α) : Kind → α
  | look => looked
  | take => took

-- How far the front goes.
def Kind.step : Kind → UInt64
  | look => 0
  | take => 1

-- The slot that was last set up for a kind.
def slotOf : Kind → Queue → Option SlotId
  | .look, q => q.peekSlot
  | .take, q => q.dequeueSlot

def note : Kind → SlotId → Queue → Queue
  | .look, id, q => { q with peekSlot := some id }
  | .take, id, q => { q with dequeueSlot := some id }

def Waits (q : Queue) (id : SlotId) : Prop :=
  ∃ wakers, q.slot? id = some (.pending wakers)

section

variable {q : Queue} {id other : SlotId} {id? : Option SlotId} {f : Slot → Slot}

theorem pending?_eq_some_iff : q.pending? id? = some id ↔ id? = some id ∧ q.Waits id := by
  cases id? with
  | none => simp [pending?]
  | some this =>
      unfold pending?
      simp only
      split
      · next wakers hslot =>
        constructor
        · rintro ⟨⟩
          exact ⟨rfl, wakers, hslot⟩
        · rintro ⟨hid, -⟩
          exact hid
      · next hnot =>
        constructor
        · rintro ⟨⟩
        · rintro ⟨⟨⟩, wakers, hslot⟩
          exact absurd hslot (hnot wakers)

theorem not_waits_of_pending?_eq_none (h : q.pending? id? = none) (hid : id? = some id) :
    ¬q.Waits id := by
  intro hwaits
  rw [pending?_eq_some_iff.mpr ⟨hid, hwaits⟩] at h
  cases h

theorem slot?_modifySlot (q : Queue) (id other : SlotId) (f : Slot → Slot) :
    (q.modifySlot id f).slot? other = if id = other then (q.slot? other).map f else q.slot? other :=
  Array.getElem?_modify

theorem size_slots_modifySlot (q : Queue) (id : SlotId) (f : Slot → Slot) :
    (q.modifySlot id f).slots.size = q.slots.size :=
  Array.size_modify

-- Only the slot that is changed can begin or cease to wait.
theorem waits_modifySlot_iff (h : id ≠ other) : (q.modifySlot id f).Waits other ↔ q.Waits other := by
  unfold Waits
  rw [slot?_modifySlot, if_neg h]

theorem not_waits_settled (q : Queue) (id : SlotId) (r : Except Error Bytes) :
    ¬(q.modifySlot id fun slot => slot.settle (r.map some)).Waits id := by
  rintro ⟨wakers, hslot⟩
  rw [slot?_modifySlot, if_pos rfl, Option.map_eq_some_iff] at hslot
  obtain ⟨slot, -, hslot⟩ := hslot
  cases slot with
  | pending _ =>
      rw [Slot.settle_pending] at hslot
      cases hslot
  | finished _ _ =>
      rw [Slot.settle_finished] at hslot
      cases hslot

-- A read that found nothing changes no slot.
theorem modifySlot_settle_none (q : Queue) (id : SlotId) :
    q.modifySlot id (fun slot => slot.settle (.ok none)) = q := by
  have hslots : q.slots.modify id (fun slot => slot.settle (.ok none)) = q.slots := by
    apply Array.ext_getElem?
    intro i
    rw [Array.getElem?_modify]
    split
    · exact Option.map_id'
    · rfl
  unfold modifySlot
  rw [hslots]

-- Gives an outcome to a slot if it is pending.
def settleSlot (q : Queue) (id? : Option SlotId) (r : Except Error Bytes) : Queue :=
  match q.pending? id? with
  | none => q
  | some id => q.modifySlot id fun slot => slot.settle (r.map some)

theorem map_settle_of_not_waits (h : ¬q.Waits id) (r : Except Error Bytes) :
    (q.slot? id).map (fun slot => slot.settle (r.map some)) = q.slot? id := by
  cases hslot : q.slot? id with
  | none => rfl
  | some slot =>
      cases slot with
      | pending wakers => exact absurd ⟨wakers, hslot⟩ h
      | finished _ _ => rw [Option.map_some, Slot.settle_finished]

theorem slot?_settleSlot (q : Queue) (id? : Option SlotId) (r : Except Error Bytes) (other : SlotId) :
    (q.settleSlot id? r).slot? other =
      if id? = some other then (q.slot? other).map fun slot => slot.settle (r.map some)
      else q.slot? other := by
  unfold settleSlot
  split
  · next hpending =>
    split
    · next hid => rw [map_settle_of_not_waits (not_waits_of_pending?_eq_none hpending hid)]
    · rfl
  · next id hpending =>
    obtain ⟨rfl, -⟩ := pending?_eq_some_iff.mp hpending
    simp only [slot?_modifySlot, Option.some.injEq]

@[simp] theorem slotOf_settleSlot (kind : Kind) (q : Queue) (id? : Option SlotId)
    (r : Except Error Bytes) : slotOf kind (q.settleSlot id? r) = slotOf kind q := by
  unfold settleSlot
  cases kind <;> split <;> rfl

@[simp] theorem size_slots_settleSlot (q : Queue) (id? : Option SlotId) (r : Except Error Bytes) :
    (q.settleSlot id? r).slots.size = q.slots.size := by
  unfold settleSlot
  split
  · rfl
  · exact size_slots_modifySlot _ _ _

-- Everybody who waits is served, those who only look first.
def served (q : Queue) (r : Kind → Except Error Bytes) : Queue :=
  (q.settleSlot (slotOf .look q) (r .look)).settleSlot (slotOf .take q) (r .take)

@[simp] theorem slotOf_served (kind : Kind) (q : Queue) (r : Kind → Except Error Bytes) :
    slotOf kind (q.served r) = slotOf kind q := by
  simp [served]

@[simp] theorem size_slots_served (q : Queue) (r : Kind → Except Error Bytes) :
    (q.served r).slots.size = q.slots.size := by
  simp [served]

-- Which slots are noted: every one that is pending, each for one kind.
structure Noted (q : Queue) : Prop where
  noted : ∀ {id}, q.Waits id → ∃ kind, slotOf kind q = some id
  apart : ∀ {kind other id}, slotOf kind q = some id → slotOf other q = some id → kind = other
  known : ∀ {kind id}, slotOf kind q = some id → id < q.slots.size

-- A slot is pending only while there is no item.
structure Attended (q : Queue) (front head : UInt64) : Prop extends Noted q where
  idle : ∀ {id}, q.Waits id → front = head

section

variable {kind : Kind} {front head front' head' : UInt64} {r : Kind → Except Error Bytes}

-- With an item there, nobody waits.
theorem Attended.not_waits (h : q.Attended front head) (hne : front ≠ head) (id : SlotId) :
    ¬q.Waits id :=
  fun hwaits => hne (h.idle hwaits)

theorem Noted.attended (h : q.Noted) (hnone : ∀ id, ¬q.Waits id) : q.Attended front head :=
  ⟨h, fun hwaits => absurd hwaits (hnone _)⟩

theorem Noted.slot?_served (h : q.Noted) {wakers : List Waker}
    (hkind : slotOf kind q = some id) (hslot : q.slot? id = some (.pending wakers)) :
    (q.served r).slot? id = some (.finished (.ofRead (r kind)) wakers) := by
  unfold served
  rw [slot?_settleSlot, slot?_settleSlot, hslot]
  cases kind with
  | look =>
      have hother : slotOf .take q ≠ some id := fun htake => Kind.noConfusion (h.apart htake hkind)
      rw [if_neg hother, if_pos hkind, Option.map_some, Slot.settle_pending]
  | take =>
      have hother : slotOf .look q ≠ some id := fun hlook => Kind.noConfusion (h.apart hlook hkind)
      rw [if_pos hkind, if_neg hother, Option.map_some, Slot.settle_pending]

theorem slot?_served_of_not_waits (h : ¬q.Waits id) (r : Kind → Except Error Bytes) :
    (q.served r).slot? id = q.slot? id := by
  have hlooked : (q.settleSlot (slotOf .look q) (r .look)).slot? id = q.slot? id := by
    rw [slot?_settleSlot, map_settle_of_not_waits h, ite_self]
  unfold served
  rw [slot?_settleSlot, hlooked, map_settle_of_not_waits h, ite_self]

theorem Noted.not_waits_served (h : q.Noted) (id : SlotId) : ¬(q.served r).Waits id := by
  rintro ⟨wakers, hslot⟩
  by_cases hwaits : q.Waits id
  · obtain ⟨kind, hkind⟩ := h.noted hwaits
    obtain ⟨before, hbefore⟩ := hwaits
    cases hslot.symm.trans (h.slot?_served hkind hbefore)
  · rw [slot?_served_of_not_waits hwaits] at hslot
    exact hwaits ⟨wakers, hslot⟩

theorem Noted.served (h : q.Noted) (r : Kind → Except Error Bytes) : (q.served r).Noted where
  noted hwaits := absurd hwaits (h.not_waits_served _)
  apart hkind hother := by
    rw [slotOf_served] at hkind hother
    exact h.apart hkind hother
  known hkind := by
    rw [slotOf_served] at hkind
    rw [size_slots_served]
    exact h.known hkind

end

-- The slot that somebody gets who asks, and what is noted then.
def asked (kind : Kind) (q : Queue) : SlotId × Queue :=
  match q.pending? (slotOf kind q) with
  | some id => (id, q)
  | none => (q.slots.size, note kind q.slots.size q.addSlot.2)

section

variable {kind : Kind}

-- Where the front is kept does not matter.
theorem slotOf_setFront (kind : Kind) (q : Queue) (front : Cache) :
    slotOf kind { q with front } = slotOf kind q := by
  cases kind <;> rfl

theorem Noted.setFront (h : q.Noted) (front : Cache) : ({ q with front } : Queue).Noted where
  noted hwaits := by
    obtain ⟨kind, hkind⟩ := h.noted hwaits
    exact ⟨kind, (slotOf_setFront _ _ _).trans hkind⟩
  apart hone hother := by
    rw [slotOf_setFront] at hone hother
    exact h.apart hone hother
  known hkind := by
    rw [slotOf_setFront] at hkind
    exact h.known hkind

theorem settleSlot_setFront (q : Queue) (front : Cache) (id? : Option SlotId)
    (r : Except Error Bytes) :
    ({ q with front } : Queue).settleSlot id? r = { q.settleSlot id? r with front } := by
  have hpending : ({ q with front } : Queue).pending? id? = q.pending? id? := rfl
  unfold settleSlot
  rw [hpending]
  cases q.pending? id? <;> rfl

theorem served_setFront (q : Queue) (front : Cache) (r : Kind → Except Error Bytes) :
    ({ q with front } : Queue).served r = { q.served r with front } := by
  unfold served
  rw [slotOf_setFront .look q front, slotOf_setFront .take q front, settleSlot_setFront q front,
    settleSlot_setFront _ front]

theorem pending?_eq_none_of_not_waits (h : ∀ id, ¬q.Waits id) (id? : Option SlotId) :
    q.pending? id? = none := by
  apply Option.eq_none_iff_forall_ne_some.mpr
  intro id hsome
  exact h id (pending?_eq_some_iff.mp hsome).2

theorem served_of_not_waits (h : ∀ id, ¬q.Waits id) (r : Kind → Except Error Bytes) :
    q.served r = q := by
  have hsettle : ∀ id? r, q.settleSlot id? r = q := by
    intro id? r
    unfold settleSlot
    rw [pending?_eq_none_of_not_waits h]
  unfold served
  rw [hsettle, hsettle]

theorem slotOf_modifySlot (kind : Kind) (q : Queue) (id : SlotId) (f : Slot → Slot) :
    slotOf kind (q.modifySlot id f) = slotOf kind q := by
  cases kind <;> rfl

theorem Noted.modifySlot (h : q.Noted)
    (hwaits : ∀ {other}, (q.modifySlot id f).Waits other → q.Waits other) :
    (q.modifySlot id f).Noted where
  noted hother := by
    obtain ⟨kind, hkind⟩ := h.noted (hwaits hother)
    exact ⟨kind, (slotOf_modifySlot _ _ _ _).trans hkind⟩
  apart hone hother := by
    rw [slotOf_modifySlot] at hone hother
    exact h.apart hone hother
  known hkind := by
    rw [slotOf_modifySlot] at hkind
    rw [size_slots_modifySlot]
    exact h.known hkind

theorem waits_poll_iff (q : Queue) (id : SlotId) (waker : Waker) :
    (q.modifySlot id fun slot => (slot.poll waker).2).Waits other ↔ q.Waits other := by
  by_cases hid : id = other
  · unfold Waits
    rw [slot?_modifySlot, if_pos hid]
    rcases q.slot? other with _ | ⟨wakers⟩ | ⟨outcome, woken⟩ <;> simp [Slot.poll]
  · exact waits_modifySlot_iff hid

theorem slotOf_note_addSlot (kind other : Kind) (q : Queue) :
    slotOf other (note kind q.slots.size q.addSlot.2) =
      if other = kind then some q.slots.size else slotOf other q := by
  cases kind <;> cases other <;> rfl

theorem slot?_note_addSlot (kind : Kind) (q : Queue) (id : SlotId) :
    (note kind q.slots.size q.addSlot.2).slot? id =
      if id = q.slots.size then some .fresh else q.slot? id := by
  have hpush : (note kind q.slots.size q.addSlot.2).slot? id = (q.slots.push .fresh)[id]? := by
    cases kind <;> rfl
  rw [hpush, Array.getElem?_push]
  rfl

theorem size_slots_note_addSlot (kind : Kind) (q : Queue) :
    (note kind q.slots.size q.addSlot.2).slots.size = q.slots.size + 1 := by
  cases kind <;> exact Array.size_push _

-- Whoever asks waits, and so does everybody who did before.
theorem waits_asked_iff : (asked kind q).2.Waits id ↔ q.Waits id ∨ id = (asked kind q).1 := by
  unfold asked
  split
  · next this hpending =>
    refine ⟨.inl, ?_⟩
    rintro (hwaits | rfl)
    · exact hwaits
    · exact (pending?_eq_some_iff.mp hpending).2
  · simp only [Waits, slot?_note_addSlot]
    by_cases hid : id = q.slots.size
    · simp [hid, Slot.fresh]
    · simp [hid]

-- Whoever asks when nobody waits, and is served, leaves nobody waiting.
theorem not_waits_settle_asked (hnone : ∀ id, ¬q.Waits id) (kind : Kind) (r : Except Error Bytes)
    (other : SlotId) :
    ¬((asked kind q).2.modifySlot (asked kind q).1 fun slot => slot.settle (r.map some)).Waits
      other := by
  by_cases hid : (asked kind q).1 = other
  · exact hid ▸ not_waits_settled _ _ r
  · rw [waits_modifySlot_iff hid, waits_asked_iff]
    rintro (hwaits | rfl)
    · exact hnone _ hwaits
    · exact hid rfl

theorem Noted.asked (h : q.Noted) (kind : Kind) : (asked kind q).2.Noted := by
  unfold Queue.asked
  split
  · exact h
  · next hpending =>
    have hnew : ∀ {other id}, slotOf other q = some id → id ≠ q.slots.size :=
      fun hother => Nat.ne_of_lt (h.known hother)
    constructor
    · rintro id ⟨wakers, hslot⟩
      rw [slot?_note_addSlot] at hslot
      split at hslot
      · next hid => exact ⟨kind, by rw [slotOf_note_addSlot, if_pos rfl, hid]⟩
      · obtain ⟨other, hother⟩ := h.noted ⟨wakers, hslot⟩
        refine ⟨other, ?_⟩
        rw [slotOf_note_addSlot, if_neg, hother]
        rintro rfl
        exact not_waits_of_pending?_eq_none hpending hother ⟨wakers, hslot⟩
    · intro one other id hone hother
      rw [slotOf_note_addSlot] at hone hother
      split at hone <;> split at hother
      · next hone' hother' => rw [hone', hother']
      · cases hone
        exact absurd rfl (hnew hother)
      · cases hother
        exact absurd rfl (hnew hone)
      · exact h.apart hone hother
    · intro other id hother
      rw [slotOf_note_addSlot] at hother
      rw [size_slots_note_addSlot]
      split at hother
      · cases hother
        exact Nat.lt_succ_self _
      · exact Nat.lt_succ_of_lt (h.known hother)

end

end

end Queue

end Spool
