import Spool.Proofs.Queue.Deliveries
import Spool.Proofs.Queue.Moves

namespace Spool.Queue

-- What a run has brought to whoever makes it. Only what can be seen from outside is noted, so that the front
-- and what was handed out can be held against each other.
structure Account where
  -- How many items were waiting at first.
  before : Nat
  accepted : List Bytes
  -- How often the queue was emptied.
  era : Nat
  handed : List (Kind × SlotId)
  deliveries : List Delivery

-- What a slot tells those who ask it.
def told (s : Host × Store × Queue) (id : SlotId) : Option (Except Error Bytes) :=
  (s.2.2.slot? id).bind Slot.result?

def frontOf (s : Host × Store × Queue) : UInt64 :=
  match (frontIndex.run s).1 with
  | .ok front => front
  | .error _ => 0

namespace Account

-- The account of a queue that has not been used yet.
def start (s : Host × Store × Queue) : Account where
  before := (s.2.1.head - frontOf s).toNat
  accepted := []
  era := 0
  handed := []
  deliveries := []

def items (a : Account) : Nat :=
  a.before + a.accepted.length

-- The item that is at the front.
def next (a : Account) (s : Host × Store × Queue) : Nat :=
  a.items - (s.2.1.head - frontOf s).toNat

def delivery (a : Account) (s : Host × Store × Queue) (slot : Option SlotId)
    (result : Except Error Bytes) : Delivery :=
  ⟨a.next s, frontOf s, a.era, slot, result⟩

def hand (a : Account) : Effect → List (Kind × SlotId)
  | .handed kind id => a.handed.insert (kind, id)
  | _ => a.handed

-- What a slot for taking an item got between two states.
def gain (s t : Host × Store × Queue) (slot : Kind × SlotId) : Option (SlotId × Except Error Bytes) :=
  if slot.1 = .take ∧ told s slot.2 = none then (told t slot.2).map fun result => (slot.2, result)
  else none

-- What a caller got.
def took (a : Account) (s : Host × Store × Queue) : Effect → List Delivery
  | .taken result => [a.delivery s none result]
  | _ => []

-- Who got an item between two states, and what they were told.
def news (a : Account) (s t : Host × Store × Queue) (effect : Effect) : List Delivery :=
  a.took s effect ++
    ((a.hand effect).filterMap (gain s t)).map fun gained => a.delivery s (some gained.1) gained.2

def record (a : Account) (s t : Host × Store × Queue) (effect : Effect) : Account where
  before := a.before
  accepted := match effect with
    | .accepted payload => a.accepted ++ [payload]
    | _ => a.accepted
  era := match effect with
    | .cleared => a.era + 1
    | _ => a.era
  handed := a.hand effect
  deliveries := a.deliveries ++ a.news s t effect

-- What a move adds to an account.
def step (a : Account) (s : Host × Store × Queue) (m : Move) : Account :=
  a.record s (m.perform.run s).2 (m.effect (m.perform.run s).1)

def after : List Move → Host × Store × Queue → Account → Account
  | [], _, a => a
  | m :: ms, s, a => after ms (m.act.run s).2 (a.step s m)

end Account

section

variable {dir : Path} {base : Location} {s t : Host × Store × Queue} {b b' : Log.Books}
  {front front' : UInt64} {effect : Effect} {a : Account} {id : SlotId} {kind : Kind}
  {handed : List (Kind × SlotId)}

theorem Shows.frontOf_eq (h : Shows dir base s b front) : frontOf s = front := by
  unfold frontOf
  rw [h.frontIndex.1]

theorem told_eq_none_of_waits (h : s.2.2.Waits id) : told s id = none := by
  obtain ⟨wakers, hslot⟩ := h
  unfold told
  rw [hslot]
  rfl

-- A slot that is not there yet tells nothing.
theorem told_size (s : Host × Store × Queue) : told s s.2.2.slots.size = none := by
  rw [told, slot?, Array.getElem?_eq_none (Nat.le_refl _)]
  rfl

namespace Account

theorem gain_eq_none {slot : Kind × SlotId}
    (h : slot.1 = .take → told s slot.2 = none → told t slot.2 = none) : gain s t slot = none := by
  unfold gain
  split
  · next hboth =>
    rw [h hboth.1 hboth.2]
    rfl
  · rfl

theorem gain_eq_some {result : Except Error Bytes} (hbefore : told s id = none)
    (hafter : told t id = some result) : gain s t (.take, id) = some (id, result) := by
  unfold gain
  rw [if_pos ⟨rfl, hbefore⟩, hafter]
  rfl

-- One slot gained, and no other.
theorem filterMap_gain_eq {result : Except Error Bytes} (hnodup : handed.Nodup)
    (hmem : (Kind.take, id) ∈ handed) (hgain : gain s t (.take, id) = some (id, result))
    (hothers : ∀ slot ∈ handed, slot ≠ (.take, id) → gain s t slot = none) :
    handed.filterMap (gain s t) = [(id, result)] := by
  induction handed with
  | nil => cases hmem
  | cons first rest ih =>
      obtain ⟨hnot, hnodup⟩ := List.nodup_cons.mp hnodup
      have hrest : ∀ slot ∈ rest, slot ≠ (.take, id) → gain s t slot = none :=
        fun slot hslot => hothers slot (List.mem_cons_of_mem _ hslot)
      by_cases hfirst : first = (.take, id)
      · have hnil : rest.filterMap (gain s t) = [] := by
          refine List.filterMap_eq_nil_iff.mpr fun slot hslot => hrest slot hslot ?_
          rintro rfl
          exact hnot (hfirst ▸ hslot)
        rw [hfirst, List.filterMap_cons_some hgain, hnil]
      · have hlater : (Kind.take, id) ∈ rest :=
          (List.mem_cons.mp hmem).resolve_left fun hsame => hfirst hsame.symm
        rw [List.filterMap_cons_none (hothers first (List.mem_cons_self ..) hfirst)]
        exact ih hnodup hlater hrest

end Account

-- What was handed out agrees with what is noted of those who wait.
structure Handed (handed : List (Kind × SlotId)) (q : Queue) : Prop where
  nodup : handed.Nodup
  apart : ∀ {kind other id}, (kind, id) ∈ handed → (other, id) ∈ handed → kind = other
  known : ∀ {kind id}, (kind, id) ∈ handed → id < q.slots.size
  waits : ∀ {kind id}, (kind, id) ∈ handed → q.Waits id → slotOf kind q = some id
  noted : ∀ {kind id}, slotOf kind q = some id → (kind, id) ∈ handed

section

variable {q q' : Queue}

theorem Handed.of_slots (h : Handed handed q) (hsize : q.slots.size ≤ q'.slots.size)
    (hslot : ∀ kind, slotOf kind q' = slotOf kind q) (hwaits : ∀ {id}, q'.Waits id → q.Waits id) :
    Handed handed q' where
  nodup := h.nodup
  apart := h.apart
  known hmem := Nat.lt_of_lt_of_le (h.known hmem) hsize
  waits hmem hid := (hslot _).trans (h.waits hmem (hwaits hid))
  noted hnoted := h.noted ((hslot _).symm.trans hnoted)

theorem Handed.setFront (h : Handed handed q) (front : Cache) : Handed handed { q with front } :=
  h.of_slots (Nat.le_refl _) (fun kind => slotOf_setFront kind q front) id

-- A slot that was not there before.
private theorem Handed.cons (h : Handed handed q) (hpending : q.pending? (slotOf kind q) = none) :
    Handed ((kind, q.slots.size) :: handed) (note kind q.slots.size q.addSlot.2) := by
  have hwaits : ∀ id, (Queue.asked kind q).2.Waits id ↔ q.Waits id ∨ id = (Queue.asked kind q).1 :=
    fun _ => waits_asked_iff
  simp only [Queue.asked, hpending] at hwaits
  have hnew : ∀ other, (other, q.slots.size) ∉ handed := fun _ hmem => Nat.lt_irrefl _ (h.known hmem)
  constructor
  case nodup => exact List.nodup_cons.mpr ⟨hnew kind, h.nodup⟩
  case apart =>
    intro one other id hone hother
    rcases List.mem_cons.mp hone with heq | hone <;> rcases List.mem_cons.mp hother with heq' | hother
    · cases heq
      cases heq'
      rfl
    · cases heq
      exact absurd hother (hnew other)
    · cases heq'
      exact absurd hone (hnew one)
    · exact h.apart hone hother
  case known =>
    intro other id hmem
    rw [size_slots_note_addSlot]
    rcases List.mem_cons.mp hmem with hnew | hmem
    · cases hnew
      exact Nat.lt_succ_self _
    · exact Nat.lt_succ_of_lt (h.known hmem)
  case waits =>
    intro other id hmem hid
    rw [slotOf_note_addSlot]
    rcases List.mem_cons.mp hmem with hnew | hmem
    · cases hnew
      rw [if_pos rfl]
    · have hold := ((hwaits id).mp hid).resolve_right (Nat.ne_of_lt (h.known hmem))
      have hslot := h.waits hmem hold
      rw [if_neg, hslot]
      rintro rfl
      exact not_waits_of_pending?_eq_none hpending hslot hold
  case noted =>
    intro other id hnoted
    rw [slotOf_note_addSlot] at hnoted
    split at hnoted
    · next hkind =>
      cases hnoted
      rw [hkind]
      exact List.mem_cons_self ..
    · exact List.mem_cons_of_mem _ (h.noted hnoted)

theorem Handed.asked (h : Handed handed q) (kind : Kind) :
    Handed (handed.insert (kind, (asked kind q).1)) (asked kind q).2 := by
  unfold Queue.asked
  cases hpending : q.pending? (slotOf kind q) with
  | some id =>
      show Handed (handed.insert (kind, id)) q
      rw [List.insert_of_mem (h.noted (pending?_eq_some_iff.mp hpending).1)]
      exact h
  | none =>
      have hnew : (kind, q.slots.size) ∉ handed := fun hmem => Nat.lt_irrefl _ (h.known hmem)
      show Handed (handed.insert (kind, q.slots.size)) (note kind q.slots.size q.addSlot.2)
      rw [List.insert_of_not_mem hnew]
      exact h.cons hpending

end

-- Where an item went: to a caller, or to a slot that was handed out and had got nothing yet.
inductive Goes (handed : List (Kind × SlotId)) (s t : Host × Store × Queue) (effect : Effect) :
    Option SlotId → Except Error Bytes → Prop where
  | caller {result : Except Error Bytes} (heffect : effect = .taken result) :
    Goes handed s t effect none result
  | slot {id : SlotId} {result : Except Error Bytes} (hmem : (Kind.take, id) ∈ handed)
    (hnew : s.2.2.Waits id ∨ id = s.2.2.slots.size) (htold : told t id = some result) :
    Goes handed s t effect (some id) result

-- What is entered in an account for a turn: nothing, an item that came, an item that was handed out, or an
-- item that came and was handed out at once.
inductive Entered (a : Account) (s t : Host × Store × Queue) (b : Log.Books) (front : UInt64) :
    Effect → Account → Log.Books → UInt64 → Prop where
  | still {effect : Effect} {handed : List (Kind × SlotId)} {b' : Log.Books} (hhead : b'.head = b.head) :
    Entered a s t b front effect { a with handed } b' front
  | drop {k : Nat} (hk : k ≤ (b.head - front).toNat) :
    Entered a s t b front .dropped a b (front + UInt64.ofNat k)
  | clear : Entered a s t b front .cleared { a with era := a.era + 1 } b.removeAll 0
  | accept {payload : Bytes} {b' : Log.Books} (hhead : b'.head = b.head + 1) :
    Entered a s t b front (.accepted payload) { a with accepted := a.accepted ++ [payload] } b' front
  | deliver {effect : Effect} {handed : List (Kind × SlotId)} {b' : Log.Books} {slot : Option SlotId}
    {result : Except Error Bytes} (hsome : front ≠ b.head) (hhead : b'.head = b.head)
    (hgoes : Goes handed s t effect slot result)
    (hread : ∀ payload, result = .ok payload → b.answer front = .ok payload) :
    Entered a s t b front effect
      { a with handed, deliveries := a.deliveries ++ [a.delivery s slot result] } b' (front + 1)
  | pass {payload : Bytes} {b' : Log.Books} {slot : Option SlotId} {result : Except Error Bytes}
    (hnone : front = b.head) (hhead : b'.head = b.head + 1) (hfits : payload.length ≤ b.dataPageSize)
    (hgoes : Goes a.handed s t (.accepted payload) slot result)
    (hread : ∀ read, result = .ok read → (b.append payload).answer front = .ok read) :
    Entered a s t b front (.accepted payload)
      { a with
        accepted := a.accepted ++ [payload]
        deliveries := a.deliveries ++ [a.delivery s slot result] } b' (front + 1)

theorem Replies.said_eq {call : Call} {said : Except Error α} {x : α}
    (h : Replies s call said (.ok x)) : said = .ok x := by
  rcases h with h | ⟨fault, -, h⟩
  · exact h.symm
  · cases h

theorem Outcome.eq_ok_of_toExcept_ofRead {r : Except Error Bytes} {payload : Bytes}
    (h : (Outcome.ofRead r).toExcept = .ok payload) : r = .ok payload := by
  cases r with
  | error e => cases h
  | ok read =>
      cases h
      rfl

theorem told_of_queue {q : Queue} (h : t.2.2 = { q with front := t.2.2.front }) (id : SlotId) :
    told t id = (q.slot? id).bind Slot.result? := by
  unfold told
  rw [h]
  rfl

-- A turn that changes no outcome brings nothing to any slot.
theorem news_eq_took (a : Account) (effect : Effect) (h : ∀ id, told t id = told s id) :
    a.news s t effect = a.took s effect := by
  have hgains : (a.hand effect).filterMap (Account.gain s t) = [] := by
    refine List.filterMap_eq_nil_iff.mpr fun slot _ => Account.gain_eq_none fun _ hnone => ?_
    rw [h, hnone]
  unfold Account.news
  rw [hgains, List.map_nil, List.append_nil]

theorem told_of_not_waits {r : Kind → Except Error Bytes}
    (hqueue : t.2.2 = { s.2.2.served r with front := t.2.2.front }) (hid : ¬s.2.2.Waits id) :
    told t id = told s id := by
  rw [told_of_queue hqueue, told, slot?_served_of_not_waits hid]

theorem told_of_waits {r : Kind → Except Error Bytes} (hnoted : s.2.2.Noted)
    (hqueue : t.2.2 = { s.2.2.served r with front := t.2.2.front })
    (hkind : slotOf kind s.2.2 = some id) (hid : s.2.2.Waits id) :
    told t id = some (Outcome.ofRead (r kind)).toExcept := by
  obtain ⟨wakers, hslot⟩ := hid
  rw [told_of_queue hqueue, hnoted.slot?_served hkind hslot]
  rfl

-- Whoever waits for an item to take gets the one that comes, and nobody else gets it.
private theorem gains_served {r : Kind → Except Error Bytes} (hnoted : s.2.2.Noted)
    (hhanded : Handed handed s.2.2) (hqueue : t.2.2 = { s.2.2.served r with front := t.2.2.front }) :
    handed.filterMap (Account.gain s t) =
      match s.2.2.pending? (slotOf .take s.2.2) with
      | none => []
      | some id => [(id, (Outcome.ofRead (r .take)).toExcept)] := by
  have hrest : ∀ slot ∈ handed, (∀ id, slot = (.take, id) → ¬s.2.2.Waits id) →
      Account.gain s t slot = none := by
    rintro ⟨kind, id⟩ - hnot
    refine Account.gain_eq_none fun htake hnone => ?_
    obtain rfl : kind = .take := htake
    rw [told_of_not_waits hqueue (hnot id rfl), hnone]
  cases hpending : s.2.2.pending? (slotOf .take s.2.2) with
  | none =>
      refine List.filterMap_eq_nil_iff.mpr fun slot hslot => hrest slot hslot ?_
      rintro id rfl hid
      exact not_waits_of_pending?_eq_none hpending (hhanded.waits hslot hid) hid
  | some id =>
      obtain ⟨hkind, hid⟩ := pending?_eq_some_iff.mp hpending
      refine Account.filterMap_gain_eq hhanded.nodup (hhanded.noted hkind)
        (Account.gain_eq_some (told_eq_none_of_waits hid) (told_of_waits hnoted hqueue hkind hid)) ?_
      intro slot hmem hne
      refine hrest slot hmem ?_
      rintro other rfl hother
      have hsame := (hhanded.waits hmem hother).symm.trans hkind
      cases hsame
      exact hne rfl

theorem told_asked (kind : Kind) (q : Queue) (id : SlotId) :
    ((asked kind q).2.slot? id).bind Slot.result? = (q.slot? id).bind Slot.result? := by
  unfold asked
  split
  · rfl
  · rw [slot?_note_addSlot]
    split
    · next hnew =>
      have hnone : q.slot? id = none := Array.getElem?_eq_none (Nat.le_of_eq hnew.symm)
      rw [hnone]
      rfl
    · rfl

theorem asked_of_not_waits {q : Queue} (h : ∀ id, ¬q.Waits id) (kind : Kind) :
    asked kind q = (q.slots.size, note kind q.slots.size q.addSlot.2) := by
  unfold asked
  rw [pending?_eq_none_of_not_waits h]

theorem told_got {r : Except Error Bytes} (hnone : ∀ id, ¬s.2.2.Waits id)
    (hqueue : t.2.2 = { (asked kind s.2.2).2.modifySlot (asked kind s.2.2).1
      fun slot => slot.settle (r.map some) with front := t.2.2.front }) :
    told t s.2.2.slots.size = some (Outcome.ofRead r).toExcept := by
  rw [asked_of_not_waits hnone] at hqueue
  rw [told_of_queue hqueue, slot?_modifySlot, if_pos rfl, slot?_note_addSlot, if_pos rfl,
    Option.map_some, Slot.fresh, Slot.settle_pending]
  rfl

theorem told_of_got {r : Except Error Bytes} (hnone : ∀ id, ¬s.2.2.Waits id)
    (hqueue : t.2.2 = { (asked kind s.2.2).2.modifySlot (asked kind s.2.2).1
      fun slot => slot.settle (r.map some) with front := t.2.2.front }) (hne : id ≠ s.2.2.slots.size) :
    told t id = told s id := by
  rw [asked_of_not_waits hnone] at hqueue
  rw [told_of_queue hqueue, slot?_modifySlot, if_neg (Ne.symm hne), slot?_note_addSlot, if_neg hne]
  rfl

-- A poll changes no outcome.
theorem told_of_poll {waker : Waker} {polled : SlotId}
    (hqueue : t.2.2 = { s.2.2.modifySlot polled fun slot => (slot.poll waker).2 with
      front := t.2.2.front }) (id : SlotId) : told t id = told s id := by
  rw [told_of_queue hqueue, slot?_modifySlot, told]
  split
  · rcases s.2.2.slot? id with _ | ⟨wakers⟩ | ⟨outcome, woken⟩ <;> rfl
  · rfl

-- Whoever asks for an item to take when there is one gets it, and nobody else gets it.
private theorem gains_got {r : Except Error Bytes} (hattended : s.2.2.Attended front b.head)
    (hsome : front ≠ b.head) (hhanded : Handed handed s.2.2)
    (hqueue : t.2.2 = { (asked kind s.2.2).2.modifySlot (asked kind s.2.2).1
      fun slot => slot.settle (r.map some) with front := t.2.2.front }) :
    (handed.insert (kind, (asked kind s.2.2).1)).filterMap (Account.gain s t) =
      if kind = .take then [(s.2.2.slots.size, (Outcome.ofRead r).toExcept)] else [] := by
  have hafter := told_got (hattended.not_waits hsome) hqueue
  have hother : ∀ {id}, id ≠ s.2.2.slots.size → told t id = told s id :=
    told_of_got (hattended.not_waits hsome) hqueue
  rw [asked_of_not_waits (hattended.not_waits hsome)] at hqueue ⊢
  have hnew : (kind, s.2.2.slots.size) ∉ handed := fun hmem => Nat.lt_irrefl _ (hhanded.known hmem)
  have hrest : ∀ slot ∈ handed, Account.gain s t slot = none := by
    rintro ⟨other, id⟩ hmem
    refine Account.gain_eq_none fun _ hnone => ?_
    rw [hother (Nat.ne_of_lt (hhanded.known hmem)), hnone]
  rw [List.insert_of_not_mem hnew]
  cases kind with
  | look =>
      rw [List.filterMap_cons_none (Account.gain_eq_none fun htake => by cases htake),
        List.filterMap_eq_nil_iff.mpr hrest, if_neg Kind.noConfusion]
  | take =>
      rw [List.filterMap_cons_some (Account.gain_eq_some (told_size s) hafter),
        List.filterMap_eq_nil_iff.mpr hrest, if_pos rfl]

private theorem entered_accept {payload : Bytes} {r : Kind → Except Error Bytes}
    (hattended : s.2.2.Attended front b.head) (hhanded : Handed a.handed s.2.2)
    (hfits : payload.length ≤ b.dataPageSize) (hhead : b'.head = b.head + 1)
    (hreplies : ∀ kind, Replies s .fetch ((b.append payload).answer front) (r kind))
    (hqueue : t.2.2 = { s.2.2.served r with front := t.2.2.front }) :
    Entered a s t b front (.accepted payload) (a.record s t (.accepted payload)) b'
      (front + stepFor .take s.2.2) := by
  have hgains := gains_served hattended.toNoted hhanded hqueue
  unfold stepFor
  cases hpending : s.2.2.pending? (slotOf .take s.2.2) with
  | none =>
      simp only [hpending] at hgains
      simp only [Account.record, Account.news, Account.took, Account.hand, hgains, List.map_nil,
        List.append_nil]
      rw [if_neg (by simp), UInt64.add_zero]
      exact .accept hhead
  | some id =>
      simp only [hpending] at hgains
      obtain ⟨hkind, hid⟩ := pending?_eq_some_iff.mp hpending
      simp only [Account.record, Account.news, Account.took, Account.hand, hgains, List.map_cons,
        List.map_nil, List.nil_append]
      have htold := told_of_waits hattended.toNoted hqueue hkind hid
      refine .pass (hattended.idle hid) hhead hfits (.slot (hhanded.noted hkind) (.inl hid) htold) ?_
      intro read hread
      exact (Outcome.eq_ok_of_toExcept_ofRead hread ▸ hreplies .take).said_eq

private theorem entered_get {r : Except Error Bytes} (hattended : s.2.2.Attended front b.head)
    (hhanded : Handed a.handed s.2.2) (hsome : front ≠ b.head) (hhead : b'.head = b.head)
    (hreplies : Replies s .fetch (b.answer front) r)
    (hqueue : t.2.2 = { (asked kind s.2.2).2.modifySlot (asked kind s.2.2).1
      fun slot => slot.settle (r.map some) with front := t.2.2.front }) :
    Entered a s t b front (.handed kind (asked kind s.2.2).1)
      (a.record s t (.handed kind (asked kind s.2.2).1)) b' (front + kind.step) := by
  have hgains := gains_got hattended hsome hhanded hqueue
  cases kind with
  | look =>
      rw [if_neg Kind.noConfusion] at hgains
      simp only [Account.record, Account.news, Account.took, Account.hand, hgains, List.map_nil,
        List.append_nil]
      exact (UInt64.add_zero front).symm ▸ .still hhead
  | take =>
      rw [if_pos rfl] at hgains
      simp only [Account.record, Account.news, Account.took, Account.hand, hgains, List.map_cons,
        List.map_nil, List.nil_append]
      have htold := told_got (hattended.not_waits hsome) hqueue
      refine .deliver hsome hhead (.slot ?_ (.inr rfl) htold) ?_
      · rw [asked_of_not_waits (hattended.not_waits hsome)]
        exact List.mem_insert_self
      · intro payload hread
        exact (Outcome.eq_ok_of_toExcept_ofRead hread ▸ hreplies).said_eq

theorem Turn.entered (h : Turn s t b front effect b' front') (hattended : s.2.2.Attended front b.head)
    (hhanded : Handed a.handed s.2.2) : Entered a s t b front effect (a.record s t effect) b' front' := by
  have hsame : t.2.2 = { s.2.2 with front := t.2.2.front } → ∀ id, told t id = told s id :=
    fun hqueue id => told_of_queue hqueue id
  cases h with
  | rest hlater hqueue =>
      simp only [Account.record, news_eq_took a _ (hsame hqueue), Account.took, Account.hand,
        List.append_nil]
      exact .still hlater.head
  | poll hqueue =>
      simp only [Account.record, news_eq_took a _ (told_of_poll hqueue), Account.took, Account.hand,
        List.append_nil]
      exact .still rfl
  | collect _ hqueue =>
      simp only [Account.record, news_eq_took a _ (hsame hqueue), Account.took, Account.hand,
        List.append_nil]
      exact .still rfl
  | drop hk hqueue =>
      simp only [Account.record, news_eq_took a _ (hsame hqueue), Account.took, Account.hand,
        List.append_nil]
      exact .drop hk
  | clear hqueue =>
      simp only [Account.record, news_eq_took a _ (hsame hqueue), Account.took, Account.hand,
        List.append_nil]
      exact .clear
  | take hsome hlater hreplies hqueue =>
      simp only [Account.record, news_eq_took a _ (hsame hqueue), Account.took, Account.hand]
      refine .deliver hsome hlater.head (.caller rfl) ?_
      rintro payload rfl
      exact hreplies.said_eq
  | accept hfits hlater hreplies hqueue =>
      exact entered_accept hattended hhanded hfits hlater.head hreplies hqueue
  | wait hnone hqueue =>
      have htold : ∀ id, told t id = told s id :=
        fun id => (told_of_queue hqueue id).trans (told_asked _ _ _)
      simp only [Account.record, news_eq_took a _ htold, Account.took, Account.hand, List.append_nil]
      exact .still rfl
  | get hsome hlater hreplies hqueue =>
      exact entered_get hattended hhanded hsome hlater.head hreplies hqueue

end

end Spool.Queue
