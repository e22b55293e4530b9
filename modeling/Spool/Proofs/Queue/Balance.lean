import Spool.Proofs.Queue.Account
import Spool.Proofs.Queue.Stages

namespace Spool.Queue

-- Slots are never taken away, and one that is finished stays so.
structure Grows (q q' : Queue) : Prop where
  size_le : q.slots.size ≤ q'.slots.size
  waits : ∀ {id}, q'.Waits id → q.Waits id ∨ q.slots.size ≤ id

structure Balanced (a : Account) (q : Queue) (front head : UInt64) : Prop where
  size_le : (head - front).toNat ≤ a.items
  tallied : Tallied a.deliveries (a.items - (head - front).toNat) front a.era
  handed : Handed a.handed q
  past : ∀ d ∈ a.deliveries, ∀ id, d.slot = some id → ¬q.Waits id ∧ id < q.slots.size

section

variable {dir : Path} {base : Location} {s t : Host × Store × Queue} {b b' : Log.Books}
  {front front' : UInt64} {effect : Effect} {a a' : Account} {id : SlotId} {kind : Kind} {m : Move}
  {q q' : Queue} {slot : Option SlotId} {result : Except Error Bytes} {handed : List (Kind × SlotId)}
  {payload : Bytes}

theorem Grows.of_waits (hsize : q.slots.size ≤ q'.slots.size)
    (hwaits : ∀ {id}, q'.Waits id → q.Waits id) : Grows q q' :=
  ⟨hsize, fun hid => .inl (hwaits hid)⟩

theorem grows_asked (q : Queue) (kind : Kind) : Grows q (asked kind q).2 := by
  constructor
  · unfold asked
    split
    · exact Nat.le_refl _
    · rw [size_slots_note_addSlot]
      exact Nat.le_succ _
  · intro id hid
    rcases waits_asked_iff.mp hid with hid | rfl
    · exact .inl hid
    · unfold asked
      split
      · next hpending => exact .inl (pending?_eq_some_iff.mp hpending).2
      · exact .inr (Nat.le_refl _)

theorem Turn.grows (h : Turn s t b front effect b' front') (hattended : s.2.2.Attended front b.head) :
    Grows s.2.2 t.2.2 := by
  have hsame : ∀ cache, Grows s.2.2 { s.2.2 with front := cache } :=
    fun _ => .of_waits (Nat.le_refl _) id
  cases h with
  | rest _ hqueue => exact hqueue ▸ hsame _
  | poll hqueue =>
      rw [hqueue]
      exact .of_waits (Nat.le_of_eq (size_slots_modifySlot _ _ _).symm) (waits_poll_iff _ _ _).mp
  | collect _ hqueue => exact hqueue ▸ hsame _
  | drop _ hqueue => exact hqueue ▸ hsame _
  | clear hqueue => exact hqueue ▸ hsame _
  | take _ _ _ hqueue => exact hqueue ▸ hsame _
  | accept _ _ _ hqueue =>
      rw [hqueue]
      exact .of_waits (Nat.le_of_eq (size_slots_served _ _).symm)
        fun hid => absurd hid (hattended.toNoted.not_waits_served _)
  | @wait kind _ hqueue =>
      have hgrows := grows_asked s.2.2 kind
      rw [hqueue]
      exact ⟨hgrows.size_le, hgrows.waits⟩
  | @get kind r _ hsome _ _ hqueue =>
      rw [hqueue]
      refine .of_waits ?_ fun hid =>
        absurd hid (not_waits_settle_asked (hattended.not_waits hsome) kind r _)
      exact Nat.le_trans (grows_asked s.2.2 kind).size_le
        (Nat.le_of_eq (size_slots_modifySlot _ _ _).symm)

theorem Turn.handed_hand (h : Turn s t b front effect b' front') (hattended : s.2.2.Attended front b.head)
    (hhanded : Handed a.handed s.2.2) : Handed (a.hand effect) t.2.2 := by
  cases h with
  | rest _ hqueue => exact hqueue ▸ hhanded.setFront _
  | poll hqueue =>
      rw [hqueue]
      refine Handed.setFront (hhanded.of_slots ?_ ?_ (waits_poll_iff _ _ _).mp) _
      · exact Nat.le_of_eq (size_slots_modifySlot _ _ _).symm
      · exact fun kind => slotOf_modifySlot _ _ _ _
  | collect _ hqueue => exact hqueue ▸ hhanded.setFront _
  | drop _ hqueue => exact hqueue ▸ hhanded.setFront _
  | clear hqueue => exact hqueue ▸ hhanded.setFront _
  | take _ _ _ hqueue => exact hqueue ▸ hhanded.setFront _
  | accept _ _ _ hqueue =>
      rw [hqueue]
      refine Handed.setFront (hhanded.of_slots ?_ (fun kind => slotOf_served _ _ _) fun hid => ?_) _
      · exact Nat.le_of_eq (size_slots_served _ _).symm
      · exact absurd hid (hattended.toNoted.not_waits_served _)
  | wait _ hqueue => exact hqueue ▸ (hhanded.asked _).setFront _
  | @get kind r _ hsome _ _ hqueue =>
      rw [hqueue]
      refine Handed.setFront ((hhanded.asked kind).of_slots ?_ ?_ fun hid => ?_) _
      · exact Nat.le_of_eq (size_slots_modifySlot _ _ _).symm
      · exact fun kind => slotOf_modifySlot _ _ _ _
      · exact absurd hid (not_waits_settle_asked (hattended.not_waits hsome) kind r _)

theorem not_waits_of_told (h : told t id = some result) :
    ¬t.2.2.Waits id ∧ id < t.2.2.slots.size := by
  obtain ⟨slot, hslot, hresult⟩ := Option.bind_eq_some_iff.mp h
  refine ⟨?_, (Array.getElem?_eq_some_iff.mp hslot).1⟩
  rintro ⟨wakers, hpending⟩
  cases hslot.symm.trans hpending
  cases hresult

theorem Balanced.past_of_grows (h : Balanced a s.2.2 front b.head) (hgrows : Grows s.2.2 t.2.2) :
    ∀ d ∈ a.deliveries, ∀ id, d.slot = some id → ¬t.2.2.Waits id ∧ id < t.2.2.slots.size := by
  intro d hd id hid
  obtain ⟨hnot, hlt⟩ := h.past d hd id hid
  refine ⟨fun hwaits => ?_, Nat.lt_of_lt_of_le hlt hgrows.size_le⟩
  rcases hgrows.waits hwaits with hwaits | hle
  · exact hnot hwaits
  · exact Nat.lt_irrefl _ (Nat.lt_of_lt_of_le hlt hle)

-- Whoever gets an item has got none before.
theorem Balanced.slot_ne (h : Balanced a s.2.2 front b.head) (hgoes : Goes handed s t effect slot result) :
    ∀ d ∈ a.deliveries, ∀ id, d.slot = some id → slot ≠ some id := by
  rintro d hd id hid rfl
  obtain ⟨hnot, hlt⟩ := h.past d hd id hid
  cases hgoes with
  | slot _ hnew _ =>
    rcases hnew with hwaits | rfl
    · exact hnot hwaits
    · exact Nat.lt_irrefl _ hlt

private theorem past_append {d : Delivery} {ds : List Delivery} (hslot : d.slot = slot)
    (hgoes : Goes handed s t effect slot result)
    (hpast : ∀ d ∈ ds, ∀ id, d.slot = some id → ¬t.2.2.Waits id ∧ id < t.2.2.slots.size) :
    ∀ other ∈ ds ++ [d], ∀ id, other.slot = some id → ¬t.2.2.Waits id ∧ id < t.2.2.slots.size := by
  intro other hother id hid
  rcases List.mem_append.mp hother with hother | hother
  · exact hpast other hother id hid
  · rw [List.mem_singleton.mp hother, hslot] at hid
    subst hid
    cases hgoes with
    | slot _ _ htold => exact not_waits_of_told htold

theorem Shows.delivery_eq (h : Shows dir base s b front) (a : Account) (slot : Option SlotId)
    (result : Except Error Bytes) :
    a.delivery s slot result = ⟨a.items - (b.head - front).toNat, front, a.era, slot, result⟩ := by
  unfold Account.delivery Account.next
  rw [h.frontOf_eq, h.head_eq]

theorem Entered.balanced (h : Entered a s t b front effect a' b' front') (hshows : Shows dir base s b front)
    (hbalanced : Balanced a s.2.2 front b.head) (hgrows : Grows s.2.2 t.2.2)
    (hhanded : Handed a'.handed t.2.2) : Balanced a' t.2.2 front' b'.head := by
  have hsize := hbalanced.size_le
  have htallied := hbalanced.tallied
  have hpast := hbalanced.past_of_grows hgrows
  cases h with
  | still hhead =>
      rw [hhead]
      exact ⟨hsize, htallied, hhanded, hpast⟩
  | @drop k hk =>
      have hleft := Circle.toNat_sub_add hk
      refine ⟨?_, ?_, hhanded, hpast⟩
      · rw [hleft]
        omega
      · rw [hleft, show a.items - ((b.head - front).toNat - k) = a.items - (b.head - front).toNat + k by
          omega]
        exact htallied.skip k
  | clear =>
      have hnone : (b.removeAll.head - 0).toNat = 0 := congrArg UInt64.toNat (UInt64.sub_self 0)
      refine ⟨?_, ?_, hhanded, hpast⟩
      · rw [hnone]
        exact Nat.zero_le _
      · rw [hnone]
        exact htallied.endEra (Nat.sub_le _ _) 0
  | @accept payload b' hhead =>
      have hitems : ({ a with accepted := a.accepted ++ [payload] } : Account).items = a.items + 1 := by
        simp [Account.items, Nat.add_assoc]
      rw [hhead]
      rcases Circle.toNat_succ_sub_cases front b.head with hnext | ⟨hfull, hzero⟩
      · refine ⟨?_, ?_, hhanded, hpast⟩
        · rw [hnext, hitems]
          exact Nat.succ_le_succ hsize
        · rw [hnext, hitems, Nat.add_sub_add_right]
          exact htallied
      -- With no index left the whole window is lost from sight: the front is at the item that comes next.
      · refine ⟨?_, ?_, hhanded, hpast⟩
        · rw [hzero]
          exact Nat.zero_le _
        · have hturn := htallied.skip UInt64.size
          have hitem : a.items - (b.head - front).toNat + UInt64.size = a.items + 1 := by omega
          rw [hitem, show front + UInt64.ofNat UInt64.size = front from UInt64.add_zero front] at hturn
          rw [hzero, hitems]
          exact hturn
  | @deliver effect handed b' slot result hsome hhead hgoes _ =>
      have hleft := Circle.toNat_sub_succ hsome
      rw [hhead, hshows.delivery_eq]
      refine ⟨Nat.le_trans (by omega) hsize, ?_, hhanded, past_append rfl hgoes hpast⟩
      have hitem : a.items - (b.head - (front + 1)).toNat = a.items - (b.head - front).toNat + 1 := by
        omega
      show Tallied _ (a.items - (b.head - (front + 1)).toNat) _ _
      rw [hitem]
      exact htallied.deliver (hbalanced.slot_ne hgoes) result
  | @pass payload b' slot result hnone hhead _ hgoes _ =>
      have hitems : ∀ ds, ({ a with accepted := a.accepted ++ [payload], deliveries := ds } : Account).items
          = a.items + 1 := by
        simp [Account.items, Nat.add_assoc]
      have hslot := hbalanced.slot_ne hgoes
      rw [hhead, hshows.delivery_eq]
      rw [hnone, UInt64.sub_self] at htallied ⊢
      refine ⟨?_, ?_, hhanded, past_append rfl hgoes hpast⟩
      · rw [UInt64.sub_self]
        exact Nat.zero_le _
      · rw [UInt64.sub_self, hitems]
        exact htallied.deliver hslot result

theorem Fresh.handed_nil (h : Fresh q) : Handed [] q where
  nodup := .nil
  apart hmem := by cases hmem
  known hmem := by cases hmem
  waits hmem := by cases hmem
  noted hnoted := by
    rw [h.slotOf_eq] at hnoted
    cases hnoted

theorem balanced_start (h : Shows dir base s b front) (hfresh : Fresh s.2.2) :
    Balanced (.start s) s.2.2 front b.head where
  size_le := by
    unfold Account.start Account.items
    rw [h.head_eq, h.frontOf_eq]
    exact Nat.le_add_right _ _
  tallied := tallied_nil _ _ _
  handed := hfresh.handed_nil
  past d hd := by cases hd

-- An open queue with the account of how it got there.
structure Accounted (dir : Path) (base : Location) (s : Host × Store × Queue) (a : Account)
    (b : Log.Books) (front : UInt64) : Prop where
  shows : Shows dir base s b front
  attended : s.2.2.Attended front b.head
  balanced : Balanced a s.2.2 front b.head
  pageSize_le : b.dataPageSize ≤ Log.maxDataPageSize

theorem Accounted.turn (h : Accounted dir base s a b front) (hmoves : Moves dir base s t m b front effect b' front') :
    Accounted dir base t (a.record s t effect) b' front' where
  shows := hmoves.shows
  attended := hmoves.turn.attended h.attended
  balanced := by
    have hentered := hmoves.turn.entered (a := a) h.attended h.balanced.handed
    exact hentered.balanced h.shows h.balanced (hmoves.turn.grows h.attended)
      (hmoves.turn.handed_hand h.attended h.balanced.handed)
  pageSize_le := hmoves.turn.dataPageSize_eq ▸ h.pageSize_le

-- What a move comes to, as one of the turns.
theorem Accounted.exists_moves (h : Accounted dir base s a b front) (m : Move) :
    ∃ b' front', Moves dir base s (m.act.run s).2 m b front (m.effect (m.perform.run s).1) b' front' := by
  obtain ⟨r, b', front', hends⟩ := h.shows.move h.attended m
  refine ⟨b', front', ?_⟩
  rw [m.run_act, hends.1]
  exact hends.2

-- What a payload that is accepted comes to.
theorem Accounted.accepts (h : Accounted dir base s a b front)
    (hrun : (Queue.enqueue payload).run s = (.ok (), t)) :
    ∃ b' front', Moves dir base s t (.op (.enqueue payload)) b front (.accepted payload) b' front' := by
  obtain ⟨b', front', hmoves⟩ := h.exists_moves (.op (.enqueue payload))
  have haccepted := Move.effect_eq_accepted_iff.mpr ⟨rfl, congrArg Prod.fst hrun⟩
  rw [haccepted, Move.run_act, Move.run_enqueue, hrun] at hmoves
  exact ⟨b', front', hmoves⟩

theorem Account.step_eq (a : Account) (s : Host × Store × Queue) (m : Move) :
    a.step s m = a.record s (m.act.run s).2 (m.effect (m.perform.run s).1) := by
  rw [m.run_act]
  rfl

theorem Accounted.after (ms : List Move) (h : Accounted dir base s a b front) :
    ∃ b' front', Accounted dir base (Step.after (ms.map Move.act) s) (a.after ms s) b' front' := by
  induction ms generalizing s a b front with
  | nil => exact ⟨b, front, h⟩
  | cons m ms ih =>
      obtain ⟨b', front', hmoves⟩ := h.exists_moves m
      have hstep := h.turn hmoves
      rw [← Account.step_eq] at hstep
      exact ih hstep

-- A queue that has just been opened, on any directories.
theorem exists_accounted_openAt {host : Host} (h : host.disk.Site dir base) {pageSize : Nat}
    (hpos : 0 < pageSize) (hle : pageSize ≤ Log.maxDataPageSize) (policy : CachePolicy) :
    ∃ host' sq b front, (openAt dir pageSize policy).run host = (.ok sq, host') ∧ Fresh sq.2 ∧
      Accounted dir base (host', sq) (.start (host', sq)) b front := by
  obtain ⟨sq, b, hopen, -, -, hsize, -, hfresh⟩ := ends_openAt_any h hpos hle policy
  obtain ⟨host', hrun, hshows⟩ := hopen.run_eq
  exact ⟨host', sq, b, _, hrun, hfresh, hshows, hfresh.attended _ _, balanced_start hshows hfresh, hsize ▸ hle⟩

end

end Spool.Queue
