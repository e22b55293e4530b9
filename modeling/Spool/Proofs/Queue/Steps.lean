import Spool.Proofs.Queue.Holding

namespace Spool.Queue

section

variable {dir : Path} {base : Location} {s t : Host × Store × Queue} {q : Line} {n : Nat}
  {r : Except Error α} {post : Host × Store × Queue → Prop}

theorem Holds.expectOpen_bind (h : Holds dir base s q) {f : Unit → Action α}
    (hrest : Step.Ends (f ()) s r post) : Step.Ends (Queue.expectOpen >>= f) s r post := by
  refine h.expectOpen.bind ?_
  rintro _ rfl
  exact hrest

-- Operations look at the log and go on from there.
private theorem ends_store_bind {f : Store → Action α} (hrest : Step.Ends (f s.2.1) s r post) :
    Step.Ends (store >>= f) s r post := by
  refine (ends_store s).bind ?_
  rintro _ rfl
  exact hrest

theorem Holds.frontIndex (h : Holds dir base s q) :
    Step.Ends Queue.frontIndex s (.ok q.front) fun t => Turns dir base s t q :=
  h.expectOpen_bind h.readFront

theorem Holds.headIndex (h : Holds dir base s q) :
    Step.Ends Queue.headIndex s (.ok q.ledger.head) fun t => Turns dir base s t q := by
  unfold Queue.headIndex
  refine h.expectOpen_bind (ends_store_bind ?_)
  rw [h.head_eq]
  exact Step.ends_pure h.turns

theorem Holds.isEmpty (h : Holds dir base s q) :
    Step.Ends Queue.isEmpty s (.ok (q.waiting = 0)) fun t => Turns dir base s t q := by
  unfold Queue.isEmpty
  refine h.expectOpen_bind ?_
  refine h.readFront.bind fun t ht => ends_store_bind ?_
  rw [ht.holds.head_eq]
  simp only [Line.front_eq_head_iff h.lawful h.passed_le]
  exact Step.ends_pure ht

theorem Holds.size (h : Holds dir base s q) :
    Step.Ends Queue.size s (.ok (UInt64.ofNat q.waiting)) fun t => Turns dir base s t q := by
  unfold Queue.size
  refine h.expectOpen_bind ?_
  refine h.readFront.bind fun t ht => ends_store_bind ?_
  rw [ht.holds.head_eq]
  rw [← Line.head_sub_front h.passed_le]
  exact Step.ends_pure ht

-- Reading an item that is waiting.
private theorem Holds.ends_look (h : Holds dir base s q) {offset : Nat} (hlt : offset < q.waiting)
    {index : UInt64} (hindex : index = q.front + UInt64.ofNat offset) :
    Step.Ends (Queue.onStore (Store.fetch index) >>= fun payload => pure (some payload)) s
      (q.look offset) fun t => Turns dir base s t q := by
  rw [Line.look, if_pos hlt, hindex]
  exact (h.fetch _).map some

private theorem add_ofNat_zero (index : UInt64) : index = index + UInt64.ofNat 0 :=
  (UInt64.add_zero index).symm

theorem Holds.peek (h : Holds dir base s q) :
    Step.Ends Queue.peek s (q.look 0) fun t => Turns dir base s t q := by
  unfold Queue.peek
  refine h.expectOpen_bind ?_
  refine h.readFront.bind fun t ht => ends_store_bind ?_
  rw [ht.holds.head_eq]
  by_cases hnone : q.waiting = 0
  · rw [if_pos ((Line.front_eq_head_iff h.lawful h.passed_le).mpr hnone), Line.look,
      if_neg (by omega)]
    exact Step.ends_pure ht
  · rw [if_neg (mt (Line.front_eq_head_iff h.lawful h.passed_le).mp hnone)]
    exact (ht.holds.ends_look (Nat.pos_of_ne_zero hnone) (add_ofNat_zero _)).mono fun u hu => ht.trans hu

theorem Holds.peekAt (h : Holds dir base s q) (offset : Int) :
    Step.Ends (Queue.peekAt offset) s (if offset < 0 then .ok none else q.look offset.toNat) fun t =>
      Turns dir base s t q := by
  unfold Queue.peekAt
  refine h.expectOpen_bind ?_
  split
  · exact Step.ends_pure h.turns
  · refine h.readFront.bind fun t ht => ends_store_bind ?_
    rw [ht.holds.head_eq]
    rw [Line.toNat_head_sub_front h.lawful h.passed_le]
    split
    · next hle =>
      rw [Line.look, if_neg (by omega)]
      exact Step.ends_pure ht
    · next hlt =>
      exact (ht.holds.ends_look (Nat.lt_of_not_le hlt) rfl).mono fun u hu => ht.trans hu

-- The item is passed even if it cannot be read.
theorem Holds.dequeue (h : Holds dir base s q) :
    Step.Ends Queue.dequeue s (q.look 0) fun t => Turns dir base s t (q.skip 1) := by
  unfold Queue.dequeue
  refine h.expectOpen_bind ?_
  refine h.readFront.bind fun t ht => ends_store_bind ?_
  rw [ht.holds.head_eq]
  by_cases hnone : q.waiting = 0
  · rw [if_pos ((Line.front_eq_head_iff h.lawful h.passed_le).mpr hnone), Line.look,
      if_neg (by omega), Line.skip_of_waiting_eq_zero hnone]
    exact Step.ends_pure ht
  · rw [if_neg (mt (Line.front_eq_head_iff h.lawful h.passed_le).mp hnone)]
    refine (ht.holds.increment hnone).bind ?_
    intro u hu
    rw [Line.look, if_pos (Nat.pos_of_ne_zero hnone), ← add_ofNat_zero]
    exact ((hu.holds.fetch q.front).map some).mono fun v hv => (ht.trans hu).trans hv

theorem Holds.removeN (h : Holds dir base s q) (n : Int) :
    Step.Ends (Queue.removeN n) s (.ok ()) fun t => Turns dir base s t (q.skip n.toNat) := by
  unfold Queue.removeN
  refine h.expectOpen_bind ?_
  split
  · next hneg =>
    have hzero : n.toNat = 0 := Int.toNat_of_nonpos (Int.le_of_lt hneg)
    rw [hzero, Line.skip_zero]
    exact Step.ends_pure h.turns
  · refine h.readFront.bind fun t ht => ends_store_bind ?_
    rw [ht.holds.head_eq]
    obtain ⟨img, hstands, -⟩ := ht.holds.stands
    have hwrite := Stands.writeFront (q := q.skip n.toNat) hstands (q.skip_le _ h.passed_le)
    rw [Line.front_skip] at hwrite
    rw [Line.toNat_head_sub_front h.lawful h.passed_le]
    exact hwrite.mono fun u hu => ht.trans hu

-- For a moment the front is still where it was in the window that is gone.
theorem Holds.removeAll (h : Holds dir base s q) :
    Step.Ends Queue.removeAll s (.ok ()) fun t =>
      Turns dir base s t (.start q.ledger.pageSize 0) := by
  obtain ⟨img, hstands, -⟩ := h.stands
  unfold Queue.removeAll
  refine h.expectOpen_bind ?_
  refine (hstands.onStore .removeAll h.log.removeAll).bind ?_
  intro t ht
  have hwrite := Stands.writeFront (q := .start q.ledger.pageSize 0) ht.stands (Nat.le_refl 0)
  exact hwrite.mono fun u hu => ht.trans_turns hu

theorem Holds.visitFrom (h : Holds dir base s q) (n : Nat) (index : UInt64) :
    Step.Ends (Queue.visitFrom pure n index) s (.ok (Line.visited q.ledger n index)) fun t =>
      Turns dir base s t q := by
  induction n generalizing s index with
  | zero => exact Step.ends_pure h.turns
  | succ n ih =>
      unfold Queue.visitFrom Line.visited
      refine (h.fetch index).attempt.bind ?_
      intro t ht
      cases q.ledger.fetch index with
      | error e => exact Step.ends_pure ht
      | ok payload =>
          refine (Step.ends_pure (Eq.refl t)).bind ?_
          rintro _ rfl
          refine (ih ht.holds (index + 1)).bind ?_
          intro u hu
          exact Step.ends_pure (ht.trans hu)

theorem Holds.forEach (h : Holds dir base s q) :
    Step.Ends (Queue.forEach pure) s (.ok (Line.visited q.ledger q.waiting q.front)) fun t =>
      Turns dir base s t q := by
  unfold Queue.forEach
  refine h.expectOpen_bind ?_
  refine ends_store_bind (h.readFront.bind ?_)
  intro t ht
  rw [h.head_eq, Line.toNat_head_sub_front h.lawful h.passed_le]
  exact (ht.holds.visitFrom _ _).mono fun u hu => ht.trans hu

-- With nothing in front of the front, the call on the log is out of range, which is no error here.
theorem Holds.collect (h : Holds dir base s q) :
    Step.Ends Queue.collect s (.ok ()) fun t => Turns dir base s t q.collect := by
  unfold Queue.collect Line.collect
  refine h.expectOpen_bind ?_
  refine h.readFront.bind fun t ht => ?_
  have hlog := ht.holds.log
  by_cases hpassed : q.passed = 0
  · rw [if_pos hpassed]
    have hout := q.front_sub_one_outside h.lawful hpassed
    have hremove : Step.Ends (Log.removeBefore (q.front - 1)) (t.1, t.2.1.log)
        (.error (.outOfRange (q.front - 1) q.ledger.tail q.ledger.head)) fun u =>
          Log.Turns dir base (t.1, t.2.1.log) u q.ledger := by
      refine (hlog.removeBefore_outOfRange hout).mono ?_
      rintro _ rfl
      exact hlog.turns
    refine (ht.holds.onStore .removeBefore hremove rfl h.passed_le).attempt.bind ?_
    intro u hu
    exact Step.ends_pure (ht.trans hu)
  · rw [if_neg hpassed]
    have hin := Line.toNat_front_sub_one h.lawful h.passed_le hpassed
    have hlt : (q.front - 1 - q.ledger.tail).toNat < q.ledger.items.length := by
      have hle := h.passed_le
      omega
    have hone : 1 ≤ (q.ledger.removeBefore (q.front - 1)).items.length := by
      rw [Log.Ledger.length_removeBefore]
      omega
    have hremove : Step.Ends (Queue.onStore (Store.removeBefore (q.front - 1))) t (.ok ()) fun u =>
        Turns dir base t u ⟨q.ledger.removeBefore (q.front - 1), 1⟩ :=
      ht.holds.onStore .removeBefore (hlog.removeBefore hlt) (UInt64.sub_add_cancel _ _) hone
    refine hremove.attempt.bind ?_
    intro u hu
    exact Step.ends_pure (ht.trans hu)

end

end Spool.Queue
