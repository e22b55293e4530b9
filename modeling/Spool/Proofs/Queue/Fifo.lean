import Spool.Proofs.Queue.Run

namespace Spool.Queue

-- What the operations of a run answer in turn.
def answers : List Op → Host × Store × Queue → List (Except Error Answer)
  | [], _ => []
  | o :: os, s =>
    let (answer, s) := o.perform.run s
    answer :: answers os s

namespace Fifo

def answer (pageSize : Nat) (waiting : List Bytes) : Op → Except Error Answer
  | .enqueue payload =>
    if payload.length ≤ pageSize then .ok .done else .error (.itemTooLarge payload.length pageSize)
  | .dequeue => .ok (.item waiting.head?)
  | .peek => .ok (.item waiting.head?)
  | .peekAt offset => .ok (.item (if offset < 0 then none else waiting[offset.toNat]?))
  | .forEach => .ok (.visited waiting (.ok ()))
  | .size => .ok (.count waiting.length)
  | .isEmpty => .ok (.truth waiting.isEmpty)
  | .removeN _ | .removeAll | .collect | .flush | .pass _ => .ok .done

def turn (pageSize : Nat) (waiting : List Bytes) : Op → List Bytes
  | .enqueue payload => if payload.length ≤ pageSize then waiting ++ [payload] else waiting
  | .dequeue => waiting.tail
  | .removeN n => waiting.drop n.toNat
  | .removeAll => []
  | .peek | .peekAt _ | .forEach | .collect | .flush | .size | .isEmpty | .pass _ => waiting

def answers (pageSize : Nat) : List Op → List Bytes → List (Except Error Answer)
  | [], _ => []
  | o :: os, waiting => answer pageSize waiting o :: answers pageSize os (turn pageSize waiting o)

end Fifo

namespace Line

-- What is waiting, first things first.
def payloads (q : Line) : List Bytes :=
  (q.ledger.items.drop q.passed).map Log.Item.payload

section

variable {q : Line} {pageSize : Nat}

theorem length_payloads (q : Line) : q.payloads.length = q.waiting := by
  rw [payloads, List.length_map, List.length_drop, waiting]

theorem getElem?_payloads (q : Line) (k : Nat) :
    q.payloads[k]? = (q.ledger.items[q.passed + k]?).map Log.Item.payload := by
  rw [payloads, List.getElem?_map, List.getElem?_drop]

theorem payloads_skip (q : Line) (n : Nat) : (q.skip n).payloads = q.payloads.drop n := by
  show (q.ledger.items.drop (q.passed + min n q.waiting)).map _ = _
  rw [payloads, ← List.map_drop, List.drop_drop]
  by_cases hle : n ≤ q.waiting
  · rw [Nat.min_eq_left hle]
  · rw [waiting] at hle ⊢
    rw [List.drop_eq_nil_of_le (by omega), List.drop_eq_nil_of_le (by omega)]

theorem payloads_enqueue (q : Line) (payload : Bytes) (hpassed : q.passed ≤ q.ledger.items.length) :
    (q.turn (.enqueue payload)).payloads =
      if payload.length ≤ q.ledger.pageSize then q.payloads ++ [payload] else q.payloads := by
  show (List.drop q.passed (if payload.length ≤ q.ledger.pageSize then q.ledger.append payload
    else q.ledger).items).map _ = _
  split
  · rw [Log.Ledger.items_append, List.drop_append_of_le_length hpassed, List.map_append]
    rfl
  · rfl

theorem payloads_collect (hlawful : q.ledger.Lawful) (hpassed : q.passed ≤ q.ledger.items.length) :
    q.collect.payloads = q.payloads := by
  by_cases hpos : q.passed = 0
  · rw [collect, if_pos hpos]
  · have hindex := toNat_front_sub_one hlawful hpassed hpos
    have hplace : ∀ k, q.passed - 1 + (1 + k) = q.passed + k := by omega
    rw [collect, if_neg hpos]
    apply List.ext_getElem?
    intro k
    rw [getElem?_payloads, getElem?_payloads, Log.Ledger.getElem?_removeBefore, hindex, hplace,
      Option.map_map]
    rfl

theorem payloads_turn (hlawful : q.ledger.Lawful) (hpassed : q.passed ≤ q.ledger.items.length)
    (o : Op) : (q.turn o).payloads = Fifo.turn q.ledger.pageSize q.payloads o := by
  cases o with
  | enqueue payload => exact payloads_enqueue q payload hpassed
  | dequeue => exact (payloads_skip q 1).trans List.drop_one
  | removeN n => exact payloads_skip q n.toNat
  | collect => exact payloads_collect hlawful hpassed
  | _ => rfl

theorem Whole.look_eq (h : q.Whole pageSize) (hlawful : q.ledger.Lawful) (k : Nat) :
    q.look k = .ok q.payloads[k]? := by
  rw [look, getElem?_payloads]
  split
  · next hlt =>
    have hin : q.passed + k < q.ledger.items.length := Nat.add_lt_of_lt_sub' hlt
    have hitem := List.getElem?_eq_getElem hin
    rw [front, Circle.add_ofNat_add, h.fetch_eq hlawful hitem, hitem]
    rfl
  · next hout =>
    rw [List.getElem?_eq_none]
    · rfl
    · unfold waiting at hout
      omega

theorem Whole.visited_eq (h : q.Whole pageSize) (hlawful : q.ledger.Lawful) (m k : Nat)
    (hle : k + m ≤ q.ledger.items.length) :
    visited q.ledger m (q.ledger.tail + UInt64.ofNat k) =
      (((q.ledger.items.drop k).take m).map Log.Item.payload, .ok ()) := by
  induction m generalizing k with
  | zero => rfl
  | succ m ih =>
      have hlt : k < q.ledger.items.length := by omega
      rw [visited, h.fetch_eq hlawful (List.getElem?_eq_getElem hlt), ← Circle.add_ofNat_succ,
        ih (k + 1) (by omega), List.drop_eq_getElem_cons hlt]
      rfl

private theorem Whole.answer_front (h : q.Whole pageSize) (hlawful : q.ledger.Lawful) :
    (q.look 0).map Answer.item = .ok (.item q.payloads.head?) := by
  rw [h.look_eq hlawful, List.head?_eq_getElem?]
  rfl

theorem Whole.answer_eq (h : q.Whole pageSize) (hlawful : q.ledger.Lawful)
    (hpassed : q.passed ≤ q.ledger.items.length) (o : Op) :
    q.answer o = Fifo.answer pageSize q.payloads o := by
  cases o with
  | enqueue payload =>
      rw [← h.pageSize_eq]
      rfl
  | dequeue => exact h.answer_front hlawful
  | peek => exact h.answer_front hlawful
  | peekAt offset =>
      rw [answer, h.look_eq hlawful, Fifo.answer]
      split <;> rfl
  | forEach =>
      have hvisited := h.visited_eq hlawful q.waiting q.passed (Nat.le_of_eq (Nat.add_sub_of_le hpassed))
      have hall : (q.ledger.items.drop q.passed).length ≤ q.waiting := Nat.le_of_eq List.length_drop
      rw [answer, front, hvisited, List.take_of_length_le hall]
      rfl
  | size => rw [answer, ← length_payloads, Fifo.answer]
  | isEmpty =>
      rw [answer, ← length_payloads, Fifo.answer]
      cases q.payloads <;> rfl
  | _ => rfl

end

end Line

section

variable {dir : Path} {base : Location} {s : Host × Store × Queue} {q : Line} {n pageSize : Nat}

theorem Runs.answers_eq (os : List Op) (h : Runs dir base pageSize s q n)
    (hn : n + Step.total Op.enqueues os < UInt64.size) :
    answers os s = Fifo.answers pageSize os q.payloads := by
  induction os generalizing s q n with
  | nil => rfl
  | cons o os ih =>
      simp only [Step.total, ← Nat.add_assoc] at hn
      obtain ⟨t, hrun, ht⟩ := (h.turn (o := o) (by omega)).run_eq
      have hlawful := h.holds.lawful
      have hpassed := h.holds.passed_le
      rw [answers, hrun, Fifo.answers, ← h.steady.whole.answer_eq hlawful hpassed, ← h.steady.pageSize_eq,
        ← Line.payloads_turn hlawful hpassed, h.steady.pageSize_eq, ← ih ht hn]

theorem Fifo.eq_itemTooLarge_of_mem_answers {os : List Op} {waiting : List Bytes} {e : Error}
    (h : Except.error e ∈ Fifo.answers pageSize os waiting) :
    ∃ length, e = .itemTooLarge length pageSize := by
  induction os generalizing waiting with
  | nil => cases h
  | cons o os ih =>
      rcases List.mem_cons.mp h with h | h
      · cases o with
        | enqueue payload =>
            simp only [Fifo.answer] at h
            split at h
            · cases h
            · cases h
              exact ⟨_, rfl⟩
        | _ => cases h
      · exact ih h

-- Whatever is done, every answer is the one that the list gives, and nothing fails but for payloads
-- that are too long.
theorem fifo_law (host : Host) (os : List Op) (hvacant : host.disk.Vacant dir base)
    (hpos : 0 < pageSize) (hle : pageSize ≤ Log.maxDataPageSize) (policy : CachePolicy)
    (hcount : Step.total Op.enqueues os < UInt64.size) :
    ∃ host' sq, (openAt dir pageSize policy).run host = (.ok sq, host') ∧
      answers os (host', sq) = Fifo.answers pageSize os [] ∧
      ∀ e, .error e ∈ answers os (host', sq) → ∃ length, e = .itemTooLarge length pageSize := by
  obtain ⟨sq, hopen⟩ := runs_openAt hvacant hpos hle policy
  obtain ⟨host', hrun, hruns⟩ := hopen.run_eq
  have hanswers : answers os (host', sq) = Fifo.answers pageSize os [] :=
    hruns.answers_eq os (by omega)
  refine ⟨host', sq, hrun, hanswers, fun e he => ?_⟩
  rw [hanswers] at he
  exact Fifo.eq_itemTooLarge_of_mem_answers he

end

-- Pages of four bytes, with items of three bytes and of none, and one that is too long.
theorem fifo_law_small_pages : ∃ host' sq,
    (openAt ⟨"spool"⟩ 4 .pinned).run ⟨Disk.empty.addDirectory ["spool"], 0⟩ = (.ok sq, host') ∧
      answers [.enqueue [1, 2, 3], .enqueue [4, 5, 6, 7, 8], .enqueue [], .enqueue [9], .dequeue,
          .collect, .peekAt 1, .forEach, .removeN 5, .isEmpty] (host', sq) =
        [.ok .done, .error (.itemTooLarge 5 4), .ok .done, .ok .done, .ok (.item (some [1, 2, 3])),
          .ok .done, .ok (.item (some [9])), .ok (.visited [[], [9]] (.ok ())), .ok .done,
          .ok (.truth true)] := by
  obtain ⟨host', sq, hrun, hanswers, -⟩ := fifo_law ⟨Disk.empty.addDirectory ["spool"], 0⟩
    [.enqueue [1, 2, 3], .enqueue [4, 5, 6, 7, 8], .enqueue [], .enqueue [9], .dequeue,
      .collect, .peekAt 1, .forEach, .removeN 5, .isEmpty]
    (Disk.vacant_addDirectory (by decide)) (by decide : 0 < 4) (by decide) .pinned (by decide)
  exact ⟨host', sq, hrun, hanswers⟩

end Spool.Queue
