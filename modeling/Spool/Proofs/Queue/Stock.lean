import Spool.Proofs.Queue.Balance
import Spool.Proofs.Queue.Window

namespace Spool

namespace Log.Ledger

theorem map_payload_removeBefore (g : Ledger) (index : UInt64) :
    (g.removeBefore index).items.map Item.payload =
      (g.items.map Item.payload).drop (index - g.tail).toNat := by
  apply List.ext_getElem?
  intro n
  rw [List.getElem?_map, getElem?_removeBefore, List.getElem?_drop, List.getElem?_map, Option.map_map]
  rfl

end Log.Ledger

namespace Queue

-- There is room for an item: an index, and a data page if it needs one of its own.
def Move.HasRoom : Move → Host × Store × Queue → Prop
  | op (.enqueue _), s => (s.2.1.head - s.2.1.tail).toNat + 1 < UInt64.size ∧
    s.2.1.log.cursor.page.toNat + 1 < UInt64.size
  | _, _ => True

instance (m : Move) (s : Host × Store × Queue) : Decidable (m.HasRoom s) := by
  unfold Move.HasRoom
  split <;> infer_instance

-- What the ledger holds are the payloads that came last.
structure Stocked (a : Account) (b : Log.Books) (g : Log.Ledger) : Prop where
  keeps : b.Keeps g
  before : a.before = 0
  accepted : ∃ gone, a.accepted = gone ++ g.items.map Log.Item.payload

-- Whoever got an item got the payload that came with it, or an error.
def Right (a : Account) : Prop :=
  ∀ d ∈ a.deliveries, ∀ payload, d.result = .ok payload → a.accepted[d.item]? = some payload

section

variable {dir : Path} {base : Location} {s t : Host × Store × Queue} {b b' : Log.Books}
  {front front' : UInt64} {effect : Effect} {a a' : Account} {g : Log.Ledger} {payload : Bytes}

theorem Stocked.items_eq (h : Stocked a b g) : a.items = a.accepted.length := by
  unfold Account.items
  rw [h.before, Nat.zero_add]

theorem Turn.stocked (h : Turn s t b front effect b' front') (hstocked : Stocked a b g)
    (hroom : ∀ payload, effect = .accepted payload →
      (b.head - b.tail).toNat + 1 < UInt64.size ∧ b.cursor.page.toNat + 1 < UInt64.size) :
    ∃ g', Stocked (a.record s t effect) b' g' := by
  have hkeeps := hstocked.keeps
  have hbefore := hstocked.before
  obtain ⟨gone, haccepted⟩ := hstocked.accepted
  cases h with
  | rest hlater _ => exact ⟨g, hkeeps.later hlater, hbefore, gone, haccepted⟩
  | poll _ => exact ⟨g, hkeeps, hbefore, gone, haccepted⟩
  | collect hin _ =>
      obtain ⟨x, hx⟩ := hkeeps.item?_isSome hin
      refine ⟨_, hkeeps.removeBefore hx, hbefore,
        gone ++ (g.items.map Log.Item.payload).take (front - 1 - g.tail).toNat, ?_⟩
      rw [Log.Ledger.map_payload_removeBefore, List.append_assoc, List.take_append_drop]
      exact haccepted
  | drop _ _ => exact ⟨g, hkeeps, hbefore, gone, haccepted⟩
  | clear _ => exact ⟨g.removeAll, hkeeps.removeAll, hbefore, a.accepted, (List.append_nil _).symm⟩
  | take _ hlater _ _ => exact ⟨g, hkeeps.later hlater, hbefore, gone, haccepted⟩
  | @accept payload r b' hfits hlater _ _ =>
      obtain ⟨hindex, hpage⟩ := hroom payload rfl
      rw [hkeeps.toNat_head_sub_tail] at hindex
      rw [hkeeps.cursor] at hpage
      have happend := hkeeps.append (hkeeps.dataPageSize ▸ hfits) hindex hpage
      refine ⟨_, happend.later hlater, hbefore, gone, ?_⟩
      show a.accepted ++ [payload] = _
      rw [haccepted, Log.Ledger.items_append, List.map_append, List.append_assoc]
      rfl
  | wait _ _ => exact ⟨g, hkeeps, hbefore, gone, haccepted⟩
  | get _ hlater _ _ => exact ⟨g, hkeeps.later hlater, hbefore, gone, haccepted⟩

-- What is read at the front is the payload of the item that is there.
theorem Stocked.getElem?_of_answer (h : Stocked a b g) (hle : front - b.tail ≤ b.head - b.tail)
    (hread : b.answer front = .ok payload) :
    a.accepted[a.items - (b.head - front).toNat]? = some payload := by
  obtain ⟨x, hx, rfl⟩ := h.keeps.payload_of_answer hread
  obtain ⟨gone, haccepted⟩ := h.accepted
  have hlt := Log.Ledger.lt_length hx
  have hplace : a.items - (b.head - front).toNat = gone.length + (front - g.tail).toNat := by
    rw [h.items_eq, haccepted, List.length_append, List.length_map, Circle.toNat_sub_of_le hle,
      h.keeps.toNat_head_sub_tail, h.keeps.tail]
    omega
  rw [hplace, haccepted, List.getElem?_append_right (Nat.le_add_right _ _), Nat.add_sub_cancel_left,
    List.getElem?_map, show g.items[(front - g.tail).toNat]? = some x from hx]
  rfl

theorem Right.grow (h : Right a) {more : List Bytes} {d : Delivery} (hd : d ∈ a.deliveries)
    (hresult : d.result = .ok payload) : (a.accepted ++ more)[d.item]? = some payload := by
  have hplace := h d hd payload hresult
  rwa [List.getElem?_append_left (List.getElem?_eq_some_iff.mp hplace).1]

theorem Entered.right (h : Entered a s t b front effect a' b' front') (hshows : Shows dir base s b front)
    (hstocked : Stocked a b g) (hle : front - b.tail ≤ b.head - b.tail)
    (hroom : ∀ payload, effect = .accepted payload → (b.head - b.tail).toNat + 1 < UInt64.size)
    (hright : Right a) : Right a' := by
  cases h with
  | still _ => exact hright
  | drop _ => exact hright
  | clear => exact hright
  | accept _ => exact fun d hd payload hresult => hright.grow hd hresult
  | deliver _ _ _ hread =>
      intro d hd payload hresult
      rcases List.mem_append.mp hd with hd | hd
      · exact hright d hd payload hresult
      · obtain rfl := List.mem_singleton.mp hd
        rw [hshows.delivery_eq] at hresult ⊢
        exact hstocked.getElem?_of_answer hle (hread payload hresult)
  | @pass came b' slot result hnone _ hfits _ hread =>
      intro d hd payload hresult
      rcases List.mem_append.mp hd with hd | hd
      · exact hright.grow hd hresult
      · obtain rfl := List.mem_singleton.mp hd
        rw [hshows.delivery_eq] at hresult ⊢
        have hsize := hstocked.keeps.dataPageSize ▸ hstocked.keeps.lawful.pageSize_le
        have hanswer := answer_append hfits hsize (Circle.sub_add_one_ne_zero (hroom came rfl))
        have hsame := hread payload hresult
        rw [hnone, hanswer] at hsame
        cases hsame
        rw [hnone, UInt64.sub_self]
        show (a.accepted ++ [came])[a.items]? = some came
        rw [hstocked.items_eq, List.getElem?_concat_length]

-- A queue whose account tells of the payloads.
structure Provides (dir : Path) (base : Location) (s : Host × Store × Queue) (a : Account)
    (b : Log.Books) (front : UInt64) (g : Log.Ledger) : Prop extends
    Accounted dir base s a b front where
  window : front - b.tail ≤ b.head - b.tail
  stocked : Stocked a b g
  right : Right a

theorem Holds.provides_start {pageSize : Nat} {start : UInt64}
    (h : Holds dir base s (.start pageSize start)) (hfresh : Fresh s.2.2) :
    ∃ b front, Provides dir base s (.start s) b front (.start pageSize start) := by
  obtain ⟨img, hstands, hword⟩ := h.stands
  obtain ⟨b, hlog, hkeeps⟩ := hstands.log
  have hfront : (Line.start pageSize start).front = start := UInt64.add_zero start
  have hhead : b.head = start := hkeeps.head.trans (UInt64.add_zero start)
  have hshows : Shows dir base s b start :=
    ⟨hlog, ⟨img, hstands.front, hword.trans hfront⟩, hstands.notClosed⟩
  have hbefore : (s.2.1.head - frontOf s).toNat = 0 := by
    rw [hshows.head_eq, hshows.frontOf_eq, hhead, UInt64.sub_self]
    rfl
  refine ⟨b, start, ?_⟩
  exact {
    shows := hshows
    attended := hfresh.attended _ _
    balanced := balanced_start hshows hfresh
    pageSize_le := hkeeps.dataPageSize ▸ hkeeps.lawful.pageSize_le
    window := by
      rw [hhead]
      exact UInt64.le_refl _
    stocked := ⟨hkeeps, hbefore, [], rfl⟩
    right := fun d hd => by cases hd }

theorem Provides.step (h : Provides dir base s a b front g) {m : Move} (hroom : m.HasRoom s) :
    ∃ b' front' g', Provides dir base (m.act.run s).2 (a.step s m) b' front' g' := by
  obtain ⟨b', front', hmoves⟩ := h.exists_moves m
  have hspace : ∀ payload, m.effect (m.perform.run s).1 = .accepted payload →
      (b.head - b.tail).toNat + 1 < UInt64.size ∧ b.cursor.page.toNat + 1 < UInt64.size := by
    intro payload heffect
    obtain rfl := Move.eq_enqueue_of_effect heffect
    rw [← h.shows.head_eq, ← h.shows.tail_eq, ← h.shows.log.cursor]
    exact hroom
  have hindex := fun payload heffect => (hspace payload heffect).1
  obtain ⟨g', hstocked⟩ := hmoves.turn.stocked h.stocked hspace
  have hentered := hmoves.turn.entered (a := a) h.attended h.balanced.handed
  rw [Account.step_eq]
  exact ⟨b', front', g', h.toAccounted.turn hmoves, hmoves.turn.window_le h.attended h.window hindex,
    hstocked, hentered.right h.shows h.stocked h.window hindex h.right⟩

theorem Provides.after (ms : List Move) (h : Provides dir base s a b front g)
    (hroom : Step.Along Move.act Move.HasRoom ms s) : Right (a.after ms s) := by
  induction ms generalizing s a b front g with
  | nil => exact h.right
  | cons m ms ih =>
      obtain ⟨b', front', g', hstep⟩ := h.step hroom.1
      exact ih hstep hroom.2

end

end Queue

end Spool
