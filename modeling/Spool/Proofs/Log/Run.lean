import Spool.Proofs.Log.Holding

namespace Spool.Log

inductive Op where
  | append (payload : Bytes)
  | fetch (index : UInt64)
  | removeBefore (index : UInt64)
  | removeAll
  | flush
  -- Time passes, and the caches look for idle pages.
  | pass (nanos : Nat)

inductive Event where
  | op (o : Op)
  -- The log is closed and opened again on its directory.
  | reopen (dataPageSize : Nat) (policy : CachePolicy)

def passTime (nanos : Nat) : Action Unit :=
  modify fun (host, l) => ({ host with now := host.now + nanos }, l.sweep (host.now + nanos))

def reopen (dir : Path) (dataPageSize : Nat) (policy : CachePolicy) : Action Unit := do
  discard Log.close.attempt
  let l ← Step.inside Part.host (Log.open dir dataPageSize policy)
  modify fun (host, _) => (host, l)

def Op.perform : Op → Action Unit
  | append payload => discard (Log.append payload)
  | fetch index => discard (Log.fetch index)
  | removeBefore index => Log.removeBefore index
  | removeAll => Log.removeAll
  | flush => Log.flush
  | pass nanos => passTime nanos

def Event.perform (dir : Path) : Event → Action Unit
  | op o => o.perform
  | reopen dataPageSize policy => Log.reopen dir dataPageSize policy

-- How many items a step may add.
def Op.appends : Op → Nat
  | append _ => 1
  | _ => 0

def Event.appends : Event → Nat
  | op o => o.appends
  | reopen _ _ => 0

-- A log is opened with a page size that it accepts.
def Event.IsValid : Event → Prop
  | op _ => True
  | reopen dataPageSize _ => 0 < dataPageSize ∧ dataPageSize ≤ maxDataPageSize

namespace Ledger

def turn (g : Ledger) : Op → Ledger
  | .append payload => if payload.length ≤ g.pageSize then g.append payload else g
  | .removeBefore index =>
    if (index - g.tail).toNat < g.items.length then g.removeBefore index else g
  | .removeAll => g.removeAll
  | _ => g

def react (g : Ledger) : Event → Ledger
  | .op o => g.turn o
  | .reopen dataPageSize _ => { g with pageSize := dataPageSize }

-- A bound on what was ever appended bounds the items and the pages.
structure Within (g : Ledger) (n : Nat) : Prop where
  items : g.items.length ≤ n
  pages : g.cursor.page.toNat ≤ n

-- A window that does not go round the circle, and in which no item is lost.
structure Straight (g : Ledger) (n : Nat) : Prop where
  reach : g.tail.toNat + g.items.length ≤ n
  intact : ∀ {k : Nat} {x : Item}, g.items[k]? = some x → x.lost = false

section

variable {g : Ledger} {n : Nat} {payload : Bytes} {index : UInt64}

theorem Within.append (h : g.Within n) : (g.append payload).Within (n + 1) where
  items := by
    rw [items_append, List.length_append, List.length_singleton]
    exact Nat.succ_le_succ h.items
  pages := by
    show (g.placeFor payload.length).page.toNat ≤ n + 1
    have hpages := h.pages
    unfold placeFor
    split
    · rw [UInt64.toNat_add, UInt64.toNat_one]
      exact Nat.le_trans (Nat.mod_le _ _) (Nat.succ_le_succ hpages)
    · exact Nat.le_succ_of_le hpages

theorem Within.removeBefore (h : g.Within n) : (g.removeBefore index).Within n where
  items := by
    rw [length_removeBefore]
    exact Nat.le_trans (Nat.sub_le _ _) h.items
  pages := h.pages

theorem Within.start (pageSize : Nat) (tail : UInt64) (n : Nat) : (start pageSize tail).Within n :=
  ⟨Nat.zero_le _, Nat.zero_le _⟩

theorem Within.turn (h : g.Within n) (o : Op) : (g.turn o).Within (n + o.appends) := by
  cases o with
  | append payload =>
      simp only [Ledger.turn, Op.appends]
      split
      · exact h.append
      · exact ⟨Nat.le_succ_of_le h.items, Nat.le_succ_of_le h.pages⟩
  | removeBefore index =>
      simp only [Ledger.turn, Op.appends]
      split
      · exact h.removeBefore
      · exact h
  | removeAll => exact Within.start _ _ _
  | fetch index => exact h
  | flush => exact h
  | pass nanos => exact h

theorem Within.react (h : g.Within n) (e : Event) : (g.react e).Within (n + e.appends) := by
  cases e with
  | op o => exact h.turn o
  | reopen dataPageSize policy => exact ⟨h.items, h.pages⟩

theorem Straight.append (h : g.Straight n) : (g.append payload).Straight (n + 1) where
  reach := by
    have hreach := h.reach
    rw [items_append, List.length_append, List.length_singleton]
    show g.tail.toNat + (g.items.length + 1) ≤ n + 1
    omega
  intact := by
    intro k x hk
    rcases getElem?_append hk with hk | ⟨-, rfl⟩
    · exact h.intact hk
    · rfl

-- No entry behind an index is in front of its page, so none is lost with the pages in front of it.
theorem Straight.removeBefore (h : g.Straight n) (hn : n < UInt64.size)
    (hin : (index - g.tail).toNat < g.items.length) : (g.removeBefore index).Straight n := by
  have hreach := h.reach
  have hindex : index.toNat = g.tail.toNat + (index - g.tail).toNat := by
    have hadd := Circle.toNat_add_ofNat (t := g.tail) (k := (index - g.tail).toNat) (by omega)
    rwa [Circle.ofNat_sub_toNat] at hadd
  constructor
  · rw [length_removeBefore]
    show index.toNat + _ ≤ n
    omega
  · intro j x hx
    obtain ⟨y, hy, rfl⟩ := exists_of_getElem?_removeBefore hx
    have hlt := lt_length hy
    have hle : index ≤ index + UInt64.ofNat j := by
      rw [UInt64.le_iff_toNat_le, Circle.toNat_add_ofNat (by omega)]
      exact Nat.le_add_right _ _
    have hkept : isDropped index (index + UInt64.ofNat j) = false :=
      decide_eq_false (UInt64.not_lt.mpr (Entry.pageOf_le_pageOf hle))
    show (y.lost || _) = false
    rw [h.intact hy, hkept]
    rfl

theorem Straight.start_zero (pageSize n : Nat) : (start pageSize 0).Straight n :=
  ⟨Nat.zero_le _, fun hk => by cases hk⟩

theorem Straight.turn (h : g.Straight n) {o : Op} (hn : n + o.appends < UInt64.size) :
    (g.turn o).Straight (n + o.appends) := by
  cases o with
  | append payload =>
      simp only [Ledger.turn, Op.appends]
      split
      · exact h.append
      · exact ⟨Nat.le_succ_of_le h.reach, h.intact⟩
  | removeBefore index =>
      simp only [Ledger.turn, Op.appends]
      split
      · next hin => exact h.removeBefore hn hin
      · exact h
  | removeAll => exact Straight.start_zero _ _
  | fetch index => exact h
  | flush => exact h
  | pass nanos => exact h

theorem Straight.react (h : g.Straight n) {e : Event} (hn : n + e.appends < UInt64.size) :
    (g.react e).Straight (n + e.appends) := by
  cases e with
  | op o => exact h.turn hn
  | reopen dataPageSize policy => exact ⟨h.reach, h.intact⟩

end

end Ledger

section

variable {dir : Path} {base : Location} {s : Host × Log} {g : Ledger} {n : Nat}

-- A payload is refused only if it is too long.
theorem Holds.ends_append (h : Holds dir base s g) (hwithin : g.Within n) (hn : n + 1 < UInt64.size)
    (payload : Bytes) :
    Step.Ends (Log.append payload) s
      (if payload.length ≤ g.pageSize then .ok g.head
        else .error (.itemTooLarge payload.length g.pageSize)) fun t =>
      Turns dir base s t (g.turn (.append payload)) := by
  have hitems := hwithin.items
  have hpages := hwithin.pages
  by_cases hfits : payload.length ≤ g.pageSize
  · simp only [Ledger.turn, if_pos hfits]
    exact h.append hfits (by omega) (by omega)
  · simp only [Ledger.turn, if_neg hfits]
    refine (h.append_tooLarge (Nat.lt_of_not_le hfits)).mono ?_
    rintro _ rfl
    exact h.turns

theorem Holds.turn (h : Holds dir base s g) (hwithin : g.Within n) {o : Op}
    (hn : n + o.appends < UInt64.size) : Turns dir base s (o.perform.run s).2 (g.turn o) := by
  cases o with
  | append payload => exact (h.ends_append hwithin hn payload).discard.2
  | fetch index => exact (h.fetch index).discard.2
  | removeBefore index =>
      by_cases hin : (index - g.tail).toNat < g.items.length
      · simp only [Ledger.turn, if_pos hin]
        exact (h.removeBefore hin).2
      · simp only [Ledger.turn, if_neg hin]
        have hsame := (h.removeBefore_outOfRange hin).2
        show Turns dir base s ((Log.removeBefore index).run s).2 g
        rw [hsame]
        exact h.turns
  | removeAll => exact h.removeAll.2
  | flush => exact h.flush.2
  | pass nanos => exact h.sweep _

-- Whatever is told of closing, the log is closed.
theorem run_close_attempt (s : Host × Log) :
    (discard Log.close.attempt : Action PUnit).run s = (.ok ⟨⟩, (s.1, s.2.retired)) :=
  Prod.ext rfl (snd_run_close s)

theorem ends_reopen {s : Host × Log} {l : Log} {post : Host × Log → Prop} {dataPageSize : Nat}
    {policy : CachePolicy}
    (hopen : Step.Ends (Log.open dir dataPageSize policy) s.1 (.ok l) fun host => post (host, l)) :
    Step.Ends (Log.reopen dir dataPageSize policy) s (.ok ()) post := by
  refine Step.ends_bind_of_run (run_close_attempt s) ((hopen.onHost s.2.retired).bind ?_)
  rintro t ⟨ht, -⟩
  exact Step.ends_modify ht

-- A log that cannot be opened again stays closed.
theorem ends_reopen_error {s : Host × Log} {e : Error} {post : Host → Prop} {dataPageSize : Nat}
    {policy : CachePolicy} (hopen : Step.Ends (Log.open dir dataPageSize policy) s.1 (.error e) post) :
    Step.Ends (Log.reopen dir dataPageSize policy) s (.error e) fun t => post t.1 ∧ t.2 = s.2.retired :=
  Step.ends_bind_of_run (run_close_attempt s) (hopen.onHost s.2.retired).bind_error

-- A page size that is refused leaves the log closed.
theorem run_reopen_of_invalid {s : Host × Log} {dataPageSize : Nat}
    (h : ¬(0 < dataPageSize ∧ dataPageSize ≤ maxDataPageSize)) (policy : CachePolicy) :
    ((Log.reopen dir dataPageSize policy).run s).2 = (s.1, s.2.retired) := by
  unfold Log.reopen Log.open
  rw [if_pos (by omega), Step.run_bind_of_run (run_close_attempt s)]
  rfl

theorem Holds.ends_reopen (h : Holds dir base s g)
    (hintact : ∀ {k : Nat} {x : Item}, g.items[k]? = some x → x.lost = false) {pageSize : Nat}
    (hpos : 0 < pageSize) (hle : pageSize ≤ maxDataPageSize) (policy : CachePolicy) :
    Step.Ends (Log.reopen dir pageSize policy) s (.ok ()) fun t =>
      Turns dir base s t { g with pageSize } := by
  obtain ⟨l, hopen⟩ := h.reopen hpos hle policy hintact
  exact Log.ends_reopen hopen

theorem Holds.react (h : Holds dir base s g) (hwithin : g.Within n) (hstraight : g.Straight n)
    {e : Event} (hvalid : e.IsValid) (hn : n + e.appends < UInt64.size) :
    Turns dir base s ((e.perform dir).run s).2 (g.react e) := by
  cases e with
  | op o => exact h.turn hwithin hn
  | reopen dataPageSize policy => exact (h.ends_reopen hstraight.intact hvalid.1 hvalid.2 policy).2

-- Without reopening, a run may start at any index.
theorem Holds.after_ops (os : List Op) (h : Holds dir base s g) (hwithin : g.Within n)
    (hn : n + Step.total Op.appends os < UInt64.size) :
    Holds dir base (Step.after (os.map Op.perform) s) (os.foldl Ledger.turn g) ∧
      (os.foldl Ledger.turn g).Within (n + Step.total Op.appends os) := by
  induction os generalizing s g n with
  | nil => exact ⟨h, hwithin⟩
  | cons o os ih =>
      simp only [List.map_cons, Step.total, ← Nat.add_assoc] at hn ⊢
      exact ih (h.turn hwithin (by omega)).holds (hwithin.turn o) hn

theorem Holds.after_events (es : List Event) (h : Holds dir base s g) (hwithin : g.Within n)
    (hstraight : g.Straight n) (hvalid : ∀ e ∈ es, e.IsValid)
    (hn : n + Step.total Event.appends es < UInt64.size) :
    Holds dir base (Step.after (es.map (Event.perform dir)) s) (es.foldl Ledger.react g) ∧
      (es.foldl Ledger.react g).Within (n + Step.total Event.appends es) ∧
      (es.foldl Ledger.react g).Straight (n + Step.total Event.appends es) := by
  induction es generalizing s g n with
  | nil => exact ⟨h, hwithin, hstraight⟩
  | cons e es ih =>
      simp only [List.map_cons, Step.total, ← Nat.add_assoc] at hn ⊢
      have hfirst := h.react hwithin hstraight (hvalid e List.mem_cons_self) (by omega)
      exact ih hfirst.holds (hwithin.react e) (hstraight.react (by omega))
        (fun e he => hvalid e (List.mem_cons_of_mem _ he)) hn

end

end Spool.Log
