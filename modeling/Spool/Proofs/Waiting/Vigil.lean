import Spool.Waiting.Watch

namespace Spool

-- A slot with everybody around it: those who may finish it, and those who look at it, poll it or block on it
-- through one of its handles.
structure Vigil where
  slot : Slot
  -- Handles are told apart by the order in which they were made.
  handles : Nat
  now : Nat
  -- Everybody who has blocked so far.
  watches : List Watch

namespace Vigil

inductive Act where
  | resolve (bs : Bytes)
  | fail (e : Error)
  | cancel
  | isDone (handle : Nat)
  | tryResult (handle : Nat)
  | poll (handle : Nat) (waker : Waker)
  -- Blocks in a thread of its own, for as long as it takes if there is no time to give up at.
  | wait (handle : Nat) (timeout : Option Span)
  | clone (handle : Nat)
  | pass (nanos : Nat)

inductive Reply where
  | done
  | absent
  | told (yes : Bool)
  | view (result : Option (Except Error Bytes))
  | handle (n : Nat)
  | watch (n : Nat)

def start (now : Nat) : Vigil :=
  ⟨.fresh, 1, now, []⟩

namespace Act

def handle? : Act → Option Nat
  | isDone h | tryResult h | poll h _ | wait h _ | clone h => some h
  | _ => none

-- What an act makes of a slot that is pending.
def outcome? : Act → Option Outcome
  | resolve bs => some (.payload bs)
  | fail e => some (.failed e)
  | cancel => some .cancelled
  | _ => none

def waker? : Act → Option Waker
  | poll _ waker => some waker
  | _ => none

def nanos : Act → Nat
  | pass n => n
  | _ => 0

def isWait : Act → Bool
  | wait .. => true
  | _ => false

def isClone : Act → Bool
  | clone _ => true
  | _ => false

end Act

-- Whichever handle is used, what it leads to is the slot.
def perform (v : Vigil) : Act → Reply × Vigil
  | .resolve bs => (.told (v.slot.resolve bs).1, { v with slot := (v.slot.resolve bs).2 })
  | .fail e => (.told (v.slot.fail e).1, { v with slot := (v.slot.fail e).2 })
  | .cancel => (.told v.slot.cancel.1, { v with slot := v.slot.cancel.2 })
  | .isDone _ => (.told v.slot.isDone, v)
  | .tryResult _ => (.view v.slot.result?, v)
  | .poll _ waker => (.view (v.slot.poll waker).1, { v with slot := (v.slot.poll waker).2 })
  | .wait _ timeout => (.watch v.watches.length,
      { v with watches := v.watches ++ [.start v.now timeout v.slot.result?] })
  | .clone _ => (.handle v.handles, { v with handles := v.handles + 1 })
  | .pass n => (.done,
      { v with
        now := v.now + n
        watches := v.watches.map fun w => w.expire (v.now + n) v.slot.result? })

-- An act through a handle that was never made does nothing.
def react (v : Vigil) (a : Act) : Reply × Vigil :=
  if a.handle?.all (· < v.handles) then v.perform a else (.absent, v)

def after (as : List Act) (v : Vigil) : Vigil :=
  as.foldl (fun v a => (v.react a).2) v

-- Every handle that is used was made before, as a clone or as one of the first `handles`.
def IsRun (handles : Nat) : List Act → Prop
  | [] => True
  | a :: as => a.handle?.all (· < handles) = true ∧
      IsRun (if a.isClone then handles + 1 else handles) as

def first? (as : List Act) : Option Outcome :=
  as.findSome? Act.outcome?

-- The acts before the first outcome.
def early (as : List Act) : List Act :=
  as.takeWhile fun a => a.outcome?.isNone

-- How much time passes.
def spent (as : List Act) : Nat :=
  as.foldr (fun a total => a.nanos + total) 0

-- What an act is told that comes after others.
def answer (before : List Act) : Act → Reply
  | .resolve _ | .fail _ | .cancel => .told (first? before).isNone
  | .isDone _ => .told (first? before).isSome
  | .tryResult _ | .poll .. => .view ((first? before).map Outcome.toExcept)
  | .wait .. => .watch (before.countP Act.isWait)
  | .clone _ => .handle (before.countP Act.isClone + 1)
  | .pass _ => .done

-- Whether a clock can tell when a wait is over that is begun at some time.
def isTimed (now : Nat) (timeout : Option Span) : Bool :=
  timeout.all fun t => (Watch.deadline? now t).isSome

-- What a wait comes to that stands between others: the outcome that was there, or the first one behind,
-- unless its time is over before that. If no clock can tell when that is, it breaks off.
def comesTo (now : Nat) (before : List Act) (timeout : Option Span) (later : List Act) :
    Option (Option (Except Error Bytes)) :=
  if isTimed (now + spent before) timeout then
    match first? before with
    | some outcome => some (some outcome.toExcept)
    | none =>
      if timeout.any (·.toNanos ≤ spent (early later)) then some none
      else (first? later).map fun outcome => some outcome.toExcept
  else some (some (.error Watch.overflow))

-- Whether everybody who blocks after the first outcome is told it.
def Reveals (now : Nat) (as : List Act) : Prop :=
  ∀ before handle timeout later outcome, as = before ++ .wait handle timeout :: later →
    first? before = some outcome →
    ∃ w, (after as (start now)).watches[before.countP Act.isWait]? = some w ∧
      w.result? (after as (start now)).slot.result? = some (some outcome.toExcept)

-- What comes of some acts around a fresh slot.
structure Assigns (now : Nat) (as : List Act) : Prop where
  answers : ∀ before a later, as = before ++ a :: later →
    ((after before (start now)).react a).1 = answer before a
  -- Only the first outcome changes anything.
  late : ∀ before a later, as = before ++ a :: later → a.outcome?.isSome → (first? before).isSome →
    ((after before (start now)).react a).2 = after before (start now)
  waits : ∀ before handle timeout later, as = before ++ .wait handle timeout :: later →
    ∃ w, (after as (start now)).watches[before.countP Act.isWait]? = some w ∧
      w.result? (after as (start now)).slot.result? = comesTo now before timeout later
  -- So the outcome is kept from those whose time no clock can tell.
  reveals_iff : Reveals now as ↔ ∀ before handle timeout later,
    as = before ++ .wait handle timeout :: later → (first? before).isSome →
    isTimed (now + spent before) timeout = true
  -- Who polled early is woken with the first outcome, and nobody else is woken at all.
  wakes : ∀ waker, (after as (start now)).slot.wakes waker =
    if (first? as).isSome ∧ waker ∈ (early as).filterMap Act.waker? then 1 else 0

section

variable {v : Vigil} {as before later : List Act} {a : Act} {o : Outcome}

theorem first?_append (as later : List Act) :
    first? (as ++ later) = (first? as).or (first? later) :=
  List.findSome?_append

theorem first?_singleton (a : Act) : first? [a] = a.outcome? := by
  simp [first?]

theorem early_append_of_none (h : first? as = none) (later : List Act) :
    early (as ++ later) = as ++ early later :=
  List.takeWhile_append_of_pos fun a ha => by
    rw [List.findSome?_eq_none_iff.mp h a ha]
    rfl

theorem early_append_of_some (h : first? as = some o) (later : List Act) :
    early (as ++ later) = early as := by
  induction as with
  | nil => cases h
  | cons a as ih =>
      cases ha : a.outcome? with
      | some outcome => simp [early, ha]
      | none =>
          have hrest : first? as = some o := by simpa [first?, ha] using h
          have htail := ih hrest
          simpa [early, ha] using htail

-- An outcome ends what is early, and other acts only add to it while there is none.
theorem early_append_act (as : List Act) (a : Act) :
    early (as ++ [a]) = if (first? as).isNone ∧ a.outcome?.isNone then early as ++ [a] else early as := by
  cases hfirst : first? as with
  | some o => simp [early_append_of_some hfirst]
  | none =>
      have hself : early as = as := by
        simpa [early] using early_append_of_none hfirst []
      rw [early_append_of_none hfirst, hself]
      cases ha : a.outcome? <;> simp [early, ha]

-- What the slot is after some acts. The wakers in it are those that polled early, each once.
inductive Holds (as : List Act) : Slot → Prop
  | pending {wakers : List Waker} (hfirst : first? as = none) (hnodup : wakers.Nodup)
      (hmem : ∀ waker, waker ∈ wakers ↔ waker ∈ (early as).filterMap Act.waker?) :
      Holds as (.pending wakers)
  | finished {outcome : Outcome} {woken : List Waker} (hfirst : first? as = some outcome)
      (hnodup : woken.Nodup)
      (hmem : ∀ waker, waker ∈ woken ↔ waker ∈ (early as).filterMap Act.waker?) :
      Holds as (.finished outcome woken)

theorem Holds.result?_eq {slot : Slot} (h : Holds as slot) :
    slot.result? = (first? as).map Outcome.toExcept := by
  cases h with
  | pending hfirst => rw [hfirst]; rfl
  | finished hfirst => rw [hfirst]; rfl

theorem Holds.isDone_eq {slot : Slot} (h : Holds as slot) : slot.isDone = (first? as).isSome := by
  cases h with
  | pending hfirst => rw [hfirst]; rfl
  | finished hfirst => rw [hfirst]; rfl

theorem Holds.finish_fst {slot : Slot} (h : Holds as slot) (o : Outcome) :
    (slot.finish o).1 = (first? as).isNone := by
  cases h with
  | pending hfirst => rw [hfirst]; rfl
  | finished hfirst => rw [hfirst]; rfl

theorem Holds.finish_snd {slot : Slot} (h : Holds as slot) (hfirst : (first? as).isSome = true)
    (o : Outcome) : (slot.finish o).2 = slot := by
  cases h with
  | pending hnone => rw [hnone] at hfirst; cases hfirst
  | finished => rfl

theorem Holds.wakes_eq {slot : Slot} (h : Holds as slot) (waker : Waker) :
    slot.wakes waker =
      if (first? as).isSome ∧ waker ∈ (early as).filterMap Act.waker? then 1 else 0 := by
  cases h with
  | pending hfirst => simp [hfirst, Slot.wakes]
  | finished hfirst hnodup hmem => simp [hfirst, Slot.wakes, hnodup.count, hmem]

theorem holds_start : Holds [] .fresh :=
  .pending rfl .nil fun _ => Iff.rfl

theorem Holds.finish {slot : Slot} (h : Holds as slot) (ha : a.outcome? = some o) :
    Holds (as ++ [a]) (slot.finish o).2 := by
  have hearly : early (as ++ [a]) = early as := by
    rw [early_append_act, if_neg (by simp [ha])]
  cases h with
  | pending hfirst hnodup hmem =>
      refine .finished ?_ hnodup (hearly ▸ hmem)
      rw [first?_append, hfirst, first?_singleton, ha]
      rfl
  | finished hfirst hnodup hmem =>
      refine .finished ?_ hnodup (hearly ▸ hmem)
      rw [first?_append, hfirst]
      rfl

theorem Holds.poll {slot : Slot} (h : Holds as slot) (ha : a.outcome? = none) {waker : Waker}
    (hwaker : a.waker? = some waker) : Holds (as ++ [a]) (slot.poll waker).2 := by
  cases h with
  | finished hfirst hnodup hmem =>
      rw [← early_append_of_some hfirst [a]] at hmem
      refine .finished ?_ hnodup hmem
      rw [first?_append, hfirst]
      rfl
  | @pending wakers hfirst hnodup hmem =>
      have hearly : early (as ++ [a]) = early as ++ [a] := by
        rw [early_append_act, if_pos ⟨by rw [hfirst]; rfl, by rw [ha]; rfl⟩]
      have hlater : first? (as ++ [a]) = none := by
        rw [first?_append, hfirst, first?_singleton, ha]
        rfl
      have hmem' (x : Waker) :
          x ∈ (early (as ++ [a])).filterMap Act.waker? ↔ x ∈ wakers ∨ x = waker := by
        rw [hearly, List.filterMap_append, List.mem_append, ← hmem]
        simp [hwaker]
      by_cases hin : waker ∈ wakers
      · simp only [Slot.poll, if_pos hin]
        refine .pending hlater hnodup fun x => ?_
        rw [hmem']
        exact ⟨.inl, fun hx => hx.elim id fun heq => heq ▸ hin⟩
      · simp only [Slot.poll, if_neg hin]
        refine .pending hlater ?_ fun x => ?_
        · refine List.nodup_append.mpr ⟨hnodup, by simp, ?_⟩
          rintro x hx y hy rfl
          exact hin (List.mem_singleton.mp hy ▸ hx)
        · rw [hmem']
          simp

theorem Holds.idle {slot : Slot} (h : Holds as slot) (ha : a.outcome? = none) (hwaker : a.waker? = none) :
    Holds (as ++ [a]) slot := by
  have hfirst : first? (as ++ [a]) = first? as := by
    rw [first?_append, first?_singleton, ha, Option.or_none]
  have hmem : (early (as ++ [a])).filterMap Act.waker? = (early as).filterMap Act.waker? := by
    rw [early_append_act]
    split
    · simp [hwaker]
    · rfl
  cases h with
  | pending hnone hnodup hmem' => exact .pending (hfirst.trans hnone) hnodup (hmem ▸ hmem')
  | finished hsome hnodup hmem' => exact .finished (hfirst.trans hsome) hnodup (hmem ▸ hmem')

theorem perform_of_outcome (ha : a.outcome? = some o) :
    v.perform a = (.told (v.slot.finish o).1, { v with slot := (v.slot.finish o).2 }) := by
  cases a <;> cases ha <;> rfl

theorem Holds.perform (h : Holds as v.slot) (a : Act) : Holds (as ++ [a]) (v.perform a).2.slot := by
  cases a with
  | resolve bs => exact h.finish rfl
  | fail e => exact h.finish rfl
  | cancel => exact h.finish rfl
  | poll handle waker => exact h.poll rfl rfl
  | _ => exact h.idle rfl rfl

theorem spent_append (as later : List Act) : spent (as ++ later) = spent as + spent later := by
  induction as with
  | nil => exact (Nat.zero_add _).symm
  | cons a as ih =>
      show a.nanos + spent (as ++ later) = a.nanos + spent as + spent later
      rw [ih, Nat.add_assoc]

-- The slot, the time, the handles that were made and the waits that were begun.
structure Follows (now : Nat) (as : List Act) (v : Vigil) : Prop where
  slot : Holds as v.slot
  now : v.now = now + spent as
  handles : v.handles = as.countP Act.isClone + 1
  watches : v.watches.length = as.countP Act.isWait

theorem follows_start (now : Nat) : Follows now [] (start now) :=
  ⟨holds_start, rfl, rfl, rfl⟩

theorem Follows.perform {now : Nat} (h : Follows now as v) (a : Act) :
    Follows now (as ++ [a]) (v.perform a).2 where
  slot := h.slot.perform a
  now := by
    have hnow : (v.perform a).2.now = v.now + a.nanos := by
      cases a <;> rfl
    rw [hnow, spent_append, ← Nat.add_assoc, ← h.now]
    rfl
  handles := by
    rw [List.countP_append, List.countP_singleton, Nat.add_right_comm, ← h.handles]
    cases a <;> rfl
  watches := by
    rw [List.countP_append, List.countP_singleton, ← h.watches]
    cases a <;> simp [Vigil.perform, Act.isWait]

theorem Follows.answer_eq {now : Nat} (h : Follows now as v) (a : Act) : (v.perform a).1 = answer as a := by
  cases a with
  | resolve bs => exact congrArg Reply.told (h.slot.finish_fst _)
  | fail e => exact congrArg Reply.told (h.slot.finish_fst _)
  | cancel => exact congrArg Reply.told (h.slot.finish_fst _)
  | isDone handle => exact congrArg Reply.told h.slot.isDone_eq
  | tryResult handle => exact congrArg Reply.view h.slot.result?_eq
  | poll handle waker => exact congrArg Reply.view ((v.slot.poll_fst waker).trans h.slot.result?_eq)
  | wait handle timeout => exact congrArg Reply.watch h.watches
  | clone handle => exact congrArg Reply.handle h.handles
  | pass n => rfl

theorem Follows.late_eq {now : Nat} (h : Follows now as v) (ha : a.outcome? = some o)
    (hfirst : (first? as).isSome = true) : (v.perform a).2 = v := by
  rw [perform_of_outcome ha, h.slot.finish_snd hfirst]

theorem result?_perform {r : Except Error Bytes} (h : v.slot.result? = some r) :
    (v.perform a).2.slot.result? = some r := by
  obtain ⟨slot, handles, now, watches⟩ := v
  cases slot with
  | pending wakers => cases h
  | finished outcome woken => cases a <;> exact h

theorem watches_perform {n : Nat} {w : Watch} (h : v.watches[n]? = some w) :
    ∃ w', (v.perform a).2.watches[n]? = some w' ∧
      (w' = w ∨ ∃ now, w' = w.expire now v.slot.result?) := by
  cases a with
  | wait handle timeout =>
      obtain ⟨hlt, hget⟩ := List.getElem?_eq_some_iff.mp h
      exact ⟨w, (List.getElem?_append_left hlt).trans h, .inl rfl⟩
  | pass k =>
      refine ⟨w.expire (v.now + k) v.slot.result?, ?_, .inr ⟨_, rfl⟩⟩
      exact List.getElem?_map.trans (congrArg (Option.map _) h)
  | _ => exact ⟨w, h, .inl rfl⟩

theorem isRun_perform (h : IsRun v.handles (a :: as)) :
    v.react a = v.perform a ∧ IsRun (v.perform a).2.handles as := by
  refine ⟨if_pos h.1, ?_⟩
  have hrest := h.2
  cases a <;> exact hrest

theorem after_append (before later : List Act) (v : Vigil) :
    after (before ++ later) v = after later (after before v) :=
  List.foldl_append

theorem isRun_append (h : IsRun v.handles (before ++ later)) :
    IsRun v.handles before ∧ IsRun (after before v).handles later := by
  induction before generalizing v with
  | nil => exact ⟨trivial, h⟩
  | cons a before ih =>
      obtain ⟨hreact, hrest⟩ := isRun_perform h
      obtain ⟨hbefore, hlater⟩ := ih hrest
      have hhandles : (v.perform a).2.handles = if a.isClone then v.handles + 1 else v.handles := by
        cases a <;> rfl
      rw [hhandles] at hbefore
      rw [after, List.foldl_cons, hreact]
      exact ⟨⟨h.1, hbefore⟩, hlater⟩

theorem Follows.after {now : Nat} (h : Follows now before v) (hrun : IsRun v.handles as) :
    Follows now (before ++ as) (after as v) := by
  induction as generalizing before v with
  | nil =>
      rw [List.append_nil]
      exact h
  | cons a as ih =>
      obtain ⟨hreact, hrest⟩ := isRun_perform hrun
      have hnext := ih (h.perform a) hrest
      rw [List.append_assoc] at hnext
      rw [Vigil.after, List.foldl_cons, hreact]
      exact hnext

-- What a wait that was begun has come to, if it is over.
def Came (v : Vigil) (n : Nat) (end? : Option (Option (Except Error Bytes))) : Prop :=
  ∃ w, v.watches[n]? = some w ∧ w.result? v.slot.result? = end?

-- A wait that goes on, with some time left if it will not take for ever.
structure Blocks (v : Vigil) (n : Nat) (left : Option Nat) : Prop where
  pending : v.slot.isDone = false
  some_left : ∀ k, left = some k → 0 < k
  watch : v.watches[n]? = some ⟨left.map (v.now + ·), none⟩

section

variable {n : Nat} {r : Option (Except Error Bytes)} {left : Option Nat}

theorem Came.unique {e e' : Option (Option (Except Error Bytes))} (h : Came v n e) (h' : Came v n e') : e = e' := by
  obtain ⟨w, hw, rfl⟩ := h
  obtain ⟨w', hw', rfl⟩ := h'
  obtain rfl := Option.some.inj (hw.symm.trans hw')
  rfl

theorem Came.perform (h : Came v n (some r)) (a : Act) : Came (v.perform a).2 n (some r) := by
  obtain ⟨w, hw, hresult⟩ := h
  obtain ⟨w', hw', hsame⟩ := watches_perform (a := a) hw
  refine ⟨w', hw', Watch.result?_mono (fun _ houtcome => result?_perform houtcome) ?_⟩
  obtain rfl | ⟨now, rfl⟩ := hsame
  · exact hresult
  · exact Watch.result?_expire hresult

theorem Came.after (h : Came v n (some r)) (hrun : IsRun v.handles as) :
    Came (after as v) n (some r) := by
  induction as generalizing v with
  | nil => exact h
  | cons a as ih =>
      obtain ⟨hreact, hrest⟩ := isRun_perform hrun
      rw [Vigil.after, List.foldl_cons, hreact]
      exact ih (h.perform a) hrest

theorem result?_of_pending {slot : Slot} (h : slot.isDone = false) : slot.result? = none := by
  cases slot with
  | pending wakers => rfl
  | finished outcome woken => cases h

theorem result?_finish {slot : Slot} (h : slot.isDone = false) (o : Outcome) :
    (slot.finish o).2.result? = some o.toExcept := by
  cases slot with
  | pending wakers => rfl
  | finished outcome woken => cases h

theorem Blocks.finish (h : Blocks v n left) (ha : a.outcome? = some o) :
    Came (v.perform a).2 n (some (some o.toExcept)) := by
  rw [perform_of_outcome ha]
  exact ⟨_, h.watch, congrArg (Option.map some) (result?_finish h.pending o)⟩

-- Time that passes is time that is not left.
theorem Blocks.pass (h : Blocks v n left) (k : Nat) :
    if left.any (· ≤ k) then Came (v.perform (.pass k)).2 n (some none)
    else Blocks (v.perform (.pass k)).2 n (left.map (· - k)) := by
  have hview := result?_of_pending h.pending
  have hget : (v.perform (.pass k)).2.watches[n]? =
      some (Watch.expire ⟨left.map (v.now + ·), none⟩ (v.now + k) none) := by
    refine List.getElem?_map.trans ?_
    rw [h.watch, hview]
    rfl
  cases left with
  | none =>
      rw [if_neg (by simp)]
      exact ⟨h.pending, fun _ hk => (nomatch hk), hget⟩
  | some l =>
      by_cases hdue : l ≤ k
      · rw [if_pos (by simp [hdue])]
        have hexpire := Watch.expire_of_le (Nat.add_le_add_left hdue v.now) none
        exact ⟨_, hget, by rw [Option.map_some, hexpire]; rfl⟩
      · rw [if_neg (by simp [hdue])]
        refine ⟨h.pending, ?_, hget.trans ?_⟩
        · rintro _ ⟨⟩
          show 0 < l - k
          omega
        · have hnow : (v.perform (.pass k)).2.now + (l - k) = v.now + l := by
            show v.now + k + (l - k) = v.now + l
            omega
          simp [Watch.expire, hdue, hnow]

theorem Blocks.other (h : Blocks v n left) (ha : a.outcome? = none) (hnanos : ∀ k, a ≠ .pass k) :
    Blocks (v.perform a).2 n left := by
  cases a with
  | resolve bs => cases ha
  | fail e => cases ha
  | cancel => cases ha
  | pass k => exact absurd rfl (hnanos k)
  | poll handle waker => exact ⟨(v.slot.isDone_poll waker).trans h.pending, h.some_left, h.watch⟩
  | wait handle timeout =>
      obtain ⟨hlt, -⟩ := List.getElem?_eq_some_iff.mp h.watch
      exact ⟨h.pending, h.some_left, (List.getElem?_append_left hlt).trans h.watch⟩
  | _ => exact ⟨h.pending, h.some_left, h.watch⟩

theorem Blocks.any_le_zero (h : Blocks v n left) : left.any (· ≤ 0) = false := by
  cases left with
  | none => rfl
  | some l => simpa using Nat.ne_of_gt (h.some_left l rfl)

theorem any_mono {k m : Nat} (hle : k ≤ m) (h : left.any (· ≤ k) = true) :
    left.any (· ≤ m) = true := by
  cases left with
  | none => cases h
  | some l => exact decide_eq_true (Nat.le_trans (of_decide_eq_true h) hle)

theorem any_le_add (left : Option Nat) (k m : Nat) :
    (left.map (· - k)).any (· ≤ m) = left.any (· ≤ k + m) := by
  cases left with
  | none => rfl
  | some l =>
      show decide (l - k ≤ m) = decide (l ≤ k + m)
      rw [decide_eq_decide]
      omega

theorem Blocks.after (h : Blocks v n left) (hrun : IsRun v.handles as) :
    Came (after as v) n (if left.any (· ≤ spent (early as)) then some none
      else (first? as).map fun outcome => some outcome.toExcept) := by
  induction as generalizing v left with
  | nil =>
      refine ⟨_, h.watch, ?_⟩
      show v.slot.result?.map some = if left.any (· ≤ 0) then some none else none
      rw [result?_of_pending h.pending, h.any_le_zero]
      rfl
  | cons a as ih =>
      obtain ⟨hreact, hrest⟩ := isRun_perform hrun
      rw [Vigil.after, List.foldl_cons, hreact]
      cases ha : a.outcome? with
      | some o =>
          have hearly : early (a :: as) = [] := by simp [early, ha]
          have hfirst : first? (a :: as) = some o := by simp [first?, ha]
          rw [hearly, hfirst]
          show Came _ n (if left.any (· ≤ 0) then _ else _)
          rw [h.any_le_zero]
          exact (h.finish ha).after hrest
      | none =>
          have hearly : early (a :: as) = a :: early as := by simp [early, ha]
          have hfirst : first? (a :: as) = first? as := by simp [first?, ha]
          rw [hearly, hfirst, spent, List.foldr_cons, ← spent]
          by_cases hpass : ∃ k, a = .pass k
          · obtain ⟨k, rfl⟩ := hpass
            have hpass := h.pass k
            rw [show (Act.pass k).nanos = k from rfl]
            split at hpass
            · next hdue =>
              rw [if_pos (any_mono (Nat.le_add_right k _) hdue)]
              exact hpass.after hrest
            · rw [← any_le_add]
              exact ih hpass hrest
          · have hnanos : a.nanos = 0 := by
              cases a with
              | pass k => exact absurd ⟨k, rfl⟩ hpass
              | _ => rfl
            rw [hnanos, Nat.zero_add]
            exact ih (h.other ha fun k heq => hpass ⟨k, heq⟩) hrest

theorem result?_start_of_not_timed {now : Nat} {timeout : Option Span} (h : isTimed now timeout = false)
    (view view' : Option (Except Error Bytes)) :
    (Watch.start now timeout view).result? view' = some (some (.error Watch.overflow)) := by
  cases timeout with
  | none => cases h
  | some t =>
      rw [isTimed, Option.all_some, Option.isSome_eq_false_iff, Option.isNone_iff_eq_none] at h
      rw [Watch.start_of_not_timed h]
      rfl

theorem result?_start_of_timed {now : Nat} {timeout : Option Span} (h : isTimed now timeout = true)
    (r : Except Error Bytes) : (Watch.start now timeout (some r)).result? (some r) = some (some r) := by
  cases timeout with
  | none => rfl
  | some t =>
      rw [isTimed, Option.all_some, Option.isSome_iff_exists] at h
      obtain ⟨deadline, hdeadline⟩ := h
      rw [Watch.start_of_timed hdeadline]
      exact Watch.result?_expire rfl

theorem came_wait {handle : Nat} {timeout : Option Span}
    (h : (Watch.start v.now timeout v.slot.result?).result? v.slot.result? = some r) :
    Came (v.perform (.wait handle timeout)).2 v.watches.length (some r) :=
  ⟨_, List.getElem?_concat_length, h⟩

-- A wait whose time is up at once looks once and no more.
private theorem Holds.wait_zero (h : Holds before v.slot) (hfirst : first? before = none) {timeout : Span}
    (htimed : isTimed v.now (some timeout) = true) (hzero : timeout.toNanos = 0) (handle : Nat) :
    Came (v.perform (.wait handle (some timeout))).2 v.watches.length (some none) := by
  have hview := h.result?_eq
  rw [hfirst] at hview
  rw [isTimed, Option.all_some, Option.isSome_iff_exists] at htimed
  obtain ⟨deadline, hdeadline⟩ := htimed
  have hnow := Watch.eq_of_deadline? hdeadline
  rw [hzero] at hnow
  have hdue : deadline ≤ v.now := Nat.le_of_eq hnow
  apply came_wait
  rw [Watch.start_of_timed hdeadline, Watch.expire_of_le hdue, hview]
  rfl

-- A wait that has time left blocks.
private theorem Holds.blocks (h : Holds before v.slot) (hfirst : first? before = none) {timeout : Option Span}
    (htimed : isTimed v.now timeout = true) (hleft : ∀ t, timeout = some t → t.toNanos ≠ 0) (handle : Nat) :
    Blocks (v.perform (.wait handle timeout)).2 v.watches.length (timeout.map Span.toNanos) := by
  have hpending : v.slot.isDone = false := by
    rw [h.isDone_eq, hfirst]
    rfl
  refine ⟨hpending, ?_, List.getElem?_concat_length.trans (congrArg some ?_)⟩
  · intro k hk
    obtain ⟨t, ht, rfl⟩ := Option.map_eq_some_iff.mp hk
    exact Nat.pos_of_ne_zero (hleft t ht)
  · cases timeout with
    | none => rfl
    | some t =>
        rw [isTimed, Option.all_some, Option.isSome_iff_exists] at htimed
        obtain ⟨deadline, hdeadline⟩ := htimed
        have hnow := Watch.eq_of_deadline? hdeadline
        have hzero := hleft t rfl
        have hlater : v.now < deadline := by omega
        rw [Watch.start_of_timed hdeadline, Watch.expire_of_lt hlater, hnow]
        rfl

-- Whoever comes before the outcome waits for it.
theorem Holds.wait_early (h : Holds before v.slot) (hfirst : first? before = none) {timeout : Option Span}
    (htimed : isTimed v.now timeout = true) (handle : Nat)
    (hrun : IsRun (v.perform (.wait handle timeout)).2.handles later) :
    Came (after later (v.perform (.wait handle timeout)).2) v.watches.length
      (if timeout.any (·.toNanos ≤ spent (early later)) then some none
        else (first? later).map fun outcome => some outcome.toExcept) := by
  by_cases hzero : ∃ t, timeout = some t ∧ t.toNanos = 0
  · obtain ⟨t, rfl, hzero⟩ := hzero
    have hdue : (some t).any (·.toNanos ≤ spent (early later)) = true := by
      rw [Option.any_some, hzero]
      exact decide_eq_true (Nat.zero_le _)
    rw [if_pos hdue]
    exact (h.wait_zero hfirst htimed hzero handle).after hrun
  · have hblocks := h.blocks hfirst htimed (fun t ht heq => hzero ⟨t, ht, heq⟩) handle
    have hcame := hblocks.after hrun
    rw [Option.any_map] at hcame
    exact hcame

-- A wait that is begun breaks off or comes to an end at once, or blocks.
theorem Holds.wait (h : Holds before v.slot) (handle : Nat) (timeout : Option Span)
    (hrun : IsRun (v.perform (.wait handle timeout)).2.handles later) {now : Nat}
    (hnow : v.now = now + spent before) :
    Came (after later (v.perform (.wait handle timeout)).2) v.watches.length
      (comesTo now before timeout later) := by
  rw [comesTo, ← hnow]
  cases htimed : isTimed v.now timeout with
  | false =>
      rw [if_neg Bool.false_ne_true]
      exact (came_wait (result?_start_of_not_timed htimed _ _)).after hrun
  | true =>
      rw [if_pos rfl]
      cases hfirst : first? before with
      | none => exact h.wait_early hfirst htimed handle hrun
      | some o =>
          have hview := h.result?_eq
          rw [hfirst] at hview
          refine Came.after (came_wait ?_) hrun
          rw [hview]
          exact result?_start_of_timed htimed o.toExcept

end

end

-- Whatever is done around a slot, through handles that exist, its outcome is the first one, and everybody
-- who looks, polls or blocks is told as much of it as there was by then.
theorem assignment_law (now : Nat) {as : List Act} (h : IsRun 1 as) : Assigns now as := by
  have hfollows {before later : List Act} (heq : as = before ++ later) :
      Follows now before (after before (start now)) ∧ IsRun (after before (start now)).handles later := by
    obtain ⟨hbefore, hlater⟩ := isRun_append (v := start now) (heq ▸ h)
    exact ⟨(follows_start now).after hbefore, hlater⟩
  have hwaits : ∀ before handle timeout later, as = before ++ .wait handle timeout :: later →
      Came (after as (start now)) (before.countP Act.isWait) (comesTo now before timeout later) := by
    intro before handle timeout later heq
    obtain ⟨hbefore, hlater⟩ := hfollows heq
    obtain ⟨hreact, hrest⟩ := isRun_perform hlater
    have hafter : after as (start now) =
        after later ((after before (start now)).perform (.wait handle timeout)).2 := by
      rw [heq, after_append, after, List.foldl_cons, hreact]
      rfl
    have hcame := hbefore.slot.wait handle timeout hrest hbefore.now
    rwa [hbefore.watches, ← hafter] at hcame
  constructor
  case answers =>
    intro before a later heq
    obtain ⟨hbefore, hlater⟩ := hfollows heq
    rw [(isRun_perform hlater).1]
    exact hbefore.answer_eq a
  case late =>
    intro before a later heq ha hfirst
    obtain ⟨hbefore, hlater⟩ := hfollows heq
    obtain ⟨o, ho⟩ := Option.isSome_iff_exists.mp ha
    rw [(isRun_perform hlater).1]
    exact hbefore.late_eq ho hfirst
  case waits => exact hwaits
  case reveals_iff =>
    constructor
    · intro hreveals before handle timeout later heq hfirst
      obtain ⟨o, ho⟩ := Option.isSome_iff_exists.mp hfirst
      have hshown : Came _ _ _ := hreveals before handle timeout later o heq ho
      have hcame := (hwaits before handle timeout later heq).unique hshown
      rw [comesTo] at hcame
      split at hcame
      · next htimed => exact htimed
      · cases o <;> cases hcame
    · intro htimed before handle timeout later o heq ho
      have hcame := hwaits before handle timeout later heq
      rw [comesTo, if_pos (htimed before handle timeout later heq (by rw [ho]; rfl)), ho] at hcame
      exact hcame
  case wakes =>
    intro waker
    obtain ⟨hall, -⟩ := hfollows (List.append_nil as).symm
    exact hall.slot.wakes_eq waker

-- A slot that two handles poll and block on fails when one of those who block has given up.
def actsShared : List Act :=
  [.clone 0, .poll 0 "first", .poll 1 "first", .poll 1 "second", .wait 0 (some (.ofSecs 4)), .wait 1 none,
    .pass 7000000000, .fail .queueClosed, .resolve [1, 2, 3], .poll 0 "third"]

theorem assignment_law_shared :
    IsRun 1 actsShared ∧
      (after actsShared (start 0)).slot.wakes "first" = 1 ∧
      (after actsShared (start 0)).slot.wakes "third" = 0 ∧
      (∃ w, (after actsShared (start 0)).watches[0]? = some w ∧
        w.result? (after actsShared (start 0)).slot.result? = some none) ∧
      ∃ w, (after actsShared (start 0)).watches[1]? = some w ∧
        w.result? (after actsShared (start 0)).slot.result? =
          some (some (.error (.waiterFailed .queueClosed))) := by
  have hrun : IsRun 1 actsShared := by simp [actsShared, IsRun, Act.handle?, Act.isClone]
  have hassigns := assignment_law 0 hrun
  refine ⟨hrun, (hassigns.wakes "first").trans (by decide), (hassigns.wakes "third").trans (by decide), ?_, ?_⟩
  · obtain ⟨w, hw, hresult⟩ := hassigns.waits (actsShared.take 4) 0 (some (.ofSecs 4)) (actsShared.drop 5) rfl
    exact ⟨w, hw, hresult.trans ((if_pos (by decide +kernel)).trans (if_pos (by decide +kernel)))⟩
  · obtain ⟨w, hw, hresult⟩ := hassigns.waits (actsShared.take 5) 1 none (actsShared.drop 6) rfl
    exact ⟨w, hw, hresult⟩

-- The longest time that anybody can wait for.
def longest : Span :=
  ⟨18446744073709551615, 999999999, by decide⟩

-- The payload is there, but whoever is willing to wait for it for ever is not told.
theorem not_reveals_longest :
    IsRun 1 [.resolve [1, 2, 3], .wait 0 (some longest)] ∧
      ¬Reveals 0 [.resolve [1, 2, 3], .wait 0 (some longest)] := by
  refine ⟨by simp [IsRun, Act.handle?, Act.isClone], fun hreveals => ?_⟩
  obtain ⟨w, hw, hresult⟩ := hreveals [.resolve [1, 2, 3]] 0 (some longest) [] (.payload [1, 2, 3]) rfl rfl
  obtain rfl := Option.some.inj hw
  cases hresult

end Vigil

end Spool
