import Spool.Proofs.Log.Reclaiming
import Spool.Proofs.Queue.Stages

namespace Spool.Queue

-- The loop that visits items up to the head: from an index on, the indexes that it reads at, and what
-- comes of it.
inductive Loop (head : UInt64) : Host × Store × Queue → UInt64 → List UInt64 →
    List Bytes × Except Error Unit → Host × Store × Queue → Prop where
  | done (s : Host × Store × Queue) : Loop head s head [] ([], .ok ()) s
  | fail {s t : Host × Store × Queue} {index : UInt64} {e : Error} (hne : index ≠ head)
    (hfetch : (onStore (Store.fetch index)).run s = (.error e, t)) :
    Loop head s index [index] ([], .error e) t
  | visit {s t u : Host × Store × Queue} {index : UInt64} {payload : Bytes} {reads : List UInt64}
    {payloads : List Bytes} {r : Except Error Unit} (hne : index ≠ head)
    (hfetch : (onStore (Store.fetch index)).run s = (.ok payload, t))
    (hrest : Loop head t (index + 1) reads (payloads, r) u) :
    Loop head s index (index :: reads) (payload :: payloads, r) u

-- The ends of the window that are kept on the disk.
def keptHead (d : Disk) (base : Location) : UInt64 :=
  (d.image (Log.endsDir :: base)).word Log.endsPage Log.headPosition

def keptTail (d : Disk) (base : Location) : UInt64 :=
  (d.image (Log.endsDir :: base)).word Log.endsPage Log.tailPosition

-- What a front in the window means for what can be asked of a queue.
structure Windowed (s : Host × Store × Queue) (front : UInt64) : Prop where
  frontIndex : (Queue.frontIndex.run s).1 = .ok front
  le : front - s.2.1.tail ≤ s.2.1.head - s.2.1.tail
  size : (Queue.size.run s).1 = .ok (s.2.1.head - front)
  size_le : s.2.1.head - front ≤ s.2.1.head - s.2.1.tail
  dequeue : ∃ index?, Passes Queue.dequeue s index? ∧ ∀ index ∈ index?, s.2.1.log.contains index
  peek : ∃ index?, Passes Queue.peek s index? ∧ ∀ index ∈ index?, s.2.1.log.contains index
  peekAt : ∀ offset, ∃ index?, Passes (Queue.peekAt offset) s index? ∧
    ∀ index ∈ index?, s.2.1.log.contains index
  forEach : ∃ t reads visited u, t.2.1 = s.2.1 ∧ Loop s.2.1.head t front reads visited u ∧
    (Queue.forEach pure).run s = (.ok visited, u) ∧ reads.length ≤ (s.2.1.head - front).toNat ∧
    ∀ index ∈ reads, s.2.1.log.contains index

-- There is an index left if an item comes.
def Stage.HasIndex : Stage → Host × Store × Queue → Prop
  | move (.op (.enqueue _)), s => (s.2.1.head - s.2.1.tail).toNat + 1 < UInt64.size
  | _, _ => True

section

variable {dir : Path} {base : Location} {s t : Host × Store × Queue} {b b' : Log.Books}
  {front front' : UInt64} {effect : Effect}

-- The front goes no further than the head in any turn.
theorem Turn.window_le (h : Turn s t b front effect b' front')
    (hattended : s.2.2.Attended front b.head) (hle : front - b.tail ≤ b.head - b.tail)
    (hroom : ∀ payload, effect = .accepted payload → (b.head - b.tail).toNat + 1 < UInt64.size) :
    front' - b'.tail ≤ b'.head - b'.tail := by
  cases h with
  | rest hlater _ =>
      rw [hlater.head, hlater.tail]
      exact hle
  | poll _ => exact hle
  | collect hin _ =>
      have hne : front - 1 ≠ b.head := by
        rintro hsame
        rw [Log.Books.contains, hsame, decide_eq_true_iff] at hin
        exact UInt64.lt_irrefl _ hin
      have hone : front - (front - 1) = 1 := by grind
      show front - (front - 1) ≤ b.head - (front - 1)
      rw [hone, UInt64.le_iff_toNat_le]
      exact Circle.one_le_toNat_sub hne
  | drop hk _ => exact Circle.add_ofNat_sub_le hle hk
  | clear _ => exact UInt64.le_refl _
  | take hsome hlater _ _ =>
      rw [hlater.head, hlater.tail]
      exact Circle.add_ofNat_sub_le (k := 1) hle (Circle.one_le_toNat_sub hsome)
  | @accept payload r b' _ hlater _ _ =>
      have hnext := Circle.toNat_succ_sub (hroom payload rfl)
      rw [hlater.head, hlater.tail]
      show _ ≤ b.head + 1 - b.tail
      have hgrown : front - b.tail ≤ b.head + 1 - b.tail := by
        rw [UInt64.le_iff_toNat_le] at hle ⊢
        omega
      unfold stepFor
      cases hpending : s.2.2.pending? (slotOf .take s.2.2) with
      | none => exact (UInt64.add_zero front).symm ▸ hgrown
      | some id =>
          have hidle := hattended.idle (pending?_eq_some_iff.mp hpending).2
          refine Circle.add_ofNat_sub_le (k := 1) hgrown (Circle.one_le_toNat_sub ?_)
          rw [hidle]
          exact fun hsame => absurd (UInt64.left_eq_add.mp hsame) (by decide)
  | wait _ _ => exact hle
  | @get kind r b' hsome hlater _ _ =>
      rw [hlater.head, hlater.tail]
      cases kind with
      | look => exact (UInt64.add_zero front).symm ▸ hle
      | take => exact Circle.add_ofNat_sub_le (k := 1) hle (Circle.one_le_toNat_sub hsome)

-- A count of the items up to the head is all that the loop needs.
private theorem exists_loop (n : Nat) (s : Host × Store × Queue) {head index : UInt64}
    (hn : (head - index).toNat = n) :
    ∃ reads visited u, (visitFrom pure n index).run s = (.ok visited, u) ∧
      Loop head s index reads visited u ∧ reads.length ≤ n ∧
      ∀ i ∈ reads, ∃ k < n, i = index + UInt64.ofNat k := by
  induction n generalizing s index with
  | zero =>
      have hend : head - index = 0 := UInt64.toNat_inj.mp hn
      obtain rfl : index = head := by grind
      exact ⟨[], ([], .ok ()), s, rfl, .done s, Nat.le_refl 0, fun i hi => by cases hi⟩
  | succ n ih =>
      have hne : index ≠ head := by
        rintro rfl
        rw [UInt64.sub_self] at hn
        cases hn
      have hrest : (head - (index + 1)).toNat = n :=
        Nat.succ.inj ((Circle.toNat_sub_succ hne).trans hn)
      have hfirst : index = index + UInt64.ofNat 0 := (UInt64.add_zero index).symm
      have hattempt := Step.run_attempt (onStore (Store.fetch index)) s
      rcases hfetch : (onStore (Store.fetch index)).run s with ⟨e | payload, t⟩
      · rw [hfetch] at hattempt
        refine ⟨[index], ([], .error e), t, ?_, .fail hne hfetch, Nat.succ_le_succ (Nat.zero_le n), ?_⟩
        · unfold visitFrom
          rw [Step.run_bind_of_run hattempt]
          rfl
        · intro i hi
          exact ⟨0, Nat.zero_lt_succ n, (List.mem_singleton.mp hi).trans hfirst⟩
      · rw [hfetch] at hattempt
        obtain ⟨reads, ⟨payloads, r⟩, u, hrun, hloop, hlength, hreads⟩ := ih t hrest
        refine ⟨index :: reads, (payload :: payloads, r), u, ?_, .visit hne hfetch hloop,
          Nat.succ_le_succ hlength, ?_⟩
        · unfold visitFrom
          rw [Step.run_bind_of_run hattempt]
          show ((pure payload : Action Bytes) >>= _).run t = _
          rw [Step.run_bind_of_run (Step.run_pure payload t), Step.run_bind_of_run hrun]
          rfl
        · intro i hi
          rcases List.mem_cons.mp hi with rfl | hi
          · exact ⟨0, Nat.zero_lt_succ n, hfirst⟩
          · obtain ⟨k, hk, rfl⟩ := hreads i hi
            refine ⟨k + 1, Nat.succ_lt_succ hk, ?_⟩
            rw [Circle.add_ofNat_succ]
            grind

private theorem Shows.contains (h : Shows dir base s b front)
    (hle : front - b.tail ≤ b.head - b.tail) {k : Nat} (hk : k < (b.head - front).toNat) :
    s.2.1.log.contains (front + UInt64.ofNat k) = true := by
  rw [h.log.contains_eq, Log.Books.contains, decide_eq_true_iff]
  exact Circle.add_ofNat_sub_lt hle hk

private theorem Shows.passes {read : Action (Option Bytes)} {step : UInt64}
    (h : Shows dir base s b front) (hle : front - b.tail ≤ b.head - b.tail)
    (hands : Hands dir base read step) :
    ∃ index?, Passes read s index? ∧ ∀ index ∈ index?, s.2.1.log.contains index = true := by
  by_cases hnone : front = b.head
  · obtain ⟨t, hrun, -, hglances⟩ := hands.absent h hnone
    exact ⟨none, ⟨t, hglances.store, hrun⟩, fun index hindex => by cases hindex⟩
  · obtain ⟨t, hrun, -, hglances⟩ := hands.present h hnone
    refine ⟨some front, ⟨t, hglances.store, hrun⟩, ?_⟩
    rintro _ ⟨⟩
    rw [← UInt64.add_zero front]
    exact h.contains hle (Circle.one_le_toNat_sub hnone)

theorem Shows.windowed (h : Shows dir base s b front) (hle : front - b.tail ≤ b.head - b.tail) :
    Windowed s front := by
  have hhead := h.head_eq
  have htail := h.tail_eq
  constructor
  case frontIndex => exact h.frontIndex.1
  case le => rwa [hhead, htail]
  case size =>
    rw [hhead]
    exact h.size.1
  case size_le =>
    rw [hhead, htail, UInt64.le_iff_toNat_le, Circle.toNat_sub_of_le hle]
    exact Nat.sub_le _ _
  case dequeue => exact h.passes hle (hands_dequeue dir base)
  case peek => exact h.passes hle (hands_peek dir base)
  case peekAt =>
    intro offset
    by_cases hreaches : Reaches b front offset
    · obtain ⟨t, hrun, -, hglances⟩ := h.peekAt_run hreaches
      refine ⟨some _, ⟨t, hglances.store, hrun⟩, ?_⟩
      rintro _ ⟨⟩
      exact h.contains hle hreaches.2
    · obtain ⟨t, hrun, -, hglances⟩ := (h.peekAt_none hreaches).run_eq
      exact ⟨none, ⟨t, hglances.store, hrun⟩, fun index hindex => by cases hindex⟩
  case forEach =>
    obtain ⟨t, hrun, -, hglances⟩ := h.forEach_run
    obtain ⟨reads, visited, u, hvisit, hloop, hlength, hreads⟩ :=
      exists_loop _ t (Eq.refl (b.head - front).toNat)
    rw [hhead]
    refine ⟨t, reads, visited, u, hglances.store, hloop, hrun.trans hvisit, hlength, ?_⟩
    intro i hi
    obtain ⟨k, hk, rfl⟩ := hreads i hi
    exact h.contains hle hk

-- An open queue with its front in the window.
def Sane (dir : Path) (base : Location) (s : Host × Store × Queue) : Prop :=
  ∃ b front, Shows dir base s b front ∧ s.2.2.Attended front b.head ∧ front - b.tail ≤ b.head - b.tail

theorem Sane.stage (h : Sane dir base s) {stage : Stage} (hvalid : stage.IsValid)
    (hindex : stage.HasIndex s) : Sane dir base ((stage.perform dir).run s).2 := by
  obtain ⟨b, front, hshows, hattended, hle⟩ := h
  cases stage with
  | move m =>
      obtain ⟨r, b', front', hends⟩ := hshows.move hattended m
      have hmoves := hends.discard.2
      refine ⟨b', front', hmoves.shows, hmoves.turn.attended hattended, ?_⟩
      refine hmoves.turn.window_le hattended hle ?_
      intro payload heffect
      obtain rfl := Move.eq_enqueue_of_effect heffect
      rw [← hshows.head_eq, ← hshows.tail_eq]
      exact hindex
  | reopen closing pageSize policy =>
      obtain ⟨b', hends, -⟩ := hshows.reopen closing hvalid.1 hvalid.2 policy
      exact ⟨b', _, hends.2.1, hends.2.2.1.attended _ _, repairedFront_sub_le _ _ _⟩

theorem Sane.after (stages : List Stage) (h : Sane dir base s)
    (hvalid : ∀ stage ∈ stages, stage.IsValid)
    (hindex : Step.Along (Stage.perform dir) Stage.HasIndex stages s) :
    Sane dir base (Step.after (stages.map (Stage.perform dir)) s) := by
  induction stages generalizing s with
  | nil => exact h
  | cons stage stages ih =>
      have hfirst := h.stage (hvalid stage (List.mem_cons_self ..)) hindex.1
      exact ih hfirst (fun other hother => hvalid other (List.mem_cons_of_mem _ hother)) hindex.2

-- From any counters on: the front is taken up or put back to the tail, and never leaves the window again.
theorem window_law (host : Host) (h : host.disk.Site dir base) {pageSize : Nat} (hpos : 0 < pageSize)
    (hle : pageSize ≤ Log.maxDataPageSize) (policy : CachePolicy) :
    ∃ host' sq, (openAt dir pageSize policy).run host = (.ok sq, host') ∧
      sq.1.head = keptHead host.disk base ∧ sq.1.tail = keptTail host.disk base ∧
      (frontIndex.run (host', sq)).1 =
        .ok (if keptFront host.disk base - sq.1.tail ≤ sq.1.head - sq.1.tail then
          keptFront host.disk base else sq.1.tail) ∧
      ∀ stages : List Stage, (∀ stage ∈ stages, stage.IsValid) →
        Step.Along (Stage.perform dir) Stage.HasIndex stages (host', sq) →
        ∃ front, Windowed (Step.after (stages.map (Stage.perform dir)) (host', sq)) front := by
  obtain ⟨sq, b, hopen, hhead, htail, -, -, hfresh⟩ := ends_openAt_any h hpos hle policy
  obtain ⟨host', hrun, hshows⟩ := hopen.run_eq
  have hstart : Sane dir base (host', sq) :=
    ⟨b, _, hshows, hfresh.attended _ _, repairedFront_sub_le _ _ _⟩
  refine ⟨host', sq, hrun, hshows.head_eq.trans hhead, hshows.tail_eq.trans htail, ?_, ?_⟩
  · have hfront := hshows.frontIndex.1
    rw [← hshows.head_eq, ← hshows.tail_eq, repairedFront] at hfront
    rw [hfront]
    simp only [← UInt64.not_lt, ite_not]
  · intro stages hvalid hindex
    obtain ⟨b, front, hafter, -, hwindow⟩ := hstart.after stages hvalid hindex
    exact ⟨front, hafter.windowed hwindow⟩

end

-- Counters just before the end of the words, a front that is not in the window, somebody who waits for
-- the item that comes, a read that fails, and the queue opened again.
theorem window_law_turn :
    ∃ host' sq, (openAt ⟨"spool"⟩ 64 .pinned).run
        ⟨Log.seeded (Disk.empty.addDirectory ["spool"]) ["spool"] 18446744073709551615, 0⟩ =
          (.ok sq, host') ∧
      ∃ front, Windowed (Step.after ([.move (.op (.enqueue [1, 2, 3])), .move (.ask .take),
        .move (.plan ⟨.fetch, "disk"⟩), .move (.op (.removeN (-1))), .move (.op .collect),
        .reopen true 16 .pinned, .move (.op .dequeue)].map (Stage.perform ⟨"spool"⟩)) (host', sq))
          front := by
  have hvacant := Disk.vacant_addDirectory (by decide : Disk.PartName "spool")
  have hstarts := Log.startsAt_seeded hvacant 18446744073709551615
  obtain ⟨host', sq, hrun, hhead, htail, -, hlaw⟩ := window_law ⟨_, 0⟩ hstarts.site
    (by decide : 0 < 64) (by decide) .pinned
  refine ⟨host', sq, hrun, hlaw _ ?_ ⟨?_, trivial, trivial, trivial, trivial, trivial, trivial, trivial⟩⟩
  · intro stage hstage
    simp only [List.mem_cons, List.not_mem_nil, or_false] at hstage
    rcases hstage with rfl | rfl | rfl | rfl | rfl | rfl | rfl
    all_goals simp [Stage.IsValid, Log.maxDataPageSize]
  · show (sq.1.head - sq.1.tail).toNat + 1 < UInt64.size
    have hhead' : sq.1.head = 18446744073709551615 := hhead.trans hstarts.head
    have htail' : sq.1.tail = 18446744073709551615 := htail.trans hstarts.tail
    rw [hhead', htail']
    decide

end Spool.Queue
