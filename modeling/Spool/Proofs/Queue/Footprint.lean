import Spool.Proofs.Log.Footprint
import Spool.Proofs.Queue.Window

namespace Spool.Queue

def Stage.enqueues : Stage → Nat
  | move (.op o) => o.enqueues
  | _ => 0

-- No call is made to fail, and the size of data pages stays.
def Stage.Steady (pageSize : Nat) : Stage → Prop
  | move m => m.faults = []
  | reopen _ dataPageSize _ => dataPageSize = pageSize

-- What collecting does: the tail follows the front, and nothing changes if it is there already.
structure Collects (base : Location) (s : Host × Store × Queue) (front : UInt64) : Prop where
  frontIndex : (Queue.frontIndex.run s).1 = .ok front
  done : (Queue.collect.run s).1 = .ok ()
  tail : (Queue.collect.run s).2.2.1.tail = if front = s.2.1.tail then s.2.1.tail else front - 1
  head : (Queue.collect.run s).2.2.1.head = s.2.1.head
  stays : (Queue.frontIndex.run (Queue.collect.run s).2).1 = .ok front
  same : front = s.2.1.tail → ∀ folder ∈ Log.folders base,
    (Queue.collect.run s).2.1.disk.image folder = s.1.disk.image folder

-- One page of each kind is left.
def Emptied (s : Host × Store × Queue) (pageSize : Nat) : Prop :=
  (∃ page other, Log.Tidy (s.1, s.2.1.log) pageSize [page] [other]) ∧
    s.2.1.log.diskUsage s.1.disk = .ok (pageSize + Log.Entry.pageSize + 16)

section

variable {dir : Path} {base : Location} {s t : Host × Store × Queue} {b b' : Log.Books}
  {front front' : UInt64} {effect : Effect} {g : Log.Ledger} {n m pageSize : Nat}

theorem Turn.trim (h : Turn s t b front effect b' front') (htrim : b.Trim pageSize g n)
    (hgrown : ∀ payload, effect = .accepted payload → n + 1 ≤ m) (hle : n ≤ m) (hm : m < UInt64.size) :
    ∃ g', b'.Trim pageSize g' m := by
  cases h with
  | rest hlater _ => exact ⟨g, (htrim.later hlater).mono hle⟩
  | poll _ => exact ⟨g, htrim.mono hle⟩
  | collect hin _ => exact ⟨_, (htrim.removeBefore (Nat.lt_of_le_of_lt hle hm) hin).mono hle⟩
  | drop _ _ => exact ⟨g, htrim.mono hle⟩
  | clear _ => exact ⟨_, htrim.removeAll.mono hle⟩
  | take _ hlater _ _ => exact ⟨g, (htrim.later hlater).mono hle⟩
  | @accept payload r b' hfits hlater _ _ =>
      have hroom := hgrown payload rfl
      exact ⟨_, ((htrim.append hfits (Nat.lt_of_le_of_lt hroom hm)).later hlater).mono hroom⟩
  | wait _ _ => exact ⟨g, htrim.mono hle⟩
  | get _ hlater _ _ => exact ⟨g, (htrim.later hlater).mono hle⟩

-- A window is not empty once an item has come, until the queue is emptied as a whole.
theorem Turn.head_ne_tail (h : Turn s t b front effect b' front')
    (hroom : ∀ payload, effect = .accepted payload → (b.head - b.tail).toNat + 1 < UInt64.size)
    (hitem : b.head ≠ b.tail ∧ effect ≠ .cleared ∨ ∃ payload, effect = .accepted payload) :
    b'.head ≠ b'.tail := by
  have hkept : (∀ payload, effect ≠ .accepted payload) → b.head ≠ b.tail := by
    intro hnone
    rcases hitem with ⟨hne, -⟩ | ⟨payload, heffect⟩
    · exact hne
    · exact absurd heffect (hnone payload)
  cases h with
  | rest hlater _ =>
      rw [hlater.head, hlater.tail]
      exact hkept (by simp)
  | poll _ => exact hkept (by simp)
  | collect hin _ =>
      rintro (hsame : b.head = front - 1)
      rw [Log.Books.contains, ← hsame, decide_eq_true_iff] at hin
      exact UInt64.lt_irrefl _ hin
  | drop _ _ => exact hkept (by simp)
  | clear _ =>
      rcases hitem with ⟨-, hcleared⟩ | ⟨payload, heffect⟩
      · exact absurd rfl hcleared
      · cases heffect
  | take _ hlater _ _ =>
      rw [hlater.head, hlater.tail]
      exact hkept (by simp)
  | @accept payload r b' _ hlater _ _ =>
      have hnext := Circle.toNat_succ_sub (hroom payload rfl)
      rw [hlater.head, hlater.tail]
      rintro (hsame : b.head + 1 = b.tail)
      rw [hsame, UInt64.sub_self] at hnext
      cases hnext
  | wait _ _ => exact hkept (by simp)
  | get _ hlater _ _ =>
      rw [hlater.head, hlater.tail]
      exact hkept (by simp)

-- An open queue on a disk that nothing else touches, no call of which is to fail.
structure Housed (dir : Path) (base : Location) (s : Host × Store × Queue) (pageSize n : Nat)
    (b : Log.Books) (front : UInt64) (g : Log.Ledger) : Prop where
  shows : Shows dir base s b front
  attended : s.2.2.Attended front b.head
  window : front - b.tail ≤ b.head - b.tail
  trim : b.Trim pageSize g n
  noFaults : s.2.1.faults = []

theorem Housed.room (h : Housed dir base s pageSize n b front g) (hn : n + 1 < UInt64.size) :
    (b.head - b.tail).toNat + 1 < UInt64.size := by
  rw [h.trim.keeps.toNat_head_sub_tail]
  exact Nat.lt_of_le_of_lt (Nat.succ_le_succ h.trim.within.items) hn

-- There is an item and not all are removed, or one comes.
def Stage.Leaves (stage : Stage) (s : Host × Store × Queue) : Prop :=
  s.2.1.head ≠ s.2.1.tail ∧ stage ≠ .move (.op .removeAll) ∨
    ∃ payload, stage = .move (.op (.enqueue payload)) ∧ ((Queue.enqueue payload).run s).1 = .ok ()

private theorem Move.effect_of_leaves {m : Move} (h : (Stage.move m).Leaves s) :
    s.2.1.head ≠ s.2.1.tail ∧ m.effect (m.perform.run s).1 ≠ .cleared ∨
      ∃ payload, m.effect (m.perform.run s).1 = .accepted payload := by
  rcases h with ⟨hne, hstage⟩ | ⟨payload, hstage, hrun⟩
  · exact .inl ⟨hne, fun hcleared => hstage (congrArg Stage.move (Move.eq_removeAll_of_effect hcleared))⟩
  · exact .inr ⟨payload, Move.effect_eq_accepted_iff.mpr ⟨Stage.move.inj hstage, hrun⟩⟩

theorem Housed.move (h : Housed dir base s pageSize n b front g) {m : Move} (hsteady : m.faults = [])
    (hn : n + (Stage.move m).enqueues < UInt64.size) :
    ∃ b' front' g', Housed dir base (m.act.run s).2 pageSize (n + (Stage.move m).enqueues) b' front' g' ∧
      ((Stage.move m).Leaves s → b'.head ≠ b'.tail) := by
  obtain ⟨r, b', front', hends⟩ := h.shows.move h.attended m
  have hmoves := hends.2
  rw [hends.1.symm, ← m.run_act] at hmoves
  have hgrown : ∀ payload, m.effect (m.perform.run s).1 = .accepted payload →
      n + 1 ≤ n + (Stage.move m).enqueues := by
    intro payload heffect
    obtain rfl := Move.eq_enqueue_of_effect heffect
    exact Nat.le_refl _
  have hroom := fun payload heffect => h.room (Nat.lt_of_le_of_lt (hgrown payload heffect) hn)
  obtain ⟨g', htrim⟩ := hmoves.turn.trim h.trim hgrown (Nat.le_add_right _ _) hn
  have hfaults := hmoves.faults
  rw [h.noFaults, hsteady, List.append_nil, List.sublist_nil] at hfaults
  refine ⟨b', front', g', ?_, fun hleaves => ?_⟩
  · exact {
      shows := hmoves.shows
      attended := hmoves.turn.attended h.attended
      window := hmoves.turn.window_le h.attended h.window hroom
      trim := htrim
      noFaults := hfaults }
  · have hitem := Move.effect_of_leaves hleaves
    rw [h.shows.head_eq, h.shows.tail_eq] at hitem
    exact hmoves.turn.head_ne_tail hroom hitem

theorem Housed.reopen (h : Housed dir base s pageSize n b front g) (closing : Bool)
    (policy : CachePolicy) :
    ∃ b' front', Housed dir base (((Stage.reopen closing pageSize policy).perform dir).run s).2
      pageSize n b' front' g := by
  obtain ⟨l, b', hlog, htrim⟩ := h.shows.log.reopen_trim h.trim policy
  obtain ⟨hshows, hfresh, hfaults⟩ := (h.shows.reopen_over closing hlog).2
  refine ⟨b', _, hshows, hfresh.attended _ _, repairedFront_sub_le _ _ _, htrim, hfaults⟩

theorem Housed.stage (h : Housed dir base s pageSize n b front g) {stage : Stage}
    (hsteady : stage.Steady pageSize) (hn : n + stage.enqueues < UInt64.size) :
    ∃ b' front' g', Housed dir base ((stage.perform dir).run s).2 pageSize (n + stage.enqueues) b' front' g' ∧
      (stage.Leaves s → b'.head ≠ b'.tail) := by
  cases stage with
  | move m => exact h.move hsteady hn
  | reopen closing dataPageSize policy =>
      obtain rfl : dataPageSize = pageSize := hsteady
      obtain ⟨b', front', hreopened⟩ := h.reopen closing policy
      refine ⟨b', front', g, hreopened, fun hleaves => ?_⟩
      have hne : s.2.1.head ≠ s.2.1.tail := by
        rcases hleaves with ⟨hne, -⟩ | ⟨payload, hstage, -⟩
        · exact hne
        · cases hstage
      rw [h.shows.head_eq, h.shows.tail_eq, h.trim.keeps.head, h.trim.keeps.tail] at hne
      rwa [hreopened.trim.keeps.head, hreopened.trim.keeps.tail]

theorem Housed.after (stages : List Stage) (h : Housed dir base s pageSize n b front g)
    (hsteady : ∀ stage ∈ stages, stage.Steady pageSize)
    (hn : n + Step.total Stage.enqueues stages < UInt64.size) :
    ∃ b' front' g', Housed dir base (Step.after (stages.map (Stage.perform dir)) s) pageSize
        (n + Step.total Stage.enqueues stages) b' front' g' ∧
      (b.head ≠ b.tail → .move (.op .removeAll) ∉ stages → b'.head ≠ b'.tail) := by
  induction stages generalizing s n b front g with
  | nil => exact ⟨b, front, g, h, fun hne _ => hne⟩
  | cons stage stages ih =>
      simp only [List.map_cons, Step.total, ← Nat.add_assoc] at hn ⊢
      obtain ⟨b', front', g', hfirst, hleaves⟩ := h.stage (hsteady stage List.mem_cons_self) (by omega)
      obtain ⟨b'', front'', g'', hlast, hkept⟩ :=
        ih hfirst (fun other hother => hsteady other (List.mem_cons_of_mem _ hother)) hn
      refine ⟨b'', front'', g'', hlast, fun hne hnone => ?_⟩
      rw [List.mem_cons, not_or] at hnone
      refine hkept (hleaves (.inl ⟨?_, fun hall => hnone.1 hall.symm⟩)) hnone.2
      rwa [h.shows.head_eq, h.shows.tail_eq]

theorem Housed.after_enqueue {before since : List Stage} {payload : Bytes}
    (h : Housed dir base s pageSize n b front g)
    (hsteady : ∀ stage ∈ before ++ .move (.op (.enqueue payload)) :: since, stage.Steady pageSize)
    (hn : n + Step.total Stage.enqueues (before ++ .move (.op (.enqueue payload)) :: since) < UInt64.size)
    (haccepted : ((Queue.enqueue payload).run (Step.after (before.map (Stage.perform dir)) s)).1 = .ok ())
    (hkept : .move (.op .removeAll) ∉ since) :
    ∃ b' front' g', Housed dir base
        (Step.after ((before ++ .move (.op (.enqueue payload)) :: since).map (Stage.perform dir)) s) pageSize
        (n + Step.total Stage.enqueues (before ++ .move (.op (.enqueue payload)) :: since)) b' front' g' ∧
      b'.head ≠ b'.tail := by
  simp only [Step.total_append, Step.total, ← Nat.add_assoc, List.map_append, List.map_cons,
    Step.after_append, List.mem_append, List.mem_cons] at hn hsteady ⊢
  obtain ⟨b₁, front₁, g₁, h₁, -⟩ := h.after before (fun stage hstage => hsteady stage (.inl hstage)) (by omega)
  obtain ⟨b₂, front₂, g₂, h₂, hcame⟩ := h₁.stage (hsteady _ (.inr (.inl rfl))) (by omega)
  obtain ⟨b₃, front₃, g₃, h₃, hstayed⟩ :=
    h₂.after since (fun stage hstage => hsteady stage (.inr (.inr hstage))) hn
  exact ⟨b₃, front₃, g₃, h₃, hstayed (hcame (.inr ⟨payload, rfl, haccepted⟩)) hkept⟩

private theorem Housed.not_fails (h : Housed dir base s pageSize n b front g) (call : Call)
    (fault : Fault) : ¬s.2.1.Fails call fault := by
  rintro ⟨hmem, -⟩
  rw [h.noFaults] at hmem
  cases hmem

theorem Shows.image_eq (h : Shows dir base s b front) (ht : Shows dir base t b front') :
    ∀ folder ∈ Log.folders base, t.1.disk.image folder = s.1.disk.image folder := by
  intro folder hfolder
  simp only [Log.folders, List.mem_cons, List.not_mem_nil, or_false] at hfolder
  rcases hfolder with rfl | rfl | rfl
  · exact ht.log.index.image.trans h.log.index.image.symm
  · exact ht.log.data.image.trans h.log.data.image.symm
  · exact ht.log.ends.image.trans h.log.ends.image.symm

-- In front of the front there is an item in the window unless the front is at the tail.
theorem contains_front_sub_one (h : front - b.tail ≤ b.head - b.tail) :
    b.contains (front - 1) = true ↔ front ≠ b.tail := by
  have hdistance : front - 1 - b.tail = front - b.tail - 1 := by grind
  rw [Log.Books.contains, hdistance, decide_eq_true_iff]
  constructor
  · intro hlt hsame
    have hmax := UInt64.toNat_lt (b.head - b.tail)
    have hlast : ((0 : UInt64) - 1).toNat = 2 ^ 64 - 1 := by decide
    rw [hsame, UInt64.sub_self, UInt64.lt_iff_toNat_lt] at hlt
    omega
  · intro hne
    have hpos : (1 : UInt64) ≤ front - b.tail :=
      UInt64.le_iff_toNat_le.mpr (Circle.one_le_toNat_sub (Ne.symm hne))
    rw [UInt64.lt_iff_toNat_lt, UInt64.toNat_sub_of_le _ _ hpos]
    rw [UInt64.le_iff_toNat_le] at h hpos
    exact Nat.lt_of_lt_of_le (Nat.sub_lt hpos Nat.one_pos) h

theorem Housed.collects (h : Housed dir base s pageSize n b front g) : Collects base s front := by
  have hhead := h.shows.head_eq
  have htail := h.shows.tail_eq
  by_cases hsame : front = b.tail
  · have hout : b.contains (front - 1) = false := by
      rw [← Bool.not_eq_true, contains_front_sub_one h.window]
      exact not_not_intro hsame
    obtain ⟨r, hends, hreplies⟩ := h.shows.collect_outside hout
    have hshows := hends.2.1
    refine ⟨h.shows.frontIndex.1, ?done, ?tail, ?head, hshows.frontIndex.1, fun _ => h.shows.image_eq hshows⟩
    case done =>
      rcases hreplies with rfl | ⟨fault, hfails, -⟩
      · exact hends.1
      · exact absurd hfails (h.not_fails _ fault)
    case tail => rw [hshows.tail_eq, htail, if_pos hsame]
    case head => rw [hshows.head_eq, hhead]
  · rcases h.shows.collect_inside ((contains_front_sub_one h.window).mpr hsame) with
      hends | ⟨fault, hfails, -⟩
    · have hshows := hends.2.1
      refine ⟨h.shows.frontIndex.1, hends.1, ?tail, ?head, hshows.frontIndex.1, ?same⟩
      case tail =>
        rw [hshows.tail_eq, htail, if_neg hsame]
        rfl
      case head =>
        rw [hshows.head_eq, hhead]
        rfl
      case same => exact fun hfront => absurd (hfront.trans htail) hsame
    · exact absurd hfails (h.not_fails _ fault)

theorem Housed.tidy (h : Housed dir base s pageSize n b front g) (hn : n < UInt64.size) :
    ∃ data index, Log.Tidy (s.1, s.2.1.log) pageSize data index :=
  h.shows.log.tidy h.trim hn

-- What is left is the last item.
theorem Housed.emptied (h : Housed dir base s pageSize n b front g) (hn : n < UInt64.size)
    (hne : b.head ≠ b.tail) (hempty : (Queue.isEmpty.run s).1 = .ok true) :
    Emptied (Queue.collect.run s).2 pageSize := by
  have hfront : front = b.head := by
    rw [h.shows.isEmpty.1] at hempty
    exact of_decide_eq_true (Except.ok.inj hempty)
  have hcollects := h.collects
  have hends : Step.Ends Queue.collect s (Queue.collect.run s).1 (· = (Queue.collect.run s).2) := ⟨rfl, rfl⟩
  have hrun : ((Move.op .collect).perform.run s).2 = (Queue.collect.run s).2 :=
    ((hends.map fun _ => Answer.done).map Report.answer).2
  obtain ⟨b', front', g', hcollected, -⟩ := h.move (m := .op .collect) rfl hn
  rw [Move.run_act, hrun] at hcollected
  obtain ⟨data, index, htidy⟩ := hcollected.tidy hn
  have hsingle : (Queue.collect.run s).2.2.1.head.toNat = (Queue.collect.run s).2.2.1.tail.toNat + 1 := by
    have hlength := h.trim.straight.toNat_head hn
    rw [← h.trim.keeps.head, ← h.trim.keeps.tail, ← h.trim.keeps.toNat_head_sub_tail] at hlength
    have hpos := Circle.one_le_toNat_sub (Ne.symm hne)
    have hone : (1 : UInt64) ≤ b.head := UInt64.le_iff_toNat_le.mpr (hlength ▸ Nat.le_add_left_of_le hpos)
    rw [hcollects.head, hcollects.tail, h.shows.head_eq, h.shows.tail_eq, hfront, if_neg hne,
      UInt64.toNat_sub_of_le _ _ hone]
    exact (Nat.sub_add_cancel (UInt64.le_iff_toNat_le.mp hone)).symm
  obtain ⟨page, other, rfl, rfl⟩ := htidy.of_single hsingle
  have husage := htidy.diskUsage
  rw [List.length_singleton, List.length_singleton, Nat.one_mul, Nat.one_mul,
    Nat.add_comm Log.Entry.pageSize] at husage
  exact ⟨⟨page, other, htidy⟩, husage⟩

-- On directories of its own, whatever happens to a queue, the pages on its disk are those of its window.
theorem footprint_law (host : Host) (h : host.disk.Vacant dir base) (hpos : 0 < pageSize)
    (hle : pageSize ≤ Log.maxDataPageSize) (policy : CachePolicy) :
    ∃ host' sq, (openAt dir pageSize policy).run host = (.ok sq, host') ∧
      ∀ stages : List Stage, (∀ stage ∈ stages, stage.Steady pageSize) →
        Step.total Stage.enqueues stages < UInt64.size →
        let s := Step.after (stages.map (Stage.perform dir)) (host', sq)
        (∃ data index, Log.Tidy (s.1, s.2.1.log) pageSize data index) ∧ (∃ front, Collects base s front) ∧
          ∀ before payload since, stages = before ++ .move (.op (.enqueue payload)) :: since →
            ((enqueue payload).run (Step.after (before.map (Stage.perform dir)) (host', sq))).1 = .ok () →
            .move (.op .removeAll) ∉ since → (isEmpty.run s).1 = .ok true →
            Emptied (collect.run s).2 pageSize := by
  obtain ⟨l, hlog⟩ := (Log.startsAt_zero h).open_found hpos hle policy
  obtain ⟨sq, hopen, hfaults, hfresh⟩ := exists_openAt hlog
  obtain ⟨host', hrun, hshows⟩ := hopen.run_eq
  have hstart : Housed dir base (host', sq) pageSize 0 _ _ _ := ⟨hshows, hfresh.attended _ _,
    repairedFront_sub_le _ _ _, Log.trim_found h hpos hle, hfaults⟩
  refine ⟨host', sq, hrun, fun stages hsteady hcount => ?_⟩
  rw [← Nat.zero_add (Step.total _ _)] at hcount
  obtain ⟨b, front, g, hhoused, -⟩ := hstart.after stages hsteady hcount
  refine ⟨hhoused.tidy hcount, ⟨front, hhoused.collects⟩, ?_⟩
  rintro before payload since rfl haccepted hkept hempty
  obtain ⟨b', front', g', hlast, hne⟩ := hstart.after_enqueue hsteady hcount haccepted hkept
  exact hlast.emptied hcount hne hempty

end

-- Two items on pages of their own, the queue opened again between them, and both taken.
def sampleStages : List Stage :=
  [.move (.op (.enqueue [1, 2, 3])), .reopen true 4 .pinned] ++ .move (.op (.enqueue [4, 5])) ::
    [.move (.op .dequeue), .move (.op .dequeue)]

theorem footprint_law_emptied :
    ∃ host' sq, (openAt ⟨"spool"⟩ 4 .pinned).run ⟨Disk.empty.addDirectory ["spool"], 0⟩ =
        (.ok sq, host') ∧
      let s := Step.after (sampleStages.map (Stage.perform ⟨"spool"⟩)) (host', sq)
      (∃ data index, Log.Tidy (s.1, s.2.1.log) 4 data index) ∧ (∃ front, Collects ["spool"] s front) ∧
        Emptied (collect.run s).2 4 := by
  have hvacant := Disk.vacant_addDirectory (by decide : Disk.PartName "spool")
  obtain ⟨host', sq, hrun, hlaw⟩ := footprint_law ⟨Disk.empty.addDirectory ["spool"], 0⟩ hvacant
    (by decide : 0 < 4) (by decide) .pinned
  have hsteps : (((openAt ⟨"spool"⟩ 4 .pinned).run ⟨Disk.empty.addDirectory ["spool"], 0⟩).1.toOption.any
      fun sq =>
        let opened := (((openAt ⟨"spool"⟩ 4 .pinned).run ⟨Disk.empty.addDirectory ["spool"], 0⟩).2, sq)
        ((enqueue [4, 5]).run (Step.after (([.move (.op (.enqueue [1, 2, 3])),
            .reopen true 4 .pinned] : List Stage).map (Stage.perform ⟨"spool"⟩)) opened)).1.toOption =
          some () ∧
        (isEmpty.run (Step.after (sampleStages.map (Stage.perform ⟨"spool"⟩)) opened)).1.toOption =
          some true) = true := by decide +kernel
  rw [hrun] at hsteps
  obtain ⟨haccepted, hempty⟩ := of_decide_eq_true hsteps
  obtain ⟨htidy, hcollects, hemptied⟩ := hlaw sampleStages (by simp [sampleStages, Stage.Steady, Move.faults])
    (by decide)
  exact ⟨host', sq, hrun, htidy, hcollects, hemptied _ _ _ rfl (Step.eq_ok_of_toOption haccepted) (by simp)
    (Step.eq_ok_of_toOption hempty)⟩

end Spool.Queue
