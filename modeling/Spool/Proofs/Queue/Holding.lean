import Spool.Proofs.Log.Holding
import Spool.Proofs.Queue.Line

namespace Spool.Queue

-- An open queue over a log that no faults are planned for, with the image of its front.
structure Stands (dir : Path) (base : Location) (s : Host × Store × Queue) (g : Log.Ledger)
    (img : Image) : Prop where
  log : Log.Holds dir base (s.1, s.2.1.log) g
  noFaults : s.2.1.faults = []
  front : s.2.2.front.Serves s.1.disk (frontDir :: base) frontPageSize img
  notClosed : s.2.2.closed = false

-- What comes of a step: the queue stands, and nothing of it but its front was touched.
structure Leads (dir : Path) (base : Location) (s t : Host × Store × Queue) (g : Log.Ledger)
    (img : Image) : Prop where
  stands : Stands dir base t g img
  queue : t.2.2 = { s.2.2 with front := t.2.2.front }

structure Holds (dir : Path) (base : Location) (s : Host × Store × Queue) (q : Line) : Prop where
  stands : ∃ img : Image, Stands dir base s q.ledger img ∧ img.word frontPage frontPosition = q.front
  passed_le : q.passed ≤ q.ledger.items.length

structure Turns (dir : Path) (base : Location) (s t : Host × Store × Queue) (q : Line) : Prop where
  holds : Holds dir base t q
  queue : t.2.2 = { s.2.2 with front := t.2.2.front }

-- What closing leaves of a queue, whatever is told of it.
def retired (q : Queue) : Queue :=
  { q with closed := true, front := q.front.retired }.cancelWaiting

section

variable {dir : Path} {base : Location} {s t u : Host × Store × Queue} {g g' : Log.Ledger}
  {img img' : Image} {q q' : Line}

private theorem front_trans {a b c : Queue} (h : b = { a with front := b.front })
    (h' : c = { b with front := c.front }) : c = { a with front := c.front } := by
  rw [h] at h'
  exact h'

theorem Holds.turns (h : Holds dir base s q) : Turns dir base s s q :=
  ⟨h, rfl⟩

theorem Turns.trans (h : Turns dir base s t q) (h' : Turns dir base t u q') : Turns dir base s u q' :=
  ⟨h'.holds, front_trans h.queue h'.queue⟩

theorem Leads.trans_turns (h : Leads dir base s t g img) (h' : Turns dir base t u q) :
    Turns dir base s u q :=
  ⟨h'.holds, front_trans h.queue h'.queue⟩

theorem Leads.turns (h : Leads dir base s t q.ledger img)
    (hfront : img.word frontPage frontPosition = q.front)
    (hpassed : q.passed ≤ q.ledger.items.length) : Turns dir base s t q :=
  ⟨⟨⟨img, h.stands, hfront⟩, hpassed⟩, h.queue⟩

theorem Holds.log (h : Holds dir base s q) : Log.Holds dir base (s.1, s.2.1.log) q.ledger := by
  obtain ⟨img, hstands, -⟩ := h.stands
  exact hstands.log

theorem Holds.lawful (h : Holds dir base s q) : q.ledger.Lawful :=
  h.log.lawful

theorem Holds.head_eq (h : Holds dir base s q) : s.2.1.head = q.ledger.head :=
  h.log.head_eq

theorem Holds.tail_eq (h : Holds dir base s q) : s.2.1.tail = q.ledger.tail :=
  h.log.tail_eq

-- The front is kept apart from the log.
theorem frontDir_not_mem (base : Location) : frontDir :: base ∉ base :: Log.folders base := by
  simp [Log.folders, frontDir, Log.indexDir, Log.dataDir, Log.endsDir]

theorem folders_apart (base : Location) :
    ∀ folder ∈ Log.folders base, folder ∉ [frontDir :: base] := by
  intro folder hfolder hmem
  rw [List.mem_singleton] at hmem
  exact frontDir_not_mem base (List.mem_cons_of_mem _ (hmem ▸ hfolder))

theorem Stands.onFront {access : Page.Access α} {act : Sheet → Except Error (α × Sheet)}
    (h : Stands dir base s g img) (hacts : Page.Acts access frontPage frontPageSize act) :
    Step.Ends (onFront access) s (img.perform frontPageSize frontPage act).1 fun t =>
      Leads dir base s t g (img.perform frontPageSize frontPage act).2 := by
  have hpage := Cache.ends_withPage h.front.sound (h.front.pageSize ▸ hacts)
  rw [h.front.image, h.front.pageSize] at hpage
  refine Step.Ends.inside (p := frontPart) (hpage.mono fun t ht => ⟨?_, rfl⟩)
  have hsite := h.log.site.of_frame ht.frame ht.sound.houses.is_folder
  exact {
    log := h.log.of_frame ht.frame hsite (folders_apart base)
    noFaults := h.noFaults
    front := h.front.of_leads (s := (s.1, s.2.2.front)) ht
    notClosed := h.notClosed }

-- Closing the log touches nothing of the host, whether or not it goes through.
theorem host_run_close (s : Host × Store) : (Store.close.run s).2.1 = s.1 := by
  have hmeet : ((Store.meet .close).run s).2.1 = s.1 := by
    unfold Store.meet
    rw [Step.run_bind_of_run (Step.run_get s)]
    dsimp only
    rw [Step.run_bind_of_run (Step.run_set _ _)]
    cases (s.2.takeFault .close).1 with
    | none => rfl
    | some fault =>
        dsimp only
        split <;> rfl
  unfold Store.close Store.perform
  rw [Step.run_bind]
  generalize (Store.meet .close).run s = out at hmeet
  obtain ⟨_ | u, t⟩ := out
  · exact hmeet
  · show ((Step.inside Store.logPart Log.close).run t).2.1 = s.1
    rw [Step.run_inside, Log.snd_run_close]
    exact hmeet

-- The front goes first, then those who wait and then the log, each of them whatever came of the ones before.
theorem run_close_of_open (h : s.2.2.closed = false) :
    Queue.close.run s =
      let log := (onStore Store.close).run (s.1, s.2.1, s.2.2.retired)
      ((Cache.close.run (s.1, s.2.2.front)).1 >>= fun _ => log.1, log.2) := by
  have hfront : (Step.inside frontPart Cache.close).attempt.run (s.1, s.2.1, { s.2.2 with closed := true }) =
      (.ok (Cache.close.run (s.1, s.2.2.front)).1,
        (s.1, s.2.1, { s.2.2 with closed := true, front := s.2.2.front.retired })) := by
    rw [Step.run_attempt, Step.run_inside]
    simp only [frontPart, Cache.snd_run_close]
  unfold Queue.close
  rw [Step.run_bind_of_run (Step.run_get s), if_neg (by rw [h]; exact Bool.false_ne_true)]
  refine (Step.run_bind_of_run (Step.run_modify _ s)).trans ((Step.run_bind_of_run hfront).trans ?_)
  refine (Step.run_bind_of_run (Step.run_modify _ _)).trans ?_
  refine (Step.run_bind_of_run (Step.run_attempt _ _)).trans ?_
  cases (Cache.close.run (s.1, s.2.2.front)).1 <;> rfl

theorem host_close (h : s.2.2.closed = false) : (Queue.close.run s).2.1 = s.1 := by
  rw [run_close_of_open h]
  exact host_run_close (s.1, s.2.1)

private theorem takeFault_eq {s : Store} (h : s.faults = []) (call : Call) :
    s.takeFault call = (none, s) := by
  obtain ⟨log, faults⟩ := s
  obtain rfl : faults = [] := h
  rfl

-- Calls on the log go through, as no fault is planned for them.
theorem ends_meet {host : Host} {st : Store} (h : st.faults = []) (call : Call) :
    Step.Ends (Store.meet call) (host, st) (.ok ()) (· = (host, st)) := by
  unfold Store.meet
  refine Step.ends_get_bind ?_
  simp only [takeFault_eq h]
  refine (Step.ends_set (Eq.refl _)).bind ?_
  intro t ht
  exact Step.ends_pure ht.symm

theorem Stands.onStore {x : Log.Action α} {r : Except Error α} (h : Stands dir base s g img)
    (call : Call) (hx : Step.Ends x (s.1, s.2.1.log) r fun t =>
      Log.Turns dir base (s.1, s.2.1.log) t g') :
    Step.Ends (onStore (Store.perform call x)) s r fun t => Leads dir base s t g' img := by
  refine Step.Ends.inside (p := storePart) ((ends_meet h.noFaults call).bind ?_)
  rintro _ rfl
  refine Step.Ends.inside (p := Store.logPart) (hx.mono fun t ht => ⟨?_, rfl⟩)
  exact {
    log := ht.holds
    noFaults := h.noFaults
    front := h.front.of_frame ht.frame (frontDir_not_mem base)
    notClosed := h.notClosed }

theorem Holds.expectOpen (h : Holds dir base s q) : Step.Ends expectOpen s (.ok ()) (· = s) := by
  obtain ⟨img, hstands, -⟩ := h.stands
  unfold Queue.expectOpen
  refine Step.ends_get_bind ?_
  rw [if_neg (by simp [hstands.notClosed])]
  exact Step.ends_pure rfl

theorem ends_store (s : Host × Store × Queue) : Step.Ends store s (.ok s.2.1) (· = s) :=
  Step.ends_get_bind (Step.ends_pure rfl)

section Front

theorem front_aligned : frontPosition % Page.counterSize = 0 := by
  decide

theorem front_bounds : frontPosition + Page.counterSize ≤ frontPageSize := by
  decide

theorem Holds.readFront (h : Holds dir base s q) :
    Step.Ends readFront s (.ok q.front) fun t => Turns dir base s t q := by
  obtain ⟨img, hstands, hfront⟩ := h.stands
  have hread := hstands.onFront (Page.acts_counter front_aligned front_bounds)
  rw [← hfront, ← Image.word_mapped img frontPageSize]
  refine hread.mono fun t ht => ht.turns ?_ h.passed_le
  exact (Image.word_touch _ _ _ _ _).trans hfront

-- The front can be put anywhere from the tail to the head.
theorem Stands.writeFront (h : Stands dir base s q.ledger img)
    (hpassed : q.passed ≤ q.ledger.items.length) :
    Step.Ends (writeFront q.front) s (.ok ()) fun t => Turns dir base s t q := by
  have hwrite := h.onFront (Page.acts_setCounter front_aligned front_bounds q.front)
  exact hwrite.mono fun t ht => ht.turns (Image.word_setWord _ _ _ _ _) hpassed

theorem Holds.increment (h : Holds dir base s q) (hpos : q.waiting ≠ 0) :
    Step.Ends (onFront (Page.increment frontPosition)) s (.ok q.front) fun t =>
      Turns dir base s t (q.skip 1) := by
  obtain ⟨img, hstands, hfront⟩ := h.stands
  have hnext : (q.skip 1).front = q.front + 1 := by
    rw [Line.front_skip, Nat.min_eq_left (Nat.one_le_iff_ne_zero.mpr hpos)]
    rfl
  have hincrement := hstands.onFront (Page.acts_increment front_aligned front_bounds)
  rw [← hfront, ← Image.word_mapped img frontPageSize]
  refine hincrement.mono fun t ht => Leads.turns (q := q.skip 1) ht ?_ (q.skip_le 1 h.passed_le)
  rw [hnext, ← hfront, ← Image.word_mapped img frontPageSize]
  exact Image.word_setWord _ _ _ _ _

end Front

-- A call on the log that leaves the front in the window.
theorem Holds.onStore {x : Log.Action α} {r : Except Error α} (h : Holds dir base s q) (call : Call)
    (hx : Step.Ends x (s.1, s.2.1.log) r fun t =>
      Log.Turns dir base (s.1, s.2.1.log) t q'.ledger)
    (hfront : q'.front = q.front) (hpassed : q'.passed ≤ q'.ledger.items.length) :
    Step.Ends (Queue.onStore (Store.perform call x)) s r fun t => Turns dir base s t q' := by
  obtain ⟨img, hstands, hword⟩ := h.stands
  exact (hstands.onStore call hx).mono fun t ht => ht.turns (hword.trans hfront.symm) hpassed

theorem Holds.fetch (h : Holds dir base s q) (index : UInt64) :
    Step.Ends (Queue.onStore (Store.fetch index)) s (q.ledger.fetch index) fun t =>
      Turns dir base s t q :=
  h.onStore .fetch (h.log.fetch index) rfl h.passed_le

end

end Spool.Queue
