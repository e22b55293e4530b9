import Spool.Proofs.Log.Reading
import Spool.Proofs.Queue.Holding

namespace Spool

namespace Store

private theorem takeFault_cases (st : Store) (call : Call) :
    (st.takeFault call).2.log = st.log ∧ (st.takeFault call).2.faults.Sublist st.faults ∧
      ∀ fault, (st.takeFault call).1 = some fault → fault ∈ st.faults ∧ fault.call = call := by
  refine ⟨rfl, List.eraseP_sublist, fun fault hfault => ?_⟩
  have hfind : st.faults.find? (fun f => decide (f.call = call)) = some fault := hfault
  exact ⟨List.mem_of_find?_eq_some hfind, by simpa using List.find?_some hfind⟩

-- A fault makes a call fail if it was planned for it and has a message.
def Fails (st : Store) (call : Call) (fault : Fault) : Prop :=
  fault ∈ st.faults ∧ fault.call = call ∧ fault.message ≠ ""

theorem ends_meet (host : Host) (st : Store) (call : Call) :
    Step.Ends (meet call) (host, st) (.ok ()) (fun t => t.1 = host ∧ t.2.log = st.log ∧
        t.2.faults.Sublist st.faults) ∨
      ∃ fault, st.Fails call fault ∧ Step.Ends (meet call) (host, st)
        (.error (.internal fault.message)) fun t => t.1 = host ∧ t.2.log = st.log ∧
          t.2.faults.Sublist st.faults := by
  obtain ⟨hlog, hfaults, hfound⟩ := takeFault_cases st call
  unfold meet
  generalize htake : st.takeFault call = taken at hlog hfaults hfound
  obtain ⟨fault?, rest⟩ := taken
  have hset : Step.Ends (set (host, rest) : Action PUnit) (host, st) (.ok ⟨⟩) (· = (host, rest)) :=
    Step.ends_set rfl
  have hgoes : ∀ x : Action Unit, Step.Ends x (host, rest) (.ok ()) (· = (host, rest)) →
      Step.Ends (do set (host, rest); x) (host, st) (.ok ()) fun t => t.1 = host ∧
        t.2.log = st.log ∧ t.2.faults.Sublist st.faults := by
    intro x hx
    refine hset.bind ?_
    rintro _ rfl
    refine hx.mono ?_
    rintro _ rfl
    exact ⟨rfl, hlog, hfaults⟩
  cases fault? with
  | none =>
      refine .inl (Step.ends_get_bind ?_)
      simp only [htake]
      exact hgoes _ (Step.ends_pure rfl)
  | some fault =>
      obtain ⟨hmem, hcall⟩ := hfound fault rfl
      by_cases hmessage : fault.message = ""
      · refine .inl (Step.ends_get_bind ?_)
        simp only [htake, hmessage, ne_eq, not_true_eq_false, if_false]
        exact hgoes _ (Step.ends_pure rfl)
      · refine .inr ⟨fault, ⟨hmem, hcall, hmessage⟩, Step.ends_get_bind ?_⟩
        simp only [htake, ne_eq, hmessage, not_false_eq_true, if_true]
        refine hset.bind ?_
        rintro _ rfl
        exact Step.ends_throw ⟨rfl, hlog, hfaults⟩

end Store

namespace Queue

-- An open queue with the books of its log and its front.
structure Shows (dir : Path) (base : Location) (s : Host × Store × Queue) (b : Log.Books)
    (front : UInt64) : Prop where
  log : Log.Shows dir base (s.1, s.2.1.log) b
  front : ∃ img : Image, s.2.2.front.Serves s.1.disk (frontDir :: base) frontPageSize img ∧
    img.word frontPage frontPosition = front
  notClosed : s.2.2.closed = false

-- Nobody who waits has noticed.
structure Spares (s t : Host × Store × Queue) : Prop where
  faults : t.2.1.faults.Sublist s.2.1.faults
  queue : t.2.2 = { s.2.2 with front := t.2.2.front }

-- The log has not noticed either.
structure Glances (s t : Host × Store × Queue) : Prop where
  store : t.2.1 = s.2.1
  queue : t.2.2 = { s.2.2 with front := t.2.2.front }

section

variable {dir : Path} {base : Location} {s t u : Host × Store × Queue} {b b' : Log.Books}
  {front : UInt64}

theorem Glances.spares (h : Glances s t) : Spares s t :=
  ⟨h.store ▸ List.Sublist.refl _, h.queue⟩

theorem Spares.refl (s : Host × Store × Queue) : Spares s s :=
  ⟨List.Sublist.refl _, rfl⟩

theorem Spares.trans (h : Spares s t) (h' : Spares t u) : Spares s u := by
  refine ⟨h'.faults.trans h.faults, ?_⟩
  rw [h'.queue, h.queue]

theorem Spares.slots (h : Spares s t) : t.2.2.slots = s.2.2.slots := by
  rw [h.queue]

theorem Shows.head_eq (h : Shows dir base s b front) : s.2.1.head = b.head :=
  h.log.head

theorem Shows.tail_eq (h : Shows dir base s b front) : s.2.1.tail = b.tail :=
  h.log.tail

private theorem Shows.ends_onFront {img : Image} {access : Page.Access α}
    {act : Sheet → Except Error (α × Sheet)} (h : Shows dir base s b front)
    (hserves : s.2.2.front.Serves s.1.disk (frontDir :: base) frontPageSize img)
    (hacts : Page.Acts access frontPage frontPageSize act) {front' : UInt64}
    (hword : (img.perform frontPageSize frontPage act).2.word frontPage frontPosition = front') :
    Step.Ends (onFront access) s (img.perform frontPageSize frontPage act).1 fun t =>
      Shows dir base t b front' ∧ Glances s t := by
  have hpage := Cache.ends_withPage hserves.sound (hserves.pageSize ▸ hacts)
  rw [hserves.image, hserves.pageSize] at hpage
  refine Step.Ends.inside (p := frontPart) (hpage.mono fun t ht => ⟨?_, rfl, rfl⟩)
  have hsite := h.log.site.of_frame ht.frame ht.sound.houses.is_folder
  have hlog := h.log.of_frame ht.frame hsite (folders_apart base)
  have hnow : ({ b with now := t.1.now } : Log.Books) = b := by
    rw [ht.now, h.log.now]
  exact {
    log := hnow ▸ hlog
    front := ⟨_, hserves.of_leads (s := (s.1, s.2.2.front)) ht, hword⟩
    notClosed := h.notClosed }

theorem Shows.readFront (h : Shows dir base s b front) :
    Step.Ends readFront s (.ok front) fun t => Shows dir base t b front ∧ Glances s t := by
  obtain ⟨img, hserves, rfl⟩ := h.front
  have hread := h.ends_onFront hserves (Page.acts_counter front_aligned front_bounds)
    (Image.word_touch img frontPageSize frontPage frontPage frontPosition)
  rwa [← Image.word_mapped img frontPageSize] at hread ⊢

theorem Shows.writeFront (h : Shows dir base s b front) (front' : UInt64) :
    Step.Ends (writeFront front') s (.ok ()) fun t => Shows dir base t b front' ∧ Glances s t := by
  obtain ⟨img, hserves, -⟩ := h.front
  exact h.ends_onFront hserves (Page.acts_setCounter front_aligned front_bounds front')
    (Image.word_setWord img frontPageSize frontPage frontPosition front')

theorem Shows.increment (h : Shows dir base s b front) :
    Step.Ends (onFront (Page.increment frontPosition)) s (.ok front) fun t =>
      Shows dir base t b (front + 1) ∧ Glances s t := by
  obtain ⟨img, hserves, rfl⟩ := h.front
  have hincrement := h.ends_onFront hserves (Page.acts_increment front_aligned front_bounds)
    (Image.word_setWord img frontPageSize frontPage frontPosition _)
  rwa [Image.word_mapped] at hincrement

-- What is noted of those who wait does not show.
theorem Shows.setQueue (h : Shows dir base s b front) {queue : Queue}
    (hfront : queue.front = s.2.2.front) (hclosed : queue.closed = s.2.2.closed) :
    Shows dir base (s.1, s.2.1, queue) b front where
  log := h.log
  front := by
    obtain ⟨img, hserves, hword⟩ := h.front
    exact ⟨img, hfront ▸ hserves, hword⟩
  notClosed := hclosed.trans h.notClosed

-- A call on the log goes through, or a fault keeps it from doing anything.
theorem Shows.onStore {x : Log.Action α} {r : Except Error α} (h : Shows dir base s b front)
    (call : Call) (hx : Step.Ends x (s.1, s.2.1.log) r fun t =>
      Log.Leads dir base (s.1, s.2.1.log) t b') :
    Step.Ends (onStore (Store.perform call x)) s r (fun t =>
        Shows dir base t b' front ∧ Spares s t) ∨
      ∃ fault, s.2.1.Fails call fault ∧ Step.Ends (onStore (Store.perform call x)) s
        (.error (.internal fault.message)) fun t => Shows dir base t b front ∧ Spares s t := by
  obtain ⟨img, hserves, hword⟩ := h.front
  rcases Store.ends_meet s.1 s.2.1 call with hmeet | ⟨fault, hfails, hmeet⟩
  · refine .inl (Step.Ends.inside (p := storePart) (hmeet.bind ?_))
    rintro ⟨host, st⟩ ⟨rfl, hlog, hfaults⟩
    rw [← hlog] at hx
    refine Step.Ends.inside (p := Store.logPart) (hx.mono fun t ht => ⟨?_, hfaults, rfl⟩)
    have hserved := hserves.of_frame (ht.frame.mono (List.subset_cons_self _ _)) (frontDir_not_mem base)
    exact ⟨ht.shows, ⟨img, hserved, hword⟩, h.notClosed⟩
  · refine .inr ⟨fault, hfails, Step.Ends.inside (p := storePart) (hmeet.bind_error.mono ?_)⟩
    rintro ⟨host, st⟩ ⟨rfl, hlog, hfaults⟩
    exact ⟨⟨hlog ▸ h.log, h.front, h.notClosed⟩, hfaults, rfl⟩

-- What a call comes to: what the log says, or the message of a fault.
def Replies (s : Host × Store × Queue) (call : Call) (said r : Except Error α) : Prop :=
  r = said ∨ ∃ fault, s.2.1.Fails call fault ∧ r = .error (.internal fault.message)

theorem Shows.fetch (h : Shows dir base s b front) (index : UInt64) :
    ∃ r b', Step.Ends (Queue.onStore (Store.fetch index)) s r (fun t =>
        Shows dir base t b' front ∧ Spares s t) ∧
      b.Later b' ∧ Replies s .fetch (b.answer index) r := by
  obtain ⟨b', hfetch, hlater⟩ := h.log.ends_fetch index
  rcases h.onStore .fetch hfetch with hends | ⟨fault, hfails, hends⟩
  · exact ⟨_, b', hends, hlater, .inl rfl⟩
  · exact ⟨_, b, hends, .refl, .inr ⟨fault, hfails, rfl⟩⟩

theorem Shows.expectOpen_run (h : Shows dir base s b front) : expectOpen.run s = (.ok (), s) := by
  have hopen : Step.Ends expectOpen s (.ok ()) (· = s) := by
    unfold expectOpen
    refine Step.ends_get_bind ?_
    rw [if_neg (by simp [h.notClosed])]
    exact Step.ends_pure rfl
  obtain ⟨t, hrun, rfl⟩ := hopen.run_eq
  exact hrun

end

end Queue

end Spool
