import Spool.Proofs.Queue.Showing

namespace Spool.Queue

-- Nobody has asked for an item yet.
structure Fresh (q : Queue) : Prop where
  slots : q.slots = #[]
  dequeueSlot : q.dequeueSlot = none
  peekSlot : q.peekSlot = none

-- The front that is kept on the disk.
def keptFront (d : Disk) (base : Location) : UInt64 :=
  (d.image (frontDir :: base)).word frontPage frontPosition

private theorem partName_front : Disk.PartName frontDir := by
  decide

-- What a repair makes of the page of a front.
private def repair (tail head front : UInt64) (sheet : Sheet) : Except Error (Unit × Sheet) :=
  if repairedFront front tail head = front then .ok ((), sheet)
  else .ok ((), sheet.setWord frontPosition (repairedFront front tail head))

private theorem acts_repair (tail head front : UInt64) :
    Page.Acts (fun page d => if repairedFront front tail head = front then Except.ok ((), page, d)
        else Page.setCounter frontPosition (repairedFront front tail head) page d)
      frontPage frontPageSize (repair tail head front) := by
  unfold repair
  split
  · exact Page.acts_pure ()
  · exact Page.acts_setCounter (by decide) (by decide) _

private theorem acts_repairFront (tail head : UInt64) :
    Page.Acts (repairFront tail head) frontPage frontPageSize (fun sheet => do
      let (front, sheet) ← Except.ok (sheet.word frontPosition, sheet)
      repair tail head front sheet) :=
  Page.acts_bind (Page.acts_counter (by decide) (by decide)) (acts_repair tail head)

private theorem repair_eq (tail head : UInt64) {front : UInt64} {sheet : Sheet}
    (hfront : sheet.word frontPosition = front) :
    ∃ sheet', (do
        let (front, sheet) ← Except.ok (sheet.word frontPosition, sheet)
        repair tail head front sheet) = Except.ok ((), sheet') ∧
      sheet'.word frontPosition = repairedFront front tail head := by
  rw [hfront]
  show ∃ sheet', repair tail head front sheet = _ ∧ _
  unfold repair
  split
  · next hsame => exact ⟨sheet, rfl, hfront.trans hsame.symm⟩
  · exact ⟨_, rfl, Sheet.word_setWord _ _ _⟩

private theorem ends_repairFront {c : Cache} {host : Host} {folder : Location} {img : Image}
    (h : c.Serves host.disk folder frontPageSize img) (tail head : UInt64) :
    ∃ img' : Image, Step.Ends (Cache.withPage frontPage (repairFront tail head)) (host, c) (.ok ())
        (fun t => Cache.Leads folder (host, c) t img') ∧
      img'.word frontPage frontPosition =
        repairedFront (img.word frontPage frontPosition) tail head := by
  have hacts := acts_repairFront tail head
  rw [← h.pageSize] at hacts
  have hpage := Cache.ends_withPage h.sound hacts
  obtain ⟨sheet, hrepair, hword⟩ := repair_eq tail head
    (Image.word_mapped img frontPageSize frontPage frontPosition)
  rw [h.image, h.pageSize, Image.perform, hrepair] at hpage
  refine ⟨_, hpage, ?_⟩
  rw [Image.word, Image.sheet_set, if_pos rfl, hword]

section

variable {dir : Path} {base : Location} {host : Host} {b : Log.Books} {pageSize : Nat}

theorem ends_openOver_any {st : Store} (h : Log.Shows dir base (host, st.log) b) :
    ∃ queue, Step.Ends (openOver dir) (host, st) (.ok queue) (fun t => t.2 = st ∧
        Shows dir base (t.1, t.2, queue) b
          (repairedFront (keptFront host.disk base) b.tail b.head)) ∧
      Fresh queue := by
  obtain ⟨c, hopen⟩ := Cache.ends_open h.site partName_front (by decide : 0 < frontPageSize)
    (by decide) .pinned
  obtain ⟨⟨host₁, st₁⟩, hrun₁, ⟨hnow₁, hframe, hsite, -, hsize, hsound⟩, hst⟩ :=
    (hopen.onHost st).run_eq
  obtain rfl : st₁ = st := hst
  have hserves : c.Serves host₁.disk (frontDir :: base) frontPageSize
      (host.disk.image (frontDir :: base)) := ⟨hsound, hsize, hframe.image_eq (by simp)⟩
  obtain ⟨img, hrepair, hword⟩ := ends_repairFront hserves st₁.tail st₁.head
  obtain ⟨c', hbeside⟩ := hrepair.beside
  obtain ⟨⟨host₂, st₂⟩, hrun₂, hleads, hst⟩ := (hbeside.onHost st₁).run_eq
  obtain rfl : st₂ = st₁ := hst
  have hlog : Log.Shows dir base (host₂, st₂.log) b := by
    have hopened := h.of_frame hframe hsite (by simp [Log.folders])
    have hrepaired := hopened.of_frame hleads.frame
      (hsite.of_frame hleads.frame hleads.sound.houses.is_folder) (folders_apart base)
    have hnow : ({ b with now := host₂.now } : Log.Books) = b := by
      rw [hleads.now, hnow₁, h.now]
    exact hnow ▸ hrepaired
  refine ⟨⟨dir, c', #[], none, none, false⟩, ?_, rfl, rfl, rfl⟩
  unfold openOver
  refine Step.ends_bind_of_run hrun₁ (Step.ends_get_bind (Step.ends_bind_of_run hrun₂ ?_))
  refine Step.ends_pure ⟨rfl, hlog, ⟨img, ?_, ?_⟩, rfl⟩
  · exact hserves.of_leads (s := (host₁, c)) (t := (host₂, c')) hleads
  · rw [hword, ← h.tail, ← h.head]
    rfl

-- Over a log that can be opened, so can a queue be, and it finds the front that was kept.
theorem exists_openAt {l : Log} {policy : CachePolicy}
    (hopen : Step.Ends (Log.open dir pageSize policy) host (.ok l) fun host' =>
      Log.Shows dir base (host', l) b ∧ Disk.Frame (base :: Log.folders base) host.disk host'.disk) :
    ∃ sq, Step.Ends (openAt dir pageSize policy) host (.ok sq) (fun host' =>
        Shows dir base (host', sq) b
          (repairedFront (keptFront host.disk base) b.tail b.head)) ∧
      sq.1.faults = [] ∧ Fresh sq.2 := by
  obtain ⟨host₁, hrun, hshows, hframe⟩ := hopen.run_eq
  have hkept : keptFront host₁.disk base = keptFront host.disk base := by
    unfold keptFront
    rw [hframe.image_eq (frontDir_not_mem base)]
  have hlog : Log.Shows dir base (host₁, (Store.ofLog l).log) b := hshows
  obtain ⟨queue, hover, hfresh⟩ := ends_openOver_any hlog
  rw [hkept] at hover
  obtain ⟨st, hbeside⟩ := hover.beside
  have hst : st = Store.ofLog l := hbeside.2.1
  refine ⟨(st, queue), ?_, congrArg Store.faults hst, hfresh⟩
  unfold openAt
  refine Step.ends_bind_of_run hrun (hbeside.bind ?_)
  intro host₂ hqueue
  exact Step.ends_pure hqueue.2

-- A queue can be opened on anything that its directories hold.
theorem ends_openAt_any (h : host.disk.Site dir base) (hpos : 0 < pageSize)
    (hle : pageSize ≤ Log.maxDataPageSize) (policy : CachePolicy) :
    ∃ sq b, Step.Ends (openAt dir pageSize policy) host (.ok sq) (fun host' =>
        Shows dir base (host', sq) b
          (repairedFront (keptFront host.disk base) b.tail b.head)) ∧
      b.head = (Log.Books.found pageSize base host).head ∧
      b.tail = (Log.Books.found pageSize base host).tail ∧ b.dataPageSize = pageSize ∧
      sq.1.faults = [] ∧ Fresh sq.2 := by
  obtain ⟨l, b, hopen, hhead, htail, hsize, -⟩ := Log.ends_open_any h hpos hle policy
  obtain ⟨sq, hends, hfaults, hfresh⟩ := exists_openAt hopen
  exact ⟨sq, b, hends, hhead, htail, hsize, hfaults, hfresh⟩

end

end Spool.Queue
