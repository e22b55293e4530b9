import Spool.Proofs.Log.Steps

namespace Spool.Log

-- Opening a log. The window is what the counters on disk say, and the cursor is taken from the last entry of
-- the window; a log without items and without data pages starts at the first page.
namespace Books

-- The books of a log before it took up its window.
def fresh (dataPageSize now : Nat) (index data ends : Image) : Books where
  dataPageSize
  now
  head := 0
  tail := 0
  cursor := ⟨0, 0⟩
  index
  data
  ends

-- The books with the window that is kept on disk.
def takeUp (b : Books) : Books :=
  { b with
    head := b.ends.word endsPage headPosition
    tail := b.ends.word endsPage tailPosition
    ends := b.ends.touch endsPageSize endsPage }

-- The books with the cursor behind an entry.
def resumeBehind (b : Books) (index : UInt64) (e : Entry) : Books :=
  { b.lookUp index with cursor := ⟨e.dataPage, e.finish⟩ }

def resume (b : Books) : Books :=
  b.resumeBehind (b.head - 1) (b.entry (b.head - 1))

-- Where the cursor is does not show in what is read.
theorem like_setCursor (b : Books) (cursor : Cursor) : b.Like { b with cursor } :=
  ⟨rfl, rfl, rfl, fun _ => rfl, fun _ _ _ => rfl⟩

theorem like_resumeBehind (b : Books) (index : UInt64) (e : Entry) : b.Like (b.resumeBehind index e) :=
  (b.like_lookUp index).trans (like_setCursor _ _)

theorem like_resume (b : Books) : b.Like b.resume :=
  b.like_resumeBehind _ _

end Books

-- Where the cursor of an empty log is put: behind the last data page that a file is there for.
def Books.Restarts (b : Books) (cursor : Cursor) : Prop :=
  cursor = ⟨0, 0⟩ ∧ (∀ page, b.data page = none) ∨
    ∃ last, (b.data last).isSome ∧ cursor = ⟨last + 1, 0⟩

-- The books that a log goes on with once it has its window.
inductive Books.Resumed (b : Books) : Books → Prop
  | empty {cursor : Cursor} (hsame : b.head = b.tail) (h : b.Restarts cursor) : Resumed b { b with cursor }
  | window (hdiff : b.head ≠ b.tail) : Resumed b b.resume

namespace Books.Resumed

variable {b b' : Books} (h : b.Resumed b')

include h

theorem eq_of_empty (hsame : b.head = b.tail) (hnone : ∀ page, b.data page = none) :
    b' = { b with cursor := ⟨0, 0⟩ } := by
  cases h with
  | empty _ hrestarts =>
      rcases hrestarts with ⟨rfl, -⟩ | ⟨last, hlast, -⟩
      · rfl
      · rw [hnone] at hlast
        cases hlast
  | window hdiff => exact absurd hsame hdiff

theorem eq_resume (hdiff : b.head ≠ b.tail) : b' = b.resume := by
  cases h with
  | empty hsame _ => exact absurd hsame hdiff
  | window _ => rfl

theorem like : b.Like b' := by
  cases h with
  | empty _ _ => exact b.like_setCursor _
  | window _ => exact b.like_resume

end Books.Resumed

section

variable {dir : Path} {base : Location} {s : Host × Log} {b b' : Books} {cursor : Cursor}

-- In an empty log nothing is read.
theorem Faces.recoverCursor_empty (h : Faces base s b) (hsame : b.head = b.tail)
    (hpaged : s.1.disk.Paged (dataDir :: base)) :
    ∃ cursor, Step.Ends recoverCursor s (.ok cursor) (· = s) ∧ b.Restarts cursor := by
  obtain ⟨pages, hpages, hmem⟩ := (h.copes .data).existingIndexes hpaged
  rw [h.image .data] at hmem
  have hlogpages : s.2.dataPages s.1.disk = .ok pages := hpages
  unfold recoverCursor
  cases hlast : pages.getLast? with
  | none =>
      refine ⟨⟨0, 0⟩, Step.ends_get_bind ?_, .inl ⟨rfl, fun page => ?_⟩⟩
      · simp only [h.head, h.tail, hsame, if_true, hlogpages]
        refine Step.ends_bind_of_run (Step.run_ofExcept _ s) ?_
        rw [hlast]
        exact Step.ends_pure rfl
      · rw [List.getLast?_eq_none_iff] at hlast
        rw [← Option.not_isSome_iff_eq_none, show b.data page = b.image .data page from rfl, ← hmem, hlast]
        exact List.not_mem_nil
  | some last =>
      refine ⟨⟨last + 1, 0⟩, Step.ends_get_bind ?_, .inr ⟨last, ?_, rfl⟩⟩
      · simp only [h.head, h.tail, hsame, if_true, hlogpages]
        refine Step.ends_bind_of_run (Step.run_ofExcept _ s) ?_
        rw [hlast]
        exact Step.ends_pure rfl
      · exact (hmem last).mp (List.mem_of_getLast? hlast)

theorem Faces.recoverCursor (h : Faces base s b) (hdiff : b.head ≠ b.tail)
    (hgrant : grant base s .index (Entry.pageOf (b.head - 1)) = .ok ()) :
    Step.Ends recoverCursor s
      (.ok ⟨(b.entry (b.head - 1)).dataPage, (b.entry (b.head - 1)).finish⟩) fun t =>
        Goes base s t (b.lookUp (b.head - 1)) := by
  unfold Log.recoverCursor
  refine Step.ends_get_bind ?_
  simp only [h.head, h.tail, if_neg hdiff]
  refine (h.readEntry hgrant).bind ?_
  intro t ht
  exact Step.ends_pure ht

private theorem acts_window :
    Page.Acts window endsPage endsPageSize fun s =>
      .ok ((s.word headPosition, s.word tailPosition), s) :=
  Page.acts_bind (Page.acts_counter (by decide) (by decide)) fun head =>
    Page.acts_bind (Page.acts_counter (by decide) (by decide)) fun tail => Page.acts_pure (head, tail)

theorem Faces.onEnds_window (h : Faces base s b) (hgrant : grant base s .ends endsPage = .ok ()) :
    Step.Ends (Log.onEnds window) s (.ok (b.takeUp.head, b.takeUp.tail)) fun t =>
      Goes base s t { b with ends := b.takeUp.ends } := by
  have hends := h.onEnds hgrant acts_window
  unfold Image.perform at hends
  simp only [Image.word_mapped] at hends
  exact hends

theorem Faces.setWindow (h : Faces base s b) (head tail : UInt64) :
    Goes base s (s.1, { s.2 with head, tail }) { b with head, tail } :=
  { h.goes with faces := { h with head := rfl, tail := rfl } }

-- The window is what the counters say, and then the cursor is looked for.
theorem Faces.exists_recover {Q : Books → Prop} (h : Faces base s b)
    (hgrant : grant base s .ends endsPage = .ok ())
    (hcursor : ∀ t, Goes base s t b.takeUp → ∃ cursor b',
      Step.Ends Log.recoverCursor t (.ok cursor) (fun u => Goes base t u b') ∧ Q { b' with cursor }) :
    ∃ b', Step.Ends Log.recover s (.ok ()) (fun t => Goes base s t b') ∧ Q b' := by
  obtain ⟨t, hrun, ht⟩ := (h.onEnds_window hgrant).run_eq
  have hwindow := ht.trans (ht.faces.setWindow b.takeUp.head b.takeUp.tail)
  obtain ⟨cursor, b', hends, hQ⟩ := hcursor _ hwindow
  refine ⟨_, ?_, hQ⟩
  unfold Log.recover
  refine Step.ends_bind_of_run hrun (Step.ends_bind_of_run (Step.run_modify _ t) ?_)
  refine hends.bind ?_
  intro v hv
  refine (hv.faces.setCursor cursor).mono ?_
  intro w hw
  exact (hwindow.trans hv).trans hw

-- In an empty log the cursor is behind whatever pages there are.
theorem Faces.recover (h : Faces base s b) (hends : grant base s .ends endsPage = .ok ())
    (hpaged : s.1.disk.Paged (dataDir :: base))
    (hlast : b.takeUp.head ≠ b.takeUp.tail →
      grant base s .index (Entry.pageOf (b.takeUp.head - 1)) = .ok ()) :
    ∃ b', Step.Ends Log.recover s (.ok ()) (fun t => Goes base s t b') ∧ b.takeUp.Resumed b' := by
  refine h.exists_recover hends fun t ht => ?_
  generalize b.takeUp = b' at ht hlast ⊢
  by_cases hsame : b'.head = b'.tail
  · obtain ⟨cursor, hcursor, hrestarts⟩ := ht.faces.recoverCursor_empty hsame (ht.paged .data hpaged)
    refine ⟨cursor, b', hcursor.mono ?_, .empty hsame hrestarts⟩
    rintro _ rfl
    exact ht.faces.goes
  · exact ⟨_, _, ht.faces.recoverCursor hsame (ht.granted (hlast hsame)), .window hsame⟩

end

section

variable {dir : Path} {base : Location} {host : Host} {dataPageSize : Nat}

-- What the directories of a log hold, seen by a log that is opened on them.
def Books.found (dataPageSize : Nat) (base : Location) (host : Host) : Books :=
  (Books.fresh dataPageSize host.now (host.disk.image (indexDir :: base))
    (host.disk.image (dataDir :: base)) (host.disk.image (endsDir :: base))).takeUp

-- The caches are opened one by one, and then the window is taken up.
theorem ends_open_of_caches {host₁ host₂ host₃ : Host} {c₁ c₂ c₃ : Cache} {post : Host × Log → Prop}
    {policy : CachePolicy} (hpos : 0 < dataPageSize) (hle : dataPageSize ≤ maxDataPageSize)
    (hrun₁ : (Cache.open (dir.join indexDir) Entry.pageSize policy).run host = (.ok c₁, host₁))
    (hrun₂ : (Cache.open (dir.join dataDir) dataPageSize policy).run host₁ = (.ok c₂, host₂))
    (hrun₃ : (Cache.open (dir.join endsDir) endsPageSize .pinned).run host₂ = (.ok c₃, host₃))
    (hrecover : Step.Ends recover (host₃, ⟨dir, dataPageSize, c₁, c₂, c₃, 0, 0, ⟨0, 0⟩⟩) (.ok ()) post) :
    ∃ l, Step.Ends (Log.open dir dataPageSize policy) host (.ok l) fun host' => post (host', l) := by
  have hvalid : ¬(dataPageSize = 0 ∨ maxDataPageSize < dataPageSize) := by omega
  obtain ⟨l, hbeside⟩ := hrecover.beside
  refine ⟨l, ?_⟩
  unfold Log.open
  rw [if_neg hvalid]
  refine Step.ends_bind_of_run hrun₁ (Step.ends_bind_of_run hrun₂ (Step.ends_bind_of_run hrun₃ ?_))
  refine hbeside.bind ?_
  intro host' hpost
  exact Step.ends_pure hpost

theorem ends_open (h : host.disk.Site dir base) (hpos : 0 < dataPageSize)
    (hle : dataPageSize ≤ maxDataPageSize) (policy : CachePolicy) :
    ∃ l b, Step.Ends (Log.open dir dataPageSize policy) host (.ok l) (fun host' =>
        Shows dir base (host', l) b ∧ Disk.Frame (base :: folders base) host.disk host'.disk ∧
          ∀ f : Folder, (f.cache l).dir = dir.join f.name) ∧
      (Books.found dataPageSize base host).Resumed b := by
  have hsize : dataPageSize < Disk.maxFileSize := Nat.lt_of_le_of_lt hle (by decide)
  have hplace : ∀ name : String, name :: base ∉ [base] := by simp
  obtain ⟨c₁, hopen₁⟩ := Cache.ends_open h Folder.index.partName (by decide : 0 < Entry.pageSize)
    (by decide) policy
  obtain ⟨host₁, hrun₁, hnow₁, hframe₁, hsite₁, hdir₁, hsize₁, hsound₁⟩ := hopen₁.run_eq
  obtain ⟨c₂, hopen₂⟩ := Cache.ends_open hsite₁ Folder.data.partName hpos hsize policy
  obtain ⟨host₂, hrun₂, hnow₂, hframe₂, hsite₂, hdir₂, hsize₂, hsound₂⟩ := hopen₂.run_eq
  obtain ⟨c₃, hopen₃⟩ := Cache.ends_open hsite₂ Folder.ends.partName (by decide : 0 < endsPageSize)
    (by decide) .pinned
  obtain ⟨host₃, hrun₃, hnow₃, hframe₃, hsite₃, hdir₃, hsize₃, hsound₃⟩ := hopen₃.run_eq
  have hframe := (hframe₁.trans hframe₂).trans hframe₃
  have hsound : c₁.Sound host₃.disk _ := hsound₁.of_frame (hframe₂.trans hframe₃) (hplace _)
  let fresh : Log := ⟨dir, dataPageSize, c₁, c₂, c₃, 0, 0, ⟨0, 0⟩⟩
  have hshows : Shows dir base (host₃, fresh) (.fresh dataPageSize host.now
      (host.disk.image (indexDir :: base)) (host.disk.image (dataDir :: base))
      (host.disk.image (endsDir :: base))) := {
    site := hsite₃
    dataPageSize := rfl
    now := hnow₃.trans (hnow₂.trans hnow₁)
    head := rfl
    tail := rfl
    cursor := rfl
    index := ⟨hsound, hsize₁, hframe.image_eq (hplace _)⟩
    data := ⟨hsound₂.of_frame hframe₃ (hplace _), hsize₂, hframe.image_eq (hplace _)⟩
    ends := ⟨hsound₃, hsize₃, hframe.image_eq (hplace _)⟩ }
  have hdirs : ∀ f : Folder, (f.cache fresh).dir = dir.join f.name := Folder.forall_of hdir₁ hdir₂ hdir₃
  obtain ⟨b, hrecover, hresumed⟩ := hshows.faces.recover (hshows.grant_eq_ok .ends _) (hshows.paged .data)
    fun _ => hshows.grant_eq_ok .index _
  obtain ⟨l, hopen⟩ := ends_open_of_caches hpos hle hrun₁ hrun₂ hrun₃ hrecover
  refine ⟨l, b, hopen.mono fun host' hgoes => ?_, hresumed⟩
  have hleads := hgoes.leads hsite₃
  have hbase : [base] ⊆ base :: folders base := by simp
  exact ⟨hleads.shows, (hframe.mono hbase).trans (hleads.frame.mono (List.subset_cons_self _ _)),
    fun f => (hgoes.dir f).trans (hdirs f)⟩

theorem ends_open_empty (h : host.disk.Site dir base) (hpos : 0 < dataPageSize)
    (hle : dataPageSize ≤ maxDataPageSize) (policy : CachePolicy)
    (hsame : (Books.found dataPageSize base host).head = (Books.found dataPageSize base host).tail)
    (hnone : ∀ page, host.disk.image (dataDir :: base) page = none) :
    ∃ l, Step.Ends (Log.open dir dataPageSize policy) host (.ok l) fun host' =>
      Shows dir base (host', l) (Books.found dataPageSize base host) ∧
        Disk.Frame (base :: folders base) host.disk host'.disk := by
  obtain ⟨l, b, hopen, hresumed⟩ := ends_open h hpos hle policy
  obtain rfl : b = Books.found dataPageSize base host := hresumed.eq_of_empty hsame hnone
  exact ⟨l, hopen.mono fun host' ht => ⟨ht.1, ht.2.1⟩⟩

theorem ends_open_window (h : host.disk.Site dir base) (hpos : 0 < dataPageSize)
    (hle : dataPageSize ≤ maxDataPageSize) (policy : CachePolicy)
    (hdiff : (Books.found dataPageSize base host).head ≠ (Books.found dataPageSize base host).tail) :
    ∃ l, Step.Ends (Log.open dir dataPageSize policy) host (.ok l) fun host' =>
      Shows dir base (host', l) (Books.found dataPageSize base host).resume ∧
        Disk.Frame (base :: folders base) host.disk host'.disk := by
  obtain ⟨l, b, hopen, hresumed⟩ := ends_open h hpos hle policy
  obtain rfl := hresumed.eq_resume hdiff
  exact ⟨l, hopen.mono fun host' ht => ⟨ht.1, ht.2.1⟩⟩

-- A log can be opened on anything that its directories hold.
theorem ends_open_any (h : host.disk.Site dir base) (hpos : 0 < dataPageSize)
    (hle : dataPageSize ≤ maxDataPageSize) (policy : CachePolicy) :
    ∃ l b, Step.Ends (Log.open dir dataPageSize policy) host (.ok l) (fun host' =>
        Shows dir base (host', l) b ∧ Disk.Frame (base :: folders base) host.disk host'.disk) ∧
      b.head = (Books.found dataPageSize base host).head ∧
      b.tail = (Books.found dataPageSize base host).tail ∧ b.dataPageSize = dataPageSize ∧
      b.fetch = (Books.found dataPageSize base host).fetch := by
  obtain ⟨l, b, hopen, hresumed⟩ := ends_open h hpos hle policy
  exact ⟨l, b, hopen.mono fun host' ht => ⟨ht.1, ht.2.1⟩, hresumed.like.head, hresumed.like.tail,
    hresumed.like.dataPageSize, funext hresumed.like.fetch_eq⟩

end

end Spool.Log
