import Spool.Proofs.Cache.Upkeep
import Spool.Proofs.Log.Folder

namespace Spool

-- A cache with its page size and the image of its directory.
structure Cache.Serves (c : Cache) (d : Disk) (folder : Location) (size : Nat) (img : Image) :
    Prop where
  sound : c.Sound d folder
  pageSize : c.pageSize = size
  image : d.image folder = img

namespace Cache

section

variable {c c' : Cache} {d d' : Disk} {folder : Location} {size : Nat} {img : Image}

theorem Serves.of_frame {folders : List Location} (h : c.Serves d folder size img)
    (hframe : Disk.Frame folders d d') (hplace : folder ∉ folders) : c.Serves d' folder size img :=
  ⟨h.sound.of_frame hframe hplace, h.pageSize, (hframe.image_eq hplace).trans h.image⟩

theorem Serves.of_leads {s t : Host × Cache} {img' : Image} (h : s.2.Serves s.1.disk folder size img)
    (hleads : Leads folder s t img') : t.2.Serves t.1.disk folder size img' :=
  ⟨hleads.sound, hleads.pageSize.trans h.pageSize, hleads.image⟩

theorem Serves.of_stays (h : c.Serves d folder size img) (hstays : Stays d folder c c') :
    c'.Serves d folder size img :=
  ⟨hstays.sound, hstays.pageSize.trans h.pageSize, h.image⟩

end

end Cache

namespace Log

-- The counters of a log and the images of its three directories, with no word of what is in the caches.
-- Whatever is done with a page of one directory shows in one image and nowhere else.
structure Books where
  dataPageSize : Nat
  now : Nat
  head : UInt64
  tail : UInt64
  cursor : Cursor
  index : Image
  data : Image
  ends : Image

namespace Books

def pageSize (b : Books) : Folder → Nat
  | .index => Entry.pageSize
  | .data => b.dataPageSize
  | .ends => endsPageSize

def image (b : Books) : Folder → Image
  | .index => b.index
  | .data => b.data
  | .ends => b.ends

def setImage (b : Books) (f : Folder) (img : Image) : Books :=
  { b with
    index := match f with
      | .index => img
      | _ => b.index
    data := match f with
      | .data => img
      | _ => b.data
    ends := match f with
      | .ends => img
      | _ => b.ends }

theorem image_setImage (b : Books) (f g : Folder) (img : Image) :
    (b.setImage f img).image g = if g = f then img else b.image g := by
  cases f <;> cases g <;> rfl

theorem setImage_image (b : Books) (f : Folder) : b.setImage f (b.image f) = b := by
  cases f <;> rfl

theorem pageSize_setImage (b : Books) (f g : Folder) (img : Image) :
    (b.setImage f img).pageSize g = b.pageSize g := by
  cases g <;> rfl

end Books

-- The directories of a log that is kept in a place.
def folders (base : Location) : List Location :=
  [indexDir :: base, dataDir :: base, endsDir :: base]

-- What shows of a log whatever else is in its directories.
structure Faces (base : Location) (s : Host × Log) (b : Books) : Prop where
  dataPageSize : s.2.dataPageSize = b.dataPageSize
  now : s.1.now = b.now
  head : s.2.head = b.head
  tail : s.2.tail = b.tail
  cursor : s.2.cursor = b.cursor
  copes : ∀ f : Folder, (f.cache s.2).Copes s.1.disk (f.name :: base)
  pageSize : ∀ f : Folder, (f.cache s.2).pageSize = b.pageSize f
  image : ∀ f : Folder, s.1.disk.image (f.name :: base) = b.image f

structure Shows (dir : Path) (base : Location) (s : Host × Log) (b : Books) : Prop where
  site : s.1.disk.Site dir base
  dataPageSize : s.2.dataPageSize = b.dataPageSize
  now : s.1.now = b.now
  head : s.2.head = b.head
  tail : s.2.tail = b.tail
  cursor : s.2.cursor = b.cursor
  index : s.2.index.Serves s.1.disk (indexDir :: base) Entry.pageSize b.index
  data : s.2.data.Serves s.1.disk (dataDir :: base) b.dataPageSize b.data
  ends : s.2.ends.Serves s.1.disk (endsDir :: base) endsPageSize b.ends

-- What comes of asking for a page of one of the directories.
def grant (base : Location) (s : Host × Log) (f : Folder) (page : UInt64) : Except Error Unit :=
  (f.cache s.2).grant s.1.disk (f.name :: base) page

-- What comes of a step of a log: its books, and no change but of page files.
structure Moves (base : Location) (s t : Host × Log) (b : Books) : Prop where
  faces : Faces base t b
  dir : ∀ f : Folder, (f.cache t.2).dir = (f.cache s.2).dir
  frame : Disk.Frame (folders base) s.1.disk t.1.disk
  noneNew : ∀ l, t.1.disk.node? l = some .directory → s.1.disk.node? l = some .directory
  paged : ∀ f : Folder, s.1.disk.Paged (f.name :: base) → t.1.disk.Paged (f.name :: base)

-- The same, and whatever was granted or refused before still is, also to a log that is opened in its place.
structure Goes (base : Location) (s t : Host × Log) (b : Books) : Prop extends Moves base s t b where
  grant : ∀ (f : Folder) page, Log.grant base t f page = Log.grant base s f page
  regrant : ∀ (f : Folder) page size, t.1.disk.grant (f.cache s.2).dir (f.name :: base) page size =
    s.1.disk.grant (f.cache s.2).dir (f.name :: base) page size

-- What comes of a step of a log: its books, and nothing else on the disk has changed.
structure Leads (dir : Path) (base : Location) (s t : Host × Log) (b : Books) : Prop where
  shows : Shows dir base t b
  frame : Disk.Frame (folders base) s.1.disk t.1.disk

section

variable {dir : Path} {base : Location} {s t u : Host × Log} {b b' : Books} {img : Image}
  {r : Except Error α}

theorem Shows.leads (h : Shows dir base s b) : Leads dir base s s b :=
  ⟨h, Disk.Frame.refl _ _⟩

theorem Faces.moves (h : Faces base s b) : Moves base s s b :=
  ⟨h, fun _ => rfl, Disk.Frame.refl _ _, fun _ hl => hl, fun _ hpaged => hpaged⟩

theorem Faces.goes (h : Faces base s b) : Goes base s s b :=
  ⟨h.moves, fun _ _ => rfl, fun _ _ _ => rfl⟩

theorem Moves.trans (h : Moves base s t b) (h' : Moves base t u b') : Moves base s u b' where
  faces := h'.faces
  dir f := (h'.dir f).trans (h.dir f)
  frame := h.frame.trans h'.frame
  noneNew l hl := h.noneNew l (h'.noneNew l hl)
  paged f hpaged := h'.paged f (h.paged f hpaged)

theorem Goes.trans (h : Goes base s t b) (h' : Goes base t u b') : Goes base s u b' where
  toMoves := h.toMoves.trans h'.toMoves
  grant f page := (h'.grant f page).trans (h.grant f page)
  regrant f page size := by
    have hthen := h'.regrant f page size
    rw [h.dir f] at hthen
    exact hthen.trans (h.regrant f page size)

-- What is barred stays barred, and nothing else comes to be.
theorem Moves.barred_iff (h : Moves base s t b) (folder : Location) (page : UInt64) :
    t.1.disk.Barred folder page ↔ s.1.disk.Barred folder page :=
  ⟨h.noneNew _, h.frame.directories _⟩

theorem Moves.free (h : Moves base s t b) {folder : Location} {page : UInt64}
    (hfree : ¬s.1.disk.Barred folder page) : ¬t.1.disk.Barred folder page :=
  mt (h.barred_iff folder page).mp hfree

theorem Moves.calm (h : Moves base s t b) (hcalm : s.1.disk.Calm) : t.1.disk.Calm :=
  hcalm.of_eq h.frame.refuses

theorem Goes.granted (h : Goes base s t b) {f : Folder} {page : UInt64} {r : Except Error Unit}
    (hgrant : Log.grant base s f page = r) : Log.grant base t f page = r :=
  (h.grant f page).trans hgrant

-- Where nothing is refused, only a directory can be in the way.
theorem grant_of_free (hcalm : s.1.disk.Calm) {f : Folder} {page : UInt64}
    (hfree : ¬s.1.disk.Barred (f.name :: base) page) : grant base s f page = .ok () :=
  Cache.grant_of_free hcalm hfree _

-- What happens outside of its directories, as time passes, does not matter to a log.
theorem grant_of_frame {host : Host} {places : List Location}
    (hframe : Disk.Frame places s.1.disk host.disk) (hapart : ∀ folder ∈ folders base, folder ∉ places)
    (f : Folder) (page : UInt64) : grant base (host, s.2) f page = grant base s f page :=
  Cache.grant_of_frame hframe (hapart _ (by cases f <;> simp [folders, Folder.name])) _ page

theorem Shows.of_frame {host : Host} {places : List Location} (h : Shows dir base s b)
    (hframe : Disk.Frame places s.1.disk host.disk) (hsite : host.disk.Site dir base)
    (hapart : ∀ folder ∈ folders base, folder ∉ places) :
    Shows dir base (host, s.2) { b with now := host.now } where
  site := hsite
  dataPageSize := h.dataPageSize
  now := rfl
  head := h.head
  tail := h.tail
  cursor := h.cursor
  index := h.index.of_frame hframe (hapart _ (by simp [folders]))
  data := h.data.of_frame hframe (hapart _ (by simp [folders]))
  ends := h.ends.of_frame hframe (hapart _ (by simp [folders]))

theorem Folder.mem_folders (f : Folder) (base : Location) : f.name :: base ∈ folders base := by
  cases f with
  | index => exact List.mem_cons_self
  | data => exact List.mem_cons_of_mem _ List.mem_cons_self
  | ends => exact List.mem_cons_of_mem _ (List.mem_cons_of_mem _ List.mem_cons_self)

theorem mem_folders_iff {folder : Location} :
    folder ∈ folders base ↔ ∃ f : Folder, folder = f.name :: base := by
  constructor
  · intro hmem
    simp only [folders, List.mem_cons, List.not_mem_nil, or_false] at hmem
    rcases hmem with rfl | rfl | rfl
    · exact ⟨.index, rfl⟩
    · exact ⟨.data, rfl⟩
    · exact ⟨.ends, rfl⟩
  · rintro ⟨f, rfl⟩
    exact f.mem_folders base

-- Each directory is served by a cache of its own.
theorem Shows.serves (h : Shows dir base s b) (f : Folder) :
    (f.cache s.2).Serves s.1.disk (f.name :: base) (b.pageSize f) (b.image f) := by
  cases f with
  | index => exact h.index
  | data => exact h.data
  | ends => exact h.ends

theorem Shows.faces (h : Shows dir base s b) : Faces base s b where
  dataPageSize := h.dataPageSize
  now := h.now
  head := h.head
  tail := h.tail
  cursor := h.cursor
  copes f := (h.serves f).sound.copes
  pageSize f := (h.serves f).pageSize
  image f := (h.serves f).image

theorem Faces.shows (h : Faces base s b) (hsite : s.1.disk.Site dir base) : Shows dir base s b :=
  have hserves : ∀ f : Folder,
      (f.cache s.2).Serves s.1.disk (f.name :: base) (b.pageSize f) (b.image f) := fun f =>
    ⟨(h.copes f).sound hsite.wellFormed.calm (hsite.parts f.name), h.pageSize f, h.image f⟩
  ⟨hsite, h.dataPageSize, h.now, h.head, h.tail, h.cursor, hserves .index, hserves .data, hserves .ends⟩

-- Nothing has come to a site but page files, and those to the directories of the log.
theorem Moves.leads (h : Moves base s t b) (hsite : s.1.disk.Site dir base) : Leads dir base s t b where
  shows := by
    refine h.faces.shows ⟨h.frame.wellFormed hsite.wellFormed, Disk.walk_mono h.frame.directories hsite.walk,
      h.frame.directories _ hsite.directory, hsite.short, hsite.noNul, fun name => ?_⟩
    by_cases hmem : name :: base ∈ folders base
    · obtain ⟨f, hf⟩ := mem_folders_iff.mp hmem
      rw [hf]
      exact (hsite.parts f.name).of_noneNew (h.faces.copes f).shelf.directory h.noneNew
        (h.paged f (hsite.parts f.name).paged)
    · refine (hsite.parts name).of_frame h.frame (fun hbase => ?_) hmem
      obtain ⟨f, hf⟩ := mem_folders_iff.mp hbase
      exact List.cons_ne_self _ _ hf.symm
  frame := h.frame

-- What is done in one directory leaves the images of the other two as they are.
theorem Faces.inside (h : Faces base s b) (f : Folder) {x : Cache.Action α}
    (hx : Step.Ends x (s.1, f.cache s.2) r fun t =>
      Cache.Carries (f.name :: base) (s.1, f.cache s.2) t img) :
    Step.Ends (Step.inside f.part x) s r fun t => Moves base s t (b.setImage f img) := by
  rw [← Folder.get_part s f] at hx
  refine Step.Ends.inside (hx.mono fun u hu => ?_)
  rw [Folder.get_part s f] at hu
  have hhost := Folder.fst_set_part u s f
  have hcounts := Folder.sameCounts_set_part u s f
  have hrefills : Disk.Refills (f.name :: base) s.1.disk (f.part.set u s).1.disk := by
    rw [hhost]
    exact hu.refills
  have hcaches : ∀ g : Folder, g.cache (f.part.set u s).2 = if g = f then u.2 else g.cache s.2 :=
    fun g => Folder.cache_set_part u s f g
  refine ⟨⟨hcounts.dataPageSize.symm.trans h.dataPageSize, ?now, hcounts.head.symm.trans h.head,
    hcounts.tail.symm.trans h.tail, hcounts.cursor.symm.trans h.cursor, fun g => ?copes, fun g => ?pageSize,
    fun g => ?image⟩, fun g => ?dir, hrefills.toFrame.mono ?sub, hrefills.noneNew, fun g => ?paged⟩
  case now =>
    rw [hhost]
    exact hu.now.trans h.now
  case copes =>
    rw [hcaches]
    split
    · next hg =>
      rw [hg, hhost]
      exact hu.copes
    · next hne => exact (h.copes g).of_frame hrefills.toFrame (Folder.place_not_mem hne base)
  case pageSize =>
    rw [hcaches, Books.pageSize_setImage]
    split
    · next hg =>
      rw [hg]
      exact hu.pageSize.trans (h.pageSize f)
    · exact h.pageSize g
  case image =>
    rw [Books.image_setImage]
    split
    · next hg =>
      rw [hg, hhost]
      exact hu.image
    · next hne =>
      exact (hrefills.toFrame.image_eq (Folder.place_not_mem hne base)).trans (h.image g)
  case dir =>
    rw [hcaches]
    split
    · next hg =>
      rw [hg]
      exact hu.dir
    · rfl
  case sub =>
    intro folder hfolder
    rw [List.mem_singleton.mp hfolder]
    exact f.mem_folders base
  case paged =>
    intro hpaged
    by_cases hg : g = f
    · rw [hg] at hpaged ⊢
      exact hrefills.paged hpaged
    · intro name id hid
      rw [hrefills.nodes _ _ (Folder.place_not_mem hg base)] at hid
      exact hpaged name id hid

theorem Faces.inside_uses (h : Faces base s b) (f : Folder) {x : Cache.Action α}
    (hx : Step.Ends x (s.1, f.cache s.2) r fun t =>
      Cache.Uses (f.name :: base) (s.1, f.cache s.2) t img) :
    Step.Ends (Step.inside f.part x) s r fun t => Goes base s t (b.setImage f img) := by
  have hmoves := h.inside f (hx.mono fun _ ht => ht.toCarries)
  have huses := hx.2
  have hstate : ((Step.inside f.part x).run s).2 = f.part.set (x.run (s.1, f.cache s.2)).2 s := by
    rw [Step.run_inside, Folder.get_part]
  refine ⟨hmoves.1, hmoves.2, fun g page => ?_, fun g page size => ?_⟩
  · rw [hstate]
    unfold grant
    rw [Folder.cache_set_part, Folder.fst_set_part]
    split
    · next hg =>
      rw [hg]
      exact huses.grant page
    · next hne =>
      exact Cache.grant_of_frame huses.refills.toFrame (Folder.place_not_mem hne base) _ page
  · rw [hstate, Folder.fst_set_part]
    by_cases hg : g = f
    · rw [hg]
      exact huses.disk.grant page size
    · exact huses.refills.toFrame.grant_eq (Folder.place_not_mem hg base) _ page size

section Pages

variable {access : Page.Access α} {act : Sheet → Except Error (α × Sheet)} {page : UInt64}

theorem Faces.onPage (h : Faces base s b) (f : Folder) (hgrant : grant base s f page = .ok ())
    (hacts : Page.Acts access page (b.pageSize f) act) :
    Step.Ends (Step.inside f.part (Cache.withPage page access)) s
      ((b.image f).perform (b.pageSize f) page act).1 fun t =>
        Goes base s t (b.setImage f ((b.image f).perform (b.pageSize f) page act).2) := by
  have hpage := (h.copes f).withPage (h.pageSize f ▸ hacts) hgrant
  rw [h.image f, h.pageSize f] at hpage
  exact h.inside_uses f hpage

theorem Faces.onIndexPage (h : Faces base s b) (hgrant : grant base s .index page = .ok ())
    (hacts : Page.Acts access page Entry.pageSize act) :
    Step.Ends (onIndexPage page access) s (b.index.perform Entry.pageSize page act).1 fun t =>
      Goes base s t { b with index := (b.index.perform Entry.pageSize page act).2 } :=
  h.onPage .index hgrant hacts

theorem Faces.onDataPage (h : Faces base s b) (hgrant : grant base s .data page = .ok ())
    (hacts : Page.Acts access page b.dataPageSize act) :
    Step.Ends (onDataPage page access) s (b.data.perform b.dataPageSize page act).1 fun t =>
      Goes base s t { b with data := (b.data.perform b.dataPageSize page act).2 } :=
  h.onPage .data hgrant hacts

theorem Faces.onEnds (h : Faces base s b) (hgrant : grant base s .ends endsPage = .ok ())
    (hacts : Page.Acts access endsPage endsPageSize act) :
    Step.Ends (onEnds access) s (b.ends.perform endsPageSize endsPage act).1 fun t =>
      Goes base s t { b with ends := (b.ends.perform endsPageSize endsPage act).2 } :=
  h.onPage .ends hgrant hacts

-- A page that is not granted is missed.
theorem Faces.onPage_refused (h : Faces base s b) (f : Folder) {e : Error}
    (hgrant : grant base s f page = .error e) (access : Page.Access α) :
    ∃ img, Step.Ends (Step.inside f.part (Cache.withPage page access)) s (.error e)
        (fun t => Goes base s t (b.setImage f img)) ∧ (b.image f).Missed page img := by
  obtain ⟨img, hpage, hmissed⟩ := (h.copes f).withPage_refused hgrant access
  rw [h.image f] at hmissed
  exact ⟨img, h.inside_uses f hpage, hmissed⟩

end Pages

-- No directory is in the place of a page file of a site.
theorem Shows.not_barred (h : Shows dir base s b) (f : Folder) (page : UInt64) :
    ¬s.1.disk.Barred (f.name :: base) page :=
  (h.site.parts f.name).not_barred page

theorem Shows.grant_eq_ok (h : Shows dir base s b) (f : Folder) (page : UInt64) :
    grant base s f page = .ok () :=
  (h.serves f).sound.grant_eq_ok page

theorem Shows.calm (h : Shows dir base s b) : s.1.disk.Calm :=
  h.site.wellFormed.calm

theorem Shows.paged (h : Shows dir base s b) (f : Folder) : s.1.disk.Paged (f.name :: base) :=
  (h.site.parts f.name).paged

-- What a log does whatever else is in its directories, it does on a site.
theorem Shows.leads_of_faces {x : Action α} (h : Shows dir base s b)
    (hx : Faces base s b → Step.Ends x s r fun t => Moves base s t b') :
    Step.Ends x s r fun t => Leads dir base s t b' :=
  (hx h.faces).mono fun _ ht => ht.leads h.site

end

end Log

end Spool
