import Spool.Proofs.Cache.Residents
import Spool.Proofs.Page.Granting

namespace Spool

namespace Image

-- Does something to the sheet of a page as it is mapped.
def perform (img : Image) (size : Nat) (page : UInt64) (act : Sheet → Except Error (α × Sheet)) :
    Except Error α × Image :=
  match act (img.mapped size page) with
  | .ok (a, s) => (.ok a, img.set page s)
  | .error e => (.error e, img.touch size page)

theorem perform_touch (img : Image) (size : Nat) (page : UInt64)
    (act : Sheet → Except Error (α × Sheet)) :
    (img.touch size page).perform size page act = img.perform size page act := by
  have htouch : (img.touch size page).touch size page = img.touch size page := by
    rw [touch, mapped_touch, touch, set_set]
  unfold perform
  rw [mapped_touch, htouch]
  cases act (img.mapped size page) with
  | error e => rfl
  | ok out => simp only [touch, set_set]

end Image

namespace Cache

structure Sound (c : Cache) (d : Disk) (folder : Location) : Prop where
  houses : d.Houses c.dir folder
  pageSize_pos : 0 < c.pageSize
  pageSize_lt : c.pageSize < Disk.maxFileSize
  notClosed : c.closed = false
  resident : ∀ {page r}, c.resident[page]? = some r →
    ∃ p, c.page? r.page = some p ∧ p.Maps d folder page c.pageSize

-- A cache that is sound but for what else may be in its directory.
structure Copes (c : Cache) (d : Disk) (folder : Location) : Prop where
  shelf : d.Shelf c.dir folder
  pageSize_pos : 0 < c.pageSize
  pageSize_lt : c.pageSize < Disk.maxFileSize
  notClosed : c.closed = false
  resident : ∀ {page r}, c.resident[page]? = some r →
    ∃ p, c.page? r.page = some p ∧ p.Maps d folder page c.pageSize

-- What comes of asking for a page. One that the cache has is always handed out.
def grant (c : Cache) (d : Disk) (folder : Location) (page : UInt64) : Except Error Unit :=
  if (c.resident[page]?).isSome then .ok () else d.grant c.dir folder page c.pageSize

-- A change of what is in a cache that touches no file.
structure Stays (d : Disk) (folder : Location) (c c' : Cache) : Prop where
  dir : c'.dir = c.dir
  pageSize : c'.pageSize = c.pageSize
  sound : c'.Sound d folder

-- The cache is still sound, the clock stands still, and the directory has the given image.
structure Leads (folder : Location) (s t : Host × Cache) (img : Image) : Prop where
  dir : t.2.dir = s.2.dir
  pageSize : t.2.pageSize = s.2.pageSize
  now : t.1.now = s.1.now
  frame : Disk.Frame [folder] s.1.disk t.1.disk
  image : t.1.disk.image folder = img
  sound : t.2.Sound t.1.disk folder

-- The same of a cache that copes.
structure Carries (folder : Location) (s t : Host × Cache) (img : Image) : Prop where
  dir : t.2.dir = s.2.dir
  pageSize : t.2.pageSize = s.2.pageSize
  now : t.1.now = s.1.now
  refills : Disk.Refills folder s.1.disk t.1.disk
  image : t.1.disk.image folder = img
  copes : t.2.Copes t.1.disk folder

-- The same, and whatever was granted or refused before still is.
structure Uses (folder : Location) (s t : Host × Cache) (img : Image) : Prop extends
    Carries folder s t img where
  disk : Disk.Uses s.2.dir folder s.1.disk t.1.disk
  grant : ∀ page, t.2.grant t.1.disk folder page = s.2.grant s.1.disk folder page

section

variable {c c' : Cache} {d d' : Disk} {folder : Location} {host : Host} {index : UInt64} {id : PageId}
  {p : Page} {size : Nat} {img img' : Image} {s t u : Host × Cache}

theorem Restocks.dir_eq (h : Restocks c c') : c'.dir = c.dir := by
  obtain ⟨_, _, rfl⟩ := h
  rfl

theorem Restocks.pageSize_eq (h : Restocks c c') : c'.pageSize = c.pageSize := by
  obtain ⟨_, _, rfl⟩ := h
  rfl

theorem Sound.copes (h : c.Sound d folder) : c.Copes d folder :=
  ⟨h.houses.shelf, h.pageSize_pos, h.pageSize_lt, h.notClosed, h.resident⟩

theorem Copes.sound (h : c.Copes d folder) (hcalm : d.Calm) (hfolder : d.Folder folder) : c.Sound d folder :=
  ⟨h.shelf.houses hcalm hfolder, h.pageSize_pos, h.pageSize_lt, h.notClosed, h.resident⟩

theorem Sound.stays (h : c.Sound d folder) : Stays d folder c c :=
  ⟨rfl, rfl, h⟩

theorem Stays.leads (h : Stays host.disk folder c c') :
    Leads folder (host, c) (host, c') (host.disk.image folder) :=
  ⟨h.dir, h.pageSize, rfl, Disk.Frame.refl _ _, rfl, h.sound⟩

theorem Leads.trans (h : Leads folder s t img) (h' : Leads folder t u img') : Leads folder s u img' where
  dir := h'.dir.trans h.dir
  pageSize := h'.pageSize.trans h.pageSize
  now := h'.now.trans h.now
  frame := h.frame.trans h'.frame
  image := h'.image
  sound := h'.sound

theorem Carries.trans (h : Carries folder s t img) (h' : Carries folder t u img') :
    Carries folder s u img' where
  dir := h'.dir.trans h.dir
  pageSize := h'.pageSize.trans h.pageSize
  now := h'.now.trans h.now
  refills := h.refills.trans h'.refills
  image := h'.image
  copes := h'.copes

theorem Uses.trans (h : Uses folder s t img) (h' : Uses folder t u img') : Uses folder s u img' where
  toCarries := h.toCarries.trans h'.toCarries
  disk := h.disk.trans (h.dir ▸ h'.disk)
  grant page := (h'.grant page).trans (h.grant page)

-- Nothing but page files has come to a directory where nothing else was.
theorem Carries.leads (h : Carries folder s t img) (hsound : s.2.Sound s.1.disk folder) :
    Leads folder s t img where
  dir := h.dir
  pageSize := h.pageSize
  now := h.now
  frame := h.refills.toFrame
  image := h.image
  sound := h.copes.sound (hsound.houses.wellFormed.calm.of_eq h.refills.refuses)
    (h.refills.is_folder hsound.houses.directory hsound.houses.is_folder)

-- A change of what is in a cache touches no file.
theorem Copes.carries (h : c'.Copes host.disk folder) (hsame : Restocks c c') :
    Carries folder (host, c) (host, c') (host.disk.image folder) :=
  ⟨hsame.dir_eq, hsame.pageSize_eq, rfl, Disk.Refills.refl _ _, rfl, h⟩

-- As long as the same pages are in the cache, the same is granted.
private theorem grant_congr (hdir : c'.dir = c.dir) (hsize : c'.pageSize = c.pageSize)
    (huses : Disk.Uses c.dir folder d d')
    (hresident : ∀ page : UInt64, (c'.resident[page]?).isSome = (c.resident[page]?).isSome) (page : UInt64) :
    c'.grant d' folder page = c.grant d folder page := by
  unfold grant
  rw [hresident, hdir, hsize, huses.grant]

theorem Copes.uses (h : c'.Copes host.disk folder) (hsame : Restocks c c')
    (hresident : ∀ page : UInt64, (c'.resident[page]?).isSome = (c.resident[page]?).isSome) :
    Uses folder (host, c) (host, c') (host.disk.image folder) :=
  ⟨h.carries hsame, .refl _ _ _,
    grant_congr hsame.dir_eq hsame.pageSize_eq (.refl _ _ _) hresident⟩

-- A page that the cache has, and that was asked for or given back.
theorem isSome_resident_touch (hindex : (c.resident[index]?).isSome) (now : Nat) (id : PageId) (page : UInt64) :
    ((c.touch now index id).resident[page]?).isSome = (c.resident[page]?).isSome := by
  rw [getElem?_resident_touch]
  split
  · next heq =>
    rw [← heq, hindex]
    rfl
  · rfl

theorem isSome_resident_release (c : Cache) (now : Nat) (id : PageId) (page : UInt64) :
    ((c.release now id).resident[page]?).isSome = (c.resident[page]?).isSome := by
  unfold Cache.release
  split
  · rfl
  · next p hp =>
    show ((if c.isResident p id then c.touch now p.index id else c).resident[page]?).isSome = _
    split
    · next hin =>
      refine isSome_resident_touch ?_ now id page
      unfold Cache.isResident at hin
      rw [decide_eq_true_iff, Option.map_eq_some_iff] at hin
      obtain ⟨r, hr, -⟩ := hin
      rw [hr]
      rfl
    · rfl

theorem Copes.of_extends (h : c.Copes d folder) (he : Disk.Extends folder d d') : c.Copes d' folder where
  shelf := h.shelf.of_frame he.toFrame
  pageSize_pos := h.pageSize_pos
  pageSize_lt := h.pageSize_lt
  notClosed := h.notClosed
  resident hr := by
    obtain ⟨p, hp, hmaps⟩ := h.resident hr
    exact ⟨p, hp, hmaps.of_extends he⟩

-- No file is taken away or cut.
theorem Copes.of_grows (h : c.Copes d folder) (hgrows : Disk.Grows (fun _ => False) d d') :
    c.Copes d' folder where
  shelf := {
    numbered := hgrows.numbered
    directory := hgrows.directories _ h.shelf.directory
    locate := Disk.locate_mono hgrows.directories h.shelf.locate
    locate_page := fun page => Disk.locate_mono hgrows.directories (h.shelf.locate_page page) }
  pageSize_pos := h.pageSize_pos
  pageSize_lt := h.pageSize_lt
  notClosed := h.notClosed
  resident hr := by
    obtain ⟨p, hp, hmaps⟩ := h.resident hr
    obtain ⟨hnode, hle⟩ := hgrows.files _ _ (fun hgone => hgone) hmaps.node
    exact ⟨p, hp, hmaps.index_eq, hmaps.size_eq, hmaps.isOpen, hnode, Nat.le_trans hmaps.covers hle⟩

theorem Copes.of_frame {folders : List Location} (h : c.Copes d folder)
    (hframe : Disk.Frame folders d d') (hplace : folder ∉ folders) : c.Copes d' folder where
  shelf := h.shelf.of_frame hframe
  pageSize_pos := h.pageSize_pos
  pageSize_lt := h.pageSize_lt
  notClosed := h.notClosed
  resident hr := by
    obtain ⟨p, hp, hmaps⟩ := h.resident hr
    exact ⟨p, hp, hmaps.of_frame hframe hplace⟩

theorem Sound.of_frame {folders : List Location} (h : c.Sound d folder)
    (hframe : Disk.Frame folders d d') (hplace : folder ∉ folders) : c.Sound d' folder :=
  (h.copes.of_frame hframe hplace).sound (h.houses.wellFormed.calm.of_eq hframe.refuses)
    (h.houses.of_frame hframe hplace).is_folder

theorem Copes.stocks (h : c.Copes d folder) :
    c.Stocks fun page p => p.Maps d folder page c.pageSize :=
  fun _ _ hr => h.resident hr

-- What a page maps does not depend on who holds it.
theorem isFair_maps (d : Disk) (folder : Location) (size : Nat) :
    IsFair fun page p => p.Maps d folder page size :=
  fun _ _ _ halike hmaps => hmaps.of_alike halike

theorem Copes.restock (h : c.Copes d folder) (hsame : Restocks c c')
    (hstocks : c'.Stocks fun page p => p.Maps d folder page c.pageSize) : c'.Copes d folder := by
  obtain ⟨pages, resident, rfl⟩ := hsame
  exact ⟨h.shelf, h.pageSize_pos, h.pageSize_lt, h.notClosed, fun hr => hstocks hr⟩

theorem Sound.restock (h : c.Sound d folder) (hsame : Restocks c c') (hcopes : c'.Copes d folder) :
    Stays d folder c c' :=
  ⟨hsame.dir_eq, hsame.pageSize_eq, hcopes.sound h.houses.wellFormed.calm h.houses.is_folder⟩

-- A page may be put in place of one that maps the same file.
theorem Copes.modifyPage (h : c.Copes d folder) (id : PageId) {f : Page → Page}
    (hf : ∀ p index, c.page? id = some p → p.Maps d folder index c.pageSize →
      (f p).Maps d folder index c.pageSize) : (c.modifyPage id f).Copes d folder :=
  h.restock (restocks_modifyPage c id f) (h.stocks.modifyPage id fun index p => hf p index)

theorem Copes.release (h : c.Copes d folder) (hp : c.page? id = some p)
    (hmaps : p.Maps d folder index c.pageSize) (now : Nat) : (c.release now id).Copes d folder :=
  h.restock (restocks_release c now id)
    (h.stocks.release (isFair_maps _ _ _) hp (hmaps.index_eq.symm ▸ hmaps) now)

-- A page that was just mapped is the one that the cache hands out.
private theorem Copes.takeIn (h : c.Copes d folder) (hmaps : p.Maps d folder index c.pageSize)
    (now : Nat) : (c.takeIn now p).2.Copes d folder :=
  h.restock ⟨_, _, rfl⟩ (h.stocks.takeIn (isFair_maps _ _ _) (hmaps.index_eq.symm ▸ hmaps) now)

-- A page that is handed out already is on a file.
theorem Copes.getElem?_resident_of_barred (h : c.Copes d folder) (hbarred : d.Barred folder index) :
    c.resident[index]? = none := by
  cases hr : c.resident[index]? with
  | none => rfl
  | some r =>
      obtain ⟨p, -, hmaps⟩ := h.resident hr
      cases hmaps.node.symm.trans hbarred

-- A cache that is sound is granted every page.
theorem Sound.grant_eq_ok (h : c.Sound d folder) (page : UInt64) : c.grant d folder page = .ok () := by
  unfold grant
  rw [Disk.grant_of_calm h.houses.wellFormed.calm (h.houses.is_folder.not_barred page), ite_self]

theorem grant_of_frame {folders : List Location} (h : Disk.Frame folders d d') (hplace : folder ∉ folders)
    (c : Cache) (page : UInt64) : c.grant d' folder page = c.grant d folder page := by
  unfold grant
  rw [h.grant_eq hplace]

theorem grant_of_nothing {dir : Path} (hnone : c.resident = ∅) (hdir : c.dir = dir) (hsize : c.pageSize = size)
    (page : UInt64) : c.grant d folder page = d.grant dir folder page size := by
  unfold grant
  rw [hnone, hdir, hsize]
  simp

theorem grant_of_free (hcalm : d.Calm) (hfree : ¬d.Barred folder index) (c : Cache) :
    c.grant d folder index = .ok () := by
  unfold grant
  rw [Disk.grant_of_calm hcalm hfree, ite_self]

-- What is refused is not in the cache, and the disk refuses it.
private theorem refused_of_grant {e : Error} (hgrant : c.grant d folder index = .error e) :
    c.resident[index]? = none ∧ d.grant c.dir folder index c.pageSize = .error e := by
  unfold grant at hgrant
  cases hr : c.resident[index]? with
  | some r =>
      rw [hr] at hgrant
      cases hgrant
  | none =>
      rw [hr] at hgrant
      exact ⟨rfl, hgrant⟩

-- A page that is not granted is missed, and that does not change what is granted.
theorem Copes.withPage_refused (h : c.Copes host.disk folder) {e : Error}
    (hgrant : c.grant host.disk folder index = .error e) (access : Page.Access α) :
    ∃ img, Step.Ends (withPage index access) (host, c) (.error e) (fun t => Uses folder (host, c) t img) ∧
      (host.disk.image folder).Missed index img := by
  obtain ⟨hr, hrefused⟩ := refused_of_grant hgrant
  obtain ⟨img, hmap, hmissed⟩ := Page.ends_map_refused h.shelf hrefused h.pageSize_lt
  have hacquire : Step.Ends (acquire index) (host, c) (.error e) fun t => Uses folder (host, c) t img := by
    unfold acquire retain?
    refine Step.ends_get_bind ?_
    simp only [hr, h.notClosed, Bool.false_eq_true, if_false]
    refine ((hmap.onHost c).mono ?_).bind_error
    rintro ⟨host', c'⟩ ⟨⟨hnow, huses, himage⟩, hc⟩
    obtain rfl : c' = c := hc
    exact ⟨⟨rfl, rfl, hnow, huses.toRefills, himage, h.of_extends huses.toExtends⟩, huses,
      grant_congr rfl rfl huses fun _ => rfl⟩
  refine ⟨img, ?_, hmissed⟩
  unfold withPage
  exact hacquire.bind_error

-- A page that was mapped for the cache is granted from now on, as it was before.
private theorem grant_takeIn (huses : Disk.Uses c.dir folder d d')
    (hgrant : d.grant c.dir folder index c.pageSize = .ok ()) (hp : p.index = index) (now : Nat) (page : UInt64) :
    (c.takeIn now p).2.grant d' folder page = c.grant d folder page := by
  show (if ((Cache.touch _ now p.index c.pages.size).resident[page]?).isSome then _ else
    d'.grant c.dir folder page c.pageSize) = _
  rw [getElem?_resident_touch, huses.grant, hp]
  unfold grant
  split
  · next heq =>
    simp only [← heq, hgrant, ite_self]
  · rfl

private theorem Copes.ends_acquire (h : c.Copes host.disk folder)
    (hgrant : c.grant host.disk folder index = .ok ()) :
    ∃ id, Step.Ends (acquire index) (host, c) (.ok id) fun t =>
      Uses folder (host, c) t ((host.disk.image folder).touch c.pageSize index) ∧
      ∃ p, t.2.page? id = some p ∧ p.Maps t.1.disk folder index c.pageSize := by
  cases hr : c.resident[index]? with
  | some r =>
      obtain ⟨p, hp, hmaps⟩ := h.resident hr
      have hsame : Restocks c ((c.modifyPage r.page Page.retain).touch host.now index r.page) :=
        ⟨_, _, rfl⟩
      have hretained := h.restock hsame (h.stocks.retain (isFair_maps _ _ _) hp hmaps host.now)
      have hresident : ((c.modifyPage r.page Page.retain).resident[index]?).isSome :=
        Option.isSome_of_eq_some hr
      refine ⟨r.page, ?_⟩
      unfold acquire retain?
      refine Step.ends_get_bind ?_
      simp only [hr]
      refine (Step.ends_set (Eq.refl _)).bind ?_
      rintro _ rfl
      rw [hmaps.touch_eq]
      exact Step.ends_pure ⟨hretained.uses hsame (isSome_resident_touch hresident host.now r.page), _,
        page?_modifyPage_self hp Page.retain, hmaps.of_alike (Page.alike_retain p)⟩
  | none =>
      have hgranted : host.disk.grant c.dir folder index c.pageSize = .ok () := by
        unfold grant at hgrant
        rwa [hr] at hgrant
      obtain ⟨p, hmap⟩ := Page.ends_map h.shelf hgranted h.pageSize_pos h.pageSize_lt
      refine ⟨c.pages.size, ?_⟩
      unfold acquire retain?
      refine Step.ends_get_bind ?_
      simp only [hr, h.notClosed, Bool.false_eq_true, if_false]
      refine (hmap.onHost c).bind ?_
      rintro ⟨host', c'⟩ ⟨⟨hnow, huses, himage, hmaps⟩, hc⟩
      obtain rfl : c = c' := hc.symm
      have hcopes := (h.of_extends huses.toExtends).takeIn hmaps host'.now
      refine Step.ends_modifyGet (t := (host', (c.takeIn host'.now p).2)) rfl ?_
      refine ⟨⟨⟨rfl, rfl, hnow, huses.toRefills, himage, hcopes⟩, huses,
        grant_takeIn huses hgranted hmaps.index_eq host'.now⟩, ?_⟩
      exact ⟨p.retain, page?_takeIn c host'.now p, hmaps.of_alike (Page.alike_retain p)⟩

section Perform

variable {access : Page.Access α} {act : Sheet → Except Error (α × Sheet)}
  (hacts : Page.Acts access index c.pageSize act)

include hacts

private theorem Copes.ends_onPage (h : c.Copes host.disk folder) (hp : c.page? id = some p)
    (hmaps : p.Maps host.disk folder index c.pageSize) :
    Step.Ends (onPage id access) (host, c)
      ((host.disk.image folder).perform c.pageSize index act).1 fun t =>
        Uses folder (host, c) t ((host.disk.image folder).perform c.pageSize index act).2 ∧
        ∃ p, t.2.page? id = some p ∧ p.Maps t.1.disk folder index c.pageSize := by
  have hagrees := hacts p host.disk hmaps.index_eq hmaps.size_eq hmaps.isOpen
  unfold onPage Image.perform
  rw [hmaps.mapped_eq]
  refine Step.ends_get_bind ?_
  simp only [hp]
  generalize access p host.disk = result, act (host.disk.content p.file).sheet = expected at hagrees
  cases hagrees with
  | error e =>
      refine (Step.ends_ofExcept ?_).bind_error
      rw [hmaps.touch_eq]
      exact ⟨h.uses (.refl c) fun _ => rfl, p, hp, hmaps⟩
  | @ok d' s a dirty hrewrites hsize =>
      have hextends := hrewrites.extends_place h.shelf.numbered hmaps.node (Nat.le_of_eq hsize.symm)
      have halike : p.Alike { p with dirty } := ⟨rfl, rfl, rfl, rfl⟩
      refine (Step.ends_ofExcept (Eq.refl _)).bind ?_
      rintro _ rfl
      refine (Step.ends_set (Eq.refl _)).bind ?_
      rintro _ rfl
      have hcopes : (c.modifyPage id fun _ => { p with dirty }).Copes d' folder := by
        refine (h.of_extends hextends).modifyPage id fun q page hq hqmaps => ?_
        rw [hp] at hq
        cases hq
        exact hqmaps.of_alike halike
      have hrefills := hrewrites.refills h.shelf.numbered hmaps.node (Nat.le_of_eq hsize.symm)
      have himage := hrewrites.image_eq h.shelf.numbered hmaps.node
      have huses : Disk.Uses c.dir folder host.disk d' := by
        refine Disk.uses_of_set hextends hrefills himage fun _ => ?_
        rw [hsize, Image.sheet, Disk.image_eq_some hmaps.node]
        rfl
      refine Step.ends_pure ⟨⟨⟨rfl, rfl, rfl, hrefills, himage, hcopes⟩, huses,
        grant_congr rfl rfl huses fun _ => rfl⟩, ?_⟩
      exact ⟨{ p with dirty }, page?_modifyPage_self hp _, (hmaps.of_extends hextends).of_alike halike⟩

theorem Copes.withPage (h : c.Copes host.disk folder) (hgrant : c.grant host.disk folder index = .ok ()) :
    Step.Ends (withPage index access) (host, c)
      ((host.disk.image folder).perform c.pageSize index act).1 fun t =>
        Uses folder (host, c) t ((host.disk.image folder).perform c.pageSize index act).2 := by
  obtain ⟨id, hacquire⟩ := h.ends_acquire hgrant
  unfold Cache.withPage
  refine hacquire.bind ?_
  rintro ⟨host', c'⟩ ⟨huses, p, hp, hmaps⟩
  have hsize : c'.pageSize = c.pageSize := huses.pageSize
  have himage : host'.disk.image folder = _ := huses.image
  have hperform := Copes.ends_onPage (hsize.symm ▸ hacts) huses.copes hp (hsize.symm ▸ hmaps)
  rw [hsize, himage, Image.perform_touch] at hperform
  refine hperform.attempt.bind ?_
  rintro ⟨host'', c''⟩ ⟨huses', p', hp', hmaps'⟩
  refine (Step.ends_modify (Eq.refl _)).bind ?_
  rintro _ rfl
  have hsize' : c''.pageSize = c.pageSize := huses'.pageSize.trans hsize
  have hreleased := huses'.copes.release hp' (hsize'.symm ▸ hmaps') host''.now
  refine Step.ends_ofExcept ((huses.trans huses').trans ?_)
  exact huses'.image ▸ hreleased.uses (restocks_release c'' host''.now id)
    (isSome_resident_release c'' host''.now id)

end Perform

theorem ends_withPage {access : Page.Access α} {act : Sheet → Except Error (α × Sheet)}
    (h : c.Sound host.disk folder) (hacts : Page.Acts access index c.pageSize act) :
    Step.Ends (withPage index access) (host, c)
      ((host.disk.image folder).perform c.pageSize index act).1 fun t =>
        Leads folder (host, c) t ((host.disk.image folder).perform c.pageSize index act).2 :=
  (h.copes.withPage hacts (h.grant_eq_ok index)).mono fun _ ht => ht.leads h

end

end Cache

end Spool
